import Telemux.Net.Path

/-!
# Escaped paths

A `URL` has its path decoded, and beside it the encoding that it came with when
that is not the default one.  `EscapedPath` gives an encoding of the path
whatever the two are; its pieces between slashes decode to pieces of the path.
-/

namespace Telemux
namespace Net

def upperhex (n : UInt8) : UInt8 :=
  if n < 10 then 0x30 + n else 0x41 + (n - 10)

/-- `shouldEscape` in a path. -/
def shouldEscape (b : UInt8) : Bool :=
  !(isUnreserved b || (utf8 "$&+,/:;=@").contains b)

def escapeByte (b : UInt8) : Bytes :=
  if shouldEscape b then [percent, upperhex (b / 16), upperhex (b % 16)] else [b]

/-- `escape` of a path. -/
def escape (s : Bytes) : Bytes :=
  s.flatMap escapeByte

def validEncoded (s : Bytes) : Bool :=
  s.all fun b => (utf8 "!$&'()*+,;=:@[]%").contains b || !shouldEscape b

/-- `URL.EscapedPath`, of a URL with these `Path` and `RawPath`. -/
def EscapedPath (path rawPath : Bytes) : Bytes :=
  if decide (rawPath ≠ []) && validEncoded rawPath && decide (unescape rawPath = .ok path) then
    rawPath
  else if path = utf8 "*" then path
  else escape path

/-!
## Decoding what was encoded
-/

theorem hexDigit (n : UInt8) (h : n.toNat < 16) :
    ishex (upperhex n) = true ∧ unhex (upperhex n) = n := by
  have hall : forall k : Fin 16, ishex (upperhex (UInt8.ofNat k)) = true ∧
      unhex (upperhex (UInt8.ofNat k)) = UInt8.ofNat k := by decide
  have hn := hall ⟨n.toNat, h⟩
  rwa [UInt8.ofNat_toNat] at hn

theorem hexadecimal (b : UInt8) :
    ishex (upperhex (b / 16)) = true ∧ ishex (upperhex (b % 16)) = true ∧
      unhex (upperhex (b / 16)) * 16 + unhex (upperhex (b % 16)) = b := by
  have hbound := b.toNat_lt
  have hdiv : (b / 16).toNat = b.toNat / 16 := UInt8.toNat_div b 16
  have hmod : (b % 16).toNat = b.toNat % 16 := UInt8.toNat_mod b 16
  rcases hexDigit (b / 16) (by omega) with ⟨hhi, hhigh⟩
  rcases hexDigit (b % 16) (by omega) with ⟨hlo, hlow⟩
  refine ⟨hhi, hlo, ?_⟩
  rw [hhigh, hlow]
  apply UInt8.toNat_inj.mp
  have hsixteen : (16 : UInt8).toNat = 16 := rfl
  rw [UInt8.toNat_add, UInt8.toNat_mul, hdiv, hmod, hsixteen]
  omega

theorem unescape_escapeByte (b : UInt8) (s : Bytes) :
    unescape (escapeByte b ++ s) = (unescape s).map fun t => b :: t := by
  unfold escapeByte
  split
  · rcases hexadecimal b with ⟨hhi, hlo, hsame⟩
    rw [List.cons_append, List.cons_append, List.cons_append, List.nil_append, unescape,
      if_pos rfl]
    rw [hhi, hlo, hsame]
    rfl
  · rename_i hplain
    have hb : b ≠ percent := by
      intro heq
      rw [heq] at hplain
      exact hplain rfl
    exact unescape_plain hb s

theorem unescape_escape (s : Bytes) : unescape (escape s) = .ok s := by
  induction s with
  | nil => rfl
  | cons b s ih =>
      unfold escape at ih ⊢
      rw [List.flatMap_cons, unescape_escapeByte, ih]
      rfl

theorem unescape_escapedPath (path rawPath : Bytes) :
    unescape (EscapedPath path rawPath) = .ok path := by
  unfold EscapedPath
  split
  · rename_i hraw
    simp only [Bool.and_eq_true, decide_eq_true_eq] at hraw
    exact hraw.right
  · split
    · rename_i hstar
      rw [hstar]
      rfl
    · exact unescape_escape path

/-!
## Pieces
-/

/-- `pathUnescape`: a segment decoded, or as it is if it cannot be. -/
def pathUnescape (s : Bytes) : Bytes :=
  match unescape s with
  | .ok t => t
  | .error _ => s

theorem unescape_append_slash {x y t : Bytes} (h : unescape (x ++ slash :: y) = .ok t) :
    exists d t', unescape x = .ok d ∧ unescape (slash :: y) = .ok t' ∧ t = d ++ t' := by
  fun_induction unescape x generalizing t with
  | case1 => exact ⟨[], t, rfl, h, rfl⟩
  | case2 hi lo rest hhex ih =>
      rw [List.cons_append, List.cons_append, List.cons_append, unescape, if_pos rfl] at h
      rw [if_pos hhex, map_ok_iff] at h
      rcases h with ⟨u, hu, rfl⟩
      rcases ih hu with ⟨d, t', hd, ht', rfl⟩
      exact ⟨_, t', by rw [hd]; rfl, ht', rfl⟩
  | case3 hi lo rest hhex =>
      rw [List.cons_append, List.cons_append, List.cons_append, unescape, if_pos rfl] at h
      rw [if_neg hhex] at h
      cases h
  | case4 s hs =>
      have hslash : ishex slash = false := by decide
      cases s with
      | nil =>
          cases y with
          | nil => cases h
          | cons l rest =>
              rw [List.singleton_append, unescape, if_pos rfl] at h
              simp [hslash] at h
      | cons hi s =>
          cases s with
          | nil =>
              rw [List.cons_append, List.singleton_append, unescape, if_pos rfl] at h
              simp [hslash] at h
          | cons lo rest => exact absurd rfl (hs hi lo rest)
  | case5 b s hb ih =>
      rw [List.cons_append, unescape_plain hb, map_ok_iff] at h
      rcases h with ⟨u, hu, rfl⟩
      rcases ih hu with ⟨d, t', hd, ht', rfl⟩
      exact ⟨b :: d, t', by rw [hd]; rfl, ht', rfl⟩

end Net
end Telemux
