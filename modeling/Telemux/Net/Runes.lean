import Telemux.Net.Url

/-!
# The characters of a text

Package `unicode/utf8`: bytes are read as characters one after another, and a byte
that begins no character stands for U+FFFD.  What was encoded is read back.
-/

namespace Telemux
namespace Net

/-- `utf8.DecodeRune`, of bytes that are not empty. -/
def DecodeRune (bytes : Bytes) : Char × Nat :=
  match bytes.toByteArray.utf8DecodeChar? 0 with
  | some c => (c, c.utf8Size)
  | none => ('\ufffd', 1)

def runesIn : Nat -> Bytes -> List Char
  | 0, _ => []
  | _ + 1, [] => []
  | left + 1, b :: rest =>
      let (c, size) := DecodeRune (b :: rest)
      c :: runesIn left ((b :: rest).drop size)

/-- `[]rune(string(bytes))`. -/
def runes (bytes : Bytes) : List Char :=
  runesIn bytes.length bytes

theorem utf8_eq_flatMap (s : String) : utf8 s = s.toList.flatMap String.utf8EncodeChar := by
  unfold utf8
  rw [← String.utf8Encode_toList, List.utf8Encode, List.toList_data_toByteArray]

theorem decodeRune_encoded (c : Char) (rest : Bytes) :
    DecodeRune (String.utf8EncodeChar c ++ rest) = (c, c.utf8Size) := by
  unfold DecodeRune
  rw [List.toByteArray_append, ByteArray.utf8DecodeChar?_utf8EncodeChar_append]

theorem runesIn_encode (left : Nat) (c : Char) (rest : Bytes) :
    runesIn (left + 1) (String.utf8EncodeChar c ++ rest) = c :: runesIn left rest := by
  have hsize : (String.utf8EncodeChar c).length = c.utf8Size := by simp
  cases hbytes : String.utf8EncodeChar c ++ rest with
  | nil => exact absurd (List.append_eq_nil_iff.mp hbytes).left String.utf8EncodeChar_ne_nil
  | cons b bytes =>
      rw [runesIn, ← hbytes, decodeRune_encoded]
      dsimp only
      rw [List.drop_left' hsize]

theorem runesIn_encoded {left : Nat} {cs : List Char}
    (h : (cs.flatMap String.utf8EncodeChar).length ≤ left) :
    runesIn left (cs.flatMap String.utf8EncodeChar) = cs := by
  induction cs generalizing left with
  | nil => cases left <;> rfl
  | cons c cs ih =>
      rw [List.flatMap_cons] at h ⊢
      have hsize : (String.utf8EncodeChar c).length = c.utf8Size := by simp
      have hpos := c.utf8Size_pos
      rw [List.length_append, hsize] at h
      cases left with
      | zero => omega
      | succ left => rw [runesIn_encode, ih (by omega)]

theorem runes_utf8 (s : String) : runes (utf8 s) = s.toList := by
  unfold runes
  rw [utf8_eq_flatMap]
  exact runesIn_encoded (Nat.le_refl _)

/-!
## Texts that were cut off
-/

theorem encoded_high {c : Char} (h : 1 < c.utf8Size) {b : UInt8}
    (hb : b ∈ String.utf8EncodeChar c) : 0x80 ≤ b.toNat := by
  rw [← String.length_utf8EncodeChar] at h
  revert hb h
  fun_cases String.utf8EncodeChar c
  · intro h
    simp at h
  · intro _ hb
    simp at hb
    rcases hb with rfl | rfl <;> simp <;> omega
  · intro _ hb
    simp at hb
    rcases hb with rfl | rfl | rfl <;> simp <;> omega
  · intro _ hb
    simp at hb
    rcases hb with rfl | rfl | rfl | rfl <;> simp <;> omega

theorem decodeRune_high {b : UInt8} {rest : Bytes} (h : 0x80 ≤ b.toNat) :
    0x80 ≤ (DecodeRune (b :: rest)).1.toNat := by
  unfold DecodeRune
  split
  · rename_i c hdecode
    rcases ByteArray.exists_of_utf8DecodeChar?_eq_some hdecode with ⟨l, hl⟩
    have hbytes : b :: rest = String.utf8EncodeChar c ++ l.data.toList := by
      have hdata := congrArg (fun a : ByteArray => a.data.toList) hl
      simpa using hdata
    by_cases hone : c.utf8Size = 1
    · rw [String.utf8EncodeChar_eq_singleton hone] at hbytes
      have hb : b = c.val.toUInt8 := (List.cons.inj hbytes).left
      have hle := Char.utf8Size_eq_one_iff.mp hone
      have hval : c.val.toNat ≤ 127 := hle
      rw [hb, UInt32.toNat_toUInt8] at h
      omega
    · have hle : ¬ c.val ≤ 127 := fun hle => hone (Char.utf8Size_eq_one_iff.mpr hle)
      have hval : ¬ c.val.toNat ≤ 127 := hle
      show 0x80 ≤ c.val.toNat
      omega
  · decide

theorem runesIn_high {left : Nat} {bytes : Bytes} (h : forall b, b ∈ bytes -> 0x80 ≤ b.toNat) :
    forall c, c ∈ runesIn left bytes -> 0x80 ≤ c.toNat := by
  induction left generalizing bytes with
  | zero =>
      intro c hc
      cases hc
  | succ left ih =>
      cases bytes with
      | nil =>
          intro c hc
          cases hc
      | cons b rest =>
          intro c hc
          rw [runesIn] at hc
          rcases List.mem_cons.mp hc with hfirst | hrest
          · rw [hfirst]
            exact decodeRune_high (h b List.mem_cons_self)
          · exact ih (fun b' hb' => h b' (List.mem_of_mem_drop hb')) c hrest

theorem runesIn_cut {left : Nat} {cs : List Char} {raw : Bytes}
    (h : raw <+: cs.flatMap String.utf8EncodeChar) (hleft : raw.length ≤ left) :
    exists part missing junk, cs = part ++ missing ∧ runesIn left raw = part ++ junk ∧
      (forall c, c ∈ junk -> 0x80 ≤ c.toNat) ∧
      (missing = [] -> raw = cs.flatMap String.utf8EncodeChar) := by
  induction cs generalizing left raw with
  | nil =>
      have hnil : raw = [] := List.prefix_nil.mp h
      rw [hnil]
      refine ⟨[], [], [], rfl, ?_, by simp, fun _ => rfl⟩
      cases left <;> rfl
  | cons c cs ih =>
      rw [List.flatMap_cons] at h
      have hsize : (String.utf8EncodeChar c).length = c.utf8Size := by simp
      by_cases hwhole : c.utf8Size ≤ raw.length
      · have hstarts : String.utf8EncodeChar c <+: raw :=
          List.prefix_of_prefix_length_le (List.prefix_append _ _) h (Nat.le_trans (Nat.le_of_eq hsize) hwhole)
        rcases hstarts with ⟨raw', rfl⟩
        have hraw' : raw' <+: cs.flatMap String.utf8EncodeChar :=
          (List.prefix_append_right_inj _).mp h
        rw [List.length_append, hsize] at hleft
        have hpos := c.utf8Size_pos
        cases left with
        | zero => omega
        | succ left =>
            have hshorter : raw'.length ≤ left := by omega
            rcases ih hraw' hshorter with
              ⟨part, missing, junk, rfl, hruns, hjunk, hall⟩
            refine ⟨c :: part, missing, junk, rfl, ?_, hjunk, ?_⟩
            · rw [runesIn_encode, hruns]
              rfl
            · intro hmissing
              rw [hall hmissing, List.flatMap_cons]
      · refine ⟨[], c :: cs, runesIn left raw, rfl, rfl, ?_, fun hmissing => by cases hmissing⟩
        apply runesIn_high
        intro b hb
        have hstarts : raw <+: String.utf8EncodeChar c := by
          apply List.prefix_of_prefix_length_le h (List.prefix_append _ _)
          omega
        have hpos := List.length_pos_of_mem hb
        exact encoded_high (by omega) (hstarts.mem hb)

theorem runes_cut {s : String} {raw : Bytes} (h : raw <+: utf8 s) :
    exists part missing junk, s.toList = part ++ missing ∧ runes raw = part ++ junk ∧
      (forall c, c ∈ junk -> 0x80 ≤ c.toNat) ∧ (missing = [] -> raw = utf8 s) := by
  rw [utf8_eq_flatMap] at h ⊢
  exact runesIn_cut h (Nat.le_refl _)

end Net
end Telemux
