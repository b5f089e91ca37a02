import Mathlib.Data.List.Basic

/-!
# URLs as package `net/url` reads them

`Parse` on what follows the scheme and the authority of a URL: the fragment is
cut off at the first `#`, the query at the first `?`, and the path is percent-decoded.
Everything is bytes, as in the package.

The second half is about text that is put into a URL as it is: what becomes of
it, and when it stays itself.
-/

namespace Telemux
namespace Net

abbrev Bytes := List UInt8

def utf8 (s : String) : Bytes := s.toByteArray.data.toList

theorem utf8_injective : Function.Injective utf8 := by
  intro s t h
  exact String.toByteArray_inj.mp (ByteArray.ext (Array.toList_inj.mp h))

theorem utf8_append (s t : String) : utf8 (s ++ t) = utf8 s ++ utf8 t := by
  simp [utf8]

/-!
## Parsing
-/

def slash : UInt8 := 0x2f
def question : UInt8 := 0x3f
def hash : UInt8 := 0x23
def percent : UInt8 := 0x25

/-- `strings.Cut` at a one-byte separator. -/
def Cut (sep : UInt8) : Bytes -> Bytes × Bytes
  | [] => ([], [])
  | b :: s => if b = sep then ([], s) else (b :: (Cut sep s).1, (Cut sep s).2)

/-- One of the bytes `stringContainsCTLByte` looks for. -/
def isCTL (b : UInt8) : Bool := decide (b < 0x20) || decide (b = 0x7f)

def ishex (b : UInt8) : Bool :=
  (decide (0x30 ≤ b) && decide (b ≤ 0x39)) || (decide (0x61 ≤ b) && decide (b ≤ 0x66)) ||
    (decide (0x41 ≤ b) && decide (b ≤ 0x46))

def unhex (b : UInt8) : UInt8 :=
  if 0x30 ≤ b && b ≤ 0x39 then b - 0x30
  else if 0x61 ≤ b && b ≤ 0x66 then b - 0x61 + 10
  else if 0x41 ≤ b && b ≤ 0x46 then b - 0x41 + 10
  else 0

inductive URLError where
  /-- "net/url: invalid control character in URL". -/
  | controlCharacter
  /-- `EscapeError`, with at most three bytes of the text. -/
  | escape (s : Bytes)
deriving DecidableEq, Repr

/-- `unescape` of a path or a fragment. -/
def unescape : Bytes -> Except URLError Bytes
  | [] => .ok []
  | b :: s =>
      if b = percent then
        match s with
        | h :: l :: rest =>
            if ishex h && ishex l then
              (unescape rest).map fun t => (unhex h * 16 + unhex l) :: t
            else .error (.escape [b, h, l])
        | s => .error (.escape (b :: s))
      else (unescape s).map fun t => b :: t

structure URL where
  path : Bytes
  rawQuery : Bytes := []
  forceQuery : Bool := false
  fragment : Bytes := []
deriving DecidableEq, Repr

/-- `parse`, from the path on. -/
def parse (rest : Bytes) : Except URLError URL :=
  if rest.any isCTL then .error .controlCharacter
  else if rest.getLast? = some question && rest.count question = 1 then
    (unescape rest.dropLast).map fun path => { path := path, forceQuery := true }
  else
    (unescape (Cut question rest).1).map fun path =>
      { path := path, rawQuery := (Cut question rest).2 }

/-- `Parse`, from the path on. -/
def Parse (rawURL : Bytes) : Except URLError URL :=
  match parse (Cut hash rawURL).1 with
  | .error err => .error err
  | .ok url =>
      if (Cut hash rawURL).2 = [] then .ok url
      else
      (unescape (Cut hash rawURL).2).map fun fragment => { url with fragment := fragment }

/-!
## Cutting
-/

theorem cut_append {sep : UInt8} {p : Bytes} (hp : sep ∉ p) (s : Bytes) :
    Cut sep (p ++ s) = (p ++ (Cut sep s).1, (Cut sep s).2) := by
  induction p with
  | nil => rfl
  | cons b rest ih =>
      have hb : b ≠ sep := by
        intro heq
        subst heq
        exact hp List.mem_cons_self
      have hrest := ih (fun h => hp (List.mem_cons_of_mem b h))
      rw [List.cons_append, Cut, if_neg hb, hrest]
      rfl

theorem cut_of_not_mem {sep : UInt8} {s : Bytes} (hs : sep ∉ s) : Cut sep s = (s, []) := by
  have h := cut_append hs []
  rw [List.append_nil] at h
  rw [h]
  simp [Cut]

theorem cut_length_le (sep : UInt8) (s : Bytes) : (Cut sep s).1.length ≤ s.length := by
  induction s with
  | nil => exact Nat.le_refl 0
  | cons b rest ih =>
      unfold Cut
      split
      · exact Nat.zero_le _
      · exact Nat.succ_le_succ ih

theorem not_mem_of_cut_length {sep : UInt8} {s : Bytes}
    (h : (Cut sep s).1.length = s.length) : sep ∉ s := by
  induction s with
  | nil => exact List.not_mem_nil
  | cons b rest ih =>
      unfold Cut at h
      split at h
      · cases h
      · rename_i hb
        have hrest := ih (Nat.succ.inj h)
        intro hmem
        rcases List.mem_cons.mp hmem with rfl | hmem
        · exact hb rfl
        · exact hrest hmem

/-!
## Percent-encoding
-/

def wellEscaped : Bytes -> Bool
  | [] => true
  | b :: s =>
      (decide (b ≠ percent) ||
        match s with
        | h :: l :: _ => ishex h && ishex l
        | _ => false) && wellEscaped s

theorem ne_percent_of_ishex {b : UInt8} (h : ishex b = true) : b ≠ percent := by
  intro heq
  subst heq
  exact absurd h (by decide)

theorem wellEscaped_plain {b : UInt8} (hb : b ≠ percent) (s : Bytes) :
    wellEscaped (b :: s) = wellEscaped s := by
  conv_lhs => unfold wellEscaped
  simp [hb]

theorem unescape_plain {b : UInt8} (hb : b ≠ percent) (s : Bytes) :
    unescape (b :: s) = (unescape s).map fun t => b :: t := by
  conv_lhs => unfold unescape
  rw [if_neg hb]

theorem map_ok_iff {ε α β : Type} {x : Except ε α} {f : α -> β} {b : β} :
    x.map f = .ok b <-> exists a, x = .ok a ∧ f a = b := by
  cases x <;> simp [Except.map]

theorem unescape_ok_iff (s : Bytes) :
    (exists t, unescape s = .ok t) <-> wellEscaped s = true := by
  fun_induction unescape s with
  | case1 => simp [wellEscaped]
  | case2 h l rest hhex ih =>
      have hh : ishex h = true := (Bool.and_eq_true _ _ ▸ hhex).left
      have hl : ishex l = true := (Bool.and_eq_true _ _ ▸ hhex).right
      have hwell : wellEscaped (percent :: h :: l :: rest) = wellEscaped rest := by
        rw [wellEscaped, wellEscaped_plain (ne_percent_of_ishex hh),
          wellEscaped_plain (ne_percent_of_ishex hl)]
        simp [hhex]
      rw [hwell, ← ih]
      simp only [map_ok_iff]
      constructor
      · intro hdecoded
        rcases hdecoded with ⟨_, t, ht, _⟩
        exact ⟨t, ht⟩
      · intro hdecoded
        rcases hdecoded with ⟨t, ht⟩
        exact ⟨_, t, ht, rfl⟩
  | case3 h l rest hhex => simp [wellEscaped, hhex]
  | case4 s hs =>
      have hfail : wellEscaped (percent :: s) = false := by
        rcases s with _ | ⟨h, _ | ⟨l, rest⟩⟩
        · simp [wellEscaped]
        · simp [wellEscaped]
        · exact absurd rfl (hs h l rest)
      simp [hfail]
  | case5 b s hb ih =>
      rw [wellEscaped_plain hb, ← ih]
      simp only [map_ok_iff]
      constructor
      · intro hdecoded
        rcases hdecoded with ⟨_, t, ht, _⟩
        exact ⟨t, ht⟩
      · intro hdecoded
        rcases hdecoded with ⟨t, ht⟩
        exact ⟨_, t, ht, rfl⟩

theorem unescape_length {s t : Bytes} (h : unescape s = .ok t) :
    t.length ≤ s.length ∧ (t.length = s.length -> percent ∉ s) := by
  fun_induction unescape s generalizing t with
  | case1 =>
      cases h
      exact ⟨Nat.le_refl _, fun _ => List.not_mem_nil⟩
  | case2 h' l rest hhex ih =>
      rcases map_ok_iff.mp h with ⟨u, hu, rfl⟩
      have hlen := (ih hu).left
      simp only [List.length_cons]
      omega
  | case3 h' l rest hhex => cases h
  | case4 s hs => cases h
  | case5 b s hb ih =>
      rcases map_ok_iff.mp h with ⟨u, hu, rfl⟩
      constructor
      · exact Nat.succ_le_succ (ih hu).left
      · intro hlen hmem
        rcases List.mem_cons.mp hmem with heq | hmem
        · exact hb heq.symm
        · exact (ih hu).right (Nat.succ.inj hlen) hmem

theorem unescape_append {p : Bytes} (hp : percent ∉ p) (s : Bytes) :
    unescape (p ++ s) = (unescape s).map fun t => p ++ t := by
  induction p with
  | nil =>
      rw [List.nil_append]
      cases unescape s <;> rfl
  | cons b rest ih =>
      have hb : b ≠ percent := by
        intro heq
        subst heq
        exact hp List.mem_cons_self
      rw [List.cons_append, unescape_plain hb, ih (fun h => hp (List.mem_cons_of_mem b h))]
      cases unescape s <;> rfl

theorem unescape_of_not_mem {s : Bytes} (hs : percent ∉ s) : unescape s = .ok s := by
  have h := unescape_append hs []
  rw [List.append_nil] at h
  rw [h]
  simp [unescape, Except.map]

/-!
## Text put into a path

`s` goes behind `p` as it is, and `p` has nothing in it that means anything.
-/

structure Plain (s : Bytes) : Prop where
  no_hash : hash ∉ s
  no_question : question ∉ s
  no_percent : percent ∉ s

theorem parse_eq (rest : Bytes) :
    parse rest =
      if rest.any isCTL then .error .controlCharacter
      else (unescape (Cut question rest).1).map fun path =>
        { path := path, rawQuery := (Cut question rest).2,
          forceQuery := decide (rest.getLast? = some question ∧ rest.count question = 1) } := by
  unfold parse
  by_cases hforce : rest.getLast? = some question ∧ rest.count question = 1
  · rcases List.getLast?_eq_some_iff.mp hforce.left with ⟨front, rfl⟩
    have hfront : question ∉ front := by
      have hcount := hforce.right
      simpa [List.count_append, List.count_eq_zero] using hcount
    have hcut : Cut question (front ++ [question]) = (front, []) := by
      rw [cut_append hfront]
      simp [Cut]
    simp [hforce, hcut]
  · simp [hforce]

theorem Parse_ok {s : Bytes} {url : URL} (h : Parse s = .ok url) :
    unescape (Cut question (Cut hash s).1).1 = .ok url.path ∧
      url.rawQuery = (Cut question (Cut hash s).1).2 := by
  have hparsed : exists url', parse (Cut hash s).1 = .ok url' ∧ url'.path = url.path ∧
      url'.rawQuery = url.rawQuery := by
    unfold Parse at h
    split at h
    · cases h
    · rename_i url' hurl'
      split at h
      · cases h
        exact ⟨_, hurl', rfl, rfl⟩
      · rcases map_ok_iff.mp h with ⟨fragment, _, rfl⟩
        exact ⟨_, hurl', rfl, rfl⟩
  rcases hparsed with ⟨url', hurl', hpath, hquery⟩
  rw [parse_eq] at hurl'
  split at hurl'
  · cases hurl'
  · rcases map_ok_iff.mp hurl' with ⟨path, hpath', rfl⟩
    exact ⟨hpath ▸ hpath', hquery.symm⟩

theorem path_verbatim_iff {p s : Bytes} (hp : Plain p) {url : URL}
    (h : Parse (p ++ s) = .ok url) :
    (url.rawQuery = [] ∧ url.path = p ++ s) <-> Plain s := by
  rcases Parse_ok h with ⟨hpath, hquery⟩
  rw [cut_append hp.no_hash, cut_append hp.no_question] at hpath hquery
  rw [unescape_append hp.no_percent] at hpath
  rcases map_ok_iff.mp hpath with ⟨t, ht, hurl⟩
  constructor
  · intro hboth
    rcases hboth with ⟨_, hverbatim⟩
    have hts : t = s := List.append_cancel_left (hurl.trans hverbatim)
    rw [hts] at ht
    -- cutting and decoding only ever shorten, and here nothing got shorter
    have hunescaped := (unescape_length ht).left
    have hfirst := cut_length_le hash s
    have hsecond := cut_length_le question (Cut hash s).1
    have hhash : hash ∉ s := not_mem_of_cut_length (by omega)
    simp only [cut_of_not_mem hhash] at ht hunescaped hsecond
    have hquestion : question ∉ s := not_mem_of_cut_length (by omega)
    rw [cut_of_not_mem hquestion] at ht
    exact ⟨hhash, hquestion, (unescape_length ht).right rfl⟩
  · intro hs
    rw [cut_of_not_mem hs.no_hash, cut_of_not_mem hs.no_question] at ht hquery
    rw [unescape_of_not_mem hs.no_percent] at ht
    cases ht
    exact ⟨hquery, hurl.symm⟩

def Refused (s : Bytes) : Prop :=
  (Cut hash s).1.any isCTL = true ∨
    wellEscaped (Cut question (Cut hash s).1).1 = false ∨ wellEscaped (Cut hash s).2 = false

instance (s : Bytes) : Decidable (Refused s) :=
  inferInstanceAs (Decidable (_ ∨ _ ∨ _))

theorem parse_ok_iff (rest : Bytes) :
    (exists url, parse rest = .ok url) <->
      rest.any isCTL = false ∧ wellEscaped (Cut question rest).1 = true := by
  rw [parse_eq, ← unescape_ok_iff]
  cases rest.any isCTL with
  | true => simp
  | false =>
      simp only [Bool.false_eq_true, if_false, map_ok_iff, true_and]
      constructor
      · intro hdecoded
        rcases hdecoded with ⟨_, t, ht, _⟩
        exact ⟨t, ht⟩
      · intro hdecoded
        rcases hdecoded with ⟨t, ht⟩
        exact ⟨_, t, ht, rfl⟩

theorem Parse_ok_iff (s : Bytes) : (exists url, Parse s = .ok url) <-> ¬ Refused s := by
  have hrefused : ¬ Refused s <->
      (exists url, parse (Cut hash s).1 = .ok url) ∧ wellEscaped (Cut hash s).2 = true := by
    rw [parse_ok_iff, Refused]
    simp only [not_or, Bool.not_eq_true, Bool.not_eq_false, and_assoc]
  rw [hrefused, ← unescape_ok_iff]
  unfold Parse
  cases hparsed : parse (Cut hash s).1 with
  | error err => simp
  | ok url =>
      by_cases hempty : (Cut hash s).2 = []
      · simp [hempty, unescape]
      · simp only [hempty, if_false, map_ok_iff, Except.ok.injEq, exists_eq', true_and]
        constructor
        · intro hdecoded
          rcases hdecoded with ⟨_, t, ht, _⟩
          exact ⟨t, ht⟩
        · intro hdecoded
          rcases hdecoded with ⟨t, ht⟩
          exact ⟨_, t, ht, rfl⟩

theorem wellEscaped_append {p : Bytes} (hp : percent ∉ p) (s : Bytes) :
    wellEscaped (p ++ s) = wellEscaped s := by
  induction p with
  | nil => rfl
  | cons b rest ih =>
      have hb : b ≠ percent := by
        intro heq
        subst heq
        exact hp List.mem_cons_self
      rw [List.cons_append, wellEscaped_plain hb]
      exact ih (fun h => hp (List.mem_cons_of_mem b h))

theorem refused_append {p : Bytes} (hp : Plain p) (hctl : p.any isCTL = false) (s : Bytes) :
    Refused (p ++ s) <-> Refused s := by
  unfold Refused
  simp only [cut_append hp.no_hash, cut_append hp.no_question,
    wellEscaped_append hp.no_percent, List.any_append, hctl, Bool.false_or]

/-!
## Unreserved characters

They mean themselves anywhere in a URL.
-/

def isUnreserved (b : UInt8) : Bool :=
  (decide (0x30 ≤ b) && decide (b ≤ 0x39)) || (decide (0x41 ≤ b) && decide (b ≤ 0x5a)) ||
    (decide (0x61 ≤ b) && decide (b ≤ 0x7a)) || [0x2d, 0x2e, 0x5f, 0x7e].contains b

def Unreserved (s : Bytes) : Prop := s.all isUnreserved = true

instance (s : Bytes) : Decidable (Unreserved s) := inferInstanceAs (Decidable (_ = true))

theorem not_mem_of_unreserved {s : Bytes} (hs : Unreserved s) {b : UInt8}
    (hb : isUnreserved b = false) : b ∉ s := by
  intro hmem
  rw [List.all_eq_true.mp hs b hmem] at hb
  cases hb

theorem plain_of_unreserved {s : Bytes} (hs : Unreserved s) : Plain s where
  no_hash := not_mem_of_unreserved hs (by decide)
  no_question := not_mem_of_unreserved hs (by decide)
  no_percent := not_mem_of_unreserved hs (by decide)

theorem not_isCTL_of_isUnreserved {b : UInt8} (h : isUnreserved b = true) :
    isCTL b = false := by
  unfold isUnreserved at h
  unfold isCTL
  simp only [Bool.or_eq_true, Bool.and_eq_true, decide_eq_true_eq, List.contains_iff_mem,
    List.mem_cons, List.not_mem_nil, or_false] at h
  simp only [Bool.or_eq_false_iff, decide_eq_false_iff_not]
  simp only [UInt8.le_iff_toNat_le, UInt8.lt_iff_toNat_lt, ← UInt8.toNat_inj] at h ⊢
  simp at h ⊢
  omega

theorem Parse_unreserved {p s : Bytes} (hp : Plain p) (hctl : p.any isCTL = false)
    (hs : Unreserved s) : exists url, Parse (p ++ s) = .ok url ∧ url.path = p ++ s := by
  have hplain := plain_of_unreserved hs
  have hparses : ¬ Refused (p ++ s) := by
    rw [refused_append hp hctl]
    unfold Refused
    simp only [cut_of_not_mem hplain.no_hash, cut_of_not_mem hplain.no_question]
    have hnoctl : s.any isCTL = false := by
      rw [List.any_eq_false]
      intro b hb
      simp [not_isCTL_of_isUnreserved (List.all_eq_true.mp hs b hb)]
    have hwell : wellEscaped s = true := by
      have h := wellEscaped_append hplain.no_percent []
      rw [List.append_nil] at h
      exact h
    simp [hnoctl, hwell, wellEscaped]
  rcases (Parse_ok_iff _).mpr hparses with ⟨url, hurl⟩
  exact ⟨url, hurl, ((path_verbatim_iff hp hurl).mpr hplain).right⟩

end Net
end Telemux
