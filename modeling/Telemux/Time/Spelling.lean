import Mathlib.Data.Rat.Floor
import Telemux.Time.RFC3339

/-!
# What a timestamp spells

Timestamps by their fields.  RFC 3339 and package `time` find the same instant in a
text, package `time` to the nanosecond, but they do not take the same texts: package
`time` takes hours of one digit, fractions after a comma and offsets of 24 hours or
60 minutes, and RFC 3339 takes small letters and leap seconds.
-/

namespace Telemux
namespace Time

open Text

/-!
## The fields
-/

inductive Zone where
  | utc (letter : Char)
  | offset (sign : Char) (hour min : Nat)
deriving DecidableEq, Repr

def Zone.minutes : Zone -> Int
  | .utc _ => 0
  | .offset sign hour min => if sign = '-' then -(hour * 60 + min : Int) else hour * 60 + min

def Zone.text : Zone -> List Char
  | .utc letter => [letter]
  | .offset sign hour min => sign :: (padded 2 hour ++ ':' :: padded 2 min)

def Zone.Formed : Zone -> Prop
  | .utc letter => letter = 'Z' ∨ letter = 'z'
  | .offset sign hour min => (sign = '+' ∨ sign = '-') ∧ hour < 10 ^ 2 ∧ min < 10 ^ 2

abbrev Fraction := Option (Char × List Char)

def fractionText : Fraction -> List Char
  | none => []
  | some (mark, digits) => mark :: digits

def FractionFormed : Fraction -> Prop
  | none => True
  | some (mark, digits) =>
      (mark = '.' ∨ mark = ',') ∧ digits ≠ [] ∧ digits.all Char.isDigit = true

def FractionByRFC : Fraction -> Prop
  | none => True
  | some (mark, _) => mark = '.'

def fractionNanos : Fraction -> Rat
  | none => 0
  | some (_, digits) =>
      ((Nat.ofDigitChars 10 digits 0 * 10 ^ 9 : Nat) : Rat) / (10 ^ digits.length : Nat)

structure Clock where
  /-- In how many digits the hour is written. -/
  hourWidth : Nat
  hour : Nat
  min : Nat
  sec : Nat
  fraction : Fraction
  zone : Zone
deriving DecidableEq, Repr

def Clock.text (c : Clock) : List Char :=
  padded c.hourWidth c.hour ++ ':' :: (padded 2 c.min ++ ':' :: (padded 2 c.sec ++
    (fractionText c.fraction ++ c.zone.text)))

structure Clock.Formed (c : Clock) : Prop where
  hourWidth : c.hourWidth = 1 ∨ c.hourWidth = 2
  hour : c.hour < 10 ^ c.hourWidth
  min : c.min < 10 ^ 2
  sec : c.sec < 10 ^ 2
  fraction : FractionFormed c.fraction
  zone : c.zone.Formed

structure Spelling where
  year : Nat
  month : Nat
  day : Nat
  delimiter : Char
  clock : Clock
deriving DecidableEq, Repr

def Spelling.text (sp : Spelling) : List Char :=
  padded 4 sp.year ++ '-' :: (padded 2 sp.month ++ '-' :: (padded 2 sp.day ++
    sp.delimiter :: sp.clock.text))

structure Spelling.Formed (sp : Spelling) : Prop where
  year : sp.year < 10 ^ 4
  month : sp.month < 10 ^ 2
  day : sp.day < 10 ^ 2
  clock : sp.clock.Formed

/-- The text `s` is a timestamp with these fields. -/
def Spells (s : String) (sp : Spelling) : Prop :=
  sp.Formed ∧ s = String.ofList sp.text

/-!
## What they stand for
-/

def Spelling.date (sp : Spelling) : Date :=
  ⟨sp.year, sp.month, sp.day⟩

def Spelling.minute (sp : Spelling) : Int :=
  (sp.date.dayNumber - unixEpoch) * 1440 + (sp.clock.hour * 60 + sp.clock.min) -
    sp.clock.zone.minutes

def Spelling.instant (sp : Spelling) : Rat :=
  ((sp.minute * 60 + sp.clock.sec) * second : Int) + fractionNanos sp.clock.fraction

def Zone.ByTime : Zone -> Prop
  | .utc letter => letter = 'Z'
  | .offset _ hour min => hour ≤ 24 ∧ min ≤ 60

/-- Package `time` takes it. -/
def Spelling.ByTime (sp : Spelling) : Prop :=
  sp.date.Valid ∧ sp.delimiter = 'T' ∧ sp.clock.hour < 24 ∧ sp.clock.min < 60 ∧
    sp.clock.sec < 60 ∧ sp.clock.zone.ByTime

def Zone.ByRFC : Zone -> Prop
  | .utc _ => True
  | .offset _ hour min => hour < 24 ∧ min < 60

/-- RFC 3339 has it, where `leap` tells the minutes that end with a leap second. -/
def Spelling.ByRFC (leap : Int -> Bool) (sp : Spelling) : Prop :=
  sp.date.Valid ∧ (sp.delimiter = 'T' ∨ sp.delimiter = 't') ∧ sp.clock.hourWidth = 2 ∧
    sp.clock.hour < 24 ∧ sp.clock.min < 60 ∧
    (sp.clock.sec < 60 ∨ sp.clock.sec = 60 ∧ leap sp.minute = true) ∧
    FractionByRFC sp.clock.fraction ∧ sp.clock.zone.ByRFC

instance : DecidablePred Zone.ByTime
  | .utc letter => inferInstanceAs (Decidable (letter = 'Z'))
  | .offset _ hour min => inferInstanceAs (Decidable (hour ≤ 24 ∧ min ≤ 60))

instance : DecidablePred Spelling.ByTime := fun _ => inferInstanceAs (Decidable (_ ∧ _))

instance : DecidablePred Zone.ByRFC
  | .utc _ => inferInstanceAs (Decidable True)
  | .offset _ hour min => inferInstanceAs (Decidable (hour < 24 ∧ min < 60))

instance : DecidablePred FractionByRFC
  | none => inferInstanceAs (Decidable True)
  | some (mark, _) => inferInstanceAs (Decidable (mark = '.'))

instance (leap : Int -> Bool) : DecidablePred (Spelling.ByRFC leap) :=
  fun _ => inferInstanceAs (Decidable (_ ∧ _))

/-!
## Reading them
-/

def readHour (text : List Char) : Option (Nat × Nat × List Char) :=
  match readDigits 2 text with
  | some (hour, rest) => some (2, hour, rest)
  | none => (readDigits 1 text).map fun r => (1, r)

def readFraction : List Char -> Fraction × List Char
  | mark :: c :: rest =>
      if (mark = '.' ∨ mark = ',') ∧ c.isDigit = true then
        (some (mark, (c :: rest).takeWhile Char.isDigit), (c :: rest).dropWhile Char.isDigit)
      else (none, mark :: c :: rest)
  | text => (none, text)

def readZone : List Char -> Option Zone
  | [letter] => if letter = 'Z' ∨ letter = 'z' then some (.utc letter) else none
  | sign :: text => do
      let (hour, text) <- readDigits 2 text
      let text <- skip ':' text
      let (min, text) <- readDigits 2 text
      if (sign = '+' ∨ sign = '-') ∧ text = [] then some (.offset sign hour min) else none
  | [] => none

def readClock (text : List Char) : Option Clock := do
  let (hourWidth, hour, text) <- readHour text
  let text <- skip ':' text
  let (min, text) <- readDigits 2 text
  let text <- skip ':' text
  let (sec, text) <- readDigits 2 text
  let (fraction, text) := readFraction text
  let zone <- readZone text
  some ⟨hourWidth, hour, min, sec, fraction, zone⟩

def spelling (s : String) : Option Spelling := do
  let (year, text) <- readDigits 4 s.toList
  let text <- skip '-' text
  let (month, text) <- readDigits 2 text
  let text <- skip '-' text
  let (day, text) <- readDigits 2 text
  let (delimiter, text) <- text.head?.map fun c => (c, text.tail)
  (readClock text).map fun clock => ⟨year, month, day, delimiter, clock⟩

/-- The instant of a timestamp of RFC 3339. -/
def rfc3339 (leap : Int -> Bool) (s : String) : Option Rat :=
  (spelling s).bind fun sp => if sp.ByRFC leap then some sp.instant else none

/-!
## What is read is spelled
-/

theorem skip_inv {c : Char} {text rest : List Char} (h : skip c text = some rest) :
    text = c :: rest := by
  cases text with
  | nil => cases h
  | cons d text =>
      have hif : (if d = c then some text else none) = some rest := h
      split at hif
      · rename_i hd
        cases hif
        rw [hd]
      · cases hif

theorem readHour_inv {text rest : List Char} {width hour : Nat}
    (h : readHour text = some (width, hour, rest)) :
    (width = 1 ∨ width = 2) ∧ hour < 10 ^ width ∧ text = padded width hour ++ rest := by
  unfold readHour at h
  split at h
  · rename_i hread
    cases h
    exact ⟨.inr rfl, readDigits_inv (by decide) hread⟩
  · rcases Option.map_eq_some_iff.mp h with ⟨r, hread, heq⟩
    cases heq
    exact ⟨.inl rfl, readDigits_inv (by decide) hread⟩

theorem readHour_padded {width hour : Nat} (hwidth : width = 1 ∨ width = 2)
    (h : hour < 10 ^ width) (rest : List Char) :
    readHour (padded width hour ++ ':' :: rest) = some (width, hour, ':' :: rest) := by
  unfold readHour
  rcases hwidth with rfl | rfl
  · have hnone : readDigits 2 (padded 1 hour ++ ':' :: rest) = none := by
      have hlength := padded_length (by decide) h
      unfold readDigits
      dsimp only
      rw [if_neg]
      intro hdigits
      have hcolon : ':' ∈ (padded 1 hour ++ ':' :: rest).take 2 := by
        rw [List.take_append, hlength]
        exact List.mem_append_right _ List.mem_cons_self
      exact absurd (List.all_eq_true.mp hdigits.right ':' hcolon) (by decide)
    rw [hnone, readDigits_padded (by decide) h]
    rfl
  · rw [readDigits_padded (by decide) h]

theorem readFraction_spec (text : List Char) :
    FractionFormed (readFraction text).1 ∧
      text = fractionText (readFraction text).1 ++ (readFraction text).2 := by
  unfold readFraction
  split
  · split
    · rename_i c rest hmark
      refine ⟨⟨hmark.left, ?_, List.all_takeWhile⟩, ?_⟩
      · rw [List.takeWhile_cons_of_pos hmark.right]
        exact List.cons_ne_nil _ _
      · show _ :: _ = _ :: _ ++ _
        rw [List.cons_append, List.takeWhile_append_dropWhile]
    · exact ⟨trivial, rfl⟩
  · exact ⟨trivial, rfl⟩

theorem readFraction_text {fraction : Fraction} {zone : Zone} (h : FractionFormed fraction)
    (hzone : zone.Formed) :
    readFraction (fractionText fraction ++ zone.text) = (fraction, zone.text) := by
  have hfirst : exists c rest, zone.text = c :: rest ∧ c.isDigit = false ∧ c ≠ '.' ∧ c ≠ ',' := by
    cases zone with
    | utc letter =>
        rcases hzone with rfl | rfl
        · exact ⟨_, _, rfl, by decide, by decide, by decide⟩
        · exact ⟨_, _, rfl, by decide, by decide, by decide⟩
    | offset sign hour min =>
        rcases hzone.left with rfl | rfl
        · exact ⟨_, _, rfl, by decide, by decide, by decide⟩
        · exact ⟨_, _, rfl, by decide, by decide, by decide⟩
  rcases hfirst with ⟨c, rest, htext, hdigit, hdot, hcomma⟩
  rw [htext]
  cases fraction with
  | none =>
      show readFraction (c :: rest) = _
      unfold readFraction
      split
      · rename_i heq
        cases heq
        rw [if_neg]
        intro hmark
        rcases hmark.left with hmark | hmark
        · exact hdot hmark
        · exact hcomma hmark
      · rfl
  | some f =>
      rcases f with ⟨mark, digits⟩
      rcases h with ⟨hmark, hne, hdigits⟩
      cases digits with
      | nil => exact absurd rfl hne
      | cons d digits =>
          have hall := List.all_eq_true.mp hdigits
          have htake : ((d :: digits) ++ c :: rest).takeWhile Char.isDigit = d :: digits := by
            rw [List.takeWhile_append_of_pos hall, List.takeWhile_cons_of_neg (by simp [hdigit]),
              List.append_nil]
          have hdrop : ((d :: digits) ++ c :: rest).dropWhile Char.isDigit = c :: rest := by
            rw [List.dropWhile_append_of_pos hall, List.dropWhile_cons_of_neg (by simp [hdigit])]
          show readFraction (mark :: d :: (digits ++ c :: rest)) = _
          rw [readFraction, if_pos ⟨hmark, hall d List.mem_cons_self⟩, ← List.cons_append, htake,
            hdrop]

theorem readZone_iff {text : List Char} {zone : Zone} :
    readZone text = some zone <-> zone.Formed ∧ text = zone.text := by
  constructor
  · intro h
    unfold readZone at h
    split at h
    · split at h
      · rename_i hletter
        cases h
        exact ⟨hletter, rfl⟩
      · cases h
    · rcases Option.bind_eq_some_iff.mp h with ⟨⟨hour, text₁⟩, hhour, h⟩
      rcases Option.bind_eq_some_iff.mp h with ⟨text₂, hcolon, h⟩
      rcases Option.bind_eq_some_iff.mp h with ⟨⟨min, text₃⟩, hmin, h⟩
      dsimp only at h
      split at h
      · rename_i hsign
        cases h
        rcases readDigits_inv (by decide) hhour with ⟨hhour_lt, htext⟩
        rcases readDigits_inv (by decide) hmin with ⟨hmin_lt, htext₂⟩
        refine ⟨⟨hsign.left, hhour_lt, hmin_lt⟩, ?_⟩
        rw [htext, skip_inv hcolon, htext₂, hsign.right, List.append_nil]
        rfl
      · cases h
    · cases h
  · intro h
    rcases h with ⟨hformed, rfl⟩
    cases zone with
    | utc letter => exact if_pos hformed
    | offset sign hour min =>
        rcases hformed with ⟨hsign, hhour, hmin⟩
        have hread : readZone (sign :: (padded 2 hour ++ ':' :: padded 2 min)) =
            some (.offset sign hour min) := by
          unfold readZone
          split
          · rename_i heq
            have hlength := congrArg List.length heq
            simp [padded_length (by decide) hhour] at hlength
          · rename_i heq
            cases heq
            rw [readDigits_padded (by decide) hhour, read_bind]
            dsimp only
            rw [skip_self, read_bind]
            have hlast := readDigits_padded (by decide) hmin []
            rw [List.append_nil] at hlast
            rw [hlast, read_bind]
            exact if_pos ⟨hsign, rfl⟩
          · rename_i heq
            cases heq
        exact hread

theorem readClock_iff {text : List Char} {c : Clock} :
    readClock text = some c <-> c.Formed ∧ text = c.text := by
  constructor
  · intro h
    rcases Option.bind_eq_some_iff.mp h with ⟨⟨width, hour, text₁⟩, hhour, h⟩
    rcases Option.bind_eq_some_iff.mp h with ⟨text₂, hcolon, h⟩
    rcases Option.bind_eq_some_iff.mp h with ⟨⟨min, text₃⟩, hmin, h⟩
    rcases Option.bind_eq_some_iff.mp h with ⟨text₄, hcolon', h⟩
    rcases Option.bind_eq_some_iff.mp h with ⟨⟨sec, text₅⟩, hsec, h⟩
    rcases Option.bind_eq_some_iff.mp h with ⟨zone, hzone, h⟩
    cases h
    rcases readHour_inv hhour with ⟨hwidth, hhour_lt, htext⟩
    rcases readDigits_inv (by decide) hmin with ⟨hmin_lt, htext₂⟩
    rcases readDigits_inv (by decide) hsec with ⟨hsec_lt, htext₄⟩
    rcases readFraction_spec text₅ with ⟨hfraction, htext₅⟩
    rcases readZone_iff.mp hzone with ⟨hformed, hlast⟩
    have htext₆ : (readFraction text₅).2 = zone.text := hlast
    refine ⟨⟨hwidth, hhour_lt, hmin_lt, hsec_lt, hfraction, hformed⟩, ?_⟩
    rw [htext, skip_inv hcolon, htext₂, skip_inv hcolon', htext₄]
    rw [htext₆] at htext₅
    exact congrArg
      (fun rest => padded width hour ++ ':' :: (padded 2 min ++ ':' :: (padded 2 sec ++ rest)))
      htext₅
  · intro h
    rcases h with ⟨hformed, rfl⟩
    unfold readClock Clock.text
    rw [readHour_padded hformed.hourWidth hformed.hour, read_bind]
    dsimp only
    rw [skip_self, read_bind, readDigits_padded (by decide) hformed.min, read_bind]
    dsimp only
    rw [skip_self, read_bind, readDigits_padded (by decide) hformed.sec, read_bind]
    dsimp only
    rw [readFraction_text hformed.fraction hformed.zone]
    dsimp only
    rw [readZone_iff.mpr ⟨hformed.zone, rfl⟩, read_bind]

theorem spelling_iff {s : String} {sp : Spelling} : spelling s = some sp <-> Spells s sp := by
  constructor
  · intro h
    rcases Option.bind_eq_some_iff.mp h with ⟨⟨year, text₁⟩, hyear, h⟩
    rcases Option.bind_eq_some_iff.mp h with ⟨text₂, hdash, h⟩
    rcases Option.bind_eq_some_iff.mp h with ⟨⟨month, text₃⟩, hmonth, h⟩
    rcases Option.bind_eq_some_iff.mp h with ⟨text₄, hdash', h⟩
    rcases Option.bind_eq_some_iff.mp h with ⟨⟨day, text₅⟩, hday, h⟩
    rcases Option.bind_eq_some_iff.mp h with ⟨⟨delimiter, text₆⟩, hdelimiter, h⟩
    rcases Option.map_eq_some_iff.mp h with ⟨clock, hclock, heq⟩
    cases heq
    rcases readDigits_inv (by decide) hyear with ⟨hyear_lt, htext⟩
    rcases readDigits_inv (by decide) hmonth with ⟨hmonth_lt, htext₂⟩
    rcases readDigits_inv (by decide) hday with ⟨hday_lt, htext₄⟩
    rcases readClock_iff.mp hclock with ⟨hformed, htext₆⟩
    have htext₅ : text₅ = delimiter :: text₆ := by
      cases text₅ with
      | nil => cases hdelimiter
      | cons c rest =>
          cases hdelimiter
          rfl
    refine ⟨⟨hyear_lt, hmonth_lt, hday_lt, hformed⟩, ?_⟩
    unfold Spelling.text
    rw [← htext₆, ← htext₅, ← htext₄, ← skip_inv hdash', ← htext₂, ← skip_inv hdash, ← htext,
      String.ofList_toList]
  · intro h
    rcases h with ⟨hformed, rfl⟩
    unfold spelling Spelling.text
    rw [String.toList_ofList, readDigits_padded (by decide) hformed.year, read_bind]
    dsimp only
    rw [skip_self, read_bind, readDigits_padded (by decide) hformed.month, read_bind]
    dsimp only
    rw [skip_self, read_bind, readDigits_padded (by decide) hformed.day, read_bind]
    dsimp only
    rw [List.head?_cons, Option.map_some, List.tail_cons, read_bind]
    dsimp only
    rw [readClock_iff.mpr ⟨hformed.clock, rfl⟩]
    rfl

/-!
## What package `time` makes of them
-/

theorem fraction_cut {digits : List Char} (h : digits.all Char.isDigit = true) :
    Nat.ofDigitChars 10 (digits.take 9) 0 * 10 ^ (9 - (digits.take 9).length) =
      Nat.ofDigitChars 10 digits 0 * 10 ^ 9 / 10 ^ digits.length := by
  by_cases hshort : digits.length ≤ 9
  · have hpow : 10 ^ 9 = 10 ^ (9 - digits.length) * 10 ^ digits.length := by
      rw [← Nat.pow_add, Nat.sub_add_cancel hshort]
    rw [List.take_of_length_le hshort, hpow, ← Nat.mul_assoc,
      Nat.mul_div_cancel _ (Nat.pow_pos (by decide))]
  · have hlength : (digits.take 9).length = 9 := by
      rw [List.length_take]
      omega
    have hdigits : (digits.drop 9).all Char.isDigit = true := by
      rw [List.all_eq_true] at h ⊢
      exact fun c hc => h c (List.mem_of_mem_drop hc)
    have hdrop := ofDigitChars_lt hdigits
    have hvalue : Nat.ofDigitChars 10 digits 0 =
        10 ^ (digits.drop 9).length * Nat.ofDigitChars 10 (digits.take 9) 0 +
          Nat.ofDigitChars 10 (digits.drop 9) 0 := by
      rw [← Nat.ofDigitChars_eq_ofDigitChars_zero, ← Nat.ofDigitChars_append,
        List.take_append_drop]
    have hpow : 10 ^ digits.length = 10 ^ (digits.drop 9).length * 10 ^ 9 := by
      rw [← Nat.pow_add, List.length_drop]
      congr 1
      omega
    rw [hlength, hpow, Nat.mul_div_mul_right _ _ (by decide), hvalue,
      Nat.mul_add_div (Nat.pow_pos (by decide)), Nat.div_eq_of_lt hdrop]
    simp

theorem getFraction_eq (text : List Char) :
    getFraction text =
      ((⌊fractionNanos (readFraction text).1⌋ : Int).toNat, (readFraction text).2) := by
  fun_cases readFraction text with
  | case1 mark c rest hmark =>
      have hfloor := Rat.floor_natCast_div_natCast
        (Nat.ofDigitChars 10 ((c :: rest).takeWhile Char.isDigit) 0 * 10 ^ 9)
        (10 ^ ((c :: rest).takeWhile Char.isDigit).length)
      rw [getFraction, if_pos hmark]
      dsimp only
      rw [fraction_cut List.all_takeWhile]
      unfold fractionNanos
      rw [hfloor]
      rfl
  | case2 mark c rest hmark =>
      rw [getFraction, if_neg hmark]
      rfl
  | case3 _ hshort =>
      unfold getFraction
      split
      · exact absurd rfl (hshort _ _ _)
      · rfl

theorem fractionNanos_nonneg (fraction : Fraction) : 0 ≤ fractionNanos fraction := by
  cases fraction with
  | none => exact Std.le_refl _
  | some f => exact div_nonneg (Nat.cast_nonneg _) (Nat.cast_nonneg _)

theorem getnum_eq (text : List Char) : getnum true text = readDigits 2 text := by
  unfold getnum
  split
  · rename_i heq
    exact heq.symm
  · rename_i heq
    exact heq.symm

theorem getnum_hour (text : List Char) :
    getnum false text = (readHour text).map Prod.snd := by
  unfold getnum readHour
  cases readDigits 2 text with
  | some r => rfl
  | none =>
      cases readDigits 1 text with
      | none => rfl
      | some r => rfl

theorem padded_two {n : Nat} (h : n < 10 ^ 2) : exists c c', padded 2 n = [c, c'] :=
  List.length_eq_two.mp (padded_length (by decide) h)

theorem readDigits_two {n : Nat} {c c' : Char} {rest : List Char}
    (h : readDigits 2 [c, c'] = some (n, rest)) : n < 10 ^ 2 ∧ padded 2 n = [c, c'] := by
  rcases readDigits_inv (by decide) h with ⟨hlt, htext⟩
  refine ⟨hlt, ?_⟩
  rcases padded_two hlt with ⟨d, d', hpadded⟩
  rw [hpadded] at htext ⊢
  cases htext
  rfl

theorem getZone_iff {text : List Char} {offset : Int} :
    getZone text = some (offset, []) <->
      exists zone, readZone text = some zone ∧ zone.ByTime ∧ offset = zone.minutes * 60 := by
  constructor
  · intro h
    unfold getZone at h
    split at h
    · cases h
      exact ⟨.utc 'Z', rfl, rfl, rfl⟩
    · rcases Option.bind_eq_some_iff.mp h with ⟨⟨hour, text₁⟩, hhour, h⟩
      rcases Option.bind_eq_some_iff.mp h with ⟨⟨min, text₂⟩, hmin, h⟩
      rcases readDigits_two (getnum_eq _ ▸ hhour) with ⟨hhour_lt, hhour_text⟩
      rcases readDigits_two (getnum_eq _ ▸ hmin) with ⟨hmin_lt, hmin_text⟩
      dsimp only at h
      split at h
      · cases h
      · rename_i hrange
        have htaken : hour ≤ 24 ∧ min ≤ 60 := by omega
        split at h
        · rename_i hsign
          cases h
          refine ⟨.offset '+' hour min, readZone_iff.mpr ⟨⟨.inl rfl, hhour_lt, hmin_lt⟩, ?_⟩,
            htaken, rfl⟩
          rw [Zone.text, hhour_text, hmin_text, hsign]
          rfl
        · split at h
          · rename_i hsign
            cases h
            refine ⟨.offset '-' hour min, readZone_iff.mpr ⟨⟨.inr rfl, hhour_lt, hmin_lt⟩, ?_⟩,
              htaken, (Int.neg_mul _ _).symm⟩
            rw [Zone.text, hhour_text, hmin_text, hsign]
            rfl
          · cases h
    · cases h
  · intro h
    rcases h with ⟨zone, hread, htaken, rfl⟩
    rcases readZone_iff.mp hread with ⟨hformed, rfl⟩
    cases zone with
    | utc letter =>
        cases (show letter = 'Z' from htaken)
        rfl
    | offset sign hour min =>
        rcases hformed with ⟨hsign, hhour, hmin⟩
        have hhour_read := readDigits_padded (by decide) hhour []
        have hmin_read := readDigits_padded (by decide) hmin []
        rcases padded_two hhour with ⟨h₁, h₂, hhour_text⟩
        rcases padded_two hmin with ⟨m₁, m₂, hmin_text⟩
        rw [List.append_nil, hhour_text, ← getnum_eq] at hhour_read
        rw [List.append_nil, hmin_text, ← getnum_eq] at hmin_read
        have hrange : ¬ (24 < hour ∨ 60 < min) := by
          have hle : hour ≤ 24 ∧ min ≤ 60 := htaken
          omega
        rw [Zone.text, hhour_text, hmin_text]
        rcases hsign with rfl | rfl
        · show getZone ('+' :: h₁ :: h₂ :: ':' :: m₁ :: m₂ :: []) = _
          rw [getZone]
          · rw [hhour_read, read_bind]
            dsimp only
            rw [hmin_read, read_bind, if_neg hrange, if_pos rfl]
            rfl
          · decide
        · show getZone ('-' :: h₁ :: h₂ :: ':' :: m₁ :: m₂ :: []) = _
          rw [getZone]
          · rw [hhour_read, read_bind]
            dsimp only
            rw [hmin_read, read_bind, if_neg hrange, if_neg (by decide), if_pos rfl, Zone.minutes,
              if_pos rfl, Int.neg_mul]
          · decide

theorem floor_instant (sp : Spelling) :
    (⌊sp.instant⌋ : Int) = Stamp.instant ⟨sp.date, sp.clock.hour, sp.clock.min, sp.clock.sec,
      (⌊fractionNanos sp.clock.fraction⌋ : Int).toNat, sp.clock.zone.minutes * 60⟩ := by
  have hnanos : (0 : Int) ≤ ⌊fractionNanos sp.clock.fraction⌋ :=
    Int.floor_nonneg.mpr (fractionNanos_nonneg _)
  unfold Spelling.instant Stamp.instant Spelling.minute second
  rw [Int.floor_intCast_add]
  dsimp only
  omega

theorem bind_step {α β γ : Type} {o : Option α} {f : α -> Option γ} {f' : α -> Option β}
    {g : β -> Option γ} (h : forall a, f a = (f' a).bind g) :
    (o >>= f) = (o >>= f').bind g := by
  cases o with
  | none => rfl
  | some a => exact h a

theorem parse_zone (year month day hourWidth hour min sec : Nat) (fraction : Fraction)
    (text : List Char) :
    (do
      let (offset, text) <- getZone text
      let date : Date := ⟨year, month, day⟩
      if text = [] ∧ date.Valid ∧ hour < 24 ∧ min < 60 ∧ sec < 60 then
        some (Stamp.instant
          ⟨date, hour, min, sec, (⌊fractionNanos fraction⌋ : Int).toNat, offset⟩)
      else none) =
      (readZone text).bind fun zone =>
        let sp : Spelling :=
          ⟨year, month, day, 'T', hourWidth, hour, min, sec, fraction, zone⟩
        if sp.ByTime then some ⌊sp.instant⌋ else none := by
  apply Option.ext
  intro t
  rw [Option.bind_eq_some_iff]
  constructor
  · intro h
    rcases Option.bind_eq_some_iff.mp h with ⟨⟨offset, rest⟩, hzone, h⟩
    dsimp only at h
    split at h
    · rename_i hvalid
      rcases hvalid with ⟨rfl, hdate, hhour, hmin, hsec⟩
      rcases getZone_iff.mp hzone with ⟨zone, hread, htaken, rfl⟩
      refine ⟨zone, hread, ?_⟩
      dsimp only
      rw [if_pos ⟨hdate, rfl, hhour, hmin, hsec, htaken⟩, floor_instant]
      exact h
    · cases h
  · intro h
    rcases h with ⟨zone, hread, h⟩
    dsimp only at h
    split at h
    · rename_i htime
      rcases htime with ⟨hdate, _, hhour, hmin, hsec, htaken⟩
      rw [getZone_iff.mpr ⟨zone, hread, htaken, rfl⟩, read_bind]
      dsimp only
      rw [floor_instant] at h
      rw [if_pos ⟨rfl, hdate, hhour, hmin, hsec⟩]
      exact h
    · cases h

theorem parse_clock (year month day : Nat) (text : List Char) :
    (do
      let (hour, text) <- getnum false text
      let text <- skip ':' text
      let (min, text) <- getnum true text
      let text <- skip ':' text
      let (sec, text) <- getnum true text
      let (nsec, text) := getFraction text
      let (offset, text) <- getZone text
      let date : Date := ⟨year, month, day⟩
      if text = [] ∧ date.Valid ∧ hour < 24 ∧ min < 60 ∧ sec < 60 then
        some (Stamp.instant ⟨date, hour, min, sec, nsec, offset⟩)
      else none) =
      (readClock text).bind fun clock =>
        let sp : Spelling := ⟨year, month, day, 'T', clock⟩
        if sp.ByTime then some ⌊sp.instant⌋ else none := by
  rw [getnum_hour]
  unfold readClock
  cases readHour text with
  | none => rfl
  | some r =>
      rcases r with ⟨hourWidth, hour, text⟩
      rw [Option.map_some, read_bind, read_bind]
      dsimp only
      apply bind_step
      intro text
      rw [getnum_eq]
      apply bind_step
      intro min
      apply bind_step
      intro text
      rw [getnum_eq]
      apply bind_step
      intro sec
      rw [getFraction_eq]
      dsimp only
      rw [parse_zone year month day hourWidth]
      cases readZone (readFraction sec.2).2 with
      | none => rfl
      | some zone => rfl

theorem parse_eq (s : String) :
    Parse s = (spelling s).bind fun sp => if sp.ByTime then some ⌊sp.instant⌋ else none := by
  unfold Parse spelling
  apply bind_step
  intro year
  apply bind_step
  intro text
  rw [getnum_eq]
  apply bind_step
  intro month
  apply bind_step
  intro text
  rw [getnum_eq]
  apply bind_step
  intro day
  rcases day with ⟨day, text⟩
  cases text with
  | nil => rfl
  | cons delimiter text =>
      by_cases hdelimiter : delimiter = 'T'
      · subst hdelimiter
        dsimp only
        rw [skip_self, read_bind]
        refine (parse_clock year.1 month.1 day text).trans ?_
        show _ = ((readClock text).map _).bind _
        cases readClock text with
        | none => rfl
        | some clock => rfl
      · have hskip : skip 'T' (delimiter :: text) = none := if_neg hdelimiter
        dsimp only
        rw [hskip]
        show none = ((readClock text).map _).bind _
        cases readClock text with
        | none => rfl
        | some clock => exact (if_neg fun htime => hdelimiter htime.right.left).symm

theorem parse_iff {s : String} {t : Int} :
    Parse s = some t <-> exists sp, Spells s sp ∧ sp.ByTime ∧ t = ⌊sp.instant⌋ := by
  rw [parse_eq, Option.bind_eq_some_iff]
  constructor
  · intro h
    rcases h with ⟨sp, hsp, h⟩
    split at h
    · rename_i htime
      cases h
      exact ⟨sp, spelling_iff.mp hsp, htime, rfl⟩
    · cases h
  · intro h
    rcases h with ⟨sp, hsp, htime, rfl⟩
    exact ⟨sp, spelling_iff.mpr hsp, if_pos htime⟩

theorem rfc3339_iff {leap : Int -> Bool} {s : String} {q : Rat} :
    rfc3339 leap s = some q <-> exists sp, Spells s sp ∧ sp.ByRFC leap ∧ q = sp.instant := by
  unfold rfc3339
  rw [Option.bind_eq_some_iff]
  constructor
  · intro h
    rcases h with ⟨sp, hsp, h⟩
    split at h
    · rename_i hrfc
      cases h
      exact ⟨sp, spelling_iff.mp hsp, hrfc, rfl⟩
    · cases h
  · intro h
    rcases h with ⟨sp, hsp, hrfc, rfl⟩
    exact ⟨sp, spelling_iff.mpr hsp, if_pos hrfc⟩

example : rfc3339 (fun _ => false) "1970-01-01t00:00:00.0000000015z" = some (3 / 2) := by
  decide +kernel

end Time
end Telemux
