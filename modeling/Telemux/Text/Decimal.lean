import Mathlib.Algebra.Order.Ring.Nat
import Mathlib.Data.List.Basic
import Mathlib.Data.List.Induction

/-!
# Numbers written in decimal

A natural number is a run of digits, an integer may have a sign in front.
Reading is total on digits, leading zeros included, and reads back every number
as it is usually written, or padded to a fixed width.
-/

namespace Telemux
namespace Text

def readNat (digits : List Char) : Option Nat :=
  if digits ≠ [] ∧ digits.all Char.isDigit = true then some (Nat.ofDigitChars 10 digits 0)
  else none

def readInt : List Char -> Option Int
  | '-' :: digits => (readNat digits).map fun n => -(n : Int)
  | '+' :: digits => (readNat digits).map fun n => (n : Int)
  | digits => (readNat digits).map fun n => (n : Int)

theorem readNat_toDigits (n : Nat) : readNat (Nat.toDigits 10 n) = some n := by
  unfold readNat
  rw [if_pos, Nat.ofDigitChars_ten_toDigits]
  constructor
  · exact Nat.toDigits_ne_nil
  · rw [List.all_eq_true]
    intro c hc
    exact Nat.isDigit_of_mem_toDigits (by decide) (by decide) hc

theorem readInt_of_digit {c : Char} {digits : List Char} (hc : c.isDigit = true) :
    readInt (c :: digits) = (readNat (c :: digits)).map fun n => (n : Int) := by
  unfold readInt
  split
  · rename_i heq
    cases heq
    exact absurd hc (by decide)
  · rename_i heq
    cases heq
    exact absurd hc (by decide)
  · rfl

theorem readInt_toString (n : Int) : readInt (toString n).toList = some n := by
  cases n with
  | ofNat n =>
      have htext : (toString (Int.ofNat n)).toList = Nat.toDigits 10 n := by
        rw [show toString (Int.ofNat n) = Nat.repr n from rfl, Nat.toList_repr]
      rw [htext]
      cases hdigits : Nat.toDigits 10 n with
      | nil => exact absurd hdigits Nat.toDigits_ne_nil
      | cons c digits =>
          have hc : c.isDigit = true := by
            apply Nat.isDigit_of_mem_toDigits (b := 10) (n := n) (by decide) (by decide)
            rw [hdigits]
            exact List.mem_cons_self
          rw [readInt_of_digit hc, ← hdigits, readNat_toDigits]
          rfl
  | negSucc n =>
      have htext : (toString (Int.negSucc n)).toList = '-' :: Nat.toDigits 10 (n + 1) := by
        rw [show toString (Int.negSucc n) = "-" ++ Nat.repr (n + 1) from rfl,
          String.toList_append, Nat.toList_repr]
        rfl
      rw [htext, readInt, readNat_toDigits]
      rfl

/-!
## Fixed widths
-/

/-- A number in at least `width` digits. -/
def padded (width n : Nat) : List Char :=
  List.replicate (width - (Nat.toDigits 10 n).length) '0' ++ Nat.toDigits 10 n

/-- A number in exactly `width` digits, and what follows it. -/
def readDigits (width : Nat) (text : List Char) : Option (Nat × List Char) :=
  let digits := text.take width
  if digits.length = width ∧ digits.all Char.isDigit = true then
    some (Nat.ofDigitChars 10 digits 0, text.drop width)
  else none

theorem padded_value (width n : Nat) : Nat.ofDigitChars 10 (padded width n) 0 = n := by
  unfold padded
  rw [Nat.ofDigitChars_append, Nat.ofDigitChars_replicate_zero, Nat.mul_zero,
    Nat.ofDigitChars_ten_toDigits]

theorem padded_digits (width n : Nat) : (padded width n).all Char.isDigit = true := by
  rw [List.all_eq_true]
  intro c hc
  rcases List.mem_append.mp hc with hzero | hdigit
  · rw [List.eq_of_mem_replicate hzero]
    rfl
  · exact Nat.isDigit_of_mem_toDigits (by decide) (by decide) hdigit

theorem padded_length {width n : Nat} (hwidth : 0 < width) (h : n < 10 ^ width) :
    (padded width n).length = width := by
  have hle := (Nat.length_toDigits_le_iff (b := 10) (by decide) hwidth).mpr h
  unfold padded
  rw [List.length_append, List.length_replicate]
  omega

theorem lt_padded_length {width n : Nat} (hwidth : 0 < width) (h : 10 ^ width ≤ n) :
    width < (padded width n).length := by
  have hnot := mt (Nat.length_toDigits_le_iff (b := 10) (by decide) hwidth).mp (Nat.not_lt.mpr h)
  unfold padded
  rw [List.length_append, List.length_replicate]
  omega

theorem readDigits_padded {width n : Nat} (hwidth : 0 < width) (h : n < 10 ^ width)
    (rest : List Char) : readDigits width (padded width n ++ rest) = some (n, rest) := by
  have hlength := padded_length hwidth h
  unfold readDigits
  simp only [List.take_left' hlength, List.drop_left' hlength]
  rw [if_pos ⟨hlength, padded_digits width n⟩, padded_value]

theorem readDigits_rest {width n : Nat} {text rest : List Char}
    (h : readDigits width text = some (n, rest)) : rest = text.drop width := by
  unfold readDigits at h
  dsimp only at h
  split at h
  · cases h
    rfl
  · cases h

theorem readDigits_not_digit {width : Nat} (hwidth : 0 < width) {c : Char} {text : List Char}
    (hc : c.isDigit = false) : readDigits width (c :: text) = none := by
  unfold readDigits
  dsimp only
  rw [if_neg]
  intro h
  have hfirst := List.all_eq_true.mp h.right c
  rw [List.take_cons hwidth] at hfirst
  rw [hfirst List.mem_cons_self] at hc
  cases hc

/-!
## Which digits were read
-/

theorem digit_lt {c : Char} (h : c.isDigit = true) : c.toNat - '0'.toNat < 10 := by
  have hbounds := Char.isDigit_iff_toNat.mp h
  have hzero : '0'.toNat = 48 := rfl
  have hnine : '9'.toNat = 57 := rfl
  omega

theorem ofDigitChars_snoc (digits : List Char) (c : Char) :
    Nat.ofDigitChars 10 (digits ++ [c]) 0 =
      10 * Nat.ofDigitChars 10 digits 0 + (c.toNat - '0'.toNat) := by
  rw [Nat.ofDigitChars_append, Nat.ofDigitChars_cons, Nat.ofDigitChars_nil]

theorem ofDigitChars_lt {digits : List Char} (h : digits.all Char.isDigit = true) :
    Nat.ofDigitChars 10 digits 0 < 10 ^ digits.length := by
  induction digits using List.reverseRecOn with
  | nil => decide
  | append_singleton digits c ih =>
      rw [List.all_append, Bool.and_eq_true] at h
      have hdigits := ih h.left
      have hc : c.toNat - '0'.toNat < 10 := digit_lt (by simpa using h.right)
      rw [ofDigitChars_snoc, List.length_append, List.length_singleton, Nat.pow_succ]
      omega

theorem ofDigitChars_inj {digits digits' : List Char} (h : digits.all Char.isDigit = true)
    (h' : digits'.all Char.isDigit = true) (hlength : digits.length = digits'.length)
    (hvalue : Nat.ofDigitChars 10 digits 0 = Nat.ofDigitChars 10 digits' 0) :
    digits = digits' := by
  induction digits using List.reverseRecOn generalizing digits' with
  | nil => exact (List.length_eq_zero_iff.mp hlength.symm).symm
  | append_singleton digits c ih =>
      induction digits' using List.reverseRecOn with
      | nil => simp at hlength
      | append_singleton digits' c' _ =>
          rw [List.all_append, Bool.and_eq_true] at h h'
          have hc : c.isDigit = true := by simpa using h.right
          have hc' : c'.isDigit = true := by simpa using h'.right
          have hlt := digit_lt hc
          have hlt' := digit_lt hc'
          rw [ofDigitChars_snoc, ofDigitChars_snoc] at hvalue
          have hfront : digits = digits' := by
            apply ih h.left h'.left
            · simpa using hlength
            · omega
          have hlast : c = c' := by
            have hbounds := Char.isDigit_iff_toNat.mp hc
            have hbounds' := Char.isDigit_iff_toNat.mp hc'
            apply Char.toNat_inj.mp
            have hzero : '0'.toNat = 48 := rfl
            omega
          rw [hfront, hlast]

theorem readDigits_inv {width n : Nat} {text rest : List Char} (hwidth : 0 < width)
    (h : readDigits width text = some (n, rest)) :
    n < 10 ^ width ∧ text = padded width n ++ rest := by
  unfold readDigits at h
  dsimp only at h
  split at h
  · rename_i hdigits
    cases h
    have hlt := ofDigitChars_lt hdigits.right
    rw [hdigits.left] at hlt
    have hsame : text.take width =
        padded width (Nat.ofDigitChars 10 (text.take width) 0) := by
      apply ofDigitChars_inj hdigits.right (padded_digits _ _)
      · rw [hdigits.left, padded_length hwidth hlt]
      · rw [padded_value]
    refine ⟨hlt, ?_⟩
    rw [← hsame, List.take_append_drop]
  · cases h

end Text
end Telemux
