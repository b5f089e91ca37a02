import Mathlib.Algebra.BigOperators.Group.List.Basic
import Mathlib.Algebra.Order.Ring.Nat

/-!
# The Gregorian calendar

Dates of the Gregorian calendar, before and after it was introduced, and the
number of days from the first day of the year 0.  Every number is that of a date,
and the years of the dates follow the numbers.
-/

namespace Telemux
namespace Time

/-!
## Years and months
-/

def isLeap (year : Int) : Bool :=
  decide (year % 4 = 0 ∧ (year % 100 ≠ 0 ∨ year % 400 = 0))

def monthLengths (year : Int) : List Nat :=
  [31, if isLeap year then 29 else 28, 31, 30, 31, 30, 31, 31, 30, 31, 30, 31]

def daysIn (month : Nat) (year : Int) : Nat :=
  (monthLengths year).getD (month - 1) 0

def daysBeforeYear (year : Int) : Int :=
  365 * year + (year + 3) / 4 - (year + 99) / 100 + (year + 399) / 400

structure Date where
  year : Int
  month : Nat
  day : Nat
deriving DecidableEq, Repr

structure Date.Valid (d : Date) : Prop where
  month_pos : 1 ≤ d.month
  month_le : d.month ≤ 12
  day_pos : 1 ≤ d.day
  day_le : d.day ≤ daysIn d.month d.year

instance (d : Date) : Decidable d.Valid :=
  decidable_of_iff (1 ≤ d.month ∧ d.month ≤ 12 ∧ 1 ≤ d.day ∧ d.day ≤ daysIn d.month d.year)
    ⟨fun h => ⟨h.1, h.2.1, h.2.2.1, h.2.2.2⟩,
      fun h => ⟨h.month_pos, h.month_le, h.day_pos, h.day_le⟩⟩

theorem daysIn_le (month : Nat) (year : Int) : daysIn month year ≤ 31 := by
  have hlengths : forall len, len ∈ monthLengths year -> len ≤ 31 := by
    unfold monthLengths
    split
    · decide
    · decide
  unfold daysIn
  rw [List.getD_eq_getElem?_getD]
  cases hlen : (monthLengths year)[month - 1]? with
  | none => exact Nat.zero_le 31
  | some len => exact hlengths len (List.mem_of_getElem? hlen)

def Date.dayNumber (d : Date) : Int :=
  daysBeforeYear d.year + ((monthLengths d.year).take (d.month - 1)).sum + (d.day - 1 : Int)

theorem monthLengths_sum (year : Int) :
    (monthLengths year).sum = if isLeap year then 366 else 365 := by
  unfold monthLengths
  split
  · rfl
  · rfl

theorem daysBeforeYear_succ (year : Int) :
    daysBeforeYear (year + 1) = daysBeforeYear year + (monthLengths year).sum := by
  rw [monthLengths_sum]
  unfold daysBeforeYear isLeap
  split
  · rename_i hleap
    have hcases := of_decide_eq_true hleap
    omega
  · rename_i hleap
    have hcases := of_decide_eq_false (eq_false_of_ne_true hleap)
    omega

theorem daysBeforeYear_mono {year year' : Int} (h : year ≤ year') :
    daysBeforeYear year ≤ daysBeforeYear year' := by
  unfold daysBeforeYear
  omega

theorem daysBeforeYear_bounds (year : Int) :
    146097 * year - 396 ≤ 400 * daysBeforeYear year ∧
      400 * daysBeforeYear year ≤ 146097 * year + 699 := by
  unfold daysBeforeYear
  omega

/-!
## Places in consecutive stretches
-/

def locate : List Nat -> Nat -> Nat × Nat
  | [], r => (0, r)
  | len :: lens, r =>
      if r < len then (0, r)
      else ((locate lens (r - len)).1 + 1, (locate lens (r - len)).2)

theorem locate_spec {lens : List Nat} {r : Nat} (h : r < lens.sum) :
    (locate lens r).1 < lens.length ∧
      (locate lens r).2 < lens.getD (locate lens r).1 0 ∧
      (lens.take (locate lens r).1).sum + (locate lens r).2 = r := by
  induction lens generalizing r with
  | nil => cases h
  | cons len lens ih =>
      unfold locate
      split
      · rename_i hfirst
        refine ⟨by simp, ?_, by simp⟩
        simpa using hfirst
      · rename_i hlater
        rw [List.sum_cons] at h
        rcases ih (r := r - len) (by omega) with ⟨hindex, hrest, hsum⟩
        refine ⟨by simpa using hindex, by simpa using hrest, ?_⟩
        dsimp only
        rw [List.take_succ_cons, List.sum_cons]
        omega

/-!
## The date of a day
-/

def yearOf (n : Int) : Int :=
  let year := n * 400 / 146097
  if n < daysBeforeYear year then year - 1
  else if daysBeforeYear (year + 1) ≤ n then year + 1
  else year

theorem yearOf_spec (n : Int) :
    daysBeforeYear (yearOf n) ≤ n ∧ n < daysBeforeYear (yearOf n + 1) := by
  unfold yearOf
  dsimp only
  split
  · have hbounds := daysBeforeYear_bounds (n * 400 / 146097 - 1)
    rw [Int.sub_add_cancel]
    omega
  · split
    · have hbounds := daysBeforeYear_bounds (n * 400 / 146097 + 1 + 1)
      omega
    · omega

theorem le_yearOf_iff (year n : Int) : year ≤ yearOf n <-> daysBeforeYear year ≤ n := by
  have hspec := yearOf_spec n
  constructor
  · intro hle
    exact Int.le_trans (daysBeforeYear_mono hle) hspec.left
  · intro hle
    by_contra hlt
    have hnext : yearOf n + 1 ≤ year := by omega
    have hmono := daysBeforeYear_mono hnext
    omega

def dateOf (n : Int) : Date :=
  let year := yearOf n
  let place := locate (monthLengths year) (n - daysBeforeYear year).toNat
  { year := year, month := place.1 + 1, day := place.2 + 1 }

theorem dateOf_place (n : Int) :
    (n - daysBeforeYear (yearOf n)).toNat < (monthLengths (yearOf n)).sum := by
  have hspec := yearOf_spec n
  rw [daysBeforeYear_succ] at hspec
  omega

theorem dateOf_valid (n : Int) : (dateOf n).Valid := by
  rcases locate_spec (dateOf_place n) with ⟨hindex, hrest, _⟩
  constructor
  · exact Nat.le_add_left 1 _
  · exact hindex
  · exact Nat.le_add_left 1 _
  · exact hrest

theorem dayNumber_dateOf (n : Int) : (dateOf n).dayNumber = n := by
  rcases locate_spec (dateOf_place n) with ⟨_, _, hsum⟩
  have hspec := yearOf_spec n
  unfold Date.dayNumber dateOf
  dsimp only
  rw [Nat.add_sub_cancel]
  omega

end Time
end Telemux
