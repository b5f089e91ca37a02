import Telemux.Net.Json
import Telemux.Text.Decimal
import Telemux.Text.Reader

/-!
# Numbers as package `encoding/json` reads them

A number is as much of the text as the grammar takes.  Without a fraction and an
exponent it is an integer, and one that was written in decimal is read back, if
what follows cannot belong to it.
-/

namespace Telemux
namespace Net

open Text

def scanDigits : Reader Char (List Char) := fun text =>
  if text.takeWhile Char.isDigit = [] then none
  else some (text.takeWhile Char.isDigit, text.dropWhile Char.isDigit)

def scanWhole : Reader Char (List Char) :=
  .ahead (fun c => decide (c = '0')) (.next fun c => .pure [c]) scanDigits

def scanFraction : Reader Char (List Char) :=
  .ahead (fun c => decide (c = '.'))
    (.next fun c => scanDigits.map fun digits => c :: digits) (.pure [])

def isSign (c : Char) : Bool := decide (c = '+') || decide (c = '-')

def isExponent (c : Char) : Bool := decide (c = 'e') || decide (c = 'E')

def scanExponent : Reader Char (List Char) :=
  .ahead isExponent
    (.next fun e =>
      .ahead isSign (.next fun sign => scanDigits.map fun digits => e :: sign :: digits)
        (scanDigits.map fun digits => e :: digits))
    (.pure [])

def scanUnsigned : Reader Char (List Char × List Char) :=
  scanWhole.andThen fun whole =>
    scanFraction.andThen fun fraction =>
      scanExponent.map fun exponent => (whole, fraction ++ exponent)

def numberValue (sign whole tail : List Char) : Option Json :=
  if tail = [] then (readInt (sign ++ whole)).map Json.int
  else some (.float (String.ofList (sign ++ whole ++ tail)))

def readSigned (sign : List Char) : Reader Char Json :=
  scanUnsigned.andThen fun number => .given (numberValue sign number.1 number.2)

def readNumber : Reader Char Json :=
  .ahead (fun c => decide (c = '-')) (.next fun c => readSigned [c]) (readSigned [])

/-!
## How much of the text it takes to know
-/

theorem scanDigits_append {digits rest : List Char} (hne : digits ≠ [])
    (hdigits : forall c, c ∈ digits -> c.isDigit = true)
    (hrest : rest.head?.any Char.isDigit = false) :
    scanDigits (digits ++ rest) = some (digits, rest) := by
  have htake : rest.takeWhile Char.isDigit = [] ∧ rest.dropWhile Char.isDigit = rest := by
    cases rest with
    | nil => exact ⟨rfl, rfl⟩
    | cons c rest =>
        have hc : c.isDigit = false := by simpa using hrest
        simp [hc]
  unfold scanDigits
  rw [List.takeWhile_append_of_pos hdigits, List.dropWhile_append_of_pos hdigits, htake.left,
    htake.right, List.append_nil, if_neg hne]

theorem local_scanDigits : scanDigits.Local := by
  intro text digits rest hread
  unfold scanDigits at hread
  split at hread
  · cases hread
  · rename_i hne
    cases hread
    refine ⟨_, List.takeWhile_append_dropWhile.symm, ?_⟩
    intro more hhead
    apply scanDigits_append hne (List.all_eq_true.mp List.all_takeWhile)
    have hnot := List.head?_dropWhile_not Char.isDigit text
    rw [hhead]
    cases hfirst : (text.dropWhile Char.isDigit).head? with
    | none => rfl
    | some c =>
        rw [hfirst] at hnot
        simpa using hnot

theorem local_scanWhole : scanWhole.Local := by
  apply Reader.local_ahead _ local_scanDigits
  apply Reader.local_next
  intro c
  exact (Reader.firm_pure _).isLocal

theorem local_scanFraction : scanFraction.Local := by
  apply Reader.local_ahead _ (Reader.firm_pure _).isLocal
  apply Reader.local_next
  intro c
  exact local_scanDigits.map _

theorem local_scanExponent : scanExponent.Local := by
  apply Reader.local_ahead _ (Reader.firm_pure _).isLocal
  apply Reader.local_next
  intro e
  apply Reader.local_ahead _ (local_scanDigits.map _)
  apply Reader.local_next
  intro sign
  exact local_scanDigits.map _

theorem local_readSigned (sign : List Char) : (readSigned sign).Local := by
  apply Reader.Local.andThen _ fun _ => (Reader.firm_given _).isLocal
  apply local_scanWhole.andThen
  intro whole
  apply local_scanFraction.andThen
  intro fraction
  exact local_scanExponent.map _

theorem local_readNumber : readNumber.Local :=
  Reader.local_ahead (Reader.local_next fun c => local_readSigned [c]) (local_readSigned [])

/-!
## What is written is read
-/

def continuesNumber (c : Char) : Bool :=
  c.isDigit || decide (c = '.') || isExponent c

def Delimited (rest : List Char) : Prop := rest.head?.any continuesNumber = false

theorem toDigits_head {n : Nat} (h : 0 < n) : (Nat.toDigits 10 n).head? ≠ some '0' := by
  induction n using Nat.strongRecOn with
  | ind n ih =>
      by_cases hlt : n < 10
      · rw [Nat.toDigits_of_lt_base hlt]
        have hall : forall k : Fin 10, 0 < k.val -> [Nat.digitChar k.val].head? ≠ some '0' := by
          decide
        exact hall ⟨n, hlt⟩ h
      · have hle : 10 ≤ n := Nat.not_lt.mp hlt
        have hdiv : 0 < n / 10 := Nat.div_pos hle (by decide)
        rw [Nat.toDigits_of_base_le (by decide) hle,
          List.head?_append_of_ne_nil _ Nat.toDigits_ne_nil]
        exact ih (n / 10) (Nat.div_lt_self h (by decide)) hdiv

theorem delimited_other {p : Char -> Bool} {rest : List Char} (h : Delimited rest)
    (hp : forall c, p c = true -> continuesNumber c = true) : rest.head?.any p = false := by
  cases rest with
  | nil => rfl
  | cons c rest =>
      have hfirst : continuesNumber c = false := h
      cases hc : p c with
      | false => simpa using hc
      | true =>
          rw [hp c hc] at hfirst
          cases hfirst

theorem delimited_digits {rest : List Char} (h : Delimited rest) :
    rest.head?.any Char.isDigit = false :=
  delimited_other h fun c hc => by simp [continuesNumber, hc]

theorem delimited_fraction {rest : List Char} (h : Delimited rest) :
    scanFraction rest = some ([], rest) :=
  Reader.ahead_neg (delimited_other h fun c hc => by simp [continuesNumber, hc])

theorem delimited_exponent {rest : List Char} (h : Delimited rest) :
    scanExponent rest = some ([], rest) :=
  Reader.ahead_neg (delimited_other h fun c hc => by simp [continuesNumber, hc])

theorem scanUnsigned_toDigits (n : Nat) {rest : List Char} (h : Delimited rest) :
    scanUnsigned (Nat.toDigits 10 n ++ rest) = some ((Nat.toDigits 10 n, []), rest) := by
  have hwhole : scanWhole (Nat.toDigits 10 n ++ rest) = some (Nat.toDigits 10 n, rest) := by
    by_cases hn : n = 0
    · subst hn
      rfl
    · have hhead : (Nat.toDigits 10 n ++ rest).head?.any (fun c => decide (c = '0')) = false := by
        rw [List.head?_append_of_ne_nil _ Nat.toDigits_ne_nil]
        have hne := toDigits_head (Nat.pos_of_ne_zero hn)
        cases hfirst : (Nat.toDigits 10 n).head? with
        | none => rfl
        | some c =>
            rw [hfirst] at hne
            simpa using hne
      unfold scanWhole
      rw [Reader.ahead_neg hhead]
      apply scanDigits_append Nat.toDigits_ne_nil
      · intro c hc
        exact Nat.isDigit_of_mem_toDigits (by decide) (by decide) hc
      · exact delimited_digits h
  unfold scanUnsigned
  rw [Reader.andThen_some hwhole, Reader.andThen_some (delimited_fraction h),
    Reader.map_some (delimited_exponent h)]
  rfl

theorem readSigned_toDigits {sign : List Char} {n : Nat} {v : Int}
    (hread : readInt (sign ++ Nat.toDigits 10 n) = some v) {rest : List Char}
    (h : Delimited rest) :
    readSigned sign (Nat.toDigits 10 n ++ rest) = some (.int v, rest) := by
  unfold readSigned
  rw [Reader.andThen_some (scanUnsigned_toDigits n h)]
  dsimp only [numberValue, Reader.given]
  rw [if_pos rfl, hread]
  rfl

theorem readNumber_int (n : Int) {rest : List Char} (h : Delimited rest) :
    readNumber ((toString n).toList ++ rest) = some (.int n, rest) := by
  have hread := readInt_toString n
  unfold readNumber
  cases n with
  | ofNat n =>
      have htext : (toString (Int.ofNat n)).toList = Nat.toDigits 10 n := by
        rw [show toString (Int.ofNat n) = Nat.repr n from rfl, Nat.toList_repr]
      have hsign : (Nat.toDigits 10 n ++ rest).head?.any (fun c => decide (c = '-')) = false := by
        cases hdigits : Nat.toDigits 10 n with
        | nil => exact absurd hdigits Nat.toDigits_ne_nil
        | cons c digits =>
            have hc : c.isDigit = true := by
              apply Nat.isDigit_of_mem_toDigits (b := 10) (n := n) (by decide) (by decide)
              rw [hdigits]
              exact List.mem_cons_self
            have hne : c ≠ '-' := by
              intro heq
              rw [heq] at hc
              cases hc
            simpa using hne
      rw [htext] at hread ⊢
      rw [Reader.ahead_neg hsign]
      exact readSigned_toDigits hread h
  | negSucc n =>
      have htext : (toString (Int.negSucc n)).toList = '-' :: Nat.toDigits 10 (n + 1) := by
        rw [show toString (Int.negSucc n) = "-" ++ Nat.repr (n + 1) from rfl,
          String.toList_append, Nat.toList_repr]
        rfl
      rw [htext] at hread ⊢
      rw [List.cons_append, Reader.ahead_pos rfl]
      exact readSigned_toDigits hread h

end Net
end Telemux
