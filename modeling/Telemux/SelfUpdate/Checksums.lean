import Mathlib.Data.List.Induction
import Mathlib.Logic.Function.Basic
import Telemux.Net.Url

/-!
# The list of checksums

`ParseChecksums` reads the lines of a text as `bufio.Scanner` gives them, splits
each at white space, and keeps the first field of a line under its last field.
Texts are bytes that need not be UTF-8.
-/

namespace Telemux
namespace SelfUpdate

open Net

/-- `strings.ToLower`, on bytes. -/
class LowerCase where
  toLower : Bytes -> Bytes

@[reducible] def sampleLowerCase : LowerCase where
  toLower s := s.map fun b => if 0x41 ≤ b ∧ b ≤ 0x5a then b + 0x20 else b

/-!
## Lines
-/

def newline : UInt8 := 0x0a
def carriageReturn : UInt8 := 0x0d

/-- `bufio.MaxScanTokenSize`. -/
def MaxScanTokenSize : Nat := 65536

/-- `dropCR`. -/
def dropCR (line : Bytes) : Bytes :=
  if line.getLast? = some carriageReturn then line.dropLast else line

def rawLines (text : Bytes) : List Bytes :=
  let parts := text.splitOn newline
  if parts.getLast? = some [] then parts.dropLast else parts

/-- The tokens of a `bufio.Scanner`, which stops at a line too long for its buffer. -/
def scanLines (text : Bytes) : List Bytes :=
  ((rawLines text).takeWhile fun line => decide (line.length < MaxScanTokenSize)).map dropCR

/-!
## Fields

`strings.Fields` splits at runs of what `unicode.IsSpace` calls white space.  The
encoding of each such character starts with a byte that continues no other
character, so looking for the encodings finds the same places as decoding does.
-/

def isSpace1 (a : UInt8) : Bool :=
  (decide (0x09 ≤ a) && decide (a ≤ 0x0d)) || decide (a = 0x20)

def isSpace2 (a b : UInt8) : Bool :=
  decide (a = 0xc2) && (decide (b = 0x85) || decide (b = 0xa0))

def isSpace3 (a b c : UInt8) : Bool :=
  (decide (a = 0xe1) && decide (b = 0x9a) && decide (c = 0x80)) ||
    (decide (a = 0xe2) && decide (b = 0x80) &&
      ((decide (0x80 ≤ c) && decide (c ≤ 0x8a)) || decide (c = 0xa8) || decide (c = 0xa9) ||
        decide (c = 0xaf))) ||
    (decide (a = 0xe2) && decide (b = 0x81) && decide (c = 0x9f)) ||
    (decide (a = 0xe3) && decide (b = 0x80) && decide (c = 0x80))

def extend (a : UInt8) : List Bytes -> List Bytes
  | [] => [[a]]
  | piece :: pieces => (a :: piece) :: pieces

def pieces : Bytes -> List Bytes
  | [] => [[]]
  | a :: rest =>
      if isSpace1 a then [] :: pieces rest
      else
        match rest with
        | b :: rest' =>
            if isSpace2 a b then [] :: pieces rest'
            else
              match rest' with
              | c :: rest'' =>
                  if isSpace3 a b c then [] :: pieces rest''
                  else extend a (pieces (b :: c :: rest''))
              | [] => extend a (pieces [b])
        | [] => [[a]]

def Fields (s : Bytes) : List Bytes :=
  (pieces s).filter fun piece => decide (piece ≠ [])

/-!
## The map
-/

def checksumLine (line : Bytes) : Option (Bytes × Bytes) :=
  match Fields line with
  | [] => none
  | [_] => none
  | digest :: second :: more => some (digest, (second :: more).getLastD second)

/-!
## The last digest for a name
-/

/-- Among `lines`, the last one for `name` has the digest `digest`. -/
def LastLineFor (lines : List Bytes) (name digest : Bytes) : Prop :=
  exists before line after, lines = before ++ line :: after ∧
    checksumLine line = some (digest, name) ∧
    forall other, other ∈ after -> forall digest', checksumLine other ≠ some (digest', name)

def digestFor (name line : Bytes) : Option Bytes :=
  (checksumLine line).bind fun entry => if entry.2 = name then some entry.1 else none

def lastDigest (lines : List Bytes) (name : Bytes) : Option Bytes :=
  (lines.filterMap (digestFor name)).getLast?

theorem digestFor_some {name line digest : Bytes} :
    digestFor name line = some digest <-> checksumLine line = some (digest, name) := by
  unfold digestFor
  cases checksumLine line with
  | none => simp
  | some entry =>
      rw [Option.bind_some, Option.some.injEq, Prod.ext_iff]
      by_cases hname : entry.2 = name
      · simp [hname]
      · simp [hname]

theorem digestFor_none {name line : Bytes} :
    digestFor name line = none <-> forall digest, checksumLine line ≠ some (digest, name) := by
  rw [Option.eq_none_iff_forall_ne_some]
  simp only [ne_eq, digestFor_some]

theorem lastDigest_append (lines lines' : List Bytes) (name : Bytes) :
    lastDigest (lines ++ lines') name = (lastDigest lines' name).or (lastDigest lines name) := by
  unfold lastDigest
  rw [List.filterMap_append, List.getLast?_append]

theorem lastDigest_none {lines : List Bytes} {name : Bytes} :
    lastDigest lines name = none <->
      forall line, line ∈ lines -> forall digest, checksumLine line ≠ some (digest, name) := by
  unfold lastDigest
  rw [List.getLast?_eq_none_iff, List.filterMap_eq_nil_iff]
  simp only [digestFor_none]

theorem lastDigest_some {lines : List Bytes} {name digest : Bytes} :
    lastDigest lines name = some digest <-> LastLineFor lines name digest := by
  constructor
  · intro hlast
    induction lines using List.reverseRecOn with
    | nil => cases hlast
    | append_singleton lines last ih =>
        rw [lastDigest_append] at hlast
        cases hend : digestFor name last with
        | none =>
            have hnone : lastDigest [last] name = none := by
              simp [lastDigest, hend]
            rw [hnone, Option.none_or] at hlast
            rcases ih hlast with ⟨before, line, after, rfl, hline, hafter⟩
            refine ⟨before, line, after ++ [last], by simp, hline, ?_⟩
            exact List.forall_mem_append.mpr
              ⟨hafter, List.forall_mem_singleton.mpr (digestFor_none.mp hend)⟩
        | some digest' =>
            have hsome : lastDigest [last] name = some digest' := by
              simp [lastDigest, hend]
            rw [hsome, Option.some_or, Option.some.injEq] at hlast
            subst hlast
            refine ⟨lines, last, [], rfl, digestFor_some.mp hend, ?_⟩
            intro other hother
            cases hother
  · intro hlast
    rcases hlast with ⟨before, line, after, rfl, hline, hafter⟩
    have hnone : lastDigest after name = none := lastDigest_none.mpr hafter
    rw [lastDigest_append, ← List.singleton_append, lastDigest_append, hnone, Option.none_or]
    rw [show lastDigest [line] name = some digest by
      simp [lastDigest, digestFor_some.mpr hline]]
    rfl

section Parse

variable [LowerCase]

def addChecksum (out : Bytes -> Option Bytes) (line : Bytes) : Bytes -> Option Bytes :=
  match checksumLine line with
  | none => out
  | some (digest, name) => Function.update out name (some (LowerCase.toLower digest))

def ParseChecksums (text : Bytes) : Bytes -> Option Bytes :=
  (scanLines text).foldl addChecksum fun _ => none

theorem addChecksum_other {out : Bytes -> Option Bytes} {line name : Bytes}
    (h : forall digest, checksumLine line ≠ some (digest, name)) :
    addChecksum out line name = out name := by
  unfold addChecksum
  cases hline : checksumLine line with
  | none => rfl
  | some entry =>
      rcases entry with ⟨digest, name'⟩
      have hne : name ≠ name' := by
        intro heq
        subst heq
        exact h digest hline
      exact Function.update_of_ne hne _ _

theorem parseChecksums_eq (text name : Bytes) :
    ParseChecksums text name = (lastDigest (scanLines text) name).map LowerCase.toLower := by
  unfold ParseChecksums
  induction scanLines text using List.reverseRecOn with
  | nil => rfl
  | append_singleton lines last ih =>
      rw [List.foldl_append, List.foldl_cons, List.foldl_nil, lastDigest_append]
      cases hend : digestFor name last with
      | none =>
          rw [addChecksum_other (digestFor_none.mp hend), ih]
          simp [lastDigest, hend]
      | some digest =>
          unfold addChecksum
          rw [digestFor_some.mp hend]
          simp [lastDigest, hend]

theorem parseChecksums_last {text name sum : Bytes}
    (h : ParseChecksums text name = some sum) :
    exists digest, LastLineFor (scanLines text) name digest ∧
      sum = LowerCase.toLower digest := by
  rw [parseChecksums_eq] at h
  rcases Option.map_eq_some_iff.mp h with ⟨digest, hlast, hsum⟩
  exact ⟨digest, lastDigest_some.mp hlast, hsum.symm⟩

theorem parseChecksums_of_last {text name digest : Bytes}
    (h : LastLineFor (scanLines text) name digest) :
    ParseChecksums text name = some (LowerCase.toLower digest) := by
  rw [parseChecksums_eq, lastDigest_some.mpr h]
  rfl

end Parse

example :
    letI := sampleLowerCase
    ParseChecksums (utf8 "AB12  f\r\n\ncd34\tf\nee *f\nff") (utf8 "f") = some (utf8 "cd34") := by
  decide +kernel

end SelfUpdate
end Telemux
