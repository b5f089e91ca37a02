import Mathlib.Algebra.Ring.Int.Defs
import Mathlib.Logic.Function.Basic

/-!
# JSON as package `encoding/json` decodes it

A value keeps what decoding looks at: the members of an object in their order,
whether a number is written as an integer, and whether a string that is read was
written with escapes.  Decoding into a Go type fails with an
`UnmarshalTypeError`, ignores unknown members, lets a later member overwrite an
earlier one, and takes null as leave-as-it-is, or nil for a pointer.
-/

namespace Telemux
namespace Net

inductive Json where
  | null
  | bool (b : Bool)
  /-- A number without fraction and exponent. -/
  | int (n : Int)
  /-- Any other number, as it is written. -/
  | float (literal : String)
  | str (s : String)
  /-- A string written with escapes, which package `time` does not resolve. -/
  | escaped (s : String)
  | arr (elems : List Json)
  | obj (members : List (String × Json))
deriving Repr

/-- Which texts are valid JSON, and the value of each. -/
class JsonText where
  read : String -> Option Json

/-- The first value a `json.Decoder` reads from a body that ended, or broke off, there. -/
class JsonStream where
  first : List UInt8 -> (broken : Bool) -> Option Json

/-!
## Members

Names of members are compared as `foldName` compares them: by upper case, with
the two other letters that fold to an ASCII one.
-/

def foldRune (c : Char) : Char :=
  if c = '\u017f' then 'S' else if c = '\u212a' then 'K' else c.toUpper

def foldName (name : String) : List Char :=
  name.toList.map foldRune

/-- Whether a member called `key` is for the field with the tag `tag`. -/
def isField (tag key : String) : Bool :=
  decide (foldName tag = foldName key)

/-!
## Decoding
-/

section Decode

variable {α : Type}

def decodeBool (old : Bool) : Json -> Option Bool
  | .null => some old
  | .bool b => some b
  | _ => none

def decodeString (old : String) : Json -> Option String
  | .null => some old
  | .str s => some s
  | .escaped s => some s
  | _ => none

/-- An `int`, which has 64 bits. -/
def decodeInt : Json -> Option Int
  | .int n => if -2 ^ 63 ≤ n ∧ n < 2 ^ 63 then some n else none
  | _ => none

def decodeUint64 (old : Nat) : Json -> Option Nat
  | .null => some old
  | .int n => if 0 ≤ n ∧ n < 2 ^ 64 then some n.toNat else none
  | _ => none

/-- A pointer: null is nil, and anything else a new value. -/
def decodePointer (decode : Json -> Option α) : Json -> Option (Option α)
  | .null => some none
  | v => (decode v).map some

/-- A struct, whose fields `set` knows. -/
def decodeStruct (set : String -> Json -> α -> Option α) (old : α) : Json -> Option α
  | .null => some old
  | .obj members => members.foldlM (fun a member => set member.1 member.2 a) old
  | _ => none

theorem decodeStruct_member {set : String -> Json -> α -> Option α} {key : String} {v : Json}
    {a a' : α} (h : set key v a = some a') (members : List (String × Json)) :
    decodeStruct set a (.obj ((key, v) :: members)) = decodeStruct set a' (.obj members) := by
  have hcons := List.foldlM_cons (f := fun a (member : String × Json) => set member.1 member.2 a)
    (a := (key, v)) (l := members) (b := a)
  rw [h] at hcons
  exact hcons

def decodeSlice (decode : Json -> Option α) : Json -> Option (List α)
  | .null => some []
  | .arr elems => elems.mapM decode
  | _ => none

/--
The elements of an array, into those that earlier ones left in the array under
the slice.  Elements after the last one stay there.
-/
def decodeSlots (decode : α -> Json -> Option α) (zero : α) :
    List α -> List Json -> Option (List α)
  | slots, [] => some slots
  | [], v :: elems => do
      let a <- decode zero v
      let rest <- decodeSlots decode zero [] elems
      return a :: rest
  | old :: slots, v :: elems => do
      let a <- decode old v
      let rest <- decodeSlots decode zero slots elems
      return a :: rest

end Decode

/-!
## Objects as maps

A server that stores objects reads them as maps from names to values.
-/

abbrev Object := String -> Option Json

def Object.ofMembers (members : List (String × Json)) : Object :=
  members.foldl (fun o member => Function.update o member.1 (some member.2)) fun _ => none

/-- JSON Merge Patch of members that are no objects: null removes, the rest replaces. -/
def Object.mergePatch (o : Object) (patch : List (String × Json)) : Object :=
  patch.foldl
    (fun o member =>
      Function.update o member.1
        (match member.2 with
        | .null => none
        | v => some v))
    o

end Net
end Telemux
