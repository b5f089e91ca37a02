import Mathlib.Logic.Function.Basic
import Telemux.Interaction.Contract
import Telemux.Net.Path

/-!
# The file system under package `os`

The calls the updater makes, and what each of them may do.  Any call may fail;
one that fails changes nothing, except that a write may have stored a part of
the data.  A rename is atomic and replaces a file, never a directory by a file
or a file by a directory.
-/

namespace Telemux
namespace SelfUpdate

open Interaction Net

inductive Node where
  | file (data : Bytes) (mode : Nat)
  | directory
deriving DecidableEq

abbrev Files := Bytes -> Option Node

inductive FsCall where
  | CreateTemp (dir pattern : Bytes)
  | Write (name data : Bytes)
  | Close (name : Bytes)
  | Chmod (name : Bytes) (mode : Nat)
  | Rename (oldpath newpath : Bytes)
  | Remove (name : Bytes)
  | Stat (name : Bytes)

abbrev FsReply (ε : Type) : FsCall -> Type
  | .CreateTemp _ _ => Except ε Bytes
  | .Write _ _ => Except ε Unit
  | .Close _ => Except ε Unit
  | .Chmod _ _ => Except ε Unit
  | .Rename _ _ => Except ε Unit
  | .Remove _ => Except ε Unit
  | .Stat _ => Except ε Unit

abbrev FsEvent (ε : Type) := Event FsCall (FsReply ε)

/-!
## Temporary names

`os.CreateTemp` puts a random decimal number where the pattern has its last `*`.
-/

def star : UInt8 := 0x2a

def isDigit (b : UInt8) : Bool := decide (0x30 ≤ b) && decide (b ≤ 0x39)

/-- `prefixAndSuffix`: the pattern around its last `*`. -/
def prefixAndSuffix (pattern : Bytes) : Bytes × Bytes :=
  if star ∈ pattern then
    ((Cut star pattern.reverse).2.reverse, (Cut star pattern.reverse).1.reverse)
  else (pattern, [])

/-- `joinPath`. -/
def joinPath (dir name : Bytes) : Bytes :=
  if dir.getLast? = some slash then dir ++ name else dir ++ slash :: name

def TempName (dir pattern name : Bytes) : Prop :=
  exists random, random ≠ [] ∧ (forall b, b ∈ random -> isDigit b = true) ∧
    name = joinPath dir (prefixAndSuffix pattern).1 ++ random ++ (prefixAndSuffix pattern).2

/-!
## Effects
-/

/-- A rename may put `node` where `target` is. -/
def Replaceable (node : Node) (target : Option Node) : Prop :=
  target = none ∨ (node = .directory <-> target = some .directory)

/-- Whether a call may answer `r` and leave the files `fs'`. -/
def fileSystemAnswers {ε : Type} (fs : Files) : (c : FsCall) -> FsReply ε c -> Files -> Prop
  | .CreateTemp dir pattern, .ok name, fs' =>
      TempName dir pattern name ∧ fs name = none ∧
        fs' = Function.update fs name (some (.file [] 0o600))
  | .CreateTemp _ _, .error _, fs' => fs' = fs
  | .Write name data, .ok _, fs' =>
      exists old mode, fs name = some (.file old mode) ∧
        fs' = Function.update fs name (some (.file (old ++ data) mode))
  | .Write name data, .error _, fs' =>
      fs' = fs ∨ exists old mode written, fs name = some (.file old mode) ∧ written <+: data ∧
        fs' = Function.update fs name (some (.file (old ++ written) mode))
  | .Close _, _, fs' => fs' = fs
  | .Chmod name mode, .ok _, fs' =>
      exists data old, fs name = some (.file data old) ∧
        fs' = Function.update fs name (some (.file data mode))
  | .Chmod _ _, .error _, fs' => fs' = fs
  | .Rename oldpath newpath, .ok _, fs' =>
      exists node, fs oldpath = some node ∧ Replaceable node (fs newpath) ∧
        fs' = Function.update (Function.update fs oldpath none) newpath (some node)
  | .Rename _ _, .error _, fs' => fs' = fs
  | .Remove name, .ok _, fs' => fs name ≠ none ∧ fs' = Function.update fs name none
  | .Remove _, .error _, fs' => fs' = fs
  | .Stat name, .ok _, fs' => fs name ≠ none ∧ fs' = fs
  | .Stat _, .error _, fs' => fs' = fs

def fileSystem (ε : Type) : Contract FsCall (FsReply ε) Files where
  owes _ _ := True
  answers := fileSystemAnswers

/-!
## Frames
-/

def touched {ε : Type} : (c : FsCall) -> FsReply ε c -> List Bytes
  | .CreateTemp _ _, .ok name => [name]
  | .CreateTemp _ _, .error _ => []
  | .Write name _, _ => [name]
  | .Close _, _ => []
  | .Chmod name _, _ => [name]
  | .Rename oldpath newpath, _ => [oldpath, newpath]
  | .Remove name, _ => [name]
  | .Stat _, _ => []

theorem answers_other {ε : Type} {fs fs' : Files} {c : FsCall} {r : FsReply ε c}
    (h : fileSystemAnswers fs c r fs') {name : Bytes} (hname : name ∉ touched c r) :
    fs' name = fs name := by
  cases c with
  | CreateTemp dir pattern =>
      cases r with
      | error err => rw [show fs' = fs from h]
      | ok tmp =>
          rcases h with ⟨_, _, rfl⟩
          exact Function.update_of_ne (by simpa [touched] using hname) _ _
  | Write tmp data =>
      have hne : name ≠ tmp := by simpa [touched] using hname
      cases r with
      | error err =>
          rcases h with rfl | ⟨_, _, _, _, _, rfl⟩
          · rfl
          · exact Function.update_of_ne hne _ _
      | ok _ =>
          rcases h with ⟨_, _, _, rfl⟩
          exact Function.update_of_ne hne _ _
  | Close tmp =>
      cases r <;> rw [show fs' = fs from h]
  | Chmod tmp mode =>
      have hne : name ≠ tmp := by simpa [touched] using hname
      cases r with
      | error err => rw [show fs' = fs from h]
      | ok _ =>
          rcases h with ⟨_, _, _, rfl⟩
          exact Function.update_of_ne hne _ _
  | Rename oldpath newpath =>
      have hne : name ≠ oldpath ∧ name ≠ newpath := by simpa [touched] using hname
      cases r with
      | error err => rw [show fs' = fs from h]
      | ok _ =>
          rcases h with ⟨_, _, _, rfl⟩
          rw [Function.update_of_ne hne.right, Function.update_of_ne hne.left]
  | Remove tmp =>
      have hne : name ≠ tmp := by simpa [touched] using hname
      cases r with
      | error err => rw [show fs' = fs from h]
      | ok _ =>
          rcases h with ⟨_, rfl⟩
          exact Function.update_of_ne hne _ _
  | Stat tmp =>
      cases r with
      | error err => rw [show fs' = fs from h]
      | ok _ => rw [h.right]

/-!
## Successful renames
-/

section Renames

variable {ε : Type}

def renamed : FsEvent ε -> Option (Bytes × Bytes)
  | ⟨.Rename oldpath newpath, .ok _⟩ => some (oldpath, newpath)
  | ⟨.Rename _ _, .error _⟩ => none
  | ⟨.CreateTemp _ _, _⟩ => none
  | ⟨.Write _ _, _⟩ => none
  | ⟨.Close _, _⟩ => none
  | ⟨.Chmod _ _, _⟩ => none
  | ⟨.Remove _, _⟩ => none
  | ⟨.Stat _, _⟩ => none

def renames (t : List (FsEvent ε)) : List (Bytes × Bytes) :=
  t.filterMap renamed

end Renames

/-!
## Calls that succeed

The deferred removal is left out: after a rename there is nothing to remove.
-/

section Succeeding

variable {ε : Type}

def Succeeds : (c : FsCall) -> FsReply ε c -> Prop
  | .CreateTemp _ _, r => r.isOk = true
  | .Write _ _, r => r.isOk = true
  | .Close _, r => r.isOk = true
  | .Chmod _ _, r => r.isOk = true
  | .Rename _ _, r => r.isOk = true
  | .Remove _, _ => True
  | .Stat _, r => r.isOk = true

def AllSucceed (u : List (FsEvent ε)) : Prop :=
  forall c r, ⟨c, r⟩ ∈ u -> Succeeds c r

theorem allSucceed_nil : AllSucceed ([] : List (FsEvent ε)) :=
  fun _ _ hmem => nomatch hmem

theorem allSucceed_cons {c : FsCall} {r : FsReply ε c} {u : List (FsEvent ε)} :
    AllSucceed (⟨c, r⟩ :: u) <-> Succeeds c r ∧ AllSucceed u := by
  constructor
  · intro h
    exact ⟨h c r List.mem_cons_self, fun c' r' hmem => h c' r' (List.mem_cons_of_mem _ hmem)⟩
  · intro h c' r' hmem
    rcases List.mem_cons.mp hmem with hhead | htail
    · cases hhead
      exact h.left
    · exact h.right c' r' htail

end Succeeding

end SelfUpdate
end Telemux
