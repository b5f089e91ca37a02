import Telemux.Interaction.Contract
import Telemux.TelemtSync.Diff

/-!
# The sync loop of one node

Package `sync`: `SyncNode` reads the desired users, lists the users of the node,
computes the diff and applies it operation by operation, carrying the revision
from reply to reply.  After a revision conflict it lists and computes again.

`SyncNode` is a program over the two interfaces it is given, `DesiredSource` and
`NodeAPI`; what the other side does is left open.  Errors are of any type that
says, as the type assertion to `classifiedError` does, whether an error
classifies itself.
-/

namespace Telemux
namespace Sync

open Interaction TelemtSync

/-!
## Interfaces
-/

/-- The answers of a `classifiedError`. -/
structure Classification where
  revisionConflict : Bool
  readOnly : Bool
  alreadyDone : Bool
deriving DecidableEq, Repr

/-- `aerr.(classifiedError)`: the classification, if the error has one. -/
class ClassifiedError (ε : Type) where
  classified : ε -> Option Classification

/-- An error that is nothing but its classification, as `fakeError` in the tests. -/
instance : ClassifiedError Classification where
  classified := some

/-- The methods of `DesiredSource` and `NodeAPI`. -/
inductive SyncCall where
  | ListDesired
  | ListUsers
  | ApplyOp (op : SyncOp) (ifMatch : String)
deriving DecidableEq, Repr

abbrev SyncReply (ε : Type) : SyncCall -> Type
  | .ListDesired => Except ε (List DesiredUser)
  | .ListUsers => Except ε (List RemoteUser × String)
  | .ApplyOp _ _ => Except ε String

inductive Mode where
  | shadow
  | apply
deriving DecidableEq, Repr

structure SyncOptions where
  mode : Mode
  massDelete : MassDeleteOptions := {}
  force : Bool := false
  /-- 0 stands for 3. -/
  maxConflictRetries : Int := 0

structure Result (ε : Type) where
  ops : List SyncOp := []
  applied : Nat := 0
  skipped : Nat := 0
  failed : Nat := 0
  errors : List ε := []
  aborted : Bool := false
deriving DecidableEq, Repr

/-- The errors `SyncNode` returns, by the message that wraps them. -/
inductive SyncError (ε : Type) where
  | listDesired (err : ε)
  | listUsers (err : ε)
  | readOnly (err : ε)
  | notConverged (maxRetry : Int)
deriving DecidableEq, Repr

/-!
## The error switch

The cases of the source's switch, in its order; an error that is not a
`classifiedError`, and one that answers no to all three questions, is counted.
-/

inductive ErrorClass where
  | alreadyDone
  | readOnly
  | revisionConflict
  | other
deriving DecidableEq, Repr

section Program

variable {ε : Type} [ClassifiedError ε]

def errorClass (aerr : ε) : ErrorClass :=
  match ClassifiedError.classified aerr with
  | none => .other
  | some ce =>
      if ce.alreadyDone then .alreadyDone
      else if ce.readOnly then .readOnly
      else if ce.revisionConflict then .revisionConflict
      else .other

/-!
## The program
-/

inductive AttemptEnd (ε : Type) where
  | finished
  | conflict
  | readOnly (err : ε)

/-- `for _, op := range ops`, with the loop variables `rev` and `res`. -/
def applyLoop : List SyncOp -> String -> Result ε ->
    Program SyncCall (SyncReply ε) (Result ε × AttemptEnd ε)
  | [], _, res => .done (res, .finished)
  | op :: ops, rev, res =>
      .call (.ApplyOp op rev) fun
        | .ok newRev => applyLoop ops newRev { res with applied := res.applied + 1 }
        | .error aerr =>
            match errorClass aerr with
            | .alreadyDone => applyLoop ops rev { res with skipped := res.skipped + 1 }
            | .readOnly => .done (res, .readOnly aerr)
            | .revisionConflict => .done (res, .conflict)
            | .other =>
                applyLoop ops rev
                  { res with failed := res.failed + 1, errors := res.errors ++ [aerr] }

/-- `for attempt := 0; attempt <= maxRetry; attempt++`, by the attempts left. -/
def attempts [RFC3339] (opts : SyncOptions) (des : List DesiredUser) (maxRetry : Int) :
    Nat -> Result ε ->
      Program SyncCall (SyncReply ε) (Result ε × Option (SyncError ε))
  | 0, res => .done (res, some (.notConverged maxRetry))
  | left + 1, res =>
      .call .ListUsers fun
        | .error err => .done (res, some (.listUsers err))
        | .ok (remote, rev) =>
            let ops := ComputeDiff des remote opts.massDelete.toOptions
            let res : Result ε := { ops := ops }
            if IsMassDelete ops remote opts.massDelete && !opts.force then
              .done ({ res with aborted := true }, none)
            else if opts.mode = .shadow then
              .done (res, none)
            else
              (applyLoop ops rev res).bind fun
                | (res, .finished) => .done (res, none)
                | (res, .readOnly aerr) => .done (res, some (.readOnly aerr))
                | (res, .conflict) => attempts opts des maxRetry left res

/-- `maxRetry` after its default. -/
def SyncOptions.maxRetry (opts : SyncOptions) : Int :=
  if opts.maxConflictRetries = 0 then 3 else opts.maxConflictRetries

def SyncNode [RFC3339] (opts : SyncOptions) :
    Program SyncCall (SyncReply ε) (Result ε × Option (SyncError ε)) :=
  .call .ListDesired fun
    | .error err => .done ({}, some (.listDesired err))
    | .ok des => attempts opts des opts.maxRetry (opts.maxRetry + 1).toNat {}

end Program

end Sync
end Telemux
