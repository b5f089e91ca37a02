import Telemux.Net.Json
import Telemux.Store.Users
import Telemux.Sync.SyncNode

/-!
# The handlers of the panel

Package `server`: the handlers that write to the users table, and `runSync`, the
pass that the sync loop and `POST /api/sync` make.  They are programs over what
they share: the store, the `dirty` channel, `runMu` and `lastSync`.
-/

namespace Telemux
namespace Server

open Interaction Net Store Sync TelemtSync

/-!
## Package `role`
-/

inductive Role where
  | Master
  | Replica
deriving DecidableEq, Repr

def Role.IsMaster (r : Role) : Bool := decide (r = .Master)

/-- `Detect`, given the answer of `pg_is_in_recovery`. -/
def Detect (inRecovery : Bool) : Role :=
  if inRecovery then .Replica else .Master

/-!
## Replies
-/

inductive StoreError (ε : Type) where
  | create (err : CreateError)
  | database (err : ε)

inductive HandlerError (ε : Type) where
  | store (err : StoreError ε)
  | replica
  | needsUsername
  | needsExpiration
  | noSuchUser

def HandlerError.message {ε : Type} : HandlerError ε -> Option String
  | .store _ => none
  | .replica => some "эта нода — replica; запись идёт на master"
  | .needsUsername => some "нужен JSON с непустым username"
  | .needsExpiration => some "нужен JSON \x7bexpiration_at\x7d"
  | .noSuchUser => some "нет такого юзера"

structure SyncStatus (ε : Type) where
  at' : Int := 0
  mode : Option Mode := none
  creates : Nat := 0
  patches : Nat := 0
  deletes : Nat := 0
  applied : Nat := 0
  failed : Nat := 0
  aborted : Bool := false
  error : Option (SyncError ε) := none

inductive ResponseBody (ε : Type) where
  | user (u : User)
  | ok
  | status (st : SyncStatus ε)
  | error (err : HandlerError ε)

structure Response (ε : Type) where
  code : Nat
  body : ResponseBody ε

def Response.Success {ε : Type} (resp : Response ε) : Prop :=
  200 ≤ resp.code ∧ resp.code < 300

/-!
## Calls
-/

inductive ServerCall (ε : Type) where
  | IsInRecovery
  | CreateUser (username secret : String) (exp maxConns : Option Int)
  | DeleteUser (username : String)
  | SetExpiration (username : String) (exp : Option Int)
  | SetEnabled (username : String) (enabled : Bool)
  | markDirty
  /-- `runMu.Lock`. -/
  | Lock
  /-- `runMu.Unlock`. -/
  | Unlock
  | Sync (c : SyncCall)
  /-- `time.Now`. -/
  | Now
  | setLastSync (st : SyncStatus ε)
  | Respond (resp : Response ε)

abbrev ServerReply (ε : Type) : ServerCall ε -> Type
  | .IsInRecovery => Except ε Bool
  | .CreateUser _ _ _ _ => Except (StoreError ε) User
  | .DeleteUser _ => Except ε Bool
  | .SetExpiration _ _ => Except ε Bool
  | .SetEnabled _ _ => Except ε Bool
  | .markDirty => Unit
  | .Lock => Unit
  | .Unlock => Unit
  | .Sync c => SyncReply ε c
  | .Now => Int
  | .setLastSync _ => Unit
  | .Respond _ => Unit

abbrev Handler (ε : Type) := Program (ServerCall ε) (ServerReply ε) Unit

/-!
## Bodies
-/

/-- `time.Time` from a JSON string. -/
class TimeJSON where
  unmarshal : String -> Option Int

def decodeTime [TimeJSON] : Json -> Option Int
  | .str s => TimeJSON.unmarshal s
  | _ => none

structure CreateBody where
  username : String := ""
  secret : String := ""
  expirationAt : Option Int := none
  maxTCPConns : Option Int := none

def decodeCreateBody [TimeJSON] : Json -> Option CreateBody :=
  decodeStruct
    (fun key v (body : CreateBody) =>
      if isField "username" key then
        (decodeString body.username v).map fun username => { body with username := username }
      else if isField "secret" key then
        (decodeString body.secret v).map fun secret => { body with secret := secret }
      else if isField "expiration_at" key then
        (decodePointer decodeTime v).map fun exp => { body with expirationAt := exp }
      else if isField "max_tcp_conns" key then
        (decodePointer decodeInt v).map fun conns => { body with maxTCPConns := conns }
      else some body)
    {}

/-- The body of a renewal is no more than a time. -/
def decodeRenewBody [TimeJSON] : Json -> Option (Option Int) :=
  decodeStruct
    (fun key v exp =>
      if isField "expiration_at" key then decodePointer decodeTime v else some exp)
    none

/-!
## The handlers that write
-/

section Handlers

variable {ε : Type}

def respond (code : Nat) (body : ResponseBody ε) : Handler ε :=
  .call (.Respond ⟨code, body⟩) fun _ => .done ()

def writeErr (code : Nat) (err : HandlerError ε) : Handler ε :=
  respond code (.error err)

def requireMaster (handler : Handler ε) : Handler ε :=
  .call .IsInRecovery fun
    | .error err => writeErr 503 (.store (.database err))
    | .ok inRecovery =>
        if !(Detect inRecovery).IsMaster then writeErr 409 .replica else handler

def answerChanged : Except ε Bool -> Handler ε
  | .error err => writeErr 503 (.store (.database err))
  | .ok false => writeErr 404 .noSuchUser
  | .ok true => .call .markDirty fun _ => respond 200 .ok

/-- `POST /api/users`. -/
def handleCreate [JsonStream] [TimeJSON] (raw : List UInt8) (broken : Bool) : Handler ε :=
  requireMaster
    (match (JsonStream.first raw broken).bind decodeCreateBody with
    | none => writeErr 400 .needsUsername
    | some body =>
        if body.username = "" then writeErr 400 .needsUsername
        else
          .call (.CreateUser body.username body.secret body.expirationAt body.maxTCPConns) fun
            | .error (.create .ErrUserExists) => writeErr 409 (.store (.create .ErrUserExists))
            | .error err => writeErr 503 (.store err)
            | .ok u => .call .markDirty fun _ => respond 201 (.user u))

/-- `DELETE /api/users/{username}`. -/
def handleDelete (username : String) : Handler ε :=
  requireMaster (.call (.DeleteUser username) answerChanged)

/-- `POST /api/users/{username}/renew`. -/
def handleRenew [JsonStream] [TimeJSON] (username : String) (raw : List UInt8)
    (broken : Bool) : Handler ε :=
  requireMaster
    (match (JsonStream.first raw broken).bind decodeRenewBody with
    | none => writeErr 400 .needsExpiration
    | some exp => .call (.SetExpiration username exp) answerChanged)

/-- `POST /api/users/{username}/enable` and `…/disable`. -/
def handleSetEnabled (username : String) (enabled : Bool) : Handler ε :=
  requireMaster (.call (.SetEnabled username enabled) answerChanged)

inductive WriteRequest where
  | create (raw : List UInt8) (broken : Bool)
  | delete (username : String)
  | renew (username : String) (raw : List UInt8) (broken : Bool)
  | setEnabled (username : String) (enabled : Bool)

def WriteRequest.handler [JsonStream] [TimeJSON] : WriteRequest -> Handler ε
  | .create raw broken => handleCreate raw broken
  | .delete username => handleDelete username
  | .renew username raw broken => handleRenew username raw broken
  | .setEnabled username enabled => handleSetEnabled username enabled

end Handlers

/-!
## Passes
-/

section Passes

variable {ε : Type} [ClassifiedError ε] [RFC3339]

def syncStatus (now : Int) (opts : SyncOptions) (res : Result ε) (err : Option (SyncError ε)) :
    SyncStatus ε where
  at' := now
  mode := some opts.mode
  creates := (res.ops.filter fun op => decide (op.kind = .create)).length
  patches := (res.ops.filter fun op => decide (op.kind = .patch)).length
  deletes := (res.ops.filter fun op => decide (op.kind = .delete)).length
  applied := res.applied
  failed := res.failed
  aborted := res.aborted
  error := err

def runSync (opts : SyncOptions) :
    Program (ServerCall ε) (ServerReply ε) (SyncStatus ε) :=
  .call .Lock fun _ =>
    ((SyncNode opts).interp fun c => .call (.Sync c) .done).bind fun
      | (res, err) =>
          .call .Now fun now =>
            .call (.setLastSync (syncStatus now opts res err)) fun _ =>
              .call .Unlock fun _ => .done (syncStatus now opts res err)

/-- A pass of the sync loop, which has no use for the status. -/
def loopPass (opts : SyncOptions) : Handler ε :=
  (runSync opts).bind fun _ => .done ()

/-- `POST /api/sync`. -/
def handleSync (opts : SyncOptions) : Handler ε :=
  (runSync opts).bind fun st => respond 200 (.status st)

end Passes

end Server
end Telemux
