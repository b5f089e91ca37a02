import Telemux.Cli.Flags
import Telemux.Sync.Booked
import Telemux.Telemt.Client

/-!
# The command `sync`

`cmd/telemux`: one call of `SyncNode`, what is printed of it, and the exit code.
The flag package prints the usage by itself, and the database is closed at the end;
neither is here.
-/

namespace Telemux
namespace Cli

open Interaction Sync Telemt TelemtSync

/-!
## Flags
-/

structure SyncFlags where
  db : String := ""
  api : String := "http://127.0.0.1:9091"
  auth : String := ""
  apply : Bool := false
  force : Bool := false
deriving DecidableEq, Repr

def syncFlags : FlagSet SyncFlags where
  formal name :=
    if name = "db" ∨ name = "api" ∨ name = "auth" then some false
    else if name = "apply" ∨ name = "force" then some true
    else none
  setText name v f :=
    if name = "db" then { f with db := v }
    else if name = "api" then { f with api := v }
    else if name = "auth" then { f with auth := v }
    else f
  setBool name b f :=
    if name = "apply" then { f with apply := b }
    else if name = "force" then { f with force := b }
    else f

def SyncFlags.client (f : SyncFlags) : Client where
  BaseURL := f.api
  AuthHeader := f.auth

def SyncFlags.options (f : SyncFlags) : SyncOptions where
  mode := if f.apply then .apply else .shadow
  force := f.force

/-!
## What is printed
-/

/-- `Error`, for `%v`. -/
class ErrorText (ε : Type) where
  text : ε -> String

def SyncError.message {ε : Type} [ErrorText ε] : SyncError ε -> String
  | .listDesired err => "чтение desired: " ++ ErrorText.text err
  | .listUsers err => "список юзеров ноды: " ++ ErrorText.text err
  | .readOnly err => "нода в read_only=true, мутации запрещены: " ++ ErrorText.text err
  | .notConverged maxRetry => "revision-конфликт не сошёлся за " ++ toString maxRetry ++ " попыток"

def Mode.text : Mode -> String
  | .shadow => "shadow"
  | .apply => "apply"

def kindCount (kind : OpKind) (ops : List SyncOp) : Nat :=
  (ops.filter fun op => decide (op.kind = kind)).length

def diffLine {ε : Type} (mode : Mode) (res : Result ε) : String :=
  "режим=" ++ Mode.text mode ++ " diff: create=" ++ toString (kindCount .create res.ops) ++
    " patch=" ++ toString (kindCount .patch res.ops) ++
    " delete=" ++ toString (kindCount .delete res.ops) ++ "\n"

def abortedLine : String := "⚠️  ЗАБЛОКИРОВАНО guard'ом массового сноса (нужен --force)\n"

def appliedLine {ε : Type} (res : Result ε) : String :=
  "применено=" ++ toString res.applied ++ " пропущено(идемпот.)=" ++ toString res.skipped ++
    " ошибок=" ++ toString res.failed ++ "\n"

/-!
## The command
-/

inductive CliCall where
  /-- `store.Open`. -/
  | Open (dsn : String)
  /-- A call of `SyncNode`, with the client for the node. -/
  | Sync (client : Client) (c : SyncCall)
  /-- To the standard output. -/
  | Print (text : String)
  /-- To the standard error. -/
  | Warn (text : String)

abbrev CliReply (ε : Type) : CliCall -> Type
  | .Open _ => Except ε Unit
  | .Sync _ c => SyncReply ε c
  | .Print _ => Unit
  | .Warn _ => Unit

abbrev CliEvent (ε : Type) := Event CliCall (CliReply ε)

abbrev CliProgram (ε α : Type) := Program CliCall (CliReply ε) α

section Command

variable {ε : Type} [ClassifiedError ε] [ErrorText ε] [RFC3339]

omit [ClassifiedError ε] [RFC3339] in
def warnAll : List ε -> Nat -> CliProgram ε Nat
  | [], code => .done code
  | err :: errs, code =>
      .call (.Warn ("  ошибка: " ++ ErrorText.text err ++ "\n")) fun _ => warnAll errs code

omit [ClassifiedError ε] [RFC3339] in
/-- What `runSync` makes of the result. -/
def report (f : SyncFlags) : Result ε × Option (SyncError ε) -> CliProgram ε Nat
  | (_, some err) => .call (.Warn ("sync: " ++ SyncError.message err ++ "\n")) fun _ => .done 1
  | (res, none) =>
      .call (.Print (diffLine f.options.mode res)) fun _ =>
        if res.aborted then .call (.Print abortedLine) fun _ => .done 1
        else if f.apply then
          .call (.Print (appliedLine res)) fun _ =>
            warnAll res.errors (if 0 < res.failed then 1 else 0)
        else .done 0

/-- The exit code of `telemux sync`. -/
def runSync (args : List String) : CliProgram ε Nat :=
  match syncFlags.Parse args {} with
  | none => .done 2
  | some f =>
      .call (.Open f.db) fun
        | .error err => .call (.Warn ("PG: " ++ ErrorText.text err ++ "\n")) fun _ => .done 1
        | .ok _ =>
            ((SyncNode f.options).interp fun c => .call (.Sync f.client c) .done).bind (report f)

end Command

end Cli
end Telemux
