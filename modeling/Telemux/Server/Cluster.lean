import Telemux.Net.JsonText
import Telemux.Server.Users
import Telemux.Store.Nodes

/-!
# The cluster

Package `server`, `cluster.go`: the handlers of the registry and of the join
tokens, and the heartbeat that the sync loop sends.  They are programs over the
store, the random source, the HTTP client and the response.

Texts are UTF-8, and the master's URL is one that `net/url` accepts.
-/

namespace Telemux
namespace Server

open Interaction Net Store

/-!
## Errors and responses
-/

inductive ClusterError (ε : Type) where
  | listNodes (err : ε)
  | upsertNode (code : String) (err : ε)
  /-- A row that is there, or the database. -/
  | createJoinToken (err : ε)
  | consumeJoinToken (err : ε)
  | random (err : ε)
  | wrongSecret
  | needsCode
  | tokenGone

def ClusterError.message {ε : Type} (text : ε -> String) : ClusterError ε -> String
  | .listNodes err => "list nodes: " ++ text err
  | .upsertNode code err => "upsert node " ++ code ++ ": " ++ text err
  | .createJoinToken err => "create join token: " ++ text err
  | .consumeJoinToken err => "consume join token: " ++ text err
  | .random err => text err
  | .wrongSecret => "неверный cluster-secret"
  | .needsCode => "нужен JSON с непустым code"
  | .tokenGone => "токен недействителен/использован/истёк"

inductive ClusterBody (ε : Type) where
  | nodes (nodes : List Node)
  | ok
  | joinToken (token expires command : String)
  | bundle (masterURL version note : String)
  | error (err : ClusterError ε)

structure ClusterResponse (ε : Type) where
  code : Nat
  body : ClusterBody ε

/-- `POST` of a heartbeat to the master. -/
structure HeartbeatRequest where
  url : String
  contentType : String
  authorization : Option String
  body : Bytes
deriving DecidableEq

/-!
## Calls
-/

inductive ClusterCall (ε : Type) where
  | IsInRecovery
  | ListNodes
  | UpsertNode (n : Node)
  | CreateJoinToken (token : String) (ttl : Int)
  | ConsumeJoinToken (token : String)
  /-- `rand.Read`, into 32 bytes. -/
  | Read
  /-- `http.DefaultClient.Do`. -/
  | Do (req : HeartbeatRequest)
  | Respond (resp : ClusterResponse ε)

abbrev ClusterReply (ε : Type) : ClusterCall ε -> Type
  | .IsInRecovery => Except ε Bool
  | .ListNodes => Except ε (List Node)
  | .UpsertNode _ => Except ε Unit
  | .CreateJoinToken _ _ => Except ε Unit
  | .ConsumeJoinToken _ => Except ε Bool
  | .Read => Except ε { b : Bytes // b.length = 32 }
  | .Do _ => Except ε Nat
  | .Respond _ => Unit

abbrev ClusterProgram (ε α : Type) := Program (ClusterCall ε) (ClusterReply ε) α

/-- The dependencies that the cluster has a use for. -/
structure ClusterDeps where
  /-- `Cluster` is not nil. -/
  hasCluster : Bool := true
  clusterSecret : String := ""
  publicURL : String := ""
  version : String := ""
  selfCode : String := ""
  selfAddress : String := ""
  selfTelemtURL : String := ""
  masterURL : String := ""

/-!
## Texts
-/

/-- `strings.TrimPrefix`. -/
def TrimPrefix (s start : String) : String :=
  if start.toList.isPrefixOf s.toList then String.ofList (s.toList.drop start.length) else s

/-- `hex.EncodeToString`. -/
def hexString (b : Bytes) : String :=
  String.ofList
    (b.flatMap fun x => [Nat.digitChar (x.toNat / 16), Nat.digitChar (x.toNat % 16)])

def Role.string : Role -> String
  | .Master => "master"
  | .Replica => "replica"

/-- `time.Time` as a JSON string. -/
class TimeMarshal where
  marshal : Int -> String

/-- A node, as `json.Marshal` takes it apart. -/
def nodeJSON [TimeMarshal] (n : Node) : Json :=
  .obj [("code", .str n.code), ("name", .str n.name), ("address", .str n.address),
    ("telemt_api_url", .str n.telemtAPIURL), ("role", .str n.role), ("enabled", .bool n.enabled),
    ("last_seen_at",
      match n.lastSeenAt with
      | none => .null
      | some at' => .str (TimeMarshal.marshal at'))]

def Node.set [TimeJSON] (key : String) (v : Json) (n : Node) : Option Node :=
  if isField "code" key then (decodeString n.code v).map fun s => { n with code := s }
  else if isField "name" key then (decodeString n.name v).map fun s => { n with name := s }
  else if isField "address" key then
    (decodeString n.address v).map fun s => { n with address := s }
  else if isField "telemt_api_url" key then
    (decodeString n.telemtAPIURL v).map fun s => { n with telemtAPIURL := s }
  else if isField "role" key then (decodeString n.role v).map fun s => { n with role := s }
  else if isField "enabled" key then (decodeBool n.enabled v).map fun b => { n with enabled := b }
  else if isField "last_seen_at" key then
    (decodePointer decodeTime v).map fun t => { n with lastSeenAt := t }
  else some n

def decodeNode [TimeJSON] : Json -> Option Node :=
  decodeStruct Node.set {}

/-- `json.NewDecoder(r.Body).Decode(&n)`. -/
def readNode [TimeJSON] (raw : Bytes) (broken : Bool) : Option Node :=
  (decodeFirst (runes raw) broken).bind decodeNode

/-!
## Handlers
-/

section Handlers

variable {ε : Type}

def answer (code : Nat) (body : ClusterBody ε) : ClusterProgram ε Unit :=
  .call (.Respond ⟨code, body⟩) fun _ => .done ()

def refuse (code : Nat) (err : ClusterError ε) : ClusterProgram ε Unit :=
  answer code (.error err)

/-- What the request has for `Authorization`, which is empty when it has nothing. -/
def clusterAuthed (d : ClusterDeps) (authorization : String) : Bool :=
  if d.clusterSecret = "" then false
  else decide (TrimPrefix authorization "Bearer " = d.clusterSecret)

/-- `GET /api/nodes`. -/
def handleNodes : ClusterProgram ε Unit :=
  .call .ListNodes fun
    | .error err => refuse 503 (.listNodes err)
    | .ok nodes => answer 200 (.nodes nodes)

/-- The end of the heartbeat handler. -/
def register (n : Node) : ClusterProgram ε Unit :=
  .call (.UpsertNode n) fun
    | .error err => refuse 503 (.upsertNode n.code err)
    | .ok _ => answer 200 .ok

/-- `POST /api/cluster/heartbeat`. -/
def handleHeartbeat [TimeJSON] (d : ClusterDeps) (authorization : String) (raw : Bytes)
    (broken : Bool) : ClusterProgram ε Unit :=
  if !clusterAuthed d authorization then refuse 401 .wrongSecret
  else
    match readNode raw broken with
    | none => refuse 400 .needsCode
    | some n => if n.code = "" then refuse 400 .needsCode else register n

/-- `time.Hour`. -/
def joinTokenTTL : Int := 60 * 60 * 1000000000

/-- `POST /api/cluster/join-token`. -/
def handleJoinToken (d : ClusterDeps) (authorization : String) : ClusterProgram ε Unit :=
  if !clusterAuthed d authorization then refuse 401 .wrongSecret
  else
    .call .Read fun
      | .error err => refuse 500 (.random err)
      | .ok b =>
          let tok := hexString b.val
          .call (.CreateJoinToken tok joinTokenTTL) fun
            | .error err => refuse 503 (.createJoinToken err)
            | .ok _ =>
                answer 200
                  (.joinToken tok "1h"
                    ("curl -fsSL " ++ d.publicURL ++ "/join/" ++ tok ++ " | sudo bash"))

def joinNote : String :=
  "join-bundle: дальше — конфиг Patroni/реплики + mTLS-cert (в разработке)"

/-- `GET /join/{token}`. -/
def handleJoin (d : ClusterDeps) (tok : String) : ClusterProgram ε Unit :=
  .call (.ConsumeJoinToken tok) fun
    | .error err => refuse 503 (.consumeJoinToken err)
    | .ok false => refuse 410 .tokenGone
    | .ok true => answer 200 (.bundle d.publicURL d.version joinNote)

/-!
## The heartbeat
-/

def ClusterDeps.node (d : ClusterDeps) (rl : Role) : Node where
  code := d.selfCode
  address := d.selfAddress
  telemtAPIURL := d.selfTelemtURL
  role := rl.string

def ClusterDeps.heartbeat [TimeMarshal] (d : ClusterDeps) (rl : Role) : HeartbeatRequest where
  url := d.masterURL ++ "/api/cluster/heartbeat"
  contentType := "application/json"
  authorization := if d.clusterSecret = "" then none else some ("Bearer " ++ d.clusterSecret)
  body := utf8 (String.ofList (nodeJSON (d.node rl)).marshal)

/-- Errors are only logged. -/
def reportHeartbeat [TimeMarshal] (d : ClusterDeps) : ClusterProgram ε Unit :=
  if d.selfCode = "" ∨ d.hasCluster = false then .done ()
  else
    .call .IsInRecovery fun
      | .error _ => .done ()
      | .ok inRecovery =>
          let rl := Detect inRecovery
          if rl.IsMaster then .call (.UpsertNode (d.node rl)) fun _ => .done ()
          else if d.masterURL = "" then .done ()
          else .call (.Do (d.heartbeat rl)) fun _ => .done ()

end Handlers

end Server
end Telemux
