import Telemux.Net.Json
import Telemux.Net.Url
import Telemux.Sync.SyncNode

/-!
# The client of the machine API

Package `telemt`: `ListUsers` and `ApplyOp` as programs that hand requests to the
HTTP client and decode what comes back.  Nothing is said about the replies.

The base URL is a scheme and an authority that `net/url` accepts.  The body of a
reply is the text that `io.ReadAll` gave, after the client's limit, with U+FFFD for
bytes that are no UTF-8, and whether reading it failed.
-/

namespace Telemux
namespace Telemt

open Interaction Net TelemtSync Sync

/-!
## HTTP
-/

inductive Method where
  | GET
  | POST
  | PATCH
  | DELETE
deriving DecidableEq, Repr

structure HttpRequest where
  method : Method
  base : String
  url : URL
  authorization : Option String := none
  contentType : Option String := none
  ifMatch : Option String := none
  body : Option Json := none

structure HttpResponse where
  statusCode : Nat
  body : String
  readFails : Bool := false
deriving DecidableEq, Repr

/-- What `http.Client.Do` returns; an error carries its text. -/
abbrev HttpReply (_ : HttpRequest) : Type := Except String HttpResponse

abbrev HttpProgram (α : Type) := Program HttpRequest HttpReply α

/-!
## Strings
-/

/-- `unicode.IsSpace`. -/
def IsSpace (c : Char) : Bool :=
  ['\t', '\n', '\x0b', '\x0c', '\r', ' ', '\u0085', '\u00a0', '\u1680', '\u2028', '\u2029',
    '\u202f', '\u205f', '\u3000'].contains c ||
    (decide ('\u2000' ≤ c) && decide (c ≤ '\u200a'))

/-- `strings.TrimSpace`. -/
def TrimSpace (s : String) : String :=
  String.ofList ((s.toList.dropWhile IsSpace).reverse.dropWhile IsSpace).reverse

/-- `strings.Contains`. -/
def Contains (s substr : String) : Bool :=
  s.toList.tails.any fun t => substr.toList.isPrefixOf t

/-!
## Errors
-/

inductive ClientError where
  /-- `*APIError`. -/
  | api (status : Nat) (body : String)
  | request (err : URLError)
  | transport (method : Method) (path : String) (err : String)
  | readBody (method : Method) (path : String)
  | status (method : Method) (path : String) (status : Nat) (body : String)
  | envelope (method : Method) (path : String)
  | notOK (method : Method) (path : String)
  | data (path : String)
deriving DecidableEq, Repr

def RevisionConflict (status : Nat) (body : String) : Bool :=
  decide (status = 409) && Contains body "revision"

def ReadOnly (status : Nat) (body : String) : Bool :=
  decide (status = 403) && Contains body "read_only"

def AlreadyDone (status : Nat) (body : String) : Bool :=
  decide (status = 404) || (decide (status = 409) && Contains body "user_exists")

/-- Only an `*APIError` has the methods of a `classifiedError`. -/
instance : ClassifiedError ClientError where
  classified
    | .api status body =>
        some ⟨RevisionConflict status body, ReadOnly status body, AlreadyDone status body⟩
    | _ => none

/-!
## The envelope
-/

structure Envelope where
  ok : Bool := false
  /-- The raw value of the member, if there was one. -/
  data : Option Json := none
  revision : String := ""

def Envelope.set (key : String) (v : Json) (env : Envelope) : Option Envelope :=
  if isField "ok" key then (decodeBool env.ok v).map fun b => { env with ok := b }
  else if isField "data" key then some { env with data := some v }
  else if isField "revision" key then
    (decodeString env.revision v).map fun s => { env with revision := s }
  else some env

/-- `json.Unmarshal(body, &env)`. -/
def unmarshalEnvelope [JsonText] (body : String) : Option Envelope :=
  (JsonText.read body).bind (decodeStruct Envelope.set {})

@[reducible] def sampleText : JsonText where
  read s :=
    if s = "\x7b\"ok\":true\x7d" then some (.obj [("ok", .bool true)])
    else if s = "\x7b\"ok\":false,\"revision\":\"r2\"\x7d" then
      some (.obj [("ok", .bool false), ("revision", .str "r2")])
    else if s = "\x7b\"ok\":true,\"revision\":\"r2\"\x7d" then
      some (.obj [("ok", .bool true), ("revision", .str "r2")])
    else if s = "\x7b\"ok\":true,\"data\":[],\"revision\":\"r1\"\x7d" then
      some (.obj [("ok", .bool true), ("data", .arr []), ("revision", .str "r1")])
    else none

structure Client where
  BaseURL : String
  AuthHeader : String := ""

/-- The request that `get` and `mutate` build; a refused URL is an error here. -/
def Client.newRequest (c : Client) (method : Method) (path : String) (body : Option Json)
    (ifMatch : String) : Except URLError HttpRequest :=
  (Parse (utf8 path)).map fun url =>
    { method := method
      base := c.BaseURL
      url := url
      authorization := if c.AuthHeader = "" then none else some c.AuthHeader
      contentType := body.map fun _ => "application/json"
      ifMatch := if ifMatch = "" then none else some ifMatch
      body := body }

theorem newRequest_ok {c : Client} {method : Method} {path ifMatch : String}
    {body : Option Json} {req : HttpRequest}
    (h : c.newRequest method path body ifMatch = .ok req) :
    req.method = method ∧ req.body = body ∧ Parse (utf8 path) = .ok req.url ∧
      req.ifMatch = if ifMatch = "" then none else some ifMatch := by
  rcases map_ok_iff.mp h with ⟨url, hurl, rfl⟩
  exact ⟨rfl, rfl, hurl, rfl⟩

/-!
## Reading
-/

/-- What `get` makes of a response. -/
def readGet [JsonText] (path : String) (resp : HttpResponse) : Except ClientError Envelope :=
  if resp.readFails then .error (.readBody .GET path)
  else if resp.statusCode ≠ 200 then
    .error (.status .GET path resp.statusCode (TrimSpace resp.body))
  else
    match unmarshalEnvelope resp.body with
    | none => .error (.envelope .GET path)
    | some env => if env.ok then .ok env else .error (.notOK .GET path)

def Client.get [JsonText] (c : Client) (path : String) :
    HttpProgram (Except ClientError Envelope) :=
  match c.newRequest .GET path none "" with
  | .error err => .done (.error (.request err))
  | .ok req =>
      .call req fun
        | .error err => .done (.error (.transport .GET path err))
        | .ok resp => .done (readGet path resp)

structure UserInfo where
  username : String := ""
  enabled : Bool := false
  maxTCPConns : Option Int := none
  expirationRFC3339 : Option String := none
  currentConnections : Nat := 0
deriving DecidableEq, Repr

def UserInfo.set (key : String) (v : Json) (u : UserInfo) : Option UserInfo :=
  if isField "username" key then
    (decodeString u.username v).map fun s => { u with username := s }
  else if isField "enabled" key then
    (decodeBool u.enabled v).map fun b => { u with enabled := b }
  else if isField "max_tcp_conns" key then
    (decodePointer decodeInt v).map fun n => { u with maxTCPConns := n }
  else if isField "expiration_rfc3339" key then
    (decodePointer (decodeString "") v).map fun s => { u with expirationRFC3339 := s }
  else if isField "current_connections" key then
    (decodeUint64 u.currentConnections v).map fun n => { u with currentConnections := n }
  else some u

def UserInfo.remote (u : UserInfo) : RemoteUser where
  username := u.username
  enabled := u.enabled
  expirationRFC3339 := u.expirationRFC3339
  maxTCPConns := u.maxTCPConns

/-- `json.Unmarshal(env.Data, &raw)`; no data is no JSON. -/
def unmarshalUsers (data : Option Json) : Option (List UserInfo) :=
  data.bind (decodeSlice (decodeStruct UserInfo.set {}))

/-- What `ListUsers` makes of an envelope. -/
def readUsers (env : Envelope) : Except ClientError (List RemoteUser × String) :=
  match unmarshalUsers env.data with
  | none => .error (.data "/v1/users")
  | some raw => .ok (raw.map UserInfo.remote, env.revision)

def Client.ListUsers [JsonText] (c : Client) :
    HttpProgram (Except ClientError (List RemoteUser × String)) :=
  (c.get "/v1/users").bind fun
    | .error err => .done (.error err)
    | .ok env => .done (readUsers env)

/-!
## Writing
-/

/-- What `mutate` makes of a response; it does not look at `env.OK`. -/
def readMutation [JsonText] (method : Method) (path : String) (resp : HttpResponse) :
    Except ClientError String :=
  if resp.statusCode < 200 ∨ 300 ≤ resp.statusCode then
    .error (.api resp.statusCode (TrimSpace resp.body))
  else
    match unmarshalEnvelope resp.body with
    | none => .error (.envelope method path)
    | some env => .ok env.revision

def Client.mutate [JsonText] (c : Client) (method : Method) (path : String)
    (body : Option Json) (ifMatch : String) : HttpProgram (Except ClientError String) :=
  match c.newRequest method path body ifMatch with
  | .error err => .done (.error (.request err))
  | .ok req =>
      .call req fun
        | .error err => .done (.error (.transport method path err))
        | .ok resp => .done (readMutation method path resp)

/-- A pointer, as `json.Marshal` writes it. -/
def marshalPointer {α : Type} (marshal : α -> Json) : Option α -> Json
  | none => .null
  | some a => marshal a

/-- `omitempty` on a pointer. -/
def omitEmpty {α : Type} (tag : String) (marshal : α -> Json) :
    Option α -> List (String × Json)
  | none => []
  | some a => [(tag, marshal a)]

/-- `createReq`, marshalled. -/
def createReq (op : SyncOp) : List (String × Json) :=
  [("username", .str op.username)] ++
    (if op.secret = "" then [] else [("secret", .str op.secret)]) ++
    omitEmpty "max_tcp_conns" Json.int op.maxTCPConns ++
    omitEmpty "expiration_rfc3339" Json.str op.expirationRFC3339 ++
    [("enabled", .bool true)]

/-- The body of a patch: a map, which `json.Marshal` writes in the order of its keys. -/
def patchBody (f : PatchFields) : List (String × Json) :=
  omitEmpty "enabled" Json.bool f.enabled ++
    (if f.setExpiration then
      [("expiration_rfc3339", marshalPointer Json.str f.expirationRFC3339)]
    else []) ++
    (if f.setMaxTCPConns then [("max_tcp_conns", marshalPointer Json.int f.maxTCPConns)]
    else [])

def Client.ApplyOp [JsonText] (c : Client) (op : SyncOp) (ifMatch : String) :
    HttpProgram (Except ClientError String) :=
  match op.kind with
  | .create => c.mutate .POST "/v1/users" (some (.obj (createReq op))) ifMatch
  | .patch =>
      c.mutate .PATCH ("/v1/users/" ++ op.username) (some (.obj (patchBody op.fields)))
        ifMatch
  | .delete => c.mutate .DELETE ("/v1/users/" ++ op.username) none ifMatch

/-!
## SyncNode over HTTP
-/

/-- The calls of SyncNode, with `des` in the database. -/
def Client.serve [JsonText] (c : Client) (des : List DesiredUser) :
    (call : SyncCall) -> HttpProgram (SyncReply ClientError call)
  | .ListDesired => .done (.ok des)
  | .ListUsers => c.ListUsers
  | .ApplyOp op ifMatch => c.ApplyOp op ifMatch

def Client.sync [JsonText] [RFC3339] (c : Client) (opts : SyncOptions)
    (des : List DesiredUser) :
    HttpProgram (Result ClientError × Option (SyncError ClientError)) :=
  (SyncNode opts).interp (c.serve des)

end Telemt
end Telemux
