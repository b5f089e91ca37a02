import Mathlib.Data.List.Induction
import Telemux.Net.JsonParts
import Telemux.Sync.Rules
import Telemux.Telemt.Wire

/-!
# Replies that were cut off

The client reads a reply up to a limit, or up to where the connection breaks, and
does not look whether that was all.  What it makes of a part is what it makes of the
whole reply, or an error; so nothing is sent for a list that the node did not write.
-/

namespace Telemux
namespace Telemt

open Interaction Net TelemtSync Sync

/-- The texts that `json.Unmarshal` accepts. -/
@[reducible] def jsonTexts : JsonText where
  read s := readAll s.toList

/-!
## One reply
-/

/-- A response of which a part has arrived, at least its header. -/
def HttpResponse.CutTo (written arrived : HttpResponse) : Prop :=
  arrived.statusCode = written.statusCode ∧
    exists raw, raw <+: utf8 written.body ∧ arrived.body = String.ofList (runes raw)

structure HttpResponse.Sane (written : HttpResponse) : Prop where
  complete : written.readFails = false
  readable : written.statusCode < 300 -> exists v, readAll written.body.toList = some v

theorem unmarshal_cut {written arrived : HttpResponse} (h : written.CutTo arrived)
    (hreadable : exists v, readAll written.body.toList = some v) {env : Envelope}
    (hread : letI := jsonTexts
      unmarshalEnvelope arrived.body = some env) :
    letI := jsonTexts
    unmarshalEnvelope written.body = some env := by
  rcases h with ⟨_, raw, hraw, hbody⟩
  rcases hreadable with ⟨w, hw⟩
  rcases Option.bind_eq_some_iff.mp hread with ⟨v, hv, henv⟩
  have hpart : readAll (runes raw) = some v := by
    rw [← String.toList_ofList (l := runes raw), ← hbody]
    exact hv
  rw [readAll_part hraw hpart (complete_of_decodeStruct henv) hw] at hw
  exact Option.bind_eq_some_iff.mpr ⟨v, hw, henv⟩

theorem readGet_cut {path : String} {written arrived : HttpResponse} (h : written.CutTo arrived)
    (hsane : written.Sane) {env : Envelope}
    (hread : letI := jsonTexts
      readGet path arrived = .ok env) :
    letI := jsonTexts
    readGet path written = .ok env := by
  unfold readGet at hread ⊢
  rw [h.left] at hread
  split at hread
  · cases hread
  · split at hread
    · cases hread
    · rename_i hstatus
      have hlow : written.statusCode < 300 := by
        rw [not_not.mp hstatus]
        decide
      rw [if_neg (by simp [hsane.complete]), if_neg hstatus]
      split at hread
      · cases hread
      · rename_i env' henv
        rw [unmarshal_cut h (hsane.readable hlow) henv]
        exact hread

/-!
## A call of SyncNode
-/

structure Exchange where
  request : HttpRequest
  written : HttpResponse
  sane : written.Sane
  reply : HttpReply request
  cut : forall arrived, reply = .ok arrived -> written.CutTo arrived

def Exchange.event (x : Exchange) : Event HttpRequest HttpReply :=
  ⟨x.request, x.reply⟩

def HttpResponse.listing (written : HttpResponse) : Option (List RemoteUser) :=
  letI := jsonTexts
  match readGet "/v1/users" written with
  | .error _ => none
  | .ok env =>
      match readUsers env with
      | .error _ => none
      | .ok (users, _) => some users

def lastListing (xs : List Exchange) : Option (List RemoteUser) :=
  (xs.reverse.find? fun x => decide (x.request.method = .GET)).bind fun x => x.written.listing

theorem lastListing_get {x : Exchange} (h : x.request.method = .GET) (xs : List Exchange) :
    lastListing (xs ++ [x]) = x.written.listing := by
  simp [lastListing, h]

theorem lastListing_other {x : Exchange} (h : x.request.method ≠ .GET) (xs : List Exchange) :
    lastListing (xs ++ [x]) = lastListing xs := by
  simp [lastListing, h]

section Sync

variable [RFC3339]

structure ByList (opts : SyncOptions) (des : List DesiredUser) (op : SyncOp)
    (listed : Option (List RemoteUser)) (remote : List RemoteUser) : Prop where
  listed : listed = some remote
  planned : op ∈ opts.diff des remote
  mode : opts.mode = .apply
  guarded : opts.stops des remote = false

/-- What SyncNode may rely on: the lists it gets are those that the node wrote. -/
def listedNode (opts : SyncOptions) (des : List DesiredUser) :
    Contract SyncCall (SyncReply ClientError) (Option (List RemoteUser)) where
  owes g call :=
    match call with
    | .ListDesired => True
    | .ListUsers => True
    | .ApplyOp op _ => exists remote, ByList opts des op g remote
  answers g call r g' :=
    match call, r with
    | .ListDesired, r => r = .ok des ∧ g' = g
    | .ListUsers, r => forall users rev, r = .ok (users, rev) -> g' = some users
    | .ApplyOp _ _, _ => g' = g

/-- An attempt that has `rest` of the diff of its list before it. -/
structure Planning (opts : SyncOptions) (des : List DesiredUser) (remote : List RemoteUser)
    (rest : List SyncOp) (g : Option (List RemoteUser)) : Prop where
  listed : g = some remote
  planned : rest ⊆ opts.diff des remote
  mode : opts.mode = .apply
  guarded : opts.stops des remote = false

theorem Planning.next {opts : SyncOptions} {des : List DesiredUser} {remote : List RemoteUser}
    {op : SyncOp} {rest : List SyncOp} {g g' : Option (List RemoteUser)}
    (h : Planning opts des remote (op :: rest) g) (hsame : g' = g) :
    Planning opts des remote rest g' :=
  ⟨hsame.trans h.listed, fun _ hop => h.planned (List.mem_cons_of_mem op hop), h.mode, h.guarded⟩

theorem planning_loop (opts : SyncOptions) (des : List DesiredUser)
    (remote : List RemoteUser) :
    LoopInvariant (listedNode opts des) (fun rest _ _ g => Planning opts des remote rest g)
      fun _ _ _ => True := by
  constructor
  case owes =>
    intro op rest rev res g h
    exact ⟨remote, h.listed, h.planned List.mem_cons_self, h.mode, h.guarded⟩
  case success => exact fun h hans => h.next hans
  case skip => exact fun h hans _ => h.next hans
  case failure => exact fun h hans _ => h.next hans
  case readOnly => exact fun _ _ _ => trivial
  case conflict => exact fun _ _ _ => trivial
  case finished => exact fun _ => trivial

theorem syncNode_listed (opts : SyncOptions) (des : List DesiredUser)
    (g : Option (List RemoteUser)) :
    (listedNode opts des).Meets (SyncNode opts) g fun _ _ => True := by
  apply syncNode_meets opts (J := fun _ _ _ _ => True)
    (I := fun _ _ remote rest _ _ g => Planning opts des remote rest g)
    (Q := fun _ _ _ => True)
  · trivial
  · exact fun _ _ _ => trivial
  · intro des' g' hans
    cases hans.left
    refine ⟨?_, trivial⟩
    constructor
    case exhausted => exact fun _ => trivial
    case owes => exact fun _ => trivial
    case listError => exact fun _ _ => trivial
    case aborted => exact fun _ _ _ => trivial
    case shadow => exact fun _ _ _ _ => trivial
    case start =>
      intro left res g remote rev g' _ hans hstops hmode
      exact ⟨hans remote rev rfl, fun _ hop => hop, hmode, hstops⟩
    case loop =>
      intro left remote
      apply (planning_loop opts des remote).mono
      intro res ending g _
      cases ending <;> trivial

def listedWire (c : Client) (opts : SyncOptions) (des : List DesiredUser) :
    Contract HttpRequest HttpReply (Option (List RemoteUser)) where
  owes g req := letI := jsonTexts
    req.method ≠ .GET -> exists op ifMatch remote next,
      ByList opts des op g remote ∧ c.ApplyOp op ifMatch = .call req next
  answers g req reply g' := exists x : Exchange, x.event = ⟨req, reply⟩ ∧
    g' = if req.method = .GET then x.written.listing else g

theorem listUsers_listed (c : Client) (opts : SyncOptions) (des : List DesiredUser)
    (g : Option (List RemoteUser)) :
    letI := jsonTexts
    (listedWire c opts des).Meets c.ListUsers g fun r g' =>
      (listedNode opts des).answers g .ListUsers r g' := by
  let := jsonTexts
  rcases parse_users with ⟨url, hurl, _⟩
  unfold Client.ListUsers Client.get Client.newRequest
  rw [hurl]
  refine ⟨fun hmethod => absurd rfl hmethod, ?_⟩
  intro reply g' hans
  rcases hans with ⟨x, hevent, hg⟩
  rw [if_pos rfl] at hg
  cases x with
  | mk request written sane reply' cut =>
      cases hevent
      cases reply' with
      | error err =>
          intro users rev hr
          cases hr
      | ok arrived =>
          cases hread : readGet "/v1/users" arrived with
          | error err =>
              simp only [hread]
              intro users rev hr
              cases hr
          | ok env =>
              simp only [hread]
              intro users rev hr
              rw [hg]
              simp only [HttpResponse.listing, readGet_cut (cut arrived rfl) sane hread, hr]

theorem mutate_listed {c : Client} {opts : SyncOptions} {des : List DesiredUser}
    {method : Method} {path ifMatch : String} {body : Option Json} {op : SyncOp} {rev : String}
    {g : Option (List RemoteUser)} (hmethod : method ≠ .GET)
    (happly : letI := jsonTexts
      c.ApplyOp op rev = c.mutate method path body ifMatch)
    (howes : (listedNode opts des).owes g (.ApplyOp op rev)) :
    letI := jsonTexts
    (listedWire c opts des).Meets (c.mutate method path body ifMatch) g fun _ g' => g' = g := by
  let := jsonTexts
  unfold Client.mutate at happly ⊢
  cases hreq : c.newRequest method path body ifMatch with
  | error err => rfl
  | ok req =>
      rw [hreq] at happly
      rcases newRequest_ok hreq with ⟨hsame, _⟩
      constructor
      · intro _
        rcases howes with ⟨remote, hlisted⟩
        exact ⟨op, rev, remote, _, hlisted, happly⟩
      · intro reply g' hans
        rcases hans with ⟨x, _, hg⟩
        rw [if_neg (by rw [hsame]; exact hmethod)] at hg
        cases reply with
        | error err => exact hg
        | ok resp => exact hg

theorem serve_listed (c : Client) (opts : SyncOptions) (des : List DesiredUser)
    (call : SyncCall) (g : Option (List RemoteUser))
    (howes : (listedNode opts des).owes g call) :
    letI := jsonTexts
    (listedWire c opts des).Meets (c.serve des call) g fun r g' =>
      (listedNode opts des).answers g call r g' := by
  let := jsonTexts
  cases call with
  | ListDesired => exact ⟨rfl, rfl⟩
  | ListUsers => exact listUsers_listed c opts des g
  | ApplyOp op ifMatch =>
      show (listedWire c opts des).Meets (c.ApplyOp op ifMatch) g fun _ g' => g' = g
      cases hkind : op.kind with
      | create =>
          have happly : c.ApplyOp op ifMatch = c.mutate .POST "/v1/users"
              (some (.obj (createReq op))) ifMatch := by
            unfold Client.ApplyOp
            rw [hkind]
          rw [happly]
          exact mutate_listed (fun h => nomatch h) happly howes
      | patch =>
          have happly : c.ApplyOp op ifMatch = c.mutate .PATCH ("/v1/users/" ++ op.username)
              (some (.obj (patchBody op.fields))) ifMatch := by
            unfold Client.ApplyOp
            rw [hkind]
          rw [happly]
          exact mutate_listed (fun h => nomatch h) happly howes
      | delete =>
          have happly : c.ApplyOp op ifMatch = c.mutate .DELETE ("/v1/users/" ++ op.username)
              none ifMatch := by
            unfold Client.ApplyOp
            rw [hkind]
          rw [happly]
          exact mutate_listed (fun h => nomatch h) happly howes

theorem answered_listed {c : Client} {opts : SyncOptions} {des : List DesiredUser}
    (xs : List Exchange) :
    (listedWire c opts des).Answered none (xs.map Exchange.event) (lastListing xs) := by
  induction xs using List.reverseRecOn with
  | nil => exact .nil none
  | append_singleton xs x ih =>
      rw [List.map_append]
      apply Contract.answered_append ih
      refine .cons ⟨x, rfl, ?_⟩ (.nil _)
      split
      · rename_i hget
        exact lastListing_get hget xs
      · rename_i hother
        exact lastListing_other hother xs

/--
Wherever a call of SyncNode is stopped, and however the replies to it were cut off:
a request that changes the node is for an operation of the diff of the last list, all
of it, that the node wrote, and the guard let that diff through.
-/
theorem cut_lists_harmless {c : Client} {opts : SyncOptions} {des : List DesiredUser}
    {xs : List Exchange} {req : HttpRequest}
    {next : HttpReply req ->
      HttpProgram (Result ClientError × Option (SyncError ClientError))}
    (hsteps : letI := jsonTexts
      Program.Steps (c.sync opts des) (xs.map Exchange.event) (.call req next))
    (hchanges : req.method ≠ .GET) :
    letI := jsonTexts
    exists op ifMatch remote next', ByList opts des op (lastListing xs) remote ∧
      c.ApplyOp op ifMatch = .call req next' := by
  let := jsonTexts
  have hmeets : (listedWire c opts des).Meets (c.sync opts des) none fun _ _ => True :=
    Contract.meets_interp (serve_listed c opts des) (syncNode_listed opts des none)
  exact Contract.owes_of_steps hmeets hsteps (answered_listed xs) hchanges

omit [RFC3339] in
theorem listUsers_reads [JsonText] (c : Client) {resp : HttpResponse} {env : Envelope}
    {users : List RemoteUser} {rev : String} (hget : readGet "/v1/users" resp = .ok env)
    (husers : readUsers env = .ok (users, rev)) :
    exists req, forall f : SyncReply ClientError .ListUsers ->
        HttpProgram (Result ClientError × Option (SyncError ClientError)),
      Program.Steps (c.ListUsers.bind f) [⟨req, .ok resp⟩] (f (.ok (users, rev))) := by
  rcases parse_users with ⟨url, hurl, _⟩
  unfold Client.ListUsers Client.get Client.newRequest
  rw [hurl]
  refine ⟨_, fun f => .call ?_⟩
  show Program.Steps (Program.bind (Program.bind _ _) f) [] _
  simp only [hget, Program.bind_done, husers]
  exact .refl _

end Sync

/-!
## A line end that did not arrive
-/

def emptyList : Json := envelope (.arr []) "r1"

theorem emptyList_writable : Writable maxNestingDepth emptyList := by
  apply Writable.obj
  intro name v hmem
  simp only [List.mem_cons, List.not_mem_nil, or_false, Prod.mk.injEq] at hmem
  rcases hmem with ⟨_, rfl⟩ | ⟨_, rfl⟩ | ⟨_, rfl⟩
  · exact .bool _ _
  · exact .arr fun _ hv => absurd hv List.not_mem_nil
  · exact .str _ _

def writtenList : HttpResponse where
  statusCode := 200
  body := String.ofList (emptyList.marshal ++ ['\n'])
  readFails := false

def arrivedList : HttpResponse where
  statusCode := 200
  body := String.ofList emptyList.marshal
  readFails := false

theorem writtenList_sane : writtenList.Sane := by
  refine ⟨rfl, fun _ => ⟨emptyList.reread, ?_⟩⟩
  unfold readAll writtenList
  rw [String.toList_ofList,
    readFirst_marshal emptyList_writable (delimited_cons (by decide) [])]
  rfl

theorem arrivedList_cut : writtenList.CutTo arrivedList := by
  refine ⟨rfl, utf8 arrivedList.body, ?_, ?_⟩
  · refine ⟨utf8 "\n", ?_⟩
    rw [← utf8_append]
    simp [arrivedList, writtenList]
  · rw [runes_utf8]
    exact String.ofList_toList.symm

theorem arrivedList_read :
    letI := jsonTexts
    exists env, readGet "/v1/users" arrivedList = .ok env ∧ readUsers env = .ok ([], "r1") := by
  let := jsonTexts
  have hread : JsonText.read arrivedList.body = some emptyList.reread := by
    show readAll _ = _
    rw [arrivedList, String.toList_ofList]
    exact readAll_marshal emptyList_writable
  unfold readGet unmarshalEnvelope
  rw [hread]
  exact ⟨_, rfl, rfl⟩

theorem cut_lists_harmless_sample :
    letI := sampleClock
    letI := jsonTexts
    let c : Client := { BaseURL := "http://127.0.0.1:9091" }
    let opts : SyncOptions := { mode := .apply }
    let des : List DesiredUser := [⟨"sub_b", "ee", none, none⟩]
    exists xs req op ifMatch remote next next',
      Program.Steps (c.sync opts des) (xs.map Exchange.event) (.call req next) ∧
      (exists x, xs = [x] ∧ x.reply = .ok arrivedList) ∧
      ByList opts des op (lastListing xs) remote ∧ c.ApplyOp op ifMatch = .call req next' := by
  let := sampleClock
  let := jsonTexts
  let c : Client := { BaseURL := "http://127.0.0.1:9091" }
  let opts : SyncOptions := { mode := .apply }
  let des : List DesiredUser := [⟨"sub_b", "ee", none, none⟩]
  rcases arrivedList_read with ⟨env, hget, husers⟩
  rcases listUsers_reads c hget husers with ⟨get, hread⟩
  let x : Exchange :=
    { request := get
      written := writtenList
      sane := writtenList_sane
      reply := .ok arrivedList
      cut := by
        intro arrived harrived
        cases harrived
        exact arrivedList_cut }
  have hsteps : exists req next,
      Program.Steps (c.sync opts des) ([x].map Exchange.event) (.call req next) ∧
        req.method ≠ .GET := by
    exact ⟨_, _, hread _, by decide⟩
  rcases hsteps with ⟨req, next, hsteps, hchanges⟩
  rcases cut_lists_harmless hsteps hchanges with ⟨op, ifMatch, remote, next', hlisted, happly⟩
  exact ⟨[x], req, op, ifMatch, remote, next, next', hsteps, ⟨x, rfl, rfl⟩, hlisted, happly⟩

end Telemt
end Telemux
