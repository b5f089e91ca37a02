import Telemux.Sync.Rules
import Telemux.Telemt.Client

/-!
# The optimistic lock

Every mutation should carry the revision it was computed for.  The revision of
the next one comes out of the reply to the last, and there the client takes what
it gets: an envelope that is not ok, or has no revision, counts as success.  The
lock holds as long as no reply is of that kind.
-/

namespace Telemux
namespace Telemt

open Interaction Net TelemtSync Sync

variable [JsonText]

abbrev HttpEvent := Event HttpRequest HttpReply

/-- If this is a list that `get` accepts, it carries a revision. -/
def ListHonest (e : HttpEvent) : Prop :=
  e.call.method = .GET -> forall resp env, e.reply = .ok resp ->
    readGet "/v1/users" resp = .ok env -> env.revision ≠ ""

def MutationTells (tells : Envelope -> Prop) (e : HttpEvent) : Prop :=
  e.call.method ≠ .GET -> forall resp env, e.reply = .ok resp ->
    200 ≤ resp.statusCode -> resp.statusCode < 300 -> unmarshalEnvelope resp.body = some env ->
    tells env

def MutationOK : HttpEvent -> Prop :=
  MutationTells fun env => env.ok = true

def MutationRevised : HttpEvent -> Prop :=
  MutationTells fun env => env.revision ≠ ""

def Locked (req : HttpRequest) : Prop :=
  exists revision, req.ifMatch = some revision ∧ revision ≠ ""

/-!
## Contracts

The same lock on both sides of the client: over HTTP, and between SyncNode and
its node.
-/

def lockedHttp : Contract HttpRequest HttpReply Unit where
  owes _ req := req.method ≠ .GET -> Locked req
  answers _ req reply _ := ListHonest ⟨req, reply⟩ ∧ MutationRevised ⟨req, reply⟩

def lockedCalls (ε : Type) : Contract SyncCall (SyncReply ε) Unit where
  owes _ call :=
    match call with
    | .ListDesired => True
    | .ListUsers => True
    | .ApplyOp _ rev => rev ≠ ""
  answers _ call reply _ :=
    match call, reply with
    | .ListDesired, _ => True
    | .ListUsers, .ok (_, rev) => rev ≠ ""
    | .ListUsers, .error _ => True
    | .ApplyOp _ _, .ok rev => rev ≠ ""
    | .ApplyOp _ _, .error _ => True

theorem readMutation_ok {method : Method} {path rev : String} {resp : HttpResponse}
    (h : readMutation method path resp = .ok rev) :
    200 ≤ resp.statusCode ∧ resp.statusCode < 300 ∧
      exists env, unmarshalEnvelope resp.body = some env ∧ env.revision = rev := by
  unfold readMutation at h
  split at h
  · cases h
  · rename_i hstatus
    split at h
    · cases h
    · rename_i env henv
      cases h
      exact ⟨by omega, by omega, env, henv, rfl⟩

theorem mutate_meets (c : Client) {method : Method} (hmethod : method ≠ .GET)
    (path : String) (body : Option Json) {ifMatch : String} (hrev : ifMatch ≠ "") :
    lockedHttp.Meets (c.mutate method path body ifMatch) ()
      fun r _ => forall rev, r = .ok rev -> rev ≠ "" := by
  unfold Client.mutate
  cases hreq : c.newRequest method path body ifMatch with
  | error err =>
      intro rev hr
      cases hr
  | ok req =>
      rcases newRequest_ok hreq with ⟨hreqmethod, _, _, hifMatch⟩
      rw [if_neg hrev] at hifMatch
      refine ⟨fun _ => ⟨ifMatch, hifMatch, hrev⟩, ?_⟩
      intro reply _ hans
      rcases hans with ⟨_, hmutation⟩
      cases reply with
      | error err =>
          intro rev hr
          cases hr
      | ok resp =>
          intro rev hr
          rcases readMutation_ok hr with ⟨hlow, hhigh, env, henv, rfl⟩
          have hne : req.method ≠ .GET := by
            rw [hreqmethod]
            exact hmethod
          exact hmutation hne resp env rfl hlow hhigh henv

theorem applyOp_mutate (c : Client) (op : SyncOp) (ifMatch : String) :
    exists method path body, method ≠ .GET ∧
      c.ApplyOp op ifMatch = c.mutate method path body ifMatch := by
  unfold Client.ApplyOp
  cases op.kind with
  | create => exact ⟨_, _, _, by simp, rfl⟩
  | patch => exact ⟨_, _, _, by simp, rfl⟩
  | delete => exact ⟨_, _, _, by simp, rfl⟩

theorem listUsers_meets (c : Client) :
    lockedHttp.Meets c.ListUsers ()
      fun r _ => forall users rev, r = .ok (users, rev) -> rev ≠ "" := by
  apply Contract.meets_bind
  unfold Client.get
  cases hreq : c.newRequest .GET "/v1/users" none "" with
  | error err =>
      intro users rev hr
      cases hr
  | ok req =>
      have hmethod := (newRequest_ok hreq).left
      refine ⟨fun hne => absurd hmethod hne, ?_⟩
      intro reply _ hans
      rcases hans with ⟨hlist, _⟩
      cases reply with
      | error err =>
          intro users rev hr
          cases hr
      | ok resp =>
          cases hget : readGet "/v1/users" resp with
          | error err =>
              simp only [Contract.meets_done, hget]
              intro users rev hr
              cases hr
          | ok env =>
              simp only [Contract.meets_done, hget]
              intro users rev hr
              have hne := hlist hmethod resp env rfl hget
              unfold readUsers at hr
              split at hr
              · cases hr
              · cases hr
                exact hne

theorem serve_meets (c : Client) (des : List DesiredUser) (call : SyncCall)
    (howes : (lockedCalls ClientError).owes () call) :
    lockedHttp.Meets (c.serve des call) ()
      fun r _ => (lockedCalls ClientError).answers () call r () := by
  cases call with
  | ListDesired => trivial
  | ListUsers =>
      apply Contract.meets_mono _ (listUsers_meets c)
      intro r _ hr
      cases r with
      | error err => trivial
      | ok listed => exact hr listed.1 listed.2 rfl
  | ApplyOp op ifMatch =>
      rcases applyOp_mutate c op ifMatch with ⟨method, path, body, hmethod, hop⟩
      have hmeets := mutate_meets c hmethod path body howes
      rw [← hop] at hmeets
      apply Contract.meets_mono _ hmeets
      intro r _ hr
      cases r with
      | error err => trivial
      | ok rev => exact hr rev rfl

/-!
## SyncNode keeps the lock
-/

omit [JsonText] in
theorem locked_loop {ε : Type} [ClassifiedError ε] :
    LoopInvariant (lockedCalls ε) (fun _ rev _ _ => rev ≠ "") fun _ _ _ => True where
  owes := fun hrev => hrev
  success := fun _ hnew => hnew
  skip := fun hrev _ _ => hrev
  failure := fun hrev _ _ => hrev
  readOnly := fun _ _ _ => trivial
  conflict := fun _ _ _ => trivial
  finished := fun _ => trivial

omit [JsonText] in
theorem syncNode_locked [RFC3339] {ε : Type} [ClassifiedError ε] (opts : SyncOptions) :
    (lockedCalls ε).Meets (SyncNode opts) () fun _ _ => True := by
  apply syncNode_meets opts (J := fun _ _ _ _ => True) (I := fun _ _ _ _ rev _ _ => rev ≠ "")
    (Q := fun _ _ _ => True)
  · trivial
  · exact fun _ _ _ => trivial
  · intro des _ _
    refine ⟨?_, trivial⟩
    exact
      { exhausted := fun _ => trivial
        owes := fun _ => trivial
        listError := fun _ _ => trivial
        aborted := fun _ _ _ => trivial
        shadow := fun _ _ _ _ => trivial
        start := fun _ hlist _ _ => hlist
        loop := fun _ _ => locked_loop.mono fun _ ending _ _ => by
          cases ending <;> trivial }

theorem sync_meets [RFC3339] (c : Client) (opts : SyncOptions) (des : List DesiredUser) :
    lockedHttp.Meets (c.sync opts des) () fun _ _ => True :=
  Contract.meets_interp (fun call _ howes => serve_meets c des call howes)
    (syncNode_locked opts)

theorem answered_of_honest {t : List HttpEvent} (hlist : forall e, e ∈ t -> ListHonest e)
    (hmutation : forall e, e ∈ t -> MutationRevised e) : lockedHttp.Answered () t () := by
  induction t with
  | nil => exact .nil ()
  | cons e rest ih =>
      have hrest := ih (fun e' he' => hlist e' (List.mem_cons_of_mem e he'))
        (fun e' he' => hmutation e' (List.mem_cons_of_mem e he'))
      exact .cons ⟨hlist e List.mem_cons_self, hmutation e List.mem_cons_self⟩ hrest

/-- `ApplyOp` only calls a response a success whose envelope is of that kind. -/
def SuccessTells (tells : Envelope -> Prop) (resp : HttpResponse)
    (result : HttpProgram (Except ClientError String)) : Prop :=
  forall rev, result = .done (.ok rev) ->
    exists env, unmarshalEnvelope resp.body = some env ∧ env.revision = rev ∧ tells env

def SuccessIsOK : HttpResponse -> HttpProgram (Except ClientError String) -> Prop :=
  SuccessTells fun env => env.ok = true

def SuccessIsRevised : HttpResponse -> HttpProgram (Except ClientError String) -> Prop :=
  SuccessTells fun env => env.revision ≠ ""

theorem successTells_iff (tells : Envelope -> Prop) (c : Client) {op : SyncOp} {ifMatch : String}
    {req : HttpRequest}
    {next : Except String HttpResponse -> HttpProgram (Except ClientError String)}
    (hcall : c.ApplyOp op ifMatch = .call req next) (resp : HttpResponse) :
    SuccessTells tells resp (next (.ok resp)) <-> MutationTells tells ⟨req, .ok resp⟩ := by
  rcases applyOp_mutate c op ifMatch with ⟨method, path, body, hmethod, hop⟩
  rw [hop] at hcall
  unfold Client.mutate at hcall
  cases hreq : c.newRequest method path body ifMatch with
  | error err =>
      rw [hreq] at hcall
      cases hcall
  | ok req' =>
      rw [hreq] at hcall
      cases hcall
      have hne : req.method ≠ .GET := by
        rw [(newRequest_ok hreq).left]
        exact hmethod
      unfold SuccessTells MutationTells
      constructor
      · intro hsuccess _ resp' env hresp hlow hhigh henv
        cases hresp
        have hread : readMutation method path resp = .ok env.revision := by
          unfold readMutation
          rw [if_neg (by omega), henv]
        rcases hsuccess env.revision (by simpa using hread) with ⟨env', henv', _, htells⟩
        rw [henv] at henv'
        cases henv'
        exact htells
      · intro hhonest rev hdone
        have hread : readMutation method path resp = .ok rev := by
          simpa using hdone
        rcases readMutation_ok hread with ⟨hlow, hhigh, env, henv, rfl⟩
        exact ⟨env, henv, rfl, hhonest hne resp env rfl hlow hhigh henv⟩

/--
As long as every list and every accepted reply to a mutation has a revision, SyncNode
sends no mutation without one.  And a success of `ApplyOp` is ok, or has a revision to
go on with, exactly if the reply is of that kind.
-/
theorem lock_kept_iff [RFC3339] (c : Client) :
    (forall opts des t req next, Program.Steps (c.sync opts des) t (.call req next) ->
      (forall e, e ∈ t -> ListHonest e) -> (forall e, e ∈ t -> MutationRevised e) ->
      req.method ≠ .GET -> Locked req) ∧
    (forall op ifMatch req next, c.ApplyOp op ifMatch = .call req next -> forall resp,
      (SuccessIsOK resp (next (.ok resp)) <-> MutationOK ⟨req, .ok resp⟩) ∧
      (SuccessIsRevised resp (next (.ok resp)) <-> MutationRevised ⟨req, .ok resp⟩)) := by
  constructor
  · intro opts des t req next hsteps hlist hmutation
    exact Contract.owes_of_steps (sync_meets c opts des) hsteps
      (answered_of_honest hlist hmutation)
  · intro op ifMatch req next hcall resp
    exact ⟨successTells_iff _ c hcall resp, successTells_iff _ c hcall resp⟩

omit [JsonText] in
/-- A list and a create, both answered with a revision: the next create is locked. -/
theorem lock_kept_iff_sample :
    letI := sampleClock
    letI := sampleText
    let c : Client := { BaseURL := "http://127.0.0.1:9091" }
    let des : List DesiredUser := [⟨"sub_1", "ee1", none, none⟩, ⟨"sub_2", "ee2", none, none⟩]
    exists t req next, Program.Steps (c.sync { mode := .apply } des) t (.call req next) ∧
      req.method = .POST ∧ t.length = 2 ∧ Locked req := by
  let := sampleClock
  let := sampleText
  let c : Client := { BaseURL := "http://127.0.0.1:9091" }
  let des : List DesiredUser := [⟨"sub_1", "ee1", none, none⟩, ⟨"sub_2", "ee2", none, none⟩]
  let listed : HttpResponse :=
    ⟨200, "\x7b\"ok\":true,\"data\":[],\"revision\":\"r1\"\x7d", false⟩
  let created : HttpResponse := ⟨200, "\x7b\"ok\":true,\"revision\":\"r2\"\x7d", false⟩
  have hrun : exists list first second next,
      Program.Steps (c.sync { mode := .apply } des)
        ([⟨list, .ok listed⟩, ⟨first, .ok created⟩] : List HttpEvent) (.call second next) ∧
      list.method = .GET ∧ first.method = .POST ∧ second.method = .POST :=
    ⟨_, _, _, _, .call (.call (.refl _)), rfl, rfl, rfl⟩
  rcases hrun with ⟨list, first, second, next, hsteps, hlist, hfirst, hsecond⟩
  refine ⟨_, second, next, hsteps, hsecond, rfl, ?_⟩
  refine (lock_kept_iff c).left _ _ _ second next hsteps ?_ ?_ (by simp [hsecond])
  · intro e he hget resp env hresp henv
    rcases List.mem_cons.mp he with rfl | he
    · cases hresp
      cases henv
      decide
    · rw [List.mem_singleton.mp he] at hget
      rw [hfirst] at hget
      cases hget
  · intro e he hmutation resp env hresp _ _ henv
    rcases List.mem_cons.mp he with rfl | he
    · exact absurd hlist hmutation
    · rw [List.mem_singleton.mp he] at hresp
      cases hresp
      cases henv
      decide

omit [JsonText] in
/--
A list with a revision and a create answered without one: the next create goes
out unlocked.  And an envelope that is not ok is a success for `ApplyOp`.
-/
theorem lock_dropped :
    letI := sampleClock
    letI := sampleText
    let c : Client := { BaseURL := "http://127.0.0.1:9091" }
    let des : List DesiredUser := [⟨"sub_1", "ee1", none, none⟩, ⟨"sub_2", "ee2", none, none⟩]
    let listed : HttpResponse :=
      ⟨200, "\x7b\"ok\":true,\"data\":[],\"revision\":\"r1\"\x7d", false⟩
    let created : HttpResponse := ⟨200, "\x7b\"ok\":true\x7d", false⟩
    let refused : HttpResponse :=
      ⟨200, "\x7b\"ok\":false,\"revision\":\"r2\"\x7d", false⟩
    (exists list first second next,
      Program.Steps (c.sync { mode := .apply } des)
        ([⟨list, .ok listed⟩, ⟨first, .ok created⟩] : List HttpEvent) (.call second next) ∧
      first.method = .POST ∧ first.ifMatch = some "r1" ∧
      second.method = .POST ∧ second.ifMatch = none) ∧
    (exists req next, c.ApplyOp (deleteOp "sub_1") "r1" = .call req next ∧
      next (.ok refused) = .done (.ok "r2")) :=
  letI := sampleClock
  letI := sampleText
  ⟨⟨_, _, _, _, .call (.call (.refl _)), rfl, rfl, rfl, rfl⟩, ⟨_, _, rfl, rfl⟩⟩

end Telemt
end Telemux
