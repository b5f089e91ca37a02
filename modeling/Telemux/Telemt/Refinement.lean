import Telemux.Sync.Rules
import Telemux.Telemt.Wire
import Telemux.TelemtSync.Convergence

/-!
# Convergence over the wire

Seen through the client, a node with the machine API is one that does what the
operations say.  So what holds of the operations holds of the requests: a diff
sent operation by operation, in any order, leaves nothing to do, and a call of
SyncNode ends with the node in its target state.
-/

namespace Telemux
namespace Telemt

open Interaction Net TelemtSync Sync Reconcile

/-!
## Operations that can be sent
-/

structure Sendable (op : SyncOp) : Prop where
  username : Unreserved (utf8 op.username)
  ints : GoInts op

/-- Unreserved names, and limits that a Go `int` holds. -/
def SendableDesired (desired : List DesiredUser) : Prop :=
  forall d, d ∈ desired ->
    Unreserved (utf8 d.username) ∧ forall n, d.maxTCPConns = some n -> IsInt64 n

def PlainNames (users : List RemoteUser) : Prop :=
  forall r, r ∈ users -> Unreserved (utf8 r.username)

theorem sendable_of_mem_computeDiff [RFC3339] {desired : List DesiredUser}
    {users : List RemoteUser} {opts : Options} {op : SyncOp}
    (hdes : SendableDesired desired) (husers : PlainNames users)
    (hop : op ∈ ComputeDiff desired users opts) : Sendable op := by
  have hnone : forall n, (none : Option Int) = some n -> IsInt64 n := by
    intro n hn
    cases hn
  rcases mem_computeDiff.mp hop with
    ⟨d, hd, _, rfl⟩ | ⟨d, hd, r, _, _, rfl⟩ | ⟨r, hr, _, _, rfl⟩
  · exact ⟨(hdes d hd).left, ⟨(hdes d hd).right, hnone⟩⟩
  · refine ⟨(hdes d hd).left, ⟨hnone, ?_⟩⟩
    intro n hn
    simp only [patchOp, patchFieldsFor, Option.ite_none_right_eq_some] at hn
    exact (hdes d hd).right n hn.right
  · exact ⟨husers r hr, ⟨hnone, hnone⟩⟩

/-!
## The node behind the client

What SyncNode may rely on when the client serves its calls.
-/

section Node

variable [JsonText] {revision : MachineState -> String} {s : MachineState}

def wireNode (revision : MachineState -> String) (des : List DesiredUser) :
    Contract SyncCall (SyncReply ClientError) MachineState where
  owes s call :=
    match call with
    | .ListDesired => True
    | .ListUsers => True
    | .ApplyOp op ifMatch => Sendable op ∧ ifMatch = revision s
  answers s call reply s' :=
    match call, reply with
    | .ListDesired, r => s' = s ∧ r = .ok des
    | .ListUsers, r =>
        s' = s ∧ exists users, r = .ok (users, revision s) ∧ users.Perm s.listing
    | .ApplyOp op _, r => Sent revision op s r s'

theorem serve_wire (c : Client) (des : List DesiredUser) (call : SyncCall)
    (s : MachineState) (howes : (wireNode revision des).owes s call) :
    (machineAPI revision).Meets (c.serve des call) s fun r s' =>
      (wireNode revision des).answers s call r s' := by
  cases call with
  | ListDesired => exact ⟨rfl, rfl⟩
  | ListUsers => exact listUsers_wire c
  | ApplyOp op ifMatch =>
      exact applyOp_wire c howes.left.username howes.left.ints (Or.inr howes.right)

/-!
## Sending a diff

Before `rest` is sent, what was `sent` has been applied and counted, and the
revision is the current one.
-/

variable [RFC3339] {des : List DesiredUser} {opts : Options} {start : MachineState}
variable {res₀ : Result ClientError} {ops : List SyncOp}

structure Applying (revision : MachineState -> String) (des : List DesiredUser)
    (opts : Options) (start : MachineState) (res₀ : Result ClientError)
    (ops sent rest : List SyncOp) (rev : String) (res : Result ClientError)
    (s : MachineState) : Prop where
  planned : ops.Perm (ComputeDiff des start.listing opts)
  split : ops = sent ++ rest
  current : rev = revision s
  effect : s.listing = applyOps start.listing sent
  counted : res = { res₀ with applied := res₀.applied + sent.length }

omit [JsonText] in
theorem Applying.begin (hplanned : ops.Perm (ComputeDiff des start.listing opts)) :
    Applying revision des opts start res₀ ops [] ops (revision start) res₀ start :=
  ⟨hplanned, rfl, rfl, rfl, rfl⟩

omit [JsonText] in
theorem Applying.next {op : SyncOp} {sent rest : List SyncOp} {rev newRev : String}
    {res : Result ClientError} {s' : MachineState}
    (h : Applying revision des opts start res₀ ops sent (op :: rest) rev res s)
    (heffect : s'.listing = applyOp s.listing op) (hrev : newRev = revision s') :
    Applying revision des opts start res₀ ops (sent ++ [op]) rest newRev
      { res with applied := res.applied + 1 } s' where
  planned := h.planned
  split := by rw [h.split, List.append_assoc, List.singleton_append]
  current := hrev
  effect := by rw [heffect, h.effect, applyOps_snoc]
  counted := by simp [h.counted, Nat.add_assoc]

omit [JsonText] in
theorem Applying.applies {op : SyncOp} {sent rest : List SyncOp} {rev : String}
    {res : Result ClientError} (hdes : DistinctDesired des)
    (h : Applying revision des opts start res₀ ops sent (op :: rest) rev res s) :
    Applies s.listing op := by
  rw [h.effect]
  exact applies_in_turn hdes (listing_distinct start) (h.split ▸ h.planned)

omit [JsonText] in
theorem Applying.all_sent {sent : List SyncOp} {rev : String} {res : Result ClientError}
    (h : Applying revision des opts start res₀ ops sent [] rev res s) : sent = ops := by
  rw [h.split, List.append_nil]

omit [JsonText] in
theorem Applying.settled {sent : List SyncOp} {rev : String} {res : Result ClientError}
    {users : List RemoteUser} (hdes : DistinctDesired des)
    (h : Applying revision des opts start res₀ ops sent [] rev res s)
    (hlisted : users.Perm s.listing) : ComputeDiff des users opts = [] := by
  have hsame : remoteByName s.listing = remoteByName users := by
    funext name
    exact lookup_perm (listing_distinct s) hlisted.symm name
  rw [computeDiff_nil_iff]
  apply inTarget_congr hsame
  rw [h.effect, h.all_sent]
  exact applyOps_inTarget hdes (listing_distinct start) h.planned

omit [JsonText] in
theorem applying_loop (hdes : DistinctDesired des) (hsendable : SendableDesired des)
    (hnames : PlainNames start.listing) :
    LoopInvariant (wireNode revision des)
      (fun rest rev res s =>
        exists sent, Applying revision des opts start res₀ ops sent rest rev res s)
      (fun res ending s => ending = .finished ∧
        exists sent rev, Applying revision des opts start res₀ ops sent [] rev res s) := by
  have hnoerror : forall {op rest rev res s aerr s'},
      (exists sent, Applying revision des opts start res₀ ops sent (op :: rest) rev res s) ->
      ¬ Sent revision op s (.error aerr) s' := by
    intro op rest rev res s aerr s' happlying hans
    rcases happlying with ⟨sent, h⟩
    cases hans.applied (h.applies hdes)
  constructor
  case owes =>
    intro op rest rev res s happlying
    rcases happlying with ⟨sent, h⟩
    refine ⟨sendable_of_mem_computeDiff hsendable hnames (h.planned.subset ?_), h.current⟩
    rw [h.split]
    exact List.mem_append_right _ List.mem_cons_self
  case success =>
    intro op rest rev res s newRev s' happlying hans
    rcases happlying with ⟨sent, h⟩
    have hok := hans.applied (h.applies hdes)
    exact ⟨sent ++ [op], h.next hans.effect (Except.ok.inj hok)⟩
  case skip => exact fun h hans _ => absurd hans (hnoerror h)
  case failure => exact fun h hans _ => absurd hans (hnoerror h)
  case readOnly => exact fun h hans _ => absurd hans (hnoerror h)
  case conflict => exact fun h hans _ => absurd hans (hnoerror h)
  case finished =>
    intro rev res s happlying
    rcases happlying with ⟨sent, h⟩
    exact ⟨rfl, sent, rev, h⟩

theorem applyLoop_wire (c : Client) (hdes : DistinctDesired des)
    (hsendable : SendableDesired des) (hnames : PlainNames start.listing)
    (hplanned : ops.Perm (ComputeDiff des start.listing opts)) :
    (machineAPI revision).Meets
      ((applyLoop ops (revision start) res₀).interp (c.serve des)) start fun out s =>
        out.2 = .finished ∧
          exists sent rev, Applying revision des opts start res₀ ops sent [] rev out.1 s := by
  apply Contract.meets_interp (serve_wire c des)
  exact applyLoop_meets (applying_loop hdes hsendable hnames) ⟨[], Applying.begin hplanned⟩

/-- How a call of SyncNode ends: the guard stopped it, or it did everything. -/
structure SyncedOver (des : List DesiredUser) (opts : SyncOptions) (start : MachineState)
    (res : Result ClientError) (err : Option (SyncError ClientError)) (s : MachineState) :
    Prop where
  no_error : err = none
  clean : res.skipped = 0 ∧ res.failed = 0
  guarded : exists users, users.Perm start.listing ∧ res.ops = opts.diff des users ∧
    res.aborted = (IsMassDelete res.ops users opts.massDelete && !opts.force)
  aborted : res.aborted = true -> s = start
  applied : res.aborted = false -> res.applied = res.ops.length ∧
    forall users, users.Perm s.listing ->
      ComputeDiff des users opts.massDelete.toOptions = []

omit [JsonText] in
theorem syncedOver_of_applying {sopts : SyncOptions} {remote : List RemoteUser}
    {sent : List SyncOp} {rev : String} {res : Result ClientError} (hdes : DistinctDesired des)
    (hread : remote.Perm start.listing) (hstops : sopts.stops des remote = false)
    (h : Applying revision des sopts.massDelete.toOptions start
      { ops := sopts.diff des remote } (sopts.diff des remote) sent [] rev res s) :
    SyncedOver des sopts start res none s := by
  constructor
  · rfl
  · rw [h.counted]
    exact ⟨rfl, rfl⟩
  · rw [h.counted]
    exact ⟨remote, hread, rfl, hstops.symm⟩
  · intro haborted
    rw [h.counted] at haborted
    cases haborted
  · intro _
    constructor
    · rw [h.counted, h.all_sent]
      exact Nat.zero_add _
    · intro users hlisted
      exact h.settled hdes hlisted

omit [JsonText] in
theorem applying_attempts {sopts : SyncOptions} (hmode : sopts.mode = .apply)
    (hdes : DistinctDesired des) (hsendable : SendableDesired des)
    (hnames : PlainNames start.listing) :
    CallInvariant (wireNode revision des) sopts des (fun left _ s => s = start ∧ left ≠ 0)
      (fun _ remote rest rev res s =>
        (remote.Perm start.listing ∧ sopts.stops des remote = false) ∧ exists sent,
          Applying revision des sopts.massDelete.toOptions start
            { ops := sopts.diff des remote } (sopts.diff des remote) sent rest rev res s)
      (SyncedOver des sopts start) := by
  constructor
  case exhausted =>
    intro res s' hstart
    exact absurd rfl hstart.right
  case owes => exact fun _ => trivial
  case listError =>
    intro left res s' err t _ hans
    rcases hans with ⟨_, users, h, _⟩
    cases h
  case aborted =>
    intro left res s' remote rev t hstart hans hstops
    rcases hstart with ⟨rfl, _⟩
    rcases hans with ⟨rfl, users, hlisted, hperm⟩
    cases hlisted
    constructor
    · rfl
    · exact ⟨rfl, rfl⟩
    · exact ⟨remote, hperm, rfl, hstops.symm⟩
    · exact fun _ => rfl
    · intro hnot
      cases hnot
  case shadow =>
    intro left res s' remote rev t _ _ _ hshadow
    rw [hmode] at hshadow
    cases hshadow
  case start =>
    intro left res s' remote rev t hstart hans hstops _
    rcases hstart with ⟨rfl, _⟩
    rcases hans with ⟨rfl, users, hlisted, hperm⟩
    cases hlisted
    have hdistinct : DistinctUsers remote :=
      (hperm.map RemoteUser.username).nodup_iff.mpr (listing_distinct _)
    exact ⟨⟨hperm, hstops⟩, [], Applying.begin (computeDiff_perm hdes hdistinct hperm _)⟩
  case loop =>
    intro left remote
    apply LoopInvariant.given
    intro hread
    apply (applying_loop hdes hsendable hnames).mono
    intro res ending s' hdone
    rcases hdone with ⟨rfl, sent, rev, h⟩
    exact syncedOver_of_applying hdes hread.left hread.right h

theorem sync_wire (c : Client) {sopts : SyncOptions} (hmode : sopts.mode = .apply)
    (hretries : 0 ≤ sopts.maxConflictRetries) (hdes : DistinctDesired des)
    (hsendable : SendableDesired des) (hnames : PlainNames start.listing) :
    (machineAPI revision).Meets (c.sync sopts des) start fun out s =>
      SyncedOver des sopts start out.1 out.2 s := by
  have hattempts : (sopts.maxRetry + 1).toNat ≠ 0 := by
    unfold SyncOptions.maxRetry
    split <;> omega
  have hmeets := syncNode_meets sopts (K := wireNode revision des)
    (J := fun _ left _ s => s = start ∧ left ≠ 0)
    (I := fun des' _ remote rest rev res s =>
      (remote.Perm start.listing ∧ sopts.stops des' remote = false) ∧ exists sent,
        Applying revision des' sopts.massDelete.toOptions start
          { ops := sopts.diff des' remote } (sopts.diff des' remote) sent rest rev res s)
    (Q := SyncedOver des sopts start) (g := start) trivial
  apply Contract.meets_interp (serve_wire c des)
  apply hmeets
  · intro err s hans
    cases hans.right
  · intro des' s hans
    rcases hans with ⟨rfl, hdesired⟩
    cases hdesired
    exact ⟨applying_attempts hmode hdes hsendable hnames, rfl, hattempts⟩

/-!
## Lists before and after

What is sent in between carries the revision of the first list.
-/

abbrev Listed : Type := Except ClientError (List RemoteUser × String)

def listedRevision : Listed -> String
  | .ok (_, rev) => rev
  | .error _ => ""

def Client.observe {α : Type} (c : Client) (send : String -> HttpProgram α) :
    HttpProgram (Listed × α × Listed) :=
  c.ListUsers.bind fun before =>
    (send (listedRevision before)).bind fun a =>
      c.ListUsers.bind fun after => .done (before, a, after)

omit [RFC3339] in
theorem observe_wire {α : Type} (c : Client) {send : String -> HttpProgram α}
    {Q : α -> MachineState -> Prop}
    (hsend : (machineAPI revision).Meets (send (revision s)) s Q) :
    (machineAPI revision).Meets (c.observe send) s fun out s' =>
      exists users users', out.1 = .ok (users, revision s) ∧
        out.2.2 = .ok (users', revision s') ∧ users.Perm s.listing ∧
        users'.Perm s'.listing ∧ Q out.2.1 s' := by
  unfold Client.observe
  apply Contract.meets_bind
  apply Contract.meets_mono _ (listUsers_wire c)
  intro before _ hans
  rcases hans with ⟨rfl, users, rfl, husers⟩
  apply Contract.meets_bind
  apply Contract.meets_mono _ hsend
  intro a s' ha
  apply Contract.meets_bind
  apply Contract.meets_mono _ (listUsers_wire c)
  intro after _ hans
  rcases hans with ⟨rfl, users', rfl, husers'⟩
  exact ⟨users, users', rfl, rfl, husers, husers', ha⟩

/--
Between two lists, one operation does what it means, a diff in any order leaves
nothing to do, and a call of SyncNode that the guard lets pass does too.
-/
theorem wire_refines (c : Client) (revision : MachineState -> String) :
    (forall s op, Sendable op ->
      (machineAPI revision).Meets (c.observe (c.ApplyOp op)) s fun out s' =>
        exists users users', out.1 = .ok (users, revision s) ∧
          out.2.2 = .ok (users', revision s') ∧ users'.Perm (applyOp users op) ∧
          (Applies users op -> out.2.1 = .ok (revision s'))) ∧
    (forall s des opts ops, DistinctDesired des -> SendableDesired des ->
      PlainNames s.listing -> ops.Perm (ComputeDiff des s.listing opts) ->
      (machineAPI revision).Meets
        (c.observe fun rev => (applyLoop ops rev {}).interp (c.serve des)) s fun out s' =>
        exists users users', out.1 = .ok (users, revision s) ∧
          out.2.2 = .ok (users', revision s') ∧ out.2.1.1.applied = ops.length ∧
          users'.Perm (applyOps users ops) ∧ ComputeDiff des users' opts = []) ∧
    (forall s des opts, opts.mode = .apply -> 0 ≤ opts.maxConflictRetries ->
      DistinctDesired des -> SendableDesired des -> PlainNames s.listing ->
      (machineAPI revision).Meets (c.sync opts des) s fun out s' =>
        SyncedOver des opts s out.1 out.2 s') := by
  refine ⟨?_, ?_, ?_⟩
  · intro s op hop
    apply Contract.meets_mono _
      (observe_wire c (applyOp_wire c hop.username hop.ints (Or.inr rfl)))
    intro out s' hobserved
    rcases out with ⟨before, r, after⟩
    rcases hobserved with ⟨users, users', hbefore, hafter, husers, husers', hsent⟩
    have hdistinct : DistinctUsers s.listing := listing_distinct s
    refine ⟨users, users', hbefore, hafter, ?_, ?_⟩
    · rw [hsent.effect] at husers'
      exact husers'.trans (applyOp_perm hdistinct husers.symm op)
    · intro happlies
      apply hsent.applied
      have hsame : remoteByName s.listing op.username = remoteByName users op.username :=
        lookup_perm hdistinct husers.symm op.username
      unfold Applies at happlies ⊢
      rwa [hsame]
  · intro s des opts ops hdes hsendable hnames hplanned
    apply Contract.meets_mono _
      (observe_wire c (applyLoop_wire c hdes hsendable hnames hplanned))
    intro out s' hobserved
    rcases out with ⟨before, sync, after⟩
    rcases hobserved with ⟨users, users', hbefore, hafter, husers, husers', _, sent, rev, h⟩
    refine ⟨users, users', hbefore, hafter, ?_, ?_, h.settled hdes husers'⟩
    · rw [h.counted, h.all_sent]
      exact Nat.zero_add _
    · rw [h.effect, h.all_sent] at husers'
      exact husers'.trans (applyOps_perm (listing_distinct s) husers.symm ops)
  · intro s des opts hmode hretries hdes hsendable hnames
    exact sync_wire c hmode hretries hdes hsendable hnames

end Node

/-!
## A patch

One that removes an expiration and sets a limit of zero.
-/

def expiringUser : StoredUser where
  username := "sub_1"
  members := Object.ofMembers
    [("username", .str "sub_1"), ("expiration_rfc3339", .str "2026-07-01T00:00:00Z"),
      ("enabled", .bool true)]

def expiringNode : MachineState where
  users := [expiringUser]
  unique := by simp [Distinct]
  typed := by
    intro u hu
    rw [List.mem_singleton.mp hu]
    rfl

def limitPatch : SyncOp :=
  patchOp "sub_1" { setExpiration := true, setMaxTCPConns := true, maxTCPConns := some 0 }

def limitRevision (s : MachineState) : String :=
  match (remoteByName s.listing "sub_1").bind RemoteUser.maxTCPConns with
  | none => "r1"
  | some _ => "r2"

def beforeBody : String :=
  "\x7b\"ok\":true,\"data\":[\x7b\"username\":\"sub_1\",\"enabled\":true," ++
    "\"max_tcp_conns\":null,\"expiration_rfc3339\":\"2026-07-01T00:00:00Z\"\x7d]," ++
    "\"revision\":\"r1\"\x7d"

def patchedBody : String :=
  "\x7b\"ok\":true,\"data\":null,\"revision\":\"r2\"\x7d"

def afterBody : String :=
  "\x7b\"ok\":true,\"data\":[\x7b\"username\":\"sub_1\",\"enabled\":true," ++
    "\"max_tcp_conns\":0,\"expiration_rfc3339\":null\x7d],\"revision\":\"r2\"\x7d"

@[reducible] def patchText : JsonText where
  read s :=
    if s = beforeBody then
      some (envelope (.arr [.obj [("username", .str "sub_1"), ("enabled", .bool true),
        ("max_tcp_conns", .null), ("expiration_rfc3339", .str "2026-07-01T00:00:00Z")]]) "r1")
    else if s = patchedBody then some (envelope .null "r2")
    else if s = afterBody then
      some (envelope (.arr [.obj [("username", .str "sub_1"), ("enabled", .bool true),
        ("max_tcp_conns", .int 0), ("expiration_rfc3339", .null)]]) "r2")
    else none

theorem wire_refines_sample :
    letI := patchText
    let c : Client := { BaseURL := "http://127.0.0.1:9091" }
    let expiring : RemoteUser := ⟨"sub_1", true, some "2026-07-01T00:00:00Z", none⟩
    let limited : RemoteUser := ⟨"sub_1", true, none, some 0⟩
    exists t users, Program.Runs (c.observe (c.ApplyOp limitPatch)) t
        (.ok ([expiring], "r1"), .ok "r2", .ok (users, "r2")) ∧
      t.length = 3 ∧ users.Perm [limited] := by
  let := sampleClock
  let := patchText
  let c : Client := { BaseURL := "http://127.0.0.1:9091" }
  have hrun : exists first second third users final,
      Program.Runs (c.observe (c.ApplyOp limitPatch))
        [⟨first, .ok ⟨200, beforeBody, false⟩⟩, ⟨second, .ok ⟨200, patchedBody, false⟩⟩,
          ⟨third, .ok ⟨200, afterBody, false⟩⟩]
        (.ok ([⟨"sub_1", true, some "2026-07-01T00:00:00Z", none⟩], "r1"), .ok "r2",
          .ok (users, "r2")) ∧
      (machineAPI limitRevision).Answered expiringNode
        [⟨first, .ok ⟨200, beforeBody, false⟩⟩, ⟨second, .ok ⟨200, patchedBody, false⟩⟩,
          ⟨third, .ok ⟨200, afterBody, false⟩⟩] final :=
    ⟨_, _, _, _, _, .call (.call (.call (.refl _))),
      .cons ⟨_, rfl, rfl, rfl, rfl, [expiringUser], .refl _, rfl⟩
        (.cons ⟨_, rfl, rfl, rfl, by decide, by decide, .null, rfl⟩
          (.cons ⟨_, rfl, rfl, rfl, rfl, _, .refl _, rfl⟩ (.nil _)))⟩
  rcases hrun with ⟨first, second, third, users, final, hruns, hanswered⟩
  have hsendable : Sendable limitPatch := by
    refine ⟨by decide, ?_, ?_⟩
    · intro n hn
      cases hn
    · intro n hn
      cases hn
      decide
  rcases Contract.post_of_runs ((wire_refines c limitRevision).left expiringNode limitPatch
    hsendable) hruns hanswered with ⟨users₀, users', hbefore, hafter, hperm, _⟩
  cases hbefore
  rw [← (Prod.mk.inj (Except.ok.inj hafter)).left] at hperm
  exact ⟨_, users, hruns, rfl, hperm⟩

end Telemt
end Telemux
