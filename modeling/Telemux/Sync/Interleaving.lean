import Telemux.Sync.Rules
import Telemux.TelemtSync.Convergence

/-!
# SyncNode among other writers

One call of SyncNode, a node with compare-and-set revisions, and anybody else
who writes to the node, in any interleaving.  Replies may be delayed for as long
as one likes or lost, and a request whose caller has given up may still reach
the node.

The node is described by assumptions only: a mutation with a non-empty If-Match
takes effect only at that revision, a list reply is of one state, a success
reply carries the revision right after the mutation, and revisions are non-empty
and tell states apart.
-/

namespace Telemux
namespace Sync

open Interaction TelemtSync

/-!
## The node
-/

structure NodeModel (σ ε : Type) where
  users : σ -> List RemoteUser
  revision : σ -> String
  /-- How a mutation that takes effect may change the configuration. -/
  performs : SyncOp -> σ -> σ -> Prop
  /-- The errors a mutation may be answered with, without effect. -/
  refuses : SyncOp -> String -> σ -> ε -> Prop
  revision_nonempty : forall s, revision s ≠ ""
  revision_injective : Function.Injective revision

/-- The If-Match check: an empty value checks nothing. -/
def NodeModel.Matches {σ ε : Type} (N : NodeModel σ ε) (ifMatch : String) (s : σ) : Prop :=
  ifMatch ≠ "" -> ifMatch = N.revision s

/-- `Acknowledged s ops s'`: performing `ops` one after another leads from `s` to `s'`. -/
inductive Acknowledged {σ ε : Type} (N : NodeModel σ ε) : σ -> List SyncOp -> σ -> Prop where
  | nil (s : σ) : Acknowledged N s [] s
  | snoc {s s' s'' : σ} {ops : List SyncOp} {op : SyncOp} :
      Acknowledged N s ops s' -> N.performs op s' s'' -> Acknowledged N s (ops ++ [op]) s''

/-!
## The system

The log records what the statements below speak about.  No step looks at it, so
it does not restrict what can happen.
-/

structure Log (σ : Type) where
  /-- What ListDesired returned. -/
  desired : Option (List DesiredUser) := none
  /-- The state the current attempt listed. -/
  listed : Option σ := none
  /-- The operations of the current attempt that were acknowledged. -/
  acked : List SyncOp := []
  /-- The state right after the last of them, or the listed one. -/
  current : Option σ := none
  /-- Every state the node has been in since that list, the latest first. -/
  since : List σ := []

structure Request (σ : Type) where
  op : SyncOp
  ifMatch : String
  log : Log σ

inductive Outcome (σ ε : Type) where
  | performed (s : σ)
  | refused (err : ε)

structure Pending (σ ε : Type) where
  request : Request σ
  outcome : Option (Outcome σ ε) := none

structure System (σ ε : Type) where
  node : σ
  left : Program SyncCall (SyncReply ε) (Result ε × Option (SyncError ε))
  pending : Option (Pending σ ε) := none
  lost : List (Request σ) := []
  log : Log σ := {}

section Step

variable {σ ε : Type} [ClassifiedError ε]

/-- One step; it is labelled with the request that takes effect in it, if any. -/
inductive Step (N : NodeModel σ ε) :
    System σ ε -> Option (Request σ) -> System σ ε -> Prop where
  /-- Somebody else writes. -/
  | write {y : System σ ε} (s' : σ) :
      Step N y none { y with node := s', log := { y.log with since := s' :: y.log.since } }
  | desired {y : System σ ε} {next} (des : List DesiredUser) :
      y.left = .call .ListDesired next ->
      Step N y none
        { y with left := next (.ok des), log := { y.log with desired := some des } }
  | desiredFails {y : System σ ε} {next} (err : ε) :
      y.left = .call .ListDesired next ->
      Step N y none { y with left := next (.error err) }
  | list {y : System σ ε} {next} :
      y.left = .call .ListUsers next ->
      Step N y none
        { y with
          left := next (.ok (N.users y.node, N.revision y.node))
          log := { y.log with
            listed := some y.node, acked := [], current := some y.node,
            since := [y.node] } }
  | listFails {y : System σ ε} {next} (err : ε) :
      y.left = .call .ListUsers next ->
      Step N y none { y with left := next (.error err) }
  | send {y : System σ ε} {op ifMatch next} :
      y.left = .call (.ApplyOp op ifMatch) next -> y.pending = none ->
      Step N y none { y with pending := some { request := ⟨op, ifMatch, y.log⟩ } }
  | perform {y : System σ ε} {q : Request σ} (s' : σ) :
      y.pending = some { request := q } -> N.Matches q.ifMatch y.node ->
      N.performs q.op y.node s' ->
      Step N y (some q)
        { y with
          node := s'
          pending := some { request := q, outcome := some (.performed s') }
          log := { y.log with since := s' :: y.log.since } }
  | refuse {y : System σ ε} {q : Request σ} {err : ε} :
      y.pending = some { request := q } -> N.refuses q.op q.ifMatch y.node err ->
      Step N y none
        { y with pending := some { request := q, outcome := some (.refused err) } }
  | success {y : System σ ε} {op ifMatch next} {q : Request σ} {s' : σ} :
      y.left = .call (.ApplyOp op ifMatch) next ->
      y.pending = some { request := q, outcome := some (.performed s') } ->
      Step N y none
        { y with
          left := next (.ok (N.revision s'))
          pending := none
          log := { y.log with acked := y.log.acked ++ [q.op], current := some s' } }
  | refusal {y : System σ ε} {op ifMatch next} {q : Request σ} {err : ε} :
      y.left = .call (.ApplyOp op ifMatch) next ->
      y.pending = some { request := q, outcome := some (.refused err) } ->
      Step N y none { y with left := next (.error err), pending := none }
  /-- The reply is lost or comes too late: SyncNode sees a transport error. -/
  | lose {y : System σ ε} {op ifMatch next} {p : Pending σ ε} {err : ε} :
      y.left = .call (.ApplyOp op ifMatch) next -> y.pending = some p ->
      ClassifiedError.classified err = none ->
      Step N y none
        { y with
          left := next (.error err), pending := none, lost := p.request :: y.lost }
  /-- A request that SyncNode has given up on takes effect after all. -/
  | performLost {y : System σ ε} {q : Request σ} (s' : σ) :
      q ∈ y.lost -> N.Matches q.ifMatch y.node -> N.performs q.op y.node s' ->
      Step N y (some q)
        { y with node := s', log := { y.log with since := s' :: y.log.since } }

inductive Run (N : NodeModel σ ε) : System σ ε -> System σ ε -> Prop where
  | refl (y : System σ ε) : Run N y y
  | step {y y' y'' : System σ ε} {label : Option (Request σ)} :
      Run N y y' -> Step N y' label y'' -> Run N y y''

def initial [RFC3339] (opts : SyncOptions) (s : σ) : System σ ε where
  node := s
  left := SyncNode opts

end Step

/-!
## The contract of a call

What SyncNode owes and what it may be answered, in terms of the log.
-/

section Contract

variable {σ ε : Type} [ClassifiedError ε] [RFC3339]

/-- A request is for the state its attempt listed, as changed by its acknowledged part. -/
structure UpToDate (N : NodeModel σ ε) (opts : SyncOptions) (log : Log σ) (op : SyncOp)
    (ifMatch : String) (des : List DesiredUser) (base now : σ) : Prop where
  desired : log.desired = some des
  listed : log.listed = some base
  current : log.current = some now
  computed : op ∈ opts.diff des (N.users base)
  acknowledged : Acknowledged N base log.acked now
  revision : ifMatch = N.revision now

def casOwes (N : NodeModel σ ε) (opts : SyncOptions) (log : Log σ) : SyncCall -> Prop
  | .ListDesired => True
  | .ListUsers => True
  | .ApplyOp op ifMatch => exists des base now, UpToDate N opts log op ifMatch des base now

def casAnswers (N : NodeModel σ ε) (log : Log σ) :
    (c : SyncCall) -> SyncReply ε c -> Log σ -> Prop
  | .ListDesired, .ok des, log' => log' = { log with desired := some des }
  | .ListDesired, .error _, log' => log' = log
  | .ListUsers, .ok listed, log' =>
      exists s, listed = (N.users s, N.revision s) ∧
        log' = { log with
          listed := some s, acked := [], current := some s, since := [s] }
  | .ListUsers, .error _, log' => log' = log
  | .ApplyOp op ifMatch, .ok newRev, log' =>
      exists s s' since, log.since ⊆ since ∧ s' ∈ since ∧ N.Matches ifMatch s ∧
        N.performs op s s' ∧ newRev = N.revision s' ∧
        log' = { log with acked := log.acked ++ [op], current := some s', since := since }
  | .ApplyOp op ifMatch, .error err, log' =>
      exists since, log.since ⊆ since ∧
        (ClassifiedError.classified err = none ∨
          exists s, s ∈ since ∧ N.refuses op ifMatch s err) ∧
        log' = { log with since := since }

def casContract (N : NodeModel σ ε) (opts : SyncOptions) :
    Contract SyncCall (SyncReply ε) (Log σ) where
  owes := casOwes N opts
  answers := casAnswers N

omit [ClassifiedError ε] [RFC3339] in
theorem state_of_matches (N : NodeModel σ ε) {ifMatch : String} {s now : σ}
    (hmatches : N.Matches ifMatch s) (hrev : ifMatch = N.revision now) : s = now := by
  have hne : ifMatch ≠ "" := by
    rw [hrev]
    exact N.revision_nonempty now
  apply N.revision_injective
  rw [← hmatches hne, hrev]

/-!
## The invariant of an attempt

`Progress` holds between two operations: the revision SyncNode carries is that
of the state after the acknowledged part, whatever happened to the other
operations, and the counters say what happened to them.
-/

def SkippedAt (N : NodeModel σ ε) (op : SyncOp) (since : List σ) : Prop :=
  exists s ifMatch err, s ∈ since ∧ N.refuses op ifMatch s err ∧
    errorClass err = .alreadyDone

structure Progress (N : NodeModel σ ε) (opts : SyncOptions) (des : List DesiredUser)
    (base now : σ) (rest : List SyncOp) (res : Result ε) (log : Log σ) : Prop where
  desired : log.desired = some des
  listed : log.listed = some base
  current : log.current = some now
  acknowledged : Acknowledged N base log.acked now
  seen : now ∈ log.since
  in_order : List.Sublist (log.acked ++ rest) (opts.diff des (N.users base))
  not_aborted : res.aborted = false
  all_acked : res.failed = 0 -> res.skipped = 0 ->
    log.acked ++ rest = opts.diff des (N.users base)
  all_answered : res.failed = 0 -> forall op, op ∈ opts.diff des (N.users base) ->
    op ∈ log.acked ∨ op ∈ rest ∨ SkippedAt N op log.since

omit [RFC3339] in
theorem skippedAt_mono {N : NodeModel σ ε} {op : SyncOp} {since since' : List σ}
    (hsub : since ⊆ since') (h : SkippedAt N op since) : SkippedAt N op since' := by
  rcases h with ⟨s, ifMatch, err, hs, href, hclass⟩
  exact ⟨s, ifMatch, err, hsub hs, href, hclass⟩

variable {N : NodeModel σ ε} {opts : SyncOptions} {des : List DesiredUser} {base now : σ}
variable {op : SyncOp} {rest : List SyncOp} {res : Result ε} {log : Log σ}

theorem progress_owes {rev : String}
    (h : Progress N opts des base now (op :: rest) res log) (hrev : rev = N.revision now) :
    casOwes N opts log (.ApplyOp op rev) :=
  ⟨des, base, now,
    { desired := h.desired
      listed := h.listed
      current := h.current
      computed := h.in_order.subset (List.mem_append_right _ List.mem_cons_self)
      acknowledged := h.acknowledged
      revision := hrev }⟩

theorem progress_success {rev newRev : String} {log' : Log σ}
    (h : Progress N opts des base now (op :: rest) res log) (hrev : rev = N.revision now)
    (hans : casAnswers N log (.ApplyOp op rev) (.ok newRev) log') :
    exists now', newRev = N.revision now' ∧
      Progress N opts des base now' rest
        { res with applied := res.applied + 1 } log' := by
  rcases hans with ⟨s, s', since, hsub, hs', hmatches, hperf, hnew, rfl⟩
  have hs : s = now := state_of_matches N hmatches hrev
  rw [hs] at hperf
  refine ⟨s', hnew, ?_⟩
  constructor
  · exact h.desired
  · exact h.listed
  · rfl
  · exact Acknowledged.snoc h.acknowledged hperf
  · exact hs'
  · simpa using h.in_order
  · exact h.not_aborted
  · intro hfailed hskipped
    rw [← h.all_acked hfailed hskipped]
    simp
  · intro hfailed o ho
    rcases h.all_answered hfailed o ho with hacked | hrest | hskip
    · exact Or.inl (List.mem_append_left _ hacked)
    · rcases List.mem_cons.mp hrest with rfl | hrest
      · exact Or.inl (List.mem_append_right _ List.mem_cons_self)
      · exact Or.inr (Or.inl hrest)
    · exact Or.inr (Or.inr (skippedAt_mono hsub hskip))

theorem progress_skip {rev : String} {err : ε} {log' : Log σ}
    (h : Progress N opts des base now (op :: rest) res log)
    (hans : casAnswers N log (.ApplyOp op rev) (.error err) log')
    (hclass : errorClass err = .alreadyDone) :
    Progress N opts des base now rest { res with skipped := res.skipped + 1 } log' := by
  rcases hans with ⟨since, hsub, hcause, rfl⟩
  have hskip : SkippedAt N op since := by
    rcases hcause with hplain | ⟨s, hs, href⟩
    · simp [errorClass, hplain] at hclass
    · exact ⟨s, rev, err, hs, href, hclass⟩
  constructor
  · exact h.desired
  · exact h.listed
  · exact h.current
  · exact h.acknowledged
  · exact hsub h.seen
  · exact ((List.sublist_cons_self op rest).append_left log.acked).trans h.in_order
  · exact h.not_aborted
  · intro _ hskipped
    simp at hskipped
  · intro hfailed o ho
    rcases h.all_answered hfailed o ho with hacked | hrest | hold
    · exact Or.inl hacked
    · rcases List.mem_cons.mp hrest with rfl | hrest
      · exact Or.inr (Or.inr hskip)
      · exact Or.inr (Or.inl hrest)
    · exact Or.inr (Or.inr (skippedAt_mono hsub hold))

theorem progress_failure {rev : String} {err : ε} {log' : Log σ}
    (h : Progress N opts des base now (op :: rest) res log)
    (hans : casAnswers N log (.ApplyOp op rev) (.error err) log') :
    Progress N opts des base now rest
      { res with failed := res.failed + 1, errors := res.errors ++ [err] } log' := by
  rcases hans with ⟨since, hsub, _, rfl⟩
  constructor
  · exact h.desired
  · exact h.listed
  · exact h.current
  · exact h.acknowledged
  · exact hsub h.seen
  · exact ((List.sublist_cons_self op rest).append_left log.acked).trans h.in_order
  · exact h.not_aborted
  · intro hfailed
    simp at hfailed
  · intro hfailed
    simp at hfailed

def Returned (N : NodeModel σ ε) (opts : SyncOptions) (res : Result ε)
    (err : Option (SyncError ε)) (log : Log σ) : Prop :=
  err = none -> opts.mode = .apply -> res.aborted = false ->
    exists des base now, Progress N opts des base now [] res log

theorem casContract_loop (N : NodeModel σ ε) (opts : SyncOptions) (des : List DesiredUser) :
    LoopInvariant (casContract N opts)
      (fun rest rev res log => exists base now, rev = N.revision now ∧
        Progress N opts des base now rest res log)
      (fun res ending log =>
        match ending with
        | .finished => Returned N opts res none log
        | .readOnly aerr => Returned N opts res (some (.readOnly aerr)) log
        | .conflict => log.desired = some des) := by
  constructor
  case owes =>
    intro op rest rev res log hprogress
    rcases hprogress with ⟨base, now, hrev, h⟩
    exact progress_owes h hrev
  case success =>
    intro op rest rev res log newRev log' hprogress hans
    rcases hprogress with ⟨base, now, hrev, h⟩
    rcases progress_success h hrev hans with ⟨now', hnew, h'⟩
    exact ⟨base, now', hnew, h'⟩
  case skip =>
    intro op rest rev res log aerr log' hprogress hans hclass
    rcases hprogress with ⟨base, now, hrev, h⟩
    exact ⟨base, now, hrev, progress_skip h hans hclass⟩
  case failure =>
    intro op rest rev res log aerr log' hprogress hans _
    rcases hprogress with ⟨base, now, hrev, h⟩
    exact ⟨base, now, hrev, progress_failure h hans⟩
  case readOnly =>
    intro op rest rev res log aerr log' _ _ _ hnone
    cases hnone
  case conflict =>
    intro op rest rev res log aerr log' hprogress hlater _
    rcases hprogress with ⟨base, now, _, h⟩
    rcases hlater with ⟨since, _, _, rfl⟩
    exact h.desired
  case finished =>
    intro rev res log hprogress _ _ _
    rcases hprogress with ⟨base, now, _, h⟩
    exact ⟨des, base, now, h⟩

theorem casContract_attempts (N : NodeModel σ ε) (opts : SyncOptions)
    (des : List DesiredUser) :
    CallInvariant (casContract N opts) opts des
      (fun _ _ log => log.desired = some des)
      (fun _ _ rest rev res log => exists base now, rev = N.revision now ∧
        Progress N opts des base now rest res log)
      (Returned N opts) := by
  constructor
  case exhausted =>
    intro res log _ hnone
    cases hnone
  case owes => exact fun _ => trivial
  case listError =>
    intro left res log err log' _ _ hnone
    cases hnone
  case aborted =>
    intro left res log remote rev log' _ _ _ _ _ haborted
    cases haborted
  case shadow =>
    intro left res log remote rev log' _ _ _ hmode _ hmode' _
    rw [hmode] at hmode'
    cases hmode'
  case start =>
    intro left res log remote rev log' hdes hlist _ _
    rcases hlist with ⟨s, hlisted, rfl⟩
    cases hlisted
    refine ⟨s, s, rfl, ?_⟩
    constructor
    · exact hdes
    · rfl
    · rfl
    · exact Acknowledged.nil s
    · exact List.mem_cons_self
    · exact List.Sublist.refl _
    · rfl
    · exact fun _ _ => rfl
    · exact fun _ _ ho => Or.inr (Or.inl ho)
  case loop => exact fun _ _ => casContract_loop N opts des

theorem syncNode_casContract (N : NodeModel σ ε) (opts : SyncOptions) (log : Log σ) :
    (casContract N opts).Meets (SyncNode opts) log fun out log' =>
      Returned N opts out.1 out.2 log' := by
  apply syncNode_meets opts (J := fun des _ _ log => log.desired = some des)
    (I := fun des _ _ rest rev res log => exists base now, rev = N.revision now ∧
      Progress N opts des base now rest res log)
  · trivial
  · intro err log' _ hnone
    cases hnone
  · intro des log' heq
    subst heq
    exact ⟨casContract_attempts N opts des, rfl⟩

end Contract

end Sync
end Telemux
