import Telemux.Sync.Trace
import Telemux.TelemtSync.Convergence

/-!
# A call that nobody disturbs

Against a compare-and-set node that nobody else writes to, the revision that
SyncNode carries is always the current one, also past operations that the node
rejects.  So one call sends everything once, and a later call that meets no
rejection sends exactly what was rejected.
-/

namespace Telemux
namespace Sync

open Interaction TelemtSync

/-!
## The node
-/

/-- A node that performs a mutation exactly at its current revision. -/
structure CasNode (σ ε : Type) [ClassifiedError ε] where
  users : σ -> List RemoteUser
  revision : σ -> String
  perform : SyncOp -> σ -> σ
  conflict : SyncOp -> String -> ε
  conflict_class : forall op ifMatch, errorClass (conflict op ifMatch) = .revisionConflict
  users_distinct : forall s, DistinctUsers (users s)
  perform_users : forall op s,
    remoteByName (users (perform op s)) = remoteByName (applyOp (users s) op)

section Node

variable {σ ε : Type} [ClassifiedError ε]

/-- The node answers; the operations that `reject` gives an error for have no effect. -/
def CasNode.serve (N : CasNode σ ε) (des : List DesiredUser) (reject : SyncOp -> Option ε) :
    Program.Handler SyncCall (SyncReply ε) σ
  | .ListDesired, s => (.ok des, s)
  | .ListUsers, s => (.ok (N.users s, N.revision s), s)
  | .ApplyOp op ifMatch, s =>
      match reject op with
      | some err => (.error err, s)
      | none =>
          if ifMatch = N.revision s then
            (.ok (N.revision (N.perform op s)), N.perform op s)
          else (.error (N.conflict op ifMatch), s)

def CasNode.performAll (N : CasNode σ ε) (s : σ) (ops : List SyncOp) : σ :=
  ops.foldl (fun s op => N.perform op s) s

theorem performAll_snoc (N : CasNode σ ε) (s : σ) (ops : List SyncOp) (op : SyncOp) :
    N.performAll s (ops ++ [op]) = N.perform op (N.performAll s ops) := by
  simp [CasNode.performAll]

theorem performAll_users (N : CasNode σ ε) (s : σ) (ops : List SyncOp) :
    remoteByName (N.users (N.performAll s ops)) =
      remoteByName (applyOps (N.users s) ops) := by
  induction ops generalizing s with
  | nil => rfl
  | cons op rest ih =>
      have hfirst := ih (N.perform op s)
      rw [remoteByName_applyOps, N.perform_users, ← remoteByName_applyOps] at hfirst
      exact hfirst

def accepted (reject : SyncOp -> Option ε) (ops : List SyncOp) : List SyncOp :=
  ops.filter fun op => (reject op).isNone

def rejected (reject : SyncOp -> Option ε) (ops : List SyncOp) : List SyncOp :=
  ops.filter fun op => (reject op).isSome

omit [ClassifiedError ε] in
theorem accepted_length_add (reject : SyncOp -> Option ε) (ops : List SyncOp) :
    (accepted reject ops).length + (rejected reject ops).length = ops.length := by
  induction ops with
  | nil => rfl
  | cons op rest ih =>
      unfold accepted rejected at ih ⊢
      cases hreject : reject op with
      | none =>
          simp [hreject]
          omega
      | some err =>
          simp [hreject]
          omega

/-!
## One call

`Delivered` describes a call that listed state `s` and has sent `ops`.
-/

structure Delivered (N : CasNode σ ε) (des : List DesiredUser) (reject : SyncOp -> Option ε)
    (s : σ) (ops : List SyncOp) (res : Result ε) (s' : σ) (t : List (SyncEvent ε)) :
    Prop where
  /-- It listed once and then sent each of the operations once, and nothing else. -/
  sent_once : exists sent, sent.map mutation = ops.map some ∧
    t = ⟨.ListDesired, .ok des⟩ :: ⟨.ListUsers, .ok (N.users s, N.revision s)⟩ :: sent
  no_conflict : forall e, e ∈ t -> replyClass e ≠ some .revisionConflict
  performed : s' = N.performAll s (accepted reject ops)
  applied : res.applied = (accepted reject ops).length
  failed : res.failed = (rejected reject ops).length
  skipped : res.skipped = 0
  not_aborted : res.aborted = false

variable {N : CasNode σ ε} {des : List DesiredUser} {reject : SyncOp -> Option ε}
variable {s s' : σ} {ops : List SyncOp} {op : SyncOp} {res : Result ε}
variable {t : List (SyncEvent ε)} {rev : String}

omit [ClassifiedError ε] in
theorem sent_snoc (rev : String) (r : Except ε String) {sent : List (SyncEvent ε)}
    (hsent : sent.map mutation = ops.map some) :
    (sent ++ [(⟨.ApplyOp op rev, r⟩ : SyncEvent ε)]).map mutation =
      (ops ++ [op]).map some := by
  simp [hsent, mutation]

theorem no_conflict_snoc {e : SyncEvent ε}
    (h : forall e, e ∈ t -> replyClass e ≠ some .revisionConflict)
    (he : replyClass e ≠ some .revisionConflict) :
    forall e', e' ∈ t ++ [e] -> replyClass e' ≠ some .revisionConflict := by
  rw [List.forall_mem_append, List.forall_mem_singleton]
  exact ⟨h, he⟩

theorem delivered_start :
    Delivered N des reject s [] { ops := ops } s
      [⟨.ListDesired, .ok des⟩, ⟨.ListUsers, .ok (N.users s, N.revision s)⟩] := by
  constructor
  · exact ⟨[], rfl, rfl⟩
  · intro e he
    rcases List.mem_cons.mp he with rfl | he
    · simp [replyClass]
    · rw [List.mem_singleton.mp he]
      simp [replyClass]
  · rfl
  · rfl
  · rfl
  · rfl
  · rfl

theorem delivered_success (h : Delivered N des reject s ops res s' t)
    (hop : reject op = none) :
    Delivered N des reject s (ops ++ [op]) { res with applied := res.applied + 1 }
      (N.perform op s')
      (t ++ [⟨.ApplyOp op rev, .ok (N.revision (N.perform op s'))⟩]) := by
  rcases h.sent_once with ⟨sent, hsent, ht⟩
  have haccepted : accepted reject (ops ++ [op]) = accepted reject ops ++ [op] := by
    simp [accepted, hop]
  have hrejected : rejected reject (ops ++ [op]) = rejected reject ops := by
    simp [rejected, hop]
  constructor
  · refine ⟨_, sent_snoc rev (.ok (N.revision (N.perform op s'))) hsent, ?_⟩
    rw [ht]
    rfl
  · exact no_conflict_snoc h.no_conflict (by simp [replyClass])
  · rw [haccepted, performAll_snoc, h.performed]
  · rw [haccepted, List.length_append, ← h.applied]
    rfl
  · rw [hrejected]
    exact h.failed
  · exact h.skipped
  · exact h.not_aborted

theorem delivered_failure {err : ε} (h : Delivered N des reject s ops res s' t)
    (hop : reject op = some err) (hclass : errorClass err = .other) :
    Delivered N des reject s (ops ++ [op])
      { res with failed := res.failed + 1, errors := res.errors ++ [err] } s'
      (t ++ [⟨.ApplyOp op rev, .error err⟩]) := by
  rcases h.sent_once with ⟨sent, hsent, ht⟩
  have haccepted : accepted reject (ops ++ [op]) = accepted reject ops := by
    simp [accepted, hop]
  have hrejected : rejected reject (ops ++ [op]) = rejected reject ops ++ [op] := by
    simp [rejected, hop]
  constructor
  · refine ⟨_, sent_snoc rev (.error err) hsent, ?_⟩
    rw [ht]
    rfl
  · exact no_conflict_snoc h.no_conflict (by simp [replyClass, hclass])
  · rw [haccepted]
    exact h.performed
  · rw [haccepted]
    exact h.applied
  · rw [hrejected, List.length_append, ← h.failed]
    rfl
  · exact h.skipped
  · exact h.not_aborted

/-- What an attempt that still has to send `rest` of `all` has done. -/
def Delivering (N : CasNode σ ε) (des : List DesiredUser) (reject : SyncOp -> Option ε)
    (s : σ) (all rest : List SyncOp) (rev : String) (res : Result ε)
    (g : σ × List (SyncEvent ε)) : Prop :=
  rev = N.revision g.1 ∧ res.ops = all ∧
    exists sent, sent ++ rest = all ∧ Delivered N des reject s sent res g.1 g.2

theorem delivering_error {all rest : List SyncOp} {g g' : σ × List (SyncEvent ε)} {aerr : ε}
    (h : Delivering N des reject s all (op :: rest) rev res g)
    (hans : (Contract.served (N.serve des reject)).answers g (.ApplyOp op rev)
      (.error aerr) g') :
    reject op = some aerr ∧ g' = (g.1, g.2 ++ [⟨.ApplyOp op rev, .error aerr⟩]) := by
  rcases g with ⟨s', t⟩
  rcases h with ⟨hrev, _, _⟩
  rcases hans with ⟨hr, rfl⟩
  cases hop : reject op with
  | none => simp [CasNode.serve, hop, hrev] at hr
  | some err =>
      simp only [CasNode.serve, hop, Except.error.injEq] at hr ⊢
      exact ⟨by rw [hr], trivial⟩

theorem delivering_loop (hreject : forall op err, reject op = some err ->
      errorClass err = .other) (all : List SyncOp) :
    LoopInvariant (Contract.served (N.serve des reject)) (Delivering N des reject s all)
      fun res ending g => ending = .finished ∧ res.ops = all ∧
        Delivered N des reject s all res g.1 g.2 := by
  have hother : forall {op rest rev res g aerr g'},
      Delivering N des reject s all (op :: rest) rev res g ->
      (Contract.served (N.serve des reject)).answers g (.ApplyOp op rev) (.error aerr) g' ->
      errorClass aerr = .other :=
    fun h hans => hreject _ _ (delivering_error h hans).left
  constructor
  case owes => exact fun _ => trivial
  case success =>
    intro op rest rev res g newRev g' hdelivering hans
    rcases g with ⟨s', t⟩
    rcases hdelivering with ⟨hrev, hops, sent, hall, h⟩
    rcases hans with ⟨hr, rfl⟩
    cases hop : reject op with
    | some err => simp [CasNode.serve, hop] at hr
    | none =>
        simp only [CasNode.serve, hop, hrev, if_true, Except.ok.injEq] at hr ⊢
        refine ⟨hr, hops, sent ++ [op], by simpa using hall, ?_⟩
        rw [hr]
        exact delivered_success h hop
  case skip =>
    intro op rest rev res g aerr g' h hans hclass
    rw [hother h hans] at hclass
    cases hclass
  case failure =>
    intro op rest rev res g aerr g' h hans hclass
    rcases g with ⟨s', t⟩
    rcases delivering_error h hans with ⟨hop, rfl⟩
    rcases h with ⟨hrev, hops, sent, hall, hsent⟩
    exact ⟨hrev, hops, sent ++ [op], by simpa using hall, delivered_failure hsent hop hclass⟩
  case readOnly =>
    intro op rest rev res g aerr g' h hans hclass
    rw [hother h hans] at hclass
    cases hclass
  case conflict =>
    intro op rest rev res g aerr g' h hans hclass
    rw [hother h hans] at hclass
    cases hclass
  case finished =>
    intro rev res g hdelivering
    rcases hdelivering with ⟨_, hops, sent, hall, h⟩
    rw [List.append_nil] at hall
    rw [hall] at h
    exact ⟨rfl, hops, h⟩

variable [RFC3339]

def CasNode.sync (N : CasNode σ ε) (opts : SyncOptions) (des : List DesiredUser)
    (reject : SyncOp -> Option ε) (s : σ) :=
  (SyncNode opts).exec (N.serve des reject) s

theorem delivering_attempts {opts : SyncOptions} (hmode : opts.mode = .apply)
    (hguard : opts.stops des (N.users s) = false)
    (hreject : forall op err, reject op = some err -> errorClass err = .other) :
    CallInvariant (Contract.served (N.serve des reject)) opts des
      (fun left _ g => left ≠ 0 ∧ g = (s, [⟨.ListDesired, .ok des⟩]))
      (fun _ _ => Delivering N des reject s (opts.diff des (N.users s)))
      (fun res err g => err = none ∧ res.ops = opts.diff des (N.users s) ∧
        Delivered N des reject s (opts.diff des (N.users s)) res g.1 g.2) := by
  constructor
  case exhausted =>
    intro res g hstart
    rcases hstart with ⟨hleft, _⟩
    exact absurd rfl hleft
  case owes => exact fun _ => trivial
  case listError =>
    intro left res g err g' _ hans
    rcases hans with ⟨hr, _⟩
    cases hr
  case aborted =>
    intro left res g remote rev g' hstart hans hstops
    rcases hstart with ⟨_, rfl⟩
    rcases hans with ⟨hr, _⟩
    cases hr
    rw [hguard] at hstops
    cases hstops
  case shadow =>
    intro left res g remote rev g' _ _ _ hshadow
    rw [hmode] at hshadow
    cases hshadow
  case start =>
    intro left res g remote rev g' hstart hans _ _
    rcases hstart with ⟨_, rfl⟩
    rcases hans with ⟨hr, rfl⟩
    cases hr
    exact ⟨rfl, rfl, [], rfl, delivered_start⟩
  case loop =>
    intro left remote
    apply (delivering_loop hreject _).mono _
    intro res ending g hdone
    rcases hdone with ⟨rfl, hops, h⟩
    exact ⟨rfl, hops, h⟩

theorem sync_delivers (opts : SyncOptions) (hmode : opts.mode = .apply)
    (hretry : 0 ≤ opts.maxConflictRetries) (hguard : opts.stops des (N.users s) = false)
    (hreject : forall op err, reject op = some err -> errorClass err = .other) :
    (N.sync opts des reject s).value.2 = none ∧
      (N.sync opts des reject s).value.1.ops = opts.diff des (N.users s) ∧
      Delivered N des reject s (opts.diff des (N.users s)) (N.sync opts des reject s).value.1
        (N.sync opts des reject s).state (N.sync opts des reject s).events := by
  have hleft : (opts.maxRetry + 1).toNat ≠ 0 := by
    unfold SyncOptions.maxRetry
    split <;> omega
  have hmeets := syncNode_meets opts (K := Contract.served (N.serve des reject))
    (J := fun _ left _ g => left ≠ 0 ∧ g = (s, [⟨.ListDesired, .ok des⟩]))
    (I := fun _ _ _ => Delivering N des reject s (opts.diff des (N.users s)))
    (Q := fun res err g => err = none ∧ res.ops = opts.diff des (N.users s) ∧
      Delivered N des reject s (opts.diff des (N.users s)) res g.1 g.2)
    (g := (s, [])) trivial
  apply Contract.exec_of_meets (hmeets ?_ ?_)
  · intro err g' hans
    rcases hans with ⟨hr, _⟩
    cases hr
  · intro des' g' hans
    rcases hans with ⟨hr, rfl⟩
    cases hr
    exact ⟨delivering_attempts hmode hguard hreject, hleft, rfl⟩

/-!
## Resuming

The diff of a second call is what the first one was not allowed to apply.
-/

theorem diff_after_delivery (hdes : DistinctDesired des) (opts : SyncOptions) (s : σ)
    (reject : SyncOp -> Option ε) :
    (opts.diff des
        (N.users (N.performAll s (accepted reject (opts.diff des (N.users s)))))).Perm
      (rejected reject (opts.diff des (N.users s))) := by
  have hbase := N.users_distinct s
  have hnodup := computeDiff_nodup hdes hbase opts.massDelete.toOptions
  have hsub : List.Sublist (accepted reject (opts.diff des (N.users s)))
      (opts.diff des (N.users s)) := List.filter_sublist
  have hremainder := computeDiff_remainder hdes hbase hsub.subset (hsub.nodup hnodup)
  apply (List.perm_ext_iff_of_nodup
    (computeDiff_nodup hdes (N.users_distinct _) _) (hnodup.filter _)).mpr
  intro op
  have hmem := mem_computeDiff_congr hdes
    (performAll_users N s (accepted reject (opts.diff des (N.users s))))
    opts.massDelete.toOptions op
  apply hmem.trans _
  rw [hremainder, List.mem_filter, List.mem_filter]
  unfold accepted
  cases hop : reject op <;> simp [hop, SyncOptions.diff]

/--
One call sends every operation of its diff once and meets no conflict; the node
performs those it does not reject.  A second call, forced, meets no rejection and
sends exactly the rejected ones; then there is nothing left to do.
-/
theorem undisturbed_sync_resumes (N : CasNode σ ε) (opts : SyncOptions)
    (des : List DesiredUser) (reject : SyncOp -> Option ε) (s : σ)
    (hmode : opts.mode = .apply) (hretry : 0 ≤ opts.maxConflictRetries)
    (hdes : DistinctDesired des) (hguard : opts.stops des (N.users s) = false)
    (hreject : forall op err, reject op = some err -> errorClass err = .other) :
    let ops := opts.diff des (N.users s)
    let first := N.sync opts des reject s
    let second := N.sync { opts with force := true } des (fun _ => none) first.state
    let third := N.sync { opts with force := true } des (fun _ => none) second.state
    ops.Nodup ∧
      (first.value.2 = none ∧ first.value.1.ops = ops ∧
        Delivered N des reject s ops first.value.1 first.state first.events ∧
        first.value.1.applied = ops.length - (rejected reject ops).length) ∧
      (exists missing, missing.Perm (rejected reject ops) ∧
        second.value.2 = none ∧ second.value.1.ops = missing ∧
        Delivered N des (fun _ => none) first.state missing second.value.1 second.state
          second.events) ∧
      third.value.1.ops = [] := by
  intro ops first second third
  rcases sync_delivers opts hmode hretry hguard hreject with ⟨herr, hops, hfirst⟩
  have hnone : forall (op : SyncOp) (err : ε), (none : Option ε) = some err ->
      errorClass err = .other := by
    intro op err h
    cases h
  have hforced : forall s', SyncOptions.stops { opts with force := true } des (N.users s') =
      false := by
    intro s'
    simp [SyncOptions.stops]
  rcases sync_delivers { opts with force := true } hmode hretry
    (hforced first.state) hnone with ⟨herr₂, hops₂, hsecond⟩
  rcases sync_delivers { opts with force := true } hmode hretry
    (hforced second.state) hnone with ⟨_, hops₃, _⟩
  have hmissing : (opts.diff des (N.users first.state)).Perm (rejected reject ops) := by
    rw [show first.state = _ from hfirst.performed]
    exact diff_after_delivery hdes opts s reject
  have hnothing : (opts.diff des (N.users second.state)).Perm [] := by
    rw [show second.state = _ from hsecond.performed]
    have hleft := diff_after_delivery (N := N) hdes opts first.state (fun _ => none)
    have hrejected : rejected (fun _ => (none : Option ε))
        (opts.diff des (N.users first.state)) = [] := by
      simp [rejected]
    rw [hrejected] at hleft
    exact hleft
  refine ⟨computeDiff_nodup hdes (N.users_distinct s) _, ⟨herr, hops, hfirst, ?_⟩,
    ⟨_, hmissing, herr₂, hops₂, hsecond⟩, ?_⟩
  · have hlength := accepted_length_add reject ops
    rw [show first.value.1.applied = _ from hfirst.applied]
    exact (Nat.sub_eq_of_eq_add hlength.symm).symm
  · rw [show third.value.1.ops = _ from hops₃]
    exact hnothing.eq_nil

end Node

def countingNode : CasNode (UserConfig × Nat) Classification where
  users s := s.1.val
  revision s := String.ofList (List.replicate s.2 'r')
  perform op s := (s.1.applyOp op, s.2 + 1)
  conflict _ _ := ⟨true, false, false⟩
  conflict_class _ _ := rfl
  users_distinct s := s.1.property
  perform_users _ _ := rfl

/-- A create that is rejected and sent again, next to a delete that is applied. -/
theorem undisturbed_sync_resumes_sample :
    letI := sampleClock
    let des : List DesiredUser := [⟨"sub_1", "ee1", none, some 8⟩]
    let s : UserConfig × Nat := (⟨[⟨"sub_9", true, none, none⟩], by decide⟩, 0)
    let reject : SyncOp -> Option Classification :=
      fun op => if op.kind = .create then some ⟨false, false, false⟩ else none
    let first := countingNode.sync { mode := .apply } des reject s
    let second := countingNode.sync { mode := .apply, force := true } des (fun _ => none)
      first.state
    let third := countingNode.sync { mode := .apply, force := true } des (fun _ => none)
      second.state
    first.value.1.applied = 1 ∧
      (exists missing, missing.Perm [createOp ⟨"sub_1", "ee1", none, some 8⟩] ∧
        second.value.1.ops = missing) ∧
      third.value.1.ops = [] :=
  letI := sampleClock
  let resumed := undisturbed_sync_resumes countingNode { mode := .apply }
    [⟨"sub_1", "ee1", none, some 8⟩]
    (fun op => if op.kind = .create then some ⟨false, false, false⟩ else none)
    (⟨[⟨"sub_9", true, none, none⟩], by decide⟩, 0) rfl (by decide) (by decide) (by decide)
    (by
      intro op err h
      simp only [Option.ite_none_right_eq_some, Option.some.injEq] at h
      rw [← h.right]
      rfl)
  ⟨resumed.right.left.right.right.right,
    resumed.right.right.left.imp fun _ h => ⟨h.left, h.right.right.left⟩,
    resumed.right.right.right⟩

end Sync
end Telemux
