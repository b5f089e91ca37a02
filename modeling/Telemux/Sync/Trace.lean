import Telemux.Sync.Rules
import Telemux.TelemtSync.Plan

/-!
# What SyncNode sends

Safety of the request trace against a node that may list anything and answer
anything.  Every mutation is justified by the list read last: it is the next
operation of the diff against that list, in a call that is allowed to write.
-/

namespace Telemux
namespace Sync

open Interaction TelemtSync

variable {ε : Type} [ClassifiedError ε]

/-!
## Reading a trace
-/

abbrev SyncEvent (ε : Type) := Event SyncCall (SyncReply ε)

def mutation : SyncEvent ε -> Option SyncOp
  | ⟨.ApplyOp op _, _⟩ => some op
  | ⟨.ListDesired, _⟩ => none
  | ⟨.ListUsers, _⟩ => none

def mutations (t : List (SyncEvent ε)) : List SyncOp :=
  t.filterMap mutation

def replyClass : SyncEvent ε -> Option ErrorClass
  | ⟨.ApplyOp _ _, .error aerr⟩ => some (errorClass aerr)
  | ⟨.ApplyOp _ _, .ok _⟩ => none
  | ⟨.ListDesired, _⟩ => none
  | ⟨.ListUsers, _⟩ => none

def attemptHistory (des : List DesiredUser) (before : List (SyncEvent ε))
    (remote : List RemoteUser) (rev : String) (sent : List (SyncEvent ε)) :
    List (SyncEvent ε) :=
  ⟨.ListDesired, .ok des⟩ :: (before ++ ⟨.ListUsers, .ok (remote, rev)⟩ :: sent)

/-!
## The justification of one mutation

`Justified` is about an operation sent after the history `before`, a list reply
with the users `remote`, and the events `sent` of the attempt so far.
-/

section Justified

variable [RFC3339]

structure Justified (opts : SyncOptions) (des : List DesiredUser)
    (before : List (SyncEvent ε)) (remote : List RemoteUser) (sent : List (SyncEvent ε))
    (op : SyncOp) : Prop where
  /-- The node is only written in apply mode. -/
  mode_apply : opts.mode = .apply
  /-- Without force, neither this list nor an earlier one is a mass delete. -/
  guarded : opts.force = false ->
    IsMassDelete (ComputeDiff des remote opts.massDelete.toOptions) remote
        opts.massDelete = false ∧
      forall listed rev, (⟨.ListUsers, .ok (listed, rev)⟩ : SyncEvent ε) ∈ before ->
        IsMassDelete (ComputeDiff des listed opts.massDelete.toOptions) listed
          opts.massDelete = false
  /-- The list is the one read last: only operations were sent after it. -/
  only_mutations : forall e, e ∈ sent -> (mutation e).isSome = true
  /-- The operations go out as an initial segment of the diff, each of them once. -/
  in_order : (mutations sent ++ [op]) <+:
    ComputeDiff des remote opts.massDelete.toOptions
  kinds_in_order : (mutations sent ++ [op]).Pairwise fun o o' => o.kind.rank ≤ o'.kind.rank
  /-- With distinct names on both sides no user is addressed twice. -/
  user_once : DistinctDesired des -> DistinctUsers remote ->
    forall o, o ∈ mutations sent -> o.username ≠ op.username
  delete_listed : op.kind = .delete ->
    (exists r, r ∈ remote ∧ r.username = op.username) ∧
      HasPrefix op.username opts.massDelete.managed = true ∧
      forall d, d ∈ des -> d.username ≠ op.username
  create_absent : op.kind = .create ->
    (exists d, d ∈ des ∧ d.username = op.username) ∧
      forall r, r ∈ remote -> r.username ≠ op.username
  /-- No reply of the call so far was read-only, none of the attempt a conflict. -/
  not_read_only : forall e, e ∈ before ++ sent -> replyClass e ≠ some .readOnly
  not_conflict : forall e, e ∈ sent -> replyClass e ≠ some .revisionConflict

structure Clean (opts : SyncOptions) (des : List DesiredUser)
    (before : List (SyncEvent ε)) : Prop where
  guarded : opts.force = false ->
    forall listed rev, (⟨.ListUsers, .ok (listed, rev)⟩ : SyncEvent ε) ∈ before ->
      IsMassDelete (ComputeDiff des listed opts.massDelete.toOptions) listed
        opts.massDelete = false
  not_read_only : forall e, e ∈ before -> replyClass e ≠ some .readOnly

structure Sending (opts : SyncOptions) (des : List DesiredUser)
    (before : List (SyncEvent ε)) (remote : List RemoteUser) (sent : List (SyncEvent ε))
    (rest : List SyncOp) : Prop where
  clean : Clean opts des before
  mode_apply : opts.mode = .apply
  guarded : opts.force = false ->
    IsMassDelete (ComputeDiff des remote opts.massDelete.toOptions) remote
      opts.massDelete = false
  only_mutations : forall e, e ∈ sent -> (mutation e).isSome = true
  split : mutations sent ++ rest = ComputeDiff des remote opts.massDelete.toOptions
  not_read_only : forall e, e ∈ sent -> replyClass e ≠ some .readOnly
  not_conflict : forall e, e ∈ sent -> replyClass e ≠ some .revisionConflict

theorem justified_of_sending {opts : SyncOptions} {des : List DesiredUser}
    {before sent : List (SyncEvent ε)} {remote : List RemoteUser} {op : SyncOp}
    {rest : List SyncOp} (h : Sending opts des before remote sent (op :: rest)) :
    Justified opts des before remote sent op := by
  have hpref : (mutations sent ++ [op]) <+:
      ComputeDiff des remote opts.massDelete.toOptions := by
    exists rest
    rw [List.append_assoc, List.singleton_append]
    exact h.split
  have hop : op ∈ ComputeDiff des remote opts.massDelete.toOptions :=
    hpref.subset (List.mem_append_right _ List.mem_cons_self)
  constructor
  · exact h.mode_apply
  · intro hforce
    exact ⟨h.guarded hforce, h.clean.guarded hforce⟩
  · exact h.only_mutations
  · exact hpref
  · exact (computeDiff_ordered des remote _).sublist hpref.sublist
  · intro hdes hrem o ho
    have hapart := (computeDiff_apart hdes hrem opts.massDelete.toOptions).sublist
      (hpref.sublist.map SyncOp.username)
    rw [List.map_append, List.nodup_append] at hapart
    exact hapart.right.right _ (List.mem_map_of_mem ho) _ (by simp)
  · intro hkind
    rcases kind_of_mem_computeDiff hop hkind with ⟨_, hpre, hnone, hlisted⟩
    exact ⟨hlisted, hpre, Reconcile.lookup_eq_none_iff.mp hnone⟩
  · intro hkind
    rcases create_of_mem_computeDiff hop hkind with ⟨hdesired, hnone⟩
    exact ⟨hdesired, Reconcile.lookup_eq_none_iff.mp hnone⟩
  · intro e he
    rcases List.mem_append.mp he with hbefore | hsent
    · exact h.clean.not_read_only e hbefore
    · exact h.not_read_only e hsent
  · exact h.not_conflict

theorem sending_step {opts : SyncOptions} {des : List DesiredUser}
    {before sent : List (SyncEvent ε)} {remote : List RemoteUser} {op : SyncOp}
    {rest : List SyncOp} {rev : String} {r : Except ε String}
    (h : Sending opts des before remote sent (op :: rest))
    (hro : replyClass (⟨.ApplyOp op rev, r⟩ : SyncEvent ε) ≠ some .readOnly)
    (hconflict : replyClass (⟨.ApplyOp op rev, r⟩ : SyncEvent ε) ≠ some .revisionConflict) :
    Sending opts des before remote (sent ++ [⟨.ApplyOp op rev, r⟩]) rest := by
  constructor
  · exact h.clean
  · exact h.mode_apply
  · exact h.guarded
  · exact List.forall_mem_append.mpr ⟨h.only_mutations, List.forall_mem_singleton.mpr rfl⟩
  · rw [← h.split]
    simp [mutations, mutation]
  · exact List.forall_mem_append.mpr ⟨h.not_read_only, List.forall_mem_singleton.mpr hro⟩
  · exact List.forall_mem_append.mpr ⟨h.not_conflict, List.forall_mem_singleton.mpr hconflict⟩

/-!
## The contract

What SyncNode owes at a call, in terms of all earlier events.
-/

def owesJustification (opts : SyncOptions) (t : List (SyncEvent ε)) : SyncCall -> Prop
  | .ListDesired => True
  | .ListUsers => True
  | .ApplyOp op _ =>
      exists des before remote rev sent,
        t = attemptHistory des before remote rev sent ∧
          Justified opts des before remote sent op

omit [ClassifiedError ε] [RFC3339] in
theorem attemptHistory_snoc (des : List DesiredUser) (before : List (SyncEvent ε))
    (remote : List RemoteUser) (rev : String) (sent : List (SyncEvent ε))
    (e : SyncEvent ε) :
    attemptHistory des before remote rev sent ++ [e] =
      attemptHistory des before remote rev (sent ++ [e]) := by
  simp [attemptHistory]

theorem clean_of_conflict {opts : SyncOptions} {des : List DesiredUser}
    {before sent : List (SyncEvent ε)} {remote : List RemoteUser} {op : SyncOp}
    {rest : List SyncOp} {rev rev₀ : String} {aerr : ε}
    (h : Sending opts des before remote sent (op :: rest))
    (hclass : errorClass aerr = .revisionConflict) :
    Clean opts des (before ++
      ⟨.ListUsers, .ok (remote, rev₀)⟩ :: (sent ++ [⟨.ApplyOp op rev, .error aerr⟩])) := by
  constructor
  · intro hforce listed rev' hmem
    rcases List.mem_append.mp hmem with hbefore | hattempt
    · exact h.clean.guarded hforce listed rev' hbefore
    · rcases List.mem_cons.mp hattempt with hlist | hsent
      · cases hlist
        exact h.guarded hforce
      · rcases List.mem_append.mp hsent with hold | hnew
        · cases h.only_mutations _ hold
        · cases List.mem_singleton.mp hnew
  · intro e he
    rcases List.mem_append.mp he with hbefore | hattempt
    · exact h.clean.not_read_only e hbefore
    · rcases List.mem_cons.mp hattempt with hlist | hsent
      · rw [hlist]
        simp [replyClass]
      · rcases List.mem_append.mp hsent with hold | hnew
        · exact h.not_read_only e hold
        · rw [List.mem_singleton.mp hnew]
          simp [replyClass, hclass]

def CleanCall (opts : SyncOptions) (des : List DesiredUser) (t : List (SyncEvent ε)) :
    Prop :=
  exists before, t = ⟨.ListDesired, .ok des⟩ :: before ∧ Clean opts des before

/-- A call is in the middle of an attempt that has yet to send `rest`. -/
def InAttempt (opts : SyncOptions) (des : List DesiredUser) (remote : List RemoteUser)
    (rest : List SyncOp) (t : List (SyncEvent ε)) : Prop :=
  exists before rev₀ sent, t = attemptHistory des before remote rev₀ sent ∧
    Sending opts des before remote sent rest

theorem inAttempt_loop (opts : SyncOptions) (des : List DesiredUser)
    (remote : List RemoteUser) :
    LoopInvariant (ε := ε) (Contract.onHistory (owesJustification opts))
      (fun rest _ _ t => InAttempt opts des remote rest t)
      (fun _ ending t => ending = .conflict -> CleanCall opts des t) := by
  constructor
  case owes =>
    intro op rest rev res t hattempt
    rcases hattempt with ⟨before, rev₀, sent, rfl, h⟩
    exact ⟨des, before, remote, rev₀, sent, rfl, justified_of_sending h⟩
  case success =>
    intro op rest rev res t newRev _ hattempt heq
    rcases hattempt with ⟨before, rev₀, sent, rfl, h⟩
    subst heq
    refine ⟨before, rev₀, _, attemptHistory_snoc _ _ _ _ _ _, ?_⟩
    exact sending_step h (by simp [replyClass]) (by simp [replyClass])
  case skip =>
    intro op rest rev res t aerr _ hattempt heq hclass
    rcases hattempt with ⟨before, rev₀, sent, rfl, h⟩
    subst heq
    refine ⟨before, rev₀, _, attemptHistory_snoc _ _ _ _ _ _, ?_⟩
    exact sending_step h (by simp [replyClass, hclass]) (by simp [replyClass, hclass])
  case failure =>
    intro op rest rev res t aerr _ hattempt heq hclass
    rcases hattempt with ⟨before, rev₀, sent, rfl, h⟩
    subst heq
    refine ⟨before, rev₀, _, attemptHistory_snoc _ _ _ _ _ _, ?_⟩
    exact sending_step h (by simp [replyClass, hclass]) (by simp [replyClass, hclass])
  case readOnly =>
    intro op rest rev res t aerr t' _ _ _ hend
    cases hend
  case conflict =>
    intro op rest rev res t aerr _ hattempt heq hclass _
    rcases hattempt with ⟨before, rev₀, sent, rfl, h⟩
    subst heq
    rw [attemptHistory_snoc]
    exact ⟨_, rfl, clean_of_conflict h hclass⟩
  case finished =>
    intro rev res t _ hend
    cases hend

theorem cleanCall_attempts (opts : SyncOptions) (des : List DesiredUser) :
    CallInvariant (ε := ε) (Contract.onHistory (owesJustification opts)) opts des
      (fun _ _ t => CleanCall opts des t)
      (fun _ remote rest _ _ t => InAttempt opts des remote rest t)
      (fun _ _ _ => True) := by
  constructor
  case exhausted => exact fun _ => trivial
  case owes => exact fun _ => trivial
  case listError => exact fun _ _ => trivial
  case aborted => exact fun _ _ _ => trivial
  case shadow => exact fun _ _ _ _ => trivial
  case start =>
    intro left res t remote rev _ hcall heq hstops hmode
    rcases hcall with ⟨before, rfl, hclean⟩
    subst heq
    refine ⟨before, rev, [], rfl, ?_⟩
    constructor
    · exact hclean
    · exact hmode
    · intro hforce
      simpa [SyncOptions.stops, hforce] using hstops
    · intro e he
      cases he
    · rfl
    · intro e he
      cases he
    · intro e he
      cases he
  case loop =>
    intro left remote
    apply (inAttempt_loop opts des remote).mono _
    intro res ending t hend
    cases ending with
    | finished => trivial
    | readOnly aerr => trivial
    | conflict => exact hend rfl

theorem syncNode_owes_justification (opts : SyncOptions) :
    (Contract.onHistory (owesJustification opts)).Meets
      (SyncNode (ε := ε) opts) [] fun _ _ => True := by
  apply syncNode_meets opts (J := fun des _ _ t => CleanCall opts des t)
    (I := fun des _ remote rest _ _ t => InAttempt opts des remote rest t)
    (Q := fun _ _ _ => True)
  · trivial
  · exact fun _ _ _ => trivial
  · intro des _ heq
    subst heq
    refine ⟨cleanCall_attempts opts des, [], rfl, ?_⟩
    constructor
    · intro _ _ _ hmem
      cases hmem
    · intro _ hmem
      cases hmem

/-- Every operation SyncNode sends, after any events, is justified by the last list. -/
theorem syncNode_mutation_justified (opts : SyncOptions) (t : List (SyncEvent ε))
    (op : SyncOp) (rev : String)
    (next : Except ε String ->
      Program SyncCall (SyncReply ε) (Result ε × Option (SyncError ε)))
    (hsteps : Program.Steps (SyncNode opts) t (.call (.ApplyOp op rev) next)) :
    exists des before remote rev₀ sent,
      t = attemptHistory des before remote rev₀ sent ∧
        Justified opts des before remote sent op :=
  Contract.owes_of_onHistory (syncNode_owes_justification opts) hsteps

omit [RFC3339] in
/-- The second operation of an attempt, after the first one was applied. -/
theorem syncNode_mutation_justified_sample :
    letI := sampleClock
    let remote : List RemoteUser := [⟨"sub_a", true, none, none⟩]
    let des : List DesiredUser := [⟨"sub_b", "ee", none, none⟩]
    let create : SyncOp := createOp ⟨"sub_b", "ee", none, none⟩
    exists des' before remote' rev₀ sent,
      ([⟨.ListDesired, .ok des⟩, ⟨.ListUsers, .ok (remote, "r1")⟩,
        ⟨.ApplyOp create "r1", .ok "r2"⟩] : List (SyncEvent Classification)) =
          attemptHistory des' before remote' rev₀ sent ∧
        Justified { mode := .apply } des' before remote' sent (deleteOp "sub_a") :=
  letI := sampleClock
  syncNode_mutation_justified { mode := .apply } _ _ "r2" _
    (.call (.call (.call (.refl _))))

omit [RFC3339] in
/--
A list that names a user twice makes one attempt send the same delete twice, and
an error that claims to be everything at once is taken as already done.
-/
theorem syncNode_sends_twice :
    letI := sampleClock
    let user : RemoteUser := ⟨"sub_a", true, none, none⟩
    let other : RemoteUser := ⟨"sub_b", true, none, none⟩
    (exists next, Program.Steps (SyncNode { mode := .apply })
      ([⟨.ListDesired, .ok []⟩, ⟨.ListUsers, .ok ([user, user], "r1")⟩,
        ⟨.ApplyOp (deleteOp "sub_a") "r1", .ok "r2"⟩] : List (SyncEvent Classification))
      (.call (.ApplyOp (deleteOp "sub_a") "r2") next)) ∧
    (exists next, Program.Steps (SyncNode { mode := .apply })
      ([⟨.ListDesired, .ok []⟩, ⟨.ListUsers, .ok ([user, other], "r1")⟩,
        ⟨.ApplyOp (deleteOp "sub_a") "r1", .error ⟨true, true, true⟩⟩] :
          List (SyncEvent Classification))
      (.call (.ApplyOp (deleteOp "sub_b") "r1") next)) :=
  letI := sampleClock
  ⟨⟨_, .call (.call (.call (.refl _)))⟩, ⟨_, .call (.call (.call (.refl _)))⟩⟩

end Justified

end Sync
end Telemux
