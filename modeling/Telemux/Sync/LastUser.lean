import Telemux.Sync.Trace

/-!
# The last user of a node

A node without users is one that Telemt refuses to become.  The operations of a
diff are ordered so that a call empties a node only if nothing was to be kept:
creates go out before deletes, and a desired or foreign user is never deleted.
-/

namespace Telemux
namespace Sync

open Interaction TelemtSync Reconcile

variable {ε : Type} [ClassifiedError ε]

omit [ClassifiedError ε] in
theorem mutations_append (t u : List (SyncEvent ε)) :
    mutations (t ++ u) = mutations t ++ mutations u :=
  List.filterMap_append

/-!
## The node

The node of a single attempt that nobody else writes to: an operation takes
effect, or is answered with an error that the attempt goes on after.
-/

def outcomeNode (ε : Type) [ClassifiedError ε] :
    Contract SyncCall (SyncReply ε) (List RemoteUser) where
  owes _ _ := True
  answers users c r users' :=
    match c, r with
    | .ListDesired, _ => users' = users
    | .ListUsers, .ok (listed, _) => listed.Perm users ∧ users' = users
    | .ListUsers, .error _ => users' = users
    | .ApplyOp op _, .ok _ => users' = applyOp users op
    | .ApplyOp _ _, .error aerr =>
        (errorClass aerr = .alreadyDone ∨ errorClass aerr = .other) ∧ users' = users

def Named (users : List RemoteUser) (name : String) : Prop :=
  exists r, r ∈ users ∧ r.username = name

theorem named_iff {users : List RemoteUser} {name : String} :
    Named users name <-> (remoteByName users name).isSome = true :=
  lookup_isSome_iff.symm

theorem named_applyOp {users : List RemoteUser} {op : SyncOp} {name : String}
    (hname : Named users name) (hkeep : op.kind = .delete -> op.username ≠ name) :
    Named (applyOp users op) name := by
  rw [named_iff] at hname ⊢
  by_cases hsame : name = op.username
  · subst hsame
    rw [remoteByName_applyOp]
    rw [show userOps.act (remoteByName users) op op.username = _ from
      userOps.act_same (remoteByName users) op]
    show (opEffect op (remoteByName users op.username)).isSome = true
    unfold opEffect
    cases hkind : op.kind with
    | create => rfl
    | patch => rwa [Option.isSome_map]
    | delete => exact absurd rfl (hkeep hkind)
  · rwa [remoteByName_applyOp_other users hsame]

theorem named_create {users : List RemoteUser} {op : SyncOp} (hkind : op.kind = .create) :
    Named (applyOp users op) op.username := by
  rw [named_iff, remoteByName_applyOp]
  rw [show userOps.act (remoteByName users) op op.username = _ from
    userOps.act_same (remoteByName users) op]
  show (opEffect op (remoteByName users op.username)).isSome = true
  unfold opEffect
  rw [hkind]
  rfl

theorem named_stays {users users' : List RemoteUser} {t : List (SyncEvent ε)}
    (hans : (outcomeNode ε).Answered users t users') {name : String}
    (hkeep : forall op, op ∈ mutations t -> op.kind = .delete -> op.username ≠ name)
    (hname : Named users name) : Named users' name := by
  induction hans with
  | nil => exact hname
  | @cons users users₁ users₂ c r t hstep _ ih =>
      cases c with
      | ListDesired =>
          have hsame : users₁ = users := hstep
          subst hsame
          exact ih hkeep hname
      | ListUsers =>
          have hsame : users₁ = users := by
            cases r with
            | error err => exact hstep
            | ok listed => exact hstep.right
          subst hsame
          exact ih hkeep hname
      | ApplyOp op ifMatch =>
          have hrest : forall o, o ∈ mutations t -> o.kind = .delete -> o.username ≠ name :=
            fun o ho => hkeep o (List.mem_cons_of_mem op ho)
          cases r with
          | ok rev =>
              have hsent : users₁ = TelemtSync.applyOp users op := hstep
              subst hsent
              exact ih hrest (named_applyOp hname (hkeep op List.mem_cons_self))
          | error aerr =>
              have hsame : users₁ = users := hstep.right
              subst hsame
              exact ih hrest hname

/-!
## The attempt

A call against such a node makes one attempt, which sends its diff in order.
-/

def GoesOn (e : SyncEvent ε) : Prop :=
  replyClass e ≠ some .readOnly ∧ replyClass e ≠ some .revisionConflict

theorem goesOn_of_answered {users users' : List RemoteUser} {t : List (SyncEvent ε)}
    (hans : (outcomeNode ε).Answered users t users') : forall e, e ∈ t -> GoesOn e := by
  induction hans with
  | nil => exact fun _ he => nomatch he
  | @cons users users₁ users₂ c r t hstep _ ih =>
      intro e he
      rcases List.mem_cons.mp he with rfl | hrest
      · cases c with
        | ListDesired => exact ⟨nofun, nofun⟩
        | ListUsers => exact ⟨nofun, nofun⟩
        | ApplyOp op ifMatch =>
            cases r with
            | ok rev => exact ⟨nofun, nofun⟩
            | error aerr =>
                unfold GoesOn replyClass
                rcases hstep.left with hclass | hclass
                · simp [hclass]
                · simp [hclass]
      · exact ih e hrest

theorem applyLoop_sends {ops : List SyncOp} {rev : String} {res : Result ε}
    {t : List (SyncEvent ε)} {q : Program SyncCall (SyncReply ε) (Result ε × AttemptEnd ε)}
    (hsteps : Program.Steps (applyLoop ops rev res) t q) (hgo : forall e, e ∈ t -> GoesOn e) :
    mutations t <+: ops ∧ (forall e, e ∈ t -> (mutation e).isSome = true) ∧
      forall res' ending, q = .done (res', ending) -> ending = .finished := by
  induction ops generalizing rev res t with
  | nil =>
      rw [applyLoop] at hsteps
      cases hsteps
      refine ⟨List.prefix_rfl, (fun _ he => nomatch he), ?_⟩
      intro res' ending heq
      cases heq
      rfl
  | cons op rest ih =>
      rw [applyLoop] at hsteps
      cases hsteps with
      | refl =>
          refine ⟨List.nil_prefix, (fun _ he => nomatch he), ?_⟩
          intro res' ending heq
          cases heq
      | @call _ _ r u _ hrest =>
          have hgo' : forall e, e ∈ u -> GoesOn e :=
            fun e he => hgo e (List.mem_cons_of_mem _ he)
          have hrec : mutations u <+: rest ∧
              (forall e, e ∈ u -> (mutation e).isSome = true) ∧
              forall res' ending, q = .done (res', ending) -> ending = .finished := by
            cases r with
            | ok newRev => exact ih hrest hgo'
            | error aerr =>
                have hfirst := hgo _ List.mem_cons_self
                cases hclass : errorClass aerr with
                | alreadyDone =>
                    simp only [hclass] at hrest
                    exact ih hrest hgo'
                | other =>
                    simp only [hclass] at hrest
                    exact ih hrest hgo'
                | readOnly => exact absurd (congrArg some hclass) hfirst.left
                | revisionConflict => exact absurd (congrArg some hclass) hfirst.right
          refine ⟨(List.prefix_cons_inj op).mpr hrec.left, ?_, hrec.right.right⟩
          intro e he
          rcases List.mem_cons.mp he with rfl | htail
          · rfl
          · exact hrec.right.left e htail

theorem answered_listed {users g : List RemoteUser} {des : List DesiredUser}
    {remote : List RemoteUser} {rev : String} {sent : List (SyncEvent ε)}
    (hans : (outcomeNode ε).Answered users (attemptHistory des [] remote rev sent) g) :
    remote.Perm users ∧ (outcomeNode ε).Answered users sent g := by
  cases hans with
  | cons hdesired hrest =>
      have hsame := hdesired
      simp only [outcomeNode] at hsame
      subst hsame
      cases hrest with
      | cons hlisted hsent =>
          simp only [outcomeNode] at hlisted
          rcases hlisted with ⟨hperm, rfl⟩
          exact ⟨hperm, hsent⟩

theorem created_stays {users g : List RemoteUser} {t : List (SyncEvent ε)}
    (hans : (outcomeNode ε).Answered users t g) {op : SyncOp} {rev rev' : String}
    (hmem : ⟨.ApplyOp op rev, .ok rev'⟩ ∈ t) (hkind : op.kind = .create)
    (hkeep : forall o, o ∈ mutations t -> o.kind = .delete -> o.username ≠ op.username) :
    Named g op.username := by
  rcases List.append_of_mem hmem with ⟨before, after, rfl⟩
  rcases Contract.answered_split hans with ⟨users₁, _, hfrom⟩
  cases hfrom with
  | cons hstep hafter =>
      simp only [outcomeNode] at hstep
      subst hstep
      apply named_stays hafter _ (named_create hkind)
      intro o ho
      apply hkeep o
      rw [mutations_append]
      exact List.mem_append_right _ (List.mem_cons_of_mem op ho)

theorem not_named_nil (name : String) : ¬ Named [] name := by
  intro hname
  rcases hname with ⟨r, hr, _⟩
  cases hr

theorem delete_of_emptied {users : List RemoteUser} {t : List (SyncEvent ε)}
    (hans : (outcomeNode ε).Answered users t []) {r : RemoteUser} (hr : r ∈ users) :
    exists op, op ∈ mutations t ∧ op.kind = .delete ∧ op.username = r.username := by
  by_contra hnone
  apply not_named_nil r.username
  apply named_stays hans _ ⟨r, hr, rfl⟩
  intro op hop hkind hname
  exact hnone ⟨op, hop, hkind, hname⟩

section Emptied

variable [RFC3339]

def Attempted (opts : SyncOptions) (t : List (SyncEvent ε)) : Prop :=
  mutations t = [] ∨
    exists des remote rev sent, t = attemptHistory des [] remote rev sent ∧
      (forall e, e ∈ sent -> (mutation e).isSome = true) ∧
      mutations sent <+: ComputeDiff des remote opts.massDelete.toOptions

theorem attempts_sends {opts : SyncOptions} {des : List DesiredUser} {maxRetry : Int}
    {left : Nat} {res : Result ε} {t : List (SyncEvent ε)}
    {q : Program SyncCall (SyncReply ε) (Result ε × Option (SyncError ε))}
    (hsteps : Program.Steps (attempts opts des maxRetry left res) t q)
    (hgo : forall e, e ∈ t -> GoesOn e) :
    mutations t = [] ∨
      exists remote rev sent, t = ⟨.ListUsers, .ok (remote, rev)⟩ :: sent ∧
        (forall e, e ∈ sent -> (mutation e).isSome = true) ∧
        mutations sent <+: ComputeDiff des remote opts.massDelete.toOptions := by
  cases left with
  | zero =>
      rw [attempts] at hsteps
      cases hsteps
      exact .inl rfl
  | succ left =>
      rw [attempts] at hsteps
      cases hsteps with
      | refl => exact .inl rfl
      | @call _ _ r u _ hrest =>
          have hgo' : forall e, e ∈ u -> GoesOn e :=
            fun e he => hgo e (List.mem_cons_of_mem _ he)
          cases r with
          | error err =>
              cases hrest
              exact .inl rfl
          | ok listed =>
              rcases listed with ⟨remote, rev⟩
              simp only at hrest
              split at hrest
              · cases hrest
                exact .inl rfl
              · split at hrest
                · cases hrest
                  exact .inl rfl
                · right
                  refine ⟨remote, rev, u, rfl, ?_⟩
                  rcases Program.steps_bind hrest with
                    ⟨s, hloop⟩ | ⟨t₁, t₂, ⟨res', ending⟩, rfl, hloop, hend⟩
                  · have hsent := applyLoop_sends hloop hgo'
                    exact ⟨hsent.right.left, hsent.left⟩
                  · have hsent := applyLoop_sends hloop
                      fun e he => hgo' e (List.mem_append_left _ he)
                    have hfinished := hsent.right.right res' ending rfl
                    subst hfinished
                    cases hend
                    rw [List.append_nil]
                    exact ⟨hsent.right.left, hsent.left⟩

theorem syncNode_sends {opts : SyncOptions} {t : List (SyncEvent ε)}
    {q : Program SyncCall (SyncReply ε) (Result ε × Option (SyncError ε))}
    (hsteps : Program.Steps (SyncNode opts) t q) (hgo : forall e, e ∈ t -> GoesOn e) :
    Attempted opts t := by
  rw [SyncNode] at hsteps
  cases hsteps with
  | refl => exact .inl rfl
  | @call _ _ r u _ hrest =>
      cases r with
      | error err =>
          cases hrest
          exact .inl rfl
      | ok des =>
          have hgo' : forall e, e ∈ u -> GoesOn e :=
            fun e he => hgo e (List.mem_cons_of_mem _ he)
          rcases attempts_sends hrest hgo' with hnone | ⟨remote, rev, sent, rfl, hsent⟩
          · exact .inl hnone
          · exact .inr ⟨des, remote, rev, sent, rfl, hsent⟩

omit [ClassifiedError ε] [RFC3339] in
theorem attemptHistory_append {des des' : List DesiredUser} {remote remote' : List RemoteUser}
    {rev rev' : String} {sent sent' u : List (SyncEvent ε)}
    (h : attemptHistory des [] remote rev sent ++ u = attemptHistory des' [] remote' rev' sent') :
    des = des' ∧ remote = remote' ∧ sent ++ u = sent' := by
  simp only [attemptHistory, List.nil_append, List.cons_append, List.cons.injEq,
    Event.mk.injEq, heq_eq_eq, Except.ok.injEq, Prod.mk.injEq, true_and] at h
  exact ⟨h.left, h.right.left.left, h.right.right⟩

theorem not_created_before {des : List DesiredUser} {remote users : List RemoteUser}
    {opts : Options} {sent : List (SyncEvent ε)}
    (hans : (outcomeNode ε).Answered users sent [])
    (hdiff : forall op, op ∈ mutations sent -> op ∈ ComputeDiff des remote opts)
    {op : SyncOp} {rev rev' : String} (hmem : ⟨.ApplyOp op rev, .ok rev'⟩ ∈ sent) :
    op.kind ≠ .create := by
  intro hkind
  have hop : op ∈ mutations sent := List.mem_filterMap.mpr ⟨_, hmem, rfl⟩
  apply not_named_nil op.username
  apply created_stays hans hmem hkind
  intro o ho hdelete
  rcases kind_of_mem_computeDiff (hdiff o ho) hdelete with ⟨_, _, hundesired, _⟩
  rcases create_of_mem_computeDiff (hdiff op hop) hkind with ⟨⟨d, hd, hname⟩, _⟩
  rw [← hname]
  exact Ne.symm (Reconcile.lookup_eq_none_iff.mp hundesired d hd)

omit [ClassifiedError ε] in
theorem not_created_after {des : List DesiredUser} {remote : List RemoteUser} {opts : Options}
    {sent u : List (SyncEvent ε)}
    (hpref : mutations (sent ++ u) <+: ComputeDiff des remote opts) {del op : SyncOp}
    (hdel : del ∈ mutations sent) (hdelete : del.kind = .delete) (hop : op ∈ mutations u) :
    op.kind ≠ .create := by
  intro hkind
  have hordered := (computeDiff_ordered des remote opts).sublist hpref.sublist
  rw [mutations_append, List.pairwise_append] at hordered
  have hrank := hordered.right.right del hdel op hop
  rw [hdelete, hkind] at hrank
  exact absurd hrank (by decide)

/--
Where a call leaves a node without users that had some, every listed user was
managed and undesired, and no create takes effect in the whole call.
-/
theorem emptied_only_when_nothing_kept (opts : SyncOptions)
    {users g g' : List RemoteUser} {t u : List (SyncEvent ε)}
    {q : Program SyncCall (SyncReply ε) (Result ε × Option (SyncError ε))}
    (hsteps : Program.Steps (SyncNode opts) (t ++ u) q)
    (hans : (outcomeNode ε).Answered users t g) (hafter : (outcomeNode ε).Answered g u g')
    (husers : users ≠ []) (hempty : g = []) :
    exists des remote rev sent, t = attemptHistory des [] remote rev sent ∧
      remote.Perm users ∧
      (forall r, r ∈ remote ->
        HasPrefix r.username opts.massDelete.managed = true ∧
          forall d, d ∈ des -> d.username ≠ r.username) ∧
      forall op rev₁ rev₂,
        ⟨.ApplyOp op rev₁, .ok rev₂⟩ ∈ t ++ u -> op.kind ≠ .create := by
  subst hempty
  have hgo := goesOn_of_answered (Contract.answered_append hans hafter)
  rcases Program.steps_split hsteps with ⟨s, htsteps, _⟩
  rcases List.exists_mem_of_ne_nil users husers with ⟨r₀, hr₀⟩
  rcases delete_of_emptied hans hr₀ with ⟨del, hdel, hdelete, _⟩
  rcases syncNode_sends htsteps (fun e he => hgo e (List.mem_append_left _ he)) with
    hnone | ⟨des, remote, rev, sent, rfl, _, hpref⟩
  · rw [hnone] at hdel
    cases hdel
  · rcases answered_listed hans with ⟨hperm, hsent⟩
    refine ⟨des, remote, rev, sent, rfl, hperm, ?_, ?_⟩
    · intro r hr
      rcases delete_of_emptied hsent (hperm.mem_iff.mp hr) with ⟨op, hop, hkind, hname⟩
      rcases kind_of_mem_computeDiff (hpref.subset hop) hkind with
        ⟨_, hmanaged, hundesired, _⟩
      rw [hname] at hmanaged hundesired
      exact ⟨hmanaged, Reconcile.lookup_eq_none_iff.mp hundesired⟩
    · intro op rev₁ rev₂ hmem
      rcases syncNode_sends hsteps hgo with
        hnone | ⟨des', remote', rev', sent', heq, _, hpref'⟩
      · rw [mutations_append] at hnone
        rw [(List.append_eq_nil_iff.mp hnone).left] at hdel
        cases hdel
      · rcases attemptHistory_append heq with ⟨rfl, rfl, rfl⟩
        have hevent : ⟨.ApplyOp op rev₁, .ok rev₂⟩ ∈ sent ++ u := by
          simpa [attemptHistory] using hmem
        rcases List.mem_append.mp hevent with hbefore | hlater
        · exact not_created_before hsent (fun _ hop => hpref.subset hop) hbefore
        · exact not_created_after hpref' hdel hdelete
            (List.mem_filterMap.mpr ⟨_, hlater, rfl⟩)

omit [RFC3339] in
/-- A node with one user, which no subscription stands for any more. -/
theorem emptied_only_when_nothing_kept_sample :
    letI := sampleClock
    let user : RemoteUser := ⟨"sub_a", true, none, none⟩
    let t : List (SyncEvent Classification) :=
      [⟨.ListDesired, .ok []⟩, ⟨.ListUsers, .ok ([user], "r1")⟩,
        ⟨.ApplyOp (deleteOp "sub_a") "r1", .ok "r2"⟩]
    exists des remote rev sent, t = attemptHistory des [] remote rev sent ∧
      remote.Perm [user] ∧
      (forall r, r ∈ remote ->
        HasPrefix r.username (SyncOptions.mk .apply {} false 0).massDelete.managed = true ∧
        forall d, d ∈ des -> d.username ≠ r.username) ∧
      forall op rev₁ rev₂, ⟨.ApplyOp op rev₁, .ok rev₂⟩ ∈ t ++ [] ->
        op.kind ≠ .create := by
  let := sampleClock
  have hdesired : (outcomeNode Classification).answers [⟨"sub_a", true, none, none⟩]
      .ListDesired (.ok []) [⟨"sub_a", true, none, none⟩] := by
    simp only [outcomeNode]
  have hlisted : (outcomeNode Classification).answers [⟨"sub_a", true, none, none⟩]
      .ListUsers (.ok ([⟨"sub_a", true, none, none⟩], "r1"))
      [⟨"sub_a", true, none, none⟩] := by
    simp only [outcomeNode, List.Perm.refl, and_self]
  have hsent : (outcomeNode Classification).answers [⟨"sub_a", true, none, none⟩]
      (.ApplyOp (deleteOp "sub_a") "r1") (.ok "r2") [] := by
    simp only [outcomeNode]
    decide
  exact emptied_only_when_nothing_kept (SyncOptions.mk .apply {} false 0)
    (.call (.call (.call (.refl _))))
    (.cons hdesired (.cons hlisted (.cons hsent (.nil []))))
    (.nil []) (List.cons_ne_nil _ _) rfl

end Emptied

end Sync
end Telemux
