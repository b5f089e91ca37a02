import Telemux.TelemtSync.Plan

/-!
# Convergence of the diff

Applying a diff brings a node to its target, in whatever order the operations
are applied, and applying a part of it leaves a diff that is exactly the rest.
-/

namespace Telemux
namespace TelemtSync

open Reconcile

variable [RFC3339]

/-!
## What is left after a part

The three lists of a diff are the plan seen through the kind of operation, so
each of them loses exactly what has been applied.
-/

def plannedFor (desired : List DesiredUser) (pre : String) (kind : OpKind)
    (remote : List RemoteUser) (d : DesiredUser) : Option SyncOp :=
  (planFor pre d.username (desiredByName desired d.username)
    (remoteByName remote d.username)).filter fun op => decide (op.kind = kind)

theorem createFor_eq_plan {desired : List DesiredUser} (hdes : DistinctDesired desired)
    (remote : List RemoteUser) (pre : String) {d : DesiredUser} (hd : d ∈ desired) :
    createFor remote d = plannedFor desired pre .create remote d := by
  have hlook : desiredByName desired d.username = some d := lookup_mem hdes hd
  unfold createFor plannedFor
  rw [hlook]
  cases remoteByName remote d.username with
  | none => rfl
  | some r =>
      cases hchanged : (patchFieldsFor d r).2 <;>
        simp [planFor, hchanged, patchOp, Option.filter_some]

theorem patchFor_eq_plan {desired : List DesiredUser} (hdes : DistinctDesired desired)
    (remote : List RemoteUser) (pre : String) {d : DesiredUser} (hd : d ∈ desired) :
    patchFor remote d = plannedFor desired pre .patch remote d := by
  have hlook : desiredByName desired d.username = some d := lookup_mem hdes hd
  unfold patchFor plannedFor
  rw [hlook]
  cases remoteByName remote d.username with
  | none => rfl
  | some r =>
      cases hchanged : (patchFieldsFor d r).2 <;>
        simp [planFor, hchanged, patchOp, Option.filter_some]

section Part

variable {desired : List DesiredUser} {remote : List RemoteUser} {opts : Options}
variable {part : List SyncOp}

theorem planFor_applyOps (hdes : DistinctDesired desired) (hrem : DistinctUsers remote)
    (hpart : part ⊆ ComputeDiff desired remote opts) (hnodup : part.Nodup) (name : String) :
    planFor opts.managed name (desiredByName desired name)
        (remoteByName (applyOps remote part) name) =
      (planFor opts.managed name (desiredByName desired name)
        (remoteByName remote name)).filter fun op => decide (op ∉ part) := by
  have hinj := List.inj_on_of_nodup_map (computeDiff_apart hdes hrem opts)
  have hapart : userOps.Apart part :=
    List.Nodup.map_on (fun op hop op' hop' => hinj (hpart hop) (hpart hop')) hnodup
  have hplanned : (userPlanner opts.managed).Planned (desiredByName desired)
      (remoteByName remote) part :=
    fun op hop => computeDiff_planned hdes remote opts op (hpart hop)
  have hrest := (userPlanner opts.managed).plan_actAll hapart hplanned name
  rw [remoteByName_applyOps]
  apply Eq.trans hrest _
  change (if name ∈ part.map SyncOp.username then none else
    planFor opts.managed name (desiredByName desired name) (remoteByName remote name)) = _
  by_cases hname : name ∈ part.map SyncOp.username
  · rw [if_pos hname]
    rcases List.mem_map.mp hname with ⟨op, hop, rfl⟩
    have hplan : planFor opts.managed op.username (desiredByName desired op.username)
        (remoteByName remote op.username) = some op := hplanned op hop
    rw [hplan]
    simp [hop, Option.filter_some]
  · rw [if_neg hname]
    cases hplan : planFor opts.managed name (desiredByName desired name)
        (remoteByName remote name) with
    | none => rfl
    | some op =>
        have hop : op ∉ part := by
          intro hmem
          exact hname (planFor_username hplan ▸ List.mem_map_of_mem hmem)
        simp [hop, Option.filter_some]

theorem desiredFor_applyOps (hdes : DistinctDesired desired) (hrem : DistinctUsers remote)
    (hpart : part ⊆ ComputeDiff desired remote opts) (hnodup : part.Nodup)
    {f : List RemoteUser -> DesiredUser -> Option SyncOp} {kind : OpKind}
    (hf : forall users d, d ∈ desired ->
      f users d = plannedFor desired opts.managed kind users d) :
    desired.filterMap (f (applyOps remote part)) =
      (desired.filterMap (f remote)).filter fun op => decide (op ∉ part) := by
  rw [List.filter_filterMap]
  apply List.filterMap_congr
  intro d hd
  rw [hf _ d hd, hf _ d hd]
  unfold plannedFor
  rw [planFor_applyOps hdes hrem hpart hnodup, Option.filter_filter, Option.filter_filter]
  simp only [Bool.and_comm]

omit [RFC3339] in
theorem deleteFor_applyOp (desired : List DesiredUser) (pre : String)
    (users : List RemoteUser) {op : SyncOp}
    (hcreate : op.kind = .create -> (desiredByName desired op.username).isSome = true)
    (hdelete : op.kind = .delete -> op = deleteOp op.username) :
    (applyOp users op).filterMap (deleteFor desired pre) =
      (users.filterMap (deleteFor desired pre)).filter fun o => decide (o ≠ op) := by
  have hkeep : op.kind ≠ .delete ->
      (users.filterMap (deleteFor desired pre)).filter (fun o => decide (o ≠ op)) =
        users.filterMap (deleteFor desired pre) := by
    intro hkind
    rw [List.filter_eq_self]
    intro o ho
    rcases List.mem_filterMap.mp ho with ⟨r, _, hr⟩
    rcases deleteFor_some.mp hr with ⟨_, _, rfl⟩
    have hne : deleteOp r.username ≠ op := by
      intro heq
      exact hkind (heq ▸ rfl)
    simpa using hne
  unfold applyOp
  cases hkind : op.kind with
  | create =>
      rw [hkeep (by simp [hkind])]
      cases remoteByName users op.username with
      | some r => rfl
      | none =>
          rcases Option.isSome_iff_exists.mp (hcreate hkind) with ⟨d, hd⟩
          have hnone : deleteFor desired pre op.created = none := by
            unfold deleteFor SyncOp.created
            simp [hd]
          simp [hnone]
  | patch =>
      rw [hkeep (by simp [hkind]), List.filterMap_map]
      apply List.filterMap_congr
      intro r _
      have hwrite : deleteFor desired pre (op.fields.write r) = deleteFor desired pre r := rfl
      by_cases hname : r.username = op.username <;> simp [hname, hwrite]
  | delete =>
      rw [List.filterMap_filter, List.filter_filterMap]
      apply List.filterMap_congr
      intro r _
      rw [hdelete hkind]
      cases hr : deleteFor desired pre r with
      | none => simp
      | some o =>
          rcases deleteFor_some.mp hr with ⟨_, _, rfl⟩
          by_cases hname : r.username = op.username <;>
            simp [hname, deleteOp, Option.filter_some]

theorem deleteFor_applyOps (hpart : part ⊆ ComputeDiff desired remote opts)
    (users : List RemoteUser) :
    (applyOps users part).filterMap (deleteFor desired opts.managed) =
      (users.filterMap (deleteFor desired opts.managed)).filter
        fun op => decide (op ∉ part) := by
  induction part generalizing users with
  | nil => simp
  | cons op rest ih =>
      have hop : op ∈ ComputeDiff desired remote opts := hpart List.mem_cons_self
      have hcreate : op.kind = .create ->
          (desiredByName desired op.username).isSome = true := by
        intro hkind
        rcases desired_of_mem_computeDiff hop (by simp [hkind]) with ⟨d, hd, hname⟩
        exact lookup_isSome_iff.mpr ⟨d, hd, hname⟩
      have hdelete : op.kind = .delete -> op = deleteOp op.username :=
        fun hkind => (kind_of_mem_computeDiff hop hkind).left
      rw [applyOps_cons, ih (fun o ho => hpart (List.mem_cons_of_mem op ho)),
        deleteFor_applyOp desired opts.managed users hcreate hdelete, List.filter_filter]
      apply List.filter_congr
      intro o _
      simp [not_or, Bool.and_comm]

theorem computeDiff_remainder (hdes : DistinctDesired desired)
    (hrem : DistinctUsers remote) (hpart : part ⊆ ComputeDiff desired remote opts)
    (hnodup : part.Nodup) :
    ComputeDiff desired (applyOps remote part) opts =
      (ComputeDiff desired remote opts).filter fun op => decide (op ∉ part) := by
  have hcreates := desiredFor_applyOps hdes hrem hpart hnodup
    (fun users _ hd => createFor_eq_plan hdes users opts.managed hd)
  have hpatches := desiredFor_applyOps hdes hrem hpart hnodup
    (fun users _ hd => patchFor_eq_plan hdes users opts.managed hd)
  unfold ComputeDiff
  rw [hcreates, hpatches, deleteFor_applyOps hpart, List.filter_append, List.filter_append]

theorem applies_in_turn (hdes : DistinctDesired desired) (hrem : DistinctUsers remote)
    {sent rest : List SyncOp} {op : SyncOp}
    (hperm : (sent ++ op :: rest).Perm (ComputeDiff desired remote opts)) :
    Applies (applyOps remote sent) op := by
  have hnodup : (sent ++ op :: rest).Nodup :=
    hperm.nodup_iff.mpr (computeDiff_nodup hdes hrem opts)
  have hsent : sent ⊆ ComputeDiff desired remote opts :=
    fun o ho => hperm.subset (List.mem_append_left _ ho)
  have hnew : op ∉ sent :=
    fun ho => (List.nodup_append.mp hnodup).right.right op ho op List.mem_cons_self rfl
  have hleft : op ∈ ComputeDiff desired (applyOps remote sent) opts := by
    rw [computeDiff_remainder hdes hrem hsent (List.nodup_append.mp hnodup).left,
      List.mem_filter]
    constructor
    · exact hperm.subset (List.mem_append_right _ List.mem_cons_self)
    · simpa using hnew
  exact applies_of_mem_computeDiff hleft

end Part

/-!
## The target

A node is in its target state when every desired user is on it, enabled and with
the desired fields, and no other user carries the managed prefix.  That is the
case exactly when there is nothing left to do.
-/

structure InTarget (desired : List DesiredUser) (opts : Options)
    (users : List RemoteUser) : Prop where
  desired_present : forall d, d ∈ desired ->
    exists r, remoteByName users d.username = some r ∧ r.enabled = true ∧
      r.maxTCPConns = d.maxTCPConns ∧
      ExpirationEquals d.expirationRFC3339 r.expirationRFC3339 = true
  managed_desired : forall r, r ∈ users -> HasPrefix r.username opts.managed = true ->
    exists d, d ∈ desired ∧ d.username = r.username

theorem computeDiff_nil_iff (desired : List DesiredUser) (users : List RemoteUser)
    (opts : Options) :
    ComputeDiff desired users opts = [] <-> InTarget desired opts users := by
  rw [List.eq_nil_iff_forall_not_mem]
  constructor
  · intro hnil
    constructor
    · intro d hd
      cases hr : remoteByName users d.username with
      | none => exact absurd (mem_computeDiff.mpr (Or.inl ⟨d, hd, hr, rfl⟩)) (hnil _)
      | some r =>
          cases hchanged : (patchFieldsFor d r).2 with
          | true =>
              exact absurd
                (mem_computeDiff.mpr (Or.inr (Or.inl ⟨d, hd, r, hr, hchanged, rfl⟩))) (hnil _)
          | false =>
              rcases patchFieldsFor_unchanged_iff.mp hchanged with ⟨hexp, hconns, hen⟩
              exact ⟨r, rfl, hen, hconns.symm, hexp⟩
    · intro r hr hpre
      cases hd : desiredByName desired r.username with
      | none =>
          exact absurd
            (mem_computeDiff.mpr (Or.inr (Or.inr ⟨r, hr, hpre, hd, rfl⟩))) (hnil _)
      | some d => exact ⟨d, lookup_some hd⟩
  · intro htarget op hop
    rcases mem_computeDiff.mp hop with
      ⟨d, hd, hnone, _⟩ | ⟨d, hd, r, hr, hchanged, _⟩ | ⟨r, hr, hpre, hnone, _⟩
    · rcases htarget.desired_present d hd with ⟨r, hr, _⟩
      rw [hr] at hnone
      cases hnone
    · rcases htarget.desired_present d hd with ⟨r', hr', hen, hconns, hexp⟩
      rw [hr] at hr'
      cases hr'
      rw [patchFieldsFor_unchanged_iff.mpr ⟨hexp, hconns.symm, hen⟩] at hchanged
      cases hchanged
    · rcases htarget.managed_desired r hr hpre with ⟨d, hd, hname⟩
      exact lookup_eq_none_iff.mp hnone d hd hname

theorem inTarget_congr {desired : List DesiredUser} {opts : Options}
    {users users' : List RemoteUser} (heq : remoteByName users = remoteByName users')
    (htarget : InTarget desired opts users) : InTarget desired opts users' := by
  constructor
  · intro d hd
    rw [← heq]
    exact htarget.desired_present d hd
  · intro r hr hpre
    have hsome : (remoteByName users r.username).isSome = true := by
      rw [heq]
      exact lookup_isSome_iff.mpr ⟨r, hr, rfl⟩
    rcases lookup_isSome_iff.mp hsome with ⟨r', hr', hname⟩
    rw [← hname] at hpre ⊢
    exact htarget.managed_desired r' hr' hpre

theorem applyOps_inTarget {desired : List DesiredUser} {remote : List RemoteUser}
    {opts : Options} {ops : List SyncOp} (hdes : DistinctDesired desired)
    (hrem : DistinctUsers remote) (hops : ops.Perm (ComputeDiff desired remote opts)) :
    InTarget desired opts (applyOps remote ops) := by
  have hnodup : ops.Nodup := hops.nodup_iff.mpr (computeDiff_nodup hdes hrem opts)
  rw [← computeDiff_nil_iff, computeDiff_remainder hdes hrem hops.subset hnodup,
    List.filter_eq_nil_iff]
  intro op hop
  simpa using hops.mem_iff.mpr hop

/-!
## Convergence

What a diff does to the node as a map: desired users are settled, foreign users
are kept as they were, and there is nobody else.
-/

structure Settled (desired : List DesiredUser) (remote : List RemoteUser)
    (opts : Options) (final : String -> Option RemoteUser) : Prop where
  desired_present : forall d, d ∈ desired ->
    exists r, final d.username = some r ∧ r.username = d.username ∧ r.enabled = true ∧
      r.maxTCPConns = d.maxTCPConns ∧
      ExpirationEquals d.expirationRFC3339 r.expirationRFC3339 = true
  foreign_kept : forall r, r ∈ remote -> (forall d, d ∈ desired -> d.username ≠ r.username) ->
    HasPrefix r.username opts.managed = false -> final r.username = some r
  nothing_else : forall name, final name ≠ none ->
    (exists d, d ∈ desired ∧ d.username = name) ∨
      (exists r, r ∈ remote ∧ r.username = name ∧ HasPrefix name opts.managed = false)

theorem settled_applyOps {desired : List DesiredUser} {remote : List RemoteUser}
    (hdes : DistinctDesired desired) (hrem : DistinctUsers remote) (opts : Options) :
    Settled desired remote opts
      (remoteByName (applyOps remote (ComputeDiff desired remote opts))) := by
  have htarget := applyOps_inTarget hdes hrem
    (List.Perm.refl (ComputeDiff desired remote opts))
  have hapart := computeDiff_apart hdes hrem opts
  constructor
  · intro d hd
    rcases htarget.desired_present d hd with ⟨r, hr, hfields⟩
    exact ⟨r, hr, (lookup_some hr).right, hfields⟩
  · intro r hr hforeign hpre
    have hnot : r.username ∉ (ComputeDiff desired remote opts).map SyncOp.username := by
      intro hmem
      rcases List.mem_map.mp hmem with ⟨op, hop, hname⟩
      by_cases hkind : op.kind = .delete
      · have hmanaged := (kind_of_mem_computeDiff hop hkind).right.left
        rw [hname, hpre] at hmanaged
        cases hmanaged
      · rcases desired_of_mem_computeDiff hop hkind with ⟨d, hd, hdname⟩
        exact hforeign d hd (hdname.trans hname)
    rw [remoteByName_applyOps, userOps.actAll_other _ hnot]
    exact lookup_mem hrem hr
  · intro name hpresent
    rcases Option.ne_none_iff_exists'.mp hpresent with ⟨r, hr⟩
    by_cases hmanaged : HasPrefix name opts.managed = true
    · have hmem := lookup_some hr
      rw [← hmem.right] at hmanaged ⊢
      exact Or.inl (htarget.managed_desired r hmem.left hmanaged)
    · have hforeign : HasPrefix name opts.managed = false := by simpa using hmanaged
      by_cases hnamed : name ∈ (ComputeDiff desired remote opts).map SyncOp.username
      · rcases List.mem_map.mp hnamed with ⟨op, hop, rfl⟩
        apply Or.inl
        apply desired_of_mem_computeDiff hop
        intro hkind
        rw [(kind_of_mem_computeDiff hop hkind).right.left] at hforeign
        cases hforeign
      · rw [remoteByName_applyOps, userOps.actAll_other _ hnamed] at hr
        have hmem := lookup_some hr
        exact Or.inr ⟨r, hmem.left, hmem.right, hforeign⟩

theorem computeDiff_converges {desired : List DesiredUser} {remote : List RemoteUser}
    (hdes : DistinctDesired desired) (hrem : DistinctUsers remote) (opts : Options) :
    exists final : String -> Option RemoteUser,
      Settled desired remote opts final ∧
      (forall ops, ops.Perm (ComputeDiff desired remote opts) ->
        DistinctUsers (applyOps remote ops) ∧
          remoteByName (applyOps remote ops) = final) ∧
      (forall listed, DistinctUsers listed -> remoteByName listed = final ->
        ComputeDiff desired listed opts = []) := by
  exists remoteByName (applyOps remote (ComputeDiff desired remote opts))
  refine ⟨settled_applyOps hdes hrem opts, ?_, ?_⟩
  · intro ops hops
    constructor
    · exact applyOps_distinct hrem ops
    · rw [remoteByName_applyOps, remoteByName_applyOps]
      exact (userOps.actAll_perm _ (computeDiff_apart hdes hrem opts) hops.symm).symm
  · intro listed _ hlisted
    rw [computeDiff_nil_iff]
    exact inTarget_congr hlisted.symm (applyOps_inTarget hdes hrem (List.Perm.refl _))

omit [RFC3339] in
/-- A limit to patch under a respelled timestamp, a create, a delete, a foreign user. -/
theorem computeDiff_converges_sample :
    letI := sampleClock
    let desired : List DesiredUser :=
      [⟨"sub_1", "ee1", some "2026-07-01T00:00:00Z", some 8⟩, ⟨"sub_2", "ee2", none, none⟩]
    let remote : List RemoteUser :=
      [⟨"sub_1", true, some "2026-07-01T00:00:00+00:00", some 4⟩,
        ⟨"sub_9", true, none, none⟩, ⟨"admin", false, none, none⟩]
    exists final : String -> Option RemoteUser,
      Settled desired remote {} final ∧
      (forall ops, ops.Perm (ComputeDiff desired remote {}) ->
        DistinctUsers (applyOps remote ops) ∧
          remoteByName (applyOps remote ops) = final) ∧
      (forall listed, DistinctUsers listed -> remoteByName listed = final ->
        ComputeDiff desired listed {} = []) :=
  letI := sampleClock
  computeDiff_converges (by decide) (by decide) {}

/-!
## Resuming

A run that stopped after some of the operations left a node whose diff is the
other operations, and carrying those out ends where the whole diff would have.
-/

theorem computeDiff_resumes {desired : List DesiredUser} {remote : List RemoteUser}
    (hdes : DistinctDesired desired) (hrem : DistinctUsers remote) (opts : Options)
    {part : List SyncOp} (hpart : part.Subperm (ComputeDiff desired remote opts)) :
    ComputeDiff desired (applyOps remote part) opts =
        (ComputeDiff desired remote opts).filter (fun op => decide (op ∉ part)) ∧
      (ComputeDiff desired (applyOps remote part) opts = [] <->
        part.Perm (ComputeDiff desired remote opts)) ∧
      DistinctUsers (applyOps remote part) ∧
      remoteByName (applyOps (applyOps remote part)
          (ComputeDiff desired (applyOps remote part) opts)) =
        remoteByName (applyOps remote (ComputeDiff desired remote opts)) := by
  have hnodup : (ComputeDiff desired remote opts).Nodup := computeDiff_nodup hdes hrem opts
  have hpartNodup : part.Nodup := by
    rcases hpart with ⟨sub, hperm, hsub⟩
    exact hperm.nodup_iff.mp (hnodup.sublist hsub)
  have hrest := computeDiff_remainder hdes hrem hpart.subset hpartNodup
  refine ⟨hrest, ?_, applyOps_distinct hrem part, ?_⟩
  · rw [hrest, List.filter_eq_nil_iff]
    constructor
    · intro hall
      have hback : ComputeDiff desired remote opts ⊆ part := by
        intro op hop
        simpa using hall op hop
      exact hpart.antisymm (List.subperm_of_subset hnodup hback)
    · intro hperm op hop
      simpa using hperm.mem_iff.mpr hop
  · -- the part and what is left of the diff are the diff in another order
    have hsplit : (part ++ ComputeDiff desired (applyOps remote part) opts).Perm
        (ComputeDiff desired remote opts) := by
      have hmem : part.Perm
          ((ComputeDiff desired remote opts).filter fun op => decide (op ∈ part)) := by
        apply (List.perm_ext_iff_of_nodup hpartNodup (hnodup.filter _)).mpr
        intro op
        simpa using fun hop => hpart.subset hop
      rw [hrest]
      apply (hmem.append_right _).trans
      simpa using List.filter_append_perm (fun op => decide (op ∈ part))
        (ComputeDiff desired remote opts)
    rw [← applyOps_append, remoteByName_applyOps, remoteByName_applyOps]
    exact (userOps.actAll_perm _ (computeDiff_apart hdes hrem opts) hsplit.symm).symm

omit [RFC3339] in
/-- A delete goes through before the create and the patch of the same diff. -/
theorem computeDiff_resumes_sample :
    letI := sampleClock
    let desired : List DesiredUser :=
      [⟨"sub_1", "ee1", some "2026-07-01T00:00:00Z", some 8⟩, ⟨"sub_2", "ee2", none, none⟩]
    let remote : List RemoteUser :=
      [⟨"sub_1", true, some "2026-07-01T00:00:00+00:00", some 4⟩,
        ⟨"sub_9", true, none, none⟩, ⟨"admin", false, none, none⟩]
    let part : List SyncOp := [deleteOp "sub_9"]
    ComputeDiff desired (applyOps remote part) {} =
        (ComputeDiff desired remote {}).filter (fun op => decide (op ∉ part)) ∧
      (ComputeDiff desired (applyOps remote part) {} = [] <->
        part.Perm (ComputeDiff desired remote {})) ∧
      DistinctUsers (applyOps remote part) ∧
      remoteByName (applyOps (applyOps remote part)
          (ComputeDiff desired (applyOps remote part) {})) =
        remoteByName (applyOps remote (ComputeDiff desired remote {})) :=
  letI := sampleClock
  computeDiff_resumes (by decide) (by decide) {}
    (List.singleton_subperm_iff.mpr (by decide))

end TelemtSync
end Telemux
