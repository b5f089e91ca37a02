import Telemux.TelemtSync.NodeState

/-!
# ComputeDiff carries out the plan

`ComputeDiff` builds its list in two loops over two lists.  This module shows
that the list is exactly the per-username plan: which operations it holds, that
they name different users, and what it becomes after some of them took effect.
-/

namespace Telemux
namespace TelemtSync

open Reconcile

variable [RFC3339]

/-!
## Membership

The cases below need no assumption on the two lists.
-/

omit [RFC3339] in
theorem createFor_some {remote : List RemoteUser} {d : DesiredUser} {op : SyncOp} :
    createFor remote d = some op <->
      remoteByName remote d.username = none ∧ op = createOp d := by
  unfold createFor
  cases remoteByName remote d.username with
  | none =>
      constructor
      · intro h
        cases h
        exact ⟨rfl, rfl⟩
      · intro hplan
        rcases hplan with ⟨_, rfl⟩
        rfl
  | some r => simp

theorem patchFor_some {remote : List RemoteUser} {d : DesiredUser} {op : SyncOp} :
    patchFor remote d = some op <->
      exists r, remoteByName remote d.username = some r ∧
        (patchFieldsFor d r).2 = true ∧ op = patchOp d.username (patchFieldsFor d r).1 := by
  unfold patchFor
  cases remoteByName remote d.username with
  | none => simp
  | some r =>
      simp only [Option.ite_none_right_eq_some, Option.some.injEq]
      constructor
      · intro hplan
        rcases hplan with ⟨hchanged, rfl⟩
        exact ⟨r, rfl, hchanged, rfl⟩
      · intro hplan
        rcases hplan with ⟨_, rfl, hchanged, rfl⟩
        exact ⟨hchanged, rfl⟩

omit [RFC3339] in
theorem deleteFor_some {desired : List DesiredUser} {pre : String} {r : RemoteUser}
    {op : SyncOp} :
    deleteFor desired pre r = some op <->
      HasPrefix r.username pre = true ∧ desiredByName desired r.username = none ∧
        op = deleteOp r.username := by
  unfold deleteFor
  cases desiredByName desired r.username with
  | none =>
      simp only [Option.ite_none_right_eq_some, Option.some.injEq]
      constructor
      · intro hplan
        rcases hplan with ⟨hpre, rfl⟩
        exact ⟨hpre, trivial, rfl⟩
      · intro hplan
        rcases hplan with ⟨hpre, _, rfl⟩
        exact ⟨hpre, rfl⟩
  | some d => simp

theorem mem_computeDiff {desired : List DesiredUser} {remote : List RemoteUser}
    {opts : Options} {op : SyncOp} :
    op ∈ ComputeDiff desired remote opts <->
      (exists d, d ∈ desired ∧ remoteByName remote d.username = none ∧ op = createOp d) ∨
      (exists d, d ∈ desired ∧ exists r, remoteByName remote d.username = some r ∧
        (patchFieldsFor d r).2 = true ∧ op = patchOp d.username (patchFieldsFor d r).1) ∨
      (exists r, r ∈ remote ∧ HasPrefix r.username opts.managed = true ∧
        desiredByName desired r.username = none ∧ op = deleteOp r.username) := by
  simp only [ComputeDiff, List.mem_append, List.mem_filterMap, createFor_some,
    patchFor_some, deleteFor_some, or_assoc]

theorem kind_of_mem_computeDiff {desired : List DesiredUser} {remote : List RemoteUser}
    {opts : Options} {op : SyncOp} (hop : op ∈ ComputeDiff desired remote opts)
    (hkind : op.kind = .delete) :
    op = deleteOp op.username ∧ HasPrefix op.username opts.managed = true ∧
      desiredByName desired op.username = none ∧
      exists r, r ∈ remote ∧ r.username = op.username := by
  rcases mem_computeDiff.mp hop with
    ⟨d, _, _, rfl⟩ | ⟨d, _, r, _, _, rfl⟩ | ⟨r, hr, hpre, hdes, rfl⟩
  · cases hkind
  · cases hkind
  · exact ⟨rfl, hpre, hdes, r, hr, rfl⟩

theorem create_of_mem_computeDiff {desired : List DesiredUser} {remote : List RemoteUser}
    {opts : Options} {op : SyncOp} (hop : op ∈ ComputeDiff desired remote opts)
    (hkind : op.kind = .create) :
    (exists d, d ∈ desired ∧ d.username = op.username) ∧
      remoteByName remote op.username = none := by
  rcases mem_computeDiff.mp hop with
    ⟨d, hd, hnone, rfl⟩ | ⟨d, _, r, _, _, rfl⟩ | ⟨r, _, _, _, rfl⟩
  · exact ⟨⟨d, hd, rfl⟩, hnone⟩
  · cases hkind
  · cases hkind

theorem desired_of_mem_computeDiff {desired : List DesiredUser}
    {remote : List RemoteUser} {opts : Options} {op : SyncOp}
    (hop : op ∈ ComputeDiff desired remote opts) (hkind : op.kind ≠ .delete) :
    exists d, d ∈ desired ∧ d.username = op.username := by
  rcases mem_computeDiff.mp hop with
    ⟨d, hd, _, rfl⟩ | ⟨d, hd, r, _, _, rfl⟩ | ⟨r, _, _, _, rfl⟩
  · exact ⟨d, hd, rfl⟩
  · exact ⟨d, hd, rfl⟩
  · exact absurd rfl hkind

/-!
## Order

Creates go before patches, patches before deletes.
-/

def OpKind.rank : OpKind -> Nat
  | .create => 0
  | .patch => 1
  | .delete => 2

theorem computeDiff_ordered (desired : List DesiredUser)
    (remote : List RemoteUser) (opts : Options) :
    (ComputeDiff desired remote opts).Pairwise fun o o' => o.kind.rank ≤ o'.kind.rank := by
  have hcreate : forall o, o ∈ desired.filterMap (createFor remote) -> o.kind = .create := by
    intro o ho
    rcases List.mem_filterMap.mp ho with ⟨d, _, hd⟩
    rw [(createFor_some.mp hd).right]
    rfl
  have hpatch : forall o, o ∈ desired.filterMap (patchFor remote) -> o.kind = .patch := by
    intro o ho
    rcases List.mem_filterMap.mp ho with ⟨d, _, hd⟩
    rcases patchFor_some.mp hd with ⟨_, _, _, rfl⟩
    rfl
  have hdelete : forall o, o ∈ remote.filterMap (deleteFor desired opts.managed) ->
      o.kind = .delete := by
    intro o ho
    rcases List.mem_filterMap.mp ho with ⟨r, _, hr⟩
    rw [(deleteFor_some.mp hr).right.right]
    rfl
  have hsame : forall (l : List SyncOp) (k : OpKind), (forall o, o ∈ l -> o.kind = k) ->
      l.Pairwise fun o o' => o.kind.rank ≤ o'.kind.rank := by
    intro l k hl
    apply List.pairwise_of_forall_mem_list
    intro o ho o' ho'
    rw [hl o ho, hl o' ho']
  unfold ComputeDiff
  rw [List.pairwise_append, List.pairwise_append]
  refine ⟨⟨hsame _ _ hcreate, hsame _ _ hpatch, ?_⟩, hsame _ _ hdelete, ?_⟩
  · intro o ho o' ho'
    rw [hcreate o ho, hpatch o' ho']
    decide
  · intro o ho o' ho'
    rw [hdelete o' ho']
    cases o.kind <;> decide

/-!
## The plan

With distinct desired usernames the list holds exactly what is planned for each
username, and with distinct remote usernames too it names every user once.
-/

theorem mem_computeDiff_iff_plan {desired : List DesiredUser}
    (hdes : DistinctDesired desired) (remote : List RemoteUser) (opts : Options)
    (op : SyncOp) :
    op ∈ ComputeDiff desired remote opts <->
      planFor opts.managed op.username (desiredByName desired op.username)
        (remoteByName remote op.username) = some op := by
  rw [mem_computeDiff]
  constructor
  · intro hop
    rcases hop with
      ⟨d, hd, hnone, rfl⟩ | ⟨d, hd, r, hr, hchanged, rfl⟩ | ⟨r, hr, hpre, hnone, rfl⟩
    · have hlook : desiredByName desired (createOp d).username = some d :=
        lookup_mem hdes hd
      have hnone' : remoteByName remote (createOp d).username = none := hnone
      rw [hlook, hnone']
      rfl
    · have hlook : desiredByName desired
          (patchOp d.username (patchFieldsFor d r).1).username = some d := lookup_mem hdes hd
      have hr' : remoteByName remote
          (patchOp d.username (patchFieldsFor d r).1).username = some r := hr
      rw [hlook, hr']
      simp only [planFor, hchanged]
      rfl
    · have hnone' : desiredByName desired (deleteOp r.username).username = none := hnone
      have hsome : (remoteByName remote (deleteOp r.username).username).isSome = true :=
        lookup_isSome_iff.mpr ⟨r, hr, rfl⟩
      rcases Option.isSome_iff_exists.mp hsome with ⟨r', hr'⟩
      rw [hnone', hr']
      have hpre' : HasPrefix (deleteOp r.username).username opts.managed = true := hpre
      simp only [planFor, hpre']
      rfl
  · intro hplan
    rcases planFor_some hplan with
      ⟨hd, ⟨r, hr⟩, hpre, hop⟩ | ⟨d, hd, hr, hop⟩ | ⟨d, r, hd, hr, hchanged, hop⟩
    · apply Or.inr
      apply Or.inr
      have hmem := lookup_some hr
      refine ⟨r, hmem.left, ?_⟩
      rw [hmem.right]
      exact ⟨hpre, hd, hop⟩
    · apply Or.inl
      have hmem := lookup_some hd
      refine ⟨d, hmem.left, ?_⟩
      rw [hmem.right]
      refine ⟨hr, ?_⟩
      rw [hop, ← hmem.right]
      rfl
    · apply Or.inr
      apply Or.inl
      have hmem := lookup_some hd
      refine ⟨d, hmem.left, r, ?_⟩
      rw [hmem.right]
      exact ⟨hr, hchanged, hop⟩

theorem mem_computeDiff_congr {desired : List DesiredUser} (hdes : DistinctDesired desired)
    {remote remote' : List RemoteUser} (heq : remoteByName remote = remoteByName remote')
    (opts : Options) (op : SyncOp) :
    op ∈ ComputeDiff desired remote opts <-> op ∈ ComputeDiff desired remote' opts := by
  rw [mem_computeDiff_iff_plan hdes, mem_computeDiff_iff_plan hdes, heq]

theorem computeDiff_planned {desired : List DesiredUser} (hdes : DistinctDesired desired)
    (remote : List RemoteUser) (opts : Options) :
    (userPlanner opts.managed).Planned (desiredByName desired) (remoteByName remote)
      (ComputeDiff desired remote opts) := by
  intro op hop
  exact (mem_computeDiff_iff_plan hdes remote opts op).mp hop

theorem computeDiff_apart {desired : List DesiredUser} {remote : List RemoteUser}
    (hdes : DistinctDesired desired) (hrem : DistinctUsers remote) (opts : Options) :
    userOps.Apart (ComputeDiff desired remote opts) := by
  have hcreates : ((desired.filterMap (createFor remote)).map SyncOp.username).Nodup := by
    apply List.Nodup.sublist (map_filterMap_sublist _ desired) hdes
    intro d op hop
    rw [(createFor_some.mp hop).right]
    rfl
  have hpatches : ((desired.filterMap (patchFor remote)).map SyncOp.username).Nodup := by
    apply List.Nodup.sublist (map_filterMap_sublist _ desired) hdes
    intro d op hop
    rcases patchFor_some.mp hop with ⟨r, _, _, rfl⟩
    rfl
  have hdeletes : ((remote.filterMap (deleteFor desired opts.managed)).map
      SyncOp.username).Nodup := by
    apply List.Nodup.sublist (map_filterMap_sublist _ remote) hrem
    intro r op hop
    rw [(deleteFor_some.mp hop).right.right]
    rfl
  show ((ComputeDiff desired remote opts).map SyncOp.username).Nodup
  unfold ComputeDiff
  rw [List.map_append, List.map_append, List.nodup_append, List.nodup_append]
  refine ⟨⟨hcreates, hpatches, ?_⟩, hdeletes, ?_⟩
  · -- a created user is missing on the node, a patched one is there
    intro x hx y hy hxy
    rcases List.mem_map.mp hx with ⟨op, hop, rfl⟩
    rcases List.mem_map.mp hy with ⟨op', hop', rfl⟩
    rcases List.mem_filterMap.mp hop with ⟨d, _, hd⟩
    rcases List.mem_filterMap.mp hop' with ⟨d', _, hd'⟩
    rcases createFor_some.mp hd with ⟨hnone, rfl⟩
    rcases patchFor_some.mp hd' with ⟨r, hsome, _, rfl⟩
    have heq : d.username = d'.username := hxy
    rw [heq, hsome] at hnone
    cases hnone
  · -- a deleted user is not desired
    intro x hx y hy hxy
    rcases List.mem_map.mp hy with ⟨op', hop', rfl⟩
    rcases List.mem_filterMap.mp hop' with ⟨r, _, hr⟩
    rcases deleteFor_some.mp hr with ⟨_, hnone, rfl⟩
    have hdesired : exists d, d ∈ desired ∧ d.username = x := by
      rw [← List.map_append] at hx
      rcases List.mem_map.mp hx with ⟨op, hop, rfl⟩
      rcases List.mem_append.mp hop with hcreate | hpatch
      · rcases List.mem_filterMap.mp hcreate with ⟨d, hd, hsome⟩
        rw [(createFor_some.mp hsome).right]
        exact ⟨d, hd, rfl⟩
      · rcases List.mem_filterMap.mp hpatch with ⟨d, hd, hsome⟩
        rcases patchFor_some.mp hsome with ⟨r', _, _, rfl⟩
        exact ⟨d, hd, rfl⟩
    rcases hdesired with ⟨d, hd, hname⟩
    exact lookup_eq_none_iff.mp hnone d hd (hname.trans hxy)

theorem computeDiff_nodup {desired : List DesiredUser} {remote : List RemoteUser}
    (hdes : DistinctDesired desired) (hrem : DistinctUsers remote) (opts : Options) :
    (ComputeDiff desired remote opts).Nodup :=
  List.Nodup.of_map SyncOp.username (computeDiff_apart hdes hrem opts)

theorem computeDiff_perm {desired : List DesiredUser}
    {users users' : List RemoteUser} (hdes : DistinctDesired desired)
    (husers : DistinctUsers users) (hperm : users.Perm users') (opts : Options) :
    (ComputeDiff desired users opts).Perm (ComputeDiff desired users' opts) := by
  have husers' : DistinctUsers users' := (hperm.map RemoteUser.username).nodup_iff.mp husers
  rw [List.perm_ext_iff_of_nodup (computeDiff_nodup hdes husers opts)
    (computeDiff_nodup hdes husers' opts)]
  intro op
  apply mem_computeDiff_congr hdes
  funext name
  exact lookup_perm husers hperm name

theorem applies_of_mem_computeDiff {desired : List DesiredUser}
    {users : List RemoteUser} {opts : Options} {op : SyncOp}
    (hop : op ∈ ComputeDiff desired users opts) : Applies users op := by
  unfold Applies
  rcases mem_computeDiff.mp hop with
    ⟨d, _, hnone, rfl⟩ | ⟨d, _, r, hr, _, rfl⟩ | ⟨r, hr, _, _, rfl⟩
  · exact ⟨fun _ => rfl, fun _ => hnone⟩
  · have hsome : remoteByName users (patchOp d.username (patchFieldsFor d r).1).username =
        some r := hr
    rw [hsome]
    constructor
    · intro h
      cases h
    · intro h
      cases h
  · constructor
    · intro hnone
      exact absurd rfl (lookup_eq_none_iff.mp hnone r hr)
    · intro h
      cases h

end TelemtSync
end Telemux
