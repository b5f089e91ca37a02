import Telemux.Sync.Trace
import Telemux.TelemtSync.Convergence

/-!
# Foreign users

The package promises to manage only users with the managed prefix.  The prefix
is tested where deletes are emitted and nowhere else, so whether the promise is
kept depends on the desired names.  This module says exactly when it is, for one
diff and for whole calls.
-/

namespace Telemux
namespace Sync

open Interaction TelemtSync

variable [RFC3339]

/-!
## One diff
-/

/-- Every desired user without the prefix is on the node, with nothing to patch. -/
def LeavesForeign (des : List DesiredUser) (remote : List RemoteUser) (opts : Options) :
    Prop :=
  forall d, d ∈ des -> HasPrefix d.username opts.managed = false ->
    exists r, remoteByName remote d.username = some r ∧
      ExpirationEquals d.expirationRFC3339 r.expirationRFC3339 = true ∧
      d.maxTCPConns = r.maxTCPConns ∧ r.enabled = true

theorem computeDiff_managed_iff (des : List DesiredUser) (remote : List RemoteUser)
    (opts : Options) :
    (forall op, op ∈ ComputeDiff des remote opts ->
      HasPrefix op.username opts.managed = true) <-> LeavesForeign des remote opts := by
  constructor
  · intro hmanaged d hd hforeign
    cases hr : remoteByName remote d.username with
    | none =>
        have hpre : HasPrefix d.username opts.managed = true :=
          hmanaged _ (mem_computeDiff.mpr (Or.inl ⟨d, hd, hr, rfl⟩))
        rw [hforeign] at hpre
        cases hpre
    | some r =>
        cases hchanged : (patchFieldsFor d r).2 with
        | true =>
            have hpre : HasPrefix d.username opts.managed = true :=
              hmanaged _ (mem_computeDiff.mpr (Or.inr (Or.inl ⟨d, hd, r, hr, hchanged, rfl⟩)))
            rw [hforeign] at hpre
            cases hpre
        | false => exact ⟨r, rfl, patchFieldsFor_unchanged_iff.mp hchanged⟩
  · intro hleaves op hop
    rcases mem_computeDiff.mp hop with
      ⟨d, hd, hnone, rfl⟩ | ⟨d, hd, r, hr, hchanged, rfl⟩ | ⟨r, _, hpre, _, rfl⟩
    · cases hpre : HasPrefix d.username opts.managed with
      | true => exact hpre
      | false =>
          rcases hleaves d hd hpre with ⟨r, hr, _⟩
          rw [hr] at hnone
          cases hnone
    · cases hpre : HasPrefix d.username opts.managed with
      | true => exact hpre
      | false =>
          rcases hleaves d hd hpre with ⟨r', hr', hsame⟩
          rw [hr] at hr'
          cases hr'
          rw [patchFieldsFor_unchanged_iff.mpr hsame] at hchanged
          cases hchanged
    · exact hpre

/-!
## Whole calls

A node here is a map of users that lists anything and answers anything; an
operation it receives changes at most the user it names.
-/

section Calls

variable {ε : Type} [ClassifiedError ε]

def anyNode (ε : Type) : Contract SyncCall (SyncReply ε) (String -> Option RemoteUser) where
  owes _ _ := True
  answers m c _ m' :=
    match c with
    | .ListDesired => m' = m
    | .ListUsers => m' = m
    | .ApplyOp op _ => forall name, name ≠ op.username -> m' name = m name

omit [RFC3339] [ClassifiedError ε] in
theorem answered_frame {m m' : String -> Option RemoteUser} {t : List (SyncEvent ε)}
    (hans : (anyNode ε).Answered m t m') {name : String}
    (hname : forall op, op ∈ mutations t -> name ≠ op.username) : m' name = m name := by
  induction hans with
  | nil m => rfl
  | cons hstep hrest ih =>
      rename_i m m₁ m₂ c r t
      have hrest' : m₂ name = m₁ name := by
        apply ih
        intro op hop
        apply hname
        cases hmut : mutation (⟨c, r⟩ : SyncEvent ε) with
        | none =>
            unfold mutations at hop ⊢
            rwa [List.filterMap_cons_none hmut]
        | some op' =>
            unfold mutations at hop ⊢
            rw [List.filterMap_cons_some hmut]
            exact List.mem_cons_of_mem op' hop
      rw [hrest']
      cases c with
      | ListDesired => rw [show m₁ = m from hstep]
      | ListUsers => rw [show m₁ = m from hstep]
      | ApplyOp op rev =>
          apply hstep name
          apply hname op
          exact List.mem_filterMap.mpr ⟨_, List.mem_cons_self, rfl⟩

theorem mutation_of_run {opts : SyncOptions} {t : List (SyncEvent ε)}
    {q : Program SyncCall (SyncReply ε) (Result ε × Option (SyncError ε))}
    (hsteps : Program.Steps (SyncNode opts) t q) {op : SyncOp} (hop : op ∈ mutations t) :
    exists des remote rev, (⟨.ListDesired, .ok des⟩ : SyncEvent ε) ∈ t ∧
      (⟨.ListUsers, .ok (remote, rev)⟩ : SyncEvent ε) ∈ t ∧
      op ∈ ComputeDiff des remote opts.massDelete.toOptions := by
  rcases List.mem_filterMap.mp hop with ⟨⟨c, r⟩, he, hmut⟩
  rcases List.append_of_mem he with ⟨u, v, rfl⟩
  rcases Program.steps_asked hsteps with ⟨next, hnext⟩
  cases c with
  | ListDesired => cases hmut
  | ListUsers => cases hmut
  | ApplyOp op' rev =>
      cases hmut
      have howes := Contract.owes_of_onHistory (syncNode_owes_justification opts) hnext
      rcases howes with ⟨des, before, remote, rev₀, sent, rfl, hjust⟩
      refine ⟨des, remote, rev₀, ?_, ?_, ?_⟩
      · simp [attemptHistory]
      · simp [attemptHistory]
      · exact hjust.in_order.subset (List.mem_append_right _ List.mem_cons_self)

/--
A diff names only managed users exactly when it finds nothing to do about the
desired foreign users; a call that reads only such lists leaves every foreign
user of the node as it was.
-/
theorem foreign_untouched_iff (opts : SyncOptions) :
    (forall des remote,
      (forall op, op ∈ ComputeDiff des remote opts.massDelete.toOptions ->
        HasPrefix op.username opts.massDelete.managed = true) <->
          LeavesForeign des remote opts.massDelete.toOptions) ∧
    (forall (t : List (SyncEvent ε))
      (q : Program SyncCall (SyncReply ε) (Result ε × Option (SyncError ε)))
      (m m' : String -> Option RemoteUser),
      Program.Steps (SyncNode opts) t q -> (anyNode ε).Answered m t m' ->
      (forall des remote rev, (⟨.ListDesired, .ok des⟩ : SyncEvent ε) ∈ t ->
        (⟨.ListUsers, .ok (remote, rev)⟩ : SyncEvent ε) ∈ t ->
          LeavesForeign des remote opts.massDelete.toOptions) ->
      forall name, HasPrefix name opts.massDelete.managed = false -> m' name = m name) := by
  constructor
  · intro des remote
    exact computeDiff_managed_iff des remote opts.massDelete.toOptions
  · intro t q m m' hsteps hans hleaves name hforeign
    apply answered_frame hans
    intro op hop heq
    subst heq
    rcases mutation_of_run hsteps hop with ⟨des, remote, rev, hdes, hlist, hmem⟩
    have hmanaged := (computeDiff_managed_iff des remote _).mpr
      (hleaves des remote rev hdes hlist) op hmem
    rw [show HasPrefix op.username opts.massDelete.managed = true from hmanaged] at hforeign
    cases hforeign

omit [RFC3339] [ClassifiedError ε] in
/-- A call that creates a managed user next to a foreign one. -/
theorem foreign_untouched_iff_sample :
    letI := sampleClock
    let admin : RemoteUser := ⟨"admin", false, none, none⟩
    let node : String -> Option RemoteUser := remoteByName [admin]
    let create : SyncOp := createOp ⟨"sub_1", "ee1", none, none⟩
    Function.update node "sub_1" (some create.created) "admin" = node "admin" :=
  letI := sampleClock
  let des : List DesiredUser := [⟨"sub_1", "ee1", none, none⟩]
  let node := remoteByName [⟨"admin", false, none, none⟩]
  let create : SyncOp := createOp ⟨"sub_1", "ee1", none, none⟩
  (foreign_untouched_iff (ε := Classification) { mode := .apply }).2
    [⟨.ListDesired, .ok des⟩, ⟨.ListUsers, .ok ([⟨"admin", false, none, none⟩], "r1")⟩,
      ⟨.ApplyOp create "r1", .ok "r2"⟩] _ node
    (Function.update node "sub_1" (some create.created))
    (.call (.call (.call (.refl _))))
    (.cons rfl (.cons rfl (.cons
      (fun name hname => Function.update_of_ne hname _ _) (.nil _))))
    (by
      intro des' remote rev hdes _ d hd hforeign
      have hdes' : des' = des := by
        simpa using hdes
      rw [hdes'] at hd
      rw [List.mem_singleton.mp hd] at hforeign
      exact absurd hforeign (by decide))
    "admin" (by decide)

omit [RFC3339] [ClassifiedError ε] in
/--
A panel user without the prefix meets a disabled user the operator made by hand:
the diff patches it, and a call of SyncNode enables it.
-/
theorem foreign_user_patched :
    letI := sampleClock
    let alice : RemoteUser := ⟨"alice", false, none, none⟩
    let des : List DesiredUser := [⟨"alice", "ee1", none, none⟩]
    let patch : SyncOp := patchOp "alice" { enabled := some true }
    let enabled : RemoteUser := ⟨"alice", true, none, none⟩
    HasPrefix "alice" ManagedPrefix = false ∧
    ComputeDiff des [alice] {} = [patch] ∧
    exists q m', Program.Steps (SyncNode { mode := .apply })
        ([⟨.ListDesired, .ok des⟩, ⟨.ListUsers, .ok ([alice], "r1")⟩,
          ⟨.ApplyOp patch "r1", .ok "r2"⟩] : List (SyncEvent Classification)) q ∧
      (anyNode Classification).Answered (remoteByName [alice])
        [⟨.ListDesired, .ok des⟩, ⟨.ListUsers, .ok ([alice], "r1")⟩,
          ⟨.ApplyOp patch "r1", .ok "r2"⟩] m' ∧
      m' = remoteByName (applyOp [alice] patch) ∧ m' "alice" = some enabled :=
  letI := sampleClock
  ⟨by decide, by decide, _, _, .call (.call (.call (.refl _))),
    .cons rfl (.cons rfl (.cons
      (fun _ hname => remoteByName_applyOp_other _ hname) (.nil _))), rfl, by decide⟩

end Calls

end Sync
end Telemux
