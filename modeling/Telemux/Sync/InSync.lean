import Telemux.Sync.StaleWrite

/-!
# What a clean result says about the node

A call that returns without an error, an abort or a failed operation has not
seen the node in its target state: an operation the node answers with
AlreadyDone is skipped, whatever the user it found there looks like.  This module
says what such a call does know.
-/

namespace Telemux
namespace Sync

open Interaction TelemtSync

section Clean

variable {σ ε : Type} [ClassifiedError ε] [RFC3339]
variable {N : FaithfulNode σ ε} {opts : SyncOptions} {des : List DesiredUser} {base now : σ}
variable {res : Result ε} {log : Log σ}

theorem skipped_of_missing (hdes : DistinctDesired des)
    (h : Progress N.toNodeModel opts des base now [] res log) (hfailed : res.failed = 0)
    {op : SyncOp} (hop : op ∈ opts.diff des (N.users now)) :
    SkippedAt N.toNodeModel op log.since := by
  have hbase := N.users_distinct base
  have hsub : List.Sublist log.acked (opts.diff des (N.users base)) := by
    simpa using h.in_order
  have hnodup := hsub.nodup (computeDiff_nodup hdes hbase opts.massDelete.toOptions)
  have heffect := acknowledged_effect N h.acknowledged
  have hleft : op ∈
      (opts.diff des (N.users base)).filter fun o => decide (o ∉ log.acked) := by
    have hremainder := computeDiff_remainder hdes hbase hsub.subset hnodup
    rw [SyncOptions.diff, ← hremainder]
    exact (mem_computeDiff_congr hdes heffect opts.massDelete.toOptions op).mp hop
  rcases List.mem_filter.mp hleft with ⟨hplanned, hnot⟩
  rcases h.all_answered hfailed op hplanned with hacked | hrest | hskip
  · simp [hacked] at hnot
  · cases hrest
  · exact hskip

theorem inTarget_of_no_skip (hdes : DistinctDesired des)
    (h : Progress N.toNodeModel opts des base now [] res log) (hfailed : res.failed = 0)
    (hskipped : res.skipped = 0) :
    InTarget des opts.massDelete.toOptions (N.users now) := by
  have hall : log.acked = opts.diff des (N.users base) := by
    simpa using h.all_acked hfailed hskipped
  have htarget : InTarget des opts.massDelete.toOptions
      (applyOps (N.users base) log.acked) :=
    applyOps_inTarget hdes (N.users_distinct base) (by rw [hall, SyncOptions.diff])
  exact inTarget_congr (acknowledged_effect N h.acknowledged).symm htarget

/--
At some moment since its last list a call that returned clean left nothing to do
but operations the node says are done already, so nothing at all if it skipped
none.  The user of such a create was on the node at some moment since that list,
and the user of such a delete was not.
-/
theorem clean_call_in_sync (N : FaithfulNode σ ε) (opts : SyncOptions) (s : σ)
    {y : System σ ε} {des : List DesiredUser} (res : Result ε)
    (hdes : DistinctDesired des) (hmode : opts.mode = .apply)
    (hrun : Run N.toNodeModel (initial opts s) y) (hreturned : y.left = .done (res, none))
    (hdesired : y.log.desired = some des) (hnot_aborted : res.aborted = false)
    (hfailed : res.failed = 0) :
    exists now, now ∈ y.log.since ∧
      (res.skipped = 0 -> InTarget des opts.massDelete.toOptions (N.users now)) ∧
      forall op, op ∈ opts.diff des (N.users now) ->
        SkippedAt N.toNodeModel op y.log.since ∧
        (op.kind ≠ .patch -> exists s', s' ∈ y.log.since ∧
          ((remoteByName (N.users s') op.username).isSome = true <-> op.kind = .create)) := by
  have hsound := sound_run hrun
  rcases hsound.left_meets with ⟨log₀, ⟨since, hsub, hlog⟩, hmeets⟩
  rw [hreturned] at hmeets
  rcases hmeets rfl hmode hnot_aborted with ⟨des', base, now, h⟩
  have hsame : des' = des := by
    have hdesired' := h.desired
    rw [hlog] at hdesired
    exact Option.some.inj (hdesired'.symm.trans hdesired)
  rw [hsame] at h
  refine ⟨now, ?_, inTarget_of_no_skip hdes h hfailed, ?_⟩
  · rw [hlog]
    exact hsub h.seen
  · intro op hop
    have hskipped : SkippedAt N.toNodeModel op y.log.since := by
      rw [hlog]
      exact skippedAt_mono hsub (skipped_of_missing hdes h hfailed hop)
    refine ⟨hskipped, ?_⟩
    intro _
    rcases hskipped with ⟨s', ifMatch, err, hs', href, hclass⟩
    exact ⟨s', hs', N.refuses_done href hclass⟩

end Clean

/-!
## A clean call, and one that never saw the target
-/

/-- A create, acknowledged. -/
theorem clean_call_in_sync_sample :
    letI := sampleClock
    let d : DesiredUser := ⟨"sub_1", "ee1", none, some 8⟩
    let empty : UserConfig := ⟨[], by decide⟩
    let created : UserConfig := ⟨[(createOp d).created], by decide⟩
    exists now, now ∈ [created, empty] ∧
      (0 = 0 -> InTarget [d] {} (telemtNode.users now)) ∧
      forall op, op ∈ ({ mode := .apply } : SyncOptions).diff [d] (telemtNode.users now) ->
        SkippedAt telemtNode.toNodeModel op [created, empty] ∧
        (op.kind ≠ .patch -> exists s', s' ∈ [created, empty] ∧
          ((remoteByName (telemtNode.users s') op.username).isSome = true <->
            op.kind = .create)) :=
  letI := sampleClock
  let d : DesiredUser := ⟨"sub_1", "ee1", none, some 8⟩
  let empty : UserConfig := ⟨[], by decide⟩
  let created : UserConfig := ⟨[(createOp d).created], by decide⟩
  clean_call_in_sync telemtNode { mode := .apply } empty
    { ops := [createOp d], applied := 1 } (by decide) rfl
    (.step (.step (.step (.step (.step (.refl _) (.desired [d] rfl)) (.list rfl))
      (.send rfl rfl)) (.perform created rfl (fun _ => rfl) rfl)) (.success rfl rfl))
    rfl rfl rfl rfl

/--
After the list somebody else creates the user, disabled and without the limit.
The create is answered user_exists and skipped, and the call returns clean.
-/
theorem clean_call_never_in_sync :
    letI := sampleClock
    let d : DesiredUser := ⟨"sub_1", "ee1", none, some 8⟩
    let empty : UserConfig := ⟨[], by decide⟩
    exists y res, Run telemtNode.toNodeModel (initial { mode := .apply } empty) y ∧
      y.left = .done (res, none) ∧ y.log.desired = some [d] ∧ DistinctDesired [d] ∧
      res.aborted = false ∧ res.failed = 0 ∧
      forall now, now ∈ y.log.since -> ¬ InTarget [d] {} (telemtNode.users now) := by
  let := sampleClock
  let d : DesiredUser := ⟨"sub_1", "ee1", none, some 8⟩
  let empty : UserConfig := ⟨[], by decide⟩
  let taken : UserConfig := ⟨[⟨"sub_1", false, none, none⟩], by decide⟩
  have hrefused : telemtNode.refuses (createOp d) (configRevision empty) taken
      ⟨false, false, true⟩ := Or.inl ⟨rfl, by decide⟩
  have hrun : Run telemtNode.toNodeModel (initial { mode := .apply } empty) _ :=
    .step (.step (.step (.step (.step (.step (.refl _) (.desired [d] rfl)) (.list rfl))
      (.write taken)) (.send rfl rfl)) (.refuse rfl hrefused)) (.refusal rfl rfl)
  refine ⟨_, { ops := [createOp d], skipped := 1 }, hrun, rfl, rfl, by decide, rfl, rfl, ?_⟩
  intro now hnow
  rw [← computeDiff_nil_iff]
  have hstates : now ∈ [taken, empty] := hnow
  simp only [List.mem_cons, List.not_mem_nil, or_false] at hstates
  rcases hstates with rfl | rfl
  · decide
  · decide

end Sync
end Telemux
