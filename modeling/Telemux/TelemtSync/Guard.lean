import Mathlib.Algebra.Order.Field.Rat
import Mathlib.Tactic.Positivity
import Telemux.TelemtSync.Plan

/-!
# What the mass-delete guard catches

The guard counts the deletes of a diff and compares them with the managed users
of the list.  Both numbers are about sets of users: who is managed, and who of
those is not desired.
-/

namespace Telemux
namespace TelemtSync

open Reconcile

/-!
## The two sets
-/

def managedUsers (remote : List RemoteUser) (opts : Options) : List RemoteUser :=
  remote.filter fun r => HasPrefix r.username opts.managed

def undesiredUsers (desired : List DesiredUser) (remote : List RemoteUser)
    (opts : Options) : List RemoteUser :=
  (managedUsers remote opts).filter fun r =>
    decide (forall d, d ∈ desired -> d.username ≠ r.username)

theorem undesiredUsers_length_le (desired : List DesiredUser) (remote : List RemoteUser)
    (opts : Options) :
    (undesiredUsers desired remote opts).length ≤ (managedUsers remote opts).length :=
  List.length_filter_le _ _

theorem undesiredUsers_antitone {desired desired' : List DesiredUser}
    (hsub : forall d, d ∈ desired' -> exists e, e ∈ desired ∧ e.username = d.username)
    (remote : List RemoteUser) (opts : Options) :
    (undesiredUsers desired remote opts).length ≤
      (undesiredUsers desired' remote opts).length := by
  unfold undesiredUsers
  rw [← List.countP_eq_length_filter, ← List.countP_eq_length_filter]
  apply List.countP_mono_left
  intro r _ hr
  rw [decide_eq_true_eq] at hr ⊢
  intro d hd
  rcases hsub d hd with ⟨e, he, hname⟩
  rw [← hname]
  exact hr e he

theorem undesiredUsers_nil (remote : List RemoteUser) (opts : Options) :
    undesiredUsers [] remote opts = managedUsers remote opts := by
  unfold undesiredUsers
  rw [List.filter_eq_self]
  intro r _
  simp

/-!
## The metrics
-/

section Guard

variable [RFC3339]

omit [RFC3339] in
theorem deleteFor_isSome (desired : List DesiredUser) (opts : Options) (r : RemoteUser) :
    (deleteFor desired opts.managed r).isSome =
      (HasPrefix r.username opts.managed &&
        decide (forall d, d ∈ desired -> d.username ≠ r.username)) := by
  rw [Bool.eq_iff_iff, Bool.and_eq_true, decide_eq_true_eq, Option.isSome_iff_exists]
  constructor
  · intro hdelete
    rcases hdelete with ⟨op, hop⟩
    rcases deleteFor_some.mp hop with ⟨hpre, hnone, _⟩
    exact ⟨hpre, lookup_eq_none_iff.mp hnone⟩
  · intro hundesired
    exact ⟨_, deleteFor_some.mpr ⟨hundesired.left, lookup_eq_none_iff.mpr hundesired.right, rfl⟩⟩

theorem computeSafety_deleteCount (desired : List DesiredUser) (remote : List RemoteUser)
    (opts : Options) :
    (ComputeSafety (ComputeDiff desired remote opts) remote opts).deleteCount =
      (undesiredUsers desired remote opts).length := by
  have hcreates : (desired.filterMap (createFor remote)).filter
      (fun o => decide (o.kind = .delete)) = [] := by
    rw [List.filter_eq_nil_iff]
    intro op hop
    rcases List.mem_filterMap.mp hop with ⟨d, _, hd⟩
    rw [(createFor_some.mp hd).right]
    simp [createOp]
  have hpatches : (desired.filterMap (patchFor remote)).filter
      (fun o => decide (o.kind = .delete)) = [] := by
    rw [List.filter_eq_nil_iff]
    intro op hop
    rcases List.mem_filterMap.mp hop with ⟨d, _, hd⟩
    rcases patchFor_some.mp hd with ⟨r, _, _, rfl⟩
    simp [patchOp]
  have hdeletes : (remote.filterMap (deleteFor desired opts.managed)).filter
      (fun o => decide (o.kind = .delete)) =
      remote.filterMap (deleteFor desired opts.managed) := by
    rw [List.filter_eq_self]
    intro op hop
    rcases List.mem_filterMap.mp hop with ⟨r, _, hr⟩
    rw [(deleteFor_some.mp hr).right.right]
    rfl
  unfold ComputeSafety ComputeDiff undesiredUsers managedUsers
  dsimp only
  rw [List.filter_append, List.filter_append, hcreates, hpatches, hdeletes, List.nil_append,
    List.nil_append, List.length_filterMap_eq_countP, List.filter_filter,
    ← List.countP_eq_length_filter]
  apply List.countP_congr
  intro r _
  rw [deleteFor_isSome, Bool.and_comm]

omit [RFC3339] in
theorem deleteFraction_mul (ops : List SyncOp) (remote : List RemoteUser) (opts : Options)
    (hle : (ComputeSafety ops remote opts).deleteCount ≤ (managedUsers remote opts).length) :
    (ComputeSafety ops remote opts).deleteFraction * (managedUsers remote opts).length =
      (ComputeSafety ops remote opts).deleteCount := by
  unfold ComputeSafety managedUsers at *
  dsimp only at *
  split
  · rename_i htotal
    have hne : ((remote.filter fun r => HasPrefix r.username opts.managed).length : Rat) ≠ 0 :=
      Nat.cast_ne_zero.mpr (Nat.pos_iff_ne_zero.mp htotal)
    exact div_mul_cancel₀ _ hne
  · rename_i htotal
    have hzero : (remote.filter fun r => HasPrefix r.username opts.managed).length = 0 :=
      Nat.eq_zero_of_not_pos htotal
    rw [hzero] at hle
    rw [Nat.le_zero.mp hle, Nat.cast_zero, zero_mul]

/-!
## The verdict
-/

theorem isMassDelete_iff {opts : MassDeleteOptions} (hfraction : 0 < opts.fractionThreshold)
    (hmin : 1 ≤ opts.minDeletes) (desired : List DesiredUser) (remote : List RemoteUser) :
    IsMassDelete (ComputeDiff desired remote opts.toOptions) remote opts = true <->
      opts.minDeletes ≤ (undesiredUsers desired remote opts.toOptions).length ∧
        opts.fractionThreshold * (managedUsers remote opts.toOptions).length <
          (undesiredUsers desired remote opts.toOptions).length := by
  have hcount := computeSafety_deleteCount desired remote opts.toOptions
  have hle := undesiredUsers_length_le desired remote opts.toOptions
  have hmul := deleteFraction_mul (ComputeDiff desired remote opts.toOptions) remote
    opts.toOptions (hcount ▸ hle)
  have hmin_ne : opts.minDeletes ≠ 0 := by omega
  unfold IsMassDelete
  rw [if_neg hfraction.ne', if_neg hmin_ne]
  dsimp only
  rw [Bool.and_eq_true, decide_eq_true_eq, decide_eq_true_eq, hcount]
  rw [hcount] at hmul
  apply and_congr_right
  intro hdeletes
  -- at least one user is managed, so the fraction is one of positive numbers
  have htotal : (0 : Rat) < (managedUsers remote opts.toOptions).length := by
    rw [Nat.cast_pos]
    omega
  rw [gt_iff_lt, ← hmul]
  exact (mul_lt_mul_iff_left₀ htotal).symm

theorem deleteFraction_bounds (desired : List DesiredUser) (remote : List RemoteUser)
    (opts : Options) :
    0 ≤ (ComputeSafety (ComputeDiff desired remote opts) remote opts).deleteFraction ∧
      (ComputeSafety (ComputeDiff desired remote opts) remote opts).deleteFraction ≤ 1 := by
  have hle := undesiredUsers_length_le desired remote opts
  rw [← computeSafety_deleteCount desired remote opts] at hle
  unfold ComputeSafety managedUsers at *
  dsimp only at *
  split
  · rename_i htotal
    constructor
    · positivity
    · rw [div_le_one (Nat.cast_pos.mpr htotal)]
      exact Nat.cast_le.mpr hle
  · exact ⟨le_refl 0, zero_le_one⟩

/-- The guard is about sets of users, and a smaller set of desired names trips it too. -/
theorem guard_catches_shrinks {opts : MassDeleteOptions} (hfraction : 0 < opts.fractionThreshold)
    (hmin : 1 ≤ opts.minDeletes) (remote : List RemoteUser) :
    (forall desired,
      let ops := ComputeDiff desired remote opts.toOptions
      let safety := ComputeSafety ops remote opts.toOptions
      let undesired := (undesiredUsers desired remote opts.toOptions).length
      let managed := (managedUsers remote opts.toOptions).length
      (IsMassDelete ops remote opts = true <->
          opts.minDeletes ≤ undesired ∧ opts.fractionThreshold * managed < undesired) ∧
        undesired ≤ managed ∧ safety.deleteCount = undesired ∧
        safety.totalRemoteManaged = managed ∧ safety.deleteFraction * managed = undesired ∧
        0 ≤ safety.deleteFraction ∧ safety.deleteFraction ≤ 1) ∧
    (forall desired desired',
      (forall d, d ∈ desired' -> exists e, e ∈ desired ∧ e.username = d.username) ->
      IsMassDelete (ComputeDiff desired remote opts.toOptions) remote opts = true ->
      IsMassDelete (ComputeDiff desired' remote opts.toOptions) remote opts = true) ∧
    (opts.fractionThreshold < 1 ->
      opts.minDeletes ≤ (managedUsers remote opts.toOptions).length ->
      IsMassDelete (ComputeDiff [] remote opts.toOptions) remote opts = true) := by
  refine ⟨?_, ?_, ?_⟩
  · intro desired
    have hcount := computeSafety_deleteCount desired remote opts.toOptions
    have hle := undesiredUsers_length_le desired remote opts.toOptions
    have hmul := deleteFraction_mul (ComputeDiff desired remote opts.toOptions) remote
      opts.toOptions (hcount ▸ hle)
    rw [hcount] at hmul
    exact ⟨isMassDelete_iff hfraction hmin desired remote, hle, hcount, rfl, hmul,
      deleteFraction_bounds desired remote opts.toOptions⟩
  · intro desired desired' hsub hcaught
    rw [isMassDelete_iff hfraction hmin] at hcaught ⊢
    have hmono := undesiredUsers_antitone hsub remote opts.toOptions
    exact ⟨hcaught.left.trans (Int.ofNat_le.mpr hmono),
      hcaught.right.trans_le (Nat.cast_le.mpr hmono)⟩
  · intro hless hmanaged
    rw [isMassDelete_iff hfraction hmin, undesiredUsers_nil]
    refine ⟨hmanaged, ?_⟩
    have htotal : (0 : Rat) < (managedUsers remote opts.toOptions).length := by
      rw [Nat.cast_pos]
      omega
    exact (mul_lt_iff_lt_one_left htotal).mpr hless

end Guard

section Sample

def sampleGuard : MassDeleteOptions where
  fractionThreshold := 1 / 2
  minDeletes := 2

def sampleListed : List RemoteUser :=
  [⟨"sub_1", true, none, none⟩, ⟨"sub_2", true, none, none⟩, ⟨"sub_3", true, none, none⟩,
    ⟨"admin", true, none, none⟩]

theorem guard_catches_shrinks_sample :
    letI := sampleClock
    IsMassDelete (ComputeDiff [⟨"sub_1", "ee", none, none⟩] sampleListed sampleGuard.toOptions)
        sampleListed sampleGuard = true ∧
      IsMassDelete (ComputeDiff [] sampleListed sampleGuard.toOptions) sampleListed
        sampleGuard = true := by
  let := sampleClock
  have hfraction : 0 < sampleGuard.fractionThreshold := by decide +kernel
  have hmin : 1 ≤ sampleGuard.minDeletes := by decide
  have hcatches := guard_catches_shrinks hfraction hmin sampleListed
  constructor
  · rw [(hcatches.left _).left]
    decide +kernel
  · exact hcatches.right.right (by decide +kernel) (by decide)

end Sample

end TelemtSync
end Telemux
