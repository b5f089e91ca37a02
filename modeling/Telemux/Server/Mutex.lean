import Telemux.Server.Daemon

/-!
# One pass at a time

The loop and any number of requests run passes; `runMu` lets one of them work.
-/

namespace Telemux
namespace Server

open Interaction Net Store Sync TelemtSync

variable {ε : Type}

section Steps

variable [ClassifiedError ε] [RFC3339] [Collation] [JsonStream] [TimeJSON]

/-- The pass of `runner` is between `Lock` and `Unlock`. -/
def Daemon.Holder (d : Daemon ε) (runner : Runner) : Prop :=
  exists p, d.passes runner = some p ∧ p.phase.Holds

structure Exclusive (d : Daemon ε) : Prop where
  locked : forall runner, d.Holder runner -> d.shared.runMu = true
  unique : forall runner runner', d.Holder runner -> d.Holder runner' -> runner = runner'

def mutexAfter (locked : Bool) : ServerCall ε -> Bool
  | .Lock => true
  | .Unlock => false
  | _ => locked

omit [ClassifiedError ε] [RFC3339] [Collation] [JsonStream] [TimeJSON] in
theorem mutexAfter_other {locked : Bool} {c : ServerCall ε} (hlock : c ≠ .Lock)
    (hunlock : c ≠ .Unlock) : mutexAfter locked c = locked := by
  cases c with
  | Lock => exact absurd rfl hlock
  | Unlock => exact absurd rfl hunlock
  | _ => rfl

omit [ClassifiedError ε] [JsonStream] [TimeJSON] in
theorem answers_runMu {s s' : Shared ε} {c : ServerCall ε} {r : ServerReply ε c}
    (hans : s.answers c r s') : s'.runMu = mutexAfter s.runMu c := by
  cases c with
  | Lock => exact hans.right ▸ rfl
  | Unlock => exact (show s' = _ from hans) ▸ rfl
  | setLastSync st => exact (show s' = _ from hans) ▸ rfl
  | _ =>
      exact answers_frame Shared.runMu (fun _ _ => rfl) (fun _ => rfl) (fun _ => rfl) hans
        nofun nofun nofun

omit [ClassifiedError ε] [RFC3339] [Collation] [JsonStream] [TimeJSON] in
theorem exclusive_of_holders {d d' : Daemon ε} (h : Exclusive d)
    (hholder : forall runner, d'.Holder runner -> d.Holder runner)
    (hrunMu : d'.shared.runMu = d.shared.runMu) : Exclusive d' := by
  constructor
  · intro runner hrunner
    rw [hrunMu]
    exact h.locked runner (hholder runner hrunner)
  · intro runner runner' hrunner hrunner'
    exact h.unique runner runner' (hholder runner hrunner) (hholder runner' hrunner')

omit [ClassifiedError ε] [RFC3339] [Collation] [JsonStream] [TimeJSON] in
theorem holder_start {d d' : Daemon ε} {runner runner' : Runner} {p : Pass ε}
    (hpasses : d'.passes = Function.update d.passes runner (some p)) (hp : p.phase = .waiting)
    (h : d'.Holder runner') : d.Holder runner' := by
  rcases h with ⟨p', hp', hholds⟩
  rw [hpasses] at hp'
  rcases update_some hp' with ⟨hnew, _⟩ | ⟨hold, _⟩
  · cases hnew
    rw [hp] at hholds
    exact absurd hholds not_holds_waiting
  · exact ⟨p', hold, hholds⟩

omit [ClassifiedError ε] [JsonStream] [TimeJSON] in
theorem pass_exclusive {d d' : Daemon ε} (hsound : Sound d) (h : Exclusive d)
    {runner : Runner} {c : ServerCall ε} {next : ServerReply ε c -> Handler ε} {ph : Phase}
    {n : Nat} {r : ServerReply ε c} (hp : d.passes runner = some ⟨.call c next, ph, n⟩)
    (hans : d.shared.answers c r d'.shared)
    (hpasses : d'.passes = Function.update d.passes runner (some ⟨next r, ph.next c, n⟩)) :
    Exclusive d' := by
  have howes : passOwes ph c := (hsound.passes runner _ hp).left
  have hrunMu := answers_runMu hans
  have hholder : forall runner', d'.Holder runner' ->
      (runner' = runner ∧ (ph.next c).Holds) ∨ (runner' ≠ runner ∧ d.Holder runner') := by
    intro runner' hrunner'
    rcases hrunner' with ⟨p, hp', hholds⟩
    rw [hpasses] at hp'
    rcases update_some hp' with ⟨hnew, hsame⟩ | ⟨hold, hother⟩
    · cases hnew
      exact Or.inl ⟨hsame, hholds⟩
    · exact Or.inr ⟨hother, p, hold, hholds⟩
  by_cases hlock : c = .Lock
  · subst hlock
    -- nobody held the mutex, so only this pass does
    have honly : forall runner', d'.Holder runner' -> runner' = runner := by
      intro runner' hrunner'
      rcases hholder runner' hrunner' with ⟨hsame, _⟩ | ⟨_, hold⟩
      · exact hsame
      · exact absurd ((h.locked runner' hold).symm.trans hans.left) nofun
    constructor
    · intro runner' _
      exact hrunMu
    · intro runner₁ runner₂ h₁ h₂
      rw [honly runner₁ h₁, honly runner₂ h₂]
  · by_cases hunlock : c = .Unlock
    · subst hunlock
      have hself : d.Holder runner := ⟨_, hp, Or.inr howes⟩
      have hnone : forall runner', ¬ d'.Holder runner' := by
        intro runner' hrunner'
        rcases hholder runner' hrunner' with ⟨_, hholds⟩ | ⟨hother, hold⟩
        · exact absurd hholds not_holds_released
        · exact hother (h.unique runner' runner hold hself)
      constructor
      · intro runner' hrunner'
        exact absurd hrunner' (hnone runner')
      · intro runner' _ hrunner' _
        exact absurd hrunner' (hnone runner')
    · apply exclusive_of_holders h
      · intro runner' hrunner'
        rcases hholder runner' hrunner' with ⟨rfl, hholds⟩ | ⟨_, hold⟩
        · exact ⟨_, hp, holds_before howes hlock hholds⟩
        · exact hold
      · rw [hrunMu, mutexAfter_other hlock hunlock]

omit [ClassifiedError ε] [JsonStream] [TimeJSON] in
theorem write_runMu {d : Daemon ε} (hsound : Sound d) {i : Nat} {c : ServerCall ε}
    {next : ServerReply ε c -> Handler ε} {hist : WriteHistory ε} {r : ServerReply ε c}
    {s : Shared ε} (hw : d.writes i = some ⟨.call c next, hist⟩)
    (hans : d.shared.answers c r s) : s.runMu = d.shared.runMu := by
  have howes : writeOwes hist c := (hsound.writes i _ hw).owes.left
  rw [answers_runMu hans]
  apply mutexAfter_other
  · intro hlock
    subst hlock
    exact howes
  · intro hunlock
    subst hunlock
    exact howes

theorem exclusive_step {opts : SyncOptions} {d d' : Daemon ε} {l : Label}
    (hsound : Sound d) (h : Exclusive d) (hstep : Step opts d l d') : Exclusive d' := by
  cases hstep with
  | outside table => exact exclusive_of_holders h (fun _ hrunner => hrunner) rfl
  | cancel => exact exclusive_of_holders h (fun _ hrunner => hrunner) rfl
  | request req _ => exact exclusive_of_holders h (fun _ hrunner => hrunner) rfl
  | write hw hans =>
      exact exclusive_of_holders h (fun _ hrunner => hrunner) (write_runMu hsound hw hans)
  | sync _ => exact exclusive_of_holders h (fun _ => holder_start rfl rfl) rfl
  | pass hp hans => exact pass_exclusive hsound h hp hans rfl
  | beaten _ => exact exclusive_of_holders h (fun _ => holder_start rfl rfl) rfl
  | ended _ =>
      refine exclusive_of_holders h ?_ rfl
      intro runner hrunner
      rcases hrunner with ⟨p, hp, hholds⟩
      rcases update_some hp with ⟨hnew, _⟩ | ⟨hold, _⟩
      · cases hnew
      · exact ⟨p, hold, hholds⟩
  | returned _ _ => exact exclusive_of_holders h (fun _ hrunner => hrunner) rfl
  | tick _ => exact exclusive_of_holders h (fun _ hrunner => hrunner) rfl
  | signal _ _ => exact exclusive_of_holders h (fun _ => holder_start rfl rfl) rfl

/-!
## Runs
-/

omit [ClassifiedError ε] [RFC3339] [Collation] [JsonStream] [TimeJSON] in
theorem exclusive_started (table : UsersTable) : Exclusive (Daemon.started (ε := ε) table) := by
  constructor
  · intro runner hrunner
    rcases hrunner with ⟨p, hp, _⟩
    cases hp
  · intro runner _ hrunner _
    rcases hrunner with ⟨p, hp, _⟩
    cases hp

/-- Never more than one pass is between `Lock` and `Unlock`. -/
theorem passes_exclusive {opts : SyncOptions} {table : UsersTable} {d : Daemon ε}
    {t : List Label} (hrun : Run (Step opts) (Daemon.started table) t d)
    {runner runner' : Runner} (h : d.Holder runner) (h' : d.Holder runner') :
    runner = runner' := by
  have hboth : Sound d ∧ Exclusive d := by
    apply hrun.invariant (I := fun _ d => Sound d ∧ Exclusive d)
    · exact ⟨sound_started table, exclusive_started table⟩
    · intro _ _ _ _ _ hboth hstep
      exact ⟨sound_step hboth.left hstep, exclusive_step hboth.left hboth.right hstep⟩
  exact hboth.right.unique runner runner' h h'

end Steps

/-- A request has locked the mutex. -/
theorem passes_exclusive_sample :
    letI := sampleClock
    letI := sampleCollation
    letI := sampleBodies
    letI := sampleTimes
    exists d : Daemon Classification,
      Run (Step { mode := .apply }) (Daemon.started sampleTable)
        [.sync 0, .sync 1, .pass (.request 0)] d ∧
      d.Holder (.request 0) ∧ forall runner, d.Holder runner -> .request 0 = runner := by
  let := sampleClock
  let := sampleCollation
  let := sampleBodies
  let := sampleTimes
  have hstart : Run (Step { mode := .apply })
      (Daemon.started (ε := Classification) sampleTable) [] _ := .refl _
  have hfirst := hstart.snoc (.sync (j := 0) rfl)
  have hsecond := hfirst.snoc (.sync (j := 1) rfl)
  have hlock : sampleShared.answers .Lock () { sampleShared with runMu := true } := ⟨rfl, rfl⟩
  have hrun := hsecond.snoc (l := .pass (.request 0)) (.pass rfl hlock)
  refine ⟨_, hrun, ⟨_, rfl, Or.inl rfl⟩, ?_⟩
  intro runner hrunner
  exact passes_exclusive hrun ⟨_, rfl, Or.inl rfl⟩ hrunner

end Server
end Telemux
