import Telemux.Cli.Sync
import Telemux.Sync.Concluded

/-!
# What the command `sync` does, and what its exit code says

Nothing is changed unless the arguments ask for it, and the exit code is 0 exactly
if the call returned without an error, was not stopped by the guard, and, where
changes were asked for, the node has acknowledged the whole diff.
-/

namespace Telemux
namespace Cli

open Interaction Sync Telemt TelemtSync

variable {ε α : Type}

/-!
## Only looking
-/

def Looks : SyncCall -> Prop
  | .ApplyOp _ _ => False
  | _ => True

def OnlyLooks : CliCall -> Prop
  | .Sync _ c => Looks c
  | _ => True

def cliLooking (ε : Type) : Contract CliCall (CliReply ε) (List (CliEvent ε)) :=
  Contract.onHistory fun _ => OnlyLooks

def looking (ε : Type) : Contract SyncCall (SyncReply ε) (List (CliEvent ε)) where
  owes _ := Looks
  answers _ _ _ _ := True

section Looking

variable [ClassifiedError ε] [RFC3339]

theorem syncNode_looks {opts : SyncOptions} (hmode : opts.mode = .shadow)
    (t : List (CliEvent ε)) :
    (looking ε).Meets (SyncNode opts) t fun _ _ => True := by
  apply syncNode_meets opts (J := fun _ _ _ _ => True) (I := fun _ _ _ _ _ _ _ => False)
    (Q := fun _ _ _ => True)
  · trivial
  · exact fun _ _ _ => trivial
  · intro des t _
    refine ⟨?_, trivial⟩
    constructor
    case exhausted => exact fun _ => trivial
    case owes => exact fun _ => trivial
    case listError => exact fun _ _ => trivial
    case aborted => exact fun _ _ _ => trivial
    case shadow => exact fun _ _ _ _ => trivial
    case start =>
      intro left res t remote rev t' _ _ _ happly
      rw [hmode] at happly
      cases happly
    case loop =>
      intro left remote
      exact ⟨False.elim, fun h => h.elim, fun h => h.elim, fun h => h.elim, fun h => h.elim,
        fun h => h.elim, fun h => h.elim⟩

variable [ErrorText ε]

omit [ClassifiedError ε] [RFC3339] in
theorem warnAll_looks (errs : List ε) (code : Nat) (t : List (CliEvent ε)) :
    (cliLooking ε).Meets (warnAll errs code) t fun _ _ => True := by
  induction errs generalizing t with
  | nil => trivial
  | cons err errs ih => exact ⟨trivial, fun _ t' _ => ih t'⟩

omit [ClassifiedError ε] [RFC3339] in
theorem report_looks (f : SyncFlags) (out : Result ε × Option (SyncError ε))
    (t : List (CliEvent ε)) :
    (cliLooking ε).Meets (report f out) t fun _ _ => True := by
  rcases out with ⟨res, _ | err⟩
  · refine ⟨trivial, ?_⟩
    intro _ t' _
    split
    · exact ⟨trivial, fun _ _ _ => trivial⟩
    · split
      · exact ⟨trivial, fun _ t'' _ => warnAll_looks _ _ t''⟩
      · trivial
  · exact ⟨trivial, fun _ _ _ => trivial⟩

theorem runSync_looks {args : List String}
    (happly : forall f, syncFlags.Parse args {} = some f -> f.apply = false) :
    (cliLooking ε).Meets (runSync (ε := ε) args) [] fun _ _ => True := by
  unfold runSync
  cases hparse : syncFlags.Parse args {} with
  | none => trivial
  | some f =>
      have hmode : f.options.mode = .shadow := by
        rw [SyncFlags.options, happly f hparse]
        rfl
      refine ⟨trivial, ?_⟩
      intro r t _
      cases r with
      | error err => exact ⟨trivial, fun _ _ _ => trivial⟩
      | ok _ =>
          apply Contract.meets_bind
          apply Contract.meets_mono (fun out t' _ => report_looks f out t')
          apply Contract.meets_interp _ (syncNode_looks hmode t)
          intro c t hlooks
          exact ⟨hlooks, fun _ _ _ => trivial⟩

end Looking

theorem syncFlags_apply : syncFlags.SetBy "apply" (·.apply) := by
  constructor
  · intro other v f _
    simp only [syncFlags]
    split
    · rfl
    · split
      · rfl
      · split
        · rfl
        · rfl
  · intro other b f hother
    simp only [syncFlags, if_neg hother]
    split
    · rfl
    · rfl

/--
Where no argument asks for changes, the command sends no operation to the node,
wherever it stops and whatever it is answered.
-/
theorem sync_only_looks [ClassifiedError ε] [ErrorText ε] [RFC3339] {args : List String}
    (hargs : forall arg, arg ∈ args -> ¬ Mentions "apply" arg) {p : CliProgram ε Nat}
    {t : List (CliEvent ε)} (hsteps : Program.Steps (runSync args) t p) :
    forall e, e ∈ t -> OnlyLooks e.call := by
  intro e he
  rcases List.append_of_mem he with ⟨u, v, rfl⟩
  rcases Program.steps_asked hsteps with ⟨next, hasked⟩
  have hlooks : (cliLooking ε).Meets (runSync args) [] fun _ _ => True := by
    apply runSync_looks
    intro f hparse
    exact parse_unmentioned syncFlags_apply hargs hparse
  exact Contract.owes_of_onHistory hlooks hasked

theorem not_mentions_force : ¬ Mentions "apply" "-force" := by
  intro hmentions
  rcases (mentions_iff (by decide)).mp hmentions with ⟨value, hsplit⟩
  have hforce : splitArgument "-force" = .flag "force" none := rfl
  rw [hforce] at hsplit
  injection hsplit with hname
  exact absurd hname (by decide)

/-- The command finds a user that is missing on the node, and only says so. -/
theorem sync_only_looks_sample :
    letI := sampleClock
    letI : ErrorText Classification := ⟨fun _ => "error"⟩
    exists t : List (CliEvent Classification), Program.Runs (runSync ["-force"]) t 0 ∧
      ⟨.Print "режим=shadow diff: create=1 patch=0 delete=0\n", ()⟩ ∈ t ∧
      forall e, e ∈ t -> OnlyLooks e.call := by
  let := sampleClock
  let : ErrorText Classification := ⟨fun _ => "error"⟩
  let client : Client := { BaseURL := "http://127.0.0.1:9091", AuthHeader := "" }
  let missing : DesiredUser := ⟨"sub_a", "ee", none, none⟩
  let line : String := diffLine .shadow ({ ops := [createOp missing] } : Result Classification)
  have hruns : Program.Runs (runSync ["-force"])
      ([⟨.Open "", .ok ()⟩, ⟨.Sync client .ListDesired, .ok [missing]⟩,
        ⟨.Sync client .ListUsers, .ok ([], "r1")⟩, ⟨.Print line, ()⟩] :
        List (CliEvent Classification)) 0 := .call (.call (.call (.call (.refl _))))
  have hline : line = "режим=shadow diff: create=1 patch=0 delete=0\n" := by decide +kernel
  exact ⟨_, hruns, by simp [hline],
    sync_only_looks (List.forall_mem_singleton.mpr not_mentions_force) hruns⟩

/-!
## What was sent
-/

/-- What an event of the command is to the call of `SyncNode`. -/
def syncEvent : CliEvent ε -> Option (SyncEvent ε)
  | ⟨.Sync _ c, r⟩ => some ⟨c, r⟩
  | ⟨.Open _, _⟩ => none
  | ⟨.Print _, _⟩ => none
  | ⟨.Warn _, _⟩ => none

def syncEvents (t : List (CliEvent ε)) : List (SyncEvent ε) :=
  t.filterMap syncEvent

theorem runs_of_interp {client : Client} {p : Program SyncCall (SyncReply ε) α}
    {t : List (CliEvent ε)} {a : α}
    (h : Program.Runs (p.interp fun c => .call (.Sync client c) .done) t a) :
    Program.Runs p (syncEvents t) a := by
  induction p generalizing t with
  | done b =>
      cases h
      exact .refl _
  | call c next ih =>
      cases h with
      | call hrest => exact .call (ih _ hrest)

/-!
## How a run of the command ends
-/

/-- When the command is content with what `SyncNode` returned. -/
structure Content (f : SyncFlags) (res : Result ε) (err : Option (SyncError ε)) : Prop where
  error : err = none
  aborted : res.aborted = false
  failed : f.apply = true -> res.failed = 0

section Runs

variable [ErrorText ε]

theorem warnAll_runs {errs : List ε} {code code' : Nat} {t : List (CliEvent ε)}
    (h : Program.Runs (warnAll errs code) t code') : syncEvents t = [] ∧ code' = code := by
  induction errs generalizing t with
  | nil =>
      cases h
      exact ⟨rfl, rfl⟩
  | cons err errs ih =>
      cases h with
      | call hrest =>
          have hend := ih hrest
          exact hend

theorem report_runs {f : SyncFlags} {res : Result ε} {err : Option (SyncError ε)} {code : Nat}
    {t : List (CliEvent ε)} (h : Program.Runs (report f (res, err)) t code) :
    syncEvents t = [] ∧ code ≤ 1 ∧ (code = 0 <-> Content f res err) := by
  cases err with
  | some err =>
      cases h with
      | call hrest =>
          cases hrest
          exact ⟨rfl, Nat.le_refl _, nofun, fun hcontent => nomatch hcontent.error⟩
  | none =>
      cases h with
      | call hrest =>
          cases haborted : res.aborted with
          | true =>
              simp only [haborted, if_true] at hrest
              cases hrest with
              | call hrest =>
                  cases hrest
                  refine ⟨rfl, Nat.le_refl _, nofun, ?_⟩
                  intro hcontent
                  rw [hcontent.aborted] at haborted
                  cases haborted
          | false =>
              cases happly : f.apply with
              | false =>
                  simp only [haborted, happly, Bool.false_eq_true, if_false] at hrest
                  cases hrest
                  refine ⟨rfl, Nat.zero_le _, fun _ => ⟨rfl, haborted, ?_⟩, fun _ => rfl⟩
                  intro htrue
                  rw [happly] at htrue
                  cases htrue
              | true =>
                  simp only [haborted, happly, Bool.false_eq_true, if_false, if_true] at hrest
                  cases hrest with
                  | call hrest =>
                      rcases warnAll_runs hrest with ⟨hsent, hcode⟩
                      refine ⟨hsent, ?_, ?_, ?_⟩
                      · rw [hcode]
                        split
                        · exact Nat.le_refl _
                        · exact Nat.zero_le _
                      · intro hzero
                        refine ⟨rfl, haborted, fun _ => ?_⟩
                        by_contra hfailed
                        rw [hzero, if_pos (Nat.pos_of_ne_zero hfailed)] at hcode
                        cases hcode
                      · intro hcontent
                        rw [hcode, hcontent.failed happly]
                        rfl

variable [ClassifiedError ε] [RFC3339]

theorem runSync_runs {args : List String} {f : SyncFlags} {code : Nat} {t : List (CliEvent ε)}
    (hparse : syncFlags.Parse args {} = some f) (hruns : Program.Runs (runSync args) t code) :
    (syncEvents t = [] ∧ code = 1) ∨
      exists res err, Program.Runs (SyncNode f.options) (syncEvents t) (res, err) ∧
        code ≤ 1 ∧ (code = 0 <-> Content f res err) := by
  unfold runSync at hruns
  rw [hparse] at hruns
  cases hruns with
  | @call _ _ r _ _ hrest =>
      cases r with
      | error err =>
          cases hrest with
          | call hrest =>
              cases hrest
              exact .inl ⟨rfl, rfl⟩
      | ok _ =>
          rcases Program.runs_bind hrest with ⟨u, v, ⟨res, err⟩, rfl, hu, hv⟩
          rcases report_runs hv with ⟨hsilent, hcode⟩
          have happend : syncEvents (u ++ v) = syncEvents u ++ syncEvents v :=
            List.filterMap_append
          rw [hsilent, List.append_nil] at happend
          have hsync := runs_of_interp hu
          rw [← happend] at hsync
          exact .inr ⟨res, err, hsync, hcode⟩

end Runs

/-!
## The exit code
-/

section ExitCode

variable [ClassifiedError ε] [RFC3339]

/--
All that was asked for has been done: both lists were read, the guard has let the
diff of the last reading through, and where changes were asked for, that diff was
sent operation by operation, and the node has acknowledged each.
-/
def Done (f : SyncFlags) (t : List (SyncEvent ε)) : Prop :=
  exists des before remote rev sent, t = attemptHistory des before remote rev sent ∧
    f.options.stops des remote = false ∧ (forall e, e ∈ sent -> acknowledged e = true) ∧
    mutations sent = if f.apply then f.options.diff des remote else []

theorem acknowledged_of_failures {opts : SyncOptions} {des : List DesiredUser}
    {remote : List RemoteUser} {res : Result ε} {t : List (SyncEvent ε)}
    (h : Through opts des remote res t) (hfailures : failures (lastAttempt t) = []) :
    forall e, e ∈ lastAttempt t -> acknowledged e = true := by
  intro e he
  rcases h.answered e he with hdone | hfailed
  · exact hdone
  · rw [List.filterMap_eq_nil_iff.mp hfailures e he] at hfailed
    cases hfailed

theorem lastAttempt_of_lastSent {opts : SyncOptions} {des : List DesiredUser}
    {remote : List RemoteUser} {res : Result ε} {t : List (SyncEvent ε)}
    (h : Through opts des remote res t) (hsent : lastSent t = []) : lastAttempt t = [] := by
  apply List.eq_nil_iff_forall_not_mem.mpr
  intro e he
  have hmutation := mutation_of_answered (h.answered e he)
  rw [List.filterMap_eq_nil_iff.mp hsent e he] at hmutation
  cases hmutation

theorem done_of_content {f : SyncFlags} {res : Result ε} {err : Option (SyncError ε)}
    {t : List (SyncEvent ε)} (hconcluded : Concluded f.options res err t)
    (hbooked : Booked f.options res err t) (haccounted : Accounted res t)
    (h : Content f res err) : Done f t := by
  rcases hconcluded.left h.error with ⟨des, remote, hthrough⟩
  rcases hthrough.read with ⟨before, rev, ht⟩
  refine ⟨des, before, remote, rev, lastAttempt t, ht, ?_, ?_⟩
  · rw [← hthrough.aborted, h.aborted]
  · cases happly : f.apply with
    | true =>
        have hmode : f.options.mode = .apply := by
          rw [SyncFlags.options, happly]
          rfl
        have hnone : failures (lastAttempt t) = [] := by
          apply List.eq_nil_of_length_eq_zero
          rw [← haccounted.left.failed, h.failed happly]
        refine ⟨acknowledged_of_failures hthrough hnone, ?_⟩
        rw [if_pos rfl, ← hthrough.ops]
        exact (hbooked.complete h.error hmode h.aborted).left
    | false =>
        have hmode : f.options.mode = .shadow := by
          rw [SyncFlags.options, happly]
          rfl
        have hsent := (hbooked.shadow hmode).left
        refine ⟨?_, hsent⟩
        intro e he
        rw [lastAttempt_of_lastSent hthrough hsent] at he
        cases he

theorem content_of_done {f : SyncFlags} {res : Result ε} {err : Option (SyncError ε)}
    {t : List (SyncEvent ε)} (hconcluded : Concluded f.options res err t)
    (haccounted : Accounted res t) (h : Done f t) : Content f res err := by
  rcases h with ⟨des, before, remote, rev, sent, rfl, hstops, hsent, _⟩
  have herror : err = none := by
    by_contra herr
    exact not_refused_history hsent (hconcluded.right herr)
  rcases hconcluded.left herror with ⟨des', remote', hthrough⟩
  rcases hthrough.read with ⟨before', rev', ht⟩
  rw [lastAttempt_history hsent] at ht
  rcases attemptHistory_inj ht with ⟨rfl, rfl⟩
  refine ⟨herror, hthrough.aborted.trans hstops, ?_⟩
  intro _
  have hfailures : failures sent = [] :=
    List.filterMap_eq_nil_iff.mpr fun e he => failure_of_acknowledged (hsent e he)
  rw [haccounted.left.failed, lastAttempt_history hsent, hfailures]
  rfl

variable [ErrorText ε]

/-- The exit code is 2 for arguments that are not understood, and 0 if all is done. -/
theorem sync_exit_code {args : List String} {code : Nat} {t : List (CliEvent ε)}
    (hruns : Program.Runs (runSync args) t code) :
    code ≤ 2 ∧ (code = 2 <-> syncFlags.Parse args {} = none) ∧
      (code = 0 <-> exists f, syncFlags.Parse args {} = some f ∧ Done f (syncEvents t)) := by
  cases hparse : syncFlags.Parse args {} with
  | none =>
      unfold runSync at hruns
      rw [hparse] at hruns
      cases hruns
      exact ⟨Nat.le_refl _, ⟨fun _ => rfl, fun _ => rfl⟩, nofun, fun h => nomatch h⟩
  | some f =>
      rcases runSync_runs hparse hruns with hclosed | hcalled
      · rcases hclosed with ⟨hnone, rfl⟩
        refine ⟨Nat.le_succ _, ⟨nofun, nofun⟩, nofun, ?_⟩
        intro hdone
        rcases hdone with ⟨_, _, des, before, remote, rev, sent, ht, _⟩
        rw [hnone] at ht
        cases ht
      · rcases hcalled with ⟨res, err, hsync, hcode, hcontent⟩
        have hans : traced.Answered [] (syncEvents t) (syncEvents t) :=
          Contract.answered_onHistory _ [] _
        have hconcluded := Contract.post_of_runs (syncNode_concluded f.options) hsync hans
        have hbooked := Contract.post_of_runs (syncNode_booked f.options) hsync hans
        have haccounted := Contract.post_of_runs (syncNode_accounted f.options) hsync hans
        refine ⟨Nat.le_succ_of_le hcode, ⟨?_, nofun⟩, ?_, ?_⟩
        · intro htwo
          rw [htwo] at hcode
          exact absurd hcode (by decide)
        · intro hzero
          exact ⟨f, rfl, done_of_content hconcluded hbooked haccounted (hcontent.mp hzero)⟩
        · intro hdone
          rcases hdone with ⟨g, hg, hdone⟩
          cases hg
          exact hcontent.mpr (content_of_done hconcluded haccounted hdone)

end ExitCode

theorem sync_exit_code_sample :
    letI := sampleClock
    letI : ErrorText Classification := ⟨fun _ => "error"⟩
    let client : Client := { BaseURL := "http://127.0.0.1:9091", AuthHeader := "" }
    let create : SyncOp := createOp ⟨"sub_1", "ee", none, none⟩
    let res : Result Classification := { ops := [create], applied := 1 }
    let t : List (CliEvent Classification) :=
      [⟨.Open "", .ok ()⟩, ⟨.Sync client .ListDesired, .ok [⟨"sub_1", "ee", none, none⟩]⟩,
        ⟨.Sync client .ListUsers, .ok ([], "r1")⟩,
        ⟨.Sync client (.ApplyOp create "r1"), .ok "r2"⟩,
        ⟨.Print (diffLine .apply res), ()⟩, ⟨.Print (appliedLine res), ()⟩]
    0 ≤ 2 ∧ (0 = 2 <-> syncFlags.Parse ["-apply"] {} = none) ∧
      (0 = 0 <-> exists f, syncFlags.Parse ["-apply"] {} = some f ∧ Done f (syncEvents t)) :=
  letI := sampleClock
  letI : ErrorText Classification := ⟨fun _ => "error"⟩
  sync_exit_code (.call (.call (.call (.call (.call (.call (.refl _)))))))

end Cli
end Telemux
