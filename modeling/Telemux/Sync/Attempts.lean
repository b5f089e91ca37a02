import Telemux.Sync.Account

/-!
# The retry loop

The events of a SyncNode call come in attempts: a list of the node's users, then
operations of the diff against it.  An attempt is followed by another only after
a revision conflict, and a call that runs out of attempts says so.
-/

namespace Telemux
namespace Sync

open Interaction TelemtSync

variable {ε : Type} [ClassifiedError ε]

/-!
## Attempts
-/

def IsAttempt (a : List (SyncEvent ε)) : Prop :=
  exists listed sent, a = ⟨.ListUsers, listed⟩ :: sent ∧
    forall e, e ∈ sent -> (mutation e).isSome = true

def EndsInConflict (a : List (SyncEvent ε)) : Prop :=
  a.getLast?.bind replyClass = some .revisionConflict

theorem not_endsInConflict {a : List (SyncEvent ε)}
    (h : forall e, e ∈ a -> replyClass e ≠ some .revisionConflict) : ¬ EndsInConflict a := by
  intro hend
  rcases Option.bind_eq_some_iff.mp hend with ⟨e, hlast, hclass⟩
  exact h e (List.mem_of_getLast? hlast) hclass

/-- What a call in apply mode that went through the attempts `as` returns. -/
structure Retried (opts : SyncOptions) (as : List (List (SyncEvent ε))) (res : Result ε)
    (err : Option (SyncError ε)) : Prop where
  each : forall a, a ∈ as -> IsAttempt a
  bounded : (as.length : Int) ≤ opts.maxRetry + 1
  /-- It does not converge exactly when every attempt there may be meets a conflict. -/
  exhausted : (exists maxRetry, err = some (.notConverged maxRetry)) <->
    (as.length : Int) = opts.maxRetry + 1 ∧ forall a, a ∈ as -> EndsInConflict a
  /-- A clean return has sent every operation of the last attempt, once and in order. -/
  complete : err = none -> res.aborted = false ->
    exists before listed rev sent,
      as = before ++ [⟨.ListUsers, .ok (listed, rev)⟩ :: sent] ∧
        mutations sent = res.ops ∧
        res.applied + res.skipped + res.failed = res.ops.length ∧
        res.errors.length = res.failed

/-- The attempts of a call that has yet to make `left` more. -/
structure Conflicted (opts : SyncOptions) (as : List (List (SyncEvent ε))) (left : Nat) :
    Prop where
  each : forall a, a ∈ as -> IsAttempt a
  conflicts : forall a, a ∈ as -> EndsInConflict a
  left : ((as.length + left : Nat) : Int) = opts.maxRetry + 1

/-- The attempt after the attempts `as`, which has sent `sent` and has yet to send `rest`. -/
structure Attempting (opts : SyncOptions) (as : List (List (SyncEvent ε))) (left : Nat)
    (sent : List (SyncEvent ε)) (rest : List SyncOp) (res : Result ε) : Prop where
  before : Conflicted opts as (left + 1)
  only_mutations : forall e, e ∈ sent -> (mutation e).isSome = true
  not_conflict : forall e, e ∈ sent -> replyClass e ≠ some .revisionConflict
  split : mutations sent ++ rest = res.ops
  counted : res.applied + res.skipped + res.failed + rest.length = res.ops.length
  errors : res.errors.length = res.failed

theorem retried_of_conflicted {opts : SyncOptions} {as : List (List (SyncEvent ε))}
    {left : Nat} {a : List (SyncEvent ε)} {res : Result ε} {err : Option (SyncError ε)}
    (h : Conflicted opts as (left + 1)) (ha : IsAttempt a)
    (hclass : forall e, e ∈ a -> replyClass e ≠ some .revisionConflict)
    (herr : forall maxRetry, err ≠ some (.notConverged maxRetry))
    (hcomplete : err = none -> res.aborted = false ->
      exists listed rev sent, a = ⟨.ListUsers, .ok (listed, rev)⟩ :: sent ∧
        mutations sent = res.ops ∧
        res.applied + res.skipped + res.failed = res.ops.length ∧
        res.errors.length = res.failed) :
    Retried opts (as ++ [a]) res err := by
  constructor
  · exact List.forall_mem_append.mpr ⟨h.each, List.forall_mem_singleton.mpr ha⟩
  · have hleft := h.left
    rw [List.length_append, List.length_singleton]
    omega
  · constructor
    · intro hgave
      rcases hgave with ⟨maxRetry, heq⟩
      exact absurd heq (herr maxRetry)
    · intro hall
      have hlast : a ∈ as ++ [a] := by simp
      exact absurd (hall.right a hlast) (not_endsInConflict hclass)
  · intro hnone hgoing
    rcases hcomplete hnone hgoing with ⟨listed, rev, sent, rfl, hfields⟩
    exact ⟨as, listed, rev, sent, rfl, hfields⟩

theorem retried_of_listing {opts : SyncOptions} {as : List (List (SyncEvent ε))} {left : Nat}
    {r : Except ε (List RemoteUser × String)} {res : Result ε} {err : Option (SyncError ε)}
    (h : Conflicted opts as (left + 1))
    (herr : forall maxRetry, err ≠ some (.notConverged maxRetry))
    (hstopped : err = none -> res.aborted = true) :
    Retried opts (as ++ [[⟨.ListUsers, r⟩]]) res err := by
  apply retried_of_conflicted h
  · refine ⟨_, _, rfl, ?_⟩
    intro e he
    cases he
  · intro e he
    rw [List.mem_singleton.mp he]
    simp [replyClass]
  · exact herr
  · intro hnone hgoing
    rw [hstopped hnone] at hgoing
    cases hgoing

theorem attempting_step {opts : SyncOptions} {as : List (List (SyncEvent ε))} {left : Nat}
    {sent : List (SyncEvent ε)} {op : SyncOp} {rest : List SyncOp} {res res' : Result ε}
    {rev : String} {r : Except ε String}
    (h : Attempting opts as left sent (op :: rest) res)
    (hclass : replyClass (⟨.ApplyOp op rev, r⟩ : SyncEvent ε) ≠ some .revisionConflict)
    (hops : res'.ops = res.ops)
    (hcount : res'.applied + res'.skipped + res'.failed =
      res.applied + res.skipped + res.failed + 1)
    (herrors : res'.errors.length = res'.failed) :
    Attempting opts as left (sent ++ [⟨.ApplyOp op rev, r⟩]) rest res' := by
  constructor
  · exact h.before
  · exact List.forall_mem_append.mpr ⟨h.only_mutations, List.forall_mem_singleton.mpr rfl⟩
  · exact List.forall_mem_append.mpr ⟨h.not_conflict, List.forall_mem_singleton.mpr hclass⟩
  · rw [hops, ← h.split]
    simp [mutations, mutation]
  · have hcounted := h.counted
    rw [List.length_cons] at hcounted
    rw [hops]
    omega
  · exact herrors

/-!
An attempt that has sent an operation more is a whole one when the reply ends it.
-/

theorem isAttempt_snoc {opts : SyncOptions} {as : List (List (SyncEvent ε))} {left : Nat}
    {sent : List (SyncEvent ε)} {rest : List SyncOp} {res : Result ε}
    (h : Attempting opts as left sent rest res)
    (listed : Except ε (List RemoteUser × String)) {e : SyncEvent ε}
    (he : (mutation e).isSome = true) : IsAttempt (⟨.ListUsers, listed⟩ :: (sent ++ [e])) :=
  ⟨listed, _, rfl,
    List.forall_mem_append.mpr ⟨h.only_mutations, List.forall_mem_singleton.mpr he⟩⟩

theorem retried_of_readOnly {opts : SyncOptions} {as : List (List (SyncEvent ε))}
    {left : Nat} {sent : List (SyncEvent ε)} {rest : List SyncOp} {res : Result ε}
    (h : Attempting opts as left sent rest res)
    (listed : Except ε (List RemoteUser × String)) (op : SyncOp) (rev : String) {aerr : ε}
    (hclass : errorClass aerr = .readOnly) :
    Retried opts (as ++ [⟨.ListUsers, listed⟩ :: (sent ++ [⟨.ApplyOp op rev, .error aerr⟩])])
      res (some (.readOnly aerr)) := by
  have hlast : replyClass (⟨.ApplyOp op rev, .error aerr⟩ : SyncEvent ε) ≠
      some .revisionConflict := by
    simp [replyClass, hclass]
  apply retried_of_conflicted h.before
  · exact isAttempt_snoc h listed rfl
  · rw [List.forall_mem_cons]
    refine ⟨by simp [replyClass], ?_⟩
    exact List.forall_mem_append.mpr ⟨h.not_conflict, List.forall_mem_singleton.mpr hlast⟩
  · intro _ h
    cases h
  · intro h
    cases h

theorem conflicted_snoc {opts : SyncOptions} {as : List (List (SyncEvent ε))} {left : Nat}
    {sent : List (SyncEvent ε)} {rest : List SyncOp} {res : Result ε}
    (h : Attempting opts as left sent rest res)
    (listed : Except ε (List RemoteUser × String)) (op : SyncOp) (rev : String) {aerr : ε}
    (hclass : errorClass aerr = .revisionConflict) :
    Conflicted opts
      (as ++ [⟨.ListUsers, listed⟩ :: (sent ++ [⟨.ApplyOp op rev, .error aerr⟩])]) left := by
  constructor
  · exact List.forall_mem_append.mpr ⟨h.before.each,
      List.forall_mem_singleton.mpr (isAttempt_snoc h listed rfl)⟩
  · rw [List.forall_mem_append, List.forall_mem_singleton]
    refine ⟨h.before.conflicts, ?_⟩
    simp [EndsInConflict, List.getLast?_cons, replyClass, hclass]
  · have hleft := h.before.left
    rw [List.length_append, List.length_singleton]
    omega

theorem retried_of_finished {opts : SyncOptions} {as : List (List (SyncEvent ε))}
    {left : Nat} {sent : List (SyncEvent ε)} {res : Result ε}
    (h : Attempting opts as left sent [] res) (remote : List RemoteUser) (rev : String) :
    Retried opts (as ++ [⟨.ListUsers, .ok (remote, rev)⟩ :: sent]) res none := by
  apply retried_of_conflicted h.before
  · exact ⟨_, _, rfl, h.only_mutations⟩
  · exact List.forall_mem_cons.mpr ⟨by simp [replyClass], h.not_conflict⟩
  · intro _ h
    cases h
  · intro _ _
    have hsplit := h.split
    rw [List.append_nil] at hsplit
    exact ⟨remote, rev, sent, rfl, hsplit, h.counted, h.errors⟩

def InRetry (opts : SyncOptions) (des : List DesiredUser) (left : Nat)
    (remote : List RemoteUser) (rest : List SyncOp) (res : Result ε)
    (t : List (SyncEvent ε)) : Prop :=
  exists as rev sent,
    t = ⟨.ListDesired, .ok des⟩ ::
        (as.flatten ++ ⟨.ListUsers, .ok (remote, rev)⟩ :: sent) ∧
      Attempting opts as left sent rest res

def BetweenRetries (opts : SyncOptions) (des : List DesiredUser) (left : Nat)
    (t : List (SyncEvent ε)) : Prop :=
  exists as, t = ⟨.ListDesired, .ok des⟩ :: as.flatten ∧ Conflicted opts as left

def AfterRetries (opts : SyncOptions) (res : Result ε) (err : Option (SyncError ε))
    (t : List (SyncEvent ε)) : Prop :=
  exists desired as, t = ⟨.ListDesired, desired⟩ :: as.flatten ∧ Retried opts as res err

theorem inRetry_snoc {opts : SyncOptions} {des : List DesiredUser} {left : Nat}
    {remote : List RemoteUser} {op : SyncOp} {rest : List SyncOp} {res res' : Result ε}
    {t : List (SyncEvent ε)} {rev : String} {r : Except ε String}
    (h : InRetry opts des left remote (op :: rest) res t)
    (hclass : replyClass (⟨.ApplyOp op rev, r⟩ : SyncEvent ε) ≠ some .revisionConflict)
    (hops : res'.ops = res.ops)
    (hcount : res'.applied + res'.skipped + res'.failed =
      res.applied + res.skipped + res.failed + 1)
    (herrors : res.errors.length = res.failed -> res'.errors.length = res'.failed) :
    InRetry opts des left remote rest res' (t ++ [⟨.ApplyOp op rev, r⟩]) := by
  rcases h with ⟨as, rev₀, sent, rfl, hattempt⟩
  refine ⟨as, rev₀, sent ++ [⟨.ApplyOp op rev, r⟩], by simp, ?_⟩
  exact attempting_step hattempt hclass hops hcount (herrors hattempt.errors)

theorem retry_loop (opts : SyncOptions) (des : List DesiredUser) (left : Nat)
    (remote : List RemoteUser) :
    LoopInvariant (ε := ε) traced
      (fun rest _ res t => InRetry opts des left remote rest res t)
      (fun res ending t =>
        match ending with
        | .finished => AfterRetries opts res none t
        | .readOnly aerr => AfterRetries opts res (some (.readOnly aerr)) t
        | .conflict => BetweenRetries opts des left t) := by
  constructor
  case owes => exact fun _ => trivial
  case success =>
    intro op rest rev res t newRev t' hI heq
    subst heq
    apply inRetry_snoc hI
    · simp [replyClass]
    · rfl
    · show res.applied + 1 + res.skipped + res.failed = _
      omega
    · exact fun h => h
  case skip =>
    intro op rest rev res t aerr t' hI heq hclass
    subst heq
    apply inRetry_snoc hI
    · simp [replyClass, hclass]
    · rfl
    · show res.applied + (res.skipped + 1) + res.failed = _
      omega
    · exact fun h => h
  case failure =>
    intro op rest rev res t aerr t' hI heq hclass
    subst heq
    apply inRetry_snoc hI
    · simp [replyClass, hclass]
    · rfl
    · rfl
    · intro h
      simp [h]
  case readOnly =>
    intro op rest rev res t aerr t' hI heq hclass
    subst heq
    rcases hI with ⟨as, rev₀, sent, rfl, h⟩
    exact ⟨.ok des, _, by simp, retried_of_readOnly h (.ok (remote, rev₀)) op rev hclass⟩
  case conflict =>
    intro op rest rev res t aerr t' hI heq hclass
    subst heq
    rcases hI with ⟨as, rev₀, sent, rfl, h⟩
    exact ⟨_, by simp, conflicted_snoc h (.ok (remote, rev₀)) op rev hclass⟩
  case finished =>
    intro rev res t hI
    rcases hI with ⟨as, rev₀, sent, rfl, h⟩
    exact ⟨.ok des, _, by simp, retried_of_finished h remote rev₀⟩

section Retries

variable [RFC3339]

theorem retry_call {opts : SyncOptions} (hmode : opts.mode = .apply)
    (des : List DesiredUser) :
    CallInvariant (ε := ε) traced opts des
      (fun left _ t => BetweenRetries opts des left t)
      (fun left remote rest _ res t => InRetry opts des left remote rest res t)
      (fun res err t => AfterRetries opts res err t) := by
  constructor
  case exhausted =>
    intro res t h
    rcases h with ⟨as, rfl, h⟩
    have hleft := h.left
    refine ⟨.ok des, as, rfl, ?_⟩
    constructor
    · exact h.each
    · omega
    · constructor
      · intro _
        exact ⟨by omega, h.conflicts⟩
      · intro _
        exact ⟨opts.maxRetry, rfl⟩
    · intro h
      cases h
  case owes => exact fun _ => trivial
  case listError =>
    intro left res t err t' hJ heq
    subst heq
    rcases hJ with ⟨as, rfl, h⟩
    refine ⟨.ok des, as ++ [[⟨.ListUsers, .error err⟩]], by simp, ?_⟩
    exact retried_of_listing h nofun nofun
  case aborted =>
    intro left res t remote rev t' hJ heq _
    subst heq
    rcases hJ with ⟨as, rfl, h⟩
    refine ⟨.ok des, as ++ [[⟨.ListUsers, .ok (remote, rev)⟩]], by simp, ?_⟩
    exact retried_of_listing h nofun (fun _ => rfl)
  case shadow =>
    intro left res t remote rev t' _ _ _ hshadow
    rw [hmode] at hshadow
    cases hshadow
  case start =>
    intro left res t remote rev t' hJ heq _ _
    subst heq
    rcases hJ with ⟨as, rfl, h⟩
    refine ⟨as, rev, [], by simp, ?_⟩
    constructor
    · exact h
    · intro e he
      cases he
    · intro e he
      cases he
    · rfl
    · show 0 + 0 + 0 + (opts.diff des remote).length = (opts.diff des remote).length
      omega
    · rfl
  case loop => exact fun left remote => retry_loop opts des left remote

theorem syncNode_retried {opts : SyncOptions} (hmode : opts.mode = .apply)
    (hretries : 0 ≤ opts.maxConflictRetries) :
    traced.Meets (SyncNode (ε := ε) opts) [] fun out t => AfterRetries opts out.1 out.2 t := by
  have hmax : 0 ≤ opts.maxRetry := by
    unfold SyncOptions.maxRetry
    split <;> omega
  apply syncNode_meets opts (J := fun des left _ t => BetweenRetries opts des left t)
    (I := fun des left remote rest _ res t => InRetry opts des left remote rest res t)
    (Q := fun res err t => AfterRetries opts res err t)
  · trivial
  · intro err t heq
    subst heq
    refine ⟨.error err, [], rfl, ?_⟩
    constructor
    · intro a ha
      cases ha
    · rw [List.length_nil]
      omega
    · constructor
      · intro h
        rcases h with ⟨maxRetry, h⟩
        cases h
      · intro h
        have hlength := h.left
        rw [List.length_nil] at hlength
        omega
    · intro h
      cases h
  · intro des t heq
    subst heq
    refine ⟨retry_call hmode des, [], rfl, ?_⟩
    constructor
    · intro a ha
      cases ha
    · intro a ha
      cases ha
    · rw [List.length_nil]
      omega

/-- The trace of a call splits into attempts, and they decide how the call returns. -/
theorem syncNode_attempts {opts : SyncOptions} (hmode : opts.mode = .apply)
    (hretries : 0 ≤ opts.maxConflictRetries) {t : List (SyncEvent ε)} {res : Result ε}
    {err : Option (SyncError ε)} (hruns : Program.Runs (SyncNode opts) t (res, err)) :
    exists desired as, t = ⟨.ListDesired, desired⟩ :: as.flatten ∧
      Retried opts as res err :=
  Contract.post_of_runs (syncNode_retried hmode hretries) hruns
    (Contract.answered_onHistory _ [] t)

omit [RFC3339] in
/-- With one retry allowed, two conflicts are one too many. -/
theorem syncNode_attempts_sample :
    letI := sampleClock
    let create : SyncOp := createOp ⟨"sub_1", "ee", none, none⟩
    let conflict : Classification := ⟨true, false, false⟩
    let t : List (SyncEvent Classification) :=
      [⟨.ListDesired, .ok [⟨"sub_1", "ee", none, none⟩]⟩, ⟨.ListUsers, .ok ([], "r1")⟩,
        ⟨.ApplyOp create "r1", .error conflict⟩, ⟨.ListUsers, .ok ([], "r2")⟩,
        ⟨.ApplyOp create "r2", .error conflict⟩]
    let opts : SyncOptions := { mode := .apply, maxConflictRetries := 1 }
    exists desired as, t = ⟨.ListDesired, desired⟩ :: as.flatten ∧
      Retried opts as { ops := [create] } (some (.notConverged 1)) :=
  letI := sampleClock
  syncNode_attempts rfl (by decide)
    (.call (.call (.call (.call (.call (.refl _))))))

end Retries

end Sync
end Telemux
