import Mathlib.Data.List.DropRight
import Telemux.Sync.Trace

/-!
# What a result accounts for

Every attempt of SyncNode starts a result of its own, so the result of a call is
the account of the last attempt that got a list of the node's users.  What
earlier attempts did to the node is not in it.
-/

namespace Telemux
namespace Sync

open Interaction TelemtSync

variable {ε : Type} [ClassifiedError ε]

/-!
## Counting replies
-/

omit [ClassifiedError ε] in
def succeeded : SyncEvent ε -> Bool
  | ⟨.ApplyOp _ _, .ok _⟩ => true
  | ⟨.ApplyOp _ _, .error _⟩ => false
  | ⟨.ListDesired, _⟩ => false
  | ⟨.ListUsers, _⟩ => false

def failure : SyncEvent ε -> Option ε
  | ⟨.ApplyOp _ _, .error aerr⟩ => if errorClass aerr = .other then some aerr else none
  | ⟨.ApplyOp _ _, .ok _⟩ => none
  | ⟨.ListDesired, _⟩ => none
  | ⟨.ListUsers, _⟩ => none

def successes (t : List (SyncEvent ε)) : Nat :=
  t.countP succeeded

def skips (t : List (SyncEvent ε)) : Nat :=
  t.countP fun e => decide (replyClass e = some .alreadyDone)

def failures (t : List (SyncEvent ε)) : List ε :=
  t.filterMap failure

/-- The counters and errors of a result are those of the events `t`. -/
structure Accounts (t : List (SyncEvent ε)) (res : Result ε) : Prop where
  applied : res.applied = successes t
  skipped : res.skipped = skips t
  failed : res.failed = (failures t).length
  errors : res.errors = failures t

theorem accounts_nil (ops : List SyncOp) (aborted : Bool) :
    Accounts ([] : List (SyncEvent ε)) { ops := ops, aborted := aborted } :=
  ⟨rfl, rfl, rfl, rfl⟩

theorem accounts_other {t : List (SyncEvent ε)} {res : Result ε} {e : SyncEvent ε}
    (h : Accounts t res) (hsucceeded : succeeded e = false)
    (hskipped : replyClass e ≠ some .alreadyDone) (hfailure : failure e = none) :
    Accounts (t ++ [e]) res := by
  constructor
  · rw [h.applied]
    simp [successes, hsucceeded]
  · rw [h.skipped]
    simp [skips, hskipped]
  · rw [h.failed]
    simp [failures, hfailure]
  · rw [h.errors]
    simp [failures, hfailure]

/-!
Two parts of a trace are accounted for by the second one exactly when nothing in
the first one is counted.
-/

theorem accounts_append_iff {t u : List (SyncEvent ε)} {res : Result ε}
    (h : Accounts u res) : Accounts (t ++ u) res <-> Accounts t {} := by
  have happlied : successes (t ++ u) = successes t + successes u := List.countP_append
  have hskipped : skips (t ++ u) = skips t + skips u := List.countP_append
  have hfailures : failures (t ++ u) = failures t ++ failures u := List.filterMap_append
  constructor
  · intro hboth
    have hnil : failures t = [] := by
      have herrors := hboth.errors
      rw [h.errors, hfailures] at herrors
      simpa using herrors.symm
    have happ := hboth.applied
    rw [h.applied, happlied] at happ
    have hskip := hboth.skipped
    rw [h.skipped, hskipped] at hskip
    constructor
    · change 0 = successes t
      omega
    · change 0 = skips t
      omega
    · rw [hnil]
      rfl
    · exact hnil.symm
  · intro hnone
    have hnil : failures t = [] := hnone.errors.symm
    have happ : 0 = successes t := hnone.applied
    have hskip : 0 = skips t := hnone.skipped
    constructor
    · rw [h.applied, happlied, ← happ, Nat.zero_add]
    · rw [h.skipped, hskipped, ← hskip, Nat.zero_add]
    · rw [h.failed, hfailures, hnil, List.nil_append]
    · rw [h.errors, hfailures, hnil, List.nil_append]

/-!
## The last attempt

The last attempt of a trace is what follows the last list the node gave.
-/

omit [ClassifiedError ε] in
def listReply : SyncEvent ε -> Bool
  | ⟨.ListUsers, .ok _⟩ => true
  | ⟨.ListUsers, .error _⟩ => false
  | ⟨.ListDesired, _⟩ => false
  | ⟨.ApplyOp _ _, _⟩ => false

omit [ClassifiedError ε] in
def lastAttempt (t : List (SyncEvent ε)) : List (SyncEvent ε) :=
  t.rtakeWhile fun e => !listReply e

omit [ClassifiedError ε] in
def earlier (t : List (SyncEvent ε)) : List (SyncEvent ε) :=
  t.rdropWhile fun e => !listReply e

omit [ClassifiedError ε] in
theorem earlier_append_lastAttempt (t : List (SyncEvent ε)) :
    earlier t ++ lastAttempt t = t :=
  List.rdropWhile_append_rtakeWhile

omit [ClassifiedError ε] in
theorem lastAttempt_snoc {e : SyncEvent ε} (h : listReply e = false)
    (t : List (SyncEvent ε)) : lastAttempt (t ++ [e]) = lastAttempt t ++ [e] :=
  List.rtakeWhile_concat_pos _ _ _ (by simp [h])

omit [ClassifiedError ε] in
theorem lastAttempt_list {e : SyncEvent ε} (h : listReply e = true)
    (t : List (SyncEvent ε)) : lastAttempt (t ++ [e]) = [] :=
  List.rtakeWhile_concat_neg _ _ _ (by simp [h])

/-!
## The account of a call
-/

def traced : Contract SyncCall (SyncReply ε) (List (SyncEvent ε)) :=
  Contract.onHistory fun _ _ => True

def Running (res : Result ε) (t : List (SyncEvent ε)) : Prop :=
  Accounts (lastAttempt t) res ∧ res.aborted = false

def Accounted (res : Result ε) (t : List (SyncEvent ε)) : Prop :=
  Accounts (lastAttempt t) res ∧ (res.aborted = true -> lastAttempt t = [])

theorem accounted_of_running {res : Result ε} {t : List (SyncEvent ε)}
    (h : Running res t) : Accounted res t := by
  refine ⟨h.left, ?_⟩
  intro haborted
  rw [h.right] at haborted
  cases haborted

theorem accounts_start (ops : List SyncOp) (aborted : Bool) (t : List (SyncEvent ε))
    (listed : List RemoteUser × String) :
    Accounts (lastAttempt (t ++ [⟨.ListUsers, .ok listed⟩]))
      { ops := ops, aborted := aborted } := by
  rw [lastAttempt_list rfl]
  exact accounts_nil ops aborted

theorem running_snoc {res res' : Result ε} {t : List (SyncEvent ε)} {e : SyncEvent ε}
    (h : Running res t) (hlist : listReply e = false) (haborted : res'.aborted = res.aborted)
    (hnext : Accounts (lastAttempt t) res -> Accounts (lastAttempt t ++ [e]) res') :
    Running res' (t ++ [e]) := by
  constructor
  · rw [lastAttempt_snoc hlist]
    exact hnext h.left
  · rw [haborted]
    exact h.right

theorem running_loop :
    LoopInvariant (ε := ε) traced (fun _ _ res t => Running res t)
      (fun res _ t => Running res t) := by
  constructor
  case owes => exact fun _ => trivial
  case success =>
    intro op rest rev res t newRev t' hrun heq
    subst heq
    apply running_snoc hrun (by rfl) (by rfl)
    intro h
    constructor
    · simp [successes, succeeded, h.applied]
    · simp [skips, replyClass, h.skipped]
    · simp [failures, failure, h.failed]
    · simp [failures, failure, h.errors]
  case skip =>
    intro op rest rev res t aerr t' hrun heq hclass
    subst heq
    apply running_snoc hrun (by rfl) (by rfl)
    intro h
    constructor
    · simp [successes, succeeded, h.applied]
    · simp [skips, replyClass, hclass, h.skipped]
    · simp [failures, failure, hclass, h.failed]
    · simp [failures, failure, hclass, h.errors]
  case failure =>
    intro op rest rev res t aerr t' hrun heq hclass
    subst heq
    apply running_snoc hrun (by rfl) (by rfl)
    intro h
    constructor
    · simp [successes, succeeded, h.applied]
    · simp [skips, replyClass, hclass, h.skipped]
    · simp [failures, failure, hclass, h.failed]
    · simp [failures, failure, hclass, h.errors]
  case readOnly =>
    intro op rest rev res t aerr t' hrun heq hclass
    subst heq
    apply running_snoc hrun (by rfl) (by rfl)
    intro h
    exact accounts_other h rfl (by simp [replyClass, hclass]) (by simp [failure, hclass])
  case conflict =>
    intro op rest rev res t aerr t' hrun heq hclass
    subst heq
    apply running_snoc hrun (by rfl) (by rfl)
    intro h
    exact accounts_other h rfl (by simp [replyClass, hclass]) (by simp [failure, hclass])
  case finished => exact fun h => h

section Calls

variable [RFC3339]

theorem accounted_call (opts : SyncOptions) (des : List DesiredUser) :
    CallInvariant (ε := ε) traced opts des (fun _ res t => Running res t)
      (fun _ _ _ _ res t => Running res t) (fun res _ t => Accounted res t) := by
  constructor
  case exhausted => exact accounted_of_running
  case owes => exact fun _ => trivial
  case listError =>
    intro left res t err t' hrun heq
    subst heq
    apply accounted_of_running
    apply running_snoc hrun (by rfl) (by rfl)
    intro h
    exact accounts_other h rfl (by simp [replyClass]) rfl
  case aborted =>
    intro left res t remote rev t' _ heq _
    subst heq
    exact ⟨accounts_start _ _ t _, fun _ => lastAttempt_list rfl t⟩
  case shadow =>
    intro left res t remote rev t' _ heq _ _
    subst heq
    exact accounted_of_running ⟨accounts_start _ _ t _, rfl⟩
  case start =>
    intro left res t remote rev t' _ heq _ _
    subst heq
    exact ⟨accounts_start _ _ t _, rfl⟩
  case loop =>
    intro left remote
    apply running_loop.mono _
    intro res ending t hrun
    cases ending with
    | finished => exact accounted_of_running hrun
    | readOnly aerr => exact accounted_of_running hrun
    | conflict => exact hrun

theorem syncNode_accounted (opts : SyncOptions) :
    traced.Meets (SyncNode (ε := ε) opts) [] fun out t => Accounted out.1 t := by
  apply syncNode_meets opts (J := fun _ _ res t => Running res t)
    (I := fun _ _ _ _ _ res t => Running res t) (Q := fun res _ t => Accounted res t)
  · trivial
  · intro err t heq
    subst heq
    exact accounted_of_running ⟨⟨rfl, rfl, rfl, rfl⟩, rfl⟩
  · intro des t heq
    subst heq
    exact ⟨accounted_call opts des, ⟨rfl, rfl, rfl, rfl⟩, rfl⟩

/-- The result of a call is the account of its last attempt that got a list. -/
theorem syncNode_accounts_lastAttempt (opts : SyncOptions) {t : List (SyncEvent ε)}
    {res : Result ε} {err : Option (SyncError ε)}
    (hruns : Program.Runs (SyncNode opts) t (res, err)) :
    Accounts (lastAttempt t) res ∧
      (Accounts t res <-> Accounts (earlier t) {}) ∧
      (res.aborted = true -> lastAttempt t = []) := by
  have hans : traced.Answered [] t t := Contract.answered_onHistory _ [] t
  have hend := Contract.post_of_runs (syncNode_accounted opts) hruns hans
  refine ⟨hend.left, ?_, hend.right⟩
  have hiff : Accounts (earlier t ++ lastAttempt t) res <-> Accounts (earlier t) {} :=
    accounts_append_iff hend.left
  rwa [earlier_append_lastAttempt] at hiff

omit [RFC3339] in
theorem syncNode_accounts_lastAttempt_sample :
    letI := sampleClock
    let create : SyncOp := createOp ⟨"sub_1", "ee", none, none⟩
    let t : List (SyncEvent Classification) :=
      [⟨.ListDesired, .ok [⟨"sub_1", "ee", none, none⟩]⟩, ⟨.ListUsers, .ok ([], "r1")⟩,
        ⟨.ApplyOp create "r1", .ok "r2"⟩]
    let res : Result Classification := { ops := [create], applied := 1 }
    Accounts (lastAttempt t) res ∧
      (Accounts t res <-> Accounts (earlier t) {}) ∧
      (res.aborted = true -> lastAttempt t = []) :=
  letI := sampleClock
  syncNode_accounts_lastAttempt { mode := .apply } (.call (.call (.call (.refl _))))

theorem attempts_stopped {opts : SyncOptions} {des : List DesiredUser}
    {remote : List RemoteUser} (hstops : opts.stops des remote = true) (maxRetry : Int)
    (left : Nat) (res : Result ε) (rev : String) :
    Program.Runs (attempts opts des maxRetry (left + 1) res)
      [⟨.ListUsers, .ok (remote, rev)⟩]
      ({ ops := opts.diff des remote, aborted := true }, none) := by
  apply Program.Steps.call
  unfold SyncOptions.stops at hstops
  simp only [hstops, if_true]
  exact Program.Steps.refl _

theorem attempts_finished {opts : SyncOptions} {des : List DesiredUser}
    {remote : List RemoteUser} {ops : List SyncOp} {rev : String} {t : List (SyncEvent ε)}
    {res : Result ε} (hstops : opts.stops des remote = false) (hmode : opts.mode = .apply)
    (hdiff : opts.diff des remote = ops)
    (hloop : Program.Runs (applyLoop ops rev { ops := ops }) t (res, .finished))
    (maxRetry : Int) (left : Nat) (old : Result ε) :
    Program.Runs (attempts opts des maxRetry (left + 1) old)
      (⟨.ListUsers, .ok (remote, rev)⟩ :: t) (res, none) := by
  apply Program.Steps.call
  subst hdiff
  unfold SyncOptions.stops at hstops
  simp only [hstops, hmode, Bool.false_eq_true, if_false, reduceCtorEq]
  rw [← List.append_nil t]
  exact Program.bind_runs hloop (.refl _)

def crowd : List RemoteUser :=
  [⟨"sub_1", true, none, none⟩, ⟨"sub_a", true, none, none⟩, ⟨"sub_b", true, none, none⟩,
    ⟨"sub_c", true, none, none⟩, ⟨"sub_d", true, none, none⟩, ⟨"sub_e", true, none, none⟩]

omit [RFC3339] in
/--
The first attempt creates a user and meets a conflict, the second one is stopped
by the guard: the call returns an aborted result that counts no operation.
-/
theorem syncNode_forgets_attempt :
    letI := sampleClock
    exists (t : List (SyncEvent Classification)) (res : Result Classification),
      Program.Runs (SyncNode { mode := .apply }) t (res, none) ∧
        res.aborted = true ∧ res.applied = 0 ∧ successes t = 1 :=
  letI := sampleClock
  let des : List DesiredUser := [⟨"sub_1", "ee", none, none⟩, ⟨"sub_2", "ee", none, none⟩]
  let create (name : String) : SyncOp := createOp ⟨name, "ee", none, none⟩
  have hstops : SyncOptions.stops { mode := .apply } des crowd = true := by decide +kernel
  ⟨[⟨.ListDesired, .ok des⟩, ⟨.ListUsers, .ok ([], "r1")⟩,
      ⟨.ApplyOp (create "sub_1") "r1", .ok "r2"⟩,
      ⟨.ApplyOp (create "sub_2") "r2", .error ⟨true, false, false⟩⟩,
      ⟨.ListUsers, .ok (crowd, "r3")⟩], _,
    .call (.call (.call (.call (attempts_stopped hstops _ _ _ _)))), rfl, rfl, rfl⟩

end Calls

end Sync
end Telemux
