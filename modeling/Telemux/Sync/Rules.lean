import Telemux.Sync.SyncNode

/-!
# Proof rules for SyncNode

One rule for the loop over the operations of an attempt and one for the loop
over the attempts.  Each asks for an invariant and for what every branch of the
source does to it; the inductions over the two loops are done here, once.
-/

namespace Telemux
namespace Sync

open Interaction TelemtSync

variable {ε γ : Type} [ClassifiedError ε]
variable {K : Contract SyncCall (SyncReply ε) γ}

/-!
## The inner loop

`I rest rev res g` holds before `rest` is sent; `Q` is what the attempt leaves.
-/

structure LoopInvariant (K : Contract SyncCall (SyncReply ε) γ)
    (I : List SyncOp -> String -> Result ε -> γ -> Prop)
    (Q : Result ε -> AttemptEnd ε -> γ -> Prop) : Prop where
  owes : forall {op rest rev res g}, I (op :: rest) rev res g ->
    K.owes g (.ApplyOp op rev)
  success : forall {op rest rev res g newRev g'}, I (op :: rest) rev res g ->
    K.answers g (.ApplyOp op rev) (.ok newRev) g' ->
    I rest newRev { res with applied := res.applied + 1 } g'
  skip : forall {op rest rev res g aerr g'}, I (op :: rest) rev res g ->
    K.answers g (.ApplyOp op rev) (.error aerr) g' -> errorClass aerr = .alreadyDone ->
    I rest rev { res with skipped := res.skipped + 1 } g'
  failure : forall {op rest rev res g aerr g'}, I (op :: rest) rev res g ->
    K.answers g (.ApplyOp op rev) (.error aerr) g' -> errorClass aerr = .other ->
    I rest rev { res with failed := res.failed + 1, errors := res.errors ++ [aerr] } g'
  readOnly : forall {op rest rev res g aerr g'}, I (op :: rest) rev res g ->
    K.answers g (.ApplyOp op rev) (.error aerr) g' -> errorClass aerr = .readOnly ->
    Q res (.readOnly aerr) g'
  conflict : forall {op rest rev res g aerr g'}, I (op :: rest) rev res g ->
    K.answers g (.ApplyOp op rev) (.error aerr) g' -> errorClass aerr = .revisionConflict ->
    Q res .conflict g'
  finished : forall {rev res g}, I [] rev res g -> Q res .finished g

theorem LoopInvariant.mono {I : List SyncOp -> String -> Result ε -> γ -> Prop}
    {Q R : Result ε -> AttemptEnd ε -> γ -> Prop} (hloop : LoopInvariant K I Q)
    (hQR : forall res ending g, Q res ending g -> R res ending g) : LoopInvariant K I R where
  owes := hloop.owes
  success := hloop.success
  skip := hloop.skip
  failure := hloop.failure
  readOnly h hans hclass := hQR _ _ _ (hloop.readOnly h hans hclass)
  conflict h hans hclass := hQR _ _ _ (hloop.conflict h hans hclass)
  finished h := hQR _ _ _ (hloop.finished h)

theorem LoopInvariant.given {I : List SyncOp -> String -> Result ε -> γ -> Prop}
    {Q : Result ε -> AttemptEnd ε -> γ -> Prop} {P : Prop} (hloop : P -> LoopInvariant K I Q) :
    LoopInvariant K (fun rest rev res g => P ∧ I rest rev res g) Q where
  owes h := (hloop h.left).owes h.right
  success h hans := ⟨h.left, (hloop h.left).success h.right hans⟩
  skip h hans hclass := ⟨h.left, (hloop h.left).skip h.right hans hclass⟩
  failure h hans hclass := ⟨h.left, (hloop h.left).failure h.right hans hclass⟩
  readOnly h hans hclass := (hloop h.left).readOnly h.right hans hclass
  conflict h hans hclass := (hloop h.left).conflict h.right hans hclass
  finished h := (hloop h.left).finished h.right

theorem applyLoop_meets {I : List SyncOp -> String -> Result ε -> γ -> Prop}
    {Q : Result ε -> AttemptEnd ε -> γ -> Prop} (hloop : LoopInvariant K I Q)
    {ops : List SyncOp} {rev : String} {res : Result ε} {g : γ} (h : I ops rev res g) :
    K.Meets (applyLoop ops rev res) g fun out g' => Q out.1 out.2 g' := by
  induction ops generalizing rev res g with
  | nil => exact hloop.finished h
  | cons op rest ih =>
      refine ⟨hloop.owes h, ?_⟩
      intro r g' hans
      cases r with
      | ok newRev => exact ih (hloop.success h hans)
      | error aerr =>
          cases hclass : errorClass aerr with
          | alreadyDone =>
              simp only [hclass]
              exact ih (hloop.skip h hans hclass)
          | readOnly =>
              simp only [hclass]
              exact hloop.readOnly h hans hclass
          | revisionConflict =>
              simp only [hclass]
              exact hloop.conflict h hans hclass
          | other =>
              simp only [hclass]
              exact ih (hloop.failure h hans hclass)

/-!
## The attempts

`J left res g` holds before an attempt when `left` attempts are left, and
`I left remote` is the invariant of the inner loop of an attempt that read the
list `remote` and leaves `left` more attempts.
-/

section Attempts

variable [RFC3339]

/-- Whether the guard stops an attempt that read the list `remote`. -/
def SyncOptions.stops (opts : SyncOptions) (des : List DesiredUser)
    (remote : List RemoteUser) : Bool :=
  IsMassDelete (ComputeDiff des remote opts.massDelete.toOptions) remote opts.massDelete &&
    !opts.force

/-- The diff of an attempt that read the list `remote`. -/
def SyncOptions.diff (opts : SyncOptions) (des : List DesiredUser)
    (remote : List RemoteUser) : List SyncOp :=
  ComputeDiff des remote opts.massDelete.toOptions

structure CallInvariant (K : Contract SyncCall (SyncReply ε) γ) (opts : SyncOptions)
    (des : List DesiredUser) (J : Nat -> Result ε -> γ -> Prop)
    (I : Nat -> List RemoteUser -> List SyncOp -> String -> Result ε -> γ -> Prop)
    (Q : Result ε -> Option (SyncError ε) -> γ -> Prop) : Prop where
  exhausted : forall {res g}, J 0 res g -> Q res (some (.notConverged opts.maxRetry)) g
  owes : forall {left res g}, J (left + 1) res g -> K.owes g .ListUsers
  listError : forall {left res g err g'}, J (left + 1) res g ->
    K.answers g .ListUsers (.error err) g' -> Q res (some (.listUsers err)) g'
  aborted : forall {left res g remote rev g'}, J (left + 1) res g ->
    K.answers g .ListUsers (.ok (remote, rev)) g' -> opts.stops des remote = true ->
    Q { ops := opts.diff des remote, aborted := true } none g'
  shadow : forall {left res g remote rev g'}, J (left + 1) res g ->
    K.answers g .ListUsers (.ok (remote, rev)) g' -> opts.stops des remote = false ->
    opts.mode = .shadow -> Q { ops := opts.diff des remote } none g'
  start : forall {left res g remote rev g'}, J (left + 1) res g ->
    K.answers g .ListUsers (.ok (remote, rev)) g' -> opts.stops des remote = false ->
    opts.mode = .apply ->
    I left remote (opts.diff des remote) rev { ops := opts.diff des remote } g'
  loop : forall left remote, LoopInvariant K (I left remote) fun res ending g =>
    match ending with
    | .finished => Q res none g
    | .readOnly aerr => Q res (some (.readOnly aerr)) g
    | .conflict => J left res g

theorem attempts_meets {opts : SyncOptions} {des : List DesiredUser}
    {J : Nat -> Result ε -> γ -> Prop}
    {I : Nat -> List RemoteUser -> List SyncOp -> String -> Result ε -> γ -> Prop}
    {Q : Result ε -> Option (SyncError ε) -> γ -> Prop}
    (hcall : CallInvariant K opts des J I Q) {left : Nat} {res : Result ε} {g : γ}
    (h : J left res g) :
    K.Meets (attempts opts des opts.maxRetry left res) g fun out g' => Q out.1 out.2 g' := by
  induction left generalizing res g with
  | zero => exact hcall.exhausted h
  | succ left ih =>
      refine ⟨hcall.owes h, ?_⟩
      intro r g' hans
      cases r with
      | error err => exact hcall.listError h hans
      | ok listed =>
          rcases listed with ⟨remote, rev⟩
          cases hstops : opts.stops des remote with
          | true =>
              have hguard := hstops
              unfold SyncOptions.stops at hguard
              simp only [hguard, if_true]
              exact hcall.aborted h hans hstops
          | false =>
              have hguard := hstops
              unfold SyncOptions.stops at hguard
              cases hmode : opts.mode with
              | shadow =>
                  simp only [hguard, Bool.false_eq_true, if_false, if_true]
                  exact hcall.shadow h hans hstops hmode
              | apply =>
                  simp only [hguard, Bool.false_eq_true, if_false, reduceCtorEq]
                  apply Contract.meets_bind
                  have hloop := applyLoop_meets (hcall.loop left remote)
                    (hcall.start h hans hstops hmode)
                  apply Contract.meets_mono _ hloop
                  intro out g'' hend
                  rcases out with ⟨res', ending⟩
                  cases ending with
                  | finished => exact hend
                  | readOnly aerr => exact hend
                  | conflict => exact ih hend

theorem syncNode_meets (opts : SyncOptions)
    {J : List DesiredUser -> Nat -> Result ε -> γ -> Prop}
    {I : List DesiredUser -> Nat -> List RemoteUser -> List SyncOp -> String ->
      Result ε -> γ -> Prop}
    {Q : Result ε -> Option (SyncError ε) -> γ -> Prop} {g : γ}
    (howes : K.owes g .ListDesired)
    (hfail : forall err g', K.answers g .ListDesired (.error err) g' ->
      Q {} (some (.listDesired err)) g')
    (hstart : forall des g', K.answers g .ListDesired (.ok des) g' ->
      CallInvariant K opts des (J des) (I des) Q ∧
        J des (opts.maxRetry + 1).toNat {} g') :
    K.Meets (SyncNode opts) g fun out g' => Q out.1 out.2 g' := by
  refine ⟨howes, ?_⟩
  intro r g' hans
  cases r with
  | error err => exact hfail err g' hans
  | ok des =>
      rcases hstart des g' hans with ⟨hcall, hJ⟩
      exact attempts_meets hcall hJ

end Attempts

end Sync
end Telemux
