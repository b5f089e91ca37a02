import Telemux.Interaction.Contract
import Telemux.Server.Users

/-!
# What handlers and passes owe

A handler that writes answers with success only after it has marked the daemon
dirty, and marks it only after its write.  A pass holds `runMu` while it works,
reads the desired users first, and lets go only after that.  Both are contracts
over what a handler or a pass has done so far.
-/

namespace Telemux
namespace Server

open Interaction Net Store Sync TelemtSync

/-!
## Handlers that write
-/

structure WriteHistory (ε : Type) where
  committed : Option Nat := none
  marked : Bool := false
  response : Option (Response ε) := none

section Writes

variable {ε : Type}

def carriedOut : (c : ServerCall ε) -> ServerReply ε c -> Bool
  | .CreateUser _ _ _ _, r => r.isOk
  | .DeleteUser _, r => r.toOption.getD false
  | .SetExpiration _ _, r => r.toOption.getD false
  | .SetEnabled _ _, r => r.toOption.getD false
  | _, _ => false

def WriteHistory.next (h : WriteHistory ε) (commits : Nat) (c : ServerCall ε)
    (r : ServerReply ε c) : WriteHistory ε where
  committed := if carriedOut c r then some commits else h.committed
  marked :=
    match c with
    | .markDirty => true
    | _ => h.marked
  response :=
    match c with
    | .Respond resp => some resp
    | _ => h.response

def writeOwes (h : WriteHistory ε) : ServerCall ε -> Prop
  | .IsInRecovery => True
  | .CreateUser _ _ _ _ => h.marked = false
  | .DeleteUser _ => h.marked = false
  | .SetExpiration _ _ => h.marked = false
  | .SetEnabled _ _ => h.marked = false
  | .markDirty => h.committed.isSome = true
  | .Respond resp => resp.Success -> h.marked = true
  | .Lock => False
  | .Unlock => False
  | .Sync _ => False
  | .Now => False
  | .setLastSync _ => False

def writeContract (ε : Type) :
    Contract (ServerCall ε) (ServerReply ε) (WriteHistory ε) where
  owes := writeOwes
  answers h c r h' := exists commits, h' = h.next commits c r

abbrev Owes (handler : Handler ε) (h : WriteHistory ε) : Prop :=
  (writeContract ε).Meets handler h fun _ _ => True

theorem respond_owes {h : WriteHistory ε} {code : Nat} {body : ResponseBody ε}
    (hcode : 200 ≤ code ∧ code < 300 -> h.marked = true) : Owes (respond code body) h := by
  constructor
  · exact hcode
  · intro r h' _
    trivial

theorem writeErr_owes {h : WriteHistory ε} {code : Nat} {err : HandlerError ε}
    (hcode : 300 ≤ code) : Owes (writeErr code err) h :=
  respond_owes fun hsuccess => absurd hsuccess.right (Nat.not_lt.mpr hcode)

theorem requireMaster_owes {handler : Handler ε} (h : Owes handler {}) :
    Owes (requireMaster handler) {} := by
  constructor
  · trivial
  · intro r h' hnext
    rcases hnext with ⟨commits, rfl⟩
    cases r with
    | error err => exact writeErr_owes (by decide)
    | ok inRecovery =>
        dsimp only
        split
        · exact writeErr_owes (by decide)
        · exact h

theorem markDirty_owes {h : WriteHistory ε} {code : Nat} {body : ResponseBody ε}
    (hcommitted : h.committed.isSome = true) :
    Owes (.call .markDirty fun _ => respond code body) h := by
  constructor
  · exact hcommitted
  · intro r h' hnext
    rcases hnext with ⟨commits, rfl⟩
    exact respond_owes fun _ => rfl

theorem answerChanged_owes {c : ServerCall ε} {r : ServerReply ε c} {answer : Except ε Bool}
    {commits : Nat} (hanswer : carriedOut c r = answer.toOption.getD false) :
    Owes (answerChanged answer) (WriteHistory.next {} commits c r) := by
  cases answer with
  | error err => exact writeErr_owes (by decide)
  | ok changed =>
      cases changed with
      | false => exact writeErr_owes (by decide)
      | true =>
          apply markDirty_owes
          unfold WriteHistory.next
          rw [hanswer]
          rfl

theorem handleCreate_owes [JsonStream] [TimeJSON] (raw : List UInt8) (broken : Bool) :
    Owes (ε := ε) (handleCreate raw broken) {} := by
  apply requireMaster_owes
  split
  · exact writeErr_owes (by decide)
  · split
    · exact writeErr_owes (by decide)
    · constructor
      · rfl
      · intro r h' hnext
        rcases hnext with ⟨commits, rfl⟩
        cases r with
        | ok u => exact markDirty_owes rfl
        | error err =>
            cases err with
            | database err => exact writeErr_owes (by decide)
            | create err => cases err <;> exact writeErr_owes (by decide)

theorem WriteRequest.handler_owes [JsonStream] [TimeJSON] (req : WriteRequest) :
    Owes (ε := ε) req.handler {} := by
  cases req with
  | create raw broken => exact handleCreate_owes raw broken
  | delete username =>
      apply requireMaster_owes
      constructor
      · rfl
      · intro r h' hnext
        rcases hnext with ⟨commits, rfl⟩
        exact answerChanged_owes rfl
  | renew username raw broken =>
      apply requireMaster_owes
      split
      · exact writeErr_owes (by decide)
      · constructor
        · rfl
        · intro r h' hnext
          rcases hnext with ⟨commits, rfl⟩
          exact answerChanged_owes rfl
  | setEnabled username enabled =>
      apply requireMaster_owes
      constructor
      · rfl
      · intro r h' hnext
        rcases hnext with ⟨commits, rfl⟩
        exact answerChanged_owes rfl

end Writes

/-!
## Passes
-/

inductive Phase where
  | waiting
  | locked
  | listed
  | released
deriving DecidableEq, Repr

def Phase.Pending (ph : Phase) : Prop := ph = .waiting ∨ ph = .locked

/-- It has `runMu`. -/
def Phase.Holds (ph : Phase) : Prop := ph = .locked ∨ ph = .listed

theorem not_holds_waiting : ¬ Phase.Holds .waiting := by
  intro h
  rcases h with hlocked | hlisted
  · cases hlocked
  · cases hlisted

theorem not_holds_released : ¬ Phase.Holds .released := by
  intro h
  rcases h with hlocked | hlisted
  · cases hlocked
  · cases hlisted

section Passes

variable {ε : Type}

def Phase.next (ph : Phase) : ServerCall ε -> Phase
  | .Lock => .locked
  | .Sync .ListDesired => .listed
  | .Unlock => .released
  | _ => ph

def passOwes (ph : Phase) : ServerCall ε -> Prop
  | .Lock => ph = .waiting
  | .Sync .ListDesired => ph = .locked
  | .Sync .ListUsers => ph = .listed
  | .Sync (.ApplyOp _ _) => ph = .listed
  | .Now => ph = .listed
  | .setLastSync _ => ph = .listed
  | .Unlock => ph = .listed
  | .Respond _ => ph = .released
  | .IsInRecovery => False
  | .CreateUser _ _ _ _ => False
  | .DeleteUser _ => False
  | .SetExpiration _ _ => False
  | .SetEnabled _ _ => False
  | .markDirty => False

theorem pending_not_listed {ph : Phase} (h : ph.Pending) : ph ≠ .listed := by
  rcases h with rfl | rfl
  · exact nofun
  · exact nofun

theorem pending_not_released {ph : Phase} (h : ph.Pending) : ph ≠ .released := by
  rcases h with rfl | rfl
  · exact nofun
  · exact nofun

theorem pending_calls {ph : Phase} {c : ServerCall ε} (howes : passOwes ph c)
    (h : ph.Pending) : c = .Lock ∨ c = .Sync .ListDesired := by
  cases c with
  | Lock => exact Or.inl rfl
  | Sync c =>
      cases c with
      | ListDesired => exact Or.inr rfl
      | ListUsers => exact absurd howes (pending_not_listed h)
      | ApplyOp op ifMatch => exact absurd howes (pending_not_listed h)
  | Now => exact absurd howes (pending_not_listed h)
  | setLastSync st => exact absurd howes (pending_not_listed h)
  | Unlock => exact absurd howes (pending_not_listed h)
  | Respond resp => exact absurd howes (pending_not_released h)
  | IsInRecovery => exact howes.elim
  | CreateUser username secret exp maxConns => exact howes.elim
  | DeleteUser username => exact howes.elim
  | SetExpiration username exp => exact howes.elim
  | SetEnabled username enabled => exact howes.elim
  | markDirty => exact howes.elim

theorem holds_before {ph : Phase} {c : ServerCall ε} (howes : passOwes ph c)
    (hlock : c ≠ .Lock) (h : (ph.next c).Holds) : ph.Holds := by
  cases c with
  | Lock => exact absurd rfl hlock
  | Sync c =>
      cases c with
      | ListDesired => exact Or.inl howes
      | ListUsers => exact h
      | ApplyOp op ifMatch => exact h
  | Unlock => exact Or.inr howes
  | _ => exact h

theorem holds_after {ph : Phase} {c : ServerCall ε} (hunlock : c ≠ .Unlock) (h : ph.Holds) :
    (ph.next c).Holds := by
  cases c with
  | Lock => exact Or.inl rfl
  | Unlock => exact absurd rfl hunlock
  | Sync c =>
      cases c with
      | ListDesired => exact Or.inr rfl
      | ListUsers => exact h
      | ApplyOp op ifMatch => exact h
  | _ => exact h

def passContract (ε : Type) : Contract (ServerCall ε) (ServerReply ε) Phase where
  owes := passOwes
  answers ph c _ ph' := ph' = ph.next c

/-- The same contract, for what `SyncNode` calls. -/
def listingContract (ε : Type) : Contract SyncCall (SyncReply ε) Phase where
  owes ph c := passOwes (ε := ε) ph (.Sync c)
  answers ph c _ ph' := ph' = ph.next (.Sync c : ServerCall ε)

variable [ClassifiedError ε] [RFC3339]

omit [RFC3339] in
theorem applyLoop_lists (ops : List SyncOp) (rev : String) (res : Result ε) :
    (listingContract ε).Meets (applyLoop ops rev res) .listed fun _ ph => ph = .listed := by
  induction ops generalizing rev res with
  | nil => rfl
  | cons op ops ih =>
      constructor
      · rfl
      · intro r ph' hnext
        cases (show ph' = .listed from hnext)
        cases r with
        | ok newRev => exact ih _ _
        | error aerr =>
            dsimp only
            split
            · exact ih _ _
            · rfl
            · rfl
            · exact ih _ _

theorem attempts_lists (opts : SyncOptions) (des : List DesiredUser) (maxRetry : Int)
    (left : Nat) (res : Result ε) :
    (listingContract ε).Meets (attempts opts des maxRetry left res) .listed
      fun _ ph => ph = .listed := by
  induction left generalizing res with
  | zero => rfl
  | succ left ih =>
      constructor
      · rfl
      · intro r ph' hnext
        cases (show ph' = .listed from hnext)
        cases r with
        | error err => rfl
        | ok listing =>
            dsimp only
            split
            · rfl
            · split
              · rfl
              · apply Contract.meets_bind
                apply Contract.meets_mono _ (applyLoop_lists _ _ _)
                intro result ph hlisted
                cases hlisted
                rcases result with ⟨res, finish⟩
                cases finish with
                | finished => rfl
                | readOnly aerr => rfl
                | conflict => exact ih _

theorem syncNode_lists (opts : SyncOptions) :
    (listingContract ε).Meets (SyncNode opts) .locked fun _ ph => ph = .listed := by
  constructor
  · rfl
  · intro r ph' hnext
    cases (show ph' = .listed from hnext)
    cases r with
    | error err => rfl
    | ok des => exact attempts_lists _ _ _ _ _

theorem runSync_keeps (opts : SyncOptions) :
    (passContract ε).Meets (runSync opts) .waiting fun _ ph => ph = .released := by
  constructor
  · rfl
  · intro r ph' hnext
    cases (show ph' = .locked from hnext)
    apply Contract.meets_bind
    apply Contract.meets_interp (K := listingContract ε)
    · intro c ph howes
      constructor
      · exact howes
      · intro reply ph' hnext
        exact hnext
    · apply Contract.meets_mono _ (syncNode_lists opts)
      intro result ph hlisted
      cases hlisted
      -- what is left are the time, the status and the mutex
      refine ⟨rfl, ?_⟩
      intro now ph' hnext
      cases (show ph' = .listed from hnext)
      refine ⟨rfl, ?_⟩
      intro _ ph' hnext
      cases (show ph' = .listed from hnext)
      refine ⟨rfl, ?_⟩
      intro _ ph' hnext
      exact hnext

abbrev Keeps (handler : Handler ε) (ph : Phase) : Prop :=
  (passContract ε).Meets handler ph fun _ ph' => ph' = .released

theorem loopPass_keeps (opts : SyncOptions) : Keeps (ε := ε) (loopPass opts) .waiting := by
  apply Contract.meets_bind
  apply Contract.meets_mono _ (runSync_keeps opts)
  intro st ph hreleased
  exact hreleased

theorem handleSync_keeps (opts : SyncOptions) : Keeps (ε := ε) (handleSync opts) .waiting := by
  apply Contract.meets_bind
  apply Contract.meets_mono _ (runSync_keeps opts)
  intro st ph hreleased
  refine ⟨hreleased, ?_⟩
  intro _ ph' hnext
  cases (show ph' = ph from hnext)
  exact hreleased

end Passes

end Server
end Telemux
