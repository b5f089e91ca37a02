import Mathlib.Data.Countable.Basic
import Mathlib.Logic.Encodable.Basic
import Mathlib.Data.List.Basic
import Mathlib.Logic.Equiv.List
import Telemux.Sync.Interleaving

/-!
# Nodes that keep to the machine API

A faithful node holds users with distinct names, does to them what the
operations say, and answers AlreadyDone only when the user to create is there or
the user to patch or delete is not.  There is such a node.
-/

namespace Telemux
namespace Sync

open Interaction TelemtSync

structure FaithfulNode (σ ε : Type) [ClassifiedError ε] extends NodeModel σ ε where
  users_distinct : forall s, DistinctUsers (users s)
  performs_effect : forall {op s s'}, performs op s s' ->
    remoteByName (users s') = remoteByName (applyOp (users s) op)
  refuses_done : forall {op ifMatch s err}, refuses op ifMatch s err ->
    errorClass err = .alreadyDone ->
    ((remoteByName (users s) op.username).isSome = true <-> op.kind = .create)

section Effects

variable {σ ε : Type} [ClassifiedError ε]

theorem remoteByName_applyOps_congr {users users' : List RemoteUser} (ops : List SyncOp)
    (heq : remoteByName users = remoteByName users') :
    remoteByName (applyOps users ops) = remoteByName (applyOps users' ops) := by
  rw [remoteByName_applyOps, remoteByName_applyOps, heq]

theorem acknowledged_effect (N : FaithfulNode σ ε) {s s' : σ} {ops : List SyncOp}
    (h : Acknowledged N.toNodeModel s ops s') :
    remoteByName (N.users s') = remoteByName (applyOps (N.users s) ops) := by
  induction h with
  | nil => rfl
  | snoc hops hperf ih =>
      rw [N.performs_effect hperf, applyOps_snoc]
      exact remoteByName_applyOps_congr [_] ih

end Effects

/-!
## A node

Configurations can be numbered, and a revision is the number in unary.
-/

instance countableChar : Countable Char :=
  Function.Injective.countable (f := Char.toNat) (fun _ _ h => Char.toNat_inj.mp h)

instance countableString : Countable String :=
  Function.Injective.countable (f := String.toList) (fun _ _ h => String.toList_inj.mp h)

instance countableRemoteUser : Countable RemoteUser :=
  Function.Injective.countable
    (f := fun r : RemoteUser => (r.username, r.enabled, r.expirationRFC3339, r.maxTCPConns))
    (by
      intro r r' h
      cases r
      cases r'
      simpa only [RemoteUser.mk.injEq, Prod.mk.injEq] using h)

instance countableUserConfig : Countable UserConfig := Subtype.countable

noncomputable def configNumber : UserConfig -> Nat :=
  Classical.choose (exists_injective_nat UserConfig)

theorem configNumber_injective : Function.Injective configNumber :=
  Classical.choose_spec (exists_injective_nat UserConfig)

noncomputable def configRevision (s : UserConfig) : String :=
  String.ofList (List.replicate (configNumber s + 1) 'r')

theorem configRevision_injective : Function.Injective configRevision := by
  intro s s' h
  apply configNumber_injective
  have hlen := congrArg (fun r => r.toList.length) h
  simpa [configRevision] using hlen

theorem configRevision_nonempty (s : UserConfig) : configRevision s ≠ "" := by
  intro h
  have hlen := congrArg (fun r => r.toList.length) h
  simp [configRevision] at hlen

/-- A node that answers as telemt does: already done, conflict or read-only. -/
noncomputable def telemtNode : FaithfulNode UserConfig Classification where
  users s := s.val
  revision := configRevision
  performs op s s' := s' = s.applyOp op
  refuses op ifMatch s err :=
    (err = ⟨false, false, true⟩ ∧
      ((remoteByName s.val op.username).isSome = true <-> op.kind = .create)) ∨
    (err = ⟨true, false, false⟩ ∧ ifMatch ≠ configRevision s) ∨
    err = ⟨false, true, false⟩
  revision_nonempty := configRevision_nonempty
  revision_injective := configRevision_injective
  users_distinct s := s.property
  performs_effect h := by
    rw [h]
    rfl
  refuses_done := by
    intro op ifMatch s err h hclass
    rcases h with ⟨_, hdone⟩ | ⟨rfl, _⟩ | rfl
    · exact hdone
    · cases hclass
    · cases hclass

end Sync
end Telemux
