import Mathlib.Logic.Function.Basic
import Mathlib.Data.List.Nodup
import Mathlib.Data.List.Perm.Basic

/-!
# Reconciling one key at a time

A planner compares, key by key, what is wanted with what is there, and names at
most one operation for the key.  Each operation acts on its own key only, and
carrying it out settles that key.  From these two facts alone: operations on
distinct keys can be carried out in any order, and after any part of a plan has
been carried out, planning again yields exactly the rest.
-/

namespace Telemux
namespace Reconcile

/-!
## Operations that act on one key
-/

structure Pointwise (κ V Op : Type) where
  key : Op -> κ
  effect : Op -> Option V -> Option V

namespace Pointwise

variable {κ V Op : Type} [DecidableEq κ] (P : Pointwise κ V Op)

def act (m : κ -> Option V) (op : Op) : κ -> Option V :=
  Function.update m (P.key op) (P.effect op (m (P.key op)))

def actAll (m : κ -> Option V) (ops : List Op) : κ -> Option V :=
  ops.foldl P.act m

def Apart (ops : List Op) : Prop :=
  (ops.map P.key).Nodup

@[simp] theorem actAll_nil (m : κ -> Option V) : P.actAll m [] = m := rfl

@[simp] theorem actAll_cons (m : κ -> Option V) (op : Op) (ops : List Op) :
    P.actAll m (op :: ops) = P.actAll (P.act m op) ops := rfl

theorem act_same (m : κ -> Option V) (op : Op) :
    P.act m op (P.key op) = P.effect op (m (P.key op)) := by
  simp [act]

theorem act_other (m : κ -> Option V) {op : Op} {k : κ} (hk : k ≠ P.key op) :
    P.act m op k = m k := by
  simp [act, hk]

theorem actAll_other (m : κ -> Option V) {ops : List Op} {k : κ}
    (hk : k ∉ ops.map P.key) : P.actAll m ops k = m k := by
  induction ops generalizing m with
  | nil => rfl
  | cons op rest ih =>
      rw [List.map_cons, List.mem_cons, not_or] at hk
      rw [actAll_cons, ih _ hk.right, P.act_other m hk.left]

theorem actAll_mem (m : κ -> Option V) {ops : List Op} (hapart : P.Apart ops) {op : Op}
    (hop : op ∈ ops) : P.actAll m ops (P.key op) = P.effect op (m (P.key op)) := by
  induction ops generalizing m with
  | nil => cases hop
  | cons first rest ih =>
      have hsplit : P.key first ∉ rest.map P.key ∧ P.Apart rest := by
        simpa [Apart] using hapart
      rw [actAll_cons]
      cases hop with
      | head => rw [P.actAll_other _ hsplit.left, P.act_same]
      | tail _ hrest =>
          have hne : P.key op ≠ P.key first := by
            intro heq
            exact hsplit.left (heq ▸ List.mem_map_of_mem hrest)
          rw [ih _ hsplit.right hrest, P.act_other m hne]

theorem actAll_perm (m : κ -> Option V) {ops ops' : List Op} (hapart : P.Apart ops)
    (hperm : ops.Perm ops') : P.actAll m ops = P.actAll m ops' := by
  have hapart' : P.Apart ops' := (hperm.map P.key).nodup_iff.mp hapart
  funext k
  by_cases hk : k ∈ ops.map P.key
  · rcases List.mem_map.mp hk with ⟨op, hop, rfl⟩
    rw [P.actAll_mem m hapart hop, P.actAll_mem m hapart' (hperm.mem_iff.mp hop)]
  · have hk' : k ∉ ops'.map P.key := by
      rwa [← (hperm.map P.key).mem_iff]
    rw [P.actAll_other m hk, P.actAll_other m hk']

end Pointwise

/-!
## Planning

The plan for a key may depend only on what is wanted and what is there under
that key, and carrying it out must leave nothing to plan.
-/

structure Planner (κ D V Op : Type) extends Pointwise κ V Op where
  plan : κ -> Option D -> Option V -> Option Op
  plan_key : forall {k d v op}, plan k d v = some op -> key op = k
  settles : forall {k d v op}, plan k d v = some op -> plan k d (effect op v) = none

namespace Planner

variable {κ D V Op : Type} [DecidableEq κ] (P : Planner κ D V Op)

def Planned (want : κ -> Option D) (m : κ -> Option V) (ops : List Op) : Prop :=
  forall op, op ∈ ops -> P.plan (P.key op) (want (P.key op)) (m (P.key op)) = some op

theorem plan_actAll {want : κ -> Option D} {m : κ -> Option V} {ops : List Op}
    (hapart : P.Apart ops) (hplanned : P.Planned want m ops) (k : κ) :
    P.plan k (want k) (P.actAll m ops k) =
      if k ∈ ops.map P.key then none else P.plan k (want k) (m k) := by
  by_cases hk : k ∈ ops.map P.key
  · rw [if_pos hk]
    rcases List.mem_map.mp hk with ⟨op, hop, rfl⟩
    rw [P.actAll_mem m hapart hop]
    exact P.settles (hplanned op hop)
  · rw [if_neg hk, P.actAll_other m hk]

end Planner

end Reconcile
end Telemux
