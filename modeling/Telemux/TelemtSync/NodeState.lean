import Telemux.Reconcile.Planner
import Telemux.TelemtSync.Diff

/-!
# What the operations mean on a node

The diff engine only names operations.  Here they get their meaning: on the list
of users a node holds, and on the node as a map from usernames to users.  The
two views agree, and on the map a create, patch or delete touches one username.
-/

namespace Telemux
namespace TelemtSync

open Reconcile

/-!
## Operations on a list of users

A create appends an enabled user, unless the name is taken; a patch writes the
flagged fields in place; a delete removes the user.
-/

def PatchFields.write (f : PatchFields) (r : RemoteUser) : RemoteUser where
  username := r.username
  enabled := f.enabled.getD r.enabled
  expirationRFC3339 := if f.setExpiration then f.expirationRFC3339 else r.expirationRFC3339
  maxTCPConns := if f.setMaxTCPConns then f.maxTCPConns else r.maxTCPConns

def SyncOp.created (op : SyncOp) : RemoteUser where
  username := op.username
  enabled := true
  expirationRFC3339 := op.expirationRFC3339
  maxTCPConns := op.maxTCPConns

def applyOp (users : List RemoteUser) (op : SyncOp) : List RemoteUser :=
  match op.kind with
  | .create =>
      match remoteByName users op.username with
      | none => users ++ [op.created]
      | some _ => users
  | .patch => users.map fun r => if r.username = op.username then op.fields.write r else r
  | .delete => users.filter fun r => decide (r.username ≠ op.username)

def applyOps (users : List RemoteUser) (ops : List SyncOp) : List RemoteUser :=
  ops.foldl applyOp users

def DistinctUsers (users : List RemoteUser) : Prop :=
  Distinct RemoteUser.username users

def DistinctDesired (desired : List DesiredUser) : Prop :=
  Distinct DesiredUser.username desired

instance (users : List RemoteUser) : Decidable (DistinctUsers users) :=
  inferInstanceAs (Decidable (Distinct RemoteUser.username users))

instance (desired : List DesiredUser) : Decidable (DistinctDesired desired) :=
  inferInstanceAs (Decidable (Distinct DesiredUser.username desired))

@[simp] theorem write_username (f : PatchFields) (r : RemoteUser) :
    (f.write r).username = r.username := rfl

@[simp] theorem applyOps_nil (users : List RemoteUser) : applyOps users [] = users := rfl

@[simp] theorem applyOps_cons (users : List RemoteUser) (op : SyncOp) (ops : List SyncOp) :
    applyOps users (op :: ops) = applyOps (applyOp users op) ops := rfl

theorem applyOps_append (users : List RemoteUser) (ops ops' : List SyncOp) :
    applyOps users (ops ++ ops') = applyOps (applyOps users ops) ops' :=
  List.foldl_append

theorem applyOps_snoc (users : List RemoteUser) (ops : List SyncOp) (op : SyncOp) :
    applyOps users (ops ++ [op]) = applyOp (applyOps users ops) op :=
  applyOps_append users ops [op]

theorem applyOp_distinct {users : List RemoteUser} (husers : DistinctUsers users)
    (op : SyncOp) : DistinctUsers (applyOp users op) := by
  unfold applyOp
  cases op.kind with
  | create =>
      cases hname : remoteByName users op.username with
      | none => exact distinct_append_singleton husers hname
      | some r => exact husers
  | patch => exact distinct_map_update husers op.fields.write (write_username _) op.username
  | delete => exact distinct_filter husers _

theorem applyOps_distinct {users : List RemoteUser} (husers : DistinctUsers users)
    (ops : List SyncOp) : DistinctUsers (applyOps users ops) := by
  induction ops generalizing users with
  | nil => exact husers
  | cons op rest ih => exact ih (applyOp_distinct husers op)

/-!
Two lists with the same users in different orders stay such lists.
-/

theorem applyOp_perm {users users' : List RemoteUser} (husers : DistinctUsers users)
    (hperm : users.Perm users') (op : SyncOp) :
    (applyOp users op).Perm (applyOp users' op) := by
  have hsame : remoteByName users op.username = remoteByName users' op.username :=
    lookup_perm husers hperm op.username
  unfold applyOp
  cases op.kind with
  | create =>
      rw [← hsame]
      cases remoteByName users op.username with
      | none => exact hperm.append_right _
      | some r => exact hperm
  | patch => exact hperm.map _
  | delete => exact hperm.filter _

theorem applyOps_perm {users users' : List RemoteUser} (husers : DistinctUsers users)
    (hperm : users.Perm users') (ops : List SyncOp) :
    (applyOps users ops).Perm (applyOps users' ops) := by
  induction ops generalizing users users' with
  | nil => exact hperm
  | cons op rest ih => exact ih (applyOp_distinct husers op) (applyOp_perm husers hperm op)

/-!
An operation applies to a list if it creates a user that is not there, or patches
or deletes one that is.
-/

def Applies (users : List RemoteUser) (op : SyncOp) : Prop :=
  remoteByName users op.username = none <-> op.kind = .create

theorem applyOp_of_not_applies {users : List RemoteUser} {op : SyncOp}
    (h : ¬ Applies users op) : applyOp users op = users := by
  unfold Applies at h
  unfold applyOp
  cases hkind : op.kind with
  | create =>
      rw [hkind] at h
      cases hfound : remoteByName users op.username with
      | none => exact absurd (by simp [hfound]) h
      | some r => rfl
  | patch =>
      have hnone : remoteByName users op.username = none := by
        by_contra hsome
        exact h (by simp [hkind, hsome])
      have hother := lookup_eq_none_iff.mp hnone
      dsimp only
      conv_rhs => rw [← List.map_id users]
      apply List.map_congr_left
      intro r hr
      rw [if_neg (hother r hr)]
      rfl
  | delete =>
      have hnone : remoteByName users op.username = none := by
        by_contra hsome
        exact h (by simp [hkind, hsome])
      have hother := lookup_eq_none_iff.mp hnone
      dsimp only
      rw [List.filter_eq_self]
      intro r hr
      simpa using hother r hr

def UserConfig : Type := { users : List RemoteUser // DistinctUsers users }

def UserConfig.applyOp (s : UserConfig) (op : SyncOp) : UserConfig :=
  ⟨TelemtSync.applyOp s.val op, applyOp_distinct s.property op⟩

/-!
## Operations on the map of users
-/

def opEffect (op : SyncOp) (found : Option RemoteUser) : Option RemoteUser :=
  match op.kind with
  | .create => some (found.getD op.created)
  | .patch => found.map op.fields.write
  | .delete => none

def userOps : Pointwise String RemoteUser SyncOp where
  key := SyncOp.username
  effect := opEffect

theorem remoteByName_applyOp (users : List RemoteUser) (op : SyncOp) :
    remoteByName (applyOp users op) = userOps.act (remoteByName users) op := by
  funext name
  by_cases hname : name = op.username
  · rw [hname]
    have hsame : userOps.act (remoteByName users) op op.username =
        opEffect op (remoteByName users op.username) :=
      userOps.act_same (remoteByName users) op
    rw [hsame]
    unfold applyOp opEffect
    cases op.kind with
    | create =>
        cases hfound : remoteByName users op.username with
        | none =>
            have hfound' : lookup RemoteUser.username users op.username = none := hfound
            simp [remoteByName, lookup_append, lookup_cons, SyncOp.created, hfound']
        | some r => simpa using hfound
    | patch =>
        simpa [remoteByName] using
          lookup_map_update RemoteUser.username op.fields.write (write_username _) users
            op.username op.username
    | delete =>
        simpa [remoteByName] using
          lookup_filter_ne RemoteUser.username users op.username op.username
  · rw [userOps.act_other (remoteByName users) hname]
    unfold applyOp
    cases op.kind with
    | create =>
        cases hfound : remoteByName users op.username with
        | none =>
            have hne : op.created.username ≠ name := Ne.symm hname
            simp [remoteByName, lookup_append, lookup_cons, hne]
        | some r => rfl
    | patch =>
        have hupd := lookup_map_update RemoteUser.username op.fields.write
          (write_username _) users op.username name
        rw [if_neg hname] at hupd
        exact hupd
    | delete =>
        have hdel := lookup_filter_ne RemoteUser.username users op.username name
        rw [if_neg hname] at hdel
        exact hdel

theorem remoteByName_applyOps (users : List RemoteUser)
    (ops : List SyncOp) :
    remoteByName (applyOps users ops) = userOps.actAll (remoteByName users) ops := by
  induction ops generalizing users with
  | nil => rfl
  | cons op rest ih =>
      rw [applyOps_cons, ih, remoteByName_applyOp]
      rfl

theorem remoteByName_applyOp_other (users : List RemoteUser) {op : SyncOp}
    {name : String} (hname : name ≠ op.username) :
    remoteByName (applyOp users op) name = remoteByName users name := by
  rw [remoteByName_applyOp users op]
  exact userOps.act_other (remoteByName users) hname

/-!
## Planning for one username

The planner below is the purpose of the diff engine in one function: what to do
about a username, given whether it is desired and what the node has under it.
-/

section Planner

variable [RFC3339]

def planFor (pre : String) (name : String) (d : Option DesiredUser)
    (r : Option RemoteUser) : Option SyncOp :=
  match d, r with
  | none, none => none
  | none, some _ => if HasPrefix name pre then some (deleteOp name) else none
  | some d, none => some { createOp d with username := name }
  | some d, some r =>
      if (patchFieldsFor d r).2 then some (patchOp name (patchFieldsFor d r).1) else none

theorem planFor_some {pre name : String} {d : Option DesiredUser}
    {r : Option RemoteUser} {op : SyncOp} (h : planFor pre name d r = some op) :
    (d = none ∧ (exists r', r = some r') ∧ HasPrefix name pre = true ∧
        op = deleteOp name) ∨
      (exists d', d = some d' ∧ r = none ∧ op = { createOp d' with username := name }) ∨
      (exists d' r', d = some d' ∧ r = some r' ∧ (patchFieldsFor d' r').2 = true ∧
        op = patchOp name (patchFieldsFor d' r').1) := by
  cases d with
  | none =>
      cases r with
      | none => cases h
      | some r =>
          simp only [planFor, Option.ite_none_right_eq_some, Option.some.injEq] at h
          exact Or.inl ⟨rfl, ⟨r, rfl⟩, h.left, h.right.symm⟩
  | some d =>
      cases r with
      | none =>
          simp only [planFor, Option.some.injEq] at h
          exact Or.inr (Or.inl ⟨d, rfl, rfl, h.symm⟩)
      | some r =>
          simp only [planFor, Option.ite_none_right_eq_some, Option.some.injEq] at h
          exact Or.inr (Or.inr ⟨d, r, rfl, rfl, h.left, h.right.symm⟩)

theorem planFor_username {pre name : String} {d : Option DesiredUser}
    {r : Option RemoteUser} {op : SyncOp} (h : planFor pre name d r = some op) :
    op.username = name := by
  rcases planFor_some h with ⟨_, _, _, rfl⟩ | ⟨_, _, _, rfl⟩ | ⟨_, _, _, _, _, rfl⟩
  · rfl
  · rfl
  · rfl

theorem expirationEquals_refl (a : Option String) : ExpirationEquals a a = true := by
  cases a with
  | none => rfl
  | some a => simp [ExpirationEquals]

omit [RFC3339] in
theorem intEqual_iff {a b : Option Int} : intEqual a b = true <-> a = b := by
  cases a <;> cases b <;> simp [intEqual]

theorem patchFieldsFor_unchanged_iff {d : DesiredUser} {r : RemoteUser} :
    (patchFieldsFor d r).2 = false <->
      ExpirationEquals d.expirationRFC3339 r.expirationRFC3339 = true ∧
        d.maxTCPConns = r.maxTCPConns ∧ r.enabled = true := by
  unfold patchFieldsFor
  rw [← intEqual_iff]
  simp [and_assoc]

theorem write_patchFieldsFor (d : DesiredUser) (r : RemoteUser) :
    (patchFieldsFor d r).1.write r =
      { username := r.username
        enabled := true
        expirationRFC3339 :=
          if ExpirationEquals d.expirationRFC3339 r.expirationRFC3339 then
            r.expirationRFC3339
          else d.expirationRFC3339
        maxTCPConns := d.maxTCPConns } := by
  cases r with
  | mk name enabled exp conns =>
      have hconns : (if intEqual d.maxTCPConns conns then conns else d.maxTCPConns) =
          d.maxTCPConns := by
        split
        · rename_i heq
          exact (intEqual_iff.mp heq).symm
        · rfl
      cases enabled <;> cases hexp : ExpirationEquals d.expirationRFC3339 exp <;>
        cases heq : intEqual d.maxTCPConns conns <;>
        simp_all [patchFieldsFor, PatchFields.write]

theorem patchFieldsFor_write (d : DesiredUser) (r : RemoteUser) :
    (patchFieldsFor d ((patchFieldsFor d r).1.write r)).2 = false := by
  rw [write_patchFieldsFor, patchFieldsFor_unchanged_iff]
  refine ⟨?_, rfl, rfl⟩
  show ExpirationEquals d.expirationRFC3339
    (if ExpirationEquals d.expirationRFC3339 r.expirationRFC3339 then
      r.expirationRFC3339 else d.expirationRFC3339) = true
  split
  · assumption
  · exact expirationEquals_refl _

theorem planFor_settles {pre name : String} {d : Option DesiredUser}
    {r : Option RemoteUser} {op : SyncOp} (h : planFor pre name d r = some op) :
    planFor pre name d (opEffect op r) = none := by
  rcases planFor_some h with
    ⟨rfl, _, _, rfl⟩ | ⟨d, rfl, rfl, rfl⟩ | ⟨d, r, rfl, rfl, _, rfl⟩
  · rfl
  · have hcreated : (patchFieldsFor d
        ({ createOp d with username := name } : SyncOp).created).2 = false := by
      rw [patchFieldsFor_unchanged_iff]
      exact ⟨expirationEquals_refl _, rfl, rfl⟩
    show (if (patchFieldsFor d ({ createOp d with username := name } :
      SyncOp).created).2 then _ else none) = none
    rw [hcreated]
    rfl
  · show (if (patchFieldsFor d ((patchFieldsFor d r).1.write r)).2 then _ else none) = none
    rw [patchFieldsFor_write]
    rfl

def userPlanner (pre : String) : Planner String DesiredUser RemoteUser SyncOp where
  toPointwise := userOps
  plan := planFor pre
  plan_key := planFor_username
  settles := planFor_settles

end Planner

end TelemtSync
end Telemux
