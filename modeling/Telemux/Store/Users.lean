import Telemux.TelemtSync.NodeState

/-!
# The users table

Package `store`: the table of users in the local database, what the panel does
to it, and the desired users it gives to the sync loop.  The functions say what
their statements do on a database that answers; a statement that fails changes
nothing and is not described here.

The table is a list of rows with unique usernames, instants are as the database
keeps them, and the order of usernames is that of its collation.
-/

namespace Telemux
namespace Store

open Reconcile TelemtSync

structure User where
  username : String
  secret : String
  expirationAt : Option Int
  maxTCPConns : Option Int
  enabled : Bool
  createdAt : Int
deriving DecidableEq, Repr

structure UsersTable where
  rows : List User
  username_unique : Distinct User.username rows

def UsersTable.empty : UsersTable := ⟨[], by simp [Distinct]⟩

/-- How `CreateUser` fails. -/
inductive CreateError where
  | usernameRequired
  | secretFailed
  | ErrUserExists
deriving DecidableEq, Repr

/-- The order of `ORDER BY username`. -/
class Collation where
  le : String -> String -> Bool

@[reducible] def sampleCollation : Collation where
  le s t := decide (s ≤ t)

/-!
## Statements
-/

/-- `INSERT INTO users`, which the unique username may refuse. -/
def UsersTable.insert (t : UsersTable) (u : User) : Option UsersTable :=
  if hnew : lookup User.username t.rows u.username = none then
    some ⟨t.rows ++ [u], distinct_append_singleton t.username_unique hnew⟩
  else none

/-- `UPDATE users SET … WHERE username = $1`; `f` keeps the username. -/
def UsersTable.update (t : UsersTable) (username : String) (f : User -> User)
    (hf : forall u, (f u).username = u.username) : UsersTable where
  rows := t.rows.map fun u => if u.username = username then f u else u
  username_unique := distinct_map_update t.username_unique f hf username

/-- The number of rows that `WHERE username = $1` selects. -/
def UsersTable.rowsAffected (t : UsersTable) (username : String) : Nat :=
  (t.rows.filter fun u => decide (u.username = username)).length

theorem rowsAffected_le_one (t : UsersTable) (username : String) :
    t.rowsAffected username ≤ 1 := by
  have hdistinct : Distinct User.username
      (t.rows.filter fun u => decide (u.username = username)) :=
    distinct_filter t.username_unique _
  have hsame : (t.rows.filter fun u => decide (u.username = username)).map User.username =
      List.replicate (t.rowsAffected username) username := by
    apply List.map_eq_replicate_iff.mpr
    intro u hu
    exact of_decide_eq_true (List.mem_filter.mp hu).right
  unfold Distinct at hdistinct
  rwa [hsame, List.nodup_replicate] at hdistinct

/-!
## What the panel does
-/

/-- `generated` is what `GenerateSecret` gives when no secret is asked for. -/
def CreateUser (t : UsersTable) (now : Int) (generated : Option String)
    (username secret : String) (exp : Option Int) (maxConns : Option Int) :
    Except CreateError (User × UsersTable) :=
  if username = "" then .error .usernameRequired
  else
    match if secret = "" then generated else some secret with
    | none => .error .secretFailed
    | some secret =>
        let u : User :=
          { username := username
            secret := secret
            expirationAt := exp
            maxTCPConns := maxConns
            enabled := true
            createdAt := now }
        match t.insert u with
        | none => .error .ErrUserExists
        | some t' => .ok (u, t')

def DeleteUser (t : UsersTable) (username : String) : Bool × UsersTable :=
  (decide (t.rowsAffected username = 1),
    ⟨t.rows.filter fun u => decide (u.username ≠ username),
      distinct_filter t.username_unique _⟩)

def SetExpiration (t : UsersTable) (username : String) (exp : Option Int) :
    Bool × UsersTable :=
  (decide (t.rowsAffected username = 1),
    t.update username (fun u => { u with expirationAt := exp }) (fun _ => rfl))

def SetEnabled (t : UsersTable) (username : String) (enabled : Bool) : Bool × UsersTable :=
  (decide (t.rowsAffected username = 1),
    t.update username (fun u => { u with enabled := enabled }) (fun _ => rfl))

theorem createUser_row {t t' : UsersTable} {now : Int} {generated : Option String}
    {username secret : String} {exp maxConns : Option Int} {u : User}
    (h : CreateUser t now generated username secret exp maxConns = .ok (u, t')) :
    (forall v, v ∈ t.rows -> v.username ≠ username) ∧ t'.rows = t.rows ++ [u] ∧
      u.expirationAt = exp := by
  unfold CreateUser at h
  split at h
  · cases h
  · split at h
    · cases h
    · dsimp only [UsersTable.insert] at h
      split at h
      · cases h
      · rename_i hinsert
        split at hinsert
        · rename_i hnew
          cases hinsert
          cases h
          exact ⟨lookup_eq_none_iff.mp hnew, rfl, rfl⟩
        · cases hinsert

/-!
## What the sync loop reads
-/

section Desired

variable [RFC3339]

def User.desired (u : User) : DesiredUser where
  username := u.username
  secret := u.secret
  expirationRFC3339 := u.expirationAt.map RFC3339.format
  maxTCPConns := u.maxTCPConns

/-- `WHERE enabled ORDER BY username`. -/
def ListDesired [Collation] (t : UsersTable) : List DesiredUser :=
  ((t.rows.filter fun u => u.enabled).mergeSort
    fun u v => Collation.le u.username v.username).map User.desired

theorem mem_listDesired [Collation] {t : UsersTable} {d : DesiredUser} :
    d ∈ ListDesired t <-> exists u, u ∈ t.rows ∧ u.enabled = true ∧ u.desired = d := by
  unfold ListDesired
  simp only [List.mem_map, List.mem_mergeSort, List.mem_filter, and_assoc]

theorem listDesired_distinct [Collation] (t : UsersTable) :
    DistinctDesired (ListDesired t) := by
  have hsorted : (ListDesired t).Perm ((t.rows.filter fun u => u.enabled).map User.desired) :=
    (List.mergeSort_perm _ _).map User.desired
  show ((ListDesired t).map DesiredUser.username).Nodup
  rw [(hsorted.map DesiredUser.username).nodup_iff, List.map_map]
  exact distinct_filter t.username_unique _

end Desired

/-!
## What the panel reads

`LIMIT` and `OFFSET` count rows of the table in its order, which lists every row
once.
-/

section Pages

variable [Collation]

/-- `ORDER BY created_at DESC, username`, for two rows. -/
def newerFirst (u v : User) : Bool :=
  decide (v.createdAt < u.createdAt) ||
    (decide (u.createdAt = v.createdAt) && Collation.le u.username v.username)

def UsersTable.ordered (t : UsersTable) : List User :=
  t.rows.mergeSort newerFirst

def ListUsersPage (t : UsersTable) (limit offset : Int) : List User × Nat :=
  let limit := if limit ≤ 0 ∨ 100 < limit then 20 else limit
  let offset := if offset < 0 then 0 else offset
  ((t.ordered.drop offset.toNat).take limit.toNat, t.rows.length)

theorem ordered_perm (t : UsersTable) : t.ordered.Perm t.rows :=
  List.mergeSort_perm _ _

theorem ordered_length (t : UsersTable) : t.ordered.length = t.rows.length :=
  (ordered_perm t).length_eq

theorem ordered_sorted (t : UsersTable)
    (htrans : forall a b c, Collation.le a b = true -> Collation.le b c = true ->
      Collation.le a c = true)
    (htotal : forall a b, (Collation.le a b || Collation.le b a) = true) :
    t.ordered.Pairwise fun u v => v.createdAt < u.createdAt ∨
      (u.createdAt = v.createdAt ∧ Collation.le u.username v.username = true) := by
  have hnewer : forall u v, newerFirst u v = true <-> v.createdAt < u.createdAt ∨
      (u.createdAt = v.createdAt ∧ Collation.le u.username v.username = true) := by
    intro u v
    simp [newerFirst]
  have hsorted : t.ordered.Pairwise fun u v => newerFirst u v = true := by
    apply List.pairwise_mergeSort
    · intro u v w huv hvw
      rw [hnewer] at huv hvw ⊢
      rcases huv with huv | ⟨huv, hnames⟩
      · rcases hvw with hvw | ⟨hvw, _⟩
        · exact .inl (hvw.trans huv)
        · exact .inl (hvw ▸ huv)
      · rcases hvw with hvw | ⟨hvw, hnames'⟩
        · exact .inl (huv ▸ hvw)
        · exact .inr ⟨huv.trans hvw, htrans _ _ _ hnames hnames'⟩
    · intro u v
      rw [Bool.or_eq_true, hnewer, hnewer]
      rcases lt_trichotomy u.createdAt v.createdAt with hlt | heq | hgt
      · exact .inr (.inl hlt)
      · rcases (Bool.or_eq_true _ _).mp (htotal u.username v.username) with huv | hvu
        · exact .inl (.inr ⟨heq, huv⟩)
        · exact .inr (.inr ⟨heq.symm, hvu⟩)
      · exact .inl (.inl hgt)
  exact hsorted.imp fun {u v} hle => (hnewer u v).mp hle

end Pages

/-!
## The enabled usernames

What each statement does to the set of usernames with an enabled row.
-/

def UsersTable.Enabled (t : UsersTable) (name : String) : Prop :=
  exists u, u ∈ t.rows ∧ u.username = name ∧ u.enabled = true

theorem desired_iff_enabled [RFC3339] [Collation] {t : UsersTable} {name : String} :
    (exists d, d ∈ ListDesired t ∧ d.username = name) <-> t.Enabled name := by
  constructor
  · intro hdesired
    rcases hdesired with ⟨d, hd, hname⟩
    rcases mem_listDesired.mp hd with ⟨u, hu, hen, rfl⟩
    exact ⟨u, hu, hname, hen⟩
  · intro henabled
    rcases henabled with ⟨u, hu, hname, hen⟩
    exact ⟨u.desired, mem_listDesired.mpr ⟨u, hu, hen, rfl⟩, hname⟩

theorem insert_enabled {t t' : UsersTable} {u : User} (h : t.insert u = some t')
    {name : String} (hname : t.Enabled name) : t'.Enabled name := by
  unfold UsersTable.insert at h
  split at h
  · cases h
    rcases hname with ⟨v, hv, hsame, hen⟩
    exact ⟨v, List.mem_append_left _ hv, hsame, hen⟩
  · cases h

theorem createUser_enabled {t t' : UsersTable} {now : Int} {generated : Option String}
    {username secret : String} {exp maxConns : Option Int} {u : User}
    (h : CreateUser t now generated username secret exp maxConns = .ok (u, t'))
    {name : String} (hname : t.Enabled name) : t'.Enabled name := by
  unfold CreateUser at h
  split at h
  · cases h
  · split at h
    · cases h
    · dsimp only at h
      split at h
      · cases h
      · rename_i hinsert
        cases h
        exact insert_enabled hinsert hname

theorem deleteUser_enabled {t : UsersTable} {username name : String}
    (hne : name ≠ username) (hname : t.Enabled name) :
    (DeleteUser t username).2.Enabled name := by
  rcases hname with ⟨u, hu, rfl, hen⟩
  refine ⟨u, ?_, rfl, hen⟩
  simpa [DeleteUser, hu] using hne

theorem update_enabled {t : UsersTable} {username name : String} (f : User -> User)
    (hf : forall u, (f u).username = u.username)
    (hkeep : name = username -> forall u, u.enabled = true -> (f u).enabled = true)
    (hname : t.Enabled name) : (t.update username f hf).Enabled name := by
  rcases hname with ⟨u, hu, rfl, hen⟩
  refine ⟨if u.username = username then f u else u, List.mem_map_of_mem hu, ?_⟩
  split
  · rename_i hsame
    exact ⟨hf u, hkeep hsame u hen⟩
  · exact ⟨rfl, hen⟩

theorem setExpiration_enabled {t : UsersTable} {name : String} (username : String)
    (exp : Option Int) (hname : t.Enabled name) :
    (SetExpiration t username exp).2.Enabled name :=
  update_enabled (fun u => { u with expirationAt := exp }) (fun _ => rfl) (fun _ _ hu => hu)
    hname

theorem setEnabled_enabled {t : UsersTable} {name : String} (username : String)
    (enabled : Bool) (hkeep : name = username -> enabled = true) (hname : t.Enabled name) :
    (SetEnabled t username enabled).2.Enabled name :=
  update_enabled (fun u => { u with enabled := enabled }) (fun _ => rfl)
    (fun hsame _ _ => hkeep hsame) hname

end Store
end Telemux
