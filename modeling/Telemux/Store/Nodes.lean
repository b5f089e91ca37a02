import Telemux.Store.Users
import Telemux.Time.RFC3339

/-!
# Nodes and join tokens

Package `store`, `nodes.go`: the registry of the nodes of a cluster, and the tokens
a node joins with.  As for the users, the functions say what the statements do on
a database that answers; `now` is what `now()` gives in the statement.
-/

namespace Telemux
namespace Store

open Reconcile

/-!
## The registry
-/

/-- A row of the table `nodes`. -/
structure Node where
  code : String := ""
  name : String := ""
  address : String := ""
  telemtAPIURL : String := ""
  role : String := ""
  enabled : Bool := false
  lastSeenAt : Option Int := none
deriving DecidableEq, Repr

structure NodesTable where
  rows : List Node
  code_unique : Distinct Node.code rows

def NodesTable.empty : NodesTable := ⟨[], by simp [Distinct]⟩

/-- The row that `INSERT` makes, with what the schema gives to `enabled`. -/
def Node.inserted (n : Node) (now : Int) : Node :=
  { n with enabled := true, lastSeenAt := some now }

/-- `DO UPDATE SET`. -/
def Node.updated (row n : Node) (now : Int) : Node :=
  { row with
    name := n.name
    address := n.address
    telemtAPIURL := n.telemtAPIURL
    role := n.role
    lastSeenAt := some now }

def UpsertNode (t : NodesTable) (now : Int) (n : Node) : NodesTable :=
  if hnew : lookup Node.code t.rows n.code = none then
    ⟨t.rows ++ [n.inserted now], distinct_append_singleton t.code_unique hnew⟩
  else
    ⟨t.rows.map fun row => if row.code = n.code then row.updated n now else row,
      distinct_map_update t.code_unique (fun row => row.updated n now) (fun _ => rfl) n.code⟩

/-- `ORDER BY code`. -/
def ListNodes [Collation] (t : NodesTable) : List Node :=
  t.rows.mergeSort fun m n => Collation.le m.code n.code

theorem mem_listNodes [Collation] {t : NodesTable} {n : Node} :
    n ∈ ListNodes t <-> n ∈ t.rows :=
  (List.mergeSort_perm _ _).mem_iff

theorem lookup_upsertNode (t : NodesTable) (now : Int) (n : Node) (code : String) :
    lookup Node.code (UpsertNode t now n).rows code =
      if code = n.code then
        some (((lookup Node.code t.rows code).map fun row => row.updated n now).getD
          (n.inserted now))
      else lookup Node.code t.rows code := by
  unfold UpsertNode
  split
  · rename_i hnew
    rw [lookup_append, lookup_cons, lookup_nil, Option.none_or]
    by_cases hcode : code = n.code
    · have hsame : (n.inserted now).code = n.code := rfl
      rw [if_pos hcode, hcode, if_pos hsame, Option.some_or, hnew]
      rfl
    · have hne : (n.inserted now).code ≠ code := Ne.symm hcode
      rw [if_neg hcode, if_neg hne, Option.none_or]
  · rename_i hold
    rw [lookup_map_update Node.code (fun row => row.updated n now) (fun _ => rfl)]
    by_cases hcode : code = n.code
    · rw [if_pos hcode, if_pos hcode, hcode]
      cases hrow : lookup Node.code t.rows n.code with
      | none => exact absurd hrow hold
      | some row => rfl
    · rw [if_neg hcode, if_neg hcode]

theorem mem_upsertNode {t : NodesTable} {now : Int} {n row : Node}
    (h : row ∈ (UpsertNode t now n).rows) :
    row ∈ t.rows ∨ row = n.inserted now ∨
      exists old, old ∈ t.rows ∧ old.code = n.code ∧ row = old.updated n now := by
  unfold UpsertNode at h
  split at h
  · rcases List.mem_append.mp h with hold | hnew
    · exact Or.inl hold
    · exact Or.inr (Or.inl (List.mem_singleton.mp hnew))
  · rcases List.mem_map.mp h with ⟨old, hold, rfl⟩
    split
    · rename_i hcode
      exact Or.inr (Or.inr ⟨old, hold, hcode, rfl⟩)
    · exact Or.inl hold

/-!
## Join tokens
-/

/-- A row of the table `join_tokens`. -/
structure JoinToken where
  token : String
  expiresAt : Int
  usedAt : Option Int := none
  createdAt : Int
deriving DecidableEq, Repr

structure JoinTokensTable where
  rows : List JoinToken
  token_unique : Distinct JoinToken.token rows

def JoinTokensTable.empty : JoinTokensTable := ⟨[], by simp [Distinct]⟩

/-- `int(ttl.Seconds())`, as an interval. -/
def wholeSeconds (ttl : Int) : Int := ttl.tdiv Time.second * Time.second

/-- `INSERT INTO join_tokens`, which the primary key may refuse. -/
def CreateJoinToken (t : JoinTokensTable) (now : Int) (token : String) (ttl : Int) :
    Option JoinTokensTable :=
  if hnew : lookup JoinToken.token t.rows token = none then
    some
      ⟨t.rows ++
          [{ token := token, expiresAt := now + wholeSeconds ttl, createdAt := now }],
        distinct_append_singleton t.token_unique hnew⟩
  else none

/-- `used_at IS NULL AND expires_at > now()`. -/
def JoinToken.valid (row : JoinToken) (now : Int) : Bool :=
  row.usedAt.isNone && decide (now < row.expiresAt)

def JoinToken.used (row : JoinToken) (now : Int) : JoinToken :=
  if row.valid now then { row with usedAt := some now } else row

theorem used_token (row : JoinToken) (now : Int) : (row.used now).token = row.token := by
  unfold JoinToken.used
  split <;> rfl

def ConsumeJoinToken (t : JoinTokensTable) (now : Int) (token : String) :
    Bool × JoinTokensTable :=
  (decide ((t.rows.filter fun row => decide (row.token = token) && row.valid now).length = 1),
    ⟨t.rows.map fun row => if row.token = token then row.used now else row,
      distinct_map_update t.token_unique (fun row => row.used now)
        (fun row => used_token row now) token⟩)

def JoinTokensTable.row (t : JoinTokensTable) (token : String) : Option JoinToken :=
  lookup JoinToken.token t.rows token

theorem createJoinToken_row {t t' : JoinTokensTable} {now : Int} {token : String} {ttl : Int}
    (h : CreateJoinToken t now token ttl = some t') (tok : String) :
    t.row token = none ∧
      t'.row tok =
        if tok = token then
          some { token := token, expiresAt := now + wholeSeconds ttl, createdAt := now }
        else t.row tok := by
  unfold CreateJoinToken at h
  split at h
  · rename_i hnew
    cases h
    refine ⟨hnew, ?_⟩
    unfold JoinTokensTable.row
    rw [lookup_append, lookup_cons, lookup_nil, Option.none_or]
    by_cases htok : tok = token
    · rw [if_pos htok, if_pos htok.symm, Option.some_or]
    · rw [if_neg htok, if_neg (Ne.symm htok), Option.none_or]
  · cases h

theorem consumeJoinToken_row (t : JoinTokensTable) (now : Int) (token tok : String) :
    (ConsumeJoinToken t now token).2.row tok =
      if tok = token then (t.row tok).map fun row => row.used now else t.row tok :=
  lookup_map_update JoinToken.token (fun row => row.used now)
    (fun row => used_token row now) t.rows token tok

theorem consumeJoinToken_iff {t : JoinTokensTable} {now : Int} {token : String} :
    (ConsumeJoinToken t now token).1 = true <->
      exists row, t.row token = some row ∧ row.valid now = true := by
  have hdistinct : Distinct JoinToken.token
      (t.rows.filter fun row => decide (row.token = token) && row.valid now) :=
    distinct_filter t.token_unique _
  have hmem : forall row,
      (row ∈ t.rows.filter fun row => decide (row.token = token) && row.valid now) <->
        t.row token = some row ∧ row.valid now = true := by
    intro row
    unfold JoinTokensTable.row
    rw [lookup_eq_some_iff t.token_unique]
    simp [and_assoc]
  have hle := distinct_length_le_one hdistinct
    (fun row hrow => (lookup_some ((hmem row).mp hrow).left).right)
  show decide (_ = 1) = true <-> _
  rw [decide_eq_true_iff]
  constructor
  · intro h
    rcases List.length_eq_one_iff.mp h with ⟨row, hrow⟩
    refine ⟨row, (hmem row).mp ?_⟩
    rw [hrow]
    exact List.mem_singleton_self row
  · intro h
    rcases h with ⟨row, hrow⟩
    exact Nat.le_antisymm hle (List.length_pos_of_mem ((hmem row).mpr hrow))

end Store
end Telemux
