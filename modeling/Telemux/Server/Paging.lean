import Telemux.Store.Users
import Telemux.Text.Decimal

/-!
# Pages of users

`GET /api/users` reads a limit and an offset from the query, and reports them as
it read them.  The store has limits of its own: it selects by other numbers when
these are out of range, so a client that goes by the report can miss users, or
never come to the end.
-/

namespace Telemux
namespace Server

open Store Text

/-!
## The handler
-/

/-- `strconv.Atoi`; an `int` has 64 bits. -/
def Atoi (s : String) : Option Int :=
  (readInt s.toList).bind fun n => if -2 ^ 63 ≤ n ∧ n < 2 ^ 63 then some n else none

def atoiDefault (s : String) (fallback : Int) : Int :=
  if s = "" then fallback else (Atoi s).getD fallback

structure Paging where
  total : Nat
  limit : Int
  offset : Int
deriving DecidableEq, Repr

structure UsersPage where
  data : List User
  paging : Paging
deriving DecidableEq, Repr

section Pages

variable [Collation]

/-- `GET /api/users` with the two parameters of the query, on a database that answers. -/
def handleList (t : UsersTable) (limit offset : String) : UsersPage :=
  let limit := atoiDefault limit 20
  let offset := atoiDefault offset 0
  let page := ListUsersPage t limit offset
  { data := page.1, paging := { total := page.2, limit := limit, offset := offset } }

/-!
## The client

A client starts at some offset, keeps its limit, and goes on where the report
says that the page ends, until that is the total.
-/

def Paging.next (p : Paging) : Int :=
  p.offset + p.limit

inductive Walk (t : UsersTable) (limit : String) : Int -> List User -> Prop where
  | last {offset : Int} {page : UsersPage} :
      handleList t limit (toString offset) = page ->
      (page.paging.total : Int) ≤ page.paging.next -> Walk t limit offset page.data
  | more {offset : Int} {page : UsersPage} {users : List User} :
      handleList t limit (toString offset) = page -> page.paging.next < page.paging.total ->
      Walk t limit page.paging.next users -> Walk t limit offset (page.data ++ users)

/-- The rows at the positions from `offset` up to `offset + limit`. -/
def slice (rows : List User) (limit offset : Int) : List User :=
  (rows.take (offset + limit).toNat).drop offset.toNat

/-!
## What the query says
-/

omit [Collation] in
theorem atoiDefault_toString {n : Int} (hlow : -2 ^ 63 ≤ n) (hhigh : n < 2 ^ 63)
    (fallback : Int) : atoiDefault (toString n) fallback = n := by
  have hread : Atoi (toString n) = some n := by
    unfold Atoi
    rw [readInt_toString, Option.bind_some, if_pos ⟨hlow, hhigh⟩]
  unfold atoiDefault
  split
  · rename_i hempty
    rw [hempty] at hread
    cases hread
  · rw [hread]
    rfl

omit [Collation] in
theorem atoiDefault_nonpos {n : Int} (h : n ≤ 0) : atoiDefault (toString n) 0 ≤ 0 := by
  by_cases hlow : -2 ^ 63 ≤ n
  · rw [atoiDefault_toString hlow (by omega)]
    exact h
  · have hread : Atoi (toString n) = none := by
      unfold Atoi
      rw [readInt_toString, Option.bind_some, if_neg fun hrange => hlow hrange.left]
    unfold atoiDefault
    rw [hread]
    split
    · exact le_rfl
    · exact le_rfl

/-!
## One page
-/

def selected (limit : Int) : Nat :=
  if limit ≤ 0 ∨ 100 < limit then 20 else limit.toNat

theorem listUsersPage_eq (t : UsersTable) (limit offset : Int) :
    ListUsersPage t limit offset =
      ((t.ordered.drop offset.toNat).take (selected limit), t.rows.length) := by
  have hoffset : (if offset < 0 then 0 else offset).toNat = offset.toNat := by
    split
    · omega
    · rfl
  have hlimit : (if limit ≤ 0 ∨ 100 < limit then 20 else limit).toNat = selected limit := by
    unfold selected
    split
    · rfl
    · rfl
  unfold ListUsersPage
  simp only [hoffset, hlimit]

def Described (total : Nat) (limit offset : Int) : Prop :=
  offset + limit = max 0 offset + selected limit ∨ (total : Int) ≤ max 0 offset ∨
    ((total : Int) ≤ max 0 offset + selected limit ∧ (total : Int) ≤ offset + limit)

theorem data_eq_slice_iff (t : UsersTable) (limit offset : Int) :
    (ListUsersPage t limit offset).1 = slice t.ordered limit offset <->
      Described t.rows.length limit offset := by
  unfold slice Described
  rw [listUsersPage_eq, List.drop_take, List.take_eq_take_iff, List.length_drop, ordered_length]
  have hselected : 0 < selected limit := by
    unfold selected
    split
    · decide
    · omega
  omega

/-!
## The whole walk
-/

theorem handleList_eq (t : UsersTable) (limit : String) (offset : Int)
    (hlow : -2 ^ 63 ≤ offset) (hhigh : offset < 2 ^ 63) :
    handleList t limit (toString offset) =
      { data := (t.ordered.drop offset.toNat).take (selected (atoiDefault limit 20))
        paging :=
          { total := t.rows.length, limit := atoiDefault limit 20, offset := offset } } := by
  unfold handleList
  rw [atoiDefault_toString hlow hhigh]
  simp only [listUsersPage_eq]

theorem walk_in_range (t : UsersTable) {limit : String} (htotal : t.rows.length < 2 ^ 63)
    (hlow : 1 ≤ atoiDefault limit 20) (hhigh : atoiDefault limit 20 ≤ 100) (left : Nat) :
    forall offset : Nat, offset < 2 ^ 63 -> t.rows.length ≤ offset + left ->
      Walk t limit offset (t.ordered.drop offset) := by
  have hselected : (selected (atoiDefault limit 20) : Int) = atoiDefault limit 20 := by
    unfold selected
    rw [if_neg (by omega)]
    omega
  induction left using Nat.strong_induction_on with
  | _ left ih =>
      intro offset hoffset hleft
      have hpage := handleList_eq t limit offset (by omega) (by omega)
      rw [Int.toNat_natCast] at hpage
      by_cases hlast : t.rows.length ≤ offset + selected (atoiDefault limit 20)
      · have hall : (t.ordered.drop offset).take (selected (atoiDefault limit 20)) =
            t.ordered.drop offset := by
          apply List.take_of_length_le
          rw [List.length_drop, ordered_length]
          omega
        rw [hall] at hpage
        apply Walk.last hpage
        simp only [Paging.next]
        omega
      · have hrest := ih (left - selected (atoiDefault limit 20)) (by omega)
          (offset + selected (atoiDefault limit 20)) (by omega) (by omega)
        rw [← List.take_append_drop (selected (atoiDefault limit 20)) (t.ordered.drop offset),
          List.drop_drop]
        refine Walk.more hpage ?_ ?_
        · simp only [Paging.next]
          omega
        · have hnext : (offset : Int) + atoiDefault limit 20 =
              (offset + selected (atoiDefault limit 20) : Nat) := by
            omega
          simp only [Paging.next]
          rw [hnext]
          exact hrest

theorem walk_one_page (t : UsersTable) {limit : String}
    (hfits : t.rows.length ≤ selected (atoiDefault limit 20))
    (hend : (t.rows.length : Int) ≤ atoiDefault limit 20) : Walk t limit 0 t.ordered := by
  have hpage := handleList_eq t limit 0 (by decide) (by decide)
  have hall : (t.ordered.drop 0).take (selected (atoiDefault limit 20)) = t.ordered := by
    rw [List.drop_zero]
    apply List.take_of_length_le
    rw [ordered_length]
    exact hfits
  rw [Int.toNat_zero, hall] at hpage
  apply Walk.last hpage
  simp only [Paging.next]
  omega

theorem no_walk_without_limit (t : UsersTable) {limit : String}
    (hlimit : atoiDefault limit 20 < 0 ∨ (atoiDefault limit 20 = 0 ∧ t.rows ≠ []))
    {offset : Int} {users : List User} (hwalk : Walk t limit offset users) : 0 < offset := by
  by_contra hoffset
  have htotal : atoiDefault limit 20 < 0 ∨ 0 < t.rows.length := by
    rcases hlimit with hneg | ⟨_, hrows⟩
    · exact .inl hneg
    · exact .inr (List.length_pos_iff.mpr hrows)
  induction hwalk with
  | @last offset page hpage hlast =>
      have hread := atoiDefault_nonpos (n := offset) (by omega)
      subst hpage
      simp only [handleList, ListUsersPage, Paging.next] at hlast
      omega
  | @more offset page users hpage hnext _ ih =>
      have hread := atoiDefault_nonpos (n := offset) (by omega)
      apply ih
      subst hpage
      simp only [handleList, Paging.next]
      omega

theorem walk_short (t : UsersTable) {limit : String} (htotal : t.rows.length < 2 ^ 63)
    (hlimit : 100 < atoiDefault limit 20) {offset : Int} {users : List User}
    (hwalk : Walk t limit offset users) (hlow : 0 ≤ offset) (hhigh : offset < 2 ^ 63) :
    users.length ≤ 20 ∨ users.length + offset < t.rows.length := by
  have hselected : selected (atoiDefault limit 20) = 20 := by
    unfold selected
    rw [if_pos (by omega)]
  induction hwalk with
  | @last offset page hpage hlast =>
      rw [handleList_eq t limit offset (by omega) hhigh, hselected] at hpage
      subst hpage
      left
      rw [List.length_take]
      omega
  | @more offset page users hpage hnext _ ih =>
      rw [handleList_eq t limit offset (by omega) hhigh, hselected] at hpage
      subst hpage
      simp only [Paging.next] at hnext ih
      have hrest := ih (by omega) (by omega)
      right
      rw [List.length_append, List.length_take]
      omega

/--
A walk from the first row lists every user once, in order, exactly if the store
keeps the limit, or the table is too small for the difference to show; and one
page is what the report describes exactly if its numbers are those selected by.
-/
theorem pages_visit_all_iff :
    (forall (t : UsersTable) (limit : String), t.rows.length < 2 ^ 63 ->
      (Walk t limit 0 t.ordered <->
        (1 ≤ atoiDefault limit 20 ∧ atoiDefault limit 20 ≤ 100) ∨
        (100 < atoiDefault limit 20 ∧ t.rows.length ≤ 20) ∨
        (atoiDefault limit 20 = 0 ∧ t.rows = []))) ∧
    forall (t : UsersTable) (limit offset : String),
      (handleList t limit offset).data = slice t.ordered
          (handleList t limit offset).paging.limit (handleList t limit offset).paging.offset <->
        Described t.rows.length (atoiDefault limit 20) (atoiDefault offset 0) := by
  constructor
  · intro t limit htotal
    constructor
    · intro hwalk
      by_cases hneg : atoiDefault limit 20 < 0
      · exact absurd (no_walk_without_limit t (.inl hneg) hwalk) (by decide)
      · by_cases hzero : atoiDefault limit 20 = 0
        · by_cases hrows : t.rows = []
          · exact .inr (.inr ⟨hzero, hrows⟩)
          · exact absurd (no_walk_without_limit t (.inr ⟨hzero, hrows⟩) hwalk) (by decide)
        · by_cases hbig : 100 < atoiDefault limit 20
          · have hshort := walk_short t htotal hbig hwalk (by decide) (by decide)
            rw [ordered_length] at hshort
            exact .inr (.inl ⟨hbig, by omega⟩)
          · exact .inl ⟨by omega, by omega⟩
    · intro hcond
      rcases hcond with ⟨hlow, hhigh⟩ | ⟨hbig, hrows⟩ | ⟨hzero, hrows⟩
      · have hwalk := walk_in_range t htotal hlow hhigh t.rows.length 0 (by decide) (by omega)
        exact hwalk
      · apply walk_one_page t
        · unfold selected
          rw [if_pos (.inr hbig)]
          exact hrows
        · omega
      · have hlength : t.rows.length = 0 := List.length_eq_zero_iff.mpr hrows
        apply walk_one_page t
        · omega
        · omega
  · intro t limit offset
    exact data_eq_slice_iff t _ _

end Pages

/-- Five users, two a page. -/
theorem pages_visit_all_iff_sample :
    letI := sampleCollation
    let user (name : String) : User := ⟨name, "ee", none, none, true, 0⟩
    let t : UsersTable := ⟨[user "sub_c", user "sub_a", user "sub_e", user "sub_b", user "sub_d"],
      by unfold Reconcile.Distinct; decide⟩
    Walk t "2" 0 t.ordered ∧
      (handleList t "2" "2").data = slice t.ordered (handleList t "2" "2").paging.limit
        (handleList t "2" "2").paging.offset := by
  let := sampleCollation
  let user (name : String) : User := ⟨name, "ee", none, none, true, 0⟩
  let t : UsersTable := ⟨[user "sub_c", user "sub_a", user "sub_e", user "sub_b", user "sub_d"],
    by unfold Reconcile.Distinct; decide⟩
  constructor
  · exact (pages_visit_all_iff.left t "2" (by decide)).mpr (.inl (by decide +kernel))
  · exact (pages_visit_all_iff.right t "2" "2").mpr (.inl (by decide +kernel))

/-- A limit of zero, of which the client never comes to the end. -/
theorem pages_never_end :
    letI := sampleCollation
    let t : UsersTable :=
      ⟨[⟨"sub_a", "ee", none, none, true, 0⟩], by unfold Reconcile.Distinct; decide⟩
    ¬ exists users, Walk t "0" 0 users := by
  let := sampleCollation
  intro t hends
  rcases hends with ⟨users, hwalk⟩
  have hzero : atoiDefault "0" 20 = 0 := by decide +kernel
  exact absurd (no_walk_without_limit t (.inr ⟨hzero, List.cons_ne_nil _ _⟩) hwalk) (by decide)

end Server
end Telemux
