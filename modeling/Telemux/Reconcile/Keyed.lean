import Mathlib.Data.List.Forall2
import Mathlib.Data.List.Nodup
import Mathlib.Data.List.Perm.Basic

/-!
# Lists of keyed records

A list whose entries carry a key is read as a finite map: storing the entries
one after another, the last one with a key wins.  On lists with distinct keys
this is plain membership, and the usual edits (append, edit in place, remove)
act on one key at a time.
-/

namespace Telemux
namespace Reconcile

variable {α β κ : Type} [DecidableEq κ]

/-- What a map holds under `k` once the entries have been stored in order. -/
def lookup (key : α -> κ) (l : List α) (k : κ) : Option α :=
  l.foldl (fun found a => if key a = k then some a else found) none

def Distinct (key : α -> κ) (l : List α) : Prop :=
  (l.map key).Nodup

instance (key : α -> κ) (l : List α) : Decidable (Distinct key l) :=
  inferInstanceAs (Decidable (l.map key).Nodup)

@[simp] theorem lookup_nil (key : α -> κ) (k : κ) : lookup key [] k = none := rfl

private theorem foldl_lookup (key : α -> κ) (l : List α) (k : κ) (found : Option α) :
    l.foldl (fun found a => if key a = k then some a else found) found =
      (lookup key l k).or found := by
  induction l generalizing found with
  | nil => simp
  | cons a rest ih =>
      unfold lookup
      rw [List.foldl_cons, List.foldl_cons, ih, ih (if key a = k then some a else none)]
      by_cases hk : key a = k <;> cases lookup key rest k <;> simp [hk]

theorem lookup_cons (key : α -> κ) (a : α) (l : List α) (k : κ) :
    lookup key (a :: l) k = (lookup key l k).or (if key a = k then some a else none) := by
  conv_lhs => unfold lookup
  rw [List.foldl_cons, foldl_lookup]

theorem lookup_append (key : α -> κ) (l r : List α) (k : κ) :
    lookup key (l ++ r) k = (lookup key r k).or (lookup key l k) := by
  conv_lhs => unfold lookup
  rw [List.foldl_append, foldl_lookup]
  rfl

theorem lookup_some {key : α -> κ} {l : List α} {k : κ} {a : α}
    (h : lookup key l k = some a) : a ∈ l ∧ key a = k := by
  induction l with
  | nil => cases h
  | cons b rest ih =>
      rw [lookup_cons] at h
      cases hrest : lookup key rest k with
      | none =>
          by_cases hk : key b = k
          · simp [hrest, hk] at h
            subst h
            exact ⟨List.mem_cons_self, hk⟩
          · simp [hrest, hk] at h
      | some c =>
          rw [hrest] at h
          have hca : c = a := by simpa using h
          rw [hca] at hrest
          exact ⟨List.mem_cons_of_mem b (ih hrest).left, (ih hrest).right⟩

theorem lookup_eq_none_iff {key : α -> κ} {l : List α} {k : κ} :
    lookup key l k = none <-> forall a, a ∈ l -> key a ≠ k := by
  induction l with
  | nil => simp
  | cons b rest ih =>
      rw [lookup_cons, Option.or_eq_none_iff, ih]
      by_cases hk : key b = k <;> simp [hk]

theorem lookup_isSome_iff {key : α -> κ} {l : List α} {k : κ} :
    (lookup key l k).isSome = true <-> exists a, a ∈ l ∧ key a = k := by
  rw [Option.isSome_iff_ne_none, ne_eq, lookup_eq_none_iff]
  simp

theorem lookup_mem {key : α -> κ} {l : List α} (hl : Distinct key l) {a : α}
    (ha : a ∈ l) : lookup key l (key a) = some a := by
  induction l with
  | nil => cases ha
  | cons b rest ih =>
      have hnodup : key b ∉ rest.map key ∧ Distinct key rest := by
        simpa [Distinct] using hl
      rw [lookup_cons]
      cases ha with
      | head =>
          have hnone : lookup key rest (key a) = none := by
            rw [lookup_eq_none_iff]
            intro c hc hca
            exact hnodup.left (hca ▸ List.mem_map_of_mem hc)
          simp [hnone]
      | tail _ hrest => rw [ih hnodup.right hrest, Option.some_or]

theorem lookup_eq_some_iff {key : α -> κ} {l : List α} (hl : Distinct key l) {k : κ}
    {a : α} : lookup key l k = some a <-> a ∈ l ∧ key a = k := by
  constructor
  · exact lookup_some
  · intro hmem
    rcases hmem with ⟨ha, rfl⟩
    exact lookup_mem hl ha

theorem lookup_forall₂ {β : Type} {key : α -> κ} {key' : β -> κ} {R : α -> β -> Prop}
    (hkey : forall {a b}, R a b -> key a = key' b) {l : List α} {l' : List β}
    (h : List.Forall₂ R l l') (k : κ) : Option.Rel R (lookup key l k) (lookup key' l' k) := by
  induction h with
  | nil => exact .none
  | @cons a b l l' hab _ ih =>
      rw [lookup_cons, lookup_cons, hkey hab]
      cases hfound : lookup key l k with
      | some found =>
          rw [hfound] at ih
          cases hfound' : lookup key' l' k with
          | none =>
              rw [hfound'] at ih
              cases ih
          | some found' => rwa [hfound'] at ih
      | none =>
          rw [hfound] at ih
          cases hfound' : lookup key' l' k with
          | some found' =>
              rw [hfound'] at ih
              cases ih
          | none =>
              by_cases hk : key' b = k
              · simpa [hk] using Option.Rel.some hab
              · simp [hk]

theorem lookup_perm {key : α -> κ} {l r : List α} (hl : Distinct key l)
    (h : l.Perm r) (k : κ) : lookup key l k = lookup key r k := by
  have hr : Distinct key r := (h.map key).nodup_iff.mp hl
  cases hlk : lookup key l k with
  | none =>
      symm
      rw [lookup_eq_none_iff] at hlk ⊢
      intro a ha
      exact hlk a (h.mem_iff.mpr ha)
  | some a =>
      rw [lookup_eq_some_iff hl] at hlk
      symm
      rw [lookup_eq_some_iff hr]
      exact ⟨h.mem_iff.mp hlk.left, hlk.right⟩

theorem lookup_map {key : α -> κ} {key' : β -> κ} {f : α -> β}
    (hf : forall a, key' (f a) = key a) (l : List α) (k : κ) :
    lookup key' (l.map f) k = (lookup key l k).map f := by
  induction l with
  | nil => rfl
  | cons a rest ih =>
      rw [List.map_cons, lookup_cons, lookup_cons, ih, hf]
      by_cases hk : key a = k <;> cases lookup key rest k <;> simp [hk]

theorem lookup_rename {κ' : Type} [DecidableEq κ'] {f : κ -> κ'} (hf : Function.Injective f)
    (key : α -> κ) (l : List α) (k : κ) :
    lookup (fun a => f (key a)) l (f k) = lookup key l k := by
  unfold lookup
  simp only [hf.eq_iff]

/-!
## Edits

Removing a key and editing the entry under a key.
-/

theorem lookup_filter_ne (key : α -> κ) (l : List α) (k k' : κ) :
    lookup key (l.filter fun a => decide (key a ≠ k)) k' =
      if k' = k then none else lookup key l k' := by
  induction l with
  | nil => simp
  | cons a rest ih =>
      by_cases hk' : k' = k
      · subst hk'
        rw [if_pos rfl, lookup_eq_none_iff]
        intro b hb
        simpa using (List.mem_filter.mp hb).right
      · rw [if_neg hk'] at ih ⊢
        by_cases hak : key a = k
        · have hne : key a ≠ k' := by
            rw [hak]
            exact Ne.symm hk'
          rw [List.filter_cons_of_neg (by simp [hak]), ih, lookup_cons, if_neg hne,
            Option.or_none]
        · rw [List.filter_cons_of_pos (by simp [hak]), lookup_cons, ih, lookup_cons]

theorem lookup_map_update (key : α -> κ) (f : α -> α) (hf : forall a, key (f a) = key a)
    (l : List α) (k k' : κ) :
    lookup key (l.map fun a => if key a = k then f a else a) k' =
      if k' = k then (lookup key l k').map f else lookup key l k' := by
  induction l with
  | nil => simp
  | cons a rest ih =>
      rw [List.map_cons, lookup_cons, lookup_cons, ih]
      by_cases hk' : k' = k
      · subst hk'
        by_cases hak : key a = k'
        · cases hrest : lookup key rest k' <;> simp [hak, hf]
        · simp [hak]
      · by_cases hak : key a = k
        · have hfa : key (f a) ≠ k' := by
            rw [hf, hak]
            exact Ne.symm hk'
          have ha : key a ≠ k' := by
            rw [hak]
            exact Ne.symm hk'
          simp [hk', hak, hfa, Ne.symm hk']
        · simp [hk', hak]

omit [DecidableEq κ] in
theorem distinct_filter {key : α -> κ} {l : List α} (hl : Distinct key l)
    (p : α -> Bool) : Distinct key (l.filter p) :=
  hl.sublist (List.filter_sublist.map key)

theorem distinct_map_update {key : α -> κ} {l : List α} (hl : Distinct key l)
    (f : α -> α) (hf : forall a, key (f a) = key a) (k : κ) :
    Distinct key (l.map fun a => if key a = k then f a else a) := by
  have hkeys : (l.map fun a => if key a = k then f a else a).map key = l.map key := by
    rw [List.map_map]
    apply List.map_congr_left
    intro a _
    by_cases hak : key a = k <;> simp [hak, hf]
  unfold Distinct
  rw [hkeys]
  exact hl

theorem distinct_append_singleton {key : α -> κ} {l : List α} (hl : Distinct key l)
    {a : α} (ha : lookup key l (key a) = none) : Distinct key (l ++ [a]) := by
  rw [lookup_eq_none_iff] at ha
  unfold Distinct
  rw [List.map_append, List.nodup_append]
  refine ⟨hl, by simp, ?_⟩
  intro x hx y hy hxy
  rw [List.map_singleton, List.mem_singleton] at hy
  rcases List.mem_map.mp hx with ⟨b, hb, rfl⟩
  exact ha b hb (hxy.trans hy)

omit [DecidableEq κ] in
theorem distinct_length_le_one {key : α -> κ} {l : List α} (hl : Distinct key l) {k : κ}
    (hkey : forall a, a ∈ l -> key a = k) : l.length ≤ 1 := by
  have hsame : l.map key = List.replicate l.length k := List.map_eq_replicate_iff.mpr hkey
  unfold Distinct at hl
  rwa [hsame, List.nodup_replicate] at hl

omit [DecidableEq κ] in
theorem map_filterMap_sublist {key : α -> κ} {key' : β -> κ} {f : α -> Option β}
    (hf : forall a b, f a = some b -> key' b = key a) (l : List α) :
    ((l.filterMap f).map key').Sublist (l.map key) := by
  induction l with
  | nil => simp
  | cons a rest ih =>
      cases hfa : f a with
      | none =>
          rw [List.filterMap_cons_none hfa, List.map_cons]
          exact ih.trans (List.sublist_cons_self _ _)
      | some b =>
          rw [List.filterMap_cons_some hfa, List.map_cons, List.map_cons, hf a b hfa]
          exact ih.cons_cons _

end Reconcile
end Telemux
