import Mathlib.Data.List.Basic

/-!
# Readers

A reader takes what it needs from the front of a text and leaves the rest.  What
matters of a reader is how much of the text it depends on: a firm one depends on
nothing but what it takes, a local one looks at the next character as well.  Both
carry over to readers that are put together.
-/

namespace Telemux
namespace Text

variable {χ α β : Type}

abbrev Reader (χ α : Type) := List χ -> Option (α × List χ)

namespace Reader

def pure (a : α) : Reader χ α := fun text => some (a, text)

def fail : Reader χ α := fun _ => none

def given (o : Option α) : Reader χ α := fun text => o.map fun a => (a, text)

def map (f : α -> β) (r : Reader χ α) : Reader χ β :=
  fun text => (r text).map fun p => (f p.1, p.2)

def andThen (r : Reader χ α) (f : α -> Reader χ β) : Reader χ β :=
  fun text => (r text).bind fun p => f p.1 p.2

def next (f : χ -> Reader χ α) : Reader χ α
  | [] => none
  | c :: rest => f c rest

def ahead (p : χ -> Bool) (r r' : Reader χ α) : Reader χ α :=
  fun text => if text.head?.any p then r text else r' text

def skipping (p : χ -> Bool) (r : Reader χ α) : Reader χ α :=
  fun text => r (text.dropWhile p)

theorem ahead_pos {p : χ -> Bool} {r r' : Reader χ α} {c : χ} (h : p c = true)
    (rest : List χ) : ahead p r r' (c :: rest) = r (c :: rest) := if_pos h

theorem ahead_neg {p : χ -> Bool} {r r' : Reader χ α} {text : List χ}
    (h : text.head?.any p = false) : ahead p r r' text = r' text := if_neg (by simp [h])

theorem skipping_cons {p : χ -> Bool} {c : χ} (h : p c = false) (r : Reader χ α)
    (rest : List χ) : skipping p r (c :: rest) = r (c :: rest) := by
  rw [skipping, List.dropWhile_cons_of_neg (by simp [h])]

theorem map_some {f : α -> β} {r : Reader χ α} {text rest : List χ} {a : α}
    (h : r text = some (a, rest)) : r.map f text = some (f a, rest) := by
  rw [map, h]
  rfl

theorem andThen_some {r : Reader χ α} {f : α -> Reader χ β} {text rest : List χ} {a : α}
    (h : r text = some (a, rest)) : r.andThen f text = f a rest := by
  rw [andThen, h]
  rfl

theorem map_inv {f : α -> β} {r : Reader χ α} {text rest : List χ} {b : β}
    (h : r.map f text = some (b, rest)) : exists a, r text = some (a, rest) ∧ f a = b := by
  unfold map at h
  rcases Option.map_eq_some_iff.mp h with ⟨p, hp, heq⟩
  cases heq
  exact ⟨p.1, hp, rfl⟩

theorem andThen_inv {r : Reader χ α} {f : α -> Reader χ β} {text rest : List χ} {b : β}
    (h : r.andThen f text = some (b, rest)) :
    exists a between, r text = some (a, between) ∧ f a between = some (b, rest) := by
  unfold andThen at h
  rcases Option.bind_eq_some_iff.mp h with ⟨p, hp, hrest⟩
  exact ⟨p.1, p.2, hp, hrest⟩

/-!
## What a reader depends on
-/

def Firm (r : Reader χ α) : Prop :=
  forall text a rest, r text = some (a, rest) ->
    exists used, text = used ++ rest ∧ forall more, r (used ++ more) = some (a, more)

def Solid (r : Reader χ α) : Prop :=
  forall text a rest, r text = some (a, rest) ->
    exists c used, text = c :: used ++ rest ∧
      forall more, r (c :: used ++ more) = some (a, more)

def Local (r : Reader χ α) : Prop :=
  forall text a rest, r text = some (a, rest) ->
    exists used, text = used ++ rest ∧
      forall more, more.head? = rest.head? -> r (used ++ more) = some (a, more)

theorem Solid.firm {r : Reader χ α} (h : r.Solid) : r.Firm := by
  intro text a rest hread
  rcases h text a rest hread with ⟨c, used, rfl, hmore⟩
  exact ⟨c :: used, rfl, hmore⟩

theorem Firm.isLocal {r : Reader χ α} (h : r.Firm) : r.Local := by
  intro text a rest hread
  rcases h text a rest hread with ⟨used, rfl, hmore⟩
  exact ⟨used, rfl, fun more _ => hmore more⟩

theorem Solid.isLocal {r : Reader χ α} (h : r.Solid) : r.Local := h.firm.isLocal

theorem firm_pure (a : α) : (pure a : Reader χ α).Firm := by
  intro text b rest hread
  cases hread
  exact ⟨[], rfl, fun more => rfl⟩

theorem firm_given (o : Option α) : (given o : Reader χ α).Firm := by
  intro text b rest hread
  rcases Option.map_eq_some_iff.mp hread with ⟨a, rfl, heq⟩
  cases heq
  exact ⟨[], rfl, fun more => rfl⟩

theorem solid_fail : (fail : Reader χ α).Solid := by
  intro text a rest hread
  cases hread

theorem Solid.map {r : Reader χ α} (h : r.Solid) (f : α -> β) : (r.map f).Solid := by
  intro text b rest hread
  rcases map_inv hread with ⟨a, hfirst, rfl⟩
  rcases h text a rest hfirst with ⟨c, used, rfl, hmore⟩
  exact ⟨c, used, rfl, fun more => map_some (hmore more)⟩

theorem Local.map {r : Reader χ α} (h : r.Local) (f : α -> β) : (r.map f).Local := by
  intro text b rest hread
  rcases map_inv hread with ⟨a, hfirst, rfl⟩
  rcases h text a rest hfirst with ⟨used, rfl, hmore⟩
  exact ⟨used, rfl, fun more hhead => map_some (hmore more hhead)⟩

theorem solid_next {f : χ -> Reader χ α} (h : forall c, (f c).Firm) : (next f).Solid := by
  intro text a rest hread
  cases text with
  | nil => cases hread
  | cons c text =>
      rcases h c text a rest hread with ⟨used, rfl, hmore⟩
      exact ⟨c, used, rfl, hmore⟩

theorem local_next {f : χ -> Reader χ α} (h : forall c, (f c).Local) : (next f).Local := by
  intro text a rest hread
  cases text with
  | nil => cases hread
  | cons c text =>
      rcases h c text a rest hread with ⟨used, rfl, hmore⟩
      exact ⟨c :: used, rfl, hmore⟩

theorem Solid.andThen {r : Reader χ α} (h : r.Solid) {f : α -> Reader χ β}
    (hf : forall a, (f a).Firm) : (r.andThen f).Solid := by
  intro text b rest hread
  rcases andThen_inv hread with ⟨a, between, hfirst, hsecond⟩
  rcases h text a between hfirst with ⟨c, used, rfl, hmore⟩
  rcases hf a between b rest hsecond with ⟨used', rfl, hmore'⟩
  refine ⟨c, used ++ used', by simp, ?_⟩
  intro more
  have htext : c :: (used ++ used') ++ more = c :: used ++ (used' ++ more) := by simp
  rw [htext, andThen_some (hmore _), hmore']

theorem Local.andThen_solid {r : Reader χ α} (h : r.Local) {f : α -> Reader χ β}
    (hf : forall a, (f a).Solid) : (r.andThen f).Solid := by
  intro text b rest hread
  rcases andThen_inv hread with ⟨a, between, hfirst, hsecond⟩
  rcases h text a between hfirst with ⟨used, rfl, hmore⟩
  rcases hf a between b rest hsecond with ⟨c, used', rfl, hmore'⟩
  have hread' : forall more, r.andThen f (used ++ (c :: used' ++ more)) = some (b, more) := by
    intro more
    have hhead : (c :: used' ++ more).head? = (c :: used' ++ rest).head? := rfl
    rw [andThen_some (hmore _ hhead), hmore']
  cases used with
  | nil => exact ⟨c, used', rfl, hread'⟩
  | cons c' used =>
      refine ⟨c', used ++ (c :: used'), by simp, ?_⟩
      intro more
      have htext : c' :: (used ++ c :: used') ++ more = c' :: used ++ (c :: used' ++ more) := by
        simp
      rw [htext, hread']

theorem Local.andThen {r : Reader χ α} (h : r.Local) {f : α -> Reader χ β}
    (hf : forall a, (f a).Local) : (r.andThen f).Local := by
  intro text b rest hread
  rcases andThen_inv hread with ⟨a, between, hfirst, hsecond⟩
  rcases h text a between hfirst with ⟨used, rfl, hmore⟩
  rcases hf a between b rest hsecond with ⟨used', rfl, hmore'⟩
  refine ⟨used ++ used', by simp, ?_⟩
  intro more hhead
  have hbetween : (used' ++ more).head? = (used' ++ rest).head? := by
    rw [List.head?_append, List.head?_append, hhead]
  rw [List.append_assoc, andThen_some (hmore _ hbetween), hmore' more hhead]

theorem solid_ahead {p : χ -> Bool} {r r' : Reader χ α} (h : r.Solid) (h' : r'.Solid) :
    (ahead p r r').Solid := by
  intro text a rest hread
  unfold ahead at hread
  split at hread
  · rename_i hp
    rcases h text a rest hread with ⟨c, used, rfl, hmore⟩
    exact ⟨c, used, rfl, fun more => (if_pos hp).trans (hmore more)⟩
  · rename_i hp
    rcases h' text a rest hread with ⟨c, used, rfl, hmore⟩
    exact ⟨c, used, rfl, fun more => (if_neg hp).trans (hmore more)⟩

theorem local_ahead {p : χ -> Bool} {r r' : Reader χ α} (h : r.Local) (h' : r'.Local) :
    (ahead p r r').Local := by
  have hsame : forall {used rest more : List χ}, more.head? = rest.head? ->
      (used ++ more).head?.any p = (used ++ rest).head?.any p := by
    intro used rest more hhead
    rw [List.head?_append, List.head?_append, hhead]
  intro text a rest hread
  unfold ahead at hread
  split at hread
  · rename_i hp
    rcases h text a rest hread with ⟨used, rfl, hmore⟩
    refine ⟨used, rfl, ?_⟩
    intro more hhead
    rw [ahead, hsame hhead, if_pos hp, hmore more hhead]
  · rename_i hp
    rcases h' text a rest hread with ⟨used, rfl, hmore⟩
    refine ⟨used, rfl, ?_⟩
    intro more hhead
    rw [ahead, hsame hhead, if_neg hp, hmore more hhead]

theorem solid_ite {p : Prop} [Decidable p] {r r' : Reader χ α} (h : r.Solid) (h' : r'.Solid) :
    (if p then r else r').Solid := by
  split
  · exact h
  · exact h'

theorem firm_ite {p : Prop} [Decidable p] {r r' : Reader χ α} (h : r.Firm) (h' : r'.Firm) :
    (if p then r else r').Firm := by
  split
  · exact h
  · exact h'

theorem dropWhile_cons {p : χ -> Bool} {text rest : List χ} {c : χ}
    (h : text.dropWhile p = c :: rest) :
    exists skipped, text = skipped ++ c :: rest ∧
      forall more, (skipped ++ c :: more).dropWhile p = c :: more := by
  refine ⟨text.takeWhile p, ?_, ?_⟩
  · rw [← h, List.takeWhile_append_dropWhile]
  · intro more
    have hskipped : forall d, d ∈ text.takeWhile p -> p d = true :=
      List.all_eq_true.mp List.all_takeWhile
    have hc : p c = false := by
      have hnot := List.head?_dropWhile_not p text
      rw [h] at hnot
      simpa using hnot
    rw [List.dropWhile_append_of_pos hskipped, List.dropWhile_cons_of_neg (by simp [hc])]

theorem solid_skipping {p : χ -> Bool} {r : Reader χ α} (h : r.Solid) :
    (skipping p r).Solid := by
  intro text a rest hread
  rcases h _ a rest hread with ⟨c, used, heq, hmore⟩
  rcases dropWhile_cons heq with ⟨skipped, rfl, hdrop⟩
  have hread' : forall more, skipping p r (skipped ++ (c :: used ++ more)) = some (a, more) := by
    intro more
    unfold skipping
    rw [List.cons_append, hdrop]
    exact hmore more
  cases skipped with
  | nil => exact ⟨c, used, rfl, hread'⟩
  | cons d skipped =>
      refine ⟨d, skipped ++ c :: used, by simp, ?_⟩
      intro more
      have htext : d :: (skipped ++ c :: used) ++ more = d :: skipped ++ (c :: used ++ more) := by
        simp
      rw [htext, hread']

theorem local_skipping {p : χ -> Bool} {r : Reader χ α} (h : r.Local) :
    (skipping p r).Local := by
  intro text a rest hread
  rcases h _ a rest hread with ⟨used, heq, hmore⟩
  refine ⟨text.takeWhile p ++ used, ?_, ?_⟩
  · rw [List.append_assoc, ← heq, List.takeWhile_append_dropWhile]
  · intro more hhead
    have hskipped : forall d, d ∈ text.takeWhile p -> p d = true :=
      List.all_eq_true.mp List.all_takeWhile
    have hstays : (used ++ more).dropWhile p = used ++ more := by
      have hnot := List.head?_dropWhile_not p text
      have hfirst : (used ++ more).head? = (text.dropWhile p).head? := by
        rw [heq, List.head?_append, List.head?_append, hhead]
      rw [← hfirst] at hnot
      cases htext : used ++ more with
      | nil => rfl
      | cons c after =>
          rw [htext] at hnot
          rw [List.dropWhile_cons_of_neg (by simpa using hnot)]
    unfold skipping
    rw [List.append_assoc, List.dropWhile_append_of_pos hskipped, hstays]
    exact hmore more hhead

/-!
## How a reader ends
-/

def Closes (p : χ -> Bool) (r : Reader χ α) : Prop :=
  forall text a rest, r text = some (a, rest) ->
    exists used c, p c = true ∧ text = used ++ c :: rest

theorem closes_fail (p : χ -> Bool) : (fail : Reader χ α).Closes p := by
  intro text a rest hread
  cases hread

theorem Closes.map {p : χ -> Bool} {r : Reader χ α} (h : r.Closes p) (f : α -> β) :
    (r.map f).Closes p := by
  intro text b rest hread
  rcases map_inv hread with ⟨a, hfirst, rfl⟩
  exact h text a rest hfirst

theorem closes_next {p : χ -> Bool} {f : χ -> Reader χ α}
    (h : forall c, (f c).Closes p ∨ p c = true ∧ exists a, f c = pure a) :
    (next f).Closes p := by
  intro text a rest hread
  cases text with
  | nil => cases hread
  | cons c text =>
      rcases h c with hcloses | ⟨hc, b, hpure⟩
      · rcases hcloses text a rest hread with ⟨used, d, hd, rfl⟩
        exact ⟨c :: used, d, hd, rfl⟩
      · have hsome : f c text = some (a, rest) := hread
        rw [hpure] at hsome
        cases hsome
        exact ⟨[], c, hc, rfl⟩

theorem closes_andThen {p : χ -> Bool} {r : Reader χ α} (h : r.Local) {f : α -> Reader χ β}
    (hf : forall a, (f a).Closes p) : (r.andThen f).Closes p := by
  intro text b rest hread
  rcases andThen_inv hread with ⟨a, between, hfirst, hsecond⟩
  rcases h text a between hfirst with ⟨used, rfl, _⟩
  rcases hf a between b rest hsecond with ⟨used', c, hc, rfl⟩
  exact ⟨used ++ used', c, hc, by simp⟩

theorem closes_skipping {p q : χ -> Bool} {r : Reader χ α} (h : r.Closes p) :
    (skipping q r).Closes p := by
  intro text a rest hread
  rcases h _ a rest hread with ⟨used, c, hc, heq⟩
  refine ⟨text.takeWhile q ++ used, c, hc, ?_⟩
  rw [List.append_assoc, ← heq, List.takeWhile_append_dropWhile]

def Sealed (kind : α -> Bool) (p : χ -> Bool) (r : Reader χ α) : Prop :=
  forall text a rest, r text = some (a, rest) -> kind a = true ->
    exists used c, p c = true ∧ text = used ++ c :: rest ∧
      forall more, r (used ++ c :: more) = some (a, more)

theorem Solid.isSealed {p : χ -> Bool} {r : Reader χ α} (h : r.Solid) (hcloses : r.Closes p)
    (kind : α -> Bool) : r.Sealed kind p := by
  intro text a rest hread _
  rcases h text a rest hread with ⟨d, taken, htext, hmore⟩
  rcases hcloses text a rest hread with ⟨used, c, hc, htext'⟩
  have happended : (d :: taken) ++ rest = (used ++ [c]) ++ rest := by
    rw [← htext, htext', List.append_assoc, List.singleton_append]
  have htaken : d :: taken = used ++ [c] := List.append_cancel_right happended
  refine ⟨used, c, hc, htext', ?_⟩
  intro more
  have hread' := hmore more
  rw [htaken, List.append_assoc] at hread'
  exact hread'

theorem sealed_of_never {kind : α -> Bool} {p : χ -> Bool} {r : Reader χ α}
    (h : forall text a rest, r text = some (a, rest) -> kind a = false) : r.Sealed kind p := by
  intro text a rest hread hkind
  rw [h text a rest hread] at hkind
  cases hkind

theorem sealed_ahead {kind : α -> Bool} {p q : χ -> Bool} {r r' : Reader χ α}
    (h : r.Sealed kind p) (h' : r'.Sealed kind p) : (ahead q r r').Sealed kind p := by
  have hhead : forall (used : List χ) (c : χ) (rest more : List χ),
      (used ++ c :: more).head? = (used ++ c :: rest).head? := by
    intro used c rest more
    cases used <;> rfl
  intro text a rest hread hkind
  unfold ahead at hread
  split at hread
  · rename_i hq
    rcases h text a rest hread hkind with ⟨used, c, hc, rfl, hmore⟩
    refine ⟨used, c, hc, rfl, ?_⟩
    intro more
    rw [ahead, hhead used c rest more, if_pos hq, hmore]
  · rename_i hq
    rcases h' text a rest hread hkind with ⟨used, c, hc, rfl, hmore⟩
    refine ⟨used, c, hc, rfl, ?_⟩
    intro more
    rw [ahead, hhead used c rest more, if_neg hq, hmore]

theorem sealed_skipping {kind : α -> Bool} {p q : χ -> Bool} {r : Reader χ α}
    (h : r.Sealed kind p) : (skipping q r).Sealed kind p := by
  intro text a rest hread hkind
  rcases h _ a rest hread hkind with ⟨used, c, hc, heq, hmore⟩
  cases used with
  | nil =>
      rcases dropWhile_cons heq with ⟨skipped, rfl, hdrop⟩
      refine ⟨skipped, c, hc, rfl, ?_⟩
      intro more
      rw [skipping, hdrop]
      exact hmore more
  | cons d used =>
      rcases dropWhile_cons heq with ⟨skipped, rfl, hdrop⟩
      refine ⟨skipped ++ d :: used, c, hc, by simp, ?_⟩
      intro more
      rw [List.append_assoc, List.cons_append, skipping, hdrop]
      exact hmore more

/-!
## How many characters a reader takes
-/

/-- What is read by taking fewer than `k` characters, the other reader reads as well. -/
def Within (k : Nat) (r r' : Reader χ α) : Prop :=
  forall text a rest, r text = some (a, rest) -> text.length < rest.length + k ->
    r' text = some (a, rest)

theorem within_refl (k : Nat) (r : Reader χ α) : Within k r r := fun _ _ _ h _ => h

theorem Local.shorter {r : Reader χ α} (h : r.Local) {text rest : List χ} {a : α}
    (hread : r text = some (a, rest)) : rest.length ≤ text.length := by
  rcases h text a rest hread with ⟨used, rfl, _⟩
  rw [List.length_append]
  exact Nat.le_add_left _ _

theorem Solid.shorter {r : Reader χ α} (h : r.Solid) {text rest : List χ} {a : α}
    (hread : r text = some (a, rest)) : rest.length < text.length := by
  rcases h text a rest hread with ⟨c, used, rfl, _⟩
  rw [List.length_append, List.length_cons]
  exact Nat.lt_add_of_pos_left (Nat.succ_pos _)

theorem within_none {r r' : Reader χ α} (h : r.Local) : Within 0 r r' := by
  intro text a rest hread hlength
  exact absurd hlength (Nat.not_lt.mpr (h.shorter hread))

theorem Within.map {k : Nat} {r r' : Reader χ α} (h : Within k r r') (f : α -> β) :
    Within k (r.map f) (r'.map f) := by
  intro text b rest hread hlength
  rcases map_inv hread with ⟨a, hfirst, rfl⟩
  exact map_some (h text a rest hfirst hlength)

theorem within_next {k : Nat} {f f' : χ -> Reader χ α} (h : forall c, Within k (f c) (f' c)) :
    Within (k + 1) (next f) (next f') := by
  intro text a rest hread hlength
  cases text with
  | nil => cases hread
  | cons c text => exact h c text a rest hread (Nat.lt_of_succ_lt_succ hlength)

theorem within_ahead {k : Nat} {p : χ -> Bool} {r₁ r₂ r₁' r₂' : Reader χ α}
    (h : Within k r₁ r₁') (h' : Within k r₂ r₂') :
    Within k (ahead p r₁ r₂) (ahead p r₁' r₂') := by
  intro text a rest hread hlength
  unfold ahead at hread ⊢
  split at hread
  · rename_i hp
    rw [if_pos hp]
    exact h text a rest hread hlength
  · rename_i hp
    rw [if_neg hp]
    exact h' text a rest hread hlength

theorem Within.skipping {k : Nat} {r r' : Reader χ α} (h : Within k r r') (p : χ -> Bool) :
    Within k (skipping p r) (skipping p r') := by
  intro text a rest hread hlength
  apply h _ a rest hread
  exact Nat.lt_of_le_of_lt (List.dropWhile_sublist p).length_le hlength

theorem within_ite {k : Nat} {p : Prop} [Decidable p] {r₁ r₂ r₁' r₂' : Reader χ α}
    (h : Within k r₁ r₁') (h' : Within k r₂ r₂') :
    Within k (if p then r₁ else r₂) (if p then r₁' else r₂') := by
  split
  · exact h
  · exact h'

theorem within_after {k : Nat} {r : Reader χ α} (hr : r.Local) {f f' : α -> Reader χ β}
    (hf : forall a, Within k (f a) (f' a)) : Within k (r.andThen f) (r.andThen f') := by
  intro text b rest hread hlength
  rcases andThen_inv hread with ⟨a, between, hfirst, hsecond⟩
  rw [andThen_some hfirst]
  exact hf a between b rest hsecond (Nat.lt_of_le_of_lt (hr.shorter hfirst) hlength)

theorem Within.andThen {k : Nat} {r r' : Reader χ α} (h : Within k r r') (hr : r.Local)
    {f f' : α -> Reader χ β} (hf : forall a, Within (k + 1) (f a) (f' a))
    (hsolid : forall a, (f a).Solid) : Within (k + 1) (r.andThen f) (r'.andThen f') := by
  intro text b rest hread hlength
  rcases andThen_inv hread with ⟨a, between, hfirst, hsecond⟩
  have hafter : rest.length < between.length := (hsolid a).shorter hsecond
  have hbefore : between.length ≤ text.length := hr.shorter hfirst
  rw [andThen_some (h text a between hfirst (by omega))]
  exact hf a between b rest hsecond (by omega)

end Reader

end Text
end Telemux
