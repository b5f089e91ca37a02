import Mathlib.Data.List.Induction

/-!
# Labelled transitions

A system of several parties is a relation between states, labelled with what
happens.  A run is a list of labels; what one step keeps, every run keeps.
-/

namespace Telemux
namespace Interaction

variable {σ Λ : Type}

/-- `Run step s t s'`: the steps labelled `t` lead from `s` to `s'`. -/
inductive Run (step : σ -> Λ -> σ -> Prop) : σ -> List Λ -> σ -> Prop where
  | refl (s : σ) : Run step s [] s
  | snoc {s s' s'' : σ} {t : List Λ} {l : Λ} :
      Run step s t s' -> step s' l s'' -> Run step s (t ++ [l]) s''

namespace Run

theorem invariant {step : σ -> Λ -> σ -> Prop} {I : List Λ -> σ -> Prop} {s s' : σ}
    {t : List Λ} (h : Run step s t s') (hstart : I [] s)
    (hstep : forall {u p l p'}, Run step s u p -> I u p -> step p l p' -> I (u ++ [l]) p') :
    I t s' := by
  induction h with
  | refl => exact hstart
  | snoc hrun hlast ih => exact hstep hrun ih hlast

theorem append {step : σ -> Λ -> σ -> Prop} {s s' s'' : σ} {t u : List Λ} (h : Run step s t s')
    (h' : Run step s' u s'') : Run step s (t ++ u) s'' := by
  induction h' with
  | refl =>
      rw [List.append_nil]
      exact h
  | snoc _ hlast ih =>
      rw [← List.append_assoc]
      exact snoc ih hlast

theorem one {step : σ -> Λ -> σ -> Prop} {s s' : σ} {l : Λ} (h : step s l s') :
    Run step s [l] s' := snoc (refl s) h

theorem stays {step : σ -> Λ -> σ -> Prop} {s s' : σ} (h : Run step s [] s') : s' = s := by
  generalize heq : ([] : List Λ) = t at h
  cases h with
  | refl => rfl
  | snoc _ _ => simp at heq

theorem last {step : σ -> Λ -> σ -> Prop} {s s'' : σ} {t : List Λ} {l : Λ}
    (h : Run step s (t ++ [l]) s'') : exists s', Run step s t s' ∧ step s' l s'' := by
  generalize heq : t ++ [l] = u at h
  cases h with
  | refl => simp at heq
  | snoc hrun hlast =>
      rcases List.append_inj' heq rfl with ⟨rfl, hl⟩
      cases hl
      exact ⟨_, hrun, hlast⟩

theorem split {step : σ -> Λ -> σ -> Prop} {s s'' : σ} {t u : List Λ}
    (h : Run step s (t ++ u) s'') : exists s', Run step s t s' ∧ Run step s' u s'' := by
  induction u using List.reverseRecOn generalizing s'' with
  | nil =>
      rw [List.append_nil] at h
      exact ⟨s'', h, refl s''⟩
  | append_singleton u l ih =>
      rw [← List.append_assoc] at h
      rcases last h with ⟨p, hrun, hlast⟩
      rcases ih hrun with ⟨s', ht, hu⟩
      exact ⟨s', ht, snoc hu hlast⟩

theorem first {step : σ -> Λ -> σ -> Prop} {s s'' : σ} {t : List Λ} {l : Λ}
    (h : Run step s (l :: t) s'') : exists s', step s l s' ∧ Run step s' t s'' := by
  rcases split (t := [l]) h with ⟨s', hl, ht⟩
  rcases last (t := []) hl with ⟨p, hnil, hlast⟩
  rw [stays hnil] at hlast
  exact ⟨s', hlast, ht⟩

theorem seen {σ' : Type} {step : σ -> Λ -> σ -> Prop} {step' : σ' -> Λ -> σ' -> Prop}
    {I : σ -> Prop} {f : σ -> σ'} {p : Λ -> Bool} {s s' : σ} {t : List Λ}
    (h : Run step s t s') (hstart : I s)
    (hkeeps : forall {s l s'}, I s -> step s l s' -> I s')
    (hseen : forall {s l s'}, I s -> step s l s' -> p l = true -> step' (f s) l (f s'))
    (hunseen : forall {s l s'}, I s -> step s l s' -> p l = false -> f s' = f s) :
    Run step' (f s) (t.filter p) (f s') := by
  induction h with
  | refl => exact refl _
  | @snoc s' s'' t l hrun hlast ih =>
      have hI : I s' := hrun.invariant (I := fun _ s => I s) hstart
        fun _ hI hstep => hkeeps hI hstep
      rw [List.filter_append]
      cases hp : p l with
      | true =>
          rw [List.filter_cons_of_pos hp, List.filter_nil]
          exact snoc ih (hseen hI hlast hp)
      | false =>
          rw [List.filter_cons_of_neg (by simp [hp]), List.filter_nil, List.append_nil,
            hunseen hI hlast hp]
          exact ih

end Run

end Interaction
end Telemux
