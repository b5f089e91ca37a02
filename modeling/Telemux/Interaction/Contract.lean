import Telemux.Interaction.Program

/-!
# Contracts between a program and its environment

A contract says, in terms of a ghost state, what a program owes when it makes a
call and what the environment may answer.  `Meets` is the weakest
precondition of a program under a contract.  Its rules go through sequencing,
consequence and interpretation, so a loop is handled by one induction on the
data it runs over, and every run of a program that meets its contract inherits
what the contract says.
-/

namespace Telemux
namespace Interaction

structure Contract (Call : Type) (Reply : Call -> Type) (γ : Type) where
  owes : γ -> Call -> Prop
  answers : γ -> (c : Call) -> Reply c -> γ -> Prop

namespace Contract

variable {Call : Type} {Reply : Call -> Type} {Call' : Type} {Reply' : Call' -> Type}
variable {α β γ : Type}

/-- From ghost state `g` the program keeps the contract and ends in `Q`. -/
def Meets (K : Contract Call Reply γ) :
    Program Call Reply α -> γ -> (α -> γ -> Prop) -> Prop
  | .done a, g, Q => Q a g
  | .call c next, g, Q =>
      K.owes g c ∧ forall r g', K.answers g c r g' -> K.Meets (next r) g' Q

@[simp] theorem meets_done (K : Contract Call Reply γ) (a : α) (g : γ)
    (Q : α -> γ -> Prop) : K.Meets (.done a) g Q <-> Q a g := Iff.rfl

theorem meets_mono {K : Contract Call Reply γ} {p : Program Call Reply α} {g : γ}
    {Q R : α -> γ -> Prop} (hQR : forall a g', Q a g' -> R a g')
    (h : K.Meets p g Q) : K.Meets p g R := by
  induction p generalizing g with
  | done a => exact hQR a g h
  | call c next ih =>
      constructor
      · exact h.left
      · intro r g' hans
        exact ih r (h.right r g' hans)

theorem meets_bind {K : Contract Call Reply γ} {p : Program Call Reply α}
    {f : α -> Program Call Reply β} {g : γ} {Q : β -> γ -> Prop}
    (h : K.Meets p g fun a g' => K.Meets (f a) g' Q) : K.Meets (p.bind f) g Q := by
  induction p generalizing g with
  | done a => exact h
  | call c next ih =>
      constructor
      · exact h.left
      · intro r g' hans
        exact ih r (h.right r g' hans)

theorem meets_interp {K : Contract Call Reply γ} {L : Contract Call' Reply' γ}
    {serve : (c : Call) -> Program Call' Reply' (Reply c)}
    (hserve : forall c g, K.owes g c ->
      L.Meets (serve c) g fun r g' => K.answers g c r g')
    {p : Program Call Reply α} {g : γ} {Q : α -> γ -> Prop}
    (h : K.Meets p g Q) : L.Meets (p.interp serve) g Q := by
  induction p generalizing g with
  | done a => exact h
  | call c next ih =>
      apply meets_bind
      apply meets_mono _ (hserve c g h.left)
      intro r g' hans
      exact ih r (h.right r g' hans)

/-!
## Runs under a contract

`Answered g t g'`: the environment kept its side along the events
`t`, which move the ghost state from `g` to `g'`.
-/

inductive Answered (K : Contract Call Reply γ) :
    γ -> List (Event Call Reply) -> γ -> Prop where
  | nil (g : γ) : Answered K g [] g
  | cons {g g' g'' : γ} {c : Call} {r : Reply c} {t : List (Event Call Reply)} :
      K.answers g c r g' -> Answered K g' t g'' -> Answered K g (⟨c, r⟩ :: t) g''

theorem answered_append {K : Contract Call Reply γ} {g g' g'' : γ}
    {t u : List (Event Call Reply)} (h : K.Answered g t g') (h' : K.Answered g' u g'') :
    K.Answered g (t ++ u) g'' := by
  induction h with
  | nil => exact h'
  | cons hstep _ ih => exact Answered.cons hstep (ih h')

theorem answered_split {K : Contract Call Reply γ} {g g'' : γ}
    {t u : List (Event Call Reply)} (h : K.Answered g (t ++ u) g'') :
    exists g', K.Answered g t g' ∧ K.Answered g' u g'' := by
  induction t generalizing g with
  | nil => exact ⟨g, Answered.nil g, h⟩
  | cons e t ih =>
      cases h with
      | cons hstep hrest =>
          rcases ih hrest with ⟨g', ht, hu⟩
          exact ⟨g', Answered.cons hstep ht, hu⟩

theorem meets_of_steps {K : Contract Call Reply γ} {p q : Program Call Reply α}
    {g g' : γ} {t : List (Event Call Reply)} {Q : α -> γ -> Prop}
    (h : K.Meets p g Q) (hsteps : Program.Steps p t q) (hans : K.Answered g t g') :
    K.Meets q g' Q := by
  induction hsteps generalizing g with
  | refl _ =>
      cases hans
      exact h
  | call _ ih =>
      cases hans with
      | cons hstep hrest => exact ih (h.right _ _ hstep) hrest

theorem owes_of_steps {K : Contract Call Reply γ} {p : Program Call Reply α}
    {g g' : γ} {t : List (Event Call Reply)} {Q : α -> γ -> Prop} {c : Call}
    {next : Reply c -> Program Call Reply α} (h : K.Meets p g Q)
    (hsteps : Program.Steps p t (.call c next)) (hans : K.Answered g t g') :
    K.owes g' c :=
  (meets_of_steps h hsteps hans).left

theorem post_of_runs {K : Contract Call Reply γ} {p : Program Call Reply α}
    {g g' : γ} {t : List (Event Call Reply)} {Q : α -> γ -> Prop} {a : α}
    (h : K.Meets p g Q) (hruns : Program.Runs p t a) (hans : K.Answered g t g') :
    Q a g' :=
  meets_of_steps h hruns hans

theorem meets_runs {K : Contract Call Reply γ} {p : Program Call Reply α} {g : γ}
    {Q : α -> γ -> Prop} (h : K.Meets p g Q) :
    K.Meets p g fun a g' => Q a g' ∧ exists t, Program.Runs p t a ∧ K.Answered g t g' := by
  induction p generalizing g with
  | done a => exact ⟨h, [], .refl _, .nil g⟩
  | call c next ih =>
      refine ⟨h.left, ?_⟩
      intro r g' hans
      refine meets_mono ?_ (ih r (h.right r g' hans))
      intro a g'' hrest
      rcases hrest with ⟨hQ, t, hruns, hanswered⟩
      exact ⟨hQ, ⟨c, r⟩ :: t, .call hruns, .cons hans hanswered⟩

theorem meets_free {K : Contract Call Reply γ} (howes : forall g c, K.owes g c)
    (p : Program Call Reply α) (g : γ) : K.Meets p g fun _ _ => True := by
  induction p generalizing g with
  | done a => trivial
  | call c next ih => exact ⟨howes g c, fun r g' _ => ih r g'⟩

/-!
## The contract of a handler

An environment that is a function answers as it does, and what holds under that
contract holds of the execution against it.
-/

def served {σ : Type} (h : Program.Handler Call Reply σ) :
    Contract Call Reply (σ × List (Event Call Reply)) where
  owes _ _ := True
  answers g c r g' := r = (h c g.1).1 ∧ g' = ((h c g.1).2, g.2 ++ [⟨c, r⟩])

theorem exec_of_meets {σ : Type} {h : Program.Handler Call Reply σ}
    {p : Program Call Reply α} {s : σ} {t : List (Event Call Reply)}
    {Q : α -> σ × List (Event Call Reply) -> Prop} (hmeets : (served h).Meets p (s, t) Q) :
    Q (p.exec h s).value ((p.exec h s).state, t ++ (p.exec h s).events) := by
  induction p generalizing s t with
  | done a => simpa using hmeets
  | call c next ih =>
      have hnext := ih (h c s).1 (hmeets.right (h c s).1 _ ⟨rfl, rfl⟩)
      simpa [Program.exec_call] using hnext

/-!
## Contracts on the history

With the events so far as ghost state, and every answer allowed, a contract is a
safety property of the trace.
-/

def onHistory (owes : List (Event Call Reply) -> Call -> Prop) :
    Contract Call Reply (List (Event Call Reply)) where
  owes := owes
  answers t c r t' := t' = t ++ [⟨c, r⟩]

theorem answered_onHistory (owes : List (Event Call Reply) -> Call -> Prop)
    (t u : List (Event Call Reply)) : (onHistory owes).Answered t u (t ++ u) := by
  induction u generalizing t with
  | nil =>
      rw [List.append_nil]
      exact Answered.nil t
  | cons e u ih =>
      have hrest := ih (t ++ [e])
      rw [List.append_assoc] at hrest
      exact Answered.cons rfl hrest

theorem answered_onHistory_eq {owes : List (Event Call Reply) -> Call -> Prop}
    {t u t' : List (Event Call Reply)} (h : (onHistory owes).Answered t u t') : t' = t ++ u := by
  induction u generalizing t with
  | nil =>
      cases h
      exact (List.append_nil _).symm
  | cons e u ih =>
      cases h with
      | @cons _ t₁ _ c r _ hstep hrest =>
          have ht : t₁ = t ++ [⟨c, r⟩] := hstep
          rw [ih hrest, ht, List.append_assoc]
          rfl

theorem owes_of_onHistory {owes : List (Event Call Reply) -> Call -> Prop}
    {p : Program Call Reply α} {Q : α -> List (Event Call Reply) -> Prop}
    (h : (onHistory owes).Meets p [] Q) {t : List (Event Call Reply)} {c : Call}
    {next : Reply c -> Program Call Reply α}
    (hsteps : Program.Steps p t (.call c next)) : owes t c :=
  owes_of_steps h hsteps (answered_onHistory owes [] t)

/-!
## Invariants where a run stops

A contract is recorded when its ghost state carries the events so far.  An
invariant owed at every call, and kept to the end, holds wherever a run stops.
-/

def recorded (K : Contract Call Reply γ) (I : γ -> List (Event Call Reply) -> Prop) :
    Contract Call Reply (γ × List (Event Call Reply)) where
  owes g _ := I g.1 g.2
  answers g c r g' := K.answers g.1 c r g'.1 ∧ g'.2 = g.2 ++ [⟨c, r⟩]

theorem answered_recorded {K : Contract Call Reply γ}
    {I : γ -> List (Event Call Reply) -> Prop} {g g' : γ} {t : List (Event Call Reply)}
    (hans : K.Answered g t g') (u : List (Event Call Reply)) :
    (K.recorded I).Answered (g, u) t (g', u ++ t) := by
  induction hans generalizing u with
  | nil g =>
      rw [List.append_nil]
      exact Answered.nil _
  | @cons g g' g'' c r t hstep _ ih =>
      have hfirst : (K.recorded I).answers (g, u) c r (g', u ++ [⟨c, r⟩]) := ⟨hstep, rfl⟩
      have hrest := ih (u ++ [⟨c, r⟩])
      rw [List.append_assoc] at hrest
      exact Answered.cons hfirst hrest

theorem holds_where_stopped {K : Contract Call Reply γ}
    {I : γ -> List (Event Call Reply) -> Prop} {p q : Program Call Reply α}
    {Q : α -> γ -> List (Event Call Reply) -> Prop} {g g' : γ}
    {t : List (Event Call Reply)}
    (h : (K.recorded I).Meets p (g, []) fun a s => I s.1 s.2 ∧ Q a s.1 s.2)
    (hsteps : Program.Steps p t q) (hans : K.Answered g t g') :
    I g' t ∧ forall a, q = .done a -> Q a g' t := by
  have hrest := meets_of_steps h hsteps (answered_recorded hans [])
  cases q with
  | done a =>
      refine ⟨hrest.left, ?_⟩
      intro b hb
      cases hb
      exact hrest.right
  | call c next =>
      refine ⟨hrest.left, ?_⟩
      intro b hb
      cases hb

end Contract

end Interaction
end Telemux
