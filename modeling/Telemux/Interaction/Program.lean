import Mathlib.Data.List.Basic

/-!
# Programs that call an environment

A program is a tree: it stops with a value, or it makes a call and goes on with
whatever the environment replies.  Nothing is said about the environment here,
so a statement about all runs of a program is a statement about every possible
behaviour of the other side, and a partial run is a run that was cut short.
-/

namespace Telemux
namespace Interaction

inductive Program (Call : Type) (Reply : Call -> Type) (α : Type) : Type where
  | done (a : α) : Program Call Reply α
  | call (c : Call) (next : Reply c -> Program Call Reply α) : Program Call Reply α

structure Event (Call : Type) (Reply : Call -> Type) where
  call : Call
  reply : Reply call

namespace Program

variable {Call : Type} {Reply : Call -> Type} {Call' : Type} {Reply' : Call' -> Type}
variable {α β σ : Type}

def bind : Program Call Reply α -> (α -> Program Call Reply β) -> Program Call Reply β
  | done a, f => f a
  | call c next, f => call c fun r => (next r).bind f

def interp (serve : (c : Call) -> Program Call' Reply' (Reply c)) :
    Program Call Reply α -> Program Call' Reply' α
  | done a => done a
  | call c next => (serve c).bind fun r => (next r).interp serve

@[simp] theorem bind_done (a : α) (f : α -> Program Call Reply β) :
    (done a).bind f = f a := rfl

@[simp] theorem bind_call (c : Call) (next : Reply c -> Program Call Reply α)
    (f : α -> Program Call Reply β) :
    (call c next).bind f = call c fun r => (next r).bind f := rfl

/-!
## Runs

`Steps p t q`: after the events `t` what is left of `p` is
`q`.  A complete run ends in a value.
-/

inductive Steps : Program Call Reply α -> List (Event Call Reply) ->
    Program Call Reply α -> Prop where
  | refl (p : Program Call Reply α) : Steps p [] p
  | call {c : Call} {next : Reply c -> Program Call Reply α} {r : Reply c}
      {t : List (Event Call Reply)} {q : Program Call Reply α} :
      Steps (next r) t q -> Steps (Program.call c next) (⟨c, r⟩ :: t) q

def Runs (p : Program Call Reply α) (t : List (Event Call Reply)) (a : α) : Prop :=
  Steps p t (done a)

theorem steps_append {p q s : Program Call Reply α} {t u : List (Event Call Reply)}
    (h : Steps p t q) (h' : Steps q u s) : Steps p (t ++ u) s := by
  induction h with
  | refl => exact h'
  | call _ ih => exact Steps.call (ih h')

theorem bind_runs {p : Program Call Reply α} {f : α -> Program Call Reply β} {a : α} {b : β}
    {t u : List (Event Call Reply)} (h : Runs p t a) (h' : Runs (f a) u b) :
    Runs (p.bind f) (t ++ u) b := by
  induction p generalizing t with
  | done a' =>
      cases h
      exact h'
  | call c next ih =>
      cases h with
      | call hrest => exact Steps.call (ih _ hrest)

theorem runs_bind {p : Program Call Reply α} {f : α -> Program Call Reply β}
    {t : List (Event Call Reply)} {b : β} (h : Runs (p.bind f) t b) :
    exists t₁ t₂ a, t = t₁ ++ t₂ ∧ Runs p t₁ a ∧ Runs (f a) t₂ b := by
  induction p generalizing t with
  | done a => exact ⟨[], t, a, rfl, Steps.refl _, h⟩
  | call c next ih =>
      cases h with
      | call hrest =>
          rcases ih _ hrest with ⟨t₁, t₂, a, rfl, hp, hf⟩
          exact ⟨_ :: t₁, t₂, a, rfl, Steps.call hp, hf⟩

theorem steps_bind {p : Program Call Reply α} {f : α -> Program Call Reply β}
    {t : List (Event Call Reply)} {q : Program Call Reply β} (h : Steps (p.bind f) t q) :
    (exists s, Steps p t s) ∨
      exists t₁ t₂ a, t = t₁ ++ t₂ ∧ Runs p t₁ a ∧ Steps (f a) t₂ q := by
  induction p generalizing t with
  | done a => exact .inr ⟨[], t, a, rfl, Steps.refl _, h⟩
  | call c next ih =>
      cases h with
      | refl => exact .inl ⟨_, Steps.refl _⟩
      | call hrest =>
          rcases ih _ hrest with ⟨s, hs⟩ | ⟨t₁, t₂, a, rfl, hp, hf⟩
          · exact .inl ⟨s, Steps.call hs⟩
          · exact .inr ⟨_ :: t₁, t₂, a, rfl, Steps.call hp, hf⟩

theorem steps_split {p q : Program Call Reply α} {t u : List (Event Call Reply)}
    (h : Steps p (t ++ u) q) : exists s, Steps p t s ∧ Steps s u q := by
  induction t generalizing p with
  | nil => exact ⟨p, Steps.refl p, h⟩
  | cons e t ih =>
      cases h with
      | call hrest =>
          rcases ih hrest with ⟨s, hs, hu⟩
          exact ⟨s, Steps.call hs, hu⟩

theorem steps_asked {p q : Program Call Reply α} {t u : List (Event Call Reply)}
    {c : Call} {r : Reply c} (h : Steps p (t ++ ⟨c, r⟩ :: u) q) :
    exists next, Steps p t (call c next) := by
  rcases steps_split h with ⟨s, hs, hu⟩
  cases hu with
  | call _ => exact ⟨_, hs⟩

/-!
## Execution against a given environment

A handler answers every call from a state of its own.  Executing a program
against it picks one of the program's runs.
-/

abbrev Handler (Call : Type) (Reply : Call -> Type) (σ : Type) :=
  (c : Call) -> σ -> Reply c × σ

structure Execution (Call : Type) (Reply : Call -> Type) (α σ : Type) where
  value : α
  events : List (Event Call Reply)
  state : σ

def exec (h : Handler Call Reply σ) :
    Program Call Reply α -> σ -> Execution Call Reply α σ
  | done a, s => { value := a, events := [], state := s }
  | call c next, s =>
      let answer := h c s
      let rest := (next answer.1).exec h answer.2
      { rest with events := ⟨c, answer.1⟩ :: rest.events }

@[simp] theorem exec_done (h : Handler Call Reply σ) (a : α) (s : σ) :
    (done a : Program Call Reply α).exec h s =
      { value := a, events := [], state := s } := rfl

theorem exec_call (h : Handler Call Reply σ) (c : Call)
    (next : Reply c -> Program Call Reply α) (s : σ) :
    (call c next).exec h s =
      { (next (h c s).1).exec h (h c s).2 with
        events := ⟨c, (h c s).1⟩ :: ((next (h c s).1).exec h (h c s).2).events } := rfl

end Program

end Interaction
end Telemux
