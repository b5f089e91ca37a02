import Mathlib.Logic.Function.Basic
import Telemux.Interaction.Contract
import Telemux.Interaction.Transitions

/-!
# Programs over one shared object

Any number of programs run at once and share what answers their calls.  Every
call is a step of its own, so a run is an interleaving, and the happenings of a
run are its history: who started what, and who got which reply.

What one program does in a run is a run of that program alone.  What every
answer and every move of the object keeps, the object keeps.
-/

namespace Telemux
namespace Interaction

open Program

variable {ι Call : Type} {Reply : Call -> Type} {α σ : Type}

/-- The programs that may start, by name, and what they share. -/
structure Object (ι Call : Type) (Reply : Call -> Type) (α σ : Type) where
  code : ι -> Program Call Reply α
  starts : σ -> ι -> Prop
  answers : σ -> (c : Call) -> Reply c -> σ -> Prop
  /-- What happens to the object without any of the programs. -/
  moves : σ -> σ -> Prop

structure Interleaved (Call : Type) (Reply : Call -> Type) (α σ : Type) where
  shared : σ
  processes : Nat -> Option (Program Call Reply α) := fun _ => none

inductive Happening (ι Call : Type) (Reply : Call -> Type) where
  | start (i : Nat) (n : ι)
  | event (i : Nat) (e : Event Call Reply)
  | move

namespace Object

inductive Step (O : Object ι Call Reply α σ) :
    Interleaved Call Reply α σ -> Happening ι Call Reply -> Interleaved Call Reply α σ ->
      Prop where
  | start {w : Interleaved Call Reply α σ} {i : Nat} {n : ι} : w.processes i = none ->
      O.starts w.shared n ->
      Step O w (.start i n)
        { w with processes := Function.update w.processes i (some (O.code n)) }
  | event {w : Interleaved Call Reply α σ} {i : Nat} {c : Call}
      {next : Reply c -> Program Call Reply α} {r : Reply c} {s : σ} :
      w.processes i = some (.call c next) -> O.answers w.shared c r s ->
      Step O w (.event i ⟨c, r⟩)
        { shared := s, processes := Function.update w.processes i (some (next r)) }
  | move {w : Interleaved Call Reply α σ} {s : σ} : O.moves w.shared s ->
      Step O w .move { w with shared := s }

def Runs (O : Object ι Call Reply α σ) (s : σ) (t : List (Happening ι Call Reply))
    (w : Interleaved Call Reply α σ) : Prop :=
  Run O.Step { shared := s } t w

end Object

def eventsOf (i : Nat) : List (Happening ι Call Reply) -> List (Event Call Reply) :=
  List.filterMap fun
    | .event j e => if j = i then some e else none
    | _ => none

@[simp] theorem eventsOf_nil (i : Nat) :
    eventsOf i ([] : List (Happening ι Call Reply)) = [] := rfl

@[simp] theorem eventsOf_append (i : Nat) (t u : List (Happening ι Call Reply)) :
    eventsOf i (t ++ u) = eventsOf i t ++ eventsOf i u :=
  List.filterMap_append

@[simp] theorem eventsOf_start (i j : Nat) (n : ι) :
    eventsOf i [(.start j n : Happening ι Call Reply)] = [] := rfl

@[simp] theorem eventsOf_move (i : Nat) :
    eventsOf i [(.move : Happening ι Call Reply)] = [] := rfl

@[simp] theorem eventsOf_event_self (i : Nat) (e : Event Call Reply) :
    eventsOf i [(.event i e : Happening ι Call Reply)] = [e] := by
  simp [eventsOf]

@[simp] theorem eventsOf_event_other {i j : Nat} (h : j ≠ i) (e : Event Call Reply) :
    eventsOf i [(.event j e : Happening ι Call Reply)] = [] := by
  simp [eventsOf, h]

theorem mem_eventsOf {i : Nat} {e : Event Call Reply} {t : List (Happening ι Call Reply)} :
    e ∈ eventsOf i t <-> .event i e ∈ t := by
  unfold eventsOf
  rw [List.mem_filterMap]
  constructor
  · intro h
    rcases h with ⟨l, hl, heq⟩
    cases l with
    | start j n => cases heq
    | move => cases heq
    | event j e' =>
        by_cases hj : j = i
        · have hsame : e' = e := by simpa [hj] using heq
          rwa [← hj, ← hsame]
        · simp [hj] at heq
  · intro h
    exact ⟨_, h, by simp⟩

/-- How often the object has moved by itself. -/
def movesIn : List (Happening ι Call Reply) -> Nat :=
  List.countP fun
    | .move => true
    | _ => false

/-- The processes that got replies of a kind, in their order. -/
def spenders (spends : (c : Call) -> Reply c -> Bool) :
    List (Happening ι Call Reply) -> List Nat :=
  List.filterMap fun
    | .event i e => if spends e.call e.reply then some i else none
    | _ => none

namespace Object

variable {O : Object ι Call Reply α σ} {s : σ} {t u v : List (Happening ι Call Reply)}
  {w : Interleaved Call Reply α σ}

/-!
## What a process does
-/

/-- A process has not begun, or what it has done is a run of the program it began with. -/
def Follows (O : Object ι Call Reply α σ) (t : List (Happening ι Call Reply)) (i : Nat) :
    Option (Program Call Reply α) -> Prop
  | none => eventsOf i t = [] ∧ forall n, .start i n ∉ t
  | some q => exists n, .start i n ∈ t ∧ (forall m, .start i m ∈ t -> m = n) ∧
      Steps (O.code n) (eventsOf i t) q

theorem follows_other {i : Nat} {p : Option (Program Call Reply α)} (h : O.Follows t i p)
    {l : Happening ι Call Reply} (hevents : eventsOf i [l] = [])
    (hstart : forall n, l ≠ .start i n) : O.Follows (t ++ [l]) i p := by
  have hstarts : forall n, .start i n ∈ t ++ [l] <-> .start i n ∈ t := by
    intro n
    rw [List.mem_append, List.mem_singleton, or_iff_left]
    intro heq
    exact hstart n heq.symm
  cases p with
  | none =>
      refine ⟨by rw [eventsOf_append, h.left, hevents, List.append_nil], ?_⟩
      intro n hn
      exact h.right n ((hstarts n).mp hn)
  | some q =>
      rcases h with ⟨n, hn, honly, hsteps⟩
      refine ⟨n, (hstarts n).mpr hn, fun m hm => honly m ((hstarts m).mp hm), ?_⟩
      rwa [eventsOf_append, hevents, List.append_nil]

theorem follows (h : O.Runs s t w) (i : Nat) : O.Follows t i (w.processes i) := by
  refine Run.invariant (I := fun t w => forall i, O.Follows t i (w.processes i)) h ?_ ?_ i
  · intro j
    exact ⟨rfl, fun n hn => List.not_mem_nil hn⟩
  · intro t w l w' _ ih hstep j
    have hj := ih j
    cases hstep with
    | @start i n hfree hstarts =>
        by_cases hij : j = i
        · rw [hij, hfree] at hj
          rw [hij]
          dsimp only
          rw [Function.update_self]
          refine ⟨n, by simp, ?_, ?_⟩
          · intro m hm
            rcases List.mem_append.mp hm with hold | hnew
            · exact absurd hold (hj.right m)
            · cases List.mem_singleton.mp hnew
              rfl
          · rw [eventsOf_append, hj.left, eventsOf_start]
            exact Steps.refl _
        · dsimp only
          rw [Function.update_of_ne hij]
          refine follows_other hj (eventsOf_start j i n) ?_
          intro m heq
          cases heq
          exact hij rfl
    | @event i c next r s' hproc hans =>
        by_cases hij : j = i
        · rw [hij, hproc] at hj
          rw [hij]
          dsimp only
          rw [Function.update_self]
          rcases hj with ⟨n, hn, honly, hsteps⟩
          refine ⟨n, List.mem_append_left _ hn, ?_, ?_⟩
          · intro m hm
            rcases List.mem_append.mp hm with hold | hnew
            · exact honly m hold
            · cases List.mem_singleton.mp hnew
          · rw [eventsOf_append, eventsOf_event_self]
            exact steps_append hsteps (Steps.call (Steps.refl _))
        · dsimp only
          rw [Function.update_of_ne hij]
          refine follows_other hj (eventsOf_event_other (Ne.symm hij) _) ?_
          intro m heq
          cases heq
    | move hmove =>
        refine follows_other hj (eventsOf_move j) ?_
        intro m heq
        cases heq

theorem started_once (h : O.Runs s t w) {i : Nat} {n m : ι} (hn : .start i n ∈ t)
    (hm : .start i m ∈ t) : n = m := by
  have hfollows := follows h i
  cases hp : w.processes i with
  | none =>
      rw [hp] at hfollows
      exact absurd hn (hfollows.right n)
  | some q =>
      rw [hp] at hfollows
      rcases hfollows with ⟨k, _, honly, _⟩
      rw [honly n hn, honly m hm]

/-!
## One more step
-/

theorem runs_nil (O : Object ι Call Reply α σ) (s : σ) : O.Runs s [] { shared := s } := .refl _

theorem runs_start (h : O.Runs s t w) (i : Nat) (n : ι) {p : Program Call Reply α}
    (hcode : O.code n = p) (hfree : w.processes i = none) (hstarts : O.starts w.shared n) :
    O.Runs s (t ++ [.start i n])
      { w with processes := Function.update w.processes i (some p) } :=
  hcode ▸ h.snoc (.start hfree hstarts)

theorem runs_event (h : O.Runs s t w) (i : Nat) (c : Call) (r : Reply c) {s' : σ}
    {next : Reply c -> Program Call Reply α} (hproc : w.processes i = some (.call c next))
    (hans : O.answers w.shared c r s') :
    O.Runs s (t ++ [.event i ⟨c, r⟩])
      { shared := s', processes := Function.update w.processes i (some (next r)) } :=
  h.snoc (.event hproc hans)

theorem runs_alone (h : O.Runs s t w) (i : Nat) {p q : Program Call Reply α}
    {es : List (Event Call Reply)} {s' : σ} (hproc : w.processes i = some p)
    (hsteps : Steps p es q)
    (hans : Contract.Answered ⟨fun _ _ => True, O.answers⟩ w.shared es s') :
    O.Runs s (t ++ es.map (.event i)) ⟨s', Function.update w.processes i (some q)⟩ := by
  induction hsteps generalizing t w with
  | refl p =>
      cases hans
      rw [← hproc, Function.update_eq_self, List.map_nil, List.append_nil]
      exact h
  | @call c next r es q _ ih =>
      cases hans with
      | cons hstep hrest =>
          have hruns := ih (runs_event h i c r hproc hstep) (Function.update_self _ _ _) hrest
          rwa [List.append_assoc, Function.update_idem] at hruns

theorem runs_move (h : O.Runs s t w) {s' : σ} (hmoves : O.moves w.shared s') :
    O.Runs s (t ++ [.move]) { w with shared := s' } :=
  h.snoc (.move hmoves)

/-!
## What happened before
-/

theorem event_asked {i : Nat} {c : Call} {r : Reply c}
    (h : O.Runs s (t ++ .event i ⟨c, r⟩ :: u) w) :
    exists w' n next s', O.Runs s t w' ∧ .start i n ∈ t ∧
      Steps (O.code n) (eventsOf i t) (.call c next) ∧ O.answers w'.shared c r s' := by
  rcases Run.split h with ⟨w', ht, hu⟩
  rcases Run.first hu with ⟨w'', hstep, _⟩
  have hfollows := follows ht i
  cases hstep with
  | event hproc hans =>
      rw [hproc] at hfollows
      rcases hfollows with ⟨n, hn, _, hsteps⟩
      exact ⟨w', n, _, _, ht, hn, hsteps, hans⟩

theorem start_allowed {i : Nat} {n : ι} (h : O.Runs s (t ++ .start i n :: u) w) :
    exists w', O.Runs s t w' ∧ O.starts w'.shared n := by
  rcases Run.split h with ⟨w', ht, hu⟩
  rcases Run.first hu with ⟨w'', hstep, _⟩
  cases hstep with
  | start _ hstarts => exact ⟨w', ht, hstarts⟩

theorem started_allowed (h : O.Runs s t w) {i : Nat} {n : ι} (hn : .start i n ∈ t) :
    exists s', O.starts s' n := by
  rcases List.append_of_mem hn with ⟨u, v, rfl⟩
  rcases start_allowed h with ⟨w', _, hstarts⟩
  exact ⟨w'.shared, hstarts⟩

theorem event_owed {owes : ι -> List (Event Call Reply) -> Call -> Prop}
    (hcode : forall n, (Contract.onHistory (owes n)).Meets (O.code n) [] fun _ _ => True)
    {i : Nat} {n : ι} {e : Event Call Reply} (h : O.Runs s t w) (hn : .start i n ∈ t)
    (he : .event i e ∈ t) :
    exists u v, t = u ++ .event i e :: v ∧ owes n (eventsOf i u) e.call := by
  rcases List.append_of_mem he with ⟨u, v, rfl⟩
  rcases event_asked h with ⟨w', m, next, _, _, hm, hsteps, _⟩
  rw [started_once h hn (List.mem_append_left _ hm)]
  exact ⟨u, v, rfl, Contract.owes_of_onHistory (hcode m) hsteps⟩

/-!
## What the object keeps
-/

theorem invariant {I : List (Happening ι Call Reply) -> σ -> Prop} (h : O.Runs s t w)
    (hinit : I [] s)
    (hstart : forall {u w i n}, O.Runs s u w -> I u w.shared -> O.starts w.shared n ->
      I (u ++ [.start i n]) w.shared)
    (hevent : forall {u w i c r s'}, O.Runs s u w -> I u w.shared ->
      (exists n next, .start i n ∈ u ∧ Steps (O.code n) (eventsOf i u) (.call c next)) ->
      O.answers w.shared c r s' -> I (u ++ [.event i ⟨c, r⟩]) s')
    (hmove : forall {u w s'}, O.Runs s u w -> I u w.shared -> O.moves w.shared s' ->
      I (u ++ [.move]) s') : I t w.shared := by
  refine Run.invariant (I := fun t w => I t w.shared) h hinit ?_
  intro u w l w' hrun hI hstep
  cases hstep with
  | start _ hstarts => exact hstart (w := w) hrun hI hstarts
  | @event i c next r s' hproc hans =>
      have hfollows := follows hrun i
      rw [hproc] at hfollows
      rcases hfollows with ⟨n, hn, _, hsteps⟩
      exact hevent hrun hI ⟨n, next, hn, hsteps⟩ hans
  | move hmoves => exact hmove hrun hI hmoves

/-!
## What is spent once

Something that the object has at most once: an answer that spends it finds it there
and leaves it gone, and no other answer brings it back.  Only a move can.
-/

structure SpentOnce (O : Object ι Call Reply α σ) (free : σ -> Prop)
    (spends : (c : Call) -> Reply c -> Bool) : Prop where
  spent : forall {s c r s'}, O.answers s c r s' -> spends c r = true -> free s ∧ ¬ free s'
  gone : forall {s c r s'}, O.answers s c r s' -> ¬ free s -> ¬ free s'

theorem spenders_le {free : σ -> Prop} {spends : (c : Call) -> Reply c -> Bool}
    (honce : O.SpentOnce free spends) (h : O.Runs s t w) :
    (spenders spends t).length ≤ 1 + movesIn t ∧
      (free w.shared -> (spenders spends t).length ≤ movesIn t) := by
  refine invariant
    (I := fun t s => (spenders spends t).length ≤ 1 + movesIn t ∧
      (free s -> (spenders spends t).length ≤ movesIn t)) h ?_ ?_ ?_ ?_
  · exact ⟨Nat.zero_le _, fun _ => Nat.zero_le _⟩
  · intro u w i n _ ih _
    have hcount : (spenders spends (u ++ [.start i n])).length = (spenders spends u).length := by
      simp [spenders]
    have hmoves : movesIn (u ++ [.start i n]) = movesIn u := by simp [movesIn]
    rwa [hcount, hmoves]
  · intro u w i c r s' _ ih _ hans
    have hmoves : movesIn (u ++ [.event i ⟨c, r⟩]) = movesIn u := by simp [movesIn]
    rw [hmoves]
    by_cases hspends : spends c r = true
    · have hcount : (spenders spends (u ++ [.event i ⟨c, r⟩])).length =
          (spenders spends u).length + 1 := by
        simp [spenders, hspends]
      have hspent := honce.spent hans hspends
      have hle := ih.right hspent.left
      rw [hcount]
      exact ⟨by omega, fun hfree => absurd hfree hspent.right⟩
    · have hcount : (spenders spends (u ++ [.event i ⟨c, r⟩])).length =
          (spenders spends u).length := by
        simp [spenders, hspends]
      rw [hcount]
      refine ⟨ih.left, ?_⟩
      intro hfree
      by_cases hold : free w.shared
      · exact ih.right hold
      · exact absurd hfree (honce.gone hans hold)
  · intro u w s' _ ih _
    have hcount : (spenders spends (u ++ [.move])).length = (spenders spends u).length := by
      simp [spenders]
    have hmoves : movesIn (u ++ [.move]) = movesIn u + 1 := by simp [movesIn]
    rw [hcount, hmoves]
    exact ⟨by omega, fun _ => by omega⟩

theorem spent_once {free : σ -> Prop} {spends : (c : Call) -> Reply c -> Bool}
    (honce : O.SpentOnce free spends) (h : O.Runs s t w) {ids : List Nat} (hids : ids.Nodup)
    (hspent : forall i, i ∈ ids -> exists e : Event Call Reply,
      .event i e ∈ t ∧ spends e.call e.reply = true) : ids.length ≤ 1 + movesIn t := by
  have hsubset : ids ⊆ spenders spends t := by
    intro i hi
    rcases hspent i hi with ⟨e, he, hspends⟩
    exact List.mem_filterMap.mpr ⟨_, he, if_pos hspends⟩
  exact Nat.le_trans (hids.length_le_of_subset hsubset) (spenders_le honce h).left

end Object

end Interaction
end Telemux
