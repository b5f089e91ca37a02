import Mathlib.Logic.Function.Basic
import Telemux.Interaction.Transitions
import Telemux.Server.Obligations

/-!
# The daemon

The handlers that write, the sync loop and the passes that requests ask for all
run at once over one store, one `dirty` channel and one mutex.  Every call they
make is a step of its own, so a run is an interleaving of any number of them.

The counters of commits and what they are compared with are history: no step
depends on them.
-/

namespace Telemux
namespace Server

open Interaction Net Store Sync TelemtSync

variable {ε : Type}

/-!
## What is shared
-/

structure Shared (ε : Type) where
  table : UsersTable
  /-- A signal is in the channel `dirty`, which holds one. -/
  dirty : Bool := false
  /-- `runMu` is locked. -/
  runMu : Bool := false
  lastSync : SyncStatus ε := {}
  /-- History: how many writes of handlers have been committed. -/
  commits : Nat := 0
  /-- History: how many of them had been when `ListDesired` was last called. -/
  listed : Nat := 0

def Shared.commit (s : Shared ε) (table : UsersTable) : Shared ε :=
  { s with table := table, commits := s.commits + 1 }

def Shared.affected (s s' : Shared ε) (result : Bool × UsersTable) (changed : Bool) : Prop :=
  result.1 = changed ∧ s' = if changed then s.commit result.2 else s

/--
A statement that fails.  It may have been committed all the same, when the
connection is lost before the answer.
-/
def Shared.broken (s s' : Shared ε) (table : UsersTable) : Prop :=
  s' = s ∨ s' = s.commit table

def Shared.answers [RFC3339] [Collation] (s : Shared ε) :
    (c : ServerCall ε) -> ServerReply ε c -> Shared ε -> Prop
  | .IsInRecovery, _, s' => s' = s
  | .CreateUser username secret exp maxConns, .ok u, s' =>
      exists now generated table,
        CreateUser s.table now generated username secret exp maxConns = .ok (u, table) ∧
          s' = s.commit table
  | .CreateUser username secret exp maxConns, .error (.create err), s' =>
      (exists now generated,
        CreateUser s.table now generated username secret exp maxConns = .error err) ∧ s' = s
  | .CreateUser username secret exp maxConns, .error (.database _), s' =>
      s' = s ∨ exists now generated u table,
        CreateUser s.table now generated username secret exp maxConns = .ok (u, table) ∧
          s' = s.commit table
  | .DeleteUser username, .ok changed, s' =>
      s.affected s' (DeleteUser s.table username) changed
  | .DeleteUser username, .error _, s' => s.broken s' (DeleteUser s.table username).2
  | .SetExpiration username exp, .ok changed, s' =>
      s.affected s' (SetExpiration s.table username exp) changed
  | .SetExpiration username exp, .error _, s' =>
      s.broken s' (SetExpiration s.table username exp).2
  | .SetEnabled username enabled, .ok changed, s' =>
      s.affected s' (SetEnabled s.table username enabled) changed
  | .SetEnabled username enabled, .error _, s' =>
      s.broken s' (SetEnabled s.table username enabled).2
  | .markDirty, _, s' => s' = { s with dirty := true }
  | .Lock, _, s' => s.runMu = false ∧ s' = { s with runMu := true }
  | .Unlock, _, s' => s' = { s with runMu := false }
  | .Sync .ListDesired, r, s' =>
      (forall des, r = .ok des -> des = ListDesired s.table) ∧ s' = { s with listed := s.commits }
  | .Sync .ListUsers, _, s' => s' = s
  | .Sync (.ApplyOp _ _), _, s' => s' = s
  | .Now, _, s' => s' = s
  | .setLastSync st, _, s' => s' = { s with lastSync := st }
  | .Respond _, _, s' => s' = s

theorem answers_frame [RFC3339] [Collation] {β : Type} (f : Shared ε -> β)
    (hcommit : forall s table, f (s.commit table) = f s)
    (hdirty : forall s : Shared ε, f { s with dirty := true } = f s)
    (hlisted : forall s : Shared ε, f { s with listed := s.commits } = f s)
    {s s' : Shared ε} {c : ServerCall ε} {r : ServerReply ε c} (hans : s.answers c r s')
    (hlock : c ≠ .Lock) (hunlock : c ≠ .Unlock) (hset : forall st, c ≠ .setLastSync st) :
    f s' = f s := by
  have haffected : forall {result : Bool × UsersTable} {changed : Bool},
      s.affected s' result changed -> f s' = f s := by
    intro result changed h
    rcases h with ⟨_, rfl⟩
    cases changed with
    | false => rfl
    | true => exact hcommit s _
  have hbroken : forall {table : UsersTable}, s.broken s' table -> f s' = f s := by
    intro table h
    rcases h with rfl | rfl
    · rfl
    · exact hcommit s table
  cases c with
  | Lock => exact absurd rfl hlock
  | Unlock => exact absurd rfl hunlock
  | setLastSync st => exact absurd rfl (hset st)
  | CreateUser username secret exp maxConns =>
      cases r with
      | ok u =>
          rcases hans with ⟨_, _, _, _, rfl⟩
          exact hcommit s _
      | error err =>
          cases err with
          | create err => rw [hans.right]
          | database err =>
              rcases hans with rfl | ⟨_, _, _, _, _, rfl⟩
              · rfl
              · exact hcommit s _
  | DeleteUser username =>
      cases r with
      | ok changed => exact haffected hans
      | error err => exact hbroken hans
  | SetExpiration username exp =>
      cases r with
      | ok changed => exact haffected hans
      | error err => exact hbroken hans
  | SetEnabled username enabled =>
      cases r with
      | ok changed => exact haffected hans
      | error err => exact hbroken hans
  | markDirty => exact (show s' = _ from hans) ▸ hdirty s
  | Sync c =>
      cases c with
      | ListDesired => exact hans.right ▸ hlisted s
      | ListUsers => rw [show s' = s from hans]
      | ApplyOp op ifMatch => rw [show s' = s from hans]
  | IsInRecovery => rw [show s' = s from hans]
  | Now => rw [show s' = s from hans]
  | Respond resp => rw [show s' = s from hans]

/-!
## The system
-/

structure Write (ε : Type) where
  rest : Handler ε
  history : WriteHistory ε := {}

structure Pass (ε : Type) where
  rest : Handler ε
  phase : Phase := .waiting
  /-- History: how many writes had been committed when the pass was triggered. -/
  triggered : Nat

inductive LoopState where
  /-- `reportHeartbeat`, at the start and after a tick. -/
  | heartbeat
  | running
  | selecting
  | returned
deriving DecidableEq, Repr

/-- Who runs a pass: the sync loop, or a request `POST /api/sync`. -/
inductive Runner where
  | loop
  | request (j : Nat)
deriving DecidableEq, Repr

structure Daemon (ε : Type) where
  shared : Shared ε
  loop : LoopState := .heartbeat
  writes : Nat -> Option (Write ε) := fun _ => none
  passes : Runner -> Option (Pass ε) := fun _ => none
  cancelled : Bool := false

inductive Label where
  | outside
  | cancel
  | request (i : Nat)
  | write (i : Nat)
  | sync (j : Nat)
  | pass (runner : Runner)
  | loop
deriving DecidableEq, Repr

section System

variable [ClassifiedError ε] [RFC3339] [Collation] [JsonStream] [TimeJSON]

inductive Step (opts : SyncOptions) : Daemon ε -> Label -> Daemon ε -> Prop where
  /-- Somebody else writes to the database. -/
  | outside {d : Daemon ε} (table : UsersTable) :
      Step opts d .outside { d with shared := { d.shared with table := table } }
  | cancel {d : Daemon ε} : Step opts d .cancel { d with cancelled := true }
  | request {d : Daemon ε} {i : Nat} (req : WriteRequest) : d.writes i = none ->
      Step opts d (.request i)
        { d with writes := Function.update d.writes i (some { rest := req.handler }) }
  | write {d : Daemon ε} {i : Nat} {c : ServerCall ε} {next : ServerReply ε c -> Handler ε}
      {h : WriteHistory ε} {r : ServerReply ε c} {s : Shared ε} :
      d.writes i = some ⟨.call c next, h⟩ -> d.shared.answers c r s ->
      Step opts d (.write i)
        { d with
          shared := s
          writes := Function.update d.writes i (some ⟨next r, h.next s.commits c r⟩) }
  | sync {d : Daemon ε} {j : Nat} : d.passes (.request j) = none ->
      Step opts d (.sync j)
        { d with
          passes := Function.update d.passes (.request j)
            (some { rest := handleSync opts, triggered := d.shared.commits }) }
  | pass {d : Daemon ε} {runner : Runner} {c : ServerCall ε}
      {next : ServerReply ε c -> Handler ε} {ph : Phase} {n : Nat} {r : ServerReply ε c}
      {s : Shared ε} :
      d.passes runner = some ⟨.call c next, ph, n⟩ -> d.shared.answers c r s ->
      Step opts d (.pass runner)
        { d with
          shared := s
          passes := Function.update d.passes runner (some ⟨next r, ph.next c, n⟩) }
  /-- `runSync` after a heartbeat. -/
  | beaten {d : Daemon ε} : d.loop = .heartbeat ->
      Step opts d .loop
        { d with
          loop := .running
          passes := Function.update d.passes .loop
            (some { rest := loopPass opts, triggered := d.shared.commits }) }
  | ended {d : Daemon ε} {ph : Phase} {n : Nat} : d.passes .loop = some ⟨.done (), ph, n⟩ ->
      Step opts d .loop
        { d with loop := .selecting, passes := Function.update d.passes .loop none }
  /-- `case <-ctx.Done()`. -/
  | returned {d : Daemon ε} : d.loop = .selecting -> d.cancelled = true ->
      Step opts d .loop { d with loop := .returned }
  /-- `case <-t.C`. -/
  | tick {d : Daemon ε} : d.loop = .selecting ->
      Step opts d .loop { d with loop := .heartbeat }
  /-- `case <-s.dirty`. -/
  | signal {d : Daemon ε} : d.loop = .selecting -> d.shared.dirty = true ->
      Step opts d .loop
        { d with
          loop := .running
          shared := { d.shared with dirty := false }
          passes := Function.update d.passes .loop
            (some { rest := loopPass opts, triggered := d.shared.commits }) }

end System

/-!
## The invariant
-/

/-- A pass of the loop was triggered after commit `k` and has yet to read the table. -/
def Daemon.Awaited (d : Daemon ε) (k : Nat) : Prop :=
  exists p, d.passes .loop = some p ∧ p.phase.Pending ∧ k ≤ p.triggered

/-- Commit `k` has been read, or the loop will read it without waiting for a tick. -/
def Daemon.Carried (d : Daemon ε) (k : Nat) : Prop :=
  k ≤ d.shared.listed ∨ d.shared.dirty = true ∨ d.Awaited k

structure WriteSound (d : Daemon ε) (w : Write ε) : Prop where
  owes : Owes w.rest w.history
  committed : forall k, w.history.committed = some k -> k ≤ d.shared.commits
  marked : w.history.marked = true ->
    exists k, w.history.committed = some k ∧ d.Carried k
  response : forall resp, w.history.response = some resp -> resp.Success ->
    w.history.marked = true

structure Sound (d : Daemon ε) : Prop where
  listed : d.shared.listed ≤ d.shared.commits
  writes : forall i w, d.writes i = some w -> WriteSound d w
  passes : forall runner p, d.passes runner = some p -> Keeps p.rest p.phase
  loop : forall p, d.passes .loop = some p -> d.loop = .running

theorem update_some {ι α : Type} [DecidableEq ι] {f : ι -> Option α} {i j : ι} {x : Option α}
    {y : α} (h : Function.update f i x j = some y) :
    x = some y ∧ j = i ∨ f j = some y ∧ j ≠ i := by
  by_cases hj : j = i
  · rw [hj, Function.update_self] at h
    exact Or.inl ⟨h, hj⟩
  · rw [Function.update_of_ne hj] at h
    exact Or.inr ⟨h, hj⟩

theorem forall_update {ι α : Type} [DecidableEq ι] {P : α -> Prop} {f : ι -> Option α} {i : ι}
    {x : Option α} (hold : forall j y, f j = some y -> P y) (hnew : forall y, x = some y -> P y) :
    forall j y, Function.update f i x j = some y -> P y := by
  intro j y hy
  rcases update_some hy with ⟨hx, _⟩ | ⟨hf, _⟩
  · exact hnew y hx
  · exact hold j y hf

section Invariant

variable [RFC3339] [Collation]

/-- What no call takes back. -/
structure Grows (s s' : Shared ε) : Prop where
  commits : s.commits ≤ s'.commits
  listed : s.listed ≤ s'.listed
  bound : s'.listed ≤ s'.commits
  dirty : s.dirty = true -> s'.dirty = true

omit [RFC3339] [Collation] in
theorem same_grows {s s' : Shared ε} (heq : s' = s) (h : s.listed ≤ s.commits) :
    Grows s s' := by
  rw [heq]
  exact ⟨Nat.le_refl _, Nat.le_refl _, h, id⟩

omit [RFC3339] [Collation] in
theorem commit_grows {s : Shared ε} (table : UsersTable) (h : s.listed ≤ s.commits) :
    Grows s (s.commit table) :=
  ⟨Nat.le_succ _, Nat.le_refl _, Nat.le_succ_of_le h, id⟩

omit [RFC3339] [Collation] in
theorem affected_grows {s s' : Shared ε} {result : Bool × UsersTable} {changed : Bool}
    (hans : s.affected s' result changed) (h : s.listed ≤ s.commits) : Grows s s' := by
  rcases hans with ⟨_, rfl⟩
  cases changed with
  | false => exact same_grows rfl h
  | true => exact commit_grows _ h

omit [RFC3339] [Collation] in
theorem broken_grows {s s' : Shared ε} {table : UsersTable} (hans : s.broken s' table)
    (h : s.listed ≤ s.commits) : Grows s s' := by
  rcases hans with rfl | rfl
  · exact same_grows rfl h
  · exact commit_grows _ h

theorem answers_grows {s s' : Shared ε} {c : ServerCall ε} {r : ServerReply ε c}
    (hans : s.answers c r s') (h : s.listed ≤ s.commits) : Grows s s' := by
  cases c with
  | IsInRecovery => exact same_grows hans h
  | CreateUser username secret exp maxConns =>
      cases r with
      | ok u =>
          rcases hans with ⟨_, _, _, _, rfl⟩
          exact commit_grows _ h
      | error err =>
          cases err with
          | create err => exact same_grows hans.right h
          | database err =>
              rcases hans with rfl | ⟨_, _, _, _, _, rfl⟩
              · exact same_grows rfl h
              · exact commit_grows _ h
  | DeleteUser username =>
      cases r with
      | ok changed => exact affected_grows hans h
      | error err => exact broken_grows hans h
  | SetExpiration username exp =>
      cases r with
      | ok changed => exact affected_grows hans h
      | error err => exact broken_grows hans h
  | SetEnabled username enabled =>
      cases r with
      | ok changed => exact affected_grows hans h
      | error err => exact broken_grows hans h
  | markDirty =>
      rw [show s' = _ from hans]
      exact ⟨Nat.le_refl _, Nat.le_refl _, h, fun _ => rfl⟩
  | Lock =>
      rw [hans.right]
      exact ⟨Nat.le_refl _, Nat.le_refl _, h, id⟩
  | Unlock =>
      rw [show s' = _ from hans]
      exact ⟨Nat.le_refl _, Nat.le_refl _, h, id⟩
  | Sync c =>
      cases c with
      | ListDesired =>
          rw [hans.right]
          exact ⟨Nat.le_refl _, h, Nat.le_refl _, id⟩
      | ListUsers => exact same_grows hans h
      | ApplyOp op ifMatch => exact same_grows hans h
  | Now => exact same_grows hans h
  | setLastSync st =>
      rw [show s' = _ from hans]
      exact ⟨Nat.le_refl _, Nat.le_refl _, h, id⟩
  | Respond resp => exact same_grows hans h

/-!
## Steps keep it
-/

omit [RFC3339] [Collation] in
theorem carried_grows {d d' : Daemon ε} {k : Nat} (hcarried : d.Carried k)
    (hgrows : Grows d.shared d'.shared) (hpass : d.Awaited k -> d'.Carried k) :
    d'.Carried k := by
  rcases hcarried with hlisted | hdirty | hawaited
  · exact Or.inl (Nat.le_trans hlisted hgrows.listed)
  · exact Or.inr (Or.inl (hgrows.dirty hdirty))
  · exact hpass hawaited

omit [RFC3339] [Collation] in
theorem carried_awaited {d : Daemon ε} {k : Nat} {p : Pass ε} (hp : d.passes .loop = some p)
    (hpending : p.phase.Pending) (htriggered : k ≤ p.triggered) : d.Carried k :=
  Or.inr (Or.inr ⟨p, hp, hpending, htriggered⟩)

omit [RFC3339] [Collation] in
theorem not_awaited {d : Daemon ε} (h : Sound d) (hloop : d.loop ≠ .running) (k : Nat) :
    ¬ d.Awaited k := by
  intro hawaited
  rcases hawaited with ⟨p, hp, _⟩
  exact hloop (h.loop p hp)

theorem pass_carried {d : Daemon ε} (hsound : Sound d) {runner : Runner} {c : ServerCall ε}
    {next : ServerReply ε c -> Handler ε} {ph : Phase} {n : Nat} {r : ServerReply ε c}
    {s : Shared ε} (hp : d.passes runner = some ⟨.call c next, ph, n⟩)
    (hans : d.shared.answers c r s) {k : Nat} (hk : k ≤ d.shared.commits)
    (hcarried : d.Carried k) :
    Daemon.Carried
      { d with
        shared := s
        passes := Function.update d.passes runner (some ⟨next r, ph.next c, n⟩) } k := by
  refine carried_grows hcarried (answers_grows hans hsound.listed) ?_
  intro hawaited
  rcases hawaited with ⟨p, hloop, hpending, htriggered⟩
  by_cases hrunner : runner = .loop
  · subst hrunner
    rw [hp] at hloop
    cases hloop
    rcases pending_calls (hsound.passes _ _ hp).left hpending with rfl | rfl
    · have hlocked : Function.update d.passes .loop (some ⟨next r, .locked, n⟩) .loop =
          some ⟨next r, .locked, n⟩ := Function.update_self _ _ _
      exact carried_awaited hlocked (Or.inr rfl) htriggered
    · have hlisted : s.listed = d.shared.commits := by rw [hans.right]
      exact Or.inl (hlisted ▸ hk)
  · refine carried_awaited ?_ hpending htriggered
    exact (Function.update_of_ne (Ne.symm hrunner) _ _).trans hloop

end Invariant

section Steps

variable [ClassifiedError ε] [RFC3339] [Collation] [JsonStream] [TimeJSON]

theorem step_commits {opts : SyncOptions} {d d' : Daemon ε} {l : Label}
    (hsound : Sound d) (hstep : Step opts d l d') :
    d.shared.commits ≤ d'.shared.commits ∧ d'.shared.listed ≤ d'.shared.commits := by
  cases hstep with
  | write _ hans =>
      have hgrows := answers_grows hans hsound.listed
      exact ⟨hgrows.commits, hgrows.bound⟩
  | pass _ hans =>
      have hgrows := answers_grows hans hsound.listed
      exact ⟨hgrows.commits, hgrows.bound⟩
  | _ => exact ⟨Nat.le_refl _, hsound.listed⟩

theorem step_carried {opts : SyncOptions} {d d' : Daemon ε} {l : Label}
    (hsound : Sound d) (hstep : Step opts d l d') {k : Nat} (hk : k ≤ d.shared.commits)
    (hcarried : d.Carried k) : d'.Carried k := by
  cases hstep with
  | outside table => exact hcarried
  | cancel => exact hcarried
  | request req _ => exact hcarried
  | write _ hans =>
      refine carried_grows hcarried (answers_grows hans hsound.listed) ?_
      intro hawaited
      exact Or.inr (Or.inr hawaited)
  | @sync j _ =>
      refine carried_grows hcarried (same_grows rfl hsound.listed) ?_
      intro hawaited
      rcases hawaited with ⟨p, hp, hpending, htriggered⟩
      have hother : Runner.loop ≠ .request j := nofun
      refine carried_awaited ?_ hpending htriggered
      show Function.update d.passes (.request j)
        (some { rest := handleSync opts, triggered := d.shared.commits }) .loop = some p
      rw [Function.update_of_ne hother]
      exact hp
  | pass hp hans => exact pass_carried hsound hp hans hk hcarried
  | beaten hloop =>
      refine carried_grows hcarried (same_grows rfl hsound.listed) ?_
      intro hawaited
      exact absurd hawaited (not_awaited hsound (by rw [hloop]; exact nofun) k)
  | ended hp =>
      refine carried_grows hcarried (same_grows rfl hsound.listed) ?_
      intro hawaited
      rcases hawaited with ⟨p, hloop, hpending, _⟩
      rw [hp] at hloop
      cases hloop
      exact absurd (hsound.passes _ _ hp) (pending_not_released hpending)
  | returned _ _ => exact hcarried
  | tick _ => exact hcarried
  | signal _ _ =>
      have hstarted : Function.update d.passes .loop
          (some { rest := loopPass opts, triggered := d.shared.commits }) .loop =
          some { rest := loopPass opts, triggered := d.shared.commits } :=
        Function.update_self _ _ _
      exact carried_awaited hstarted (Or.inl rfl) hk

theorem writeSound_step {opts : SyncOptions} {d d' : Daemon ε} {l : Label}
    (hsound : Sound d) (hstep : Step opts d l d') {w : Write ε} (h : WriteSound d w) :
    WriteSound d' w := by
  constructor
  · exact h.owes
  · intro k hk
    exact Nat.le_trans (h.committed k hk) (step_commits hsound hstep).left
  · intro hmarked
    rcases h.marked hmarked with ⟨k, hk, hcarried⟩
    exact ⟨k, hk, step_carried hsound hstep (h.committed k hk) hcarried⟩
  · exact h.response

omit [ClassifiedError ε] [JsonStream] [TimeJSON] in
theorem write_sound {d d' : Daemon ε} {c : ServerCall ε}
    {next : ServerReply ε c -> Handler ε} {h : WriteHistory ε} {r : ServerReply ε c}
    (hold : WriteSound d' ⟨.call c next, h⟩) (hans : d.shared.answers c r d'.shared) :
    WriteSound d' ⟨next r, h.next d'.shared.commits c r⟩ := by
  have howes : writeOwes h c := hold.owes.left
  constructor
  · exact hold.owes.right r _ ⟨_, rfl⟩
  · intro k hk
    unfold WriteHistory.next at hk
    dsimp only at hk
    split at hk
    · cases hk
      exact Nat.le_refl _
    · exact hold.committed k hk
  · intro hmarked
    cases c with
    | markDirty =>
        rcases Option.isSome_iff_exists.mp howes with ⟨k, hk⟩
        have hdirty : d'.shared.dirty = true := by rw [show d'.shared = _ from hans]
        exact ⟨k, hk, Or.inr (Or.inl hdirty)⟩
    -- a handler that has marked makes no statement any more
    | CreateUser username secret exp maxConns => exact absurd (hmarked.symm.trans howes) nofun
    | DeleteUser username => exact absurd (hmarked.symm.trans howes) nofun
    | SetExpiration username exp => exact absurd (hmarked.symm.trans howes) nofun
    | SetEnabled username enabled => exact absurd (hmarked.symm.trans howes) nofun
    | IsInRecovery => exact hold.marked hmarked
    | Respond resp => exact hold.marked hmarked
    | Lock => exact howes.elim
    | Unlock => exact howes.elim
    | Sync c => exact howes.elim
    | Now => exact howes.elim
    | setLastSync st => exact howes.elim
  · intro resp hresp hsuccess
    cases c with
    | Respond resp' =>
        cases hresp
        exact howes hsuccess
    | markDirty => rfl
    | _ => exact hold.response resp hresp hsuccess

theorem sound_step {opts : SyncOptions} {d d' : Daemon ε} {l : Label}
    (hsound : Sound d) (hstep : Step opts d l d') : Sound d' := by
  have hkept : forall i w, d.writes i = some w -> WriteSound d' w :=
    fun i w hw => writeSound_step hsound hstep (hsound.writes i w hw)
  have hlisted := (step_commits hsound hstep).right
  cases hstep with
  | outside table => exact ⟨hlisted, hkept, hsound.passes, hsound.loop⟩
  | cancel => exact ⟨hlisted, hkept, hsound.passes, hsound.loop⟩
  | request req hfree =>
      refine ⟨hlisted, forall_update hkept ?_, hsound.passes, hsound.loop⟩
      intro w hw
      cases hw
      exact ⟨req.handler_owes, nofun, nofun, nofun⟩
  | write hw hans =>
      refine ⟨hlisted, forall_update hkept ?_, hsound.passes, hsound.loop⟩
      intro w' hw'
      cases hw'
      exact write_sound (hkept _ _ hw) hans
  | sync hfree =>
      refine ⟨hlisted, hkept, forall_update hsound.passes ?_, ?_⟩
      · intro p hp
        cases hp
        exact handleSync_keeps opts
      · intro p hp
        dsimp only at hp
        rcases update_some hp with ⟨_, hrunner⟩ | ⟨hold, _⟩
        · cases hrunner
        · exact hsound.loop p hold
  | pass hpass hans =>
      refine ⟨hlisted, hkept, forall_update hsound.passes ?_, ?_⟩
      · intro p hp
        cases hp
        exact (hsound.passes _ _ hpass).right _ _ rfl
      · intro p hp
        dsimp only at hp
        rcases update_some hp with ⟨_, hrunner⟩ | ⟨hold, _⟩
        · subst hrunner
          exact hsound.loop _ hpass
        · exact hsound.loop p hold
  | beaten hloop =>
      refine ⟨hlisted, hkept, forall_update hsound.passes ?_, fun _ _ => rfl⟩
      intro p hp
      cases hp
      exact loopPass_keeps opts
  | ended hpass =>
      refine ⟨hlisted, hkept, forall_update hsound.passes nofun, ?_⟩
      intro p hp
      dsimp only at hp
      rw [Function.update_self] at hp
      cases hp
  | returned hloop _ =>
      refine ⟨hlisted, hkept, hsound.passes, ?_⟩
      intro p hp
      exact absurd ((hsound.loop p hp).symm.trans hloop) nofun
  | tick hloop =>
      refine ⟨hlisted, hkept, hsound.passes, ?_⟩
      intro p hp
      exact absurd ((hsound.loop p hp).symm.trans hloop) nofun
  | signal _ _ =>
      refine ⟨hlisted, hkept, forall_update hsound.passes ?_, fun _ _ => rfl⟩
      intro p hp
      cases hp
      exact loopPass_keeps opts

/-!
## Runs
-/

def Daemon.started (table : UsersTable) : Daemon ε where
  shared := { table := table }

omit [ClassifiedError ε] [RFC3339] [Collation] [JsonStream] [TimeJSON] in
theorem sound_started (table : UsersTable) : Sound (Daemon.started (ε := ε) table) := by
  constructor
  · exact Nat.le_refl _
  · intro i w hw
    cases hw
  · intro runner p hp
    cases hp
  · intro p hp
    cases hp

theorem sound_run {opts : SyncOptions} {table : UsersTable} {d : Daemon ε} {t : List Label}
    (hrun : Run (Step opts) (Daemon.started table) t d) : Sound d := by
  apply hrun.invariant (I := fun _ d => Sound d)
  · exact sound_started table
  · intro _ _ _ _ _ hsound hstep
    exact sound_step hsound hstep

/--
No signal is lost.  A write that was answered with success has been committed;
and a pass has read the table since, or a signal is in the channel, or the loop
is in a pass that was triggered since and has yet to read the table.
-/
theorem no_signal_lost {opts : SyncOptions} {table : UsersTable} {d : Daemon ε}
    {t : List Label} (hrun : Run (Step opts) (Daemon.started table) t d) {i : Nat}
    {w : Write ε} {resp : Response ε} (hw : d.writes i = some w)
    (hresp : w.history.response = some resp) (hsuccess : resp.Success) :
    exists k, w.history.committed = some k ∧
      (k ≤ d.shared.listed ∨ d.shared.dirty = true ∨
        exists p, d.passes .loop = some p ∧ p.phase.Pending ∧ k ≤ p.triggered) := by
  have hwrite := (sound_run hrun).writes i w hw
  exact hwrite.marked (hwrite.response resp hresp hsuccess)

end Steps

section Sample

@[reducible] def sampleBodies : JsonStream where
  first _ _ := none

@[reducible] def sampleTimes : TimeJSON where
  unmarshal _ := none

def sampleUser : User where
  username := "sub_a"
  secret := "ee"
  expirationAt := none
  maxTCPConns := none
  enabled := true
  createdAt := 0

def sampleTable : UsersTable := ⟨[sampleUser], by decide⟩

def sampleShared : Shared Classification where
  table := sampleTable

def sampleDeleted : Shared Classification :=
  sampleShared.commit (DeleteUser sampleTable "sub_a").2

def oneWrite (s : Shared Classification) (w : Write Classification) : Daemon Classification where
  shared := s
  writes := Function.update (fun _ => none) 0 (some w)

theorem oneWrite_writes {s : Shared Classification} {w : Write Classification} :
    (oneWrite s w).writes 0 = some w := rfl

theorem oneWrite_step [RFC3339] [Collation] [JsonStream] [TimeJSON] {opts : SyncOptions}
    {s s' : Shared Classification} {c : ServerCall Classification}
    {next : ServerReply Classification c -> Handler Classification}
    {h : WriteHistory Classification} {r : ServerReply Classification c}
    (hans : s.answers c r s') :
    Step opts (oneWrite s ⟨.call c next, h⟩) (.write 0)
      (oneWrite s' ⟨next r, h.next s'.commits c r⟩) := by
  have hstep : Step opts (oneWrite s ⟨.call c next, h⟩) (.write 0) _ :=
    .write oneWrite_writes hans
  unfold oneWrite at hstep ⊢
  rwa [Function.update_idem] at hstep

/-- A user is deleted, and the signal is in the channel. -/
theorem no_signal_lost_sample :
    letI := sampleClock
    letI := sampleCollation
    letI := sampleBodies
    letI := sampleTimes
    exists (d : Daemon Classification) (w : Write Classification) (k : Nat),
      Run (Step { mode := .apply }) (Daemon.started sampleTable)
        [.request 0, .write 0, .write 0, .write 0, .write 0] d ∧
      d.writes 0 = some w ∧ w.history.committed = some k ∧
      (k ≤ d.shared.listed ∨ d.shared.dirty = true ∨
        exists p, d.passes .loop = some p ∧ p.phase.Pending ∧ k ≤ p.triggered) := by
  let := sampleClock
  let := sampleCollation
  let := sampleBodies
  let := sampleTimes
  have hrequest : Step { mode := .apply } (Daemon.started (ε := Classification) sampleTable)
      (.request 0) (oneWrite sampleShared ⟨handleDelete "sub_a", {}⟩) :=
    .request (.delete "sub_a") rfl
  have hmaster : sampleShared.answers .IsInRecovery (.ok false) sampleShared := rfl
  have hdelete : sampleShared.answers (.DeleteUser "sub_a") (.ok true) sampleDeleted :=
    ⟨by decide, rfl⟩
  have hmark : sampleDeleted.answers .markDirty () { sampleDeleted with dirty := true } := rfl
  have hrespond : Shared.answers { sampleDeleted with dirty := true } (.Respond ⟨200, .ok⟩) ()
      { sampleDeleted with dirty := true } := rfl
  have hrun := (((((Run.refl _).snoc hrequest).snoc (oneWrite_step hmaster)).snoc
    (oneWrite_step hdelete)).snoc (oneWrite_step hmark)).snoc (oneWrite_step hrespond)
  rcases no_signal_lost hrun oneWrite_writes rfl ⟨(by decide), (by decide)⟩ with
    ⟨k, hk, hcarried⟩
  exact ⟨_, _, k, hrun, oneWrite_writes, hk, hcarried⟩

end Sample

end Server
end Telemux
