import Telemux.Server.Mutex

/-!
# The daemon goes on

No pass waits for a pass that waits for it: whoever has `runMu` can go on until it
lets go, whatever the others do.  So unless the sync loop has returned, it can go on
until it has read everything that was written.
-/

namespace Telemux
namespace Server

open Interaction Net Store Sync TelemtSync

variable {ε : Type}

/-!
## Nobody else is needed
-/

def Label.Own : Label -> Prop
  | .pass _ => True
  | .loop => True
  | _ => False

section Replies

variable [RFC3339] [Collation]

theorem reply_exists (s : Shared ε) {ph : Phase} {c : ServerCall ε} (howes : passOwes ph c)
    (hfree : c = .Lock -> s.runMu = false) :
    exists r s', s.answers c r s' ∧ s'.commits = s.commits := by
  cases c with
  | Lock => exact ⟨(), _, ⟨hfree rfl, rfl⟩, rfl⟩
  | Unlock => exact ⟨(), _, rfl, rfl⟩
  | Now => exact ⟨0, _, rfl, rfl⟩
  | setLastSync st => exact ⟨(), _, rfl, rfl⟩
  | Respond resp => exact ⟨(), _, rfl, rfl⟩
  | Sync c =>
      cases c with
      | ListDesired =>
          refine ⟨.ok (ListDesired s.table), _, ⟨?_, rfl⟩, rfl⟩
          intro des hdes
          cases hdes
          rfl
      | ListUsers => exact ⟨.ok ([], ""), _, rfl, rfl⟩
      | ApplyOp op ifMatch => exact ⟨.ok "", _, rfl, rfl⟩
  | IsInRecovery => exact howes.elim
  | CreateUser username secret exp maxConns => exact howes.elim
  | DeleteUser username => exact howes.elim
  | SetExpiration username exp => exact howes.elim
  | SetEnabled username enabled => exact howes.elim
  | markDirty => exact howes.elim

end Replies

section Steps

variable [ClassifiedError ε] [RFC3339] [Collation] [JsonStream] [TimeJSON]

def GoesOn (opts : SyncOptions) (d d' : Daemon ε) : Prop :=
  (exists u, Run (Step opts) d u d' ∧ forall l, l ∈ u -> l.Own) ∧
    d'.shared.commits = d.shared.commits

theorem goesOn_refl (opts : SyncOptions) (d : Daemon ε) : GoesOn opts d d :=
  ⟨⟨[], .refl d, nofun⟩, rfl⟩

theorem goesOn_step {opts : SyncOptions} {d d' : Daemon ε} {l : Label}
    (hstep : Step opts d l d') (hown : l.Own)
    (hcommits : d'.shared.commits = d.shared.commits) : GoesOn opts d d' := by
  refine ⟨⟨[l], Run.one hstep, ?_⟩, hcommits⟩
  intro l' hl'
  exact List.mem_singleton.mp hl' ▸ hown

theorem goesOn_trans {opts : SyncOptions} {d d' d'' : Daemon ε} (h : GoesOn opts d d')
    (h' : GoesOn opts d' d'') : GoesOn opts d d'' := by
  rcases h with ⟨⟨u, hu, hown⟩, hcommits⟩
  rcases h' with ⟨⟨u', hu', hown'⟩, hcommits'⟩
  refine ⟨⟨u ++ u', hu.append hu', ?_⟩, hcommits'.trans hcommits⟩
  intro l hl
  rcases List.mem_append.mp hl with hl | hl
  · exact hown l hl
  · exact hown' l hl

/-!
## Passes
-/

theorem pass_goes_on (opts : SyncOptions) {d : Daemon ε} {runner : Runner} {c : ServerCall ε}
    {next : ServerReply ε c -> Handler ε} {ph : Phase} {n : Nat}
    (hp : d.passes runner = some ⟨.call c next, ph, n⟩) (howes : passOwes ph c)
    (hfree : c = .Lock -> d.shared.runMu = false) :
    exists r d', GoesOn opts d d' ∧ d.shared.answers c r d'.shared ∧
      d'.passes runner = some ⟨next r, ph.next c, n⟩ ∧ d'.loop = d.loop := by
  rcases reply_exists d.shared howes hfree with ⟨r, s, hans, hcommits⟩
  exact ⟨r, _, goesOn_step (.pass hp hans) trivial hcommits, hans, Function.update_self _ _ _,
    rfl⟩

theorem holder_unlocks (opts : SyncOptions) {p : Handler ε} {d : Daemon ε} {runner : Runner}
    {ph : Phase} {n : Nat} (hp : d.passes runner = some ⟨p, ph, n⟩) (hkeeps : Keeps p ph)
    (hholds : ph.Holds) :
    exists d', GoesOn opts d d' ∧ d'.shared.runMu = false ∧ d'.loop = d.loop := by
  induction p generalizing d ph with
  | done a =>
      have hreleased : ph = .released := hkeeps
      exact absurd (hreleased ▸ hholds) not_holds_released
  | call c next ih =>
      have hlock : c ≠ .Lock := by
        intro hlock
        subst hlock
        have hwaiting : ph = .waiting := hkeeps.left
        exact not_holds_waiting (hwaiting ▸ hholds)
      rcases pass_goes_on opts hp hkeeps.left (fun h => absurd h hlock) with
        ⟨r, d', hgoes, hans, hp', hloop⟩
      by_cases hunlock : c = .Unlock
      · subst hunlock
        exact ⟨d', hgoes, answers_runMu hans, hloop⟩
      · rcases ih r hp' (hkeeps.right r _ rfl) (holds_after hunlock hholds) with
          ⟨d'', hgoes', hfree, hloop'⟩
        exact ⟨d'', goesOn_trans hgoes hgoes', hfree, hloop'.trans hloop⟩

theorem released_ends (opts : SyncOptions) {p : Handler ε} {d : Daemon ε} {n : Nat}
    (hp : d.passes .loop = some ⟨p, .released, n⟩) (hkeeps : Keeps p .released) :
    exists d', GoesOn opts d d' ∧ d'.passes .loop = some ⟨.done (), .released, n⟩ ∧
      d'.shared.runMu = d.shared.runMu := by
  induction p generalizing d with
  | done a => exact ⟨d, goesOn_refl opts d, hp, rfl⟩
  | call c next ih =>
      have hrespond : exists resp, c = .Respond resp := by
        have howes := hkeeps.left
        cases c with
        | Respond resp => exact ⟨resp, rfl⟩
        | Sync c => cases c <;> cases howes
        | _ => cases howes
      rcases hrespond with ⟨resp, rfl⟩
      rcases pass_goes_on opts hp hkeeps.left nofun with ⟨r, d', hgoes, hans, hp', _⟩
      rcases ih r hp' (hkeeps.right r _ rfl) with ⟨d'', hgoes', hdone, hrunMu⟩
      exact ⟨d'', goesOn_trans hgoes hgoes', hdone, hrunMu.trans (answers_runMu hans)⟩

theorem waiting_reads (opts : SyncOptions) {p : Handler ε} {d : Daemon ε} {n : Nat}
    (hp : d.passes .loop = some ⟨p, .waiting, n⟩) (hkeeps : Keeps p .waiting)
    (hfree : d.shared.runMu = false) :
    exists d', GoesOn opts d d' ∧ d'.shared.listed = d.shared.commits := by
  cases p with
  | done a => cases (show Phase.waiting = .released from hkeeps)
  | call c next =>
      rcases pending_calls hkeeps.left (Or.inl rfl) with rfl | rfl
      · rcases pass_goes_on opts hp rfl (fun _ => hfree) with ⟨r, d', hlock, _, hp', _⟩
        have hlocked : Keeps (next r) .locked := hkeeps.right r _ rfl
        cases hnext : next r with
        | done a =>
            rw [hnext] at hlocked
            cases (show Phase.locked = .released from hlocked)
        | call c' next' =>
            rw [hnext] at hlocked hp'
            rcases pending_calls hlocked.left (Or.inr rfl) with rfl | rfl
            · cases (show Phase.locked = .waiting from hlocked.left)
            · rcases pass_goes_on opts hp' rfl nofun with ⟨r', d'', hlist, hans, _, _⟩
              have hlisted : d''.shared.listed = d'.shared.commits := by rw [hans.right]
              exact ⟨d'', goesOn_trans hlock hlist, hlisted.trans hlock.right⟩
      · cases (show Phase.waiting = .locked from hkeeps.left)

/-!
## Who is there to go on
-/

structure Alive (d : Daemon ε) : Prop where
  held : d.shared.runMu = true -> exists runner, d.Holder runner
  running : d.loop = .running -> exists p, d.passes .loop = some p

omit [ClassifiedError ε] [RFC3339] [Collation] [JsonStream] [TimeJSON] in
theorem pass_kept {d d' : Daemon ε} {runner runner' : Runner} {x : Option (Pass ε)} {p : Pass ε}
    (hpasses : d'.passes = Function.update d.passes runner x) (hother : runner' ≠ runner)
    (hp : d.passes runner' = some p) : d'.passes runner' = some p := by
  rw [hpasses, Function.update_of_ne hother]
  exact hp

omit [ClassifiedError ε] [RFC3339] [Collation] [JsonStream] [TimeJSON] in
theorem holder_kept {d d' : Daemon ε} {runner runner' : Runner} {x : Option (Pass ε)}
    (hpasses : d'.passes = Function.update d.passes runner x) (hother : runner' ≠ runner)
    (h : d.Holder runner') : d'.Holder runner' := by
  rcases h with ⟨p, hp, hholds⟩
  exact ⟨p, pass_kept hpasses hother hp, hholds⟩

omit [ClassifiedError ε] [RFC3339] [Collation] [JsonStream] [TimeJSON] in
theorem alive_started {d d' : Daemon ε} {p : Pass ε} (hsound : Sound d) (h : Alive d)
    (hloop : d.loop ≠ .running) (hrunMu : d'.shared.runMu = d.shared.runMu)
    (hpasses : d'.passes = Function.update d.passes .loop (some p)) : Alive d' := by
  constructor
  · intro hlocked
    rcases h.held (hrunMu ▸ hlocked) with ⟨runner, hholder⟩
    have hother : runner ≠ .loop := by
      intro hsame
      rcases hholder with ⟨q, hq, _⟩
      exact hloop (hsound.loop q (hsame ▸ hq))
    exact ⟨runner, holder_kept hpasses hother hholder⟩
  · intro _
    exact ⟨p, hpasses ▸ Function.update_self _ _ _⟩

theorem alive_step {opts : SyncOptions} {d d' : Daemon ε} {l : Label} (hsound : Sound d)
    (h : Alive d) (hstep : Step opts d l d') : Alive d' := by
  cases hstep with
  | outside table => exact ⟨h.held, h.running⟩
  | cancel => exact ⟨h.held, h.running⟩
  | request req _ => exact ⟨h.held, h.running⟩
  | write hw hans =>
      refine ⟨?_, h.running⟩
      intro hlocked
      exact h.held (write_runMu hsound hw hans ▸ hlocked)
  | @sync j hfree =>
      constructor
      · intro hlocked
        rcases h.held hlocked with ⟨runner, hholder⟩
        have hother : runner ≠ .request j := by
          intro hsame
          rcases hholder with ⟨p, hp, _⟩
          rw [hsame, hfree] at hp
          cases hp
        exact ⟨runner, holder_kept rfl hother hholder⟩
      · intro hrunning
        rcases h.running hrunning with ⟨p, hp⟩
        exact ⟨p, pass_kept rfl (nofun : Runner.loop ≠ .request j) hp⟩
  | @pass runner c next ph n r s hp hans =>
      have howes : passOwes ph c := (hsound.passes runner _ hp).left
      have hnow : Function.update d.passes runner (some ⟨next r, ph.next c, n⟩) runner =
          some ⟨next r, ph.next c, n⟩ := Function.update_self _ _ _
      constructor
      · intro hlocked
        have hlocked' : s.runMu = true := hlocked
        have hrunMu := answers_runMu hans
        by_cases hlock : c = .Lock
        · subst hlock
          exact ⟨runner, _, hnow, Or.inl rfl⟩
        · by_cases hunlock : c = .Unlock
          · subst hunlock
            rw [hrunMu] at hlocked'
            cases hlocked'
          · rw [hrunMu, mutexAfter_other hlock hunlock] at hlocked'
            rcases h.held hlocked' with ⟨runner', hholder⟩
            by_cases hsame : runner' = runner
            · subst hsame
              rcases hholder with ⟨p, hp', hholds⟩
              rw [hp] at hp'
              cases hp'
              exact ⟨runner', _, hnow, holds_after hunlock hholds⟩
            · exact ⟨runner', holder_kept rfl hsame hholder⟩
      · intro hrunning
        rcases h.running hrunning with ⟨p, hp'⟩
        by_cases hsame : runner = .loop
        · subst hsame
          exact ⟨_, hnow⟩
        · exact ⟨p, pass_kept rfl (Ne.symm hsame) hp'⟩
  | beaten hloop => exact alive_started hsound h (by rw [hloop]; exact nofun) rfl rfl
  | ended hp =>
      refine ⟨?_, nofun⟩
      intro hlocked
      rcases h.held hlocked with ⟨runner, hholder⟩
      have hother : runner ≠ .loop := by
        intro hsame
        rcases hholder with ⟨p, hp', hholds⟩
        rw [hsame, hp] at hp'
        cases hp'
        have hreleased := hsound.passes _ _ hp
        exact not_holds_released (hreleased ▸ hholds)
      exact ⟨runner, holder_kept rfl hother hholder⟩
  | returned _ _ => exact ⟨h.held, nofun⟩
  | tick _ => exact ⟨h.held, nofun⟩
  | signal hloop _ => exact alive_started hsound h (by rw [hloop]; exact nofun) rfl rfl

/-!
## Runs
-/

theorem alive_run {opts : SyncOptions} {table : UsersTable} {d : Daemon ε} {t : List Label}
    (hrun : Run (Step opts) (Daemon.started table) t d) :
    Sound d ∧ Exclusive d ∧ Alive d := by
  apply hrun.invariant (I := fun _ d => Sound d ∧ Exclusive d ∧ Alive d)
  · exact ⟨sound_started table, exclusive_started table, nofun, nofun⟩
  · intro _ _ _ _ _ hold hstep
    exact ⟨sound_step hold.left hstep, exclusive_step hold.left hold.right.left hstep,
      alive_step hold.left hold.right.right hstep⟩

theorem goesOn_run {opts : SyncOptions} {table : UsersTable} {d d' : Daemon ε} {t : List Label}
    (hrun : Run (Step opts) (Daemon.started table) t d) (h : GoesOn opts d d') :
    exists t', Run (Step opts) (Daemon.started table) t' d' := by
  rcases h with ⟨⟨u, hu, _⟩, _⟩
  exact ⟨t ++ u, hrun.append hu⟩

theorem heartbeat_reads (opts : SyncOptions) {d : Daemon ε} (hloop : d.loop = .heartbeat)
    (hfree : d.shared.runMu = false) :
    exists d', GoesOn opts d d' ∧ d'.shared.listed = d.shared.commits := by
  have hbeaten : exists d', GoesOn opts d d' ∧ d'.shared = d.shared ∧
      d'.passes .loop = some { rest := loopPass opts, triggered := d.shared.commits } :=
    ⟨_, goesOn_step (.beaten hloop) trivial rfl, rfl, Function.update_self .loop _ d.passes⟩
  rcases hbeaten with ⟨d', hgoes, hshared, hp⟩
  rcases waiting_reads opts hp (loopPass_keeps opts) (by rw [hshared]; exact hfree) with
    ⟨d'', hreads, hlisted⟩
  exact ⟨d'', goesOn_trans hgoes hreads, hlisted.trans hgoes.right⟩

theorem selecting_reads (opts : SyncOptions) {d : Daemon ε} (hloop : d.loop = .selecting)
    (hfree : d.shared.runMu = false) :
    exists d', GoesOn opts d d' ∧ d'.shared.listed = d.shared.commits := by
  have htick : exists d', GoesOn opts d d' ∧ d'.loop = .heartbeat ∧ d'.shared.runMu = false :=
    ⟨_, goesOn_step (.tick hloop) trivial rfl, rfl, hfree⟩
  rcases htick with ⟨d', hgoes, hbeats, hfree'⟩
  rcases heartbeat_reads opts hbeats hfree' with ⟨d'', hreads, hlisted⟩
  exact ⟨d'', goesOn_trans hgoes hreads, hlisted.trans hgoes.right⟩

theorem running_reads {opts : SyncOptions} {d : Daemon ε} (hsound : Sound d)
    (hexclusive : Exclusive d) {p : Pass ε} (hp : d.passes .loop = some p)
    (hfree : d.shared.runMu = false) :
    exists d', GoesOn opts d d' ∧ d'.shared.listed = d.shared.commits := by
  rcases p with ⟨rest, ph, n⟩
  have hkeeps : Keeps rest ph := hsound.passes _ _ hp
  have hout : ¬ ph.Holds := by
    intro hholds
    have hlocked := hexclusive.locked .loop ⟨_, hp, hholds⟩
    rw [hfree] at hlocked
    cases hlocked
  cases ph with
  | waiting => exact waiting_reads opts hp hkeeps hfree
  | locked => exact absurd (Or.inl rfl) hout
  | listed => exact absurd (Or.inr rfl) hout
  | released =>
      rcases released_ends opts hp hkeeps with ⟨d', hends, hdone, hrunMu⟩
      have hended : exists e, GoesOn opts d' e ∧ e.loop = .selecting ∧ e.shared.runMu = false :=
        ⟨_, goesOn_step (.ended hdone) trivial rfl, rfl, hrunMu.trans hfree⟩
      rcases hended with ⟨e, hgoes, hselects, hfree'⟩
      rcases selecting_reads opts hselects hfree' with ⟨e', hreads, hlisted⟩
      have hwhole := goesOn_trans (goesOn_trans hends hgoes) hreads
      exact ⟨e', hwhole, hlisted.trans (hgoes.right.trans hends.right)⟩

/--
However far a run has got: unless the loop has returned, it and the passes can go on
by themselves until every commit has been read.
-/
theorem commits_can_be_read {opts : SyncOptions} {table : UsersTable} {d : Daemon ε}
    {t : List Label} (hrun : Run (Step opts) (Daemon.started table) t d)
    (hloop : d.loop ≠ .returned) :
    exists u d', Run (Step opts) d u d' ∧ (forall l, l ∈ u -> l.Own) ∧
      d'.shared.commits = d.shared.commits ∧ d'.shared.listed = d.shared.commits := by
  have hunlocks : exists d', GoesOn opts d d' ∧ d'.shared.runMu = false ∧ d'.loop = d.loop := by
    rcases alive_run hrun with ⟨hsound, _, halive⟩
    cases hrunMu : d.shared.runMu with
    | false => exact ⟨d, goesOn_refl opts d, hrunMu, rfl⟩
    | true =>
        rcases halive.held hrunMu with ⟨runner, p, hp, hholds⟩
        exact holder_unlocks opts hp (hsound.passes _ _ hp) hholds
  rcases hunlocks with ⟨d', hgoes, hfree, hsame⟩
  rcases goesOn_run hrun hgoes with ⟨t', hrun'⟩
  rcases alive_run hrun' with ⟨hsound, hexclusive, halive⟩
  have hreads : exists d'', GoesOn opts d' d'' ∧ d''.shared.listed = d'.shared.commits := by
    cases hstate : d'.loop with
    | returned => exact absurd (hsame.symm.trans hstate) hloop
    | heartbeat => exact heartbeat_reads opts hstate hfree
    | selecting => exact selecting_reads opts hstate hfree
    | running =>
        rcases halive.running hstate with ⟨p, hp⟩
        exact running_reads hsound hexclusive hp hfree
  rcases hreads with ⟨d'', hgoes', hlisted⟩
  rcases goesOn_trans hgoes hgoes' with ⟨⟨u, hu, hown⟩, hcommits⟩
  exact ⟨u, d'', hu, hown, hcommits, hlisted.trans hgoes.right⟩

end Steps

/-- A user has been deleted, and the loop has yet to read that. -/
theorem commits_can_be_read_sample :
    letI := sampleClock
    letI := sampleCollation
    letI := sampleBodies
    letI := sampleTimes
    exists d : Daemon Classification,
      Run (Step { mode := .apply }) (Daemon.started sampleTable) [.request 0, .write 0, .write 0]
        d ∧
      d.shared.listed < d.shared.commits ∧
      exists u d', Run (Step { mode := .apply }) d u d' ∧ (forall l, l ∈ u -> l.Own) ∧
        d'.shared.commits = d.shared.commits ∧ d'.shared.listed = d.shared.commits := by
  let := sampleClock
  let := sampleCollation
  let := sampleBodies
  let := sampleTimes
  have hrequest : Step { mode := .apply } (Daemon.started (ε := Classification) sampleTable)
      (.request 0) (oneWrite sampleShared ⟨handleDelete "sub_a", {}⟩) :=
    .request (.delete "sub_a") rfl
  have hmaster : sampleShared.answers .IsInRecovery (.ok false) sampleShared := rfl
  have hdelete : sampleShared.answers (.DeleteUser "sub_a") (.ok true) sampleDeleted :=
    ⟨by decide, rfl⟩
  have hrun := (((Run.refl _).snoc hrequest).snoc (oneWrite_step hmaster)).snoc
    (oneWrite_step hdelete)
  exact ⟨_, hrun, Nat.zero_lt_one, commits_can_be_read hrun nofun⟩

end Server
end Telemux
