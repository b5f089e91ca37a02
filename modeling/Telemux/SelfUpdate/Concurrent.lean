import Telemux.SelfUpdate.Updaters

/-!
# Updates at the same time

Whatever the processes at one directory do, and wherever they stop, the path only ever
holds what was there, what was kept aside, or a complete binary that was tested.
-/

namespace Telemux
namespace SelfUpdate

open Interaction Net

variable {ε : Type}

/-!
## One call
-/

section Calls

variable {path data tmp : Bytes} {fs fs' : Files} {c : FsCall} {r : FsReply ε c}

theorem stays_missing (hans : fileSystemAnswers fs c r fs') (hnone : fs tmp = none)
    (hcreated : tmp ∉ created c r) (hrename : forall oldpath, c ≠ .Rename oldpath tmp) :
    fs' tmp = none := by
  by_cases htouched : tmp ∈ touched c r
  · cases c with
    | CreateTemp dir pattern =>
        cases r with
        | error err => cases htouched
        | ok name => exact absurd htouched hcreated
    | Write name data =>
        cases List.mem_singleton.mp htouched
        cases r with
        | error err =>
            rcases hans with rfl | ⟨old, mode, written, hold, _⟩
            · exact hnone
            · rw [hnone] at hold
              cases hold
        | ok _ =>
            rcases hans with ⟨old, mode, hold, _⟩
            rw [hnone] at hold
            cases hold
    | Close name => cases htouched
    | Chmod name mode =>
        cases List.mem_singleton.mp htouched
        cases r with
        | error err => exact (congrFun (show fs' = fs from hans) tmp).trans hnone
        | ok _ =>
            rcases hans with ⟨old, mode', hold, _⟩
            rw [hnone] at hold
            cases hold
    | Rename oldpath newpath =>
        have hne : newpath ≠ tmp := fun heq => hrename oldpath (heq ▸ rfl)
        cases r with
        | error err => exact (congrFun (show fs' = fs from hans) tmp).trans hnone
        | ok _ =>
            rcases hans with ⟨node, hold, _, rfl⟩
            rw [Function.update_of_ne hne.symm]
            by_cases hsame : tmp = oldpath
            · rw [hsame, Function.update_self]
            · rw [Function.update_of_ne hsame, hnone]
    | Remove name =>
        cases List.mem_singleton.mp htouched
        cases r with
        | error err => exact (congrFun (show fs' = fs from hans) tmp).trans hnone
        | ok _ => exact absurd hnone hans.left
    | Stat name => cases htouched
  · rw [answers_other hans htouched, hnone]

theorem prepared_step {u : List (FsEvent ε)} {node : Node}
    (h : Prepared path data tmp (u ++ [⟨c, r⟩]) node) (hans : fileSystemAnswers fs c r fs')
    (hpath : tmp ≠ path) (hbak : tmp ≠ bak path)
    (hbefore : forall old, Prepared path data tmp u old -> fs tmp = some old) :
    fs' tmp = some node := by
  generalize hevents : u ++ [(⟨c, r⟩ : FsEvent ε)] = v at h
  cases h with
  | created =>
      have hsplit : u ++ [_] = [] ++ [_] := hevents
      cases (List.append_inj' hsplit rfl).right
      rcases hans with ⟨_, _, rfl⟩
      exact Function.update_self _ _ _
  | written hold =>
      rcases List.append_inj' hevents rfl with ⟨rfl, hlast⟩
      cases hlast
      rcases hans with ⟨old, mode, hwas, rfl⟩
      rw [hbefore _ hold] at hwas
      cases hwas
      exact Function.update_self _ _ _
  | @closed _ _ r' hold =>
      rcases List.append_inj' hevents rfl with ⟨rfl, hlast⟩
      cases hlast
      rw [show fs' = fs by cases r' <;> exact hans]
      exact hbefore _ hold
  | ready hold =>
      rcases List.append_inj' hevents rfl with ⟨rfl, hlast⟩
      cases hlast
      rcases hans with ⟨old, mode, hwas, rfl⟩
      rw [hbefore _ hold] at hwas
      cases hwas
      exact Function.update_self _ _ _
  | aside hold =>
      rcases List.append_inj' hevents rfl with ⟨rfl, hlast⟩
      cases hlast
      rw [answers_other hans (by simp [touched, hpath, hbak])]
      exact hbefore _ hold

end Calls

/-!
## All processes together
-/

abbrev UpdateHappening (ε : Type) := Happening UpdateJob UpdateCall (UpdateReply ε)

section Together

variable [JsonStream] [LowerCase]

/-- Where what is at the path, or at the path of the backup, may come from. -/
inductive Origin (sha256 : Bytes -> Bytes) (path : Bytes) (fs₀ : Files)
    (t : List (UpdateHappening ε)) : Option Node -> Prop where
  | missing : Origin sha256 path fs₀ t none
  | binary : Origin sha256 path fs₀ t (fs₀ path)
  | backup : Origin sha256 path fs₀ t (fs₀ (bak path))
  | installed {i : Nat} {job : UpdateJob} {data : Bytes} : .start i job ∈ t ->
      Promised sha256 job (eventsOf i t) data ->
      Origin sha256 path fs₀ t (some (newBinary data))

/-- A temporary file was removed, or moved to the path. -/
def Discarded (path : Bytes) (t : List (UpdateEvent ε)) (tmp : Bytes) : Prop :=
  ⟨.Fs (.Remove tmp), .ok ()⟩ ∈ t ∨ ⟨.Fs (.Rename tmp path), .ok ()⟩ ∈ t

structure Sound (sha256 : Bytes -> Bytes) (path : Bytes) (fs₀ : Files)
    (t : List (UpdateHappening ε)) (s : Directory) : Prop where
  binary : Origin sha256 path fs₀ t (s.files path)
  backup : Origin sha256 path fs₀ t (s.files (bak path))
  given : forall name, name ∈ s.given -> name ≠ path ∧ name ≠ bak path
  owned : forall i tmp, Owns (eventsOf i t) tmp -> tmp ∈ s.given
  sole : forall i j tmp, Owns (eventsOf i t) tmp -> Owns (eventsOf j t) tmp -> i = j
  prepared : forall i data tmp node, Prepared path data tmp (fsPart (eventsOf i t)) node ->
    s.files tmp = some node
  discarded : forall i tmp, Discarded path (eventsOf i t) tmp ->
    tmp = bak path ∨ Owns (eventsOf i t) tmp ∧ s.files tmp = none

variable {sha256 : Bytes -> Bytes} {path : Bytes} {fs₀ : Files}
  {t : List (UpdateHappening ε)} {s s' : Directory}

theorem Origin.append {node : Option Node} (h : Origin sha256 path fs₀ t node)
    (u : List (UpdateHappening ε)) : Origin sha256 path fs₀ (t ++ u) node := by
  cases h with
  | missing => exact .missing
  | binary => exact .binary
  | backup => exact .backup
  | installed hstart hdata =>
      apply Origin.installed (List.mem_append_left _ hstart)
      rw [eventsOf_append]
      exact hdata.append _

theorem sound_nil (fs₀ : Files) : Sound sha256 path fs₀ ([] : List (UpdateHappening ε)) ⟨fs₀, []⟩ := by
  have hnone : forall i tmp, ¬ Owns (eventsOf i ([] : List (UpdateHappening ε))) tmp := by
    intro i tmp howns
    rcases howns with ⟨dir, pattern, hmem⟩
    cases hmem
  constructor
  · exact .binary
  · exact .backup
  · intro name hname
    cases hname
  · exact fun i tmp howns => absurd howns (hnone i tmp)
  · exact fun i j tmp howns _ => absurd howns (hnone i tmp)
  · exact fun i data tmp node hprepared => absurd (owns_of_prepared hprepared) (hnone i tmp)
  · intro i tmp hdiscarded
    rcases hdiscarded with hmem | hmem <;> cases hmem

theorem Sound.quiet (h : Sound sha256 path fs₀ t s) {l : UpdateHappening ε}
    (hevents : forall i c r, ⟨.Fs c, r⟩ ∉ eventsOf i [l]) (hgiven : s'.given = s.given)
    (hsame : forall name, name ∈ path :: bak path :: s.given -> s'.files name = s.files name) :
    Sound sha256 path fs₀ (t ++ [l]) s' := by
  have hmem : forall i (c : FsCall) (r : FsReply ε c),
      ⟨.Fs c, r⟩ ∈ eventsOf i (t ++ [l]) <-> ⟨.Fs c, r⟩ ∈ eventsOf i t := by
    intro i c r
    rw [eventsOf_append, List.mem_append, or_iff_left (hevents i c r)]
  have hpart : forall i, fsPart (eventsOf i (t ++ [l])) = fsPart (eventsOf i t) := by
    intro i
    have hnone : fsPart (eventsOf i [l]) = [] := by
      apply List.eq_nil_iff_forall_not_mem.mpr
      exact fun e he => hevents i e.call e.reply (mem_fsPart.mp he)
    rw [eventsOf_append, fsPart_append, hnone, List.append_nil]
  have howns : forall i tmp, Owns (eventsOf i (t ++ [l])) tmp <-> Owns (eventsOf i t) tmp := by
    intro i tmp
    simp only [Owns, hmem]
  have htemp : forall name, name ∈ s.given -> s'.files name = s.files name :=
    fun name hname => hsame name (List.mem_cons_of_mem _ (List.mem_cons_of_mem _ hname))
  constructor
  case binary =>
    rw [hsame path List.mem_cons_self]
    exact h.binary.append _
  case backup =>
    rw [hsame (bak path) (List.mem_cons_of_mem _ List.mem_cons_self)]
    exact h.backup.append _
  case given =>
    rw [hgiven]
    exact h.given
  case owned =>
    intro i tmp hown
    rw [hgiven]
    exact h.owned i tmp ((howns i tmp).mp hown)
  case sole =>
    intro i j tmp hi hj
    exact h.sole i j tmp ((howns i tmp).mp hi) ((howns j tmp).mp hj)
  case prepared =>
    intro i data tmp node hprepared
    rw [hpart i] at hprepared
    rw [htemp tmp (h.owned i tmp (owns_of_prepared hprepared))]
    exact h.prepared i data tmp node hprepared
  case discarded =>
    intro i tmp hdiscarded
    unfold Discarded at hdiscarded
    rw [hmem, hmem] at hdiscarded
    rcases h.discarded i tmp hdiscarded with hbak | ⟨hown, hnone⟩
    · exact .inl hbak
    · exact .inr ⟨(howns i tmp).mpr hown, (htemp tmp (h.owned i tmp hown)).trans hnone⟩

section Acting

variable {i : Nat} {job : UpdateJob} {c : FsCall} {r : FsReply ε c} {name : Bytes}

theorem touched_own (howes : UpdateOwes sha256 path job (eventsOf i t) (.Fs c))
    (hrename : forall oldpath newpath, c ≠ .Rename oldpath newpath)
    (hname : name ∈ touched c r) : name ∈ created c r ∨ Owns (eventsOf i t) name := by
  cases c with
  | CreateTemp dir pattern => exact .inl (by cases r <;> exact hname)
  | Write file data =>
      cases List.mem_singleton.mp hname
      exact .inr howes
  | Close file => cases hname
  | Chmod file mode =>
      cases List.mem_singleton.mp hname
      exact .inr howes
  | Rename oldpath newpath => exact absurd rfl (hrename oldpath newpath)
  | Remove file =>
      cases List.mem_singleton.mp hname
      exact .inr howes
  | Stat file => cases hname

theorem touched_named (howes : UpdateOwes sha256 path job (eventsOf i t) (.Fs c))
    (hname : name ∈ touched c r) :
    name = path ∨ name = bak path ∨ name ∈ created c r ∨ Owns (eventsOf i t) name := by
  by_cases hrename : forall oldpath newpath, c ≠ .Rename oldpath newpath
  · exact .inr (.inr (touched_own howes hrename hname))
  · simp only [not_forall, not_not] at hrename
    rcases hrename with ⟨oldpath, newpath, rfl⟩
    have hends : name = oldpath ∨ name = newpath := by simpa [touched] using hname
    rcases howes with ⟨rfl, rfl⟩ | ⟨rfl, rfl⟩ | ⟨rfl, data, _, hready⟩
    · rcases hends with rfl | rfl
      · exact .inl rfl
      · exact .inr (.inl rfl)
    · rcases hends with rfl | rfl
      · exact .inr (.inl rfl)
      · exact .inl rfl
    · rcases hends with rfl | rfl
      · exact .inr (.inr (.inr (owns_of_prepared hready)))
      · exact .inl rfl

theorem created_ne (htemp : ¬ TempName (Dir path) tempPattern path)
    (howes : UpdateOwes sha256 path job (eventsOf i t) (.Fs c)) {fs fs' : Files}
    (hans : fileSystemAnswers fs c r fs') (hname : name ∈ created c r) :
    name ≠ path ∧ name ≠ bak path := by
  cases c with
  | CreateTemp dir pattern =>
      cases r with
      | error err => cases hname
      | ok tmp =>
          cases List.mem_singleton.mp hname
          rcases howes with ⟨rfl, rfl⟩
          refine ⟨?_, temp_ne_bak hans.left⟩
          intro heq
          exact htemp (heq ▸ hans.left)
  | _ => cases hname

theorem touched_other (hsound : Sound sha256 path fs₀ t s)
    (howes : UpdateOwes sha256 path job (eventsOf i t) (.Fs c))
    (hans : s.answers (.Fs c) r s') {k : Nat} {tmp : Bytes} (hk : k ≠ i)
    (howns : Owns (eventsOf k t) tmp) : tmp ∉ touched c r := by
  have hgiven := hsound.owned k tmp howns
  intro hname
  rcases touched_named howes hname with hpath | hbak | hcreated | hown
  · exact (hsound.given tmp hgiven).left hpath
  · exact (hsound.given tmp hgiven).right hbak
  · exact hans.right.left tmp hcreated hgiven
  · exact hk (hsound.sole k i tmp howns hown)

theorem origins_step (hsound : Sound sha256 path fs₀ t s)
    (htemp : ¬ TempName (Dir path) tempPattern path) (hstart : .start i job ∈ t)
    (howes : UpdateOwes sha256 path job (eventsOf i t) (.Fs c))
    (hans : s.answers (.Fs c) r s') (u : List (UpdateHappening ε)) :
    Origin sha256 path fs₀ (t ++ u) (s'.files path) ∧
      Origin sha256 path fs₀ (t ++ u) (s'.files (bak path)) := by
  by_cases hrename : forall oldpath newpath, c ≠ .Rename oldpath newpath
  · have hne : forall name, name ∈ touched c r -> name ≠ path ∧ name ≠ bak path := by
      intro name hname
      rcases touched_own howes hrename hname with hcreated | hown
      · exact created_ne htemp howes hans.left hcreated
      · exact hsound.given name (hsound.owned i name hown)
    rw [answers_other hans.left fun hname => (hne _ hname).left rfl,
      answers_other hans.left fun hname => (hne _ hname).right rfl]
    exact ⟨hsound.binary.append u, hsound.backup.append u⟩
  · simp only [not_forall, not_not] at hrename
    rcases hrename with ⟨oldpath, newpath, rfl⟩
    cases r with
    | error err =>
        rw [show s'.files = s.files from hans.left]
        exact ⟨hsound.binary.append u, hsound.backup.append u⟩
    | ok _ =>
        rcases howes with ⟨rfl, rfl⟩ | ⟨rfl, rfl⟩ | ⟨rfl, data, hdata, hready⟩
        · rcases rename_ok hans.left (bak_ne oldpath) with ⟨hmoved, hgone⟩
          rw [hmoved, hgone]
          exact ⟨.missing, hsound.binary.append u⟩
        · rcases rename_ok hans.left (bak_ne newpath).symm with ⟨hmoved, hgone⟩
          rw [hmoved, hgone]
          exact ⟨hsound.backup.append u, .missing⟩
        · have hown := hsound.given oldpath (hsound.owned i oldpath (owns_of_prepared hready))
          rcases rename_ok hans.left hown.left with ⟨hmoved, _⟩
          rw [hmoved, hsound.prepared i data oldpath _ hready, answers_other hans.left
            (by simpa [touched] using ⟨hown.right.symm, (bak_ne newpath).symm⟩)]
          exact ⟨(Origin.installed hstart hdata).append u, hsound.backup.append u⟩

theorem discarded_own {tmp : Bytes}
    (howes : UpdateOwes sha256 path job (eventsOf i t) (.Fs c)) (hdiscarded : Discarded path [⟨.Fs c, r⟩] tmp) :
    tmp = bak path ∨ Owns (eventsOf i t) tmp := by
  rcases hdiscarded with hmem | hmem
  · cases List.mem_singleton.mp hmem
    exact .inr howes
  · cases List.mem_singleton.mp hmem
    rcases howes with ⟨_, hbak⟩ | ⟨hbak, _⟩ | ⟨_, data, _, hready⟩
    · exact absurd hbak (bak_ne path)
    · exact .inl hbak
    · exact .inr (owns_of_prepared hready)

theorem discarded_step (hsound : Sound sha256 path fs₀ t s)
    (howes : UpdateOwes sha256 path job (eventsOf i t) (.Fs c))
    (hans : s.answers (.Fs c) r s') {tmp : Bytes} (hgiven : tmp ∈ s.given)
    (hgone : s.files tmp = none ∨ Discarded path [⟨.Fs c, r⟩] tmp) : s'.files tmp = none := by
  have hne := hsound.given tmp hgiven
  rcases hgone with hnone | hnow
  · apply stays_missing hans.left hnone
    · intro hcreated
      exact hans.right.left tmp hcreated hgiven
    · intro oldpath heq
      subst heq
      rcases howes with ⟨_, hbak⟩ | ⟨_, hpath⟩ | ⟨hpath, _⟩
      · exact hne.right hbak
      · exact hne.left hpath
      · exact hne.left hpath
  · rcases hnow with hmem | hmem
    · cases List.mem_singleton.mp hmem
      rw [hans.left.right]
      exact Function.update_self _ _ _
    · cases List.mem_singleton.mp hmem
      exact (rename_ok hans.left hne.left).right

theorem Sound.act (hsound : Sound sha256 path fs₀ t s)
    (htemp : ¬ TempName (Dir path) tempPattern path) (hstart : .start i job ∈ t)
    (howes : UpdateOwes sha256 path job (eventsOf i t) (.Fs c))
    (hans : s.answers (.Fs c) r s') :
    Sound sha256 path fs₀ (t ++ [.event i ⟨.Fs c, r⟩]) s' := by
  have hself : eventsOf i (t ++ [.event i ⟨.Fs c, r⟩]) = eventsOf i t ++ [⟨.Fs c, r⟩] := by
    rw [eventsOf_append, eventsOf_event_self]
  have hother : forall k, k ≠ i ->
      eventsOf k (t ++ [.event i ⟨.Fs c, r⟩]) = eventsOf k t := by
    intro k hk
    rw [eventsOf_append, eventsOf_event_other hk.symm, List.append_nil]
  have horigins := origins_step hsound htemp hstart howes hans [.event i ⟨.Fs c, r⟩]
  have howned : forall k tmp, Owns (eventsOf k (t ++ [.event i ⟨.Fs c, r⟩])) tmp ->
      Owns (eventsOf k t) tmp ∨ k = i ∧ tmp ∈ created c r := by
    intro k tmp howns
    by_cases hk : k = i
    · subst hk
      rw [hself] at howns
      rcases owns_snoc.mp howns with hold | hnew
      · exact .inl hold
      · exact .inr ⟨rfl, hnew⟩
    · rw [hother k hk] at howns
      exact .inl howns
  constructor
  case binary => exact horigins.left
  case backup => exact horigins.right
  case given =>
    intro name hname
    rw [hans.right.right] at hname
    rcases List.mem_append.mp hname with hold | hnew
    · exact hsound.given name hold
    · exact created_ne htemp howes hans.left hnew
  case owned =>
    intro k tmp howns
    rw [hans.right.right]
    rcases howned k tmp howns with hold | ⟨_, hnew⟩
    · exact List.mem_append_left _ (hsound.owned k tmp hold)
    · exact List.mem_append_right _ hnew
  case sole =>
    intro j k tmp hj hk
    rcases howned j tmp hj with hj | ⟨rfl, hnew⟩
    · rcases howned k tmp hk with hk | ⟨_, hnew⟩
      · exact hsound.sole j k tmp hj hk
      · exact absurd (hsound.owned j tmp hj) (hans.right.left tmp hnew)
    · rcases howned k tmp hk with hk | ⟨rfl, _⟩
      · exact absurd (hsound.owned k tmp hk) (hans.right.left tmp hnew)
      · rfl
  case prepared =>
    intro k data tmp node hprepared
    by_cases hk : k = i
    · subst hk
      rw [hself, fsPart_append] at hprepared
      have hgiven : tmp ≠ path ∧ tmp ≠ bak path := by
        have hprepared' : Prepared path data tmp
            (fsPart (eventsOf k t ++ [⟨.Fs c, r⟩])) node := by
          rw [fsPart_append]
          exact hprepared
        have howns := owns_of_prepared hprepared'
        rcases owns_snoc.mp howns with hold | hnew
        · exact hsound.given tmp (hsound.owned k tmp hold)
        · exact created_ne htemp howes hans.left hnew
      exact prepared_step hprepared hans.left hgiven.left hgiven.right
        fun old hold => hsound.prepared k data tmp old hold
    · rw [hother k hk] at hprepared
      rw [answers_other hans.left
        (touched_other hsound howes hans hk (owns_of_prepared hprepared))]
      exact hsound.prepared k data tmp node hprepared
  case discarded =>
    intro k tmp hdiscarded
    by_cases hk : k = i
    · subst hk
      rw [hself] at hdiscarded ⊢
      have hsplit : Discarded path (eventsOf k t) tmp ∨ Discarded path [⟨.Fs c, r⟩] tmp := by
        unfold Discarded at hdiscarded ⊢
        simp only [List.mem_append] at hdiscarded
        tauto
      rcases hsplit with hold | hnow
      · rcases hsound.discarded k tmp hold with hbak | ⟨howns, hnone⟩
        · exact .inl hbak
        · exact .inr ⟨owns_snoc.mpr (.inl howns), discarded_step hsound howes hans
            (hsound.owned k tmp howns) (.inl hnone)⟩
      · rcases discarded_own howes hnow with hbak | howns
        · exact .inl hbak
        · exact .inr ⟨owns_snoc.mpr (.inl howns), discarded_step hsound howes hans
            (hsound.owned k tmp howns) (.inr hnow)⟩
    · rw [hother k hk] at hdiscarded ⊢
      rcases hsound.discarded k tmp hdiscarded with hbak | ⟨howns, hnone⟩
      · exact .inl hbak
      · exact .inr ⟨howns, discarded_step hsound howes hans (hsound.owned k tmp howns)
          (.inl hnone)⟩

end Acting

/-!
## Every run
-/

theorem sound_of_runs {w : Interleaved UpdateCall (UpdateReply ε) Unit Directory}
    (htemp : ¬ TempName (Dir path) tempPattern path)
    (h : (updaters ε sha256 path).Runs ⟨fs₀, []⟩ t w) :
    Sound sha256 path fs₀ t w.shared := by
  refine Object.invariant (I := fun t s => Sound sha256 path fs₀ t s) h ?_ ?_ ?_ ?_
  · exact sound_nil fs₀
  · intro u w i job _ ih _
    apply ih.quiet _ rfl fun _ _ => rfl
    intro k c r
    rw [eventsOf_start]
    exact List.not_mem_nil
  · intro u w i c r s' hrun ih hasked hans
    rcases hasked with ⟨job, next, hstart, hsteps⟩
    rcases Object.started_allowed hrun hstart with ⟨s, hstarts⟩
    have howes : UpdateOwes sha256 path job (eventsOf i u) c :=
      Contract.owes_of_onHistory (job_owing (s := s) hstarts) hsteps
    cases c with
    | Fs c => exact ih.act htemp hstart howes hans
    | Get url accept =>
        cases (show s' = w.shared from hans)
        apply ih.quiet _ rfl fun _ _ => rfl
        intro k c r' hmem
        cases List.mem_singleton.mp (mem_eventsOf.mp hmem)
  · intro u w s' _ ih hmoves
    apply ih.quiet _ hmoves.left hmoves.right
    intro k c r
    rw [eventsOf_move]
    exact List.not_mem_nil

/--
However updates and rollbacks interleave and wherever they stop, what is at the path
and at the path of the backup was at one of the two at the start, or is a complete
binary that an update has tested.
-/
theorem updates_verified {w : Interleaved UpdateCall (UpdateReply ε) Unit Directory}
    (htemp : ¬ TempName (Dir path) tempPattern path)
    (h : (updaters ε sha256 path).Runs ⟨fs₀, []⟩ t w) :
    Origin sha256 path fs₀ t (w.shared.files path) ∧
      Origin sha256 path fs₀ t (w.shared.files (bak path)) :=
  ⟨(sound_of_runs htemp h).binary, (sound_of_runs htemp h).backup⟩

/--
A process that has returned has left no temporary file, unless it could not remove
one that it had not moved to the path.
-/
theorem updates_tidy {w : Interleaved UpdateCall (UpdateReply ε) Unit Directory}
    (htemp : ¬ TempName (Dir path) tempPattern path)
    (h : (updaters ε sha256 path).Runs ⟨fs₀, []⟩ t w) {i : Nat}
    (hreturned : w.processes i = some (.done ())) {tmp : Bytes}
    (howns : Owns (eventsOf i t) tmp)
    (hremoved : forall err, ⟨.Fs (.Remove tmp), .error err⟩ ∈ eventsOf i t ->
      ⟨.Fs (.Rename tmp path), .ok ()⟩ ∈ eventsOf i t) : w.shared.files tmp = none := by
  have hsound := sound_of_runs htemp h
  have hfollows := Object.follows h i
  rw [hreturned] at hfollows
  rcases hfollows with ⟨job, hstart, _, hruns⟩
  rcases Object.started_allowed h hstart with ⟨s, hstarts⟩
  have htidy : Tidy (eventsOf i t) := Contract.post_of_runs (job_owing (s := s) hstarts) hruns
    (Contract.answered_onHistory _ [] _)
  have hdiscarded : Discarded path (eventsOf i t) tmp := by
    rcases htidy tmp howns with ⟨r, hmem⟩
    cases r with
    | ok _ => exact .inl hmem
    | error err => exact .inr (hremoved err hmem)
  rcases hsound.discarded i tmp hdiscarded with hbak | ⟨_, hnone⟩
  · exact absurd hbak (hsound.given tmp (hsound.owned i tmp howns)).right
  · exact hnone

end Together

section Sample

theorem answered_directory {fs fs' : Files} {u : List (FsEvent ε)} (given : List Bytes)
    (h : (fileSystem ε).Answered fs u fs')
    (hfresh : (given ++ u.flatMap fun e => created e.call e.reply).Nodup) :
    Contract.Answered ⟨fun _ _ => True, Directory.answers⟩ ⟨fs, given⟩
      (u.map FsEvent.inUpdate)
      ⟨fs', given ++ u.flatMap fun e => created e.call e.reply⟩ := by
  induction h generalizing given with
  | nil fs =>
      rw [List.flatMap_nil, List.append_nil]
      exact .nil _
  | @cons fs fs₁ fs₂ c r u hstep _ ih =>
      rw [List.flatMap_cons, ← List.append_assoc] at hfresh ⊢
      have hfirst : Directory.answers ⟨fs, given⟩ (.Fs c) r ⟨fs₁, given ++ created c r⟩ := by
        refine ⟨hstep, ?_, rfl⟩
        intro name hname hold
        have hsplit := (List.nodup_append.mp hfresh).left
        exact (List.nodup_append.mp hsplit).right.right name hold name hname rfl
      exact .cons hfirst (ih _ hfresh)

def sampleBegun : List (FsEvent String) :=
  preparing samplePath [2] sampleTemp ++ [⟨.Rename samplePath (bak samplePath), .ok ()⟩]

def sampleUndone : List (FsEvent String) :=
  [⟨.Stat (bak samplePath), .ok ()⟩, ⟨.Rename (bak samplePath) samplePath, .ok ()⟩]

def sampleFinished : List (FsEvent String) :=
  [⟨.Rename sampleTemp samplePath, .ok ()⟩, ⟨.Remove sampleTemp, .error "not found"⟩]

def sampleTogether : List (UpdateHappening String) :=
  [.start 0 (.update sampleOptions)] ++
    (sampleEvidence.requests sampleOptions ++ sampleBegun.map FsEvent.inUpdate).map (.event 0) ++
    [.start 1 .rollback] ++ (sampleUndone.map FsEvent.inUpdate).map (.event 1) ++
    (sampleFinished.map FsEvent.inUpdate).map (.event 0)

def sampleReplaced : Files :=
  Function.update (Function.update sampleBack sampleTemp none) samplePath
    (some (newBinary [2]))

theorem sampleFinished_answered :
    (fileSystem String).Answered sampleBack sampleFinished sampleReplaced := by
  have htemp : sampleBack sampleTemp = some (newBinary [2]) := by
    unfold sampleBack sampleAside
    rw [Function.update_of_ne sampleTemp_ne_path, Function.update_of_ne sampleTemp_ne_bak,
      Function.update_of_ne sampleTemp_ne_bak, Function.update_of_ne sampleTemp_ne_path]
    exact Function.update_self _ _ _
  have hpath : sampleBack samplePath = some (binary 1) := Function.update_self _ _ _
  have hmoved : (fileSystem String).answers sampleBack (.Rename sampleTemp samplePath) (.ok ())
      sampleReplaced :=
    ⟨newBinary [2], htemp, Or.inr (by rw [hpath]; simp [binary, newBinary]), rfl⟩
  exact .cons hmoved (.cons rfl (.nil _))

theorem sampleTogether_runs :
    letI := sampleLowerCase
    letI := bodyTexts
    exists w, (updaters String sampleDigest samplePath).Runs ⟨sampleFiles, []⟩ sampleTogether w ∧
      w.shared.files = sampleReplaced ∧ w.processes 0 = some (.done ()) ∧
      w.processes 1 = some (.done ()) := by
  let := sampleLowerCase
  let := bodyTexts
  have hupdate : Program.Steps ((Update sampleDigest sampleOptions).bind fun _ => .done ())
      ((sampleEvidence.requests sampleOptions ++ sampleBegun.map FsEvent.inUpdate) ++
        sampleFinished.map FsEvent.inUpdate) (.done ()) := by
    have hruns := Program.bind_runs (f := fun _ => Program.done ())
      (update_swaps sampleEvidence_valid (by decide) sampleSwap_runs) (.refl _)
    rwa [List.append_nil] at hruns
  rcases Program.steps_split hupdate with ⟨rest, hbegins, hfinishes⟩
  have hrollback : Program.Steps (((Rollback samplePath).interp onFiles).bind fun _ => .done ())
      (sampleUndone.map FsEvent.inUpdate) (.done ()) := .call (.call (.refl _))
  -- no other temporary name is given out
  have hfresh : [sampleTemp].Nodup := List.nodup_cons.mpr ⟨List.not_mem_nil, List.nodup_nil⟩
  have hbegun : Contract.Answered ⟨fun _ _ => True, Directory.answers⟩ ⟨sampleFiles, []⟩
      (sampleEvidence.requests sampleOptions ++ sampleBegun.map FsEvent.inUpdate)
      ⟨sampleAside, [sampleTemp]⟩ := by
    have hfiles : (fileSystem String).Answered sampleFiles sampleBegun sampleAside :=
      Contract.answered_append (preparing_answered sampleTemp_name sampleTemp_free)
        (.cons sample_aside (.nil _))
    exact .cons rfl (.cons rfl (.cons rfl (answered_directory [] hfiles hfresh)))
  have hundone : Contract.Answered ⟨fun _ _ => True, Directory.answers⟩
      ⟨sampleAside, [sampleTemp]⟩ (sampleUndone.map FsEvent.inUpdate)
      ⟨sampleBack, [sampleTemp]⟩ := by
    have hthere : sampleAside (bak samplePath) ≠ none := by
      unfold sampleAside
      rw [Function.update_self]
      exact nofun
    exact answered_directory [sampleTemp]
      (.cons ⟨hthere, rfl⟩ (.cons sample_back (.nil _))) hfresh
  have hfinished : Contract.Answered ⟨fun _ _ => True, Directory.answers⟩
      ⟨sampleBack, [sampleTemp]⟩ (sampleFinished.map FsEvent.inUpdate)
      ⟨sampleReplaced, [sampleTemp]⟩ :=
    answered_directory [sampleTemp] sampleFinished_answered hfresh
  have hstarted := Object.runs_start
    (Object.runs_nil (updaters String sampleDigest samplePath) ⟨sampleFiles, []⟩) 0
    (.update sampleOptions) rfl rfl (by
      intro opts hopts
      cases hopts
      rfl)
  have hwaits := Object.runs_alone hstarted 0 rfl hbegins hbegun
  have hsecond := Object.runs_start hwaits 1 .rollback rfl rfl nofun
  have hback := Object.runs_alone hsecond 1 rfl hrollback hundone
  have hends := Object.runs_alone hback 0 rfl hfinishes hfinished
  exact ⟨_, hends, rfl, rfl, rfl⟩

theorem sampleTemp_other : ¬ TempName (Dir samplePath) tempPattern samplePath := by
  intro h
  rcases h with ⟨random, hrandom, hdigits, heq⟩
  rw [tempPattern, pattern_suffix, List.append_nil] at heq
  have hlast := congrArg List.getLast? heq
  rw [List.getLast?_append_of_ne_nil _ hrandom] at hlast
  have hx : samplePath.getLast? = some 0x78 := rfl
  rw [hx] at hlast
  cases hdigits _ (List.mem_of_getLast? hlast.symm)

theorem updates_verified_sample :
    letI := sampleLowerCase
    letI := bodyTexts
    Origin sampleDigest samplePath sampleFiles sampleTogether (sampleReplaced samplePath) ∧
      Origin sampleDigest samplePath sampleFiles sampleTogether
        (sampleReplaced (bak samplePath)) := by
  let := sampleLowerCase
  let := bodyTexts
  rcases sampleTogether_runs with ⟨w, hruns, hfiles, _⟩
  have h := updates_verified sampleTemp_other hruns
  rwa [hfiles] at h

theorem updates_tidy_sample : sampleReplaced sampleTemp = none := by
  let := sampleLowerCase
  let := bodyTexts
  rcases sampleTogether_runs with ⟨w, hruns, hfiles, hreturned, _⟩
  have howns : Owns (eventsOf 0 sampleTogether) sampleTemp :=
    ⟨Dir samplePath, tempPattern, mem_eventsOf.mpr (by simp [sampleTogether, sampleBegun,
      preparing, FsEvent.inUpdate, tempPattern])⟩
  have hmoved : ⟨.Fs (.Rename sampleTemp samplePath), .ok ()⟩ ∈ eventsOf 0 sampleTogether :=
    mem_eventsOf.mpr (by simp [sampleTogether, sampleFinished, FsEvent.inUpdate])
  have h := updates_tidy sampleTemp_other hruns hreturned howns fun _ _ => hmoved
  rwa [hfiles] at h

end Sample

end SelfUpdate
end Telemux
