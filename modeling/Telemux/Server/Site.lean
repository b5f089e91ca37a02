import Telemux.Server.Mutex
import Telemux.Sync.Secrets
import Telemux.Sync.Sole
import Telemux.Sync.Trace

/-!
# The daemon and its node

The daemon runs beside one node, which only its passes write to.  While a pass works,
requests go on changing the table under it; all the same the table, the node and the
status come out as if every pass were one step, made when it read the desired users.
-/

namespace Telemux
namespace Server

open Interaction Net Store Sync TelemtSync

variable {ε γ : Type}

/-!
## One thing at a time
-/

/-- What happens when nothing else does. -/
inductive Atom (ε : Type) where
  /-- Somebody else writes to the database. -/
  | outside
  /-- A write of a handler, or a whole pass. -/
  | action (a : PanelAction ε)

inductive TableWrite : UsersTable -> Atom ε -> UsersTable -> Prop where
  | outside (table table' : UsersTable) : TableWrite table .outside table'
  | action {table table' : UsersTable} {a : PanelAction ε} : TableStep table a table' ->
      TableWrite table (.action a) table'

def Atom.returned : Atom ε -> Option (Result ε × Option (SyncError ε))
  | .action (.pass res err) => some (res, err)
  | _ => none

def TellsLast (opts : SyncOptions) (history : List (Atom ε)) (st : SyncStatus ε) : Prop :=
  match (history.filterMap Atom.returned).getLast? with
  | none => st = {}
  | some (res, err) => exists now, st = syncStatus now opts res err

theorem returned_of_write {table table' : UsersTable} {a : Atom ε}
    (h : TableWrite table a table') : a.returned = none := by
  cases h with
  | outside => rfl
  | action hstep =>
      cases hstep with
      | createUser => rfl
      | deleteUser => rfl
      | setExpiration => rfl
      | setEnabled => rfl

theorem returned_of_writes {table table' : UsersTable} {t : List (Atom ε)}
    (h : Run TableWrite table t table') : t.filterMap Atom.returned = [] := by
  induction h with
  | refl => rfl
  | snoc _ hlast ih =>
      rw [List.filterMap_append, ih, List.filterMap_cons_none (returned_of_write hlast)]
      rfl

theorem tellsLast_writes {opts : SyncOptions} {table table' : UsersTable}
    {history t : List (Atom ε)} {st : SyncStatus ε} (h : TellsLast opts history st)
    (hwrites : Run TableWrite table t table') : TellsLast opts (history ++ t) st := by
  unfold TellsLast
  rw [List.filterMap_append, returned_of_writes hwrites, List.append_nil]
  exact h

theorem tellsLast_pass {opts : SyncOptions} {history : List (Atom ε)} {res : Result ε}
    {err : Option (SyncError ε)} {st : SyncStatus ε} :
    TellsLast opts (history ++ [.action (.pass res err)]) st <->
      exists now, st = syncStatus now opts res err := by
  unfold TellsLast
  have hlast : ([.action (.pass res err)] : List (Atom ε)).filterMap Atom.returned =
      [(res, err)] := rfl
  rw [List.filterMap_append, hlast, List.getLast?_concat]

/-!
## What a statement has done

Every statement that is carried out is a write; where it has found no row, it has
changed nothing.
-/

def ServerCall.writes (t : UsersTable) : ServerCall ε -> Option (PanelAction ε)
  | .CreateUser username _ _ _ => some (.createUser username)
  | .DeleteUser username =>
      if (Store.DeleteUser t username).1 then some (.deleteUser username) else none
  | .SetExpiration username exp =>
      if (Store.SetExpiration t username exp).1 then some (.setExpiration username exp) else none
  | .SetEnabled username enabled =>
      if (Store.SetEnabled t username enabled).1 then some (.setEnabled username enabled) else none
  | _ => none

def Rewritten (table : UsersTable) (write : Option (PanelAction ε)) (table' : UsersTable) :
    Prop :=
  match write with
  | none => table' = table
  | some a => TableStep table a table'

theorem no_row {t : UsersTable} {username : String}
    (h : decide (t.rowsAffected username = 1) ≠ true) :
    forall u, u ∈ t.rows -> u.username ≠ username := by
  intro u hu heq
  apply h
  have hle := rowsAffected_le_one t username
  have hpos : 0 < t.rowsAffected username := by
    apply List.length_pos_of_mem (a := u)
    exact List.mem_filter.mpr ⟨hu, decide_eq_true heq⟩
  rw [decide_eq_true_iff]
  exact Nat.le_antisymm hle hpos

theorem table_ext {t t' : UsersTable} (h : t.rows = t'.rows) : t = t' := by
  cases t
  cases t'
  cases h
  rfl

theorem update_none {t : UsersTable} {username : String} (f : User -> User)
    (hf : forall u, (f u).username = u.username)
    (h : forall u, u ∈ t.rows -> u.username ≠ username) : t.update username f hf = t := by
  apply table_ext
  have hsame : forall u, u ∈ t.rows -> (if u.username = username then f u else u) = id u :=
    fun u hu => if_neg (h u hu)
  exact (List.map_congr_left hsame).trans (List.map_id _)

theorem rewritten_found {t t' : UsersTable} {found : Bool} {a : PanelAction ε}
    (hfound : found = true -> TableStep t a t') (hnone : ¬ found = true -> t' = t) :
    Rewritten t (if found then some a else none) t' := by
  by_cases h : found = true
  · rw [if_pos h]
    exact hfound h
  · rw [if_neg h]
    exact hnone h

theorem deleteUser_rewritten (t : UsersTable) (username : String) :
    Rewritten t ((ServerCall.DeleteUser username : ServerCall ε).writes t)
      (DeleteUser t username).2 := by
  apply rewritten_found
  · intro hfound
    exact .deleteUser (Prod.ext hfound rfl)
  · intro hnone
    apply table_ext
    apply List.filter_eq_self.mpr
    intro u hu
    exact decide_eq_true (no_row hnone u hu)

theorem setExpiration_rewritten (t : UsersTable) (username : String) (exp : Option Int) :
    Rewritten t ((ServerCall.SetExpiration username exp : ServerCall ε).writes t)
      (SetExpiration t username exp).2 := by
  apply rewritten_found
  · intro hfound
    exact .setExpiration (Prod.ext hfound rfl)
  · intro hnone
    exact update_none (fun u => { u with expirationAt := exp }) (fun _ => rfl) (no_row hnone)

theorem setEnabled_rewritten (t : UsersTable) (username : String) (enabled : Bool) :
    Rewritten t ((ServerCall.SetEnabled username enabled : ServerCall ε).writes t)
      (SetEnabled t username enabled).2 := by
  apply rewritten_found
  · intro hfound
    exact .setEnabled (Prod.ext hfound rfl)
  · intro hnone
    exact update_none (fun u => { u with enabled := enabled }) (fun _ => rfl) (no_row hnone)

structure Statement (c : ServerCall ε) (s s' : Shared ε) : Prop where
  lastSync : s'.lastSync = s.lastSync
  listed : s'.listed = s.listed
  table : s'.table = s.table ∧ s'.commits = s.commits ∨
    Rewritten s.table (c.writes s.table) s'.table ∧ s'.commits = s.commits + 1

variable {c : ServerCall ε} {s s' : Shared ε} {table : UsersTable}

theorem statement_same (h : s' = s) : Statement c s s' :=
  h ▸ ⟨rfl, rfl, Or.inl ⟨rfl, rfl⟩⟩

theorem statement_commit (h : Rewritten s.table (c.writes s.table) table) :
    Statement c s (s.commit table) :=
  ⟨rfl, rfl, Or.inr ⟨h, rfl⟩⟩

theorem statement_affected {result : Bool × UsersTable} {changed : Bool}
    (hrewritten : Rewritten s.table (c.writes s.table) result.2)
    (h : s.affected s' result changed) : Statement c s s' := by
  rcases h with ⟨_, rfl⟩
  cases changed with
  | false => exact statement_same rfl
  | true => exact statement_commit hrewritten

theorem statement_broken (hrewritten : Rewritten s.table (c.writes s.table) table)
    (h : s.broken s' table) : Statement c s s' := by
  rcases h with rfl | rfl
  · exact statement_same rfl
  · exact statement_commit hrewritten

theorem createUser_rewritten {t t' : UsersTable} {now : Int} {generated : Option String}
    {username secret : String} {exp maxConns : Option Int} {u : User}
    (h : CreateUser t now generated username secret exp maxConns = .ok (u, t')) :
    Rewritten (ε := ε) t (some (.createUser username)) t' :=
  .createUser now generated username secret exp maxConns h

theorem statement_of_write [RFC3339] [Collation] {h : WriteHistory ε} {r : ServerReply ε c}
    (howes : writeOwes h c) (hans : s.answers c r s') : Statement c s s' := by
  cases c with
  | IsInRecovery => exact statement_same hans
  | CreateUser username secret exp maxConns =>
      cases r with
      | ok u =>
          rcases hans with ⟨_, _, _, hcreate, rfl⟩
          exact statement_commit (createUser_rewritten hcreate)
      | error err =>
          cases err with
          | create err => exact statement_same hans.right
          | database err =>
              rcases hans with rfl | ⟨_, _, _, _, hcreate, rfl⟩
              · exact statement_same rfl
              · exact statement_commit (createUser_rewritten hcreate)
  | DeleteUser username =>
      cases r with
      | ok changed => exact statement_affected (deleteUser_rewritten _ _) hans
      | error err => exact statement_broken (deleteUser_rewritten _ _) hans
  | SetExpiration username exp =>
      cases r with
      | ok changed => exact statement_affected (setExpiration_rewritten _ _ _) hans
      | error err => exact statement_broken (setExpiration_rewritten _ _ _) hans
  | SetEnabled username enabled =>
      cases r with
      | ok changed => exact statement_affected (setEnabled_rewritten _ _ _) hans
      | error err => exact statement_broken (setEnabled_rewritten _ _ _) hans
  | markDirty =>
      rw [show s' = _ from hans]
      exact ⟨rfl, rfl, Or.inl ⟨rfl, rfl⟩⟩
  | Respond resp => exact statement_same hans
  | Lock => exact howes.elim
  | Unlock => exact howes.elim
  | Sync c => exact howes.elim
  | Now => exact howes.elim
  | setLastSync st => exact howes.elim

/-!
## What a step has done

The record of a run has the writes, in the order of the commits, and the statuses.
-/

inductive Deed (ε : Type) where
  | write (a : Atom ε)
  | tell (st : SyncStatus ε)

def Deed.written : Deed ε -> Option (Atom ε)
  | .write a => some a
  | .tell _ => none

def Deed.told : Deed ε -> Option (SyncStatus ε)
  | .write _ => none
  | .tell st => some st

def ServerCall.wrote (s s' : Shared ε) (c : ServerCall ε) : Option (Deed ε) :=
  if s'.commits = s.commits then none else (c.writes s.table).map fun a => .write (.action a)

def ServerCall.tells : ServerCall ε -> Option (Deed ε)
  | .setLastSync st => some (.tell st)
  | _ => none

def Daemon.does (d : Daemon ε) (l : Label) (d' : Daemon ε) : Option (Deed ε) :=
  match l with
  | .outside => some (.write .outside)
  | .write i =>
      (d.writes i).bind fun w =>
        match w.rest with
        | .call c _ => c.wrote d.shared d'.shared
        | .done _ => none
  | .pass runner =>
      (d.passes runner).bind fun p =>
        match p.rest with
        | .call c _ => c.tells
        | .done _ => none
  | _ => none

theorem does_write {d d' : Daemon ε} {i : Nat} {next : ServerReply ε c -> Handler ε}
    {h : WriteHistory ε} (hw : d.writes i = some ⟨.call c next, h⟩) :
    d.does (.write i) d' = c.wrote d.shared d'.shared := by
  unfold Daemon.does
  dsimp only
  rw [hw]
  rfl

theorem does_pass {d d' : Daemon ε} {runner : Runner} {next : ServerReply ε c -> Handler ε}
    {ph : Phase} {n : Nat} (hp : d.passes runner = some ⟨.call c next, ph, n⟩) :
    d.does (.pass runner) d' = c.tells := by
  unfold Daemon.does
  dsimp only
  rw [hp]
  rfl

theorem outside_of_does {d d' : Daemon ε} {l : Label}
    (h : d.does l d' = some (.write .outside)) : l = .outside := by
  cases l with
  | outside => rfl
  | write i =>
      unfold Daemon.does at h
      dsimp only at h
      rcases Option.bind_eq_some_iff.mp h with ⟨w, _, hw⟩
      split at hw
      · unfold ServerCall.wrote at hw
        split at hw
        · cases hw
        · rcases Option.map_eq_some_iff.mp hw with ⟨_, _, heq⟩
          cases heq
      · cases hw
  | pass runner =>
      unfold Daemon.does at h
      dsimp only at h
      rcases Option.bind_eq_some_iff.mp h with ⟨p, _, hp⟩
      split at hp
      · unfold ServerCall.tells at hp
        split at hp
        · cases hp
        · cases hp
      · cases hp
  | cancel => cases h
  | request i => cases h
  | sync j => cases h
  | loop => cases h

/-!
## The two together
-/

abbrev NodeContract (ε γ : Type) := List DesiredUser -> Contract SyncCall (SyncReply ε) γ

def Indifferent (K : NodeContract ε γ) : Prop :=
  forall {des des' g c r g'}, c ≠ .ListDesired -> (K des).answers g c r g' ->
    (K des').answers g c r g'

theorem panelNode_indifferent [ClassifiedError ε] : Indifferent (panelNode ε) := by
  intro des des' g c r g' hc hans
  cases c with
  | ListDesired => exact absurd rfl hc
  | ListUsers =>
      cases r with
      | ok listed => exact hans
      | error err => exact hans
  | ApplyOp op rev =>
      cases r with
      | ok newRev => exact hans
      | error err => exact hans

/-- The event of `SyncNode` that a call of a pass is, if it is one. -/
def syncEvents : (c : ServerCall ε) -> ServerReply ε c -> List (SyncEvent ε)
  | .Sync c, r => [⟨c, r⟩]
  | _, _ => []

structure Site (ε γ : Type) where
  daemon : Daemon ε
  node : γ

def Daemon.Asks (d : Daemon ε) (l : Label) : Prop :=
  exists runner c next ph n, l = .pass runner ∧
    d.passes runner = some ⟨.call (.Sync c) next, ph, n⟩

section Systems

variable [ClassifiedError ε] [RFC3339] [Collation]

inductive SiteStep [JsonStream] [TimeJSON] (opts : SyncOptions) (K : NodeContract ε γ) :
    Site ε γ -> Label -> Site ε γ -> Prop where
  | own {d d' : Daemon ε} {l : Label} {g : γ} : ¬ d.Asks l -> Step opts d l d' ->
      SiteStep opts K ⟨d, g⟩ l ⟨d', g⟩
  | asks {d : Daemon ε} {runner : Runner} {c : SyncCall}
      {next : ServerReply ε (.Sync c) -> Handler ε} {ph : Phase} {n : Nat}
      {r : ServerReply ε (.Sync c)} {s : Shared ε} {g g' : γ} :
      d.passes runner = some ⟨.call (.Sync c) next, ph, n⟩ -> d.shared.answers (.Sync c) r s ->
      (K (ListDesired d.shared.table)).answers g c r g' ->
      SiteStep opts K ⟨d, g⟩ (.pass runner)
        ⟨{ d with
            shared := s
            passes := Function.update d.passes runner
              (some ⟨next r, ph.next (.Sync c : ServerCall ε), n⟩) }, g'⟩

inductive AtomicStep (opts : SyncOptions) (K : NodeContract ε γ) :
    UsersTable × γ -> Atom ε -> UsersTable × γ -> Prop where
  | write {table table' : UsersTable} {a : Atom ε} {g : γ} : TableWrite table a table' ->
      AtomicStep opts K (table, g) a (table', g)
  | pass {table : UsersTable} {t : List (SyncEvent ε)} {res : Result ε}
      {err : Option (SyncError ε)} {g g' : γ} :
      Program.Runs (SyncNode opts) t (res, err) ->
      (K (ListDesired table)).Answered g t g' ->
      AtomicStep opts K (table, g) (.action (.pass res err)) (table, g')

theorem atomic_of_writes {opts : SyncOptions} {K : NodeContract ε γ} {table table' : UsersTable}
    {t : List (Atom ε)} (h : Run TableWrite table t table') (g : γ) :
    Run (AtomicStep opts K) (table, g) t (table', g) := by
  induction h with
  | refl => exact .refl _
  | snoc _ hlast ih => exact ih.snoc (.write hlast)

variable [JsonStream] [TimeJSON] {opts : SyncOptions} {K : NodeContract ε γ}

/-- Beside the label of a step, what it has done once and for all. -/
def Recorded (opts : SyncOptions) (K : NodeContract ε γ) (x : Site ε γ)
    (l : Label × Option (Deed ε)) (y : Site ε γ) : Prop :=
  SiteStep opts K x l.1 y ∧ l.2 = x.daemon.does l.1 y.daemon

theorem recorded_of_run {x y : Site ε γ} {t : List Label} (h : Run (SiteStep opts K) x t y) :
    exists u, Run (Recorded opts K) x u y ∧ u.map Prod.fst = t := by
  induction h with
  | refl => exact ⟨[], .refl _, rfl⟩
  | @snoc p q t l _ hlast ih =>
      rcases ih with ⟨u, hrun, rfl⟩
      refine ⟨u ++ [(l, p.daemon.does l q.daemon)], hrun.snoc ⟨hlast, rfl⟩, ?_⟩
      exact List.map_append

theorem step_of_site {x y : Site ε γ} {l : Label} (h : SiteStep opts K x l y) :
    Step opts x.daemon l y.daemon := by
  cases h with
  | own _ hstep => exact hstep
  | asks hp hans _ => exact .pass hp hans

end Systems

/-!
## A pass of a request

What a request for a pass does while it is not disturbed, beside whatever else is
under way.
-/

section Passing

/-- The daemon `d`, in which a request has come so far with its pass. -/
def passing (d : Daemon ε) (j : Nat) (s : Shared ε) (p : Pass ε) : Daemon ε :=
  { d with shared := s, passes := Function.update d.passes (.request j) (some p) }

theorem passing_passes {d : Daemon ε} {j : Nat} {s : Shared ε} {p : Pass ε} :
    (passing d j s p).passes (.request j) = some p := Function.update_self _ _ _

/-- What a pass does with what `SyncNode` has returned. -/
def passEnd (opts : SyncOptions) (out : Result ε × Option (SyncError ε)) :
    Program (ServerCall ε) (ServerReply ε) (SyncStatus ε) :=
  .call .Now fun now =>
    .call (.setLastSync (syncStatus now opts out.1 out.2)) fun _ =>
      .call .Unlock fun _ => .done (syncStatus now opts out.1 out.2)

variable [ClassifiedError ε] [RFC3339] [Collation] [JsonStream] [TimeJSON]
variable {opts : SyncOptions} {K : NodeContract ε γ} {d : Daemon ε} {j n : Nat}
variable {s s' : Shared ε} {g g' : γ} {ph : Phase}

theorem passing_own {c : ServerCall ε} {next : ServerReply ε c -> Handler ε}
    {r : ServerReply ε c} (hans : s.answers c r s') (hown : syncEvents c r = []) :
    SiteStep opts K ⟨passing d j s ⟨.call c next, ph, n⟩, g⟩ (.pass (.request j))
      ⟨passing d j s' ⟨next r, ph.next c, n⟩, g⟩ := by
  have hstep : Step opts (passing d j s ⟨.call c next, ph, n⟩) (.pass (.request j)) _ :=
    .pass passing_passes hans
  have hasks : ¬ (passing d j s ⟨.call c next, ph, n⟩).Asks (.pass (.request j)) := by
    intro hasks
    rcases hasks with ⟨runner, c', next', ph', n', hrunner, hp⟩
    cases hrunner
    rw [passing_passes] at hp
    cases hp
    cases hown
  unfold passing at hstep hasks ⊢
  rw [Function.update_idem] at hstep
  exact .own hasks hstep

theorem passing_asks {c : SyncCall} {next : ServerReply ε (.Sync c) -> Handler ε}
    {r : ServerReply ε (.Sync c)} (hans : s.answers (.Sync c) r s')
    (hnode : (K (ListDesired s.table)).answers g c r g') :
    SiteStep opts K ⟨passing d j s ⟨.call (.Sync c) next, ph, n⟩, g⟩ (.pass (.request j))
      ⟨passing d j s' ⟨next r, ph.next (.Sync c : ServerCall ε), n⟩, g'⟩ := by
  have hstep : SiteStep opts K ⟨passing d j s ⟨.call (.Sync c) next, ph, n⟩, g⟩
      (.pass (.request j)) _ := .asks passing_passes hans hnode
  unfold passing at hstep ⊢
  rwa [Function.update_idem] at hstep

variable (opts) in
theorem passing_locks (hnone : d.passes (.request j) = none)
    (hfree : d.shared.runMu = false) :
    Run (SiteStep opts K) ⟨d, g⟩ [.sync j, .pass (.request j)]
      ⟨passing d j { d.shared with runMu := true }
        ⟨(((SyncNode opts).interp fun c => .call (.Sync c) .done).bind (passEnd opts)).bind
          fun st => respond 200 (.status st), .locked, d.shared.commits⟩, g⟩ := by
  have hsync : SiteStep opts K ⟨d, g⟩ (.sync j)
      ⟨passing d j d.shared ⟨handleSync opts, .waiting, d.shared.commits⟩, g⟩ := by
    refine .own ?_ (.sync hnone)
    intro hasks
    rcases hasks with ⟨_, _, _, _, _, hlabel, _⟩
    cases hlabel
  have hlock : d.shared.answers .Lock () { d.shared with runMu := true } := ⟨hfree, rfl⟩
  exact (Run.one hsync).snoc (passing_own hlock rfl)

theorem passing_serves {α β : Type} {p q : Program SyncCall (SyncReply ε) α}
    {t : List (SyncEvent ε)} (hsteps : Program.Steps p t q)
    (hshared : forall e, e ∈ t -> s.answers (.Sync e.call) e.reply s)
    (hans : (K (ListDesired s.table)).Answered g t g')
    (k : α -> Program (ServerCall ε) (ServerReply ε) β) (f : β -> Handler ε) (ph : Phase) :
    exists ph', Run (SiteStep opts K)
      ⟨passing d j s ⟨((p.interp fun c => .call (.Sync c) .done).bind k).bind f, ph, n⟩, g⟩
      (t.map fun _ => .pass (.request j))
      ⟨passing d j s ⟨((q.interp fun c => .call (.Sync c) .done).bind k).bind f, ph', n⟩,
        g'⟩ := by
  induction hsteps generalizing g ph with
  | refl p =>
      cases hans
      exact ⟨ph, .refl _⟩
  | @call c r t next q _ ih =>
      cases hans with
      | cons hnode hlater =>
          have hfirst := hshared _ List.mem_cons_self
          have hlast := fun e he => hshared e (List.mem_cons_of_mem _ he)
          rcases ih hlast hlater (ph.next (.Sync c : ServerCall ε)) with ⟨ph', hrun⟩
          exact ⟨ph', (Run.one (passing_asks hfirst hnode)).append hrun⟩

theorem passing_ends (out : Result ε × Option (SyncError ε)) (now : Int)
    (f : SyncStatus ε -> Handler ε) (ph : Phase) :
    exists ph', Run (SiteStep opts K) ⟨passing d j s ⟨(passEnd opts out).bind f, ph, n⟩, g⟩
      [.pass (.request j), .pass (.request j), .pass (.request j)]
      ⟨passing d j
        { s with runMu := false, lastSync := syncStatus now opts out.1 out.2 }
        ⟨f (syncStatus now opts out.1 out.2), ph', n⟩, g⟩ := by
  let st := syncStatus now opts out.1 out.2
  have hnow : s.answers .Now now s := rfl
  have hset : s.answers (.setLastSync st) () { s with lastSync := st } := rfl
  have hunlock : Shared.answers { s with lastSync := st } .Unlock ()
      { s with runMu := false, lastSync := st } := rfl
  exact ⟨_, ((Run.one (passing_own hnow rfl)).snoc (passing_own hset rfl)).snoc
    (passing_own hunlock rfl)⟩

theorem passing_whole {t : List (SyncEvent ε)} {out : Result ε × Option (SyncError ε)}
    (hnone : d.passes (.request j) = none) (hfree : d.shared.runMu = false)
    (hruns : Program.Runs (SyncNode opts) t out)
    (hshared : forall e, e ∈ t ->
      Shared.answers { d.shared with runMu := true } (.Sync e.call) e.reply
        { d.shared with runMu := true })
    (hans : (K (ListDesired d.shared.table)).Answered g t g') (now : Int) :
    exists u p, Run (SiteStep opts K) ⟨d, g⟩ u
      ⟨passing d j
        { d.shared with runMu := false, lastSync := syncStatus now opts out.1 out.2 } p, g'⟩ ∧
      Label.outside ∉ u := by
  rcases passing_serves (d := d) (j := j) (n := d.shared.commits) hruns hshared hans
      (passEnd opts) (fun st => respond 200 (.status st)) .locked with ⟨ph, hserves⟩
  rcases passing_ends (K := K) (d := d) (j := j) (n := d.shared.commits) (g := g')
      (s := { d.shared with runMu := true }) out now
      (fun st => respond 200 (.status st)) ph with ⟨_, hends⟩
  refine ⟨_, _, ((passing_locks opts hnone hfree).append hserves).append hends, ?_⟩
  simp

end Passing

end Server
end Telemux
