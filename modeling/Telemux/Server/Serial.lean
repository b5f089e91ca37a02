import Mathlib.Data.List.Forall2
import Telemux.Server.Site

/-!
# Every run is one of whole passes

A pass counts as one step, made when it reads the desired users.  What handlers write
while it works comes after it: the node does not depend on it.
-/

namespace Telemux
namespace Server

open Interaction Net Store Sync TelemtSync

variable {ε γ : Type}

/-!
## What a pass has done so far
-/

structure Flight (ε : Type) where
  /-- What `SyncNode` has called, and what it was answered. -/
  trace : List (SyncEvent ε) := []
  /-- The status that the pass has left. -/
  told : Option (SyncStatus ε) := none

def Flight.next (f : Flight ε) (c : ServerCall ε) (r : ServerReply ε c) : Flight ε where
  trace := f.trace ++ syncEvents c r
  told :=
    match c with
    | .setLastSync st => some st
    | _ => f.told

section Flights

variable [ClassifiedError ε] [RFC3339]

/-- `SyncNode` has returned, and this is the status it gives. -/
def Flight.Ends (opts : SyncOptions) (f : Flight ε) (st : SyncStatus ε) : Prop :=
  exists res err now, Program.Runs (SyncNode opts) f.trace (res, err) ∧
    st = syncStatus now opts res err

omit [ClassifiedError ε] [RFC3339] in
theorem next_trace {f : Flight ε} {c : ServerCall ε} {r : ServerReply ε c}
    (h : syncEvents c r = []) : (f.next c r).trace = f.trace := by
  show f.trace ++ syncEvents c r = f.trace
  rw [h, List.append_nil]

theorem ends_next {opts : SyncOptions} {f : Flight ε} {st : SyncStatus ε} {c : ServerCall ε}
    {r : ServerReply ε c} (hends : f.Ends opts st) (h : syncEvents c r = []) :
    (f.next c r).Ends opts st := by
  rcases hends with ⟨res, err, now, hruns, hst⟩
  refine ⟨res, err, now, ?_, hst⟩
  rw [next_trace h]
  exact hruns

def flightOwes (opts : SyncOptions) (f : Flight ε) : ServerCall ε -> Prop
  | .setLastSync st => f.told = none ∧ f.Ends opts st
  | .Unlock => exists st, f.told = some st ∧ f.Ends opts st
  | _ => True

def flightContract (opts : SyncOptions) :
    Contract (ServerCall ε) (ServerReply ε) (Flight ε) where
  owes := flightOwes opts
  answers f c r f' := f' = f.next c r

/-- The same, for what `SyncNode` calls. -/
def tracing (ε : Type) : Contract SyncCall (SyncReply ε) (Flight ε) where
  owes _ _ := True
  answers f c r f' := f' = f.next (.Sync c) r

omit [ClassifiedError ε] [RFC3339] in
theorem answered_tracing {f f' : Flight ε} {t : List (SyncEvent ε)}
    (h : (tracing ε).Answered f t f') : f'.trace = f.trace ++ t ∧ f'.told = f.told := by
  induction h with
  | nil => exact ⟨(List.append_nil _).symm, rfl⟩
  | cons hans _ ih =>
      cases (show _ = _ from hans)
      refine ⟨?_, ih.right⟩
      rw [ih.left]
      exact List.append_assoc _ _ _

theorem runSync_flies (opts : SyncOptions) :
    (flightContract opts).Meets (runSync (ε := ε) opts) {} fun _ _ => True := by
  refine ⟨trivial, ?_⟩
  intro _ f hf
  cases (show f = {} from hf)
  apply Contract.meets_bind
  apply Contract.meets_interp (K := tracing ε)
  · intro c f _
    exact ⟨trivial, fun r f' hf' => hf'⟩
  · have hmeets := Contract.meets_runs (Contract.meets_free (K := tracing ε)
      (fun _ _ => trivial) (SyncNode opts) ⟨[], none⟩)
    refine Contract.meets_mono ?_ hmeets
    intro out f hend
    rcases out with ⟨res, err⟩
    rcases hend with ⟨_, t, hruns, hans⟩
    rcases answered_tracing hans with ⟨htrace, htold⟩
    have hends : forall now, f.Ends opts (syncStatus now opts res err) := by
      intro now
      refine ⟨res, err, now, ?_, rfl⟩
      rw [htrace]
      exact hruns
    -- what is left are the time, the status and the mutex
    refine ⟨trivial, ?_⟩
    intro now f' hf'
    cases (show f' = f.next .Now now from hf')
    have hstatus := ends_next (c := .Now) (r := now) (hends now) rfl
    refine ⟨⟨htold, hstatus⟩, ?_⟩
    intro _ f' hf'
    cases (show f' = (f.next .Now now).next (.setLastSync _) () from hf')
    refine ⟨⟨_, rfl, ends_next hstatus rfl⟩, ?_⟩
    intro _ _ _
    trivial

abbrev Flies (opts : SyncOptions) (handler : Handler ε) (f : Flight ε) : Prop :=
  (flightContract opts).Meets handler f fun _ _ => True

theorem loopPass_flies (opts : SyncOptions) : Flies (ε := ε) opts (loopPass opts) {} := by
  apply Contract.meets_bind
  apply Contract.meets_mono _ (runSync_flies opts)
  intro st f _
  trivial

theorem handleSync_flies (opts : SyncOptions) : Flies (ε := ε) opts (handleSync opts) {} := by
  apply Contract.meets_bind
  apply Contract.meets_mono _ (runSync_flies opts)
  intro st f _
  exact ⟨trivial, fun _ _ _ => trivial⟩

end Flights

/-!
## What a history explains

The writes of a record, and a pass for each of its statuses.
-/

abbrev Record (ε : Type) := List (Label × Option (Deed ε))

def writesIn (t : Record ε) : List (Atom ε) :=
  t.filterMap fun l => l.2.bind Deed.written

def toldIn (t : Record ε) : List (SyncStatus ε) :=
  t.filterMap fun l => l.2.bind Deed.told

def Atom.isWrite (a : Atom ε) : Bool := a.returned.isNone

/-- A pass that ended so may have left this status. -/
def Leaves (opts : SyncOptions) (out : Result ε × Option (SyncError ε)) (st : SyncStatus ε) :
    Prop :=
  exists now, st = syncStatus now opts out.1 out.2

structure Explains (opts : SyncOptions) (history : List (Atom ε)) (t : Record ε) : Prop where
  writes : history.filter Atom.isWrite = writesIn t
  passes : List.Forall₂ (Leaves opts) (history.filterMap Atom.returned) (toldIn t)

variable {t : Record ε} {l : Label × Option (Deed ε)}

theorem filterMap_snoc {α β : Type} (f : α -> Option β) (as : List α) (a : α) :
    (as ++ [a]).filterMap f = as.filterMap f ++ (f a).toList := by
  rw [List.filterMap_append]
  cases h : f a with
  | none => rw [List.filterMap_cons_none h, List.filterMap_nil, Option.toList_none]
  | some b => rw [List.filterMap_cons_some h, List.filterMap_nil, Option.toList_some]

theorem writesIn_snoc : writesIn (t ++ [l]) = writesIn t ++ (l.2.bind Deed.written).toList :=
  filterMap_snoc _ _ _

theorem toldIn_snoc : toldIn (t ++ [l]) = toldIn t ++ (l.2.bind Deed.told).toList :=
  filterMap_snoc _ _ _

theorem writesIn_same (h : l.2.bind Deed.written = none) :
    writesIn (t ++ [l]) = writesIn t := by
  rw [writesIn_snoc, h, Option.toList_none, List.append_nil]

theorem toldIn_same (h : l.2.bind Deed.told = none) : toldIn (t ++ [l]) = toldIn t := by
  rw [toldIn_snoc, h, Option.toList_none, List.append_nil]

theorem wrote_snoc {before since : List (Atom ε)} {a : Atom ε} (ha : a.returned = none)
    (h : (before ++ since).filter Atom.isWrite = writesIn t) (hl : l.2 = some (.write a)) :
    (before ++ (since ++ [a])).filter Atom.isWrite = writesIn (t ++ [l]) := by
  have hwrite : a.isWrite = true := Option.isNone_iff_eq_none.mpr ha
  rw [← List.append_assoc, List.filter_append, h, writesIn_snoc, hl,
    List.filter_cons_of_pos hwrite]
  rfl

/-!
## The history behind a state
-/

section Histories

variable [ClassifiedError ε] [RFC3339] [Collation]

def Closed (history : List (Atom ε)) : Prop :=
  history = [] ∨ exists before res err, history = before ++ [.action (.pass res err)]

/--
The history `before` leads to the table and the node that the pass in flight has read,
and the writes `since` to the table of now.
-/
structure Behind (opts : SyncOptions) (K : NodeContract ε γ) (start : UsersTable × γ)
    (t : Record ε) (f : Flight ε) (s : Shared ε) (g : γ) (before : List (Atom ε))
    (read : UsersTable × γ) (since : List (Atom ε)) : Prop where
  leads : Run (AtomicStep opts K) start before read
  writes : Run TableWrite read.1 since s.table
  answered : (K (ListDesired read.1)).Answered read.2 f.trace g
  silent : f.told = none -> TellsLast opts before s.lastSync
  told : forall st, f.told = some st -> s.lastSync = st
  quiet : s.listed = s.commits -> forall a, a ∈ since -> a = Atom.outside
  closed : f.trace = [] -> Closed before
  wrote : (before ++ since).filter Atom.isWrite = writesIn t
  /-- The status of the pass in flight, if there is one, is the last. -/
  passed : exists sts, toldIn t = sts ++ f.told.toList ∧
    List.Forall₂ (Leaves opts) (before.filterMap Atom.returned) sts

/-- Without a pass in flight, `f` is empty. -/
def Explained (opts : SyncOptions) (K : NodeContract ε γ) (start : UsersTable × γ)
    (t : Record ε) (f : Flight ε) (s : Shared ε) (g : γ) : Prop :=
  exists before read since, Behind opts K start t f s g before read since

variable {opts : SyncOptions} {K : NodeContract ε γ} {start : UsersTable × γ}
variable {t : Record ε} {l : Label × Option (Deed ε)} {f : Flight ε} {s s' : Shared ε} {g g' : γ}

theorem explained_start (table : UsersTable) (g : γ) :
    Explained opts K (table, g) [] {} ({ table := table } : Shared ε) g := by
  refine ⟨[], (table, g), [], .refl _, .refl _, .nil g, fun _ => rfl, nofun, nofun, ?_, rfl, ?_⟩
  · exact fun _ => Or.inl rfl
  · exact ⟨[], rfl, .nil⟩

theorem explained_frame (h : Explained opts K start t f s g) (hl : l.2 = none)
    (htable : s'.table = s.table) (hlast : s'.lastSync = s.lastSync)
    (hlisted : s'.listed = s.listed) (hcommits : s'.commits = s.commits) :
    Explained opts K start (t ++ [l]) f s' g := by
  rcases h with ⟨before, read, since, h⟩
  refine ⟨before, read, since, h.leads, htable ▸ h.writes, h.answered, hlast ▸ h.silent,
    hlast ▸ h.told, ?_, h.closed, ?_, ?_⟩
  · rw [hlisted, hcommits]
    exact h.quiet
  · rw [writesIn_same (hl ▸ rfl)]
    exact h.wrote
  · rw [toldIn_same (hl ▸ rfl)]
    exact h.passed

theorem explained_outside (h : Explained opts K start t f s g)
    (hl : l.2 = some (.write .outside)) (table : UsersTable) :
    Explained opts K start (t ++ [l]) f { s with table := table } g := by
  rcases h with ⟨before, read, since, h⟩
  refine ⟨before, read, since ++ [.outside], h.leads, h.writes.snoc (.outside _ _), h.answered,
    h.silent, h.told, ?_, h.closed, wrote_snoc rfl h.wrote hl, ?_⟩
  · intro hquiet a ha
    rcases List.mem_append.mp ha with hold | hnew
    · exact h.quiet hquiet a hold
    · exact List.mem_singleton.mp hnew
  · rw [toldIn_same (hl ▸ rfl)]
    exact h.passed

theorem explained_statement {c : ServerCall ε} (h : Explained opts K start t f s g)
    (hstatement : Statement c s s') (hbound : s.listed ≤ s.commits) (hl : l.2 = c.wrote s s') :
    Explained opts K start (t ++ [l]) f s' g := by
  unfold ServerCall.wrote at hl
  rcases hstatement.table with ⟨htable, hcommits⟩ | ⟨hrewritten, hcommits⟩
  · rw [if_pos hcommits] at hl
    exact explained_frame h hl htable hstatement.lastSync hstatement.listed hcommits
  · rw [if_neg (by omega)] at hl
    have hbehind : s'.listed ≠ s'.commits := by
      rw [hstatement.listed, hcommits]
      exact Nat.ne_of_lt (Nat.lt_succ_of_le hbound)
    rcases h with ⟨before, read, since, h⟩
    have hsilent : f.told = none -> TellsLast opts before s'.lastSync :=
      hstatement.lastSync ▸ h.silent
    have htold : forall st, f.told = some st -> s'.lastSync = st :=
      hstatement.lastSync ▸ h.told
    cases hwrite : c.writes s.table with
    | none =>
        rw [hwrite] at hl hrewritten
        have hsame : s'.table = s.table := hrewritten
        refine ⟨before, read, since, h.leads, hsame ▸ h.writes, h.answered, hsilent, htold,
          fun hquiet => absurd hquiet hbehind, h.closed, ?_, ?_⟩
        · rw [writesIn_same (hl ▸ rfl)]
          exact h.wrote
        · rw [toldIn_same (hl ▸ rfl)]
          exact h.passed
    | some a =>
        rw [hwrite] at hl hrewritten
        have hstep : TableWrite s.table (.action a) s'.table := .action hrewritten
        have hdeed : l.2 = some (.write (.action a)) := hl
        refine ⟨before, read, since ++ [.action a], h.leads, h.writes.snoc hstep, h.answered,
          hsilent, htold, fun hquiet => absurd hquiet hbehind, h.closed,
          wrote_snoc (returned_of_write hstep) h.wrote hdeed, ?_⟩
        rw [toldIn_same (hl ▸ rfl)]
        exact h.passed

theorem read_node {before since : List (Atom ε)} {read : UsersTable × γ}
    (h : Behind opts K start t f s g before read since) (htrace : f.trace = []) :
    read.2 = g := by
  have hanswered := h.answered
  rw [htrace] at hanswered
  generalize read.2 = g₁ at hanswered
  cases hanswered
  rfl

theorem explained_listed (h : Explained opts K start t {} s g)
    {r : ServerReply ε (.Sync .ListDesired)} (hans : s.answers (.Sync .ListDesired) r s')
    (hnode : (K (ListDesired s.table)).answers g .ListDesired r g') (hl : l.2 = none) :
    Explained opts K start (t ++ [l]) (Flight.next {} (.Sync .ListDesired) r) s' g' := by
  rcases h with ⟨before, read, since, h⟩
  have hnow := read_node h rfl
  have htable : s'.table = s.table := by rw [hans.right]
  refine ⟨before ++ since, (s.table, g), [], ?_, ?_, .cons hnode (.nil _), ?_, nofun, nofun,
    nofun, ?_, ?_⟩
  · rw [← hnow]
    exact h.leads.append (atomic_of_writes h.writes _)
  · rw [htable]
    exact .refl _
  · intro _
    have hlast : s'.lastSync = s.lastSync := by rw [hans.right]
    rw [hlast]
    exact tellsLast_writes (h.silent rfl) h.writes
  · rw [writesIn_same (hl ▸ rfl), List.append_nil]
    exact h.wrote
  · rw [toldIn_same (hl ▸ rfl), List.filterMap_append, returned_of_writes h.writes,
      List.append_nil]
    exact h.passed

theorem explained_asked (hK : Indifferent K) (h : Explained opts K start t f s g)
    (htrace : f.trace ≠ []) {c : SyncCall} {r : ServerReply ε (.Sync c)}
    (hc : c ≠ .ListDesired) {des : List DesiredUser} (hnode : (K des).answers g c r g')
    (hl : l.2 = none) : Explained opts K start (t ++ [l]) (f.next (.Sync c) r) s g' := by
  rcases h with ⟨before, read, since, h⟩
  refine ⟨before, read, since, h.leads, h.writes, ?_, h.silent, h.told, h.quiet, ?_, ?_, ?_⟩
  · exact Contract.answered_append h.answered (.cons (hK hc hnode) (.nil _))
  · intro hnil
    exact absurd (List.append_eq_nil_iff.mp hnil).left htrace
  · rw [writesIn_same (hl ▸ rfl)]
    exact h.wrote
  · rw [toldIn_same (hl ▸ rfl)]
    exact h.passed

theorem explained_told (h : Explained opts K start t f s g) (htrace : f.trace ≠ [])
    (hnone : f.told = none) {st : SyncStatus ε} (hl : l.2 = some (.tell st)) :
    Explained opts K start (t ++ [l]) (f.next (.setLastSync st) ())
      { s with lastSync := st } g := by
  rcases h with ⟨before, read, since, h⟩
  have hsame : (f.next (.setLastSync st) ()).trace = f.trace := next_trace rfl
  refine ⟨before, read, since, h.leads, h.writes, hsame ▸ h.answered, nofun, ?_, h.quiet, ?_,
    ?_, ?_⟩
  · intro st' hst
    cases hst
    rfl
  · intro hnil
    exact absurd (hsame ▸ hnil) htrace
  · rw [writesIn_same (hl ▸ rfl)]
    exact h.wrote
  · rcases h.passed with ⟨sts, htold, hpassed⟩
    refine ⟨sts, ?_, hpassed⟩
    rw [toldIn_snoc, htold, hnone, hl]
    exact congrArg (· ++ [st]) (List.append_nil sts)

theorem explained_released (h : Explained opts K start t f s g) {st : SyncStatus ε}
    (htold : f.told = some st) (hends : f.Ends opts st) (hl : l.2 = none) :
    Explained opts K start (t ++ [l]) {} { s with runMu := false } g := by
  rcases h with ⟨before, read, since, h⟩
  rcases hends with ⟨res, err, now, hruns, hst⟩
  have hlast : s.lastSync = syncStatus now opts res err := (h.told st htold).trans hst
  refine ⟨before ++ [.action (.pass res err)], (read.1, g), since, ?_, h.writes, .nil g, ?_,
    nofun, h.quiet, fun _ => Or.inr ⟨before, res, err, rfl⟩, ?_, ?_⟩
  · exact h.leads.snoc (.pass hruns h.answered)
  · exact fun _ => tellsLast_pass.mpr ⟨now, hlast⟩
  · have hpass : ([.action (.pass res err)] : List (Atom ε)).filter Atom.isWrite = [] := rfl
    rw [writesIn_same (hl ▸ rfl), ← h.wrote, List.filter_append, List.filter_append, hpass,
      List.append_nil, List.filter_append]
  · rcases h.passed with ⟨sts, hsts, hpassed⟩
    refine ⟨sts ++ [st], ?_, ?_⟩
    · rw [toldIn_same (hl ▸ rfl), hsts, htold]
      exact (List.append_nil _).symm
    · rw [List.filterMap_append]
      exact List.rel_append hpassed (.cons ⟨now, hst⟩ .nil)

end Histories

/-!
## Steps keep it
-/

section Invariant

variable [ClassifiedError ε] [RFC3339] [Collation]

structure Serial (opts : SyncOptions) (K : NodeContract ε γ) (start : UsersTable × γ)
    (t : Record ε) (x : Site ε γ) : Prop where
  pending : forall runner p, x.daemon.passes runner = some p -> p.phase.Pending ->
    Flies opts p.rest {}
  flying : forall runner p, x.daemon.passes runner = some p -> p.phase = .listed ->
    exists f, Flies opts p.rest f ∧ f.trace ≠ [] ∧
      Explained opts K start t f x.daemon.shared x.node
  resting : (forall runner p, x.daemon.passes runner = some p -> p.phase ≠ .listed) ->
    Explained opts K start t {} x.daemon.shared x.node

variable {opts : SyncOptions} {K : NodeContract ε γ} {start : UsersTable × γ}
variable {t : Record ε} {l : Label × Option (Deed ε)} {x x' : Site ε γ} {runner : Runner}

theorem serial_frame (h : Serial opts K start t x)
    (hexplained : forall f, Explained opts K start t f x.daemon.shared x.node ->
      Explained opts K start (t ++ [l]) f x'.daemon.shared x'.node)
    (hkept : forall runner p, x.daemon.passes runner = some p -> p.phase = .listed ->
      x'.daemon.passes runner = some p)
    (hnew : forall runner p, x'.daemon.passes runner = some p ->
      x.daemon.passes runner = some p ∨
        p.phase ≠ .listed ∧ (p.phase.Pending -> Flies opts p.rest {})) :
    Serial opts K start (t ++ [l]) x' := by
  constructor
  · intro runner p hp hpending
    rcases hnew runner p hp with hold | ⟨_, hflies⟩
    · exact h.pending runner p hold hpending
    · exact hflies hpending
  · intro runner p hp hlisted
    rcases hnew runner p hp with hold | ⟨hnot, _⟩
    · rcases h.flying runner p hold hlisted with ⟨f, hflies, htrace, hf⟩
      exact ⟨f, hflies, htrace, hexplained f hf⟩
    · exact absurd hlisted hnot
  · intro hnone
    apply hexplained
    apply h.resting
    intro runner p hp hlisted
    exact hnone runner p (hkept runner p hp hlisted) hlisted

theorem serial_update (h : Serial opts K start t x) {new : Option (Pass ε)}
    (hexplained : forall f, Explained opts K start t f x.daemon.shared x.node ->
      Explained opts K start (t ++ [l]) f x'.daemon.shared x'.node)
    (hpasses : x'.daemon.passes = Function.update x.daemon.passes runner new)
    (hold : forall p, x.daemon.passes runner = some p -> p.phase ≠ .listed)
    (hnew : forall p, new = some p ->
      p.phase ≠ .listed ∧ (p.phase.Pending -> Flies opts p.rest {})) :
    Serial opts K start (t ++ [l]) x' := by
  apply serial_frame h hexplained
  · intro runner' p hp hlisted
    rw [hpasses, Function.update_of_ne]
    · exact hp
    · intro hsame
      subst hsame
      exact hold p hp hlisted
  · intro runner' p hp
    rw [hpasses] at hp
    rcases update_some hp with ⟨hself, _⟩ | ⟨hother, _⟩
    · exact Or.inr (hnew p hself)
    · exact Or.inl hother

theorem serial_holder (hexclusive : Exclusive x.daemon) (h : Serial opts K start t x)
    {p p' : Pass ε} (hp : x.daemon.passes runner = some p) (hholds : p.phase.Holds)
    (hpasses : x'.daemon.passes = Function.update x.daemon.passes runner (some p'))
    (hpending : ¬ p'.phase.Pending)
    (hflying : p'.phase = .listed -> exists f, Flies opts p'.rest f ∧ f.trace ≠ [] ∧
      Explained opts K start (t ++ [l]) f x'.daemon.shared x'.node)
    (hresting : p'.phase ≠ .listed ->
      Explained opts K start (t ++ [l]) {} x'.daemon.shared x'.node) :
    Serial opts K start (t ++ [l]) x' := by
  constructor
  · intro runner' q hq hqpending
    rw [hpasses] at hq
    rcases update_some hq with ⟨hself, _⟩ | ⟨hother, _⟩
    · cases hself
      exact absurd hqpending hpending
    · exact h.pending runner' q hother hqpending
  · intro runner' q hq hlisted
    rw [hpasses] at hq
    rcases update_some hq with ⟨hself, _⟩ | ⟨hother, hne⟩
    · cases hself
      exact hflying hlisted
    · exact absurd (hexclusive.unique runner' runner ⟨q, hother, Or.inr hlisted⟩
        ⟨p, hp, hholds⟩) hne
  · intro hnone
    apply hresting
    apply hnone runner p'
    rw [hpasses]
    exact Function.update_self _ _ _

omit [ClassifiedError ε] [RFC3339] [Collation] in
theorem next_now (f : Flight ε) (now : Int) : f.next .Now now = f := by
  cases f
  simp only [Flight.next, syncEvents, List.append_nil]

omit [RFC3339] [Collation] in
theorem not_pending_listed : ¬ Phase.Pending .listed :=
  fun h => pending_not_listed h rfl

omit [RFC3339] [Collation] in
theorem not_pending_released : ¬ Phase.Pending .released :=
  fun h => pending_not_released h rfl

-- The pass that holds the mutex flies on.
theorem serial_flown (hexclusive : Exclusive x.daemon) (h : Serial opts K start t x)
    {p p' : Pass ε} (hp : x.daemon.passes runner = some p) (hholds : p.phase.Holds)
    (hpasses : x'.daemon.passes = Function.update x.daemon.passes runner (some p'))
    (hlisted : p'.phase = .listed)
    (hflown : exists f, Flies opts p'.rest f ∧ f.trace ≠ [] ∧
      Explained opts K start (t ++ [l]) f x'.daemon.shared x'.node) :
    Serial opts K start (t ++ [l]) x' := by
  apply serial_holder hexclusive h hp hholds hpasses
  · rw [hlisted]
    exact not_pending_listed
  · intro _
    exact hflown
  · intro hnot
    exact absurd hlisted hnot

theorem serial_asks (hK : Indifferent K) (hsound : Sound x.daemon)
    (hexclusive : Exclusive x.daemon) (h : Serial opts K start t x) {c : SyncCall}
    {next : ServerReply ε (.Sync c) -> Handler ε} {ph : Phase} {n : Nat}
    {r : ServerReply ε (.Sync c)} {s : Shared ε} {g' : γ}
    (hp : x.daemon.passes runner = some ⟨.call (.Sync c) next, ph, n⟩)
    (hans : x.daemon.shared.answers (.Sync c) r s)
    (hnode : (K (ListDesired x.daemon.shared.table)).answers x.node c r g')
    (hshared : x'.daemon.shared = s) (hsite : x'.node = g')
    (hpasses : x'.daemon.passes = Function.update x.daemon.passes runner
      (some ⟨next r, ph.next (.Sync c : ServerCall ε), n⟩)) (hl : l.2 = none) :
    Serial opts K start (t ++ [l]) x' := by
  have howes : passOwes ph (.Sync c : ServerCall ε) := (hsound.passes runner _ hp).left
  subst hshared hsite
  have hother : c ≠ .ListDesired -> Serial opts K start (t ++ [l]) x' := by
    intro hc
    have hlisted : ph = .listed ∧ x'.daemon.shared = x.daemon.shared ∧
        ph.next (.Sync c : ServerCall ε) = ph := by
      cases c with
      | ListDesired => exact absurd rfl hc
      | ListUsers => exact ⟨howes, hans, rfl⟩
      | ApplyOp op rev => exact ⟨howes, hans, rfl⟩
    rcases hlisted with ⟨rfl, hsame, hphase⟩
    rcases h.flying runner _ hp rfl with ⟨f, hflies, htrace, hf⟩
    rw [hphase] at hpasses
    apply serial_flown hexclusive h hp (Or.inr rfl) hpasses rfl
    refine ⟨f.next (.Sync c) r, hflies.right r _ rfl, ?_, ?_⟩
    · exact fun hnil => htrace (List.append_eq_nil_iff.mp hnil).left
    · rw [hsame]
      exact explained_asked hK hf htrace hc hnode hl
  cases c with
  | ListDesired =>
      have hlocked : ph = .locked := howes
      subst hlocked
      have hrest := h.resting ?_
      · have hflies := h.pending runner _ hp (Or.inr rfl)
        apply serial_flown hexclusive h hp (Or.inl rfl) hpasses rfl
        exact ⟨_, hflies.right r _ rfl, nofun, explained_listed hrest hans hnode hl⟩
      · intro runner' q hq hlisted
        have hsame := hexclusive.unique runner' runner ⟨q, hq, Or.inr hlisted⟩
          ⟨_, hp, Or.inl rfl⟩
        subst hsame
        rw [hp] at hq
        cases hq
        cases hlisted
  | ListUsers => exact hother nofun
  | ApplyOp op rev => exact hother nofun

end Invariant

theorem no_loop_pass {d : Daemon ε} (hsound : Sound d) (h : d.loop ≠ .running) :
    d.passes .loop = none := by
  cases hp : d.passes .loop with
  | none => rfl
  | some p => exact absurd (hsound.loop p hp) h

section Steps

variable [ClassifiedError ε] [RFC3339] [Collation]
variable {opts : SyncOptions} {K : NodeContract ε γ} {start : UsersTable × γ}
variable {t : Record ε} {l : Label × Option (Deed ε)} {x x' : Site ε γ} {runner : Runner}

theorem serial_pass (hsound : Sound x.daemon) (hexclusive : Exclusive x.daemon)
    (h : Serial opts K start t x) {c : ServerCall ε} {next : ServerReply ε c -> Handler ε}
    {ph : Phase} {n : Nat} {r : ServerReply ε c}
    (hp : x.daemon.passes runner = some ⟨.call c next, ph, n⟩)
    (hc : forall c', c ≠ .Sync c') (hans : x.daemon.shared.answers c r x'.daemon.shared)
    (hnode : x'.node = x.node)
    (hpasses : x'.daemon.passes = Function.update x.daemon.passes runner
      (some ⟨next r, ph.next c, n⟩)) (hl : l.2 = c.tells) :
    Serial opts K start (t ++ [l]) x' := by
  have howes : passOwes ph c := (hsound.passes runner _ hp).left
  cases c with
  | Lock =>
      have hwaiting : ph = .waiting := howes
      subst hwaiting
      apply serial_update h _ hpasses
      · intro p hp'
        rw [hp] at hp'
        cases hp'
        exact nofun
      · intro p hp'
        cases hp'
        refine ⟨nofun, ?_⟩
        intro _
        exact (h.pending runner _ hp (Or.inl rfl)).right r _ rfl
      · intro f hf
        rw [hnode]
        exact explained_frame hf hl (hans.right ▸ rfl) (hans.right ▸ rfl) (hans.right ▸ rfl)
          (hans.right ▸ rfl)
  | Unlock =>
      have hlisted : ph = .listed := howes
      subst hlisted
      rcases h.flying runner _ hp rfl with ⟨f, hflies, _, hf⟩
      rcases hflies.left with ⟨st, htold, hends⟩
      apply serial_holder hexclusive h hp (Or.inr rfl) hpasses not_pending_released nofun
      intro _
      rw [show x'.daemon.shared = _ from hans, hnode]
      exact explained_released hf htold hends hl
  | Now =>
      have hlisted : ph = .listed := howes
      subst hlisted
      rcases h.flying runner _ hp rfl with ⟨f, hflies, htrace, hf⟩
      apply serial_flown hexclusive h hp (Or.inr rfl) hpasses rfl
      refine ⟨f, hflies.right r f (next_now f r).symm, htrace, ?_⟩
      rw [show x'.daemon.shared = _ from hans, hnode]
      exact explained_frame hf hl rfl rfl rfl rfl
  | setLastSync st =>
      have hlisted : ph = .listed := howes
      subst hlisted
      rcases h.flying runner _ hp rfl with ⟨f, hflies, htrace, hf⟩
      apply serial_flown hexclusive h hp (Or.inr rfl) hpasses rfl
      refine ⟨f.next (.setLastSync st) r, hflies.right r _ rfl, ?_, ?_⟩
      · rw [next_trace rfl]
        exact htrace
      · rw [show x'.daemon.shared = _ from hans, hnode]
        exact explained_told hf htrace hflies.left.left hl
  | Respond resp =>
      have hreleased : ph = .released := howes
      subst hreleased
      apply serial_update h _ hpasses
      · intro p hp'
        rw [hp] at hp'
        cases hp'
        exact nofun
      · intro p hp'
        cases hp'
        exact ⟨nofun, fun hpending => absurd hpending not_pending_released⟩
      · intro f hf
        rw [show x'.daemon.shared = _ from hans, hnode]
        exact explained_frame hf hl rfl rfl rfl rfl
  | Sync c' => exact absurd rfl (hc c')
  | IsInRecovery => exact howes.elim
  | CreateUser username secret exp maxConns => exact howes.elim
  | DeleteUser username => exact howes.elim
  | SetExpiration username exp => exact howes.elim
  | SetEnabled username enabled => exact howes.elim
  | markDirty => exact howes.elim

theorem serial_started {d d' : Daemon ε} {g : γ} (h : Serial opts K start t ⟨d, g⟩)
    {p : Pass ε} (hnone : d.passes runner = none) (hwaiting : p.phase = .waiting)
    (hflies : Flies opts p.rest {})
    (hpasses : d'.passes = Function.update d.passes runner (some p))
    (htable : d'.shared.table = d.shared.table) (hlast : d'.shared.lastSync = d.shared.lastSync)
    (hlisted : d'.shared.listed = d.shared.listed)
    (hcommits : d'.shared.commits = d.shared.commits) (hl : l.2 = none) :
    Serial opts K start (t ++ [l]) ⟨d', g⟩ := by
  apply serial_update h _ hpasses
  · intro q hq
    rw [hnone] at hq
    cases hq
  · intro q hq
    cases hq
    refine ⟨?_, fun _ => hflies⟩
    rw [hwaiting]
    exact nofun
  · intro f hf
    exact explained_frame hf hl htable hlast hlisted hcommits

theorem serial_same {d d' : Daemon ε} {g : γ} (h : Serial opts K start t ⟨d, g⟩)
    (hshared : d'.shared = d.shared) (hpasses : d'.passes = d.passes) (hl : l.2 = none) :
    Serial opts K start (t ++ [l]) ⟨d', g⟩ := by
  apply serial_frame h
  · intro f hf
    exact explained_frame hf hl (hshared ▸ rfl) (hshared ▸ rfl) (hshared ▸ rfl) (hshared ▸ rfl)
  · intro runner p hp _
    exact hpasses ▸ hp
  · intro runner p hp
    exact Or.inl (hpasses ▸ hp)

variable [JsonStream] [TimeJSON]

theorem serial_step (hK : Indifferent K) (hsound : Sound x.daemon)
    (hexclusive : Exclusive x.daemon) (h : Serial opts K start t x)
    (hrecorded : Recorded opts K x l x') : Serial opts K start (t ++ [l]) x' := by
  rcases l with ⟨label, deed⟩
  rcases hrecorded with ⟨hstep, hl⟩
  dsimp only at hstep hl
  cases hstep with
  | asks hp hans hnode =>
      rw [does_pass hp] at hl
      exact serial_asks hK hsound hexclusive h hp hans hnode rfl rfl rfl hl
  | own hasks hstep =>
      cases hstep with
      | outside table =>
          exact serial_frame h (fun f hf => explained_outside hf hl table)
            (fun _ _ hp _ => hp) (fun _ _ hp => Or.inl hp)
      | cancel => exact serial_same h rfl rfl hl
      | request req _ => exact serial_same h rfl rfl hl
      | write hw hans =>
          rw [does_write hw] at hl
          have hstatement := statement_of_write (hsound.writes _ _ hw).owes.left hans
          exact serial_frame h
            (fun f hf => explained_statement hf hstatement hsound.listed hl)
            (fun _ _ hp _ => hp) (fun _ _ hp => Or.inl hp)
      | sync hfree =>
          exact serial_started h hfree rfl (handleSync_flies opts) rfl rfl rfl rfl rfl hl
      | pass hp hans =>
          rw [does_pass hp] at hl
          refine serial_pass hsound hexclusive h hp ?_ hans rfl rfl hl
          intro c' hc
          subst hc
          exact hasks ⟨_, _, _, _, _, rfl, hp⟩
      | beaten hloop =>
          have hnone := no_loop_pass hsound (by rw [hloop]; exact nofun)
          exact serial_started h hnone rfl (loopPass_flies opts) rfl rfl rfl rfl rfl hl
      | ended hp =>
          refine serial_update h ?_ rfl ?_ nofun
          · intro f hf
            exact explained_frame hf hl rfl rfl rfl rfl
          · intro p hp'
            rw [hp] at hp'
            cases hp'
            have hreleased : _ = Phase.released := hsound.passes _ _ hp
            rw [hreleased]
            exact nofun
      | returned _ _ => exact serial_same h rfl rfl hl
      | tick _ => exact serial_same h rfl rfl hl
      | signal hloop _ =>
          have hnone := no_loop_pass hsound (by rw [hloop]; exact nofun)
          exact serial_started h hnone rfl (loopPass_flies opts) rfl rfl rfl rfl rfl hl

theorem serial_run (hK : Indifferent K) {table : UsersTable} {g : γ}
    (hrun : Run (Recorded opts K) ⟨.started table, g⟩ t x) :
    Sound x.daemon ∧ Exclusive x.daemon ∧ Serial opts K (table, g) t x := by
  apply hrun.invariant (I := fun t x => Sound x.daemon ∧ Exclusive x.daemon ∧
    Serial opts K (table, g) t x)
  · refine ⟨sound_started table, exclusive_started table, nofun, nofun, ?_⟩
    exact fun _ => explained_start table g
  · intro u p l p' _ hall hstep
    rcases hall with ⟨hsound, hexclusive, hserial⟩
    have hdaemon := step_of_site hstep.left
    exact ⟨sound_step hsound hdaemon, exclusive_step hsound hexclusive hdaemon,
      serial_step hK hsound hexclusive hserial hstep⟩

end Steps

/-!
## Runs
-/

section Runs

variable [ClassifiedError ε] [RFC3339] [Collation] [JsonStream] [TimeJSON]
variable {opts : SyncOptions} {K : NodeContract ε γ} {table : UsersTable} {g : γ}
variable {t : List Label} {u : Record ε} {x : Site ε γ}

theorem explained_free (hK : Indifferent K)
    (hrun : Run (Recorded opts K) ⟨.started table, g⟩ u x)
    (hfree : x.daemon.shared.runMu = false) :
    Explained opts K (table, g) u {} x.daemon.shared x.node := by
  rcases serial_run hK hrun with ⟨_, hexclusive, hserial⟩
  apply hserial.resting
  intro runner p hp hlisted
  have hlocked := hexclusive.locked runner ⟨p, hp, Or.inr hlisted⟩
  rw [hfree] at hlocked
  cases hlocked

theorem outside_of_writes {y : Site ε γ} (hrun : Run (Recorded opts K) y u x)
    (hout : Atom.outside ∈ writesIn u) : Label.outside ∈ u.map Prod.fst := by
  revert hout
  apply hrun.invariant
    (I := fun u _ => Atom.outside ∈ writesIn u -> Label.outside ∈ u.map Prod.fst)
  · exact nofun
  · intro u p l p' _ ih hstep hout
    rw [writesIn_snoc] at hout
    rw [List.map_append]
    rcases List.mem_append.mp hout with hold | hnew
    · exact List.mem_append_left _ (ih hold)
    · apply List.mem_append_right
      rcases Option.bind_eq_some_iff.mp (Option.mem_toList.mp hnew) with ⟨deed, hdeed, hwrite⟩
      cases deed with
      | tell st => cases hwrite
      | write a =>
          cases hwrite
          rw [hstep.right] at hdeed
          exact List.mem_singleton.mpr (outside_of_does hdeed).symm

/--
However the requests and the passes have come in between one another: while nobody has
the mutex, the table, the node and the status are those of a history in which every
pass is one step.  The history has the writes of the run, in their order, and its passes,
by the statuses that they have left.
-/
theorem passes_serializable (hK : Indifferent K)
    (hrun : Run (SiteStep opts K) ⟨.started table, g⟩ t x)
    (hfree : x.daemon.shared.runMu = false) :
    (exists u, Run (Recorded opts K) ⟨.started table, g⟩ u x ∧ u.map Prod.fst = t) ∧
    forall u, Run (Recorded opts K) ⟨.started table, g⟩ u x ->
      exists history, Run (AtomicStep opts K) (table, g) history
          (x.daemon.shared.table, x.node) ∧
        TellsLast opts history x.daemon.shared.lastSync ∧ Explains opts history u ∧
        (Atom.outside ∈ history -> Label.outside ∈ u.map Prod.fst) := by
  refine ⟨recorded_of_run hrun, ?_⟩
  intro u hrecorded
  rcases explained_free hK hrecorded hfree with ⟨before, read, since, h⟩
  refine ⟨before ++ since, ?_, tellsLast_writes (h.silent rfl) h.writes, ⟨h.wrote, ?_⟩, ?_⟩
  · rw [← read_node h rfl]
    exact h.leads.append (atomic_of_writes h.writes _)
  · rcases h.passed with ⟨sts, hsts, hpassed⟩
    rw [List.filterMap_append, returned_of_writes h.writes, List.append_nil, hsts]
    exact (List.append_nil sts).symm ▸ hpassed
  · intro hout
    apply outside_of_writes hrecorded
    rw [← h.wrote]
    exact List.mem_filter.mpr ⟨hout, rfl⟩

end Runs

section Sample

def bareNode : PanelNode := ⟨⟨[], List.Pairwise.nil⟩, []⟩

def sampleCreate : SyncOp := createOp ⟨"sub_a", "ee", none, none⟩

def servedNode : PanelNode := ⟨bareNode.config.applyOp sampleCreate, ["sub_a"]⟩

theorem listDesired_sampleTable :
    letI := sampleClock
    letI := sampleCollation
    ListDesired sampleTable = [⟨"sub_a", "ee", none, none⟩] := by
  simp [ListDesired, sampleTable, sampleUser, User.desired]

def writing (d : Daemon ε) (w : Write ε) : Daemon ε :=
  { d with writes := Function.update d.writes 0 (some w) }

theorem writing_step [ClassifiedError ε] [RFC3339] [Collation] [JsonStream] [TimeJSON]
    {opts : SyncOptions} {K : NodeContract ε γ} {d : Daemon ε} {j : Nat} {s s' : Shared ε}
    {p : Pass ε} {g : γ} {c : ServerCall ε} {next : ServerReply ε c -> Handler ε}
    {h : WriteHistory ε} {r : ServerReply ε c} (hans : s.answers c r s') :
    SiteStep opts K ⟨passing (writing d ⟨.call c next, h⟩) j s p, g⟩ (.write 0)
      ⟨passing (writing d ⟨next r, h.next s'.commits c r⟩) j s' p, g⟩ := by
  have hwrite : (passing (writing d ⟨.call c next, h⟩) j s p).writes 0 =
      some ⟨.call c next, h⟩ := rfl
  have hstep : Step opts (passing (writing d ⟨.call c next, h⟩) j s p) (.write 0) _ :=
    .write hwrite hans
  unfold passing writing at hstep ⊢
  rw [Function.update_idem] at hstep
  refine .own ?_ hstep
  intro hasks
  rcases hasks with ⟨_, _, _, _, _, hlabel, _⟩
  cases hlabel

/-- While a pass creates the user on the node, a request deletes it from the table. -/
theorem passes_serializable_sample :
    letI := sampleClock
    letI := sampleCollation
    letI := sampleBodies
    letI := sampleTimes
    let opts : SyncOptions := { mode := .apply }
    let K := panelNode Classification
    exists (x : Site Classification PanelNode) (u : Record Classification)
        (history : List (Atom Classification)),
      Run (Recorded opts K) ⟨.started sampleTable, bareNode⟩ u x ∧
      x.daemon.shared.lastSync.applied = 1 ∧
      Run (AtomicStep opts K) (sampleTable, bareNode) history
        ((DeleteUser sampleTable "sub_a").2, servedNode) ∧
      TellsLast opts history x.daemon.shared.lastSync ∧ Explains opts history u ∧
      (Atom.outside ∈ history -> Label.outside ∈ u.map Prod.fst) := by
  let := sampleClock
  let := sampleCollation
  let := sampleBodies
  let := sampleTimes
  let opts : SyncOptions := { mode := .apply }
  let K := panelNode Classification
  let d : Daemon Classification := .started sampleTable
  let locked : Shared Classification := { sampleShared with runMu := true }
  let deleted : Shared Classification := locked.commit (DeleteUser sampleTable "sub_a").2
  let marked : Shared Classification := { deleted with dirty := true }
  let asked : Write Classification := { rest := handleDelete "sub_a" }
  have hlocks := passing_locks opts (K := K) (d := d) (j := 0) (g := bareNode) rfl rfl
  have hsteps : exists q, Program.Steps (SyncNode (ε := Classification) opts)
      [⟨.ListDesired, .ok [⟨"sub_a", "ee", none, none⟩]⟩] q ∧
      Program.Steps q [⟨.ListUsers, .ok ([], "r1")⟩, ⟨.ApplyOp sampleCreate "r1", .ok "r2"⟩]
        (.done ({ ops := [sampleCreate], applied := 1 }, none)) :=
    ⟨_, .call (.refl _), .call (.call (.refl _))⟩
  rcases hsteps with ⟨q, hread, hsent⟩
  have hdesired : (K (ListDesired sampleTable)).Answered bareNode
      [⟨.ListDesired, .ok [⟨"sub_a", "ee", none, none⟩]⟩] bareNode :=
    .cons ⟨listDesired_sampleTable.symm, rfl⟩ (.nil _)
  have hcreated : Performed sampleCreate bareNode servedNode := by
    refine ⟨rfl, ?_, rfl⟩
    intro _ hhas
    rcases hhas with ⟨_, hmem, _⟩
    cases hmem
  have hnode : (K (ListDesired deleted.table)).Answered bareNode
      [⟨.ListUsers, .ok ([], "r1")⟩, ⟨.ApplyOp sampleCreate "r1", .ok "r2"⟩] servedNode :=
    .cons ⟨.refl _, rfl⟩ (.cons hcreated (.nil _))
  -- the pass reads the table, and the request comes before it has asked the node
  have hlisted : locked.answers (.Sync .ListDesired) (.ok [⟨"sub_a", "ee", none, none⟩])
      locked := by
    refine ⟨?_, rfl⟩
    intro des hdes
    cases hdes
    exact listDesired_sampleTable.symm
  rcases passing_serves (d := d) (j := 0) (n := 0) hread
      (List.forall_mem_singleton.mpr hlisted) hdesired (passEnd opts)
      (fun st => respond 200 (.status st)) .locked with ⟨ph, hserves⟩
  let p : Pass Classification := ⟨((q.interp fun c => .call (.Sync c) .done).bind
    (passEnd opts)).bind fun st => respond 200 (.status st), ph, 0⟩
  have hrequest : SiteStep opts K ⟨passing d 0 locked p, bareNode⟩ (.request 0)
      ⟨passing (writing d asked) 0 locked p, bareNode⟩ := by
    refine .own ?_ (.request (.delete "sub_a") rfl)
    intro hasks
    rcases hasks with ⟨_, _, _, _, _, hlabel, _⟩
    cases hlabel
  have hmaster : locked.answers .IsInRecovery (.ok false) locked := rfl
  have hdelete : locked.answers (.DeleteUser "sub_a") (.ok true) deleted := ⟨by decide, rfl⟩
  have hmark : deleted.answers .markDirty () marked := rfl
  have hrespond : marked.answers (.Respond ⟨200, .ok⟩) () marked := rfl
  have hwrite := ((((Run.one hrequest).snoc (writing_step hmaster)).snoc
    (writing_step hdelete)).snoc (writing_step hmark)).snoc (writing_step hrespond)
  -- the pass goes on with what it has read
  rcases passing_serves (d := writing d _) (j := 0) (n := 0) (s := marked) hsent
      (List.forall_mem_cons.mpr ⟨rfl, List.forall_mem_singleton.mpr rfl⟩) hnode (passEnd opts)
      (fun st => respond 200 (.status st)) ph with ⟨ph', hlater⟩
  rcases passing_ends (d := writing d _) (j := 0) (n := 0) (s := marked)
      ({ ops := [sampleCreate], applied := 1 }, none) 7
      (fun st => respond 200 (.status st)) ph' with ⟨_, hends⟩
  have hrun := (((hlocks.append hserves).append hwrite).append hlater).append hends
  rcases passes_serializable panelNode_indifferent hrun rfl with ⟨⟨u, hrecorded, _⟩, hall⟩
  rcases hall u hrecorded with ⟨history, hhistory, hexplains⟩
  exact ⟨_, u, history, hrecorded, rfl, hhistory, hexplains⟩

end Sample

end Server
end Telemux
