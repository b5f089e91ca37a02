import Telemux.Store.Users
import Telemux.Sync.Rules
import Telemux.TelemtSync.Plan

/-!
# Taking access away

The panel edits the users table, and passes of SyncNode carry it to a node that
nobody else writes to.  A user that left the table, or is disabled there, leaves
the node with the next clean pass, if the diff ever deletes it: that takes the
managed prefix, which nobody asks for when a user is created.
-/

namespace Telemux
namespace Sync

open Interaction TelemtSync Store Reconcile

/-!
## The node

A faithful node: it lists its users, and an operation has its effect or has
none.  The acknowledgement of an effect may be lost; AlreadyDone is only said of
a user to create that is there, or another operation's user that is not.
-/

/-- The users of a node, and the names it has from a create of a pass. -/
structure PanelNode where
  config : UserConfig
  created : List String

def PanelNode.Has (g : PanelNode) (name : String) : Prop :=
  exists r, r ∈ g.config.val ∧ r.username = name

/-- An operation takes effect; a name is only created while it is free. -/
structure Performed (op : SyncOp) (g g' : PanelNode) : Prop where
  config : g'.config = g.config.applyOp op
  create_free : op.kind = .create -> ¬ g.Has op.username
  created : g'.created =
    if op.kind = .create then op.username :: g.created else g.created

section Node

variable {ε : Type} [ClassifiedError ε]

def panelNode (ε : Type) [ClassifiedError ε] (des : List DesiredUser) :
    Contract SyncCall (SyncReply ε) PanelNode where
  owes _ _ := True
  answers g c r g' :=
    match c, r with
    | .ListDesired, .ok listed => listed = des ∧ g' = g
    | .ListDesired, .error _ => g' = g
    | .ListUsers, .ok (listed, _) => listed.Perm g.config.val ∧ g' = g
    | .ListUsers, .error _ => g' = g
    | .ApplyOp op _, .ok _ => Performed op g g'
    | .ApplyOp op _, .error err =>
        (errorClass err = .other ∧ Performed op g g') ∨
          (g' = g ∧
            (errorClass err = .alreadyDone -> (g.Has op.username <-> op.kind = .create)))

theorem has_iff {g : PanelNode} {name : String} :
    g.Has name <-> (remoteByName g.config.val name).isSome = true :=
  lookup_isSome_iff.symm

theorem performed_other {op : SyncOp} {g g' : PanelNode} (h : Performed op g g')
    {name : String} (hname : name ≠ op.username) : g'.Has name <-> g.Has name := by
  have hconfig : g'.config.val = applyOp g.config.val op := by
    rw [h.config]
    rfl
  rw [has_iff, has_iff, hconfig, remoteByName_applyOp_other _ hname]

theorem performed_delete {op : SyncOp} {g g' : PanelNode} (h : Performed op g g')
    (hkind : op.kind = .delete) : ¬ g'.Has op.username := by
  have hconfig : g'.config.val = applyOp g.config.val op := by
    rw [h.config]
    rfl
  rw [has_iff, hconfig, remoteByName_applyOp]
  have hsame := userOps.act_same (remoteByName g.config.val) op
  rw [show userOps.act (remoteByName g.config.val) op op.username = _ from hsame]
  simp [userOps, opEffect, hkind]

/-!
## One pass

Whatever happens in a pass, whoever it created is desired.  While nothing has
failed, the deletes of an attempt that are still ahead are enough.
-/

def Covered (des : List DesiredUser) (g : PanelNode) : Prop :=
  forall name, g.Has name -> name ∈ g.created -> HasPrefix name ManagedPrefix = false ->
    exists d, d ∈ des ∧ d.username = name

def DeletesAhead (des : List DesiredUser) (rest : List SyncOp) (g : PanelNode) : Prop :=
  forall name, g.Has name -> HasPrefix name ManagedPrefix = true ->
    (forall d, d ∈ des -> d.username ≠ name) -> deleteOp name ∈ rest

variable [RFC3339] {des : List DesiredUser} {remote : List RemoteUser} {opts : Options}
variable {op : SyncOp} {rest : List SyncOp} {g g' : PanelNode}

theorem desired_of_performed (hop : op ∈ ComputeDiff des remote opts)
    (hperf : Performed op g g') (hhas : g'.Has op.username) :
    exists d, d ∈ des ∧ d.username = op.username := by
  apply desired_of_mem_computeDiff hop
  intro hkind
  exact performed_delete hperf hkind hhas

theorem covered_performed (h : Covered des g) (hop : op ∈ ComputeDiff des remote opts)
    (hperf : Performed op g g') : Covered des g' := by
  intro name hhas hcreated hforeign
  by_cases hname : name = op.username
  · rw [hname] at hhas ⊢
    exact desired_of_performed hop hperf hhas
  · have hold : name ∈ g.created := by
      rw [hperf.created] at hcreated
      split at hcreated
      · rcases List.mem_cons.mp hcreated with hnew | hold
        · exact absurd hnew hname
        · exact hold
      · exact hcreated
    exact h name ((performed_other hperf hname).mp hhas) hold hforeign

theorem deletesAhead_performed (h : DeletesAhead des (op :: rest) g)
    (hop : op ∈ ComputeDiff des remote opts) (hperf : Performed op g g') :
    DeletesAhead des rest g' := by
  intro name hhas hmanaged hnot
  by_cases hname : name = op.username
  · rw [hname] at hhas hnot
    rcases desired_of_performed hop hperf hhas with ⟨d, hd, hdname⟩
    exact absurd hdname (hnot d hd)
  · rcases List.mem_cons.mp (h name ((performed_other hperf hname).mp hhas) hmanaged hnot)
      with rfl | hrest
    · exact absurd rfl hname
    · exact hrest

omit [RFC3339] in
theorem deletesAhead_skipped (h : DeletesAhead des (op :: rest) g)
    (hdone : g.Has op.username <-> op.kind = .create) : DeletesAhead des rest g := by
  intro name hhas hmanaged hnot
  rcases List.mem_cons.mp (h name hhas hmanaged hnot) with rfl | hrest
  · cases hdone.mp hhas
  · exact hrest

theorem deletesAhead_start (hperm : remote.Perm g.config.val) :
    DeletesAhead des (ComputeDiff des remote {}) g := by
  intro name hhas hmanaged hnot
  rcases hhas with ⟨r, hr, rfl⟩
  apply mem_computeDiff.mpr
  exact Or.inr (Or.inr ⟨r, hperm.mem_iff.mpr hr, hmanaged, lookup_eq_none_iff.mpr hnot, rfl⟩)

/-- What an attempt against the list `remote` keeps between two operations. -/
structure Revoking (des : List DesiredUser) (remote : List RemoteUser) (rest : List SyncOp)
    (res : Result ε) (g : PanelNode) : Prop where
  covered : Covered des g
  computed : rest ⊆ ComputeDiff des remote {}
  ahead : res.failed = 0 -> DeletesAhead des rest g

omit [ClassifiedError ε] in
theorem revoking_performed {res res' : Result ε} (h : Revoking des remote (op :: rest) res g)
    (hperf : Performed op g g') (hfailed : res'.failed = 0 -> res.failed = 0) :
    Revoking des remote rest res' g' where
  covered := covered_performed h.covered (h.computed List.mem_cons_self) hperf
  computed := fun _ ho => h.computed (List.mem_cons_of_mem op ho)
  ahead := fun h0 =>
    deletesAhead_performed (h.ahead (hfailed h0)) (h.computed List.mem_cons_self) hperf

def Passed (des : List DesiredUser) (res : Result ε) (err : Option (SyncError ε))
    (g : PanelNode) : Prop :=
  Covered des g ∧
    (err = none -> res.aborted = false -> res.failed = 0 -> DeletesAhead des [] g)

theorem revoking_loop (des : List DesiredUser) (remote : List RemoteUser) :
    LoopInvariant (panelNode ε des)
      (fun rest _ res g => Revoking des remote rest res g)
      fun res ending g => Covered des g ∧
        (ending = .finished -> res.failed = 0 -> DeletesAhead des [] g) := by
  constructor
  case owes => exact fun _ => trivial
  case success =>
    intro op rest rev res g newRev g' h hperf
    exact revoking_performed h hperf (fun h0 => h0)
  case skip =>
    intro op rest rev res g aerr g' h hans hclass
    rcases hans with ⟨hother, _⟩ | ⟨rfl, hdone⟩
    · rw [hclass] at hother
      cases hother
    · exact
        { covered := h.covered
          computed := fun _ ho => h.computed (List.mem_cons_of_mem op ho)
          ahead := fun h0 => deletesAhead_skipped (h.ahead h0) (hdone hclass) }
  case failure =>
    intro op rest rev res g aerr g' h hans _
    have hcovered : Covered des g' := by
      rcases hans with ⟨_, hperf⟩ | ⟨rfl, _⟩
      · exact covered_performed h.covered (h.computed List.mem_cons_self) hperf
      · exact h.covered
    exact
      { covered := hcovered
        computed := fun _ ho => h.computed (List.mem_cons_of_mem op ho)
        ahead := by
          intro h0
          simp at h0 }
  case readOnly =>
    intro op rest rev res g aerr g' h hans hclass
    rcases hans with ⟨hother, _⟩ | ⟨rfl, _⟩
    · rw [hclass] at hother
      cases hother
    · constructor
      · exact h.covered
      · intro hend
        cases hend
  case conflict =>
    intro op rest rev res g aerr g' h hans hclass
    rcases hans with ⟨hother, _⟩ | ⟨rfl, _⟩
    · rw [hclass] at hother
      cases hother
    · constructor
      · exact h.covered
      · intro hend
        cases hend
  case finished =>
    intro rev res g h
    exact ⟨h.covered, fun _ h0 => h.ahead h0⟩

omit [ClassifiedError ε] [RFC3339] in
theorem passed_error {res : Result ε} {err : SyncError ε} (h : Covered des g) :
    Passed des res (some err) g := by
  constructor
  · exact h
  · intro hnone
    cases hnone

theorem revoking_attempts (des : List DesiredUser) :
    CallInvariant (panelNode ε des) { mode := .apply } des (fun _ _ g => Covered des g)
      (fun _ remote rest _ res g => Revoking des remote rest res g) (Passed des) := by
  constructor
  case exhausted =>
    intro res g h
    exact passed_error h
  case owes => exact fun _ => trivial
  case listError =>
    intro left res g err g' h heq
    subst heq
    exact passed_error h
  case aborted =>
    intro left res g remote rev g' h hlist _
    rcases hlist with ⟨_, rfl⟩
    constructor
    · exact h
    · intro _ haborted
      cases haborted
  case shadow =>
    intro left res g remote rev g' _ _ _ hmode
    cases hmode
  case start =>
    intro left res g remote rev g' h hlist _ _
    rcases hlist with ⟨hperm, rfl⟩
    exact
      { covered := h
        computed := fun _ ho => ho
        ahead := fun _ => deletesAhead_start hperm }
  case loop =>
    intro left remote
    apply (revoking_loop des remote).mono _
    intro res ending g hend
    rcases hend with ⟨hcovered, hahead⟩
    cases ending with
    | finished => exact ⟨hcovered, fun _ _ h0 => hahead rfl h0⟩
    | readOnly aerr => exact passed_error hcovered
    | conflict => exact hcovered

theorem syncNode_passed {t : List (Event SyncCall (SyncReply ε))} {res : Result ε}
    {err : Option (SyncError ε)} (h : Covered des g)
    (hruns : Program.Runs (SyncNode { mode := .apply }) t (res, err))
    (hans : (panelNode ε des).Answered g t g') : Passed des res err g' := by
  have hmeets := syncNode_meets { mode := .apply } (K := panelNode ε des)
    (J := fun _ _ _ g => Covered des g)
    (I := fun _ _ remote rest _ res g => Revoking des remote rest res g)
    (Q := Passed des) (g := g) trivial
  have hpassed := hmeets ?_ ?_
  · exact Contract.post_of_runs (a := (res, err)) hpassed hruns hans
  · intro err g' heq
    subst heq
    exact passed_error h
  · intro des' g' hans
    rcases hans with ⟨rfl, rfl⟩
    exact ⟨revoking_attempts des', h⟩

end Node

/-!
## Histories

The panel and its node, and what happens to them: successful calls that write
the table, and passes with default options.
-/

structure Panel where
  table : UsersTable
  node : PanelNode

inductive PanelAction (ε : Type) where
  | createUser (username : String)
  | deleteUser (username : String)
  | setExpiration (username : String) (exp : Option Int)
  | setEnabled (username : String) (enabled : Bool)
  | pass (res : Result ε) (err : Option (SyncError ε))

section Histories

variable {ε : Type} [ClassifiedError ε] [RFC3339] [Collation]

inductive PanelStep : Panel -> PanelAction ε -> Panel -> Prop where
  | createUser {p : Panel} {username : String} {u : User} {table : UsersTable} (now : Int)
      (generated : Option String) (secret : String) (exp maxConns : Option Int) :
      CreateUser p.table now generated username secret exp maxConns = .ok (u, table) ->
      PanelStep p (.createUser username) { p with table := table }
  | deleteUser {p : Panel} {username : String} {table : UsersTable} :
      DeleteUser p.table username = (true, table) ->
      PanelStep p (.deleteUser username) { p with table := table }
  | setExpiration {p : Panel} {username : String} {exp : Option Int} {table : UsersTable} :
      SetExpiration p.table username exp = (true, table) ->
      PanelStep p (.setExpiration username exp) { p with table := table }
  | setEnabled {p : Panel} {username : String} {enabled : Bool} {table : UsersTable} :
      SetEnabled p.table username enabled = (true, table) ->
      PanelStep p (.setEnabled username enabled) { p with table := table }
  | pass {p : Panel} {t : List (Event SyncCall (SyncReply ε))} {res : Result ε}
      {err : Option (SyncError ε)} {node : PanelNode} :
      Program.Runs (SyncNode { mode := .apply }) t (res, err) ->
      (panelNode ε (ListDesired p.table)).Answered p.node t node ->
      PanelStep p (.pass res err) { p with node := node }

inductive History (allowed : Panel -> PanelAction ε -> Prop) : Panel -> Panel -> Prop where
  | refl (p : Panel) : History allowed p p
  | step {p p' p'' : Panel} {action : PanelAction ε} :
      History allowed p p' -> PanelStep p' action p'' -> allowed p' action ->
      History allowed p p''

def Panel.Fresh (p : Panel) : Prop :=
  p.table = UsersTable.empty ∧ p.node.created = []

def Panel.Revocable (p : Panel) (name : String) : Prop :=
  HasPrefix name ManagedPrefix = true ∨ ¬ (p.node.Has name ∧ name ∈ p.node.created)

def Panel.RevokesManaged (p : Panel) : PanelAction ε -> Prop
  | .deleteUser name => p.Revocable name
  | .setEnabled name false => p.Revocable name
  | .setEnabled _ true => True
  | .createUser _ => True
  | .setExpiration _ _ => True
  | .pass _ _ => True

def Panel.Accounted (p : Panel) : Prop :=
  forall name, p.node.Has name -> name ∈ p.node.created ->
    HasPrefix name ManagedPrefix = false -> p.table.Enabled name

theorem accounted_iff_covered {p : Panel} :
    p.Accounted <-> Covered (ListDesired p.table) p.node := by
  unfold Panel.Accounted Covered
  simp only [desired_iff_enabled]

omit [RFC3339] [Collation] in
theorem ne_of_revocable {p : Panel} {name username : String} (h : p.Revocable username)
    (hhas : p.node.Has name) (hcreated : name ∈ p.node.created)
    (hforeign : HasPrefix name ManagedPrefix = false) : name ≠ username := by
  intro heq
  subst heq
  rcases h with hmanaged | hnot
  · rw [hmanaged] at hforeign
    cases hforeign
  · exact hnot ⟨hhas, hcreated⟩

theorem accounted_step {p p' : Panel} {action : PanelAction ε} (h : p.Accounted)
    (hstep : PanelStep p action p') (hallowed : p.RevokesManaged action) :
    p'.Accounted := by
  cases hstep with
  | createUser now generated secret exp maxConns hcreate =>
      intro name hhas hcreated hforeign
      exact createUser_enabled hcreate (h name hhas hcreated hforeign)
  | deleteUser hdelete =>
      intro name hhas hcreated hforeign
      have hne := ne_of_revocable hallowed hhas hcreated hforeign
      have hkept := deleteUser_enabled hne (h name hhas hcreated hforeign)
      rw [hdelete] at hkept
      exact hkept
  | setExpiration hset =>
      rename_i username exp _
      intro name hhas hcreated hforeign
      have hkept := setExpiration_enabled username exp (h name hhas hcreated hforeign)
      rw [hset] at hkept
      exact hkept
  | setEnabled hset =>
      rename_i username enabled _
      intro name hhas hcreated hforeign
      have hkept := setEnabled_enabled username enabled ?_ (h name hhas hcreated hforeign)
      · rw [hset] at hkept
        exact hkept
      · intro hname
        cases enabled with
        | true => rfl
        | false => exact absurd hname (ne_of_revocable hallowed hhas hcreated hforeign)
  | pass hruns hans =>
      rw [accounted_iff_covered] at h ⊢
      exact (syncNode_passed h hruns hans).left

theorem accounted_history {p₀ p : Panel} (hfresh : p₀.Fresh)
    (hrun : History (ε := ε) Panel.RevokesManaged p₀ p) : p.Accounted := by
  induction hrun with
  | refl =>
      intro name _ hcreated
      rw [hfresh.right] at hcreated
      cases hcreated
  | step _ hstep hallowed ih => exact accounted_step ih hstep hallowed

/--
When only managed users are ever deleted or disabled, or users that telemux does
not have on the node, a clean pass leaves nobody it created without an enabled
row.
-/
theorem revoked_access_leaves {p₀ p p' : Panel} {res : Result ε} (hfresh : p₀.Fresh)
    (hrun : History (ε := ε) Panel.RevokesManaged p₀ p)
    (hpass : PanelStep p (.pass res none) p') (hnot_aborted : res.aborted = false)
    (hfailed : res.failed = 0) :
    forall name, p'.node.Has name -> name ∈ p'.node.created -> p'.table.Enabled name := by
  have haccounted := accounted_iff_covered.mp (accounted_history hfresh hrun)
  cases hpass with
  | pass hruns hans =>
      rcases syncNode_passed haccounted hruns hans with ⟨hcovered, hclean⟩
      intro name hhas hcreated
      rw [← desired_iff_enabled]
      cases hmanaged : HasPrefix name ManagedPrefix with
      | false => exact hcovered name hhas hcreated hmanaged
      | true =>
          by_contra hnot
          have hahead := hclean rfl hnot_aborted hfailed name hhas hmanaged
            (fun d hd hname => hnot ⟨d, hd, hname⟩)
          cases hahead

end Histories

/-!
## Two histories

The same calls for two usernames: create, pass, delete, pass.
-/

section Sample

def sampleUser (name : String) : User where
  username := name
  secret := "ee1"
  expirationAt := none
  maxTCPConns := none
  enabled := true
  createdAt := 0

def sampleTable (name : String) : UsersTable := ⟨[sampleUser name], by simp [Distinct]⟩

def sampleNode (name : String) : PanelNode where
  config := ⟨[⟨name, true, none, none⟩], by simp [DistinctUsers, Distinct]⟩
  created := [name]

def sampleStart : Panel := ⟨.empty, ⟨⟨[], by decide⟩, []⟩⟩

theorem listDesired_sampleTable [RFC3339] [Collation] (name : String) :
    ListDesired (sampleTable name) = [⟨name, "ee1", none, none⟩] := by
  simp [ListDesired, sampleTable, sampleUser, User.desired]

theorem listDesired_empty [RFC3339] [Collation] : ListDesired UsersTable.empty = [] := by
  simp [ListDesired, UsersTable.empty]

variable [RFC3339] [Collation]

theorem sample_created {name : String} (hname : name ≠ "") :
    PanelStep (ε := Classification) sampleStart (.createUser name)
      ⟨sampleTable name, sampleStart.node⟩ ∧
    PanelStep (ε := Classification) ⟨sampleTable name, sampleStart.node⟩
      (.pass { ops := [createOp ⟨name, "ee1", none, none⟩], applied := 1 } none)
      ⟨sampleTable name, sampleNode name⟩ := by
  have hruns : Program.Runs (SyncNode { mode := .apply })
      ([⟨.ListDesired, .ok [⟨name, "ee1", none, none⟩]⟩, ⟨.ListUsers, .ok ([], "r1")⟩,
        ⟨.ApplyOp (createOp ⟨name, "ee1", none, none⟩) "r1", .ok "r2"⟩] :
          List (Event SyncCall (SyncReply Classification)))
      ({ ops := [createOp ⟨name, "ee1", none, none⟩], applied := 1 }, none) :=
    .call (.call (.call (.refl _)))
  have hperformed : Performed (createOp ⟨name, "ee1", none, none⟩) sampleStart.node
      (sampleNode name) := by
    constructor
    · rfl
    · intro _ hhas
      rcases hhas with ⟨r, hr, _⟩
      cases hr
    · rfl
  constructor
  · apply PanelStep.createUser 0 none "ee1" none none
    simp [CreateUser, hname]
    rfl
  · apply PanelStep.pass hruns
    refine .cons ⟨?_, rfl⟩ (.cons ⟨.nil, rfl⟩ (.cons hperformed (.nil _)))
    exact (listDesired_sampleTable name).symm

theorem sample_deleted (name : String) :
    PanelStep (ε := Classification) ⟨sampleTable name, sampleNode name⟩ (.deleteUser name)
      ⟨.empty, sampleNode name⟩ := by
  apply PanelStep.deleteUser
  simp [DeleteUser, sampleTable, sampleUser, UsersTable.empty, UsersTable.rowsAffected]

omit [RFC3339] [Collation] in
/-- A managed user is deleted in the panel, and the next pass deletes it on the node. -/
theorem revoked_access_leaves_sample :
    letI := sampleClock
    letI := sampleCollation
    let p' : Panel := ⟨.empty, ⟨⟨[], by decide⟩, ["sub_1"]⟩⟩
    forall name, p'.node.Has name -> name ∈ p'.node.created -> p'.table.Enabled name :=
  letI := sampleClock
  letI := sampleCollation
  have hmanaged : Panel.Revocable ⟨sampleTable "sub_1", sampleNode "sub_1"⟩ "sub_1" :=
    Or.inl (by decide)
  have hruns : Program.Runs (SyncNode { mode := .apply })
      ([⟨.ListDesired, .ok []⟩,
        ⟨.ListUsers, .ok ([⟨"sub_1", true, none, none⟩], "r2")⟩,
        ⟨.ApplyOp (deleteOp "sub_1") "r2", .ok "r3"⟩] :
          List (Event SyncCall (SyncReply Classification)))
      ({ ops := [deleteOp "sub_1"], applied := 1 }, none) :=
    .call (.call (.call (.refl _)))
  have hperformed : Performed (deleteOp "sub_1") (sampleNode "sub_1")
      ⟨⟨[], by decide⟩, ["sub_1"]⟩ :=
    ⟨rfl, (fun hkind => by cases hkind), rfl⟩
  revoked_access_leaves ⟨rfl, rfl⟩
    (.step (.step (.step (.refl _) (sample_created (by decide)).left trivial)
      (sample_created (by decide)).right trivial) (sample_deleted "sub_1") hmanaged)
    (.pass hruns
      (.cons ⟨listDesired_empty.symm, rfl⟩
        (.cons ⟨.refl _, rfl⟩ (.cons hperformed (.nil _)))))
    rfl rfl

omit [RFC3339] [Collation] in
/-- The same calls for a username without the prefix leave the user on the node. -/
theorem revoked_user_stays :
    letI := sampleClock
    letI := sampleCollation
    exists p p' : Panel, exists res : Result Classification,
      sampleStart.Fresh ∧ History (ε := Classification) (fun _ _ => True) sampleStart p ∧
      PanelStep p (.pass res none) p' ∧ res.aborted = false ∧ res.failed = 0 ∧
      p'.node.Has "alice" ∧ "alice" ∈ p'.node.created ∧ ¬ p'.table.Enabled "alice" := by
  let := sampleClock
  let := sampleCollation
  have hruns : Program.Runs (SyncNode { mode := .apply })
      ([⟨.ListDesired, .ok []⟩,
        ⟨.ListUsers, .ok ([⟨"alice", true, none, none⟩], "r2")⟩] :
          List (Event SyncCall (SyncReply Classification)))
      ({}, none) := .call (.call (.refl _))
  have hstays : PanelStep ⟨.empty, sampleNode "alice"⟩ (.pass {} none)
      ⟨.empty, sampleNode "alice"⟩ :=
    .pass hruns (.cons ⟨listDesired_empty.symm, rfl⟩ (.cons ⟨.refl _, rfl⟩ (.nil _)))
  have hhistory : History (ε := Classification) (fun _ _ => True) sampleStart
      ⟨.empty, sampleNode "alice"⟩ :=
    .step (.step (.step (.refl _) (sample_created (by decide)).left trivial)
      (sample_created (by decide)).right trivial) (sample_deleted "alice") trivial
  refine ⟨_, _, {}, ⟨rfl, rfl⟩, hhistory, hstays, rfl, rfl, ?_, ?_, ?_⟩
  · exact ⟨_, List.mem_singleton_self _, rfl⟩
  · exact List.mem_singleton_self _
  · intro henabled
    rcases henabled with ⟨u, hu, _⟩
    cases hu

end Sample

end Sync
end Telemux
