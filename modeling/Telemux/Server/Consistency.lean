import Telemux.Server.Serial
import Telemux.Sync.Account

/-!
# A settled daemon has its node in the target

When the last pass came out clean and nothing was written since it read the table, the
node is what the table asks for, if nobody else writes to it.
-/

namespace Telemux
namespace Server

open Interaction Net Store Sync TelemtSync

variable {ε γ : Type}

/-- The status of a pass in apply mode that has got through. -/
structure SyncStatus.Clean (st : SyncStatus ε) : Prop where
  mode : st.mode = some .apply
  error : st.error = none
  aborted : st.aborted = false
  failed : st.failed = 0

section Settled

variable [ClassifiedError ε] [RFC3339] [Collation]

theorem target_of_tells {opts : SyncOptions} {K : NodeContract ε γ} {config : γ -> UserConfig}
    (hsole : SoleNode K config) {start read : UsersTable × γ} {history : List (Atom ε)}
    {st : SyncStatus ε} (hrun : Run (AtomicStep opts K) start history read)
    (hclosed : Closed history) (htells : TellsLast opts history st) (hclean : st.Clean) :
    InTarget (ListDesired read.1) opts.massDelete.toOptions (config read.2).val := by
  rcases hclosed with rfl | ⟨before, res, err, rfl⟩
  · rw [show st = {} from htells] at hclean
    cases hclean.mode
  · rcases tellsLast_pass.mp htells with ⟨now, rfl⟩
    rcases hrun.last with ⟨p, _, hlast⟩
    cases hlast with
    | write hwrite =>
        cases hwrite with
        | action hstep => cases hstep
    | @pass table u _ _ g g' hruns hans =>
        have hreached := Contract.post_of_runs
          (syncNode_reached hsole (listDesired_distinct table) g) hruns hans
        exact hreached hclean.error hclean.aborted hclean.failed (Option.some.inj hclean.mode)

variable [JsonStream] [TimeJSON]

/--
In every run beside a node that nobody else writes to: while nobody has the mutex, every
commit has been read and the status is clean, the node is in the target of the table.
-/
theorem settled_in_target {opts : SyncOptions} {K : NodeContract ε γ} {config : γ -> UserConfig}
    (hK : Indifferent K) (hsole : SoleNode K config) {table : UsersTable} {g : γ}
    {t : List Label} {x : Site ε γ} (hrun : Run (SiteStep opts K) ⟨.started table, g⟩ t x)
    (hinside : Label.outside ∉ t) (hfree : x.daemon.shared.runMu = false)
    (hread : x.daemon.shared.listed = x.daemon.shared.commits)
    (hclean : x.daemon.shared.lastSync.Clean) :
    InTarget (ListDesired x.daemon.shared.table) opts.massDelete.toOptions
      (config x.node).val := by
  rcases recorded_of_run hrun with ⟨u, hrecorded, rfl⟩
  rcases explained_free hK hrecorded hfree with ⟨before, read, since, h⟩
  have hnone : since = [] := by
    apply List.eq_nil_iff_forall_not_mem.mpr
    intro a ha
    have hout : a = Atom.outside := h.quiet hread a ha
    subst hout
    apply hinside
    apply outside_of_writes hrecorded
    rw [← h.wrote]
    exact List.mem_filter.mpr ⟨List.mem_append_right _ ha, rfl⟩
  have hwrites := h.writes
  rw [hnone] at hwrites
  rw [hwrites.stays, ← read_node h rfl]
  exact target_of_tells hsole h.leads (h.closed rfl) (h.silent rfl) hclean

end Settled

section Sample

def leftover : PanelNode := ⟨⟨[⟨"sub_9", true, none, none⟩], by decide⟩, []⟩

def settledOps : List SyncOp := [sampleCreate, deleteOp "sub_9"]

def settledNode : PanelNode :=
  ⟨(leftover.config.applyOp sampleCreate).applyOp (deleteOp "sub_9"), ["sub_a"]⟩

/-- A pass creates the one user and deletes the other. -/
theorem settled_in_target_sample :
    letI := sampleClock
    letI := sampleCollation
    InTarget (ListDesired sampleTable) ({ mode := .apply } : SyncOptions).massDelete.toOptions
      settledNode.config.val := by
  let := sampleClock
  let := sampleCollation
  let := sampleBodies
  let := sampleTimes
  let opts : SyncOptions := { mode := .apply }
  let K := panelNode Classification
  let d : Daemon Classification := .started sampleTable
  let locked : Shared Classification := { sampleShared with runMu := true }
  let created : PanelNode := ⟨leftover.config.applyOp sampleCreate, ["sub_a"]⟩
  let des : List DesiredUser := [⟨"sub_a", "ee", none, none⟩]
  let remote : List RemoteUser := [⟨"sub_9", true, none, none⟩]
  let read : SyncEvent Classification := ⟨.ListDesired, .ok des⟩
  let listed : SyncEvent Classification := ⟨.ListUsers, .ok (remote, "r1")⟩
  let first : SyncEvent Classification := ⟨.ApplyOp sampleCreate "r1", .ok "r2"⟩
  let second : SyncEvent Classification := ⟨.ApplyOp (deleteOp "sub_9") "r2", .ok "r3"⟩
  have hstops : opts.stops des remote = false := by decide +kernel
  have hdiff : opts.diff des remote = settledOps := by decide +kernel
  have hloop : Program.Runs (applyLoop settledOps "r1" { ops := settledOps }) [first, second]
      ({ ops := settledOps, applied := 2 }, .finished) := .call (.call (.refl _))
  have hruns : Program.Runs (SyncNode opts) [read, listed, first, second]
      ({ ops := settledOps, applied := 2 }, none) :=
    .call (attempts_finished hstops rfl hdiff hloop _ _ _)
  have hcreate : Performed sampleCreate leftover created := by
    refine ⟨rfl, ?_, rfl⟩
    intro _ hhas
    rcases hhas with ⟨_, hmem, hname⟩
    cases List.mem_singleton.mp hmem
    exact absurd hname (by decide)
  have hdelete : Performed (deleteOp "sub_9") created settledNode := ⟨rfl, nofun, rfl⟩
  have hnode : (K (ListDesired sampleTable)).Answered leftover [read, listed, first, second]
      settledNode :=
    .cons ⟨listDesired_sampleTable.symm, rfl⟩
      (.cons ⟨.refl _, rfl⟩ (.cons hcreate (.cons hdelete (.nil _))))
  have hshared : forall e, e ∈ [read, listed, first, second] ->
      locked.answers (.Sync e.call) e.reply locked := by
    simp only [List.forall_mem_cons]
    refine ⟨⟨?_, rfl⟩, rfl, rfl, rfl, List.forall_mem_nil _⟩
    intro des hdes
    cases hdes
    exact listDesired_sampleTable.symm
  rcases passing_whole (d := d) (j := 0) rfl rfl hruns hshared hnode 7 with
    ⟨_, _, hrun, hinside⟩
  exact settled_in_target panelNode_indifferent panelNode_sole hrun hinside rfl rfl
    ⟨rfl, rfl, rfl, rfl⟩

end Sample

end Server
end Telemux
