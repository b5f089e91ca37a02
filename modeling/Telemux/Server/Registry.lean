import Telemux.Server.Heartbeat

/-!
# The registry over runs

Where the nodes come from that the panel shows: every row was there at the start,
or it is what a node with the secret has reported of itself, however heartbeats
are lost, repeated, cut off or late, and whatever a failover undoes.
-/

namespace Telemux
namespace Server

open Interaction Net Reconcile Store

section Registry

variable {ε : Type}

/-- A node has reported this of itself, in the mode that its database was in. -/
def Reported (t : List (ClusterHappening ε)) (n : Node) : Prop :=
  exists i d inRecovery, .start i (.report d) ∈ t ∧
    .event i ⟨.IsInRecovery, .ok inRecovery⟩ ∈ t ∧ d.selfCode ≠ "" ∧
    n = d.node (Detect inRecovery)

theorem reported_append {t : List (ClusterHappening ε)} {n : Node} (h : Reported t n)
    (u : List (ClusterHappening ε)) : Reported (t ++ u) n := by
  rcases h with ⟨i, d, inRecovery, hstart, hmode, hcode, rfl⟩
  exact ⟨i, d, inRecovery, List.mem_append_left _ hstart, List.mem_append_left _ hmode,
    hcode, rfl⟩

structure RowReported (first : ClusterTables) (t : List (ClusterHappening ε))
    (row : Node) : Prop where
  reported : exists n, Reported t n ∧
    row = { n with enabled := row.enabled, lastSeenAt := row.lastSeenAt }
  seen : row.lastSeenAt.isSome = true
  enabled : row.enabled = false ->
    exists old, old ∈ first.nodes.rows ∧ old.code = row.code ∧ old.enabled = false

def RowSound (first : ClusterTables) (t : List (ClusterHappening ε)) (row : Node) : Prop :=
  row ∈ first.nodes.rows ∨ RowReported first t row

theorem rowSound_append {first : ClusterTables} {t : List (ClusterHappening ε)} {row : Node}
    (h : RowSound first t row) (u : List (ClusterHappening ε)) :
    RowSound first (t ++ u) row := by
  rcases h with hold | hnew
  · exact Or.inl hold
  · rcases hnew.reported with ⟨n, hn, hrow⟩
    exact Or.inr ⟨⟨n, reported_append hn u, hrow⟩, hnew.seen, hnew.enabled⟩

theorem rowSound_upserted {first : ClusterTables} {t : List (ClusterHappening ε)}
    {table : NodesTable} (h : forall row, row ∈ table.rows -> RowSound first t row)
    {n : Node} (hn : Reported t n) {now : Int} {row : Node}
    (hrow : row ∈ (UpsertNode table now n).rows) : RowSound first t row := by
  rcases mem_upsertNode hrow with hold | rfl | ⟨old, hold, hcode, rfl⟩
  · exact h row hold
  · refine Or.inr ⟨⟨n, hn, rfl⟩, rfl, ?_⟩
    intro hdisabled
    cases hdisabled
  · refine Or.inr ⟨⟨n, hn, ?_⟩, rfl, ?_⟩
    · unfold Node.updated
      rw [hcode]
    · intro hdisabled
      rcases h old hold with hfirst | hreported
      · exact ⟨old, hfirst, rfl, hdisabled⟩
      · exact hreported.enabled hdisabled

variable [Collation] [TimeJSON] [TimeMarshal]

variable {first : ClusterTables} {t : List (ClusterHappening ε)}
  {w : Interleaved (ClusterCall ε) (ClusterReply ε) Unit ClusterState}

theorem sent_reported (h : ClusterRuns first t w) {req : HeartbeatRequest}
    (hreq : req ∈ w.shared.sent) :
    exists d : ClusterDeps, req = d.heartbeat .Replica ∧ Reported t (d.node .Replica) := by
  refine Object.invariant
    (I := fun t s => forall req, req ∈ s.sent ->
      exists d : ClusterDeps, req = d.heartbeat .Replica ∧ Reported t (d.node .Replica))
    h ?_ ?_ ?_ ?_ req hreq
  · intro req hreq
    cases hreq
  · intro u w i job _ ih _ req hreq
    rcases ih req hreq with ⟨d, hd, hreported⟩
    exact ⟨d, hd, reported_append hreported _⟩
  · intro u w i c r s' _ ih hasked hans req hreq
    rcases answers_sent hans hreq with hold | rfl
    · rcases ih req hold with ⟨d, hd, hreported⟩
      exact ⟨d, hd, reported_append hreported _⟩
    · rcases hasked with ⟨job, next, hstart, hsteps⟩
      have howes : ClusterOwes job (eventsOf i u) (.Do req) :=
        Contract.owes_of_onHistory (job_owes job) hsteps
      cases job with
      | report d =>
          rcases howes with ⟨hd, hcode, hmode⟩
          exact ⟨d, hd, i, d, true, List.mem_append_left _ hstart,
            List.mem_append_left _ (mem_eventsOf.mp hmode), hcode, rfl⟩
      | nodes => exact howes.elim
      | receive d authorization raw broken => exact howes.elim
      | joinToken d authorization => exact howes.elim
      | join d tok => exact howes.elim
  · intro u w s' _ ih hmoves req hreq
    rcases hmoves with ⟨tables, _, rfl⟩
    rcases ih req hreq with ⟨d, hd, hreported⟩
    exact ⟨d, hd, reported_append hreported _⟩

theorem upsert_reported (h : ClusterRuns first t w) {i : Nat} {job : ClusterJob}
    (hstart : .start i job ∈ t) {n : Node}
    (howes : ClusterOwes job (eventsOf i t) (.UpsertNode n)) : Reported t n := by
  cases job with
  | report d =>
      rcases howes with ⟨rfl, hcode, hmode⟩
      exact ⟨i, d, false, hstart, mem_eventsOf.mp hmode, hcode, rfl⟩
  | receive d authorization raw broken =>
      rcases howes with ⟨hauthed, hread, _⟩
      rcases List.append_of_mem hstart with ⟨u, v, rfl⟩
      rcases Object.start_allowed h with ⟨w', hu, hstarts⟩
      rcases hstarts hauthed with ⟨req, hreq, _, hraw⟩
      rcases sent_reported hu hreq with ⟨d', rfl, hreported⟩
      have hpart : raw <+: (d'.heartbeat .Replica).body := by
        unfold Arrives at hraw
        split at hraw
        · exact hraw
        · exact hraw ▸ List.prefix_rfl
      rw [(readNode_part hpart hread).right]
      exact reported_append hreported _
  | nodes => exact howes.elim
  | joinToken d authorization => exact howes.elim
  | join d tok => exact howes.elim

theorem rows_sound (h : ClusterRuns first t w) {T : ClusterTables}
    (hT : T ∈ w.shared.versions) {row : Node} (hrow : row ∈ T.nodes.rows) :
    RowSound first t row := by
  refine Object.invariant
    (I := fun t s => forall T, T ∈ s.versions -> forall row, row ∈ T.nodes.rows ->
      RowSound first t row) h ?_ ?_ ?_ ?_ T hT row hrow
  · intro T hT row hrow
    rcases List.mem_singleton.mp hT with rfl
    exact Or.inl hrow
  · intro u w i job _ ih _ T hT row hrow
    exact rowSound_append (ih T hT row hrow) _
  · intro u w i c r s' hu ih hasked hans T hT row hrow
    rcases versions_answers hans hT with rfl | hbefore
    · have hnow : forall row, row ∈ w.shared.tables.nodes.rows -> RowSound first u row :=
        ih _ List.mem_cons_self
      rcases answers_tables hans with ⟨htables, _⟩ | ⟨n, now, rfl, rfl⟩ |
          ⟨token, ttl, _, _, tokens, _, rfl⟩ | ⟨token, now, _, rfl⟩
      · rw [htables] at hrow
        exact rowSound_append (hnow row hrow) _
      · rcases hasked with ⟨job, next, hstart, hsteps⟩
        have hn := upsert_reported hu hstart (Contract.owes_of_onHistory (job_owes job) hsteps)
        exact rowSound_append (rowSound_upserted hnow hn hrow) _
      · exact rowSound_append (hnow row hrow) _
      · exact rowSound_append (hnow row hrow) _
    · exact rowSound_append (ih T hbefore row hrow) _
  · intro u w s' _ ih hmoves T hT row hrow
    rcases hmoves with ⟨old, hold, rfl⟩
    have hbefore : T ∈ w.shared.versions := by
      rcases List.mem_cons.mp hT with rfl | hrest
      · exact List.mem_cons_of_mem _ hold
      · exact hrest
    exact rowSound_append (ih T hbefore row hrow) _

/--
However the programs of the cluster interleave: whatever nodes a response shows, no
two of them have one code, and each was a row at the start, or is what a node with
that code has reported of itself, be it past, and seen.
-/
theorem shown_reported (h : ClusterRuns first t w) {i code : Nat} {nodes : List Node}
    (hshown : .event i ⟨.Respond ⟨code, .nodes nodes⟩, ()⟩ ∈ t) :
    Distinct Node.code nodes ∧ forall row, row ∈ nodes -> RowSound first t row := by
  rcases List.append_of_mem hshown with ⟨u, v, rfl⟩
  rcases Object.event_asked h with ⟨_, job, next, _, _, hstart, hsteps, _⟩
  have howes : AnswerOwes job (eventsOf i u) ⟨code, .nodes nodes⟩ :=
    Contract.owes_of_onHistory (job_owes job) hsteps
  have hlisted := mem_eventsOf.mp (howes.nodes nodes rfl)
  rcases List.append_of_mem hlisted with ⟨u', v', rfl⟩
  have hlong : ClusterRuns first
      (u' ++ .event i ⟨.ListNodes, .ok nodes⟩ ::
        (v' ++ .event i ⟨.Respond ⟨code, .nodes nodes⟩, ()⟩ :: v)) w := by
    rwa [List.append_assoc, List.cons_append] at h
  rcases Object.event_asked hlong with ⟨w', _, _, s', hu', _, _, hans⟩
  rcases hans.left with ⟨T, hT, rfl⟩
  constructor
  · exact ((List.mergeSort_perm _ _).map Node.code).nodup_iff.mpr T.nodes.code_unique
  · intro row hrow
    have hsound := rows_sound hu' hT (mem_listNodes.mp hrow)
    rw [List.append_assoc]
    exact rowSound_append hsound _

end Registry

/-!
## A run

A replica reports itself, and the master shows it.
-/

def sampleNodes : NodesTable := UpsertNode .empty 0 (sampleReplica.node .Replica)

def sampleReport [Collation] [TimeMarshal] : List (ClusterHappening String) :=
  [.start 0 (.report sampleReplica),
    .event 0 ⟨.IsInRecovery, .ok true⟩,
    .event 0 ⟨.Do (sampleReplica.heartbeat .Replica), .ok 200⟩,
    .start 1 (.receive sampleMaster "Bearer s3cret" (sampleReplica.heartbeat .Replica).body
      false),
    .event 1 ⟨.UpsertNode (sampleReplica.node .Replica), .ok ()⟩,
    .event 1 ⟨.Respond ⟨200, .ok⟩, ()⟩,
    .start 2 .nodes,
    .event 2 ⟨.ListNodes, .ok (ListNodes sampleNodes)⟩,
    .event 2 ⟨.Respond ⟨200, .nodes (ListNodes sampleNodes)⟩, ()⟩]

theorem sampleReport_runs [Collation] [TimeJSON] [TimeMarshal] :
    exists w, ClusterRuns ⟨.empty, .empty⟩ sampleReport w := by
  have hcode : (clusterObject String).code
      (.receive sampleMaster "Bearer s3cret" (sampleReplica.heartbeat .Replica).body false) =
        register (sampleReplica.node .Replica) := by
    rw [code_receive]
    exact handleHeartbeat_whole (by decide) (by decide) false
  have harrives : (sampleReplica.heartbeat .Replica).arrives = some "Bearer s3cret" := by
    have hvalue : ClusterDeps.clusterSecret sampleReplica ≠ "" := by decide
    unfold HeartbeatRequest.arrives ClusterDeps.heartbeat
    dsimp only
    rw [if_neg hvalue]
    decide
  have hwhole : Arrives (sampleReplica.heartbeat .Replica).body
      (sampleReplica.heartbeat .Replica).body false := by
    unfold Arrives
    rw [if_neg Bool.false_ne_true]
  have hstart : ClusterRuns (ε := String) ⟨.empty, .empty⟩ [] _ := Object.runs_nil _ _
  have hreports := Object.runs_start hstart 0 (.report sampleReplica) rfl rfl trivial
  have hmode := Object.runs_event hreports 0 .IsInRecovery (.ok true) rfl rfl
  have hsent := Object.runs_event hmode 0 (.Do (sampleReplica.heartbeat .Replica)) (.ok 200) rfl
    (Or.inr ⟨Option.isSome_of_eq_some harrives, rfl⟩)
  have harrived := Object.runs_start hsent 1 _ hcode rfl
    (fun _ => ⟨_, List.mem_cons_self, harrives, hwhole⟩)
  have hupserted := Object.runs_event harrived 1 (.UpsertNode (sampleReplica.node .Replica))
    (.ok ()) rfl ⟨0, rfl⟩
  have hanswered := Object.runs_event hupserted 1 (.Respond ⟨200, .ok⟩) () rfl rfl
  have hasks := Object.runs_start hanswered 2 .nodes rfl rfl trivial
  have hlisted := Object.runs_event hasks 2 .ListNodes (.ok (ListNodes sampleNodes)) rfl
    ⟨⟨_, List.mem_cons_self, rfl⟩, rfl⟩
  exact ⟨_, Object.runs_event hlisted 2 (.Respond ⟨200, .nodes (ListNodes sampleNodes)⟩) () rfl
    rfl⟩

theorem sample_shown_reported :
    letI := sampleCollation
    letI : TimeJSON := ⟨fun _ => none⟩
    letI : TimeMarshal := ⟨fun _ => ""⟩
    exists w, ClusterRuns ⟨.empty, .empty⟩ sampleReport w ∧
      Distinct Node.code (ListNodes sampleNodes) ∧
      forall row, row ∈ ListNodes sampleNodes ->
        RowSound ⟨.empty, .empty⟩ sampleReport row := by
  let := sampleCollation
  let : TimeJSON := ⟨fun _ => none⟩
  let : TimeMarshal := ⟨fun _ => ""⟩
  rcases sampleReport_runs with ⟨w, h⟩
  have hshown : .event 2 ⟨.Respond ⟨200, .nodes (ListNodes sampleNodes)⟩, ()⟩ ∈
      sampleReport := by
    simp [sampleReport]
  exact ⟨w, h, shown_reported h hshown⟩

end Server
end Telemux
