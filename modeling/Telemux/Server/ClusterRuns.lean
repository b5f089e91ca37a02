import Telemux.Interaction.Interleaved
import Telemux.Server.Cluster

/-!
# Runs of a cluster

Any number of nodes report, and any number of requests are served, all at once.
They share the tables of the primary database and the heartbeats on their way.

A statement that is refused may have been carried out, and one that reads may read
what a replica had.  After a failover the tables are what they once were.  A
heartbeat arrives any number of times, late, or cut off, or never.
-/

namespace Telemux
namespace Server

open Interaction Net Store

/-!
## Headers
-/

/-- `httpguts.ValidHeaderFieldValue`. -/
def validHeaderValue (v : String) : Bool :=
  v.toList.all fun c => decide (c = '\t') || (decide (' ' ≤ c) && decide (c ≠ '\x7f'))

def isBlank (c : Char) : Bool := decide (c = ' ') || decide (c = '\t')

/-- The value of a header as it is read, without the blanks at its ends. -/
def trimBlanks (v : String) : String :=
  String.ofList ((v.toList.dropWhile isBlank).reverse.dropWhile isBlank).reverse

/-- What a heartbeat arrives with for `Authorization`, if it can be sent. -/
def HeartbeatRequest.arrives (req : HeartbeatRequest) : Option String :=
  match req.authorization with
  | none => some ""
  | some v => if validHeaderValue v then some (trimBlanks v) else none

/-!
## What is shared
-/

structure ClusterTables where
  nodes : NodesTable
  tokens : JoinTokensTable

structure ClusterState where
  tables : ClusterTables
  /-- The tables as they were before. -/
  past : List ClusterTables := []
  sent : List HeartbeatRequest := []

def ClusterState.write (s : ClusterState) (tables : ClusterTables) : ClusterState :=
  { s with tables := tables, past := s.tables :: s.past }

/-- The tables that some database of the cluster may have. -/
def ClusterState.versions (s : ClusterState) : List ClusterTables :=
  s.tables :: s.past

def ClusterState.upserted (s : ClusterState) (now : Int) (n : Node) : ClusterState :=
  s.write { s.tables with nodes := UpsertNode s.tables.nodes now n }

def ClusterState.consumed (s : ClusterState) (now : Int) (token : String) : ClusterState :=
  s.write { s.tables with tokens := (ConsumeJoinToken s.tables.tokens now token).2 }

/-- An `INSERT` of a token that is carried out. -/
def ClusterState.issues (s s' : ClusterState) (token : String) (ttl : Int) : Prop :=
  exists now tokens, CreateJoinToken s.tables.tokens now token ttl = some tokens ∧
    s' = s.write { s.tables with tokens := tokens }

def ClusterState.answers {ε : Type} [Collation] (s : ClusterState) :
    (c : ClusterCall ε) -> ClusterReply ε c -> ClusterState -> Prop
  | .IsInRecovery, _, s' => s' = s
  | .ListNodes, .ok nodes, s' =>
      (exists tables, tables ∈ s.versions ∧ nodes = ListNodes tables.nodes) ∧ s' = s
  | .ListNodes, .error _, s' => s' = s
  | .UpsertNode n, .ok _, s' => exists now, s' = s.upserted now n
  | .UpsertNode n, .error _, s' => s' = s ∨ exists now, s' = s.upserted now n
  | .CreateJoinToken token ttl, .ok _, s' => s.issues s' token ttl
  | .CreateJoinToken token ttl, .error _, s' => s' = s ∨ s.issues s' token ttl
  | .ConsumeJoinToken token, .ok true, s' =>
      exists now, (ConsumeJoinToken s.tables.tokens now token).1 = true ∧ s' = s.consumed now token
  | .ConsumeJoinToken token, .ok false, s' =>
      (exists now, (ConsumeJoinToken s.tables.tokens now token).1 = false) ∧ s' = s
  | .ConsumeJoinToken token, .error _, s' => s' = s ∨ exists now, s' = s.consumed now token
  | .Read, _, s' => s' = s
  | .Do req, _, s' =>
      s' = s ∨ req.arrives.isSome = true ∧ s' = { s with sent := s.sent ++ [req] }
  | .Respond _, _, s' => s' = s

/-!
## Who runs
-/

inductive ClusterJob where
  /-- A heartbeat of a node. -/
  | report (d : ClusterDeps)
  | nodes
  | receive (d : ClusterDeps) (authorization : String) (raw : Bytes) (broken : Bool)
  | joinToken (d : ClusterDeps) (authorization : String)
  | join (d : ClusterDeps) (tok : String)

def Arrives (body raw : Bytes) (broken : Bool) : Prop :=
  if broken then raw <+: body else raw = body

section System

variable {ε : Type} [Collation] [TimeJSON] [TimeMarshal]

def ClusterJob.code : ClusterJob -> ClusterProgram ε Unit
  | .report d => reportHeartbeat d
  | .nodes => handleNodes
  | .receive d authorization raw broken => handleHeartbeat d authorization raw broken
  | .joinToken d authorization => handleJoinToken d authorization
  | .join d tok => handleJoin d tok

/-- Anybody may send anything, but only the nodes know the secret. -/
def ClusterJob.starts (s : ClusterState) : ClusterJob -> Prop
  | .receive d authorization raw broken =>
      clusterAuthed d authorization = true ->
        exists req, req ∈ s.sent ∧ req.arrives = some authorization ∧
          Arrives req.body raw broken
  | _ => True

variable (ε) in
def clusterObject :
    Object ClusterJob (ClusterCall ε) (ClusterReply ε) Unit ClusterState where
  code := ClusterJob.code
  starts := ClusterJob.starts
  answers := ClusterState.answers
  -- A failover, to a database that has not seen the latest statements.
  moves s s' := exists tables, tables ∈ s.past ∧ s' = s.write tables

theorem code_receive (d : ClusterDeps) (authorization : String) (raw : Bytes)
    (broken : Bool) :
    (clusterObject ε).code (.receive d authorization raw broken) =
      handleHeartbeat d authorization raw broken := rfl

abbrev ClusterHappening (ε : Type) := Happening ClusterJob (ClusterCall ε) (ClusterReply ε)

abbrev ClusterEvent (ε : Type) := Event (ClusterCall ε) (ClusterReply ε)

abbrev ClusterRuns (tables : ClusterTables)
    (t : List (ClusterHappening ε))
    (w : Interleaved (ClusterCall ε) (ClusterReply ε) Unit ClusterState) : Prop :=
  (clusterObject ε).Runs { tables := tables } t w

end System

/-!
## What an answer does to the tables
-/

section Tables

variable {ε : Type} [Collation]

theorem answers_tables {s s' : ClusterState} {c : ClusterCall ε} {r : ClusterReply ε c}
    (h : s.answers c r s') :
    (s'.tables = s.tables ∧ s'.past = s.past) ∨
      (exists n now, c = .UpsertNode n ∧ s' = s.upserted now n) ∨
      (exists token ttl, c = .CreateJoinToken token ttl ∧ s.issues s' token ttl) ∨
      (exists token now, c = .ConsumeJoinToken token ∧ s' = s.consumed now token) := by
  cases c with
  | IsInRecovery =>
      rw [show s' = s from h]
      exact Or.inl ⟨rfl, rfl⟩
  | ListNodes =>
      cases r with
      | error err =>
          rw [show s' = s from h]
          exact Or.inl ⟨rfl, rfl⟩
      | ok nodes =>
          rw [h.right]
          exact Or.inl ⟨rfl, rfl⟩
  | UpsertNode n =>
      cases r with
      | error err =>
          rcases h with rfl | ⟨now, rfl⟩
          · exact Or.inl ⟨rfl, rfl⟩
          · exact Or.inr (Or.inl ⟨n, now, rfl, rfl⟩)
      | ok _ =>
          rcases h with ⟨now, rfl⟩
          exact Or.inr (Or.inl ⟨n, now, rfl, rfl⟩)
  | CreateJoinToken token ttl =>
      cases r with
      | error err =>
          rcases h with rfl | hissues
          · exact Or.inl ⟨rfl, rfl⟩
          · exact Or.inr (Or.inr (Or.inl ⟨token, ttl, rfl, hissues⟩))
      | ok _ => exact Or.inr (Or.inr (Or.inl ⟨token, ttl, rfl, h⟩))
  | ConsumeJoinToken token =>
      cases r with
      | error err =>
          rcases h with rfl | ⟨now, rfl⟩
          · exact Or.inl ⟨rfl, rfl⟩
          · exact Or.inr (Or.inr (Or.inr ⟨token, now, rfl, rfl⟩))
      | ok consumed =>
          cases consumed with
          | false =>
              rw [h.right]
              exact Or.inl ⟨rfl, rfl⟩
          | true =>
              rcases h with ⟨now, _, rfl⟩
              exact Or.inr (Or.inr (Or.inr ⟨token, now, rfl, rfl⟩))
  | Read =>
      rw [show s' = s from h]
      exact Or.inl ⟨rfl, rfl⟩
  | Do req =>
      rcases h with rfl | ⟨_, rfl⟩
      · exact Or.inl ⟨rfl, rfl⟩
      · exact Or.inl ⟨rfl, rfl⟩
  | Respond resp =>
      rw [show s' = s from h]
      exact Or.inl ⟨rfl, rfl⟩

theorem versions_answers {s s' : ClusterState} {c : ClusterCall ε} {r : ClusterReply ε c}
    (h : s.answers c r s') {T : ClusterTables} (hT : T ∈ s'.versions) :
    T = s'.tables ∨ T ∈ s.versions := by
  have hwrite : forall tables, T ∈ (s.write tables).versions ->
      T = (s.write tables).tables ∨ T ∈ s.versions := by
    intro tables hmem
    exact List.mem_cons.mp hmem
  rcases answers_tables h with ⟨htables, hpast⟩ | ⟨n, now, _, rfl⟩ |
      ⟨token, ttl, _, _, tokens, _, rfl⟩ | ⟨token, now, _, rfl⟩
  · refine Or.inr ?_
    unfold ClusterState.versions at hT ⊢
    rwa [htables, hpast] at hT
  · exact hwrite _ hT
  · exact hwrite _ hT
  · exact hwrite _ hT

theorem answers_sent {s s' : ClusterState} {c : ClusterCall ε} {r : ClusterReply ε c}
    (h : s.answers c r s') {req : HeartbeatRequest} (hreq : req ∈ s'.sent) :
    req ∈ s.sent ∨ c = .Do req := by
  cases c with
  | IsInRecovery => exact Or.inl ((show s' = s from h) ▸ hreq)
  | ListNodes =>
      cases r with
      | error err => exact Or.inl ((show s' = s from h) ▸ hreq)
      | ok nodes => exact Or.inl (h.right ▸ hreq)
  | UpsertNode n =>
      cases r with
      | error err =>
          rcases h with rfl | ⟨now, rfl⟩
          · exact Or.inl hreq
          · exact Or.inl hreq
      | ok _ =>
          rcases h with ⟨now, rfl⟩
          exact Or.inl hreq
  | CreateJoinToken token ttl =>
      cases r with
      | error err =>
          rcases h with rfl | ⟨now, tokens, _, rfl⟩
          · exact Or.inl hreq
          · exact Or.inl hreq
      | ok _ =>
          rcases h with ⟨now, tokens, _, rfl⟩
          exact Or.inl hreq
  | ConsumeJoinToken token =>
      cases r with
      | error err =>
          rcases h with rfl | ⟨now, rfl⟩
          · exact Or.inl hreq
          · exact Or.inl hreq
      | ok consumed =>
          cases consumed with
          | false => exact Or.inl (h.right ▸ hreq)
          | true =>
              rcases h with ⟨now, _, rfl⟩
              exact Or.inl hreq
  | Read => exact Or.inl ((show s' = s from h) ▸ hreq)
  | Do req' =>
      rcases h with rfl | ⟨_, rfl⟩
      · exact Or.inl hreq
      · rcases List.mem_append.mp hreq with hold | hnew
        · exact Or.inl hold
        · exact Or.inr (List.mem_singleton.mp hnew ▸ rfl)
  | Respond resp => exact Or.inl ((show s' = s from h) ▸ hreq)

end Tables

/-!
## What each program owes

By what it has done itself: which statements it may make, and with what it may answer.
-/

section Owes

variable {ε : Type} [TimeJSON] [TimeMarshal]

structure AnswerOwes (job : ClusterJob) (t : List (ClusterEvent ε))
    (resp : ClusterResponse ε) : Prop where
  nodes : forall ns, resp.body = .nodes ns -> ⟨.ListNodes, .ok ns⟩ ∈ t
  issued : forall tok expires command, resp.body = .joinToken tok expires command ->
    ⟨.CreateJoinToken tok joinTokenTTL, .ok ()⟩ ∈ t
  joined : forall d tok, job = .join d tok -> resp.code = 200 ->
    ⟨.ConsumeJoinToken tok, .ok true⟩ ∈ t

def ClusterJob.calls : ClusterJob -> List (ClusterEvent ε) -> ClusterCall ε -> Prop
  | .report _, _, .IsInRecovery => True
  | .report d, t, .UpsertNode n =>
      n = d.node .Master ∧ d.selfCode ≠ "" ∧ ⟨.IsInRecovery, .ok false⟩ ∈ t
  | .report d, t, .Do req =>
      req = d.heartbeat .Replica ∧ d.selfCode ≠ "" ∧ ⟨.IsInRecovery, .ok true⟩ ∈ t
  | .nodes, _, .ListNodes => True
  | .receive d authorization raw broken, _, .UpsertNode n =>
      clusterAuthed d authorization = true ∧ readNode raw broken = some n ∧ n.code ≠ ""
  | .joinToken d authorization, _, .Read => clusterAuthed d authorization = true
  | .joinToken d authorization, _, .CreateJoinToken _ ttl =>
      clusterAuthed d authorization = true ∧ ttl = joinTokenTTL
  | .join _ tok, _, .ConsumeJoinToken token => token = tok
  | _, _, _ => False

def ClusterOwes (job : ClusterJob) (t : List (ClusterEvent ε)) : ClusterCall ε -> Prop
  | .Respond resp => AnswerOwes job t resp
  | c => job.calls t c

abbrev KeepsOwing (job : ClusterJob) (p : ClusterProgram ε Unit)
    (t : List (ClusterEvent ε)) : Prop :=
  (Contract.onHistory (ClusterOwes job)).Meets p t fun _ _ => True

theorem done_owes {job : ClusterJob} {t : List (ClusterEvent ε)} :
    KeepsOwing job (.done ()) t := trivial

theorem answer_owes {job : ClusterJob} {t : List (ClusterEvent ε)} {code : Nat}
    {body : ClusterBody ε} (h : AnswerOwes job t ⟨code, body⟩) :
    KeepsOwing job (answer code body) t := by
  constructor
  · exact h
  · intro r t' _
    trivial

theorem refuse_owes {job : ClusterJob} {t : List (ClusterEvent ε)} {code : Nat}
    {err : ClusterError ε} (hcode : code ≠ 200) : KeepsOwing job (refuse code err) t := by
  apply answer_owes
  constructor
  · intro ns hbody
    cases hbody
  · intro tok expires command hbody
    cases hbody
  · intro d tok _ hsuccess
    exact absurd hsuccess hcode

theorem reportHeartbeat_owes (d : ClusterDeps) :
    KeepsOwing (ε := ε) (.report d) (reportHeartbeat d) [] := by
  unfold reportHeartbeat
  split
  · exact done_owes
  · rename_i hset
    have hcode : d.selfCode ≠ "" := fun hempty => hset (Or.inl hempty)
    constructor
    · trivial
    · intro r t ht
      cases ht
      cases r with
      | error err => exact done_owes
      | ok inRecovery =>
          cases inRecovery with
          | false =>
              constructor
              · exact ⟨rfl, hcode, List.mem_singleton_self _⟩
              · intro r t _
                trivial
          | true =>
              dsimp only
              rw [if_neg (by decide)]
              split
              · exact done_owes
              · constructor
                · exact ⟨rfl, hcode, List.mem_singleton_self _⟩
                · intro r t _
                  trivial

theorem handleNodes_owes : KeepsOwing (ε := ε) .nodes handleNodes [] := by
  constructor
  · trivial
  · intro r t ht
    cases ht
    cases r with
    | error err => exact refuse_owes (by decide)
    | ok nodes =>
        apply answer_owes
        constructor
        · intro ns hbody
          cases hbody
          exact List.mem_singleton_self _
        · intro tok expires command hbody
          cases hbody
        · intro d tok hjob
          cases hjob

theorem handleHeartbeat_owes (d : ClusterDeps) (authorization : String) (raw : Bytes)
    (broken : Bool) :
    KeepsOwing (ε := ε) (.receive d authorization raw broken)
      (handleHeartbeat d authorization raw broken) [] := by
  unfold handleHeartbeat
  split
  · exact refuse_owes (by decide)
  · rename_i hauthed
    have hauthed' : clusterAuthed d authorization = true := by simpa using hauthed
    split
    · exact refuse_owes (by decide)
    · rename_i n hread
      split
      · exact refuse_owes (by decide)
      · rename_i hcode
        constructor
        · exact ⟨hauthed', hread, hcode⟩
        · intro r t ht
          cases ht
          cases r with
          | error err => exact refuse_owes (by decide)
          | ok _ =>
              apply answer_owes
              constructor
              · intro ns hbody
                cases hbody
              · intro tok expires command hbody
                cases hbody
              · intro d tok hjob
                cases hjob

theorem handleJoinToken_owes (d : ClusterDeps) (authorization : String) :
    KeepsOwing (ε := ε) (.joinToken d authorization) (handleJoinToken d authorization) [] := by
  unfold handleJoinToken
  split
  · exact refuse_owes (by decide)
  · rename_i hauthed
    have hauthed' : clusterAuthed d authorization = true := by simpa using hauthed
    constructor
    · exact hauthed'
    · intro r t ht
      cases ht
      cases r with
      | error err => exact refuse_owes (by decide)
      | ok b =>
          constructor
          · exact ⟨hauthed', rfl⟩
          · intro r t ht
            cases ht
            cases r with
            | error err => exact refuse_owes (by decide)
            | ok _ =>
                apply answer_owes
                constructor
                · intro ns hbody
                  cases hbody
                · intro tok expires command hbody
                  cases hbody
                  simp
                · intro d tok hjob
                  cases hjob

theorem handleJoin_owes (d : ClusterDeps) (tok : String) :
    KeepsOwing (ε := ε) (.join d tok) (handleJoin d tok) [] := by
  constructor
  · rfl
  · intro r t ht
    cases ht
    cases r with
    | error err => exact refuse_owes (by decide)
    | ok consumed =>
        cases consumed with
        | false => exact refuse_owes (by decide)
        | true =>
            apply answer_owes
            constructor
            · intro ns hbody
              cases hbody
            · intro tok expires command hbody
              cases hbody
            · intro d' tok' hjob _
              cases hjob
              exact List.mem_singleton_self _

theorem job_owes [Collation] (job : ClusterJob) :
    KeepsOwing (ε := ε) job ((clusterObject ε).code job) [] := by
  cases job with
  | report d => exact reportHeartbeat_owes d
  | nodes => exact handleNodes_owes
  | receive d authorization raw broken => exact handleHeartbeat_owes d authorization raw broken
  | joinToken d authorization => exact handleJoinToken_owes d authorization
  | join d tok => exact handleJoin_owes d tok

theorem event_owes [Collation] {tables : ClusterTables} {t : List (ClusterHappening ε)}
    {w : Interleaved (ClusterCall ε) (ClusterReply ε) Unit ClusterState}
    (h : ClusterRuns tables t w) {i : Nat} {job : ClusterJob}
    {e : ClusterEvent ε} (hjob : .start i job ∈ t) (he : .event i e ∈ t) :
    exists u v, t = u ++ .event i e :: v ∧ ClusterOwes job (eventsOf i u) e.call :=
  Object.event_owed job_owes h hjob he

end Owes

def sampleMaster : ClusterDeps where
  clusterSecret := "s3cret"
  publicURL := "https://m1"
  selfCode := "m1"

end Server
end Telemux
