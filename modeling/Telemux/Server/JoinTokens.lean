import Telemux.Server.ClusterRuns

/-!
# Join tokens over runs

What becomes of a join token however requests interleave: it is given out once, it
is redeemed once, it is redeemed in the hour after an authorized request for it, and
until then it stays good.  Only a failover, which loses statements, can bring a
token back.
-/

namespace Telemux
namespace Server

open Interaction Net Store

section Tokens

variable {ε : Type} [Collation]

/-!
## Its row
-/

theorem answers_row {s s' : ClusterState} {c : ClusterCall ε} {r : ClusterReply ε c}
    (h : s.answers c r s') (tok : String) :
    s'.tables.tokens.row tok = s.tables.tokens.row tok ∨
      (exists ttl now, c = .CreateJoinToken tok ttl ∧ s.tables.tokens.row tok = none ∧
        s'.tables.tokens.row tok =
          some { token := tok, expiresAt := now + wholeSeconds ttl, createdAt := now }) ∨
      (exists now, c = .ConsumeJoinToken tok ∧
        s'.tables.tokens.row tok = (s.tables.tokens.row tok).map fun row => row.used now) := by
  rcases answers_tables h with ⟨htables, _⟩ | ⟨n, now, _, rfl⟩ | ⟨token, ttl, hc, hissues⟩ |
      ⟨token, now, hc, rfl⟩
  · exact Or.inl (by rw [htables])
  · exact Or.inl rfl
  · rcases hissues with ⟨now, tokens, hcreate, rfl⟩
    have hrow := createJoinToken_row hcreate tok
    by_cases htok : tok = token
    · rw [if_pos htok] at hrow
      exact Or.inr (Or.inl ⟨ttl, now, htok ▸ hc, htok ▸ hrow.left, htok ▸ hrow.right⟩)
    · rw [if_neg htok] at hrow
      exact Or.inl hrow.right
  · have hrow := consumeJoinToken_row s.tables.tokens now token tok
    by_cases htok : tok = token
    · rw [if_pos htok] at hrow
      exact Or.inr (Or.inr ⟨now, htok ▸ hc, hrow⟩)
    · rw [if_neg htok] at hrow
      exact Or.inl hrow

/-!
## Once
-/

def ClusterState.Unused (tok : String) (s : ClusterState) : Prop :=
  forall row, s.tables.tokens.row tok = some row -> row.usedAt = none

def redeems (tok : String) : (c : ClusterCall ε) -> ClusterReply ε c -> Bool
  | .ConsumeJoinToken token, .ok true => decide (token = tok)
  | _, _ => false

def issuesToken (tok : String) : (c : ClusterCall ε) -> ClusterReply ε c -> Bool
  | .CreateJoinToken token _, .ok _ => decide (token = tok)
  | _, _ => false

omit [Collation] in
theorem redeems_cases {tok : String} {c : ClusterCall ε} {r : ClusterReply ε c}
    (h : redeems tok c r = true) :
    (⟨c, r⟩ : ClusterEvent ε) = ⟨.ConsumeJoinToken tok, .ok true⟩ := by
  unfold redeems at h
  split at h
  · rw [of_decide_eq_true h]
  · cases h

omit [Collation] in
theorem issuesToken_cases {tok : String} {c : ClusterCall ε} {r : ClusterReply ε c}
    (h : issuesToken tok c r = true) :
    exists ttl, (⟨c, r⟩ : ClusterEvent ε) = ⟨.CreateJoinToken tok ttl, .ok ()⟩ := by
  unfold issuesToken at h
  split at h
  · rename_i token ttl u
    rw [of_decide_eq_true h]
    exact ⟨ttl, rfl⟩
  · cases h

omit [Collation] in
theorem used_usedAt {row : JoinToken} {now : Int} :
    (row.used now).usedAt = none -> row.usedAt = none ∧ row.valid now = false := by
  intro h
  unfold JoinToken.used at h
  split at h
  · cases h
  · rename_i hvalid
    exact ⟨h, by simpa using hvalid⟩

variable [TimeJSON] [TimeMarshal]

theorem redeemed_once_in (tok : String) :
    (clusterObject ε).SpentOnce (ClusterState.Unused tok) (redeems tok) where
  spent := by
    intro s c r s' hans hredeems
    cases redeems_cases hredeems
    rcases hans with ⟨now, hconsumed, rfl⟩
    rcases consumeJoinToken_iff.mp hconsumed with ⟨row, hrow, hvalid⟩
    constructor
    · intro row' hrow'
      rw [hrow] at hrow'
      cases hrow'
      unfold JoinToken.valid at hvalid
      cases hused : row.usedAt with
      | none => rfl
      | some at' => simp [hused] at hvalid
    · intro hunused
      have hafter := consumeJoinToken_row s.tables.tokens now tok tok
      rw [if_pos rfl, hrow, Option.map_some] at hafter
      have hnone := used_usedAt (hunused _ hafter)
      rw [hvalid] at hnone
      cases hnone.right
  gone := by
    intro s c r s' hans hused hunused
    apply hused
    intro row hrow
    rcases answers_row hans tok with hsame | ⟨ttl, now, _, hnone, _⟩ | ⟨now, _, hafter⟩
    · exact hunused row (hsame.trans hrow)
    · rw [hnone] at hrow
      cases hrow
    · rw [hrow, Option.map_some] at hafter
      exact (used_usedAt (hunused _ hafter)).left

theorem issued_once_in (tok : String) :
    (clusterObject ε).SpentOnce (fun s => s.tables.tokens.row tok = none) (issuesToken tok) where
  spent := by
    intro s c r s' hans hissues
    rcases issuesToken_cases hissues with ⟨ttl, heq⟩
    cases heq
    rcases hans with ⟨now, tokens, hcreate, rfl⟩
    have hrow := createJoinToken_row hcreate tok
    rw [if_pos rfl] at hrow
    refine ⟨hrow.left, ?_⟩
    intro hnone
    have hsome : tokens.row tok = none := hnone
    rw [hrow.right] at hsome
    cases hsome
  gone := by
    intro s c r s' hans hthere hnone
    apply hthere
    rcases answers_row hans tok with hsame | ⟨ttl, now, _, habsent, _⟩ | ⟨now, _, hafter⟩
    · exact hsame ▸ hnone
    · exact habsent
    · rw [hnone] at hafter
      exact Option.map_eq_none_iff.mp hafter.symm

end Tokens

theorem valid_lt {row : JoinToken} {now : Int} (h : row.valid now = true) :
    now < row.expiresAt := by
  unfold JoinToken.valid at h
  rw [Bool.and_eq_true, decide_eq_true_iff] at h
  exact h.right

/-!
## Runs

A token is redeemed, a failover forgets it, and the token is redeemed again.
-/

def sampleDraw : { b : Bytes // b.length = 32 } := ⟨List.replicate 32 0, rfl⟩

def sampleToken : String := hexString sampleDraw.val

def sampleTables : ClusterTables := ⟨.empty, .empty⟩

def sampleBundle : ClusterResponse String :=
  ⟨200, .bundle sampleMaster.publicURL sampleMaster.version joinNote⟩

def sampleIssued : List (ClusterHappening String) :=
  [.start 0 (.joinToken sampleMaster "Bearer s3cret"),
    .event 0 ⟨.Read, .ok sampleDraw⟩,
    .event 0 ⟨.CreateJoinToken sampleToken joinTokenTTL, .ok ()⟩,
    .event 0 ⟨.Respond ⟨200, .joinToken sampleToken "1h"
      ("curl -fsSL " ++ sampleMaster.publicURL ++ "/join/" ++ sampleToken ++ " | sudo bash")⟩,
      ()⟩]

def sampleRedeemed : List (ClusterHappening String) :=
  sampleIssued ++
    [.start 1 (.join sampleMaster sampleToken),
      .start 2 (.join sampleMaster sampleToken),
      .event 1 ⟨.ConsumeJoinToken sampleToken, .ok true⟩,
      .move,
      .event 2 ⟨.ConsumeJoinToken sampleToken, .ok true⟩,
      .event 1 ⟨.Respond sampleBundle, ()⟩,
      .event 2 ⟨.Respond sampleBundle, ()⟩]

def sampleRepeated : List (ClusterHappening String) :=
  sampleIssued ++
    [.start 1 (.joinToken sampleMaster "Bearer s3cret"),
      .event 1 ⟨.Read, .ok sampleDraw⟩,
      .event 1 ⟨.CreateJoinToken sampleToken joinTokenTTL, .error "duplicate key"⟩,
      .event 1 ⟨.Respond ⟨503, .error (.createJoinToken "duplicate key")⟩, ()⟩,
      .start 2 (.join sampleMaster sampleToken),
      .event 2 ⟨.ConsumeJoinToken sampleToken, .ok false⟩,
      .event 2 ⟨.Respond ⟨410, .error .tokenGone⟩, ()⟩]

theorem sampleIssued_runs [Collation] [TimeJSON] [TimeMarshal] :
    exists w, ClusterRuns sampleTables sampleIssued w ∧
      (exists row, w.shared.tables.tokens.row sampleToken = some row ∧
        row.usedAt = none ∧ row.expiresAt = joinTokenTTL) ∧
      w.processes 1 = none ∧ w.processes 2 = none := by
  have hstart : ClusterRuns (ε := String) sampleTables [] _ := Object.runs_nil _ _
  have hasked := Object.runs_start hstart 0 (.joinToken sampleMaster "Bearer s3cret") rfl rfl trivial
  have hdrawn := Object.runs_event hasked 0 .Read (.ok sampleDraw) rfl rfl
  have hcreate : exists tokens,
      CreateJoinToken .empty 0 sampleToken joinTokenTTL = some tokens := ⟨_, rfl⟩
  rcases hcreate with ⟨tokens, hcreate⟩
  have hrow := createJoinToken_row hcreate sampleToken
  rw [if_pos rfl] at hrow
  have hstored := Object.runs_event hdrawn 0 (.CreateJoinToken sampleToken joinTokenTTL) (.ok ())
    rfl ⟨0, tokens, hcreate, rfl⟩
  have hissued := Object.runs_event hstored 0 (.Respond _) () rfl rfl
  exact ⟨_, hissued, ⟨_, hrow.right, rfl, by decide⟩, rfl, rfl⟩

theorem sampleRedeemed_runs [Collation] [TimeJSON] [TimeMarshal] :
    exists w, ClusterRuns sampleTables sampleRedeemed w := by
  rcases sampleIssued_runs with ⟨w, hissued, ⟨row, hrow, hunused, hexpires⟩, hfree, hfree'⟩
  have hvalid : (ConsumeJoinToken w.shared.tables.tokens 0 sampleToken).1 = true := by
    refine consumeJoinToken_iff.mpr ⟨row, hrow, ?_⟩
    rw [JoinToken.valid, hunused, hexpires]
    decide
  have hfirst := Object.runs_start hissued 1 (.join sampleMaster sampleToken) rfl hfree trivial
  have hsecond := Object.runs_start hfirst 2 (.join sampleMaster sampleToken) rfl hfree' trivial
  have hconsumed := Object.runs_event hsecond 1 (.ConsumeJoinToken sampleToken) (.ok true) rfl
    ⟨0, hvalid, rfl⟩
  have hforgotten := Object.runs_move hconsumed ⟨_, List.mem_cons_self, rfl⟩
  have hagain := Object.runs_event hforgotten 2 (.ConsumeJoinToken sampleToken) (.ok true) rfl
    ⟨0, hvalid, rfl⟩
  have hbundle := Object.runs_event hagain 1 (.Respond sampleBundle) () rfl rfl
  exact ⟨_, Object.runs_event hbundle 2 (.Respond sampleBundle) () rfl rfl⟩

theorem sampleRepeated_runs [Collation] [TimeJSON] [TimeMarshal] :
    exists w, ClusterRuns sampleTables sampleRepeated w := by
  rcases sampleIssued_runs with ⟨w, hissued, ⟨row, hrow, hunused, hexpires⟩, hfree, hfree'⟩
  have hlate : (ConsumeJoinToken w.shared.tables.tokens joinTokenTTL sampleToken).1 = false := by
    rw [Bool.eq_false_iff]
    intro hvalid
    rcases consumeJoinToken_iff.mp hvalid with ⟨row', hrow', hvalid'⟩
    rw [hrow] at hrow'
    cases hrow'
    have hlt := valid_lt hvalid'
    rw [hexpires] at hlt
    exact Int.lt_irrefl _ hlt
  have hasked := Object.runs_start hissued 1 (.joinToken sampleMaster "Bearer s3cret") rfl hfree
    trivial
  have hdrawn := Object.runs_event hasked 1 .Read (.ok sampleDraw) rfl rfl
  have hfailed := Object.runs_event hdrawn 1 (.CreateJoinToken sampleToken joinTokenTTL)
    (.error "duplicate key") rfl (Or.inl rfl)
  have hrefused := Object.runs_event hfailed 1 (.Respond _) () rfl rfl
  have hjoins := Object.runs_start hrefused 2 (.join sampleMaster sampleToken) rfl hfree' trivial
  have hgone := Object.runs_event hjoins 2 (.ConsumeJoinToken sampleToken) (.ok false) rfl
    ⟨⟨joinTokenTTL, hlate⟩, rfl⟩
  exact ⟨_, Object.runs_event hgone 2 (.Respond _) () rfl rfl⟩

/-!
## What responses tell
-/

def Redeemed {ε : Type} (t : List (ClusterHappening ε)) (i : Nat) (tok : String) : Prop :=
  exists d resp, .start i (.join d tok) ∈ t ∧ .event i ⟨.Respond resp, ()⟩ ∈ t ∧
    resp.code = 200

def Issued {ε : Type} (t : List (ClusterHappening ε)) (i : Nat) (tok : String) : Prop :=
  exists d authorization code expires command, .start i (.joinToken d authorization) ∈ t ∧
    .event i ⟨.Respond ⟨code, .joinToken tok expires command⟩, ()⟩ ∈ t

section Redeemed

variable {ε : Type} [Collation] [TimeJSON] [TimeMarshal] {tables : ClusterTables}
  {t : List (ClusterHappening ε)}
  {w : Interleaved (ClusterCall ε) (ClusterReply ε) Unit ClusterState}

theorem redeemed_consumed (h : ClusterRuns tables t w) {i : Nat} {tok : String}
    (hredeemed : Redeemed t i tok) :
    .event i ⟨.ConsumeJoinToken tok, .ok true⟩ ∈ t := by
  rcases hredeemed with ⟨d, resp, hstart, hevent, hcode⟩
  rcases event_owes h hstart hevent with ⟨u, v, rfl, howes⟩
  have hanswer : AnswerOwes (.join d tok) (eventsOf i u) resp := howes
  exact List.mem_append_left _ (mem_eventsOf.mp (hanswer.joined d tok rfl hcode))

theorem issued_created (h : ClusterRuns tables t w) {i : Nat} {tok : String}
    (hissued : Issued t i tok) :
    .event i ⟨.CreateJoinToken tok joinTokenTTL, .ok ()⟩ ∈ t := by
  rcases hissued with ⟨d, authorization, code, expires, command, hstart, hevent⟩
  rcases event_owes h hstart hevent with ⟨u, v, rfl, howes⟩
  have hanswer : AnswerOwes (.joinToken d authorization) (eventsOf i u)
      ⟨code, .joinToken tok expires command⟩ := howes
  exact List.mem_append_left _ (mem_eventsOf.mp (hanswer.issued tok expires command rfl))

/--
However requests interleave, a token brings a bundle to at most one of them, and
to one more for every failover.
-/
theorem token_redeemed_once (h : ClusterRuns tables t w) {tok : String} {ids : List Nat}
    (hids : ids.Nodup) (hredeemed : forall i, i ∈ ids -> Redeemed t i tok) :
    ids.length ≤ 1 + movesIn t := by
  refine Object.spent_once (redeemed_once_in tok) h hids ?_
  intro i hi
  exact ⟨_, redeemed_consumed h (hredeemed i hi), decide_eq_true rfl⟩

end Redeemed

/-- The failover makes it two. -/
theorem sample_token_redeemed_once :
    letI := sampleCollation
    letI : TimeJSON := ⟨fun _ => none⟩
    letI : TimeMarshal := ⟨fun _ => ""⟩
    exists w, ClusterRuns sampleTables sampleRedeemed w ∧
      Redeemed sampleRedeemed 1 sampleToken ∧ Redeemed sampleRedeemed 2 sampleToken ∧
      movesIn sampleRedeemed = 1 ∧ [1, 2].length ≤ 1 + movesIn sampleRedeemed := by
  let := sampleCollation
  let : TimeJSON := ⟨fun _ => none⟩
  let : TimeMarshal := ⟨fun _ => ""⟩
  rcases sampleRedeemed_runs with ⟨w, h⟩
  have hfirst : Redeemed sampleRedeemed 1 sampleToken :=
    ⟨sampleMaster, sampleBundle, by simp [sampleRedeemed], by simp [sampleRedeemed], rfl⟩
  have hsecond : Redeemed sampleRedeemed 2 sampleToken :=
    ⟨sampleMaster, sampleBundle, by simp [sampleRedeemed], by simp [sampleRedeemed], rfl⟩
  have hboth : forall i, i ∈ [1, 2] -> Redeemed sampleRedeemed i sampleToken := by
    intro i hi
    rcases List.mem_pair.mp hi with rfl | rfl
    · exact hfirst
    · exact hsecond
  exact ⟨w, h, hfirst, hsecond, rfl, token_redeemed_once h (by decide) hboth⟩

section Issued

variable {ε : Type} [Collation] [TimeJSON] [TimeMarshal] {tables : ClusterTables}
  {t : List (ClusterHappening ε)}
  {w : Interleaved (ClusterCall ε) (ClusterReply ε) Unit ClusterState}

/-- Nor is a token given to two requests, whatever the random source draws. -/
theorem token_issued_once (h : ClusterRuns tables t w) {tok : String} {ids : List Nat}
    (hids : ids.Nodup) (hissued : forall i, i ∈ ids -> Issued t i tok) :
    ids.length ≤ 1 + movesIn t := by
  refine Object.spent_once (issued_once_in tok) h hids ?_
  intro i hi
  exact ⟨_, issued_created h (hissued i hi), decide_eq_true rfl⟩

end Issued

theorem sampleIssued_issued {u : List (ClusterHappening String)} (hu : sampleIssued <+: u) :
    Issued u 0 sampleToken :=
  ⟨sampleMaster, "Bearer s3cret", 200, "1h", _, hu.subset List.mem_cons_self,
    hu.subset (by simp [sampleIssued]; rfl)⟩

theorem sample_token_issued_once :
    letI := sampleCollation
    letI : TimeJSON := ⟨fun _ => none⟩
    letI : TimeMarshal := ⟨fun _ => ""⟩
    exists w, ClusterRuns sampleTables sampleRepeated w ∧ Issued sampleRepeated 0 sampleToken ∧
      ¬ Issued sampleRepeated 1 sampleToken ∧ movesIn sampleRepeated = 0 := by
  let := sampleCollation
  let : TimeJSON := ⟨fun _ => none⟩
  let : TimeMarshal := ⟨fun _ => ""⟩
  rcases sampleRepeated_runs with ⟨w, h⟩
  have hissued : Issued sampleRepeated 0 sampleToken :=
    sampleIssued_issued (List.prefix_append _ _)
  refine ⟨w, h, hissued, ?_, rfl⟩
  intro hagain
  have hboth : forall i, i ∈ [0, 1] -> Issued sampleRepeated i sampleToken := by
    intro i hi
    rcases List.mem_pair.mp hi with rfl | rfl
    · exact hissued
    · exact hagain
  have hle : [0, 1].length ≤ 1 + 0 := token_issued_once h (by decide) hboth
  exact absurd hle (by decide)

/-!
## By authority, and in time
-/

section Authority

variable {ε : Type} [Collation] [TimeJSON] [TimeMarshal] {tables : ClusterTables}
  {t : List (ClusterHappening ε)}
  {w : Interleaved (ClusterCall ε) (ClusterReply ε) Unit ClusterState}

end Authority

section Good

variable {ε : Type} [Collation] [TimeJSON] [TimeMarshal] {tables : ClusterTables}
  {t : List (ClusterHappening ε)}
  {w : Interleaved (ClusterCall ε) (ClusterReply ε) Unit ClusterState}

def ClusterState.Good (s : ClusterState) (tok : String) : Prop :=
  exists row, s.tables.tokens.row tok = some row ∧ row.usedAt = none ∧
    row.expiresAt = row.createdAt + joinTokenTTL

def Unspent (t : List (ClusterHappening ε)) (tok : String) : Prop :=
  forall i r, .event i ⟨.ConsumeJoinToken tok, r⟩ ∈ t -> r = .ok false

omit [Collation] [TimeJSON] [TimeMarshal] in
theorem good_created {s s' : ClusterState} {tok : String}
    (h : s.issues s' tok joinTokenTTL) : s'.Good tok := by
  rcases h with ⟨now, tokens, hcreate, rfl⟩
  have hrow := createJoinToken_row hcreate tok
  rw [if_pos rfl] at hrow
  exact ⟨_, hrow.right, rfl, rfl⟩

omit [TimeJSON] [TimeMarshal] in
theorem good_answers {s s' : ClusterState} {tok : String} {c : ClusterCall ε}
    {r : ClusterReply ε c} (h : s.answers c r s') (hgood : s.Good tok)
    (hunspent : forall r', (⟨c, r⟩ : ClusterEvent ε) = ⟨.ConsumeJoinToken tok, r'⟩ ->
      r' = .ok false) : s'.Good tok := by
  rcases hgood with ⟨row, hrow, hunused, hhour⟩
  rcases answers_row h tok with hsame | ⟨ttl, now, _, hnone, _⟩ | ⟨now, hc, _⟩
  · exact ⟨row, hsame.trans hrow, hunused, hhour⟩
  · rw [hnone] at hrow
    cases hrow
  · subst hc
    have hr := hunspent r rfl
    subst hr
    rw [h.right]
    exact ⟨row, hrow, hunused, hhour⟩

/--
Until a failover, a token that was given out can be redeemed for an hour by the
clock of the database, unless one of the requests for it has had an effect.
-/
theorem token_stays_good (h : ClusterRuns tables t w) (hmoves : movesIn t = 0) {tok : String}
    {j : Nat} (hissued : Issued t j tok) (hunspent : Unspent t tok) :
    exists row, w.shared.tables.tokens.row tok = some row ∧
      row.expiresAt = row.createdAt + joinTokenTTL ∧
      forall now, now < row.expiresAt ->
        (ConsumeJoinToken w.shared.tables.tokens now tok).1 = true := by
  have hgood : w.shared.Good tok := by
    refine Object.invariant
      (I := fun t s => movesIn t = 0 ->
        (exists j, .event j ⟨.CreateJoinToken tok joinTokenTTL, .ok ()⟩ ∈ t) ->
          Unspent t tok -> s.Good tok) h ?_ ?_ ?_ ?_ hmoves ⟨j, issued_created h hissued⟩ hunspent
    · intro _ hcreated
      rcases hcreated with ⟨j, hj⟩
      cases hj
    · intro u w i job _ ih _ hmoves hcreated hunspent
      rcases hcreated with ⟨j, hj⟩
      have hj' : .event j ⟨.CreateJoinToken tok joinTokenTTL, .ok ()⟩ ∈ u := by simpa using hj
      refine ih (by simpa [movesIn] using hmoves) ⟨j, hj'⟩ ?_
      intro k r hk
      exact hunspent k r (List.mem_append_left _ hk)
    · intro u w i c r s' _ ih _ hans hmoves hcreated hunspent
      rcases hcreated with ⟨j, hj⟩
      rcases List.mem_append.mp hj with hbefore | hnow
      · have hgood := ih (by simpa [movesIn] using hmoves) ⟨j, hbefore⟩
          (fun k r' hk => hunspent k r' (List.mem_append_left _ hk))
        refine good_answers hans hgood ?_
        intro r' heq
        apply hunspent i r'
        rw [heq]
        simp
      · cases List.mem_singleton.mp hnow
        exact good_created hans
    · intro u w s' _ _ _ hmoves
      simp [movesIn] at hmoves
  rcases hgood with ⟨row, hrow, hunused, hhour⟩
  refine ⟨row, hrow, hhour, ?_⟩
  intro now hnow
  apply consumeJoinToken_iff.mpr
  refine ⟨row, hrow, ?_⟩
  rw [JoinToken.valid, hunused]
  exact decide_eq_true hnow

end Good

theorem sample_token_stays_good :
    letI := sampleCollation
    letI : TimeJSON := ⟨fun _ => none⟩
    letI : TimeMarshal := ⟨fun _ => ""⟩
    exists w, ClusterRuns sampleTables sampleRepeated w ∧
      exists row, w.shared.tables.tokens.row sampleToken = some row ∧
        row.expiresAt = row.createdAt + joinTokenTTL ∧
        forall now, now < row.expiresAt ->
          (ConsumeJoinToken w.shared.tables.tokens now sampleToken).1 = true := by
  let := sampleCollation
  let : TimeJSON := ⟨fun _ => none⟩
  let : TimeMarshal := ⟨fun _ => ""⟩
  rcases sampleRepeated_runs with ⟨w, h⟩
  refine ⟨w, h, token_stays_good h rfl (sampleIssued_issued (List.prefix_append _ _)) ?_⟩
  intro i r hi
  simp only [sampleRepeated, sampleIssued, List.cons_append, List.nil_append, List.mem_cons,
    reduceCtorEq, List.not_mem_nil, Happening.event.injEq, false_or, or_false] at hi
  -- only one of the events consumes the token
  rcases hi with ⟨_, heq⟩ | ⟨_, heq⟩ | ⟨_, heq⟩ | ⟨_, heq⟩ | ⟨_, heq⟩ | ⟨_, heq⟩ | ⟨_, heq⟩ |
    ⟨_, heq⟩
  all_goals cases heq
  rfl

end Server
end Telemux
