import Telemux.Sync.FaithfulNode

/-!
# No stale write

The invariant of the system of SyncNode, node and other writers, and its two
uses: every request that takes effect finds the state it was made for, and a
call that returns leaves behind what its contract says.
-/

namespace Telemux
namespace Sync

open Interaction TelemtSync

variable {σ ε : Type} [ClassifiedError ε] [RFC3339]

/-!
## The invariant

Between two events of the program only other writers and late requests act, so
the log of the program's last event differs from the current one in the states
seen since.
-/

def Log.Later (log₀ log : Log σ) : Prop :=
  exists since, log₀.since ⊆ since ∧ log = { log₀ with since := since }

structure Sound (N : NodeModel σ ε) (opts : SyncOptions) (y : System σ ε) : Prop where
  left_meets : exists log₀, Log.Later log₀ y.log ∧
    (casContract N opts).Meets y.left log₀ fun out log => Returned N opts out.1 out.2 log
  node_seen : y.log.current ≠ none -> y.node ∈ y.log.since
  pending_call : forall p, y.pending = some p ->
    exists next, y.left = .call (.ApplyOp p.request.op p.request.ifMatch) next
  pending_performed : forall p s', y.pending = some p -> p.outcome = some (.performed s') ->
    s' ∈ y.log.since ∧
      exists s, N.Matches p.request.ifMatch s ∧ N.performs p.request.op s s'
  pending_refused : forall p err, y.pending = some p -> p.outcome = some (.refused err) ->
    exists s, s ∈ y.log.since ∧ N.refuses p.request.op p.request.ifMatch s err
  pending_owed : forall p, y.pending = some p ->
    casOwes N opts p.request.log (.ApplyOp p.request.op p.request.ifMatch)
  lost_owed : forall q, q ∈ y.lost -> casOwes N opts q.log (.ApplyOp q.op q.ifMatch)

omit [ClassifiedError ε] in
theorem casOwes_later {N : NodeModel σ ε} {opts : SyncOptions} {log₀ log : Log σ}
    {op : SyncOp} {ifMatch : String} (hlater : Log.Later log₀ log)
    (h : casOwes N opts log₀ (.ApplyOp op ifMatch)) :
    casOwes N opts log (.ApplyOp op ifMatch) := by
  rcases hlater with ⟨since, _, rfl⟩
  rcases h with ⟨des, base, now, h⟩
  exact ⟨des, base, now,
    { desired := h.desired
      listed := h.listed
      current := h.current
      computed := h.computed
      acknowledged := h.acknowledged
      revision := h.revision }⟩

theorem sound_initial (N : NodeModel σ ε) (opts : SyncOptions) (s : σ) :
    Sound N opts (initial (ε := ε) opts s) := by
  constructor
  · exact ⟨{}, ⟨[], fun _ h => h, rfl⟩, syncNode_casContract N opts {}⟩
  · intro h
    exact absurd rfl h
  · intro p hp
    cases hp
  · intro p s' hp
    cases hp
  · intro p err hp
    cases hp
  · intro p hp
    cases hp
  · intro q hq
    cases hq

section Steps

variable {N : NodeModel σ ε} {opts : SyncOptions} {y y' : System σ ε}

theorem sound_node (h : Sound N opts y) (s' : σ) :
    Sound N opts
      { y with node := s', log := { y.log with since := s' :: y.log.since } } := by
  rcases h.left_meets with ⟨log₀, ⟨since, hsub, hlog⟩, hmeets⟩
  constructor
  · refine ⟨log₀, ⟨s' :: y.log.since, ?_, ?_⟩, hmeets⟩
    · intro s hs
      rw [hlog]
      exact List.mem_cons_of_mem s' (hsub hs)
    · rw [hlog]
  · intro _
    exact List.mem_cons_self
  · exact h.pending_call
  · intro p s hp hout
    rcases h.pending_performed p s hp hout with ⟨hs, hperf⟩
    exact ⟨List.mem_cons_of_mem s' hs, hperf⟩
  · intro p err hp hout
    rcases h.pending_refused p err hp hout with ⟨s, hs, href⟩
    exact ⟨s, List.mem_cons_of_mem s' hs, href⟩
  · exact h.pending_owed
  · exact h.lost_owed

theorem sound_not_pending (h : Sound N opts y) {c : SyncCall}
    {next : SyncReply ε c ->
      Program SyncCall (SyncReply ε) (Result ε × Option (SyncError ε))}
    (hleft : y.left = .call c next) (hc : forall op ifMatch, c ≠ .ApplyOp op ifMatch) :
    y.pending = none := by
  cases hp : y.pending with
  | none => rfl
  | some p =>
      rcases h.pending_call p hp with ⟨next', hcall⟩
      rw [hleft] at hcall
      cases hcall
      exact absurd rfl (hc _ _)

theorem sound_reply {c : SyncCall} {r : SyncReply ε c} {log' : Log σ}
    {next : SyncReply ε c ->
      Program SyncCall (SyncReply ε) (Result ε × Option (SyncError ε))}
    {pending : Option (Pending σ ε)} {lost : List (Request σ)} (h : Sound N opts y)
    (hpending : pending = none) (hleft : y.left = .call c next)
    (hans : forall log₀, Log.Later log₀ y.log -> casOwes N opts log₀ c ->
      exists log₁, Log.Later log₁ log' ∧ casAnswers N log₀ c r log₁)
    (hseen : log'.current ≠ none -> y.node ∈ log'.since)
    (hlost : forall q, q ∈ lost -> casOwes N opts q.log (.ApplyOp q.op q.ifMatch)) :
    Sound N opts
      { y with left := next r, pending := pending, lost := lost, log := log' } := by
  subst hpending
  rcases h.left_meets with ⟨log₀, hlater, hmeets⟩
  rw [hleft] at hmeets
  rcases hans log₀ hlater hmeets.left with ⟨log₁, hlater₁, hstep⟩
  constructor
  · exact ⟨log₁, hlater₁, hmeets.right r log₁ hstep⟩
  · exact hseen
  · intro p hp
    cases hp
  · intro p s' hp
    cases hp
  · intro p err hp
    cases hp
  · intro p hp
    cases hp
  · exact hlost

omit [ClassifiedError ε] [RFC3339] in
theorem later_refl (log : Log σ) : Log.Later log log :=
  ⟨log.since, fun _ hs => hs, rfl⟩

theorem current_of_call (h : Sound N opts y) {op : SyncOp} {ifMatch : String}
    {next : Except ε String ->
      Program SyncCall (SyncReply ε) (Result ε × Option (SyncError ε))}
    (hleft : y.left = .call (.ApplyOp op ifMatch) next) : y.log.current ≠ none := by
  rcases h.left_meets with ⟨log₀, hlater, hmeets⟩
  rw [hleft] at hmeets
  rcases casOwes_later hlater hmeets.left with ⟨_, _, _, hup⟩
  rw [hup.current]
  simp

theorem sound_send (h : Sound N opts y) {op : SyncOp} {ifMatch : String}
    {next : Except ε String ->
      Program SyncCall (SyncReply ε) (Result ε × Option (SyncError ε))}
    (hleft : y.left = .call (.ApplyOp op ifMatch) next) :
    Sound N opts { y with pending := some { request := ⟨op, ifMatch, y.log⟩ } } := by
  rcases h.left_meets with ⟨log₀, hlater, hmeets⟩
  have howes : casOwes N opts y.log (.ApplyOp op ifMatch) := by
    rw [hleft] at hmeets
    exact casOwes_later hlater hmeets.left
  constructor
  · exact ⟨log₀, hlater, hmeets⟩
  · exact h.node_seen
  · intro p hp
    cases hp
    exact ⟨next, hleft⟩
  · intro p s' hp hout
    cases hp
    cases hout
  · intro p err hp hout
    cases hp
    cases hout
  · intro p hp
    cases hp
    exact howes
  · exact h.lost_owed

theorem sound_perform (h : Sound N opts y) {q : Request σ} {s' : σ}
    (hpending : y.pending = some { request := q }) (hmatches : N.Matches q.ifMatch y.node)
    (hperf : N.performs q.op y.node s') :
    Sound N opts
      { y with
        node := s'
        pending := some { request := q, outcome := some (.performed s') }
        log := { y.log with since := s' :: y.log.since } } := by
  have hnode := sound_node h s'
  constructor
  · exact hnode.left_meets
  · exact hnode.node_seen
  · intro p hp
    cases hp
    exact h.pending_call { request := q } hpending
  · intro p s hp hout
    cases hp
    cases hout
    exact ⟨List.mem_cons_self, y.node, hmatches, hperf⟩
  · intro p err hp hout
    cases hp
    cases hout
  · intro p hp
    cases hp
    exact h.pending_owed { request := q } hpending
  · exact h.lost_owed

theorem sound_refuse (h : Sound N opts y) {q : Request σ} {err : ε}
    (hpending : y.pending = some { request := q })
    (href : N.refuses q.op q.ifMatch y.node err) :
    Sound N opts
      { y with pending := some { request := q, outcome := some (.refused err) } } := by
  rcases h.pending_call _ hpending with ⟨next, hleft⟩
  constructor
  · exact h.left_meets
  · exact h.node_seen
  · intro p hp
    cases hp
    exact ⟨next, hleft⟩
  · intro p s hp hout
    cases hp
    cases hout
  · intro p err' hp hout
    cases hp
    cases hout
    exact ⟨y.node, h.node_seen (current_of_call h hleft), href⟩
  · intro p hp
    cases hp
    exact h.pending_owed { request := q } hpending
  · exact h.lost_owed

theorem sound_step {label : Option (Request σ)} (h : Sound N opts y)
    (hstep : Step N y label y') : Sound N opts y' := by
  cases hstep with
  | write s' => exact sound_node h s'
  | desired des hleft =>
      have hidle := sound_not_pending h hleft (by intro _ _ hc; cases hc)
      refine sound_reply h hidle hleft ?_ h.node_seen h.lost_owed
      intro log₀ hlater _
      rcases hlater with ⟨since, hsub, hlog⟩
      refine ⟨_, ?_, rfl⟩
      rw [hlog]
      exact ⟨since, hsub, rfl⟩
  | desiredFails err hleft =>
      have hidle := sound_not_pending h hleft (by intro _ _ hc; cases hc)
      refine sound_reply h hidle hleft ?_ h.node_seen h.lost_owed
      intro log₀ hlater _
      exact ⟨log₀, hlater, rfl⟩
  | list hleft =>
      have hidle := sound_not_pending h hleft (by intro _ _ hc; cases hc)
      refine sound_reply h hidle hleft ?_ (fun _ => List.mem_cons_self) h.lost_owed
      intro log₀ hlater _
      rcases hlater with ⟨since, _, hlog⟩
      refine ⟨_, ?_, y.node, rfl, rfl⟩
      rw [hlog]
      exact later_refl _
  | listFails err hleft =>
      have hidle := sound_not_pending h hleft (by intro _ _ hc; cases hc)
      refine sound_reply h hidle hleft ?_ h.node_seen h.lost_owed
      intro log₀ hlater _
      exact ⟨log₀, hlater, rfl⟩
  | send hleft _ => exact sound_send h hleft
  | perform s' hpending hmatches hperf => exact sound_perform h hpending hmatches hperf
  | refuse hpending href => exact sound_refuse h hpending href
  | success hleft hpending =>
      rename_i op ifMatch next q s'
      rcases h.pending_call _ hpending with ⟨next', hcall⟩
      rw [hleft] at hcall
      cases hcall
      rcases h.pending_performed _ s' hpending rfl with ⟨hs', s, hmatches, hperf⟩
      have hnode : y.node ∈ y.log.since := h.node_seen (current_of_call h hleft)
      refine sound_reply h rfl hleft ?_ (fun _ => hnode) h.lost_owed
      intro log₀ hlater _
      rcases hlater with ⟨since, hsub, hlog⟩
      rw [hlog] at hs' ⊢
      exact ⟨_, later_refl _, s, s', since, hsub, hs', hmatches, hperf, rfl, rfl⟩
  | refusal hleft hpending =>
      rename_i op ifMatch next q err
      rcases h.pending_call _ hpending with ⟨next', hcall⟩
      rw [hleft] at hcall
      cases hcall
      have href := h.pending_refused _ err hpending rfl
      refine sound_reply h rfl hleft ?_ h.node_seen h.lost_owed
      intro log₀ hlater _
      rcases hlater with ⟨since, hsub, hlog⟩
      rw [hlog] at href ⊢
      exact ⟨_, later_refl _, since, hsub, Or.inr href, rfl⟩
  | lose hleft hpending hplain =>
      rename_i op ifMatch next p err
      refine sound_reply h rfl hleft ?_ h.node_seen ?_
      · intro log₀ hlater _
        rcases hlater with ⟨since, hsub, hlog⟩
        rw [hlog]
        exact ⟨_, later_refl _, since, hsub, Or.inl hplain, rfl⟩
      · intro q hq
        rcases List.mem_cons.mp hq with rfl | hold
        · exact h.pending_owed p hpending
        · exact h.lost_owed q hold
  | performLost s' hq _ _ => exact sound_node h s'

theorem sound_run {s : σ} (hrun : Run N (initial opts s) y) : Sound N opts y := by
  induction hrun with
  | refl => exact sound_initial N opts s
  | step _ hstep ih => exact sound_step ih hstep

theorem effect_owed {q : Request σ} (h : Sound N opts y) (hstep : Step N y (some q) y') :
    casOwes N opts q.log (.ApplyOp q.op q.ifMatch) ∧ N.Matches q.ifMatch y.node := by
  cases hstep with
  | perform s' hpending hmatches _ =>
      exact ⟨h.pending_owed { request := q } hpending, hmatches⟩
  | performLost s' hq hmatches _ => exact ⟨h.lost_owed q hq, hmatches⟩

/-!
## No stale write

In any run, a request of SyncNode that takes effect was computed from the list
its attempt read, and finds the node exactly in that state, changed only by the
operations of the attempt that had been acknowledged when it was sent.
-/

theorem no_stale_write (N : NodeModel σ ε) (opts : SyncOptions) (s : σ)
    {y y' : System σ ε} {q : Request σ} (hrun : Run N (initial opts s) y)
    (hstep : Step N y (some q) y') :
    exists des base, q.log.desired = some des ∧ q.log.listed = some base ∧
      q.op ∈ opts.diff des (N.users base) ∧
      Acknowledged N base q.log.acked y.node := by
  rcases effect_owed (sound_run hrun) hstep with ⟨⟨des, base, now, hup⟩, hmatches⟩
  have hnow : y.node = now := state_of_matches N hmatches hup.revision
  refine ⟨des, base, hup.desired, hup.listed, hup.computed, ?_⟩
  rw [hnow]
  exact hup.acknowledged

end Steps

omit [ClassifiedError ε] [RFC3339] in
/-- Two creates, and the second takes effect after the first was acknowledged. -/
theorem no_stale_write_sample :
    letI := sampleClock
    let first : DesiredUser := ⟨"sub_1", "ee1", none, none⟩
    let second : DesiredUser := ⟨"sub_2", "ee2", none, none⟩
    let empty : UserConfig := ⟨[], by decide⟩
    let after : UserConfig := ⟨[(createOp first).created], by decide⟩
    exists des base, some [first, second] = some des ∧ some empty = some base ∧
      createOp second ∈ ({ mode := .apply } : SyncOptions).diff des (telemtNode.users base) ∧
      Acknowledged telemtNode.toNodeModel base [createOp first] after :=
  letI := sampleClock
  let first : DesiredUser := ⟨"sub_1", "ee1", none, none⟩
  let second : DesiredUser := ⟨"sub_2", "ee2", none, none⟩
  let empty : UserConfig := ⟨[], by decide⟩
  let after : UserConfig := ⟨[(createOp first).created], by decide⟩
  let both : UserConfig := ⟨[(createOp first).created, (createOp second).created], by decide⟩
  no_stale_write telemtNode.toNodeModel { mode := .apply } empty
    (.step (.step (.step (.step (.step (.step (.refl _) (.desired [first, second] rfl))
      (.list rfl)) (.send rfl rfl)) (.perform after rfl (fun _ => rfl) rfl))
      (.success rfl rfl)) (.send rfl rfl))
    (.perform both rfl (fun _ => rfl) rfl)

end Sync
end Telemux
