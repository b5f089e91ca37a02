import Telemux.Net.JsonParts
import Telemux.Server.Daemon

/-!
# Requests that were cut off

Of the body of a request any part may have arrived, with or without an error after
it.  The handler makes of a part what it makes of the whole body, or refuses the
request before anything is written.  So a daemon that is sent parts does what it
does for the requests that were meant, less those that it refuses.
-/

namespace Telemux
namespace Server

open Interaction Net Store Sync TelemtSync

attribute [local instance] bodyTexts

/-!
## One request
-/

/-- The request that was meant, and what has arrived of it. -/
inductive WriteRequest.CutTo : WriteRequest -> WriteRequest -> Prop where
  | create (s : String) (raw : Bytes) (broken : Bool) : raw <+: utf8 s ->
      CutTo (.create (utf8 s) false) (.create raw broken)
  | delete (username : String) : CutTo (.delete username) (.delete username)
  | renew (username s : String) (raw : Bytes) (broken : Bool) : raw <+: utf8 s ->
      CutTo (.renew username (utf8 s) false) (.renew username raw broken)
  | setEnabled (username : String) (enabled : Bool) :
      CutTo (.setEnabled username enabled) (.setEnabled username enabled)

section Requests

variable {ε : Type} [TimeJSON]

def WriteRequest.refused : WriteRequest -> Bool
  | .create raw broken =>
      match (JsonStream.first raw broken).bind decodeCreateBody with
      | none => true
      | some body => decide (body.username = "")
  | .delete _ => false
  | .renew _ raw broken => ((JsonStream.first raw broken).bind decodeRenewBody).isNone
  | .setEnabled _ _ => false

omit [TimeJSON] in
theorem first_cut {α : Type} {set : String -> Json -> α -> Option α} {old a : α} {s : String}
    {raw : Bytes} (hraw : raw <+: utf8 s) {broken : Bool}
    (h : (JsonStream.first raw broken).bind (decodeStruct set old) = some a) :
    (JsonStream.first (utf8 s) false).bind (decodeStruct set old) = some a := by
  rcases Option.bind_eq_some_iff.mp h with ⟨v, hv, ha⟩
  have hwhole : JsonStream.first (utf8 s) false = some v := by
    show decodeFirst (runes (utf8 s)) false = some v
    rw [runes_utf8]
    exact decodeFirst_part hraw hv (complete_of_decodeStruct ha)
  exact Option.bind_eq_some_iff.mpr ⟨v, hwhole, ha⟩

theorem handler_cut {meant arrived : WriteRequest} (h : meant.CutTo arrived)
    (htaken : arrived.refused = false) :
    arrived.handler (ε := ε) = meant.handler := by
  cases h with
  | delete username => rfl
  | setEnabled username enabled => rfl
  | create s raw broken hraw =>
      cases hbody : (JsonStream.first raw broken).bind decodeCreateBody with
      | none => simp [WriteRequest.refused, hbody] at htaken
      | some body =>
          have hwhole : (JsonStream.first (utf8 s) false).bind decodeCreateBody = some body :=
            first_cut hraw hbody
          simp only [WriteRequest.handler, handleCreate, hbody, hwhole]
  | renew username s raw broken hraw =>
      cases hbody : (JsonStream.first raw broken).bind decodeRenewBody with
      | none => simp [WriteRequest.refused, hbody] at htaken
      | some exp =>
          have hwhole : (JsonStream.first (utf8 s) false).bind decodeRenewBody = some exp :=
            first_cut hraw hbody
          simp only [WriteRequest.handler, handleRenew, hbody, hwhole]

inductive Refusing : Handler ε -> Prop where
  | checks (err : HandlerError ε) : Refusing (requireMaster (writeErr 400 err))
  | answers (code : Nat) (err : HandlerError ε) : Refusing (writeErr code err)
  | done : Refusing (.done ())

theorem refusing_handler {req : WriteRequest} (h : req.refused = true) :
    Refusing (req.handler (ε := ε)) := by
  cases req with
  | delete username => cases h
  | setEnabled username enabled => cases h
  | create raw broken =>
      show Refusing (handleCreate raw broken)
      unfold handleCreate
      cases hbody : (JsonStream.first raw broken).bind decodeCreateBody with
      | none => exact .checks _
      | some body =>
          have hempty : body.username = "" := by
            simpa [WriteRequest.refused, hbody] using h
          dsimp only
          rw [if_pos hempty]
          exact .checks _
  | renew username raw broken =>
      have hnone : (JsonStream.first raw broken).bind decodeRenewBody = none :=
        Option.isNone_iff_eq_none.mp h
      show Refusing (handleRenew username raw broken)
      unfold handleRenew
      rw [hnone]
      exact .checks _

end Requests

section Refusal

variable {ε : Type} [RFC3339] [Collation]

theorem refusing_step {c : ServerCall ε} {next : ServerReply ε c -> Handler ε}
    (h : Refusing (.call c next)) {s s' : Shared ε} {r : ServerReply ε c}
    (hans : s.answers c r s') : s' = s ∧ Refusing (next r) := by
  generalize hp : Program.call c next = p at h
  cases h with
  | checks err =>
      cases hp
      refine ⟨hans, ?_⟩
      cases r with
      | error err => exact .answers _ _
      | ok inRecovery =>
          cases inRecovery with
          | true => exact .answers _ _
          | false => exact .answers _ _
  | answers code err =>
      cases hp
      exact ⟨hans, .done⟩
  | done => cases hp

end Refusal

/-!
## The daemon
-/

section Runs

variable {ε : Type} [ClassifiedError ε] [RFC3339] [Collation] [TimeJSON]

def Asked (opts : SyncOptions) (reqs : Nat -> WriteRequest) (d : Daemon ε) (l : Label)
    (d' : Daemon ε) : Prop :=
  Step opts d l d' ∧
    forall i, l = .request i -> d'.writes i = some { rest := (reqs i).handler }

def Label.taken (reqs : Nat -> WriteRequest) : Label -> Bool
  | .request i => !(reqs i).refused
  | .write i => !(reqs i).refused
  | _ => true

def Daemon.without (reqs : Nat -> WriteRequest) (d : Daemon ε) : Daemon ε :=
  { d with writes := fun i => if (reqs i).refused then none else d.writes i }

def Refuses (reqs : Nat -> WriteRequest) (d : Daemon ε) : Prop :=
  forall i w, (reqs i).refused = true -> d.writes i = some w -> Refusing w.rest

omit [ClassifiedError ε] [RFC3339] [Collation] in
theorem without_update {reqs : Nat -> WriteRequest} {d : Daemon ε} {i : Nat}
    (h : (reqs i).refused = false) (w : Write ε) (s : Shared ε) :
    Daemon.without reqs
        { d with shared := s, writes := Function.update d.writes i (some w) } =
      { d.without reqs with
        shared := s
        writes := Function.update (d.without reqs).writes i (some w) } := by
  have hwrites : (fun j => if (reqs j).refused then none
      else Function.update d.writes i (some w) j) =
        Function.update (d.without reqs).writes i (some w) := by
    funext j
    by_cases hj : j = i
    · subst hj
      rw [Function.update_self, Function.update_self, h]
      rfl
    · rw [Function.update_of_ne hj, Function.update_of_ne hj]
      rfl
  exact congrArg (fun writes => ({ d with shared := s, writes := writes } : Daemon ε)) hwrites

omit [ClassifiedError ε] [RFC3339] [Collation] in
theorem without_refused {reqs : Nat -> WriteRequest} {d : Daemon ε} {i : Nat}
    (h : (reqs i).refused = true) (w : Write ε) :
    Daemon.without reqs { d with writes := Function.update d.writes i (some w) } =
      d.without reqs := by
  have hwrites : (fun j => if (reqs j).refused then none
      else Function.update d.writes i (some w) j) = (d.without reqs).writes := by
    funext j
    by_cases hj : j = i
    · subst hj
      simp [Daemon.without, h]
    · rw [Function.update_of_ne hj]
      rfl
  exact congrArg (fun writes => ({ d with writes := writes } : Daemon ε)) hwrites

theorem refuses_step {opts : SyncOptions} {reqs : Nat -> WriteRequest} {d d' : Daemon ε}
    {l : Label} (h : Refuses reqs d) (hstep : Asked opts reqs d l d') : Refuses reqs d' := by
  rcases hstep with ⟨hstep, hasked⟩
  cases hstep with
  | @request i req hfree =>
      intro j w hrefused hw
      by_cases hj : j = i
      · subst hj
        rw [hasked j rfl] at hw
        cases hw
        exact refusing_handler hrefused
      · dsimp only at hw
        rw [Function.update_of_ne hj] at hw
        exact h j w hrefused hw
  | @write i c next hist r s hproc hans =>
      intro j w hrefused hw
      dsimp only at hw
      by_cases hj : j = i
      · subst hj
        rw [Function.update_self] at hw
        cases hw
        exact (refusing_step (h j _ hrefused hproc) hans).right
      · rw [Function.update_of_ne hj] at hw
        exact h j w hrefused hw
  | outside table => exact h
  | cancel => exact h
  | sync hfree => exact h
  | pass hproc hans => exact h
  | beaten hloop => exact h
  | ended hproc => exact h
  | returned hloop hcancelled => exact h
  | tick hloop => exact h
  | signal hloop hdirty => exact h

theorem without_step {opts : SyncOptions} {meant arrived : Nat -> WriteRequest}
    (hcut : forall i, (meant i).CutTo (arrived i)) {d d' : Daemon ε} {l : Label}
    (hstep : Asked opts arrived d l d') (htaken : l.taken arrived = true) :
    Asked opts meant (d.without arrived) l (d'.without arrived) := by
  rcases hstep with ⟨hstep, hasked⟩
  cases hstep with
  | @request i req hfree =>
      have hrefused : (arrived i).refused = false := by simpa [Label.taken] using htaken
      have hreq := hasked i rfl
      dsimp only at hreq
      rw [Function.update_self] at hreq
      rw [hreq, handler_cut (hcut i) hrefused]
      have hfree' : (d.without arrived).writes i = none := by
        simp [Daemon.without, hfree]
      have hsame := without_update (d := d) hrefused { rest := (meant i).handler } d.shared
      rw [show Daemon.without arrived _ = _ from hsame]
      refine ⟨.request (meant i) hfree', ?_⟩
      intro j hj
      cases hj
      exact Function.update_self _ _ _
  | @write i c next hist r s hproc hans =>
      have hrefused : (arrived i).refused = false := by simpa [Label.taken] using htaken
      have hproc' : (d.without arrived).writes i = some ⟨.call c next, hist⟩ := by
        simp [Daemon.without, hrefused, hproc]
      rw [without_update hrefused]
      exact ⟨.write hproc' hans, fun _ h => nomatch h⟩
  | outside table => exact ⟨.outside table, fun _ h => nomatch h⟩
  | cancel => exact ⟨.cancel, fun _ h => nomatch h⟩
  | sync hfree => exact ⟨.sync hfree, fun _ h => nomatch h⟩
  | pass hproc hans => exact ⟨.pass hproc hans, fun _ h => nomatch h⟩
  | beaten hloop => exact ⟨.beaten hloop, fun _ h => nomatch h⟩
  | ended hproc => exact ⟨.ended hproc, fun _ h => nomatch h⟩
  | returned hloop hcancelled => exact ⟨.returned hloop hcancelled, fun _ h => nomatch h⟩
  | tick hloop => exact ⟨.tick hloop, fun _ h => nomatch h⟩
  | signal hloop hdirty => exact ⟨.signal hloop hdirty, fun _ h => nomatch h⟩

theorem without_silent {opts : SyncOptions} {reqs : Nat -> WriteRequest} {d d' : Daemon ε}
    {l : Label} (h : Refuses reqs d) (hstep : Asked opts reqs d l d')
    (hrefused : l.taken reqs = false) : d'.without reqs = d.without reqs := by
  cases hstep.left with
  | @request i req hfree =>
      exact without_refused (by simpa [Label.taken] using hrefused) _
  | @write i c next hist r s hproc hans =>
      have hrefused' : (reqs i).refused = true := by simpa [Label.taken] using hrefused
      rw [(refusing_step (h i _ hrefused' hproc) hans).left]
      exact without_refused hrefused' _
  | _ => cases hrefused

/--
However a daemon is run, and wherever the bodies of the requests to it were cut off:
leaving out the requests that it refuses, it takes the steps of a daemon that was sent
all of each body, and shares, loops and answers as that one does.
-/
theorem cut_requests_harmless {opts : SyncOptions} {meant arrived : Nat -> WriteRequest}
    (hcut : forall i, (meant i).CutTo (arrived i)) {table : UsersTable} {t : List Label}
    {d : Daemon ε} (hrun : Run (Asked opts arrived) (Daemon.started table) t d) :
    Run (Asked opts meant) (Daemon.started table) (t.filter (Label.taken arrived))
      (d.without arrived) := by
  have hstarted : (Daemon.started table : Daemon ε).without arrived = Daemon.started table := by
    simp [Daemon.without, Daemon.started]
  rw [← hstarted]
  apply hrun.seen (I := Refuses arrived)
  · intro i w _ hw
    cases hw
  · exact refuses_step
  · exact fun _ => without_step hcut
  · exact without_silent

theorem run_request {opts : SyncOptions} {reqs : Nat -> WriteRequest} {d d' : Daemon ε}
    {t : List Label} (h : Run (Asked opts reqs) d t d') (i : Nat) {p : Handler ε}
    (hhandler : (reqs i).handler = p) (hfree : d'.writes i = none) :
    Run (Asked opts reqs) d (t ++ [.request i])
      { d' with writes := Function.update d'.writes i (some { rest := p }) } := by
  cases hhandler
  refine h.snoc ⟨.request (reqs i) hfree, ?_⟩
  intro j hj
  cases hj
  exact Function.update_self _ _ _

theorem run_write {opts : SyncOptions} {reqs : Nat -> WriteRequest} {d d' : Daemon ε}
    {t : List Label} (h : Run (Asked opts reqs) d t d') (i : Nat) (c : ServerCall ε)
    (r : ServerReply ε c) {next : ServerReply ε c -> Handler ε} {hist : WriteHistory ε}
    {s : Shared ε} (hproc : d'.writes i = some ⟨.call c next, hist⟩)
    (hans : d'.shared.answers c r s) :
    Run (Asked opts reqs) d (t ++ [.write i])
      { d' with
        shared := s
        writes := Function.update d'.writes i (some ⟨next r, hist.next s.commits c r⟩) } :=
  h.snoc ⟨.write hproc hans, fun _ hl => nomatch hl⟩

end Runs

/-!
## One that is taken, and one that is not
-/

section Sample

def nullText : String := String.ofList ['n', 'u', 'l', 'l']

def braceText : String := String.ofList ['\x7b']

def sampleMeant : Nat -> WriteRequest
  | 0 => .renew "sub_a" (utf8 (nullText ++ "\n")) false
  | _ => .create (utf8 (braceText ++ "\"username\":\"sub_b\"\x7d")) false

def sampleArrived : Nat -> WriteRequest
  | 0 => .renew "sub_a" (utf8 nullText) false
  | _ => .create (utf8 braceText) true

theorem sampleArrived_cut (i : Nat) : (sampleMeant i).CutTo (sampleArrived i) := by
  have hpart : forall s t : String, utf8 s <+: utf8 (s ++ t) := by
    intro s t
    rw [utf8_append]
    exact List.prefix_append _ _
  cases i with
  | zero => exact .renew _ _ _ _ (hpart _ _)
  | succ i => exact .create _ _ _ (hpart _ _)

theorem nullText_first : JsonStream.first (utf8 nullText) false = some .null := by
  show decodeFirst (runes (utf8 nullText)) false = some .null
  rw [runes_utf8, nullText, String.toList_ofList]
  rfl

theorem braceText_first : JsonStream.first (utf8 braceText) true = none := by
  show decodeFirst (runes (utf8 braceText)) true = none
  rw [runes_utf8, braceText, String.toList_ofList]
  rfl

theorem cut_requests_harmless_sample :
    letI := sampleClock
    letI := sampleCollation
    letI := sampleTimes
    exists d e : Daemon Classification,
      Run (Asked { mode := .apply } sampleArrived) (Daemon.started sampleTable)
        [.request 0, .request 1, .write 1, .write 0, .write 1, .write 0, .write 0, .write 0] d ∧
      Run (Asked { mode := .apply } sampleMeant) (Daemon.started sampleTable)
        [.request 0, .write 0, .write 0, .write 0, .write 0] e ∧
      e.shared = d.shared ∧ d.shared.commits = 1 := by
  let := sampleClock
  let := sampleCollation
  let := sampleTimes
  have hrenew : (sampleArrived 0).handler (ε := Classification) =
      requireMaster (.call (.SetExpiration "sub_a" none) answerChanged) := by
    show handleRenew "sub_a" (utf8 nullText) false = _
    rw [handleRenew, nullText_first]
    rfl
  have hcreate : (sampleArrived 1).handler (ε := Classification) =
      requireMaster (writeErr 400 .needsUsername) := by
    show handleCreate (utf8 braceText) true = _
    rw [handleCreate, braceText_first]
    rfl
  have htaken : (sampleArrived 0).refused = false := by
    show ((JsonStream.first (utf8 nullText) false).bind decodeRenewBody).isNone = false
    rw [nullText_first]
    rfl
  have hrefused : (sampleArrived 1).refused = true := by
    simp [sampleArrived, WriteRequest.refused, braceText_first]
  have hrun : exists d : Daemon Classification,
      Run (Asked { mode := .apply } sampleArrived) (Daemon.started sampleTable)
        [.request 0, .request 1, .write 1, .write 0, .write 1, .write 0, .write 0, .write 0] d ∧
      d.shared.commits = 1 :=
    have hfirst := run_request (.refl _) 0 hrenew rfl
    have hboth := run_request hfirst 1 hcreate rfl
    have hchecked := run_write hboth 1 .IsInRecovery (.ok false) rfl rfl
    have hmaster := run_write hchecked 0 .IsInRecovery (.ok false) rfl rfl
    have hanswered := run_write hmaster 1 (.Respond _) () rfl rfl
    have hwritten := run_write hanswered 0 (.SetExpiration "sub_a" none) (.ok true) rfl ⟨by decide, rfl⟩
    have hmarked := run_write hwritten 0 .markDirty () rfl rfl
    ⟨_, run_write hmarked 0 (.Respond _) () rfl rfl, rfl⟩
  rcases hrun with ⟨d, hrun, hcommits⟩
  have hmeant := cut_requests_harmless sampleArrived_cut hrun
  simp only [List.filter, Label.taken, htaken, hrefused] at hmeant
  exact ⟨d, _, hrun, hmeant, rfl, hcommits⟩

end Sample

end Server
end Telemux
