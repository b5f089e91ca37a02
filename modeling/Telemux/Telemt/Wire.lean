import Telemux.Telemt.Objects

/-!
# The operations over the wire

What the client and a node with the machine API do together is what the diff
engine means by its operations: sending one and listing again shows the list
that the operation gives on the list before.
-/

namespace Telemux
namespace Telemt

open Interaction Net TelemtSync Sync Reconcile

/-!
## Requests that the node understands
-/

variable [JsonText] {revision : MachineState -> String} {s : MachineState}

omit [JsonText] in
theorem decode_envelope (data : Json) (rev : String) :
    decodeStruct Envelope.set {} (envelope data rev) =
      some { ok := true, data := some data, revision := rev } := by
  have hok : forall env : Envelope, Envelope.set "ok" (.bool true) env =
      some { env with ok := true } := fun _ => rfl
  have hdata : forall env : Envelope, Envelope.set "data" data env =
      some { env with data := some data } := fun _ => rfl
  have hrevision : forall env : Envelope, Envelope.set "revision" (.str rev) env =
      some { env with revision := rev } := fun _ => rfl
  simp only [envelope, decodeStruct, List.foldlM_cons, List.foldlM_nil, hok, hdata, hrevision,
    Option.bind_eq_bind, Option.bind_some]
  rfl

theorem unmarshal_envelope {body : String} {data : Json} {rev : String}
    (h : JsonText.read body = some (envelope data rev)) :
    unmarshalEnvelope body = some { ok := true, data := some data, revision := rev } := by
  unfold unmarshalEnvelope
  rw [h, Option.bind_some, decode_envelope]

omit [JsonText] in
theorem parse_users : exists url, Parse (utf8 "/v1/users") = .ok url ∧
    url.path = utf8 "/v1/users" :=
  ⟨_, rfl, rfl⟩

theorem listUsers_wire (c : Client) :
    (machineAPI revision).Meets c.ListUsers s fun r s' => s' = s ∧
      exists users, r = .ok (users, revision s) ∧ users.Perm s.listing := by
  rcases parse_users with ⟨url, hurl, hpath⟩
  unfold Client.ListUsers Client.get Client.newRequest
  rw [hurl]
  refine ⟨trivial, ?_⟩
  intro reply s' hans
  rcases hans with ⟨resp, rfl, hread, hreact⟩
  unfold MachineState.react at hreact
  simp only [hpath, if_true] at hreact
  rcases hreact with ⟨rfl, hstatus, l, hl, hbody⟩
  have hget : readGet "/v1/users" resp =
      .ok
        { ok := true
          data := some (.arr (l.map StoredUser.info))
          revision := revision s' } := by
    unfold readGet
    simp [hread, hstatus, unmarshal_envelope hbody]
  have htyped : forall u, u ∈ l -> wellTyped u.members = true :=
    fun u hu => s'.typed u (hl.mem_iff.mp hu)
  rcases Option.map_eq_some_iff.mp (unmarshal_users htyped) with ⟨raw, hraw, hremote⟩
  simp only [hget]
  refine ⟨rfl, raw.map UserInfo.remote, ?_, hremote ▸ hl.map StoredUser.remote⟩
  unfold readUsers
  dsimp only
  rw [hraw]

theorem mutate_changed {c : Client} {method : Method} {path ifMatch : String}
    {body : Option Json} {req : HttpRequest} {t : MachineState}
    (hreq : c.newRequest method path body ifMatch = .ok req)
    (hreact : s.react (revision s) req = .changed t) :
    (machineAPI revision).Meets (c.mutate method path body ifMatch) s fun r s' =>
      s' = t ∧ r = .ok (revision t) := by
  unfold Client.mutate
  rw [hreq]
  refine ⟨trivial, ?_⟩
  intro reply s' hans
  rcases hans with ⟨resp, rfl, _, hanswer⟩
  rw [hreact] at hanswer
  rcases hanswer with ⟨rfl, hlow, hhigh, data, hbody⟩
  have hread : readMutation method path resp = .ok (revision s') := by
    unfold readMutation
    rw [if_neg (by omega), unmarshal_envelope hbody]
  exact ⟨rfl, hread⟩

theorem mutate_refused {c : Client} {method : Method} {path ifMatch : String}
    {body : Option Json} {req : HttpRequest} {status : Nat}
    (hreq : c.newRequest method path body ifMatch = .ok req)
    (hreact : s.react (revision s) req = .refused status) (hstatus : 300 ≤ status) :
    (machineAPI revision).Meets (c.mutate method path body ifMatch) s fun r s' =>
      s' = s ∧ exists err, r = .error err := by
  unfold Client.mutate
  rw [hreq]
  refine ⟨trivial, ?_⟩
  intro reply s' hans
  rcases hans with ⟨resp, rfl, _, hanswer⟩
  rw [hreact] at hanswer
  rcases hanswer with ⟨rfl, rfl⟩
  have hread : readMutation method path resp =
      .error (.api resp.statusCode (TrimSpace resp.body)) := by
    unfold readMutation
    rw [if_pos (Or.inr hstatus)]
  exact ⟨rfl, _, hread⟩

omit [JsonText] in
theorem not_stale {c : Client} {method : Method} {path ifMatch rev : String}
    {body : Option Json} {req : HttpRequest}
    (hreq : c.newRequest method path body ifMatch = .ok req)
    (hmatch : ifMatch = "" ∨ ifMatch = rev) : stale req rev = false := by
  rcases newRequest_ok hreq with ⟨_, _, _, hifMatch⟩
  unfold stale
  rw [hifMatch]
  rcases hmatch with rfl | rfl
  · rfl
  · split
    · rfl
    · rename_i hsome
      split at hsome
      · cases hsome
      · cases hsome
        simp

omit [JsonText] in
theorem userAt_eq (s : MachineState) (username : String) :
    s.userAt (usersPath ++ utf8 username) = lookup StoredUser.username s.users username :=
  lookup_rename (fun _ _ h => utf8_injective (List.append_cancel_left h)) StoredUser.username
    s.users username

omit [JsonText] in
theorem userRequest (c : Client) (method : Method) {username : String}
    (hname : Unreserved (utf8 username)) (body : Option Json) (ifMatch : String) :
    exists req, c.newRequest method ("/v1/users/" ++ username) body ifMatch = .ok req ∧
      req.url.path = usersPath ++ utf8 username := by
  rcases Parse_unreserved usersPath_plain (by decide) hname with ⟨url, hurl, hpath⟩
  rw [← utf8_userPath] at hurl
  exact ⟨_, map_ok_iff.mpr ⟨url, hurl, rfl⟩, hpath⟩

omit [JsonText] in
theorem usersRequest (c : Client) (method : Method) (body : Option Json) (ifMatch : String) :
    exists req, c.newRequest method "/v1/users" body ifMatch = .ok req ∧
      req.url.path = utf8 "/v1/users" := by
  rcases parse_users with ⟨url, hurl, hpath⟩
  exact ⟨_, map_ok_iff.mpr ⟨url, hurl, rfl⟩, hpath⟩

/-!
## An operation over the wire
-/

structure Sent (revision : MachineState -> String) (op : SyncOp) (s : MachineState)
    (r : Except ClientError String) (s' : MachineState) : Prop where
  effect : s'.listing = applyOp s.listing op
  applied : Applies s.listing op -> r = .ok (revision s')
  refused : ¬ Applies s.listing op -> s' = s ∧ exists err, r = .error err

section Sending

variable {op : SyncOp} {ifMatch : String}

theorem mutate_wire {c : Client} {method : Method} {path : String} {body : Option Json}
    {req : HttpRequest} (hreq : c.newRequest method path body ifMatch = .ok req)
    (hchanged : Applies s.listing op ->
      exists t, s.react (revision s) req = .changed t ∧ t.listing = applyOp s.listing op)
    (hrefused : ¬ Applies s.listing op ->
      exists status, s.react (revision s) req = .refused status ∧ 300 ≤ status) :
    (machineAPI revision).Meets (c.mutate method path body ifMatch) s fun r s' =>
      Sent revision op s r s' := by
  by_cases happlies : Applies s.listing op
  · rcases hchanged happlies with ⟨t, hreact, heffect⟩
    apply Contract.meets_mono _ (mutate_changed hreq hreact)
    intro r s' hdone
    rcases hdone with ⟨rfl, hr⟩
    exact ⟨heffect, fun _ => hr, fun hnot => absurd happlies hnot⟩
  · rcases hrefused happlies with ⟨status, hreact, hstatus⟩
    apply Contract.meets_mono _ (mutate_refused hreq hreact hstatus)
    intro r s' hdone
    rcases hdone with ⟨rfl, hr⟩
    exact ⟨(applyOp_of_not_applies happlies).symm, fun h => absurd h happlies,
      fun _ => ⟨rfl, hr⟩⟩

omit [JsonText] in
theorem lookup_of_applies (happlies : Applies s.listing op) (hkind : op.kind ≠ .create) :
    exists u, lookup StoredUser.username s.users op.username = some u := by
  unfold Applies at happlies
  rw [remoteByName_listing, Option.map_eq_none_iff] at happlies
  exact Option.ne_none_iff_exists'.mp fun hnone => hkind (happlies.mp hnone)

omit [JsonText] in
theorem lookup_of_not_applies (hnot : ¬ Applies s.listing op) (hkind : op.kind ≠ .create) :
    lookup StoredUser.username s.users op.username = none := by
  unfold Applies at hnot
  rw [remoteByName_listing, Option.map_eq_none_iff] at hnot
  by_contra hsome
  exact hnot ⟨fun hnone => absurd hnone hsome, fun hcreate => absurd hcreate hkind⟩

theorem create_wire (c : Client) (hkind : op.kind = .create) (hints : GoInts op)
    (hmatch : ifMatch = "" ∨ ifMatch = revision s) :
    (machineAPI revision).Meets (c.ApplyOp op ifMatch) s fun r s' =>
      Sent revision op s r s' := by
  rcases usersRequest c .POST (some (.obj (createReq op))) ifMatch with ⟨req, hreq, hpath⟩
  rcases newRequest_ok hreq with ⟨hmethod, hbody, _, _⟩
  have hreact : s.react (revision s) req =
      (s.insert ⟨op.username, Object.ofMembers (createReq op)⟩).elim (.refused 409)
        .changed := by
    unfold MachineState.react
    rw [hmethod, hpath, hbody]
    simp only [ne_eq, not_true, if_false, not_stale hreq hmatch, Bool.false_eq_true,
      (createReq_members op).left]
    cases s.insert ⟨op.username, Object.ofMembers (createReq op)⟩ <;> rfl
  unfold Client.ApplyOp
  rw [hkind]
  apply mutate_wire hreq
  · intro happlies
    have hnone : remoteByName s.listing op.username = none := happlies.mpr hkind
    have hfree := hnone
    rw [remoteByName_listing, Option.map_eq_none_iff] at hfree
    rcases insert_free hints hfree with ⟨t, ht, hlisting⟩
    refine ⟨t, by rw [hreact, ht, Option.elim_some], ?_⟩
    unfold applyOp
    rw [hkind, hnone]
    exact hlisting
  · intro hnot
    have htaken : lookup StoredUser.username s.users op.username ≠ none := by
      intro hfree
      apply hnot
      unfold Applies
      rw [remoteByName_listing, hfree]
      exact ⟨fun _ => hkind, fun _ => rfl⟩
    exact ⟨409, by rw [hreact, insert_taken htaken, Option.elim_none], by decide⟩

theorem patch_wire (c : Client) (hkind : op.kind = .patch)
    (hname : Unreserved (utf8 op.username)) (hints : GoInts op)
    (hmatch : ifMatch = "" ∨ ifMatch = revision s) :
    (machineAPI revision).Meets (c.ApplyOp op ifMatch) s fun r s' =>
      Sent revision op s r s' := by
  rcases userRequest c .PATCH hname (some (.obj (patchBody op.fields))) ifMatch with
    ⟨req, hreq, hpath⟩
  rcases newRequest_ok hreq with ⟨hmethod, hbody, _, _⟩
  have hnocreate : op.kind ≠ .create := by simp [hkind]
  unfold Client.ApplyOp
  rw [hkind]
  apply mutate_wire hreq
  · intro happlies
    rcases lookup_of_applies happlies hnocreate with ⟨u, hu⟩
    rcases patch_listing s hints with ⟨t, ht, hlisting⟩
    refine ⟨t, ?_, ?_⟩
    · unfold MachineState.react
      rw [hmethod]
      simp only [hpath, userAt_eq, hu, hbody, not_stale hreq hmatch, Bool.false_eq_true,
        if_false, (lookup_some hu).right, ht]
    · unfold applyOp
      rw [hkind]
      exact hlisting
  · intro hnot
    refine ⟨404, ?_, by decide⟩
    unfold MachineState.react
    rw [hmethod]
    simp only [hpath, userAt_eq, lookup_of_not_applies hnot hnocreate]

theorem delete_wire (c : Client) (hkind : op.kind = .delete)
    (hname : Unreserved (utf8 op.username)) (hmatch : ifMatch = "" ∨ ifMatch = revision s) :
    (machineAPI revision).Meets (c.ApplyOp op ifMatch) s fun r s' =>
      Sent revision op s r s' := by
  rcases userRequest c .DELETE hname none ifMatch with ⟨req, hreq, hpath⟩
  rcases newRequest_ok hreq with ⟨hmethod, _, _, _⟩
  have hnocreate : op.kind ≠ .create := by simp [hkind]
  unfold Client.ApplyOp
  rw [hkind]
  apply mutate_wire hreq
  · intro happlies
    rcases lookup_of_applies happlies hnocreate with ⟨u, hu⟩
    refine ⟨s.remove op.username, ?_, ?_⟩
    · unfold MachineState.react
      rw [hmethod]
      simp only [hpath, userAt_eq, hu, not_stale hreq hmatch, Bool.false_eq_true, if_false,
        (lookup_some hu).right]
    · unfold applyOp
      rw [hkind]
      exact remove_listing s op.username
  · intro hnot
    refine ⟨404, ?_, by decide⟩
    unfold MachineState.react
    rw [hmethod]
    simp only [hpath, userAt_eq, lookup_of_not_applies hnot hnocreate]

theorem applyOp_wire (c : Client) (hname : Unreserved (utf8 op.username)) (hints : GoInts op)
    (hmatch : ifMatch = "" ∨ ifMatch = revision s) :
    (machineAPI revision).Meets (c.ApplyOp op ifMatch) s fun r s' =>
      Sent revision op s r s' := by
  cases hkind : op.kind with
  | create => exact create_wire c hkind hints hmatch
  | patch => exact patch_wire c hkind hname hints hmatch
  | delete => exact delete_wire c hkind hname hmatch

end Sending

end Telemt
end Telemux
