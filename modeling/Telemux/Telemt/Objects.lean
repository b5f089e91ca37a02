import Telemux.Telemt.Machine

/-!
# Objects and users

A stored object, the user that the client reads from it, and the members the
client sends are three views of the same few fields.  Here they are lined up:
what is listed decodes to the stored user, and a body does to the object what
the operation does to the user.
-/

namespace Telemux
namespace Telemt

open Net TelemtSync Reconcile

/-!
## What the node holds, as the client sees it
-/

def StoredUser.remote (u : StoredUser) : RemoteUser where
  username := u.username
  enabled :=
    match u.members "enabled" with
    | some (.bool b) => b
    | _ => false
  expirationRFC3339 :=
    match u.members "expiration_rfc3339" with
    | some (.str s) => some s
    | _ => none
  maxTCPConns :=
    match u.members "max_tcp_conns" with
    | some (.int n) => some n
    | _ => none

def MachineState.listing (s : MachineState) : List RemoteUser :=
  s.users.map StoredUser.remote

theorem listing_distinct (s : MachineState) : DistinctUsers s.listing := by
  unfold DistinctUsers Distinct MachineState.listing
  rw [List.map_map]
  exact s.unique

theorem remoteByName_listing (s : MachineState) (name : String) :
    remoteByName s.listing name =
      (lookup StoredUser.username s.users name).map StoredUser.remote :=
  lookup_map (fun _ => rfl) s.users name

/-!
## Well-typed objects

Such an object is its three known members, each set or not.
-/

structure Typed (o : Object) (enabled : Option Bool) (maxTCPConns : Option Int)
    (expirationRFC3339 : Option String) : Prop where
  enabled_member : o "enabled" = enabled.map Json.bool
  conns_member : o "max_tcp_conns" = maxTCPConns.map Json.int
  conns_int64 : forall n, maxTCPConns = some n -> IsInt64 n
  expiration_member : o "expiration_rfc3339" = expirationRFC3339.map Json.str

theorem typed_of_wellTyped {o : Object} (h : wellTyped o = true) :
    exists enabled conns exp, Typed o enabled conns exp := by
  unfold wellTyped at h
  simp only [Bool.and_eq_true] at h
  rcases h with ⟨⟨henabled, hconns⟩, hexp⟩
  have henabled' : exists enabled : Option Bool, o "enabled" = enabled.map Json.bool := by
    cases hv : o "enabled" with
    | none => exact ⟨none, rfl⟩
    | some v =>
        rw [hv] at henabled
        cases v with
        | bool b => exact ⟨some b, rfl⟩
        | _ => cases henabled
  have hconns' : exists conns : Option Int, o "max_tcp_conns" = conns.map Json.int ∧
      forall n, conns = some n -> IsInt64 n := by
    cases hv : o "max_tcp_conns" with
    | none => exact ⟨none, rfl, fun _ hn => nomatch hn⟩
    | some v =>
        rw [hv] at hconns
        cases v with
        | int n =>
            refine ⟨some n, rfl, ?_⟩
            intro _ hn
            cases hn
            exact of_decide_eq_true hconns
        | _ => cases hconns
  have hexp' : exists exp : Option String, o "expiration_rfc3339" = exp.map Json.str := by
    cases hv : o "expiration_rfc3339" with
    | none => exact ⟨none, rfl⟩
    | some v =>
        rw [hv] at hexp
        cases v with
        | str t => exact ⟨some t, rfl⟩
        | _ => cases hexp
  rcases henabled' with ⟨enabled, henabled⟩
  rcases hconns' with ⟨conns, hconns, hint⟩
  rcases hexp' with ⟨exp, hexp⟩
  exact ⟨enabled, conns, exp, henabled, hconns, hint, hexp⟩

section Typed

variable {o : Object} {enabled : Option Bool} {conns : Option Int} {exp : Option String}

theorem Typed.wellTyped (h : Typed o enabled conns exp) : wellTyped o = true := by
  unfold Telemt.wellTyped
  rw [h.enabled_member, h.conns_member, h.expiration_member]
  cases conns with
  | none => cases enabled <;> cases exp <;> rfl
  | some n => cases enabled <;> cases exp <;> simp [h.conns_int64 n rfl]

theorem Typed.remote (h : Typed o enabled conns exp) (username : String) :
    StoredUser.remote ⟨username, o⟩ =
      { username := username
        enabled := enabled.getD false
        expirationRFC3339 := exp
        maxTCPConns := conns } := by
  unfold StoredUser.remote
  dsimp only
  rw [h.enabled_member, h.conns_member, h.expiration_member]
  cases enabled <;> cases conns <;> cases exp <;> rfl

end Typed

/-!
## Decoding a listed user
-/

theorem set_username (s : String) (u : UserInfo) :
    UserInfo.set "username" (.str s) u = some { u with username := s } := rfl

theorem set_enabled (v : Json) (u : UserInfo) :
    UserInfo.set "enabled" v u =
      (decodeBool u.enabled v).map fun b => { u with enabled := b } := rfl

theorem set_maxTCPConns (v : Json) (u : UserInfo) :
    UserInfo.set "max_tcp_conns" v u =
      (decodePointer decodeInt v).map fun n => { u with maxTCPConns := n } := rfl

theorem set_expiration (v : Json) (u : UserInfo) :
    UserInfo.set "expiration_rfc3339" v u =
      (decodePointer (decodeString "") v).map fun s => { u with expirationRFC3339 := s } := rfl

theorem decode_members {o : Object} (h : wellTyped o = true) (username : String) :
    decodeBool false ((o "enabled").getD .null) =
        some (StoredUser.remote ⟨username, o⟩).enabled ∧
      decodePointer decodeInt ((o "max_tcp_conns").getD .null) =
        some (StoredUser.remote ⟨username, o⟩).maxTCPConns ∧
      decodePointer (decodeString "") ((o "expiration_rfc3339").getD .null) =
        some (StoredUser.remote ⟨username, o⟩).expirationRFC3339 := by
  rcases typed_of_wellTyped h with ⟨enabled, conns, exp, htyped⟩
  rw [htyped.remote, htyped.enabled_member, htyped.conns_member, htyped.expiration_member]
  refine ⟨?_, ?_, ?_⟩
  · cases enabled <;> rfl
  · cases conns with
    | none => rfl
    | some n =>
        have hrange : -2 ^ 63 ≤ n ∧ n < 2 ^ 63 := htyped.conns_int64 n rfl
        simp only [Option.map_some, Option.getD_some, decodePointer, decodeInt, if_pos hrange]
  · cases exp <;> rfl

theorem decode_info {u : StoredUser} (h : wellTyped u.members = true) :
    (decodeStruct UserInfo.set {} u.info).map UserInfo.remote = some u.remote := by
  rcases decode_members h u.username with ⟨henabled, hconns, hexp⟩
  simp only [StoredUser.info, decodeStruct, List.foldlM_cons, List.foldlM_nil, set_username,
    set_enabled, set_maxTCPConns, set_expiration, Option.bind_eq_bind, Option.bind_some,
    henabled, hconns, hexp, Option.map_some]
  rfl

theorem unmarshal_users {l : List StoredUser}
    (h : forall u, u ∈ l -> wellTyped u.members = true) :
    (unmarshalUsers (some (.arr (l.map StoredUser.info)))).map
        (fun raw => raw.map UserInfo.remote) = some (l.map StoredUser.remote) := by
  unfold unmarshalUsers
  rw [Option.bind_some]
  unfold decodeSlice
  induction l with
  | nil => rfl
  | cons u rest ih =>
      have hrest := ih (fun v hv => h v (List.mem_cons_of_mem u hv))
      rcases Option.map_eq_some_iff.mp (decode_info (h u List.mem_cons_self)) with
        ⟨info, hinfo, hremote⟩
      rcases Option.map_eq_some_iff.mp hrest with ⟨infos, hinfos, hremotes⟩
      simp only [List.map_cons, List.mapM_cons, hinfo, hinfos, Option.bind_eq_bind,
        Option.bind_some, Option.pure_def, Option.map_some, hremote, hremotes]

/-!
## Bodies

What the members the client sends do to a stored object.
-/

theorem createReq_members (op : SyncOp) :
    Object.ofMembers (createReq op) "username" = some (.str op.username) ∧
      Object.ofMembers (createReq op) "enabled" = some (.bool true) ∧
      Object.ofMembers (createReq op) "max_tcp_conns" = op.maxTCPConns.map Json.int ∧
      Object.ofMembers (createReq op) "expiration_rfc3339" =
        op.expirationRFC3339.map Json.str := by
  unfold createReq Object.ofMembers
  by_cases hsecret : op.secret = "" <;> cases op.maxTCPConns <;> cases op.expirationRFC3339 <;>
    simp [hsecret, omitEmpty, Function.update]

theorem patchBody_members (o : Object) (f : PatchFields) :
    o.mergePatch (patchBody f) "enabled" = (f.enabled.map Json.bool).or (o "enabled") ∧
      o.mergePatch (patchBody f) "max_tcp_conns" =
        (if f.setMaxTCPConns then f.maxTCPConns.map Json.int else o "max_tcp_conns") ∧
      o.mergePatch (patchBody f) "expiration_rfc3339" =
        (if f.setExpiration then f.expirationRFC3339.map Json.str
        else o "expiration_rfc3339") := by
  unfold patchBody Object.mergePatch
  cases f.enabled <;> cases f.setExpiration <;> cases f.setMaxTCPConns <;>
    cases f.expirationRFC3339 <;> cases f.maxTCPConns <;>
    simp [omitEmpty, marshalPointer, Function.update]

/-- The limits of an operation are integers as Go has them. -/
structure GoInts (op : SyncOp) : Prop where
  maxTCPConns : forall n, op.maxTCPConns = some n -> IsInt64 n
  fields : forall n, op.fields.maxTCPConns = some n -> IsInt64 n

section Objects

variable {op : SyncOp} {s : MachineState}

theorem created_typed (hints : GoInts op) :
    Typed (Object.ofMembers (createReq op)) (some true) op.maxTCPConns
      op.expirationRFC3339 where
  enabled_member := (createReq_members op).right.left
  conns_member := (createReq_members op).right.right.left
  conns_int64 := hints.maxTCPConns
  expiration_member := (createReq_members op).right.right.right

theorem merged_typed {o : Object} {enabled : Option Bool} {conns : Option Int}
    {exp : Option String} (h : Typed o enabled conns exp) (hints : GoInts op) :
    Typed (o.mergePatch (patchBody op.fields)) (op.fields.enabled.or enabled)
      (if op.fields.setMaxTCPConns then op.fields.maxTCPConns else conns)
      (if op.fields.setExpiration then op.fields.expirationRFC3339 else exp) where
  enabled_member := by
    rw [(patchBody_members o op.fields).left, h.enabled_member]
    cases op.fields.enabled <;> rfl
  conns_member := by
    rw [(patchBody_members o op.fields).right.left, h.conns_member]
    split <;> rfl
  conns_int64 := by
    split
    · exact hints.fields
    · exact h.conns_int64
  expiration_member := by
    rw [(patchBody_members o op.fields).right.right, h.expiration_member]
    split <;> rfl

theorem created_remote (hints : GoInts op) :
    StoredUser.remote ⟨op.username, Object.ofMembers (createReq op)⟩ = op.created :=
  (created_typed hints).remote op.username

theorem merged_remote {u : StoredUser} (hu : wellTyped u.members = true) (hints : GoInts op) :
    StoredUser.remote { u with members := u.members.mergePatch (patchBody op.fields) } =
      op.fields.write u.remote := by
  rcases typed_of_wellTyped hu with ⟨enabled, conns, exp, htyped⟩
  have hremote : u.remote = _ := htyped.remote u.username
  rw [(merged_typed htyped hints).remote u.username, hremote]
  unfold PatchFields.write
  cases op.fields.enabled <;> rfl

/-!
## What the node does to its list
-/

theorem insert_free (hints : GoInts op)
    (hfree : lookup StoredUser.username s.users op.username = none) :
    exists t, s.insert ⟨op.username, Object.ofMembers (createReq op)⟩ = some t ∧
      t.listing = s.listing ++ [op.created] := by
  unfold MachineState.insert
  rw [dif_pos ⟨hfree, (created_typed hints).wellTyped⟩]
  refine ⟨_, rfl, ?_⟩
  unfold MachineState.listing
  rw [List.map_append, List.map_singleton, created_remote hints]

theorem insert_taken {u : StoredUser}
    (htaken : lookup StoredUser.username s.users u.username ≠ none) : s.insert u = none :=
  dif_neg fun h => htaken h.left

theorem patch_listing (s : MachineState) (hints : GoInts op) :
    exists t, s.patch op.username (patchBody op.fields) = some t ∧
      t.listing = s.listing.map fun r =>
        if r.username = op.username then op.fields.write r else r := by
  have htyped : forall u, u ∈ s.users -> u.username = op.username ->
      wellTyped (u.members.mergePatch (patchBody op.fields)) = true := by
    intro u hu _
    rcases typed_of_wellTyped (s.typed u hu) with ⟨enabled, conns, exp, h⟩
    exact (merged_typed h hints).wellTyped
  unfold MachineState.patch
  rw [dif_pos htyped]
  refine ⟨_, rfl, ?_⟩
  unfold MachineState.listing
  rw [List.map_map, List.map_map]
  apply List.map_congr_left
  intro u hu
  change StoredUser.remote (if u.username = op.username then _ else u) =
    if u.username = op.username then op.fields.write u.remote else u.remote
  split
  · exact merged_remote (s.typed u hu) hints
  · rfl

theorem remove_listing (s : MachineState) (username : String) :
    (s.remove username).listing =
      s.listing.filter fun r => decide (r.username ≠ username) := by
  unfold MachineState.listing
  rw [List.filter_map]
  rfl

end Objects

end Telemt
end Telemux
