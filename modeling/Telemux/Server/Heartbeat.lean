import Telemux.Net.JsonParts
import Telemux.Server.ClusterRuns

/-!
# A heartbeat on its way

What a replica sends of itself is what the master reads: the handler finds the
node that was reported, if the secrets agree and all of the body has come.
-/

namespace Telemux
namespace Server

open Interaction Net Store

/-!
## The body
-/

section Body

variable [TimeMarshal]

theorem nodeJSON_writable (n : Node) : Writable maxNestingDepth (nodeJSON n) := by
  apply Writable.obj
  intro name v hv
  simp only [List.mem_cons, List.not_mem_nil, Prod.mk.injEq, or_false] at hv
  rcases hv with ⟨_, rfl⟩ | ⟨_, rfl⟩ | ⟨_, rfl⟩ | ⟨_, rfl⟩ | ⟨_, rfl⟩ | ⟨_, rfl⟩ | ⟨_, rfl⟩
  · exact .str _ _
  · exact .str _ _
  · exact .str _ _
  · exact .str _ _
  · exact .str _ _
  · exact .bool _ _
  · split
    · exact .null _
    · exact .str _ _

variable [TimeJSON]

theorem decodeNode_nodeJSON {n : Node} (h : n.lastSeenAt = none) :
    decodeNode (nodeJSON n).reread = some n := by
  rcases n with ⟨code, name, address, url, role, enabled, seen⟩
  cases h
  have hobj : (nodeJSON ⟨code, name, address, url, role, enabled, none⟩).reread =
      .obj [("code", requoted code), ("name", requoted name), ("address", requoted address),
        ("telemt_api_url", requoted url), ("role", requoted role), ("enabled", .bool enabled),
        ("last_seen_at", .null)] := rfl
  rw [hobj, decodeNode]
  have hcode : forall n : Node, Node.set "code" (requoted code) n =
      some { n with code := code } := by
    intro n
    rw [Node.set, if_pos (by decide), decodeString_requoted]
    rfl
  have hname : forall n : Node, Node.set "name" (requoted name) n =
      some { n with name := name } := by
    intro n
    rw [Node.set, if_neg (by decide), if_pos (by decide), decodeString_requoted]
    rfl
  have haddress : forall n : Node, Node.set "address" (requoted address) n =
      some { n with address := address } := by
    intro n
    rw [Node.set, if_neg (by decide), if_neg (by decide), if_pos (by decide),
      decodeString_requoted]
    rfl
  have hurl : forall n : Node, Node.set "telemt_api_url" (requoted url) n =
      some { n with telemtAPIURL := url } := by
    intro n
    rw [Node.set, if_neg (by decide), if_neg (by decide), if_neg (by decide),
      if_pos (by decide), decodeString_requoted]
    rfl
  have hrole : forall n : Node, Node.set "role" (requoted role) n =
      some { n with role := role } := by
    intro n
    rw [Node.set, if_neg (by decide), if_neg (by decide), if_neg (by decide),
      if_neg (by decide), if_pos (by decide), decodeString_requoted]
    rfl
  have henabled : forall n : Node, Node.set "enabled" (.bool enabled) n =
      some { n with enabled := enabled } := by
    intro n
    rw [Node.set, if_neg (by decide), if_neg (by decide), if_neg (by decide),
      if_neg (by decide), if_neg (by decide), if_pos (by decide)]
    rfl
  have hseen : forall n : Node, Node.set "last_seen_at" .null n =
      some { n with lastSeenAt := none } := by
    intro n
    rw [Node.set, if_neg (by decide), if_neg (by decide), if_neg (by decide),
      if_neg (by decide), if_neg (by decide), if_neg (by decide), if_pos (by decide)]
    rfl
  rw [decodeStruct_member (hcode _), decodeStruct_member (hname _),
    decodeStruct_member (haddress _), decodeStruct_member (hurl _),
    decodeStruct_member (hrole _), decodeStruct_member (henabled _),
    decodeStruct_member (hseen _)]
  rfl

omit [TimeJSON] in
theorem nodeJSON_obj (n : Node) : exists members, nodeJSON n = .obj members := ⟨_, rfl⟩

omit [TimeJSON] in
theorem heartbeat_body (d : ClusterDeps) (rl : Role) :
    (d.heartbeat rl).body = utf8 (String.ofList (nodeJSON (d.node rl)).marshal) := by
  rw [ClusterDeps.heartbeat]

theorem readNode_part {d : ClusterDeps} {rl : Role} {raw : Bytes}
    (hraw : raw <+: (d.heartbeat rl).body) {broken : Bool} {n : Node}
    (hread : readNode raw broken = some n) :
    raw = (d.heartbeat rl).body ∧ n = d.node rl := by
  rw [heartbeat_body] at hraw ⊢
  have hwritable := nodeJSON_writable (d.node rl)
  have hnode := decodeNode_nodeJSON (n := d.node rl) rfl
  rcases nodeJSON_obj (d.node rl) with ⟨members, hmembers⟩
  rw [hmembers] at hraw hwritable hnode ⊢
  rcases Option.bind_eq_some_iff.mp hread with ⟨v, hv, hn⟩
  rcases decodeFirst_cut hwritable hraw hv (complete_of_decodeStruct hn) with ⟨hwhole, hval⟩
  rw [hval, hnode] at hn
  exact ⟨hwhole, (Option.some.inj hn).symm⟩

theorem readNode_whole (d : ClusterDeps) (rl : Role) (broken : Bool) :
    readNode (d.heartbeat rl).body broken = some (d.node rl) := by
  have hnode := decodeNode_nodeJSON (n := d.node rl) rfl
  have hfirst := readFirst_marshal (nodeJSON_writable (d.node rl)) delimited_nil
  rcases nodeJSON_obj (d.node rl) with ⟨members, hmembers⟩
  rw [heartbeat_body, readNode, runes_utf8, String.toList_ofList]
  rw [hmembers, List.append_nil] at hfirst
  rw [hmembers] at hnode ⊢
  rw [decodeFirst, hfirst, Option.bind_some]
  exact hnode

end Body

/-!
## The header
-/

def readSecret (secret : String) : String :=
  let chars := (secret.toList.reverse.dropWhile isBlank).reverse
  if secret = "" then "" else if chars = [] then "Bearer" else String.ofList chars

theorem trimBlanks_bearer (secret : String) :
    trimBlanks ("Bearer " ++ secret) =
      if secret.toList.reverse.dropWhile isBlank = [] then "Bearer"
      else "Bearer " ++ String.ofList (secret.toList.reverse.dropWhile isBlank).reverse := by
  have hfirst : ("Bearer " ++ secret).toList.dropWhile isBlank = ("Bearer " ++ secret).toList := by
    rw [String.toList_append]
    exact List.dropWhile_cons_of_neg (by decide)
  unfold trimBlanks
  rw [hfirst, String.toList_append, List.reverse_append, List.dropWhile_append]
  split
  · rename_i hblank
    rw [if_pos (List.isEmpty_iff.mp hblank)]
    rfl
  · rename_i hblank
    rw [if_neg (fun hnil => hblank (List.isEmpty_iff.mpr hnil)), List.reverse_append,
      List.reverse_reverse, String.ofList_append, String.ofList_toList]

theorem trimPrefix_bearer (secret : String) :
    TrimPrefix ("Bearer " ++ secret) "Bearer " = secret := by
  unfold TrimPrefix
  rw [String.toList_append, if_pos (List.isPrefixOf_iff_prefix.mpr (List.prefix_append _ _)),
    List.drop_left' (by decide), String.ofList_toList]

theorem trimPrefix_arrived (secret : String) (hne : secret ≠ "") :
    TrimPrefix (trimBlanks ("Bearer " ++ secret)) "Bearer " = readSecret secret := by
  rw [trimBlanks_bearer]
  unfold readSecret
  dsimp only
  rw [if_neg hne]
  split
  · rename_i hblank
    rw [if_pos (List.reverse_eq_nil_iff.mpr hblank)]
    rfl
  · rename_i hblank
    rw [if_neg (fun hnil => hblank (List.reverse_eq_nil_iff.mp hnil)), trimPrefix_bearer]

theorem validHeaderValue_bearer (secret : String) :
    validHeaderValue ("Bearer " ++ secret) = validHeaderValue secret := by
  unfold validHeaderValue
  rw [String.toList_append, List.all_append]
  rfl

theorem heartbeat_arrives [TimeMarshal] (d : ClusterDeps) (rl : Role) :
    (d.heartbeat rl).arrives = none <-> validHeaderValue d.clusterSecret = false := by
  unfold HeartbeatRequest.arrives ClusterDeps.heartbeat
  dsimp only
  by_cases hempty : d.clusterSecret = ""
  · rw [if_pos hempty, hempty]
    exact ⟨nofun, nofun⟩
  · rw [if_neg hempty]
    dsimp only
    rw [validHeaderValue_bearer]
    split
    · rename_i hvalid
      rw [hvalid]
      exact ⟨nofun, nofun⟩
    · rename_i hinvalid
      exact ⟨fun _ => Bool.eq_false_iff.mpr hinvalid, fun _ => rfl⟩

theorem heartbeat_authorization [TimeMarshal] {d : ClusterDeps} {rl : Role}
    {authorization : String} (harrives : (d.heartbeat rl).arrives = some authorization) :
    TrimPrefix authorization "Bearer " = readSecret d.clusterSecret := by
  unfold HeartbeatRequest.arrives ClusterDeps.heartbeat at harrives
  dsimp only at harrives
  by_cases hempty : d.clusterSecret = ""
  · rw [if_pos hempty] at harrives
    cases harrives
    rw [hempty]
    rfl
  · rw [if_neg hempty] at harrives
    dsimp only at harrives
    split at harrives
    · rw [← Option.some.inj harrives, trimPrefix_arrived _ hempty]
    · cases harrives

theorem clusterAuthed_arrived [TimeMarshal] {d m : ClusterDeps} {rl : Role}
    {authorization : String} (harrives : (d.heartbeat rl).arrives = some authorization) :
    clusterAuthed m authorization = true <->
      m.clusterSecret ≠ "" ∧ readSecret d.clusterSecret = m.clusterSecret := by
  unfold clusterAuthed
  rw [heartbeat_authorization harrives]
  split
  · rename_i hempty
    simp [hempty]
  · rename_i hset
    rw [decide_eq_true_iff]
    exact ⟨fun h => ⟨hset, h⟩, fun h => h.right⟩

/-!
## What the master makes of it
-/

theorem handleHeartbeat_whole {ε : Type} [TimeJSON] [TimeMarshal] {d m : ClusterDeps}
    {rl : Role} {authorization : String} (hauthed : clusterAuthed m authorization = true)
    (hcode : d.selfCode ≠ "") (broken : Bool) :
    handleHeartbeat (ε := ε) m authorization (d.heartbeat rl).body broken =
      register (d.node rl) := by
  unfold handleHeartbeat
  rw [hauthed, readNode_whole]
  exact if_neg hcode

/--
The heartbeat of a replica arrives if its secret can be sent.  If the master has the
secret as it arrives, the node is upserted as it was meant once all of it is there,
and refused before; otherwise it is refused.
-/
theorem heartbeat_understood {ε : Type} [TimeJSON] [TimeMarshal] {d m : ClusterDeps}
    {es : List (ClusterEvent ε)} {req : HeartbeatRequest}
    {next : Except ε Nat -> ClusterProgram ε Unit}
    (hsent : Program.Steps (reportHeartbeat d) es (.call (.Do req) next)) :
    (req.arrives = none <-> validHeaderValue d.clusterSecret = false) ∧
      forall authorization, req.arrives = some authorization ->
        forall raw broken, Arrives req.body raw broken ->
          handleHeartbeat (ε := ε) m authorization raw broken =
            if m.clusterSecret = "" ∨ readSecret d.clusterSecret ≠ m.clusterSecret then
              refuse 401 .wrongSecret
            else if raw = req.body then register (d.node .Replica)
            else refuse 400 .needsCode := by
  have howes : ClusterOwes (.report d) es (.Do req) :=
    Contract.owes_of_onHistory (reportHeartbeat_owes d) hsent
  rcases howes with ⟨rfl, hcode, _⟩
  refine ⟨heartbeat_arrives d .Replica, ?_⟩
  intro authorization harrives raw broken hraw
  have hauthed := clusterAuthed_arrived (m := m) harrives
  by_cases hrefused : m.clusterSecret = "" ∨ readSecret d.clusterSecret ≠ m.clusterSecret
  · have hno : clusterAuthed m authorization = false := by
      rw [← Bool.not_eq_true, hauthed]
      rcases hrefused with hempty | hother
      · exact fun h => h.left hempty
      · exact fun h => hother h.right
    unfold handleHeartbeat
    rw [if_pos hrefused, hno]
    rfl
  · have hyes : clusterAuthed m authorization = true := by
      rw [hauthed]
      exact ⟨(not_or.mp hrefused).left, not_not.mp (not_or.mp hrefused).right⟩
    have hpart : raw <+: (d.heartbeat .Replica).body := by
      unfold Arrives at hraw
      split at hraw
      · exact hraw
      · exact hraw ▸ List.prefix_rfl
    rw [if_neg hrefused]
    by_cases hwhole : raw = (d.heartbeat .Replica).body
    · rw [if_pos hwhole, hwhole]
      exact handleHeartbeat_whole hyes hcode broken
    · unfold handleHeartbeat
      rw [if_neg hwhole, hyes]
      cases hread : readNode raw broken with
      | none => rfl
      | some n => exact absurd (readNode_part hpart hread).left hwhole

def sampleReplica : ClusterDeps where
  clusterSecret := "s3cret "
  selfCode := "r1"
  masterURL := "http://m1:8080"

/-- It registers all the same. -/
theorem sample_heartbeat_understood :
    letI : TimeJSON := ⟨fun _ => none⟩
    letI : TimeMarshal := ⟨fun _ => ""⟩
    exists authorization, (sampleReplica.heartbeat .Replica).arrives = some authorization ∧
      forall raw broken, Arrives (sampleReplica.heartbeat .Replica).body raw broken ->
        handleHeartbeat (ε := String) sampleMaster authorization raw broken =
          if raw = (sampleReplica.heartbeat .Replica).body then
            register (sampleReplica.node .Replica)
          else refuse 400 .needsCode := by
  let : TimeJSON := ⟨fun _ => none⟩
  let : TimeMarshal := ⟨fun _ => ""⟩
  let d := sampleReplica
  have hsteps : Program.Steps (reportHeartbeat (ε := String) d) [⟨.IsInRecovery, .ok true⟩]
      (.call (.Do (d.heartbeat .Replica)) fun _ => .done ()) := .call (.refl _)
  have hsecret : ¬ (sampleMaster.clusterSecret = "" ∨
      readSecret d.clusterSecret ≠ sampleMaster.clusterSecret) := by decide
  have hvalid : validHeaderValue d.clusterSecret = true := by decide
  rcases heartbeat_understood (m := sampleMaster) hsteps with ⟨harrives, hunderstood⟩
  cases hauthorization : (d.heartbeat .Replica).arrives with
  | none =>
      rw [harrives.mp hauthorization] at hvalid
      cases hvalid
  | some authorization =>
      refine ⟨authorization, rfl, ?_⟩
      intro raw broken hraw
      rw [hunderstood authorization hauthorization raw broken hraw, if_neg hsecret]

end Server
end Telemux
