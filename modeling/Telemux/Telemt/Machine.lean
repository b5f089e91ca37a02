import Telemux.Telemt.Addressing
import Telemux.TelemtSync.NodeState

/-!
# A node with the machine API

The other side of the client: a node that keeps its users as JSON objects and
serves list, create, patch and delete over HTTP, with If-Match.  It only keeps
members of the right type; what it answers may be any text that reads as the
value it means.
-/

namespace Telemux
namespace Telemt

open Interaction Net TelemtSync Sync Reconcile

/-!
## Stored users
-/

structure StoredUser where
  username : String
  members : Object

/-- The integers a 64-bit `int` holds. -/
def IsInt64 (n : Int) : Prop := -2 ^ 63 ≤ n ∧ n < 2 ^ 63

instance (n : Int) : Decidable (IsInt64 n) := inferInstanceAs (Decidable (_ ∧ _))

def wellTyped (o : Object) : Bool :=
  (match o "enabled" with
    | none => true
    | some (.bool _) => true
    | some _ => false) &&
  (match o "max_tcp_conns" with
    | none => true
    | some (.int n) => decide (IsInt64 n)
    | some _ => false) &&
  match o "expiration_rfc3339" with
    | none => true
    | some (.str _) => true
    | some _ => false

structure MachineState where
  users : List StoredUser
  unique : Distinct StoredUser.username users
  typed : forall u, u ∈ users -> wellTyped u.members = true

def StoredUser.info (u : StoredUser) : Json :=
  .obj [("username", .str u.username),
    ("enabled", (u.members "enabled").getD .null),
    ("max_tcp_conns", (u.members "max_tcp_conns").getD .null),
    ("expiration_rfc3339", (u.members "expiration_rfc3339").getD .null)]

def MachineState.insert (s : MachineState) (u : StoredUser) : Option MachineState :=
  if h : lookup StoredUser.username s.users u.username = none ∧ wellTyped u.members = true then
    some
      { users := s.users ++ [u]
        unique := distinct_append_singleton s.unique h.left
        typed := by
          intro v hv
          rcases List.mem_append.mp hv with hold | hnew
          · exact s.typed v hold
          · rw [List.mem_singleton.mp hnew]
            exact h.right }
  else none

def MachineState.patch (s : MachineState) (username : String)
    (patch : List (String × Json)) : Option MachineState :=
  if h : forall u, u ∈ s.users -> u.username = username ->
      wellTyped (u.members.mergePatch patch) = true then
    some
      { users := s.users.map fun u =>
          if u.username = username then { u with members := u.members.mergePatch patch } else u
        unique := distinct_map_update s.unique
          (fun u => { u with members := u.members.mergePatch patch }) (fun _ => rfl) username
        typed := by
          intro v hv
          rcases List.mem_map.mp hv with ⟨u, hu, rfl⟩
          split
          · rename_i hname
            exact h u hu hname
          · exact s.typed u hu }
  else none

def MachineState.remove (s : MachineState) (username : String) : MachineState where
  users := s.users.filter fun u => decide (u.username ≠ username)
  unique := distinct_filter s.unique _
  typed := fun u hu => s.typed u (List.mem_filter.mp hu).left

/-!
## Requests
-/

inductive Reaction where
  | listed
  | changed (s : MachineState)
  | refused (status : Nat)

def MachineState.userAt (s : MachineState) (path : Bytes) : Option StoredUser :=
  lookup (fun u => usersPath ++ utf8 u.username) s.users path

def stale (req : HttpRequest) (revision : String) : Bool :=
  match req.ifMatch with
  | none => false
  | some ifMatch => decide (ifMatch ≠ revision)

def MachineState.react (s : MachineState) (revision : String) (req : HttpRequest) : Reaction :=
  match req.method with
  | .GET => if req.url.path = utf8 "/v1/users" then .listed else .refused 404
  | .POST =>
      if req.url.path ≠ utf8 "/v1/users" then .refused 404
      else if stale req revision then .refused 409
      else
        match req.body with
        | some (.obj members) =>
            match Object.ofMembers members "username" with
            | some (.str username) =>
                match s.insert ⟨username, Object.ofMembers members⟩ with
                | some s' => .changed s'
                | none => .refused 409
            | _ => .refused 400
        | _ => .refused 400
  | .PATCH =>
      match s.userAt req.url.path with
      | none => .refused 404
      | some u =>
          if stale req revision then .refused 409
          else
            match req.body with
            | some (.obj patch) =>
                match s.patch u.username patch with
                | some s' => .changed s'
                | none => .refused 400
            | _ => .refused 400
  | .DELETE =>
      match s.userAt req.url.path with
      | none => .refused 404
      | some u => if stale req revision then .refused 409 else .changed (s.remove u.username)

def envelope (data : Json) (revision : String) : Json :=
  .obj [("ok", .bool true), ("data", data), ("revision", .str revision)]

/--
A node that nobody else writes to, whose revisions are given by `revision`.  Its replies
are within what the client reads of them: 32 MiB of a list, 8 MiB of another reply.
-/
def machineAPI [JsonText] (revision : MachineState -> String) :
    Contract HttpRequest HttpReply MachineState where
  owes _ _ := True
  answers s req reply s' :=
    exists resp, reply = .ok resp ∧ resp.readFails = false ∧
      match s.react (revision s) req with
      | .listed =>
          s' = s ∧ resp.statusCode = 200 ∧ exists l : List StoredUser, l.Perm s.users ∧
            JsonText.read resp.body =
              some (envelope (.arr (l.map StoredUser.info)) (revision s))
      | .changed t =>
          s' = t ∧ 200 ≤ resp.statusCode ∧ resp.statusCode < 300 ∧ exists data,
            JsonText.read resp.body = some (envelope data (revision t))
      | .refused status => s' = s ∧ resp.statusCode = status

theorem machineAPI_answers [JsonText] (revision : MachineState -> String)
    (hjson : forall v, exists text, JsonText.read text = some v) (s : MachineState)
    (req : HttpRequest) : exists reply s', (machineAPI revision).answers s req reply s' := by
  cases hreact : s.react (revision s) req with
  | listed =>
      rcases hjson (envelope (.arr (s.users.map StoredUser.info)) (revision s)) with
        ⟨text, htext⟩
      refine ⟨.ok ⟨200, text, false⟩, s, _, rfl, rfl, ?_⟩
      rw [hreact]
      exact ⟨rfl, rfl, s.users, .refl _, htext⟩
  | changed t =>
      rcases hjson (envelope .null (revision t)) with ⟨text, htext⟩
      refine ⟨.ok ⟨200, text, false⟩, t, _, rfl, rfl, ?_⟩
      rw [hreact]
      exact ⟨rfl, Nat.le_refl 200, by simp, .null, htext⟩
  | refused status =>
      refine ⟨.ok ⟨status, "", false⟩, s, _, rfl, rfl, ?_⟩
      rw [hreact]
      exact ⟨rfl, rfl⟩

end Telemt
end Telemux
