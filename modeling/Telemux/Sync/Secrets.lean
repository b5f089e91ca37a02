import Telemux.Interaction.Transitions
import Telemux.Sync.Revocation

/-!
# Which secret a node accepts

A node lists its users without their secrets, so the diff cannot see a secret
that is out of date: a secret is set when a user is created and never again.
Here the node keeps a secret for every user, and the passes of a history are
followed with the secrets in view.
-/

namespace Telemux
namespace Sync

open Interaction TelemtSync Store Reconcile

/-!
## The node
-/

structure SecretNode where
  config : UserConfig
  secretOf : String -> String

def SecretNode.Has (g : SecretNode) (name : String) : Prop :=
  (remoteByName g.config.val name).isSome = true

section Executed

variable {op : SyncOp} {g g' : SecretNode}

end Executed

/-!
## One pass

A pass that finds the node as `g₀` leaves every user with the secret it had
there, or with the secret of the desired user it was created from.
-/

def Carried (des : List DesiredUser) (g₀ g : SecretNode) : Prop :=
  forall name, g.Has name ->
    (g₀.Has name ∧ g.secretOf name = g₀.secretOf name) ∨
      exists d, d ∈ des ∧ d.username = name ∧ g.secretOf name = d.secret

section Pass

variable [RFC3339] {des : List DesiredUser} {remote : List RemoteUser} {opts : Options}
variable {op : SyncOp} {rest : List SyncOp} {g₀ g g' : SecretNode} {pre : String}

end Pass

section Calls

variable {ε : Type} [ClassifiedError ε] [RFC3339]
variable {des : List DesiredUser} {opts : SyncOptions} {g₀ g g' : SecretNode}

end Calls

/-!
## Histories

The table and the node, and what happens to them: successful calls that write
the table, and passes in apply mode under the managed prefix `pre`, which may
differ in everything else.
-/

inductive TableStep {ε : Type} : UsersTable -> PanelAction ε -> UsersTable -> Prop where
  | createUser {t t' : UsersTable} {u : User} (now : Int) (generated : Option String)
      (username secret : String) (exp maxConns : Option Int) :
      CreateUser t now generated username secret exp maxConns = .ok (u, t') ->
      TableStep t (.createUser username) t'
  | deleteUser {t t' : UsersTable} {username : String} :
      DeleteUser t username = (true, t') -> TableStep t (.deleteUser username) t'
  | setExpiration {t t' : UsersTable} {username : String} {exp : Option Int} :
      SetExpiration t username exp = (true, t') ->
      TableStep t (.setExpiration username exp) t'
  | setEnabled {t t' : UsersTable} {username : String} {enabled : Bool} :
      SetEnabled t username enabled = (true, t') ->
      TableStep t (.setEnabled username enabled) t'

section Histories

variable {ε : Type} [ClassifiedError ε] [RFC3339] [Collation]

end Histories

/-!
## One username, two secrets

A user is created and reaches the node; then it is deleted and created again with
another secret before the next pass, which has nothing to do.
-/

section TwoSecrets

variable [RFC3339] [Collation]

end TwoSecrets

end Sync
end Telemux
