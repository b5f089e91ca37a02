import Mathlib.Data.Rat.Defs
import Mathlib.Algebra.Order.Ring.Unbundled.Rat
import Telemux.Reconcile.Keyed

/-!
# The diff engine

Package `telemtsync`: the source of truth gives the desired users, the node
gives its current users, and `ComputeDiff` lists the operations that bring the
node to the desired state.  The functions are pure; the only thing they take
from outside is the reading of RFC 3339 timestamps.

Go strings are Lean strings, `*T` is `Option T`, `int` is `Int` where it is data
and `Nat` where it only counts.  `float64` fractions are exact rationals.
-/

namespace Telemux
namespace TelemtSync

open Reconcile

/-!
## Go's standard library
-/

/-- Timestamps as package `time` reads and writes them under `time.RFC3339`. -/
class RFC3339 where
  /-- `time.Parse(time.RFC3339, s)`: the instant, in nanoseconds, or an error. -/
  parse : String -> Option Int
  /-- `t.UTC().Format(time.RFC3339)`. -/
  format : Int -> String

@[reducible] def sampleClock : RFC3339 where
  parse s :=
    if s = "2026-07-01T00:00:00Z" ∨ s = "2026-07-01T00:00:00+00:00" then
      some 1782864000000000000
    else none
  format _ := "2026-07-01T00:00:00Z"

/-- `strings.HasPrefix`. -/
def HasPrefix (s pre : String) : Bool :=
  pre.toList.isPrefixOf s.toList

/-!
## Data model
-/

def ManagedPrefix : String := "sub_"

/-- A user as the source of truth wants it. -/
structure DesiredUser where
  username : String
  secret : String
  expirationRFC3339 : Option String
  maxTCPConns : Option Int
deriving DecidableEq, Repr

/-- A user as the node lists it; the secret is not listed. -/
structure RemoteUser where
  username : String
  enabled : Bool
  expirationRFC3339 : Option String
  maxTCPConns : Option Int
deriving DecidableEq, Repr

inductive OpKind where
  | create
  | patch
  | delete
deriving DecidableEq, Repr

/-- The fields a patch changes; the flags tell "set to null" from "leave alone". -/
structure PatchFields where
  setExpiration : Bool := false
  expirationRFC3339 : Option String := none
  setMaxTCPConns : Bool := false
  maxTCPConns : Option Int := none
  enabled : Option Bool := none
deriving DecidableEq, Repr

structure SyncOp where
  kind : OpKind
  username : String
  secret : String := ""
  expirationRFC3339 : Option String := none
  maxTCPConns : Option Int := none
  fields : PatchFields := {}
deriving DecidableEq, Repr

/-- Options of the diff; the empty prefix stands for the default one. -/
structure Options where
  managedPrefix : String := ""
deriving DecidableEq, Repr

/-- `Options.prefix`. -/
def Options.managed (o : Options) : String :=
  if o.managedPrefix = "" then ManagedPrefix else o.managedPrefix

/-!
## Comparing fields
-/

section Diff

variable [RFC3339]

def ExpirationEquals (a b : Option String) : Bool :=
  match a, b with
  | none, none => true
  | none, some _ => false
  | some _, none => false
  | some a, some b =>
      if a = b then true
      else
        match RFC3339.parse a, RFC3339.parse b with
        | some ta, some tb => decide (ta = tb)
        | _, _ => decide (a = b)

def intEqual (a b : Option Int) : Bool :=
  match a, b with
  | none, none => true
  | none, some _ => false
  | some _, none => false
  | some a, some b => decide (a = b)

/-- The fields of `r` to change, and whether there is any. -/
def patchFieldsFor (d : DesiredUser) (r : RemoteUser) : PatchFields × Bool :=
  let setExpiration := !ExpirationEquals d.expirationRFC3339 r.expirationRFC3339
  let setMaxTCPConns := !intEqual d.maxTCPConns r.maxTCPConns
  ({ setExpiration := setExpiration
     expirationRFC3339 := if setExpiration then d.expirationRFC3339 else none
     setMaxTCPConns := setMaxTCPConns
     maxTCPConns := if setMaxTCPConns then d.maxTCPConns else none
     -- an active subscription is always enabled; a disable is never emitted
     enabled := if r.enabled then none else some true },
   setExpiration || setMaxTCPConns || !r.enabled)

/-!
## ComputeDiff

The first loop of the source walks the desired users and appends to `creates` or
`patches`, the second walks the remote users and appends to `deletes`.
-/

/-- `remoteByName[name]`: of remote users with one name the last is kept. -/
def remoteByName (remote : List RemoteUser) (name : String) : Option RemoteUser :=
  lookup RemoteUser.username remote name

/-- `desiredByName[name]`. -/
def desiredByName (desired : List DesiredUser) (name : String) : Option DesiredUser :=
  lookup DesiredUser.username desired name

def createOp (d : DesiredUser) : SyncOp where
  kind := .create
  username := d.username
  secret := d.secret
  expirationRFC3339 := d.expirationRFC3339
  maxTCPConns := d.maxTCPConns

def patchOp (name : String) (f : PatchFields) : SyncOp where
  kind := .patch
  username := name
  fields := f

def deleteOp (name : String) : SyncOp where
  kind := .delete
  username := name

/-- What the first loop appends to `creates` for one desired user. -/
def createFor (remote : List RemoteUser) (d : DesiredUser) : Option SyncOp :=
  match remoteByName remote d.username with
  | none => some (createOp d)
  | some _ => none

/-- What the first loop appends to `patches` for one desired user. -/
def patchFor (remote : List RemoteUser) (d : DesiredUser) : Option SyncOp :=
  match remoteByName remote d.username with
  | none => none
  | some r =>
      if (patchFieldsFor d r).2 then some (patchOp d.username (patchFieldsFor d r).1)
      else none

omit [RFC3339] in
/-- What the second loop appends to `deletes` for one remote user. -/
def deleteFor (desired : List DesiredUser) (pre : String) (r : RemoteUser) :
    Option SyncOp :=
  if HasPrefix r.username pre then
    match desiredByName desired r.username with
    | none => some (deleteOp r.username)
    | some _ => none
  else none

def ComputeDiff (desired : List DesiredUser) (remote : List RemoteUser) (opts : Options) :
    List SyncOp :=
  desired.filterMap (createFor remote) ++
    desired.filterMap (patchFor remote) ++
    remote.filterMap (deleteFor desired opts.managed)

end Diff

/-!
## The mass-delete guard
-/

structure DiffSafety where
  totalRemoteManaged : Nat
  deleteCount : Nat
  deleteFraction : Rat

def ComputeSafety (ops : List SyncOp) (remote : List RemoteUser) (opts : Options) :
    DiffSafety :=
  let total := (remote.filter fun r => HasPrefix r.username opts.managed).length
  let del := (ops.filter fun o => decide (o.kind = .delete)).length
  { totalRemoteManaged := total
    deleteCount := del
    deleteFraction := if 0 < total then (del : Rat) / (total : Rat) else 0 }

structure MassDeleteOptions extends Options where
  /-- 0 stands for 1/2. -/
  fractionThreshold : Rat := 0
  /-- 0 stands for 5. -/
  minDeletes : Int := 0

def IsMassDelete (ops : List SyncOp) (remote : List RemoteUser)
    (opts : MassDeleteOptions) : Bool :=
  let ft : Rat := if opts.fractionThreshold = 0 then 1 / 2 else opts.fractionThreshold
  let md : Int := if opts.minDeletes = 0 then 5 else opts.minDeletes
  let s := ComputeSafety ops remote opts.toOptions
  decide ((s.deleteCount : Int) ≥ md) && decide (s.deleteFraction > ft)

end TelemtSync
end Telemux
