import Telemux.Sync.FaithfulNode
import Telemux.Sync.Revocation

/-!
# A node that nobody else writes to

Between the list of an attempt and its end only the attempt changes the node, so no
operation of the diff is done already, and a clean call leaves the node in its target.
What a node keeps beside its users does not matter here.
-/

namespace Telemux
namespace Sync

open Interaction TelemtSync Store Reconcile

section Nodes

variable {ε γ : Type} [ClassifiedError ε]

/--
Only the operations of the call change the users of the node, and each does so under the
name that it carries.  This is about `NodeAPI`: over HTTP a name that changes the path may
reach another user.
-/
structure SoleNode (K : List DesiredUser -> Contract SyncCall (SyncReply ε) γ)
    (config : γ -> UserConfig) : Prop where
  owes : forall des g c, (K des).owes g c
  desired : forall {des g listed g'}, (K des).answers g .ListDesired (.ok listed) g' ->
    listed = des
  lists : forall {des g listed rev g'}, (K des).answers g .ListUsers (.ok (listed, rev)) g' ->
    listed.Perm (config g').val
  performs : forall {des g op rev newRev g'},
    (K des).answers g (.ApplyOp op rev) (.ok newRev) g' -> config g' = (config g).applyOp op
  refuses_done : forall {des g op rev err g'},
    (K des).answers g (.ApplyOp op rev) (.error err) g' -> errorClass err = .alreadyDone ->
    ((remoteByName (config g).val op.username).isSome = true <-> op.kind = .create)

theorem panelNode_sole : SoleNode (panelNode ε) PanelNode.config := by
  constructor
  case owes => exact fun _ _ _ => trivial
  case desired => exact fun hans => hans.left
  case lists => exact fun hans => hans.right ▸ hans.left
  case performs => exact fun hans => hans.config
  case refuses_done =>
    intro des g op rev err g' hans hclass
    rcases hans with ⟨hother, _⟩ | ⟨_, hdone⟩
    · rw [hclass] at hother
      cases hother
    · rw [← has_iff]
      exact hdone hclass

/-!
## One attempt
-/

variable [RFC3339]

/--
An attempt that read `remote` and has `rest` before it: while nothing has failed, the
users of the node are those of the list after what was sent.
-/
structure Alone (opts : SyncOptions) (des : List DesiredUser) (remote : List RemoteUser)
    (rest : List SyncOp) (res : Result ε) (users : List RemoteUser) : Prop where
  distinct : DistinctUsers remote
  effect : exists sent, sent ++ rest = opts.diff des remote ∧
    (res.failed = 0 -> remoteByName users = remoteByName (applyOps remote sent))

def Reached (opts : SyncOptions) (des : List DesiredUser) (res : Result ε)
    (err : Option (SyncError ε)) (users : List RemoteUser) : Prop :=
  err = none -> res.aborted = false -> res.failed = 0 -> opts.mode = .apply ->
    InTarget des opts.massDelete.toOptions users

variable {opts : SyncOptions} {des : List DesiredUser} {remote users users' : List RemoteUser}
variable {op : SyncOp} {rest : List SyncOp} {res res' : Result ε}

omit [ClassifiedError ε] in
theorem alone_start (hperm : remote.Perm users) (husers : DistinctUsers users)
    (res : Result ε) : Alone opts des remote (opts.diff des remote) res users := by
  have hdistinct : DistinctUsers remote :=
    (hperm.map RemoteUser.username).nodup_iff.mpr husers
  refine ⟨hdistinct, [], rfl, ?_⟩
  intro _
  funext name
  exact (lookup_perm hdistinct hperm name).symm

omit [ClassifiedError ε] in
theorem alone_performed (h : Alone opts des remote (op :: rest) res users)
    (husers : users' = applyOp users op) (hfailed : res'.failed = res.failed) :
    Alone opts des remote rest res' users' := by
  rcases h.effect with ⟨sent, hsent, heffect⟩
  refine ⟨h.distinct, sent ++ [op], by rw [← hsent, List.append_assoc]; rfl, ?_⟩
  intro h0
  rw [applyOps_snoc, husers]
  exact remoteByName_applyOps_congr [op] (heffect (hfailed ▸ h0))

omit [ClassifiedError ε] in
theorem alone_failed (h : Alone opts des remote (op :: rest) res users)
    (hfailed : res'.failed ≠ 0) : Alone opts des remote rest res' users' := by
  rcases h.effect with ⟨sent, hsent, _⟩
  exact ⟨h.distinct, sent ++ [op], by rw [← hsent, List.append_assoc]; rfl,
    fun h0 => absurd h0 hfailed⟩

omit [ClassifiedError ε] in
theorem not_done (hdes : DistinctDesired des)
    (h : Alone opts des remote (op :: rest) res users) (hfailed : res.failed = 0) :
    ¬ ((remoteByName users op.username).isSome = true <-> op.kind = .create) := by
  rcases h.effect with ⟨sent, hsent, heffect⟩
  have hperm : (sent ++ op :: rest).Perm (ComputeDiff des remote opts.massDelete.toOptions) := by
    rw [hsent, SyncOptions.diff]
  have happlies := applies_in_turn hdes h.distinct hperm
  unfold Applies at happlies
  rw [← heffect hfailed] at happlies
  intro hdone
  cases hfound : remoteByName users op.username with
  | none =>
      have hkind := happlies.mp hfound
      rw [hfound] at hdone
      cases hdone.mpr hkind
  | some r =>
      rw [hfound] at hdone happlies
      cases happlies.mpr (hdone.mp rfl)

omit [ClassifiedError ε] in
theorem reached_of_alone (hdes : DistinctDesired des)
    (h : Alone opts des remote [] res users) : Reached opts des res none users := by
  intro _ _ hfailed _
  rcases h.effect with ⟨sent, hsent, heffect⟩
  rw [List.append_nil] at hsent
  have htarget := applyOps_inTarget hdes h.distinct (List.Perm.of_eq hsent)
  exact inTarget_congr (heffect hfailed).symm htarget

/-!
## The call
-/

variable {K : List DesiredUser -> Contract SyncCall (SyncReply ε) γ} {config : γ -> UserConfig}

theorem alone_loop (hsole : SoleNode K config) (hdes : DistinctDesired des)
    (remote : List RemoteUser) :
    LoopInvariant (K des) (fun rest _ res g => Alone opts des remote rest res (config g).val)
      (fun res ending g =>
        match ending with
        | .finished => Reached opts des res none (config g).val
        | .readOnly aerr => Reached opts des res (some (.readOnly aerr)) (config g).val
        | .conflict => True) := by
  constructor
  case owes => exact fun _ => hsole.owes _ _ _
  case success =>
    intro op rest rev res g newRev g' h hans
    exact alone_performed h (congrArg Subtype.val (hsole.performs hans)) rfl
  case skip =>
    intro op rest rev res g aerr g' h hans hclass
    by_cases hfailed : res.failed = 0
    · exact absurd (hsole.refuses_done hans hclass) (not_done hdes h hfailed)
    · exact alone_failed h hfailed
  case failure =>
    intro op rest rev res g aerr g' h hans _
    exact alone_failed h (Nat.succ_ne_zero _)
  case readOnly =>
    intro op rest rev res g aerr g' _ _ _ hnone
    cases hnone
  case conflict => exact fun _ _ _ => trivial
  case finished => exact reached_of_alone hdes

theorem alone_call (hsole : SoleNode K config) (hdes : DistinctDesired des) :
    CallInvariant (K des) opts des (fun _ _ _ => True)
      (fun _ remote rest _ res g => Alone opts des remote rest res (config g).val)
      (fun res err g => Reached opts des res err (config g).val) := by
  constructor
  case exhausted =>
    intro res g _ hnone
    cases hnone
  case owes => exact fun _ => hsole.owes _ _ _
  case listError =>
    intro left res g err g' _ _ hnone
    cases hnone
  case aborted =>
    intro left res g remote rev g' _ _ _ _ haborted
    cases haborted
  case shadow =>
    intro left res g remote rev g' _ _ _ hmode _ _ _ happly
    rw [hmode] at happly
    cases happly
  case start =>
    intro left res g remote rev g' _ hans _ _
    exact alone_start (hsole.lists hans) (config g').property _
  case loop => exact fun _ remote => alone_loop hsole hdes remote

theorem syncNode_reached (hsole : SoleNode K config) (hdes : DistinctDesired des) (g : γ) :
    (K des).Meets (SyncNode opts) g fun out g' =>
      Reached opts des out.1 out.2 (config g').val := by
  apply syncNode_meets opts (J := fun _ _ _ _ => True)
    (I := fun des _ remote rest _ res g => Alone opts des remote rest res (config g).val)
    (Q := fun res err g => Reached opts des res err (config g).val)
  · exact hsole.owes _ _ _
  · intro err g' _ hnone
    cases hnone
  · intro des' g' hans
    cases hsole.desired hans
    exact ⟨alone_call hsole hdes, trivial⟩

end Nodes

end Sync
end Telemux
