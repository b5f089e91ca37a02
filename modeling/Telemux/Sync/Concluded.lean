import Telemux.Sync.Account

/-!
# What the last attempt has read

A call that returns without an error has read both lists, and every operation after
them was acknowledged or counted as a failure.  A call that returns with an error got
something at last that it could not go on with.
-/

namespace Telemux
namespace Sync

open Interaction TelemtSync

variable {ε : Type} [ClassifiedError ε]

/-!
## Acknowledged operations
-/

def acknowledged : SyncEvent ε -> Bool
  | ⟨.ApplyOp _ _, .ok _⟩ => true
  | ⟨.ApplyOp _ _, .error aerr⟩ => decide (errorClass aerr = .alreadyDone)
  | ⟨.ListDesired, _⟩ => false
  | ⟨.ListUsers, _⟩ => false

def Refused (t : List (SyncEvent ε)) : Prop :=
  exists u e, t = u ++ [e] ∧ listReply e = false ∧ acknowledged e = false

theorem failure_of_acknowledged {e : SyncEvent ε} (h : acknowledged e = true) :
    failure e = none := by
  rcases e with ⟨c, r⟩
  cases c with
  | ListDesired => rfl
  | ListUsers => rfl
  | ApplyOp op rev =>
      cases r with
      | ok _ => rfl
      | error aerr =>
          have hclass : errorClass aerr = .alreadyDone := of_decide_eq_true h
          simp only [failure, hclass, reduceCtorEq, if_false]

theorem listReply_of_acknowledged {e : SyncEvent ε} (h : acknowledged e = true) :
    listReply e = false := by
  rcases e with ⟨c, r⟩
  cases c with
  | ListDesired => rfl
  | ListUsers => cases h
  | ApplyOp op rev => rfl

theorem mutation_of_answered {e : SyncEvent ε}
    (h : acknowledged e = true ∨ (failure e).isSome = true) : (mutation e).isSome = true := by
  rcases e with ⟨c, r⟩
  cases c with
  | ListDesired => rcases h with h | h <;> cases h
  | ListUsers => rcases h with h | h <;> cases h
  | ApplyOp op rev => rfl

variable [RFC3339]

/-!
## The attempt that returns
-/

/-- The result `res` of the attempt that read `remote`, after the events `t`. -/
structure Through (opts : SyncOptions) (des : List DesiredUser) (remote : List RemoteUser)
    (res : Result ε) (t : List (SyncEvent ε)) : Prop where
  read : exists before rev, t = attemptHistory des before remote rev (lastAttempt t)
  ops : res.ops = opts.diff des remote
  aborted : res.aborted = opts.stops des remote
  answered : forall e, e ∈ lastAttempt t -> acknowledged e = true ∨ (failure e).isSome = true

omit [ClassifiedError ε] [RFC3339] in
theorem attemptHistory_list {des : List DesiredUser} {remote : List RemoteUser} {rev : String}
    {t t' : List (SyncEvent ε)} (h : t = ⟨.ListDesired, .ok des⟩ :: t') :
    t ++ [⟨.ListUsers, .ok (remote, rev)⟩] = attemptHistory des t' remote rev
      (lastAttempt (t ++ [⟨.ListUsers, .ok (remote, rev)⟩])) := by
  rw [lastAttempt_list rfl, h]
  rfl

theorem through_list {opts : SyncOptions} {des : List DesiredUser} {remote : List RemoteUser}
    {rev : String} {res : Result ε} {t : List (SyncEvent ε)}
    (h : exists t', t = ⟨.ListDesired, .ok des⟩ :: t') (hops : res.ops = opts.diff des remote)
    (haborted : res.aborted = opts.stops des remote) :
    Through opts des remote res (t ++ [⟨.ListUsers, .ok (remote, rev)⟩]) := by
  rcases h with ⟨t', ht⟩
  constructor
  · exact ⟨t', rev, attemptHistory_list ht⟩
  · exact hops
  · exact haborted
  · intro e he
    rw [lastAttempt_list rfl] at he
    cases he

theorem through_snoc {opts : SyncOptions} {des : List DesiredUser} {remote : List RemoteUser}
    {res res' : Result ε} {t : List (SyncEvent ε)} {e : SyncEvent ε}
    (h : Through opts des remote res t) (hlist : listReply e = false)
    (hops : res'.ops = res.ops) (haborted : res'.aborted = res.aborted)
    (hanswer : acknowledged e = true ∨ (failure e).isSome = true) :
    Through opts des remote res' (t ++ [e]) := by
  rcases h.read with ⟨before, rev, ht⟩
  constructor
  · refine ⟨before, rev, ?_⟩
    rw [lastAttempt_snoc hlist, ← attemptHistory_snoc, ← ht]
  · rw [hops, h.ops]
  · rw [haborted, h.aborted]
  · rw [lastAttempt_snoc hlist]
    intro e' he'
    rcases List.mem_append.mp he' with hold | hnew
    · exact h.answered e' hold
    · rw [List.mem_singleton.mp hnew]
      exact hanswer

def Concluded (opts : SyncOptions) (res : Result ε) (err : Option (SyncError ε))
    (t : List (SyncEvent ε)) : Prop :=
  (err = none -> exists des remote, Through opts des remote res t) ∧
    (err ≠ none -> Refused t)

def Again (des : List DesiredUser) (t : List (SyncEvent ε)) : Prop :=
  (exists t', t = ⟨.ListDesired, .ok des⟩ :: t') ∧ Refused t

theorem concluded_of_refused {opts : SyncOptions} {res : Result ε} {err : SyncError ε}
    {t : List (SyncEvent ε)} (h : Refused t) : Concluded opts res (some err) t :=
  ⟨nofun, fun _ => h⟩

theorem concluded_of_through {opts : SyncOptions} {des : List DesiredUser}
    {remote : List RemoteUser} {res : Result ε} {t : List (SyncEvent ε)}
    (h : Through opts des remote res t) : Concluded opts res none t :=
  ⟨fun _ => ⟨des, remote, h⟩, fun herr => absurd rfl herr⟩

omit [RFC3339] in
theorem refused_snoc {t : List (SyncEvent ε)} {e : SyncEvent ε} (hlist : listReply e = false)
    (hanswer : acknowledged e = false) : Refused (t ++ [e]) :=
  ⟨t, e, rfl, hlist, hanswer⟩

omit [RFC3339] in
theorem refused_operation {op : SyncOp} {rev : String} {aerr : ε} {t : List (SyncEvent ε)}
    (hclass : errorClass aerr ≠ .alreadyDone) :
    Refused (t ++ [⟨.ApplyOp op rev, .error aerr⟩]) :=
  refused_snoc rfl (decide_eq_false hclass)

theorem through_loop (opts : SyncOptions) (des : List DesiredUser) (remote : List RemoteUser) :
    LoopInvariant (ε := ε) traced (fun _ _ res t => Through opts des remote res t)
      (fun res ending t =>
        match ending with
        | .finished => Concluded opts res none t
        | .readOnly aerr => Concluded opts res (some (.readOnly aerr)) t
        | .conflict => Again des t) := by
  constructor
  case owes => exact fun _ => trivial
  case success =>
    intro op rest rev res t newRev t' h heq
    subst heq
    exact through_snoc h rfl rfl rfl (.inl rfl)
  case skip =>
    intro op rest rev res t aerr t' h heq hclass
    subst heq
    exact through_snoc h rfl rfl rfl (.inl (decide_eq_true hclass))
  case failure =>
    intro op rest rev res t aerr t' h heq hclass
    subst heq
    exact through_snoc h rfl rfl rfl (.inr (by simp only [failure, hclass, if_true]; rfl))
  case readOnly =>
    intro op rest rev res t aerr t' _ heq hclass
    subst heq
    exact concluded_of_refused (refused_operation (by rw [hclass]; exact ErrorClass.noConfusion))
  case conflict =>
    intro op rest rev res t aerr t' h heq hclass
    subst heq
    rcases h.read with ⟨before, rev', ht⟩
    exact ⟨⟨_, congrArg (· ++ [_]) ht⟩, refused_operation (by rw [hclass]; exact ErrorClass.noConfusion)⟩
  case finished => exact concluded_of_through

theorem through_call (opts : SyncOptions) (des : List DesiredUser) :
    CallInvariant (ε := ε) traced opts des (fun _ _ t => Again des t)
      (fun _ remote _ _ res t => Through opts des remote res t)
      (fun res err t => Concluded opts res err t) := by
  constructor
  case exhausted => exact fun h => concluded_of_refused h.right
  case owes => exact fun _ => trivial
  case listError =>
    intro left res t err t' _ heq
    subst heq
    exact concluded_of_refused (refused_snoc rfl rfl)
  case aborted =>
    intro left res t remote rev t' h heq hstops
    subst heq
    exact concluded_of_through (through_list h.left rfl hstops.symm)
  case shadow =>
    intro left res t remote rev t' h heq hstops _
    subst heq
    exact concluded_of_through (through_list h.left rfl hstops.symm)
  case start =>
    intro left res t remote rev t' h heq hstops _
    subst heq
    exact through_list h.left rfl hstops.symm
  case loop => exact fun _ remote => through_loop opts des remote

theorem syncNode_concluded (opts : SyncOptions) :
    traced.Meets (SyncNode (ε := ε) opts) [] fun out t => Concluded opts out.1 out.2 t := by
  apply syncNode_meets opts (J := fun des _ _ t => Again des t)
    (I := fun des _ remote _ _ res t => Through opts des remote res t)
    (Q := fun res err t => Concluded opts res err t)
  · trivial
  · intro err t heq
    subst heq
    exact concluded_of_refused (refused_snoc rfl rfl)
  · intro des t heq
    subst heq
    exact ⟨through_call opts des, ⟨[], rfl⟩, refused_snoc (t := []) rfl rfl⟩

/-!
## Reading the history of an attempt
-/

omit [RFC3339] in
theorem lastAttempt_history {des : List DesiredUser} {before sent : List (SyncEvent ε)}
    {remote : List RemoteUser} {rev : String}
    (h : forall e, e ∈ sent -> acknowledged e = true) :
    lastAttempt (attemptHistory des before remote rev sent) = sent := by
  induction sent using List.reverseRecOn with
  | nil => exact lastAttempt_list rfl (⟨.ListDesired, .ok des⟩ :: before)
  | append_singleton sent e ih =>
      have hlast := listReply_of_acknowledged (h e (List.mem_append_right _ List.mem_cons_self))
      rw [← attemptHistory_snoc, lastAttempt_snoc hlast,
        ih fun e' he' => h e' (List.mem_append_left _ he')]

omit [RFC3339] in
theorem not_refused_history {des : List DesiredUser} {before sent : List (SyncEvent ε)}
    {remote : List RemoteUser} {rev : String}
    (h : forall e, e ∈ sent -> acknowledged e = true) :
    ¬ Refused (attemptHistory des before remote rev sent) := by
  intro hrefused
  rcases hrefused with ⟨u, e, ht, hlist, hanswer⟩
  cases sent using List.reverseRecOn with
  | nil =>
      have hend : (⟨.ListDesired, .ok des⟩ :: before) ++
          [⟨.ListUsers, .ok (remote, rev)⟩] = u ++ [e] := ht
      have hlast := List.append_inj_right' hend rfl
      rw [← List.singleton_inj.mp hlast] at hlist
      cases hlist
  | append_singleton sent e' =>
      rw [← attemptHistory_snoc] at ht
      have hlast := List.append_inj_right' ht rfl
      have hacknowledged := h e' (List.mem_append_right _ List.mem_cons_self)
      rw [List.singleton_inj.mp hlast, hanswer] at hacknowledged
      cases hacknowledged

omit [ClassifiedError ε] [RFC3339] in
theorem attemptHistory_inj {des des' : List DesiredUser} {before before' : List (SyncEvent ε)}
    {remote remote' : List RemoteUser} {rev rev' : String} {sent : List (SyncEvent ε)}
    (h : attemptHistory des before remote rev sent =
      attemptHistory des' before' remote' rev' sent) : des = des' ∧ remote = remote' := by
  rcases List.cons.inj h with ⟨hdes, hrest⟩
  have hlist := (List.cons.inj (List.append_inj_right' hrest rfl)).left
  constructor
  · cases hdes
    rfl
  · cases hlist
    rfl

end Sync
end Telemux
