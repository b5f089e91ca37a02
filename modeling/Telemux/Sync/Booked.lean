import Telemux.Sync.Account

/-!
# What a result settles

The operations of a result are the diff of the last list, its counters never exceed
them, what the last attempt has sent is the diff as far as it got, and a call that
returns without an error has got through.
-/

namespace Telemux
namespace Sync

open Interaction TelemtSync

variable {ε : Type}

/-!
## What the last attempt has sent
-/

def lastSent (t : List (SyncEvent ε)) : List SyncOp :=
  mutations (lastAttempt t)

theorem lastSent_list {e : SyncEvent ε} (h : listReply e = true) (t : List (SyncEvent ε)) :
    lastSent (t ++ [e]) = [] := by
  rw [lastSent, lastAttempt_list h]
  rfl

theorem lastSent_snoc {e : SyncEvent ε} (h : listReply e = false) (t : List (SyncEvent ε)) :
    lastSent (t ++ [e]) = lastSent t ++ mutations [e] := by
  rw [lastSent, lastAttempt_snoc h]
  exact List.filterMap_append

/-!
## What it is the diff of
-/

section Diffed

variable [RFC3339]

variable {opts : SyncOptions} {ops : List SyncOp} {t : List (SyncEvent ε)}

end Diffed

/-!
## How far it got
-/

/-- `md` of the guard, after its default. -/
def SyncOptions.minDeletes (opts : SyncOptions) : Int :=
  if opts.massDelete.minDeletes = 0 then 5 else opts.massDelete.minDeletes

def Result.counted (res : Result ε) : Nat := res.applied + res.skipped + res.failed

/-- An attempt that has `rest` before it. -/
structure Underway (rest : List SyncOp) (res : Result ε) (t : List (SyncEvent ε)) : Prop where
  sent : lastSent t ++ rest = res.ops
  counted : res.counted + rest.length = res.ops.length
  aborted : res.aborted = false

structure Bounded (res : Result ε) (t : List (SyncEvent ε)) : Prop where
  sent : lastSent t <+: res.ops
  counted : res.counted ≤ res.ops.length

structure Booked (opts : SyncOptions) (res : Result ε) (err : Option (SyncError ε))
    (t : List (SyncEvent ε)) : Prop extends Bounded res t where
  /-- An abort is the guard's, and it sends nothing. -/
  aborted : res.aborted = true -> lastSent t = [] ∧ res.counted = 0 ∧ err = none ∧
    opts.force = false ∧ opts.minDeletes ≤ (res.ops.filter fun op => op.kind = .delete).length
  shadow : opts.mode = .shadow -> lastSent t = [] ∧ res.counted = 0
  /-- Without an error, nothing is left to send. -/
  complete : err = none -> opts.mode = .apply -> res.aborted = false ->
    lastSent t = res.ops ∧ res.counted = res.ops.length

theorem bounded_of_underway {rest : List SyncOp} {res : Result ε} {t : List (SyncEvent ε)}
    (h : Underway rest res t) : Bounded res t :=
  ⟨⟨rest, h.sent⟩, h.counted ▸ Nat.le_add_right _ _⟩

theorem underway_next {op : SyncOp} {rest : List SyncOp} {rev : String}
    {r : Except ε String} {res res' : Result ε} {t : List (SyncEvent ε)}
    (h : Underway (op :: rest) res t) (hops : res'.ops = res.ops)
    (hcounted : res'.counted = res.counted + 1) (haborted : res'.aborted = res.aborted) :
    Underway rest res' (t ++ [⟨.ApplyOp op rev, r⟩]) := by
  constructor
  · rw [lastSent_snoc rfl, hops, ← h.sent, List.append_assoc]
    rfl
  · rw [hcounted, hops, ← h.counted, List.length_cons, Nat.add_assoc, Nat.add_comm 1]
  · rw [haborted, h.aborted]

theorem bounded_next {op : SyncOp} {rest : List SyncOp} {rev : String}
    {r : Except ε String} {res : Result ε} {t : List (SyncEvent ε)}
    (h : Underway (op :: rest) res t) : Bounded res (t ++ [⟨.ApplyOp op rev, r⟩]) := by
  constructor
  · refine ⟨rest, ?_⟩
    rw [lastSent_snoc rfl, ← h.sent, List.append_assoc]
    rfl
  · exact h.counted ▸ Nat.le_add_right _ _

theorem underway_start (ops : List SyncOp) (t : List (SyncEvent ε))
    (listed : List RemoteUser × String) :
    Underway ops ({ ops := ops } : Result ε) (t ++ [⟨.ListUsers, .ok listed⟩]) := by
  constructor
  · rw [lastSent_list rfl]
    rfl
  · exact Nat.zero_add _
  · rfl

structure Stopped (opts : SyncOptions) (res : Result ε) (t : List (SyncEvent ε)) : Prop
    extends Bounded res t where
  aborted : res.aborted = false
  shadow : opts.mode = .shadow -> lastSent t = [] ∧ res.counted = 0

theorem booked_of_stopped {opts : SyncOptions} {res : Result ε} {err : SyncError ε}
    {t : List (SyncEvent ε)} (h : Stopped opts res t) : Booked opts res (some err) t := by
  refine ⟨h.toBounded, ?_, h.shadow, nofun⟩
  intro haborted
  rw [h.aborted] at haborted
  cases haborted

theorem stopped_of_bounded {opts : SyncOptions} {res : Result ε} {t : List (SyncEvent ε)}
    (h : Bounded res t) (hmode : opts.mode = .apply) (haborted : res.aborted = false) :
    Stopped opts res t := by
  refine ⟨h, haborted, ?_⟩
  intro hshadow
  rw [hmode] at hshadow
  cases hshadow

theorem stopped_start (opts : SyncOptions) {t : List (SyncEvent ε)} (h : lastSent t = []) :
    Stopped opts {} t :=
  ⟨⟨h ▸ List.nil_prefix, Nat.le_refl _⟩, rfl, fun _ => ⟨h, rfl⟩⟩

/-!
## The call
-/

variable [ClassifiedError ε]

theorem underway_loop (opts : SyncOptions) :
    LoopInvariant (ε := ε) traced
      (fun rest _ res t => opts.mode = .apply ∧ Underway rest res t)
      (fun res ending t =>
        match ending with
        | .finished => Booked opts res none t
        | .readOnly aerr => Booked opts res (some (.readOnly aerr)) t
        | .conflict => Stopped opts res t) := by
  constructor
  case owes => exact fun _ => trivial
  case success =>
    intro op rest rev res t newRev t' h heq
    subst heq
    exact ⟨h.left, underway_next h.right rfl (by simp only [Result.counted]; omega) rfl⟩
  case skip =>
    intro op rest rev res t aerr t' h heq _
    subst heq
    exact ⟨h.left, underway_next h.right rfl (by simp only [Result.counted]; omega) rfl⟩
  case failure =>
    intro op rest rev res t aerr t' h heq _
    subst heq
    exact ⟨h.left, underway_next h.right rfl (by simp only [Result.counted]; omega) rfl⟩
  case readOnly =>
    intro op rest rev res t aerr t' h heq _
    subst heq
    exact booked_of_stopped (stopped_of_bounded (bounded_next h.right) h.left h.right.aborted)
  case conflict =>
    intro op rest rev res t aerr t' h heq _
    subst heq
    exact stopped_of_bounded (bounded_next h.right) h.left h.right.aborted
  case finished =>
    intro rev res t h
    have hsent := h.right.sent
    rw [List.append_nil] at hsent
    have hstopped := stopped_of_bounded (bounded_of_underway h.right) h.left h.right.aborted
    refine ⟨hstopped.toBounded, ?_, hstopped.shadow, fun _ _ _ => ⟨hsent, h.right.counted⟩⟩
    intro haborted
    rw [h.right.aborted] at haborted
    cases haborted

variable [RFC3339]

theorem booked_call (opts : SyncOptions) (des : List DesiredUser) :
    CallInvariant (ε := ε) traced opts des (fun _ res t => Stopped opts res t)
      (fun _ _ rest _ res t => opts.mode = .apply ∧ Underway rest res t)
      (fun res err t => Booked opts res err t) := by
  constructor
  case exhausted => exact booked_of_stopped
  case owes => exact fun _ => trivial
  case listError =>
    intro left res t err t' h heq
    subst heq
    apply booked_of_stopped
    have hsame : lastSent (t ++ [(⟨.ListUsers, .error err⟩ : SyncEvent ε)]) = lastSent t := by
      rw [lastSent_snoc rfl]
      exact List.append_nil _
    exact ⟨⟨hsame ▸ h.sent, h.counted⟩, h.aborted, hsame ▸ h.shadow⟩
  case aborted =>
    intro left res t remote rev t' _ heq hstops
    subst heq
    have hnone : lastSent (t ++ [(⟨.ListUsers, .ok (remote, rev)⟩ : SyncEvent ε)]) = [] :=
      lastSent_list rfl t
    rw [SyncOptions.stops, Bool.and_eq_true, Bool.not_eq_true'] at hstops
    rcases hstops with ⟨hmassive, hforce⟩
    unfold IsMassDelete at hmassive
    rw [Bool.and_eq_true, decide_eq_true_iff] at hmassive
    refine ⟨⟨hnone ▸ List.nil_prefix, Nat.zero_le _⟩, ?_, fun _ => ⟨hnone, rfl⟩, ?_⟩
    · intro _
      exact ⟨hnone, rfl, rfl, hforce, hmassive.left⟩
    · intro _ _ habsent
      cases habsent
  case shadow =>
    intro left res t remote rev t' _ heq _ hmode
    subst heq
    have hnone : lastSent (t ++ [(⟨.ListUsers, .ok (remote, rev)⟩ : SyncEvent ε)]) = [] :=
      lastSent_list rfl t
    refine ⟨⟨hnone ▸ List.nil_prefix, Nat.zero_le _⟩, ?_, fun _ => ⟨hnone, rfl⟩, ?_⟩
    · intro haborted
      cases haborted
    · intro _ happly
      rw [hmode] at happly
      cases happly
  case start =>
    intro left res t remote rev t' _ heq _ hmode
    subst heq
    exact ⟨hmode, underway_start _ t (remote, rev)⟩
  case loop => exact fun _ _ => underway_loop opts

theorem syncNode_booked (opts : SyncOptions) :
    traced.Meets (SyncNode (ε := ε) opts) [] fun out t => Booked opts out.1 out.2 t := by
  apply syncNode_meets opts (J := fun _ _ res t => Stopped opts res t)
    (I := fun _ _ _ rest _ res t => opts.mode = .apply ∧ Underway rest res t)
    (Q := fun res err t => Booked opts res err t)
  · trivial
  · intro err t heq
    subst heq
    exact booked_of_stopped (stopped_start opts rfl)
  · intro des t heq
    subst heq
    exact ⟨booked_call opts des, stopped_start opts rfl⟩

end Sync
end Telemux
