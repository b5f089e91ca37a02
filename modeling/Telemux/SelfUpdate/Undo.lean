import Telemux.Interaction.Transitions
import Telemux.SelfUpdate.Atomicity

/-!
# Taking an update back

`Rollback` moves the backup over the binary, whatever the backup is.  It is the
binary from before the last swap if that swap made it; the swap does not say.
-/

namespace Telemux
namespace SelfUpdate

open Interaction Net

section Nil

variable {ε : Type} {path data tmp : Bytes} {fs₀ fs : Files} {t : List (FsEvent ε)}

/-!
## How a swap ends

Either a call failed and the swap returns its error, or it got through its steps.
-/

theorem removeTemp_runs {out out' : Option (SwapError ε)}
    (h : Program.Runs (removeTemp tmp out) t out') :
    out' = out ∧ exists r, t = [⟨.Remove tmp, r⟩] := by
  cases h with
  | call hrest =>
      cases hrest
      exact ⟨rfl, _, rfl⟩

theorem removeTemp_ne_nil {err : SwapError ε} {out : Option (SwapError ε)}
    (h : Program.Runs (removeTemp tmp (some err)) t out) : out ≠ none := by
  rw [(removeTemp_runs h).left]
  exact Option.some_ne_none err

theorem not_allSucceed {c : FsCall} {r : FsReply ε c}
    (h : Succeeds c r -> ¬ AllSucceed t) : ¬ AllSucceed (⟨c, r⟩ :: t) := by
  intro hall
  rcases allSucceed_cons.mp hall with ⟨hfirst, hrest⟩
  exact h hfirst hrest

def swapping (path tmp : Bytes) (backup removal : Except ε Unit) : List (FsEvent ε) :=
  [⟨.Rename path (bak path), backup⟩, ⟨.Rename tmp path, .ok ()⟩, ⟨.Remove tmp, removal⟩]

theorem replaceBinary_runs {out : Option (SwapError ε)}
    (h : Program.Runs (replaceBinary path tmp) t out) :
    (out ≠ none ∧ ¬ AllSucceed t) ∨
      out = none ∧ exists backup removal, t = swapping path tmp backup removal := by
  cases h with
  | @call _ _ backup _ _ hswap =>
      cases hswap with
      | @call _ _ r _ _ hrest =>
          cases r with
          | error err =>
              cases hrest with
              | call hremove =>
                  exact Or.inl ⟨removeTemp_ne_nil hremove,
                    not_allSucceed fun _ => not_allSucceed fun hfailed => nomatch hfailed⟩
          | ok _ =>
              rcases removeTemp_runs hrest with ⟨hnil, removal, rfl⟩
              exact Or.inr ⟨hnil, backup, removal, rfl⟩

theorem writeBinary_runs {out : Option (SwapError ε)}
    (h : Program.Runs (writeBinary path data tmp) t out) :
    (out ≠ none ∧ ¬ AllSucceed t) ∨
      exists u, t = ⟨.Write tmp data, .ok ()⟩ :: ⟨.Close tmp, .ok ()⟩ ::
          ⟨.Chmod tmp 0o755, .ok ()⟩ :: u ∧
        Program.Runs (replaceBinary path tmp) u out := by
  cases h with
  | @call _ _ r _ _ hclose =>
      cases r with
      | error err =>
          cases hclose with
          | call hremove =>
              exact Or.inl ⟨removeTemp_ne_nil hremove,
                not_allSucceed fun hfailed => nomatch hfailed⟩
      | ok _ =>
          cases hclose with
          | @call _ _ r _ _ hchmod =>
              cases r with
              | error err =>
                  exact Or.inl ⟨removeTemp_ne_nil hchmod,
                    not_allSucceed fun _ => not_allSucceed fun hfailed => nomatch hfailed⟩
              | ok _ =>
                  cases hchmod with
                  | @call _ _ r _ _ hreplace =>
                      cases r with
                      | error err =>
                          exact Or.inl ⟨removeTemp_ne_nil hreplace,
                            not_allSucceed fun _ => not_allSucceed fun _ =>
                              not_allSucceed fun hfailed => nomatch hfailed⟩
                      | ok _ => exact Or.inr ⟨_, rfl, hreplace⟩

theorem swapBinary_runs {out : Option (SwapError ε)}
    (h : Program.Runs (swapBinary path data) t out) :
    (out ≠ none ∧ ¬ AllSucceed t) ∨
      exists tmp u, t = preparing path data tmp ++ u ∧
        Program.Runs (replaceBinary path tmp) u out := by
  cases h with
  | @call _ _ r _ _ hwrite =>
      cases r with
      | error err =>
          cases hwrite
          exact Or.inl ⟨Option.some_ne_none _, not_allSucceed fun hfailed => nomatch hfailed⟩
      | ok tmp =>
          rcases writeBinary_runs hwrite with ⟨hout, hfailed⟩ | ⟨u, rfl, hreplace⟩
          · exact Or.inl ⟨hout, not_allSucceed fun _ => hfailed⟩
          · exact Or.inr ⟨tmp, u, rfl, hreplace⟩

theorem swapBinary_nil (h : Program.Runs (swapBinary path data) t none) :
    exists tmp backup removal,
      t = preparing path data tmp ++ swapping path tmp backup removal := by
  rcases swapBinary_runs h with ⟨hnone, _⟩ | ⟨tmp, u, rfl, hreplace⟩
  · exact absurd rfl hnone
  · rcases replaceBinary_runs hreplace with ⟨hnone, _⟩ | ⟨_, backup, removal, rfl⟩
    · exact absurd rfl hnone
    · exact ⟨tmp, backup, removal, rfl⟩

theorem preparing_files (h : (fileSystem ε).Answered fs₀ (preparing path data tmp) fs) :
    TempName (Dir path) (utf8 ".telemux-new-*") tmp ∧ fs₀ tmp = none ∧
      fs = Function.update fs₀ tmp (some (newBinary data)) := by
  cases h with
  | cons hcreate h =>
      cases h with
      | cons hwrite h =>
          cases h with
          | cons hclose h =>
              cases h with
              | cons hchmod h =>
                  cases h
                  rcases hcreate with ⟨hname, hfree, rfl⟩
                  rcases hwrite with ⟨old, mode, hold, rfl⟩
                  rw [Function.update_self] at hold
                  cases hold
                  cases (show _ = _ from hclose)
                  rcases hchmod with ⟨data', mode', hdata, rfl⟩
                  rw [Function.update_self] at hdata
                  cases hdata
                  refine ⟨hname, hfree, ?_⟩
                  rw [Function.update_idem, Function.update_idem]
                  rfl

inductive Effect (path data : Bytes) (fs₀ : Files) (t : List (FsEvent ε)) (fs : Files) :
    Prop where
  | backedUp : (path, bak path) ∈ renames t -> fs path = some (newBinary data) ->
      fs (bak path) = fs₀ path -> ¬ BinaryRemoved path t -> Effect path data fs₀ t fs
  | notBackedUp : (path, bak path) ∉ renames t -> fs path = some (newBinary data) ->
      fs (bak path) = fs₀ (bak path) -> ¬ BinaryRemoved path t -> Effect path data fs₀ t fs
  | removed : (path, bak path) ∉ renames t -> fs path = none -> BinaryRemoved path t ->
      Effect path data fs₀ t fs

theorem removed_iff {backup removal : Except ε Unit} :
    BinaryRemoved path (preparing path data tmp ++ swapping path tmp backup removal) <->
      tmp = path ∧ removal = .ok () := by
  simp [BinaryRemoved, preparing, swapping, eq_comm]

theorem backedUp_iff {backup removal : Except ε Unit} :
    (path, bak path) ∈ renames (preparing path data tmp ++ swapping path tmp backup removal) <->
      backup = .ok () := by
  have hne : path ≠ bak path := bak_ne path
  cases backup <;> simp [renames, renamed, preparing, swapping, hne]

theorem removal_other {removal : Except ε Unit} {fs' : Files} {name : Bytes}
    (h : (fileSystem ε).answers fs (.Remove tmp) removal fs') (hname : name ≠ tmp) :
    fs' name = fs name :=
  answers_other h (by simpa [touched] using hname)

theorem rename_other {a b name : Bytes} {r : Except ε Unit} {fs' : Files}
    (h : (fileSystem ε).answers fs (.Rename a b) r fs') (ha : name ≠ a) (hb : name ≠ b) :
    fs' name = fs name :=
  answers_other h (by simpa [touched] using ⟨ha, hb⟩)

theorem effect_of_backup {removal : Except ε Unit} {fs₁ fs₂ fs₃ : Files}
    (hready : fs₁ = Function.update fs₀ tmp (some (newBinary data))) (hbak : tmp ≠ bak path)
    (hbackup : (fileSystem ε).answers fs₁ (.Rename path (bak path)) (.ok ()) fs₂)
    (hmove : (fileSystem ε).answers fs₂ (.Rename tmp path) (.ok ()) fs₃)
    (hremove : (fileSystem ε).answers fs₃ (.Remove tmp) removal fs) :
    Effect path data fs₀ (preparing path data tmp ++ swapping path tmp (.ok ()) removal) fs := by
  have hne : path ≠ bak path := bak_ne path
  rcases rename_ok (ε := ε) hbackup hne with ⟨hkept, hgone⟩
  -- a temporary file of the binary's own name would have been moved aside
  have htmp : tmp ≠ path := by
    intro heq
    rcases hmove with ⟨node, hnode, _⟩
    rw [heq, hgone] at hnode
    cases hnode
  rcases rename_ok (ε := ε) hmove htmp with ⟨hnew, _⟩
  have hmoved : fs₂ tmp = fs₁ tmp := rename_other hbackup htmp hbak
  have hold : fs₃ (bak path) = fs₂ (bak path) := rename_other hmove hbak.symm hne.symm
  apply Effect.backedUp
  · exact backedUp_iff.mpr rfl
  · rw [removal_other hremove htmp.symm, hnew, hmoved, hready, Function.update_self]
  · rw [removal_other hremove hbak.symm, hold, hkept, hready,
      Function.update_of_ne htmp.symm]
  · rw [removed_iff]
    exact fun h => htmp h.left

theorem effect_without_backup {err : ε} {removal : Except ε Unit} {fs₁ fs₂ fs₃ : Files}
    (hready : fs₁ = Function.update fs₀ tmp (some (newBinary data))) (hbak : tmp ≠ bak path)
    (hbackup : (fileSystem ε).answers fs₁ (.Rename path (bak path)) (.error err) fs₂)
    (hmove : (fileSystem ε).answers fs₂ (.Rename tmp path) (.ok ()) fs₃)
    (hremove : (fileSystem ε).answers fs₃ (.Remove tmp) removal fs) :
    Effect path data fs₀ (preparing path data tmp ++ swapping path tmp (.error err) removal)
      fs := by
  have hne : path ≠ bak path := bak_ne path
  have hsame : fs₂ = fs₁ := hbackup
  subst hsame
  rcases hmove with ⟨node, hnode, _, rfl⟩
  rw [hready, Function.update_self] at hnode
  cases hnode
  have hnot : (path, bak path) ∉ renames (preparing path data tmp ++
      swapping path tmp (.error err) removal) := by
    rw [backedUp_iff]
    exact fun h => nomatch h
  have hold : Function.update (Function.update fs₂ tmp none) path
      (some (newBinary data)) (bak path) = fs₀ (bak path) := by
    rw [Function.update_of_ne hne.symm, Function.update_of_ne hbak.symm, hready,
      Function.update_of_ne hbak.symm]
  by_cases hremoved : tmp = path ∧ removal = .ok ()
  · rcases hremoved with ⟨rfl, rfl⟩
    apply Effect.removed hnot
    · rw [hremove.right, Function.update_self]
    · exact removed_iff.mpr ⟨rfl, rfl⟩
  · apply Effect.notBackedUp hnot
    · by_cases htmp : tmp = path
      · cases removal with
        | ok _ => exact absurd ⟨htmp, rfl⟩ hremoved
        | error err' =>
            rw [show fs = _ from hremove, Function.update_self]
      · rw [removal_other hremove (Ne.symm htmp), Function.update_self]
    · rw [removal_other hremove hbak.symm, hold]
    · rwa [removed_iff]

theorem swapBinary_effect (hruns : Program.Runs (swapBinary path data) t none)
    (hans : (fileSystem ε).Answered fs₀ t fs) : Effect path data fs₀ t fs := by
  rcases swapBinary_nil hruns with ⟨tmp, backup, removal, rfl⟩
  rcases Contract.answered_split hans with ⟨fs₁, hprepare, hswap⟩
  rcases preparing_files hprepare with ⟨hname, hfree, hready⟩
  have hbak : tmp ≠ bak path := temp_ne_bak hname
  cases hswap with
  | cons hbackup hswap =>
      cases hswap with
      | cons hmove hswap =>
          cases hswap with
          | cons hremove hswap =>
              cases hswap
              cases backup with
              | ok _ => exact effect_of_backup hready hbak hbackup hmove hremove
              | error err => exact effect_without_backup hready hbak hbackup hmove hremove

end Nil

/-!
## Rollbacks
-/

section Rollbacks

variable {ε : Type} {path : Bytes} {fs : Files}

/-- Every rollback whose rename succeeds returns nil and leaves `node` at the path. -/
def RollsBackTo (ε : Type) (path : Bytes) (fs : Files) (node : Option Node) : Prop :=
  forall (t : List (FsEvent ε)) err fs', Program.Runs (Rollback path) t err ->
    (fileSystem ε).Answered fs t fs' -> (bak path, path) ∈ renames t ->
    err = none ∧ fs' path = node

theorem rollback_renamed {t : List (FsEvent ε)} {err : Option (RollbackError ε)} {fs' : Files}
    (hruns : Program.Runs (Rollback path) t err) (hans : (fileSystem ε).Answered fs t fs')
    (hrenamed : (bak path, path) ∈ renames t) :
    err = none ∧ (fileSystem ε).answers fs (.Rename (bak path) path) (.ok ()) fs' := by
  cases hruns with
  | @call _ _ r _ _ hrest =>
      cases r with
      | error e =>
          cases hrest
          cases hrenamed
      | ok _ =>
          cases hrest with
          | @call _ _ r _ _ hrest =>
              cases r with
              | error e =>
                  cases hrest
                  cases hrenamed
              | ok _ =>
                  cases hrest
                  cases hans with
                  | cons hstat hans =>
                      cases hans with
                      | cons hrename hans =>
                          cases hans
                          have hsame := hstat.right
                          subst hsame
                          exact ⟨rfl, hrename⟩

theorem rollsBackTo_iff {data : Bytes} {mode : Nat} (hpath : fs path = some (.file data mode))
    (node : Option Node) :
    RollsBackTo ε path fs node <->
      (forall data mode, fs (bak path) ≠ some (.file data mode)) ∨ fs (bak path) = node := by
  constructor
  · intro hback
    by_contra hnot
    rw [not_or] at hnot
    rcases hnot with ⟨hfile, hother⟩
    have hbackup : exists old oldMode, fs (bak path) = some (.file old oldMode) := by
      by_contra hnone
      exact hfile fun old oldMode heq => hnone ⟨old, oldMode, heq⟩
    rcases hbackup with ⟨old, oldMode, hold⟩
    have hruns : Program.Runs (Rollback path)
        ([⟨.Stat (bak path), .ok ()⟩, ⟨.Rename (bak path) path, .ok ()⟩] : List (FsEvent ε))
        none := .call (.call (.refl _))
    have hstat : (fileSystem ε).answers fs (.Stat (bak path)) (.ok ()) fs :=
      ⟨by simp [hold], rfl⟩
    have hrename : (fileSystem ε).answers fs (.Rename (bak path) path) (.ok ())
        (Function.update (Function.update fs (bak path) none) path
          (some (.file old oldMode))) :=
      ⟨_, hold, Or.inr (by simp [hpath]), rfl⟩
    have hleft := (hback _ _ _ hruns (.cons hstat (.cons hrename (.nil _)))
      (List.mem_singleton_self _)).right
    rw [Function.update_self, ← hold] at hleft
    exact hother hleft
  · intro hbackup t err fs' hruns hans hrenamed
    rcases rollback_renamed hruns hans hrenamed with ⟨rfl, moved, hmoved, hreplace, rfl⟩
    refine ⟨rfl, ?_⟩
    rw [Function.update_self, ← hmoved]
    rcases hbackup with hfile | hnode
    · cases moved with
      | file old oldMode => exact absurd hmoved (hfile old oldMode)
      | directory => simp [Replaceable, hpath] at hreplace
    · exact hnode

end Rollbacks

/-!
## Sequences of updates
-/

/-- A complete call of `swapBinary`, with the files before and after it. -/
structure SwapCall (ε : Type) where
  before : Files
  after : Files
  data : Bytes
  events : List (FsEvent ε)
  err : Option (SwapError ε)

section Updates

variable {ε : Type} {path : Bytes}

structure SwapStep (path : Bytes) (fs : Files) (u : SwapCall ε) (fs' : Files) : Prop where
  before : u.before = fs
  after : u.after = fs'
  runs : Program.Runs (swapBinary path u.data) u.events u.err
  answered : (fileSystem ε).Answered fs u.events fs'

def Undoable (path : Bytes) (u : SwapCall ε) : Prop :=
  u.after path = some (newBinary u.data) ∧ RollsBackTo ε path u.after (u.before path)

/--
The binary was backed up, or there is no other file in the place of the backup;
and the binary was not taken for the temporary file.
-/
structure BackupSound (path : Bytes) (u : SwapCall ε) : Prop where
  backup : (path, bak path) ∈ renames u.events ∨
    (forall data mode, u.before (bak path) ≠ some (.file data mode)) ∨
      u.before (bak path) = u.before path
  kept : ¬ BinaryRemoved path u.events

theorem undoable_iff {fs fs' : Files} {u : SwapCall ε} (h : SwapStep path fs u fs')
    (hnil : u.err = none) : Undoable path u <-> BackupSound path u := by
  have hruns := h.runs
  rw [hnil] at hruns
  have hbefore := h.before
  have hafter := h.after
  subst hbefore
  subst hafter
  unfold Undoable
  cases swapBinary_effect hruns h.answered with
  | backedUp hbacked hnew hold hkept =>
      rw [rollsBackTo_iff hnew, hold]
      exact ⟨fun _ => ⟨Or.inl hbacked, hkept⟩, fun _ => ⟨hnew, Or.inr rfl⟩⟩
  | notBackedUp hnot hnew hold hkept =>
      rw [rollsBackTo_iff hnew, hold]
      constructor
      · intro hundo
        exact ⟨Or.inr hundo.right, hkept⟩
      · intro hsound
        rcases hsound.backup with hbacked | hbackup
        · exact absurd hbacked hnot
        · exact ⟨hnew, hbackup⟩
  | removed _ hgone hremoved =>
      constructor
      · intro hundo
        rw [hgone] at hundo
        cases hundo.left
      · intro hsound
        exact absurd hremoved hsound.kept

/-- In any sequence of updates, a rollback undoes a successful one iff its backup is sound. -/
theorem rollback_undoes_iff {fs₀ fs : Files} {us : List (SwapCall ε)}
    (hrun : Run (SwapStep path) fs₀ us fs) :
    forall u, u ∈ us -> u.err = none -> (Undoable path u <-> BackupSound path u) := by
  apply hrun.invariant
    (I := fun us _ => forall u, u ∈ us -> u.err = none ->
      (Undoable path u <-> BackupSound path u))
  · intro u hu
    cases hu
  · intro us fs last fs' _ hbefore hstep u hu hnil
    rcases List.mem_append.mp hu with hold | hnew
    · exact hbefore u hold hnil
    · rw [List.mem_singleton.mp hnew] at hnil ⊢
      exact undoable_iff hstep hnil

end Updates

/-!
## Two updates

One keeps the binary it replaces.  The other one fails to, and a rollback brings
back an older binary.
-/

section TwoUpdates

def sampleUnsaved : Files :=
  Function.update (Function.update sampleReady sampleTemp none) samplePath
    (some (newBinary [2]))

def unsavedUpdate : SwapCall String where
  before := sampleFiles
  after := sampleUnsaved
  data := [2]
  events := preparing samplePath [2] sampleTemp ++
    swapping samplePath sampleTemp (.error "denied") (.error "not found")
  err := none

theorem unsavedUpdate_step : SwapStep samplePath sampleFiles unsavedUpdate sampleUnsaved := by
  have hmoved : (fileSystem String).answers sampleReady (.Rename sampleTemp samplePath)
      (.ok ()) sampleUnsaved :=
    ⟨newBinary [2], Function.update_self _ _ _,
      Or.inr (by rw [sampleReady_path]; simp [binary, newBinary]), rfl⟩
  constructor
  · rfl
  · rfl
  · exact Program.steps_append preparing_steps (.call (.call (.call (.refl _))))
  · exact Contract.answered_append (preparing_answered sampleTemp_name sampleTemp_free)
      (.cons rfl (.cons hmoved (.cons rfl (.nil _))))

theorem rollback_undoes_iff_sample :
    Undoable samplePath unsavedUpdate <-> BackupSound samplePath unsavedUpdate :=
  rollback_undoes_iff (.snoc (.refl sampleFiles) unsavedUpdate_step) unsavedUpdate
    (List.mem_singleton_self _) rfl

theorem rollback_brings_back_older :
    Run (SwapStep samplePath) sampleFiles [unsavedUpdate] sampleUnsaved ∧
      unsavedUpdate.err = none ∧ unsavedUpdate.before samplePath = some (binary 1) ∧
      exists (t : List (FsEvent String)) (fs' : Files),
        Program.Runs (Rollback samplePath) t none ∧
          (fileSystem String).Answered unsavedUpdate.after t fs' ∧
          fs' samplePath = some (binary 0) := by
  have hbak : sampleUnsaved (bak samplePath) = some (binary 0) := by
    have hpath : bak samplePath ≠ samplePath := (bak_ne samplePath).symm
    have htemp : bak samplePath ≠ sampleTemp := by decide +kernel
    unfold sampleUnsaved
    rw [Function.update_of_ne hpath, Function.update_of_ne htemp, sampleReady_bak]
  have hruns : Program.Runs (Rollback samplePath)
      ([⟨.Stat (bak samplePath), .ok ()⟩, ⟨.Rename (bak samplePath) samplePath, .ok ()⟩] :
        List (FsEvent String)) none := .call (.call (.refl _))
  have hstat : (fileSystem String).answers sampleUnsaved (.Stat (bak samplePath)) (.ok ())
      sampleUnsaved := ⟨by simp [hbak], rfl⟩
  have hrename : (fileSystem String).answers sampleUnsaved
      (.Rename (bak samplePath) samplePath) (.ok ())
      (Function.update (Function.update sampleUnsaved (bak samplePath) none) samplePath
        (some (binary 0))) :=
    ⟨_, hbak, Or.inr (by simp [sampleUnsaved, binary, newBinary]), rfl⟩
  exact ⟨.snoc (.refl _) unsavedUpdate_step, rfl, sampleFiles_path, _, _, hruns,
    .cons hstat (.cons hrename (.nil _)), Function.update_self _ _ _⟩

end TwoUpdates

end SelfUpdate
end Telemux
