import Telemux.SelfUpdate.Swap

/-!
# What is at the path while it is swapped

The old binary is moved aside before the new one is moved in, so for a moment
there is none; and the rename that takes the first move back does not look
whether there was one.
-/

namespace Telemux
namespace SelfUpdate

open Interaction Net

variable {ε : Type} {path data : Bytes} {fs₀ fs : Files}

def Whole (path data : Bytes) (fs₀ fs : Files) : Prop :=
  fs path = fs₀ path ∨ fs path = some (newBinary data)

def Refilled (path : Bytes) (rs : List (Bytes × Bytes)) : Prop :=
  (path, bak path) ∈ rs -> exists src, (src, path) ∈ rs

/-- What is moved back without having been moved aside is `node`, or another like it. -/
def StaleOnly (path : Bytes) (fs₀ : Files) (rs : List (Bytes × Bytes))
    (nodes : List (Option Node)) : Prop :=
  (path, bak path) ∉ rs -> (bak path, path) ∈ rs -> fs₀ (bak path) ∈ nodes

theorem whole_iff {rs : List (Bytes × Bytes)} {new kept : Option Node}
    (h : Replaced path data fs₀ rs new kept) (hpath : fs₀ path ≠ none) :
    (new = fs₀ path ∨ new = some (newBinary data)) <->
      Refilled path rs ∧ StaleOnly path fs₀ rs [fs₀ path, some (newBinary data)] := by
  have hne : path ≠ bak path := bak_ne path
  cases h with
  | untouched => simp [Refilled, StaleOnly]
  | aside => simp [Refilled, StaleOnly, hne, hpath.symm]
  | swapped hbak => simp [Refilled, StaleOnly, hne]
  | swappedAlone hbak => simp [Refilled, StaleOnly, hne.symm, hbak.symm]
  | restored => simp [Refilled, StaleOnly]
  | restoredStale => simp [Refilled, StaleOnly, hne]

theorem old_iff {rs : List (Bytes × Bytes)} {new kept : Option Node}
    (h : Replaced path data fs₀ rs new kept) (hpath : fs₀ path ≠ none)
    (hnot : ¬ exists tmp, tmp ≠ bak path ∧ (tmp, path) ∈ rs) :
    new = fs₀ path <->
      ((path, bak path) ∈ rs -> (bak path, path) ∈ rs) ∧ StaleOnly path fs₀ rs [fs₀ path] := by
  have hne : path ≠ bak path := bak_ne path
  cases h with
  | untouched => simp [StaleOnly]
  | aside => simp [StaleOnly, hne, hpath.symm]
  | swapped hbak => exact absurd ⟨_, hbak, by simp⟩ hnot
  | swappedAlone hbak => exact absurd ⟨_, hbak, by simp⟩ hnot
  | restored => simp [StaleOnly]
  | restoredStale => simp [StaleOnly, hne]

/--
Wherever a swap stops the path is whole, unless the old binary was moved aside
and nothing moved in, or an older backup was moved back over the binary.
-/
theorem swapBinary_atomic_iff {old : Bytes} {mode : Nat} {t : List (FsEvent ε)}
    {q : Program FsCall (FsReply ε) (Option (SwapError ε))}
    (hpath : fs₀ path = some (.file old mode))
    (hsteps : Program.Steps (swapBinary path data) t q)
    (hans : (fileSystem ε).Answered fs₀ t fs) :
    (Whole path data fs₀ fs <->
        Refilled path (renames t) ∧
          StaleOnly path fs₀ (renames t) [fs₀ path, some (newBinary data)]) ∧
      forall err, q = .done (some err) ->
        (fs path = fs₀ path <->
          ((path, bak path) ∈ renames t -> (bak path, path) ∈ renames t) ∧
            StaleOnly path fs₀ (renames t) [fs₀ path]) := by
  have hsome : fs₀ path ≠ none := by simp [hpath]
  rcases swapBinary_stops hsome hsteps hans with ⟨hswap, hend⟩
  constructor
  · exact whole_iff hswap.replaced hsome
  · intro err herr
    apply old_iff hswap.replaced hsome
    intro hdone
    have hnone := (hend _ herr).mpr hdone
    cases hnone

/-!
## Two stops

The process dies between the two renames; and the backup fails, the swap fails,
and an older binary is moved back over the live one.
-/

section Stops

def samplePath : Bytes := utf8 "/b/telemux"

def sampleTemp : Bytes := utf8 "/b/.telemux-new-7"

def binary (v : UInt8) : Node := .file [v] 0o755

def sampleFiles : Files :=
  Function.update (Function.update (fun _ => none) samplePath (some (binary 1)))
    (bak samplePath) (some (binary 0))

theorem sampleTemp_name : TempName (Dir samplePath) (utf8 ".telemux-new-*") sampleTemp :=
  ⟨[0x37], List.cons_ne_nil _ _, List.forall_mem_singleton.mpr rfl, rfl⟩

theorem sampleTemp_ne_path : sampleTemp ≠ samplePath :=
  ne_of_apply_ne List.length (by decide)

theorem sampleTemp_ne_bak : sampleTemp ≠ bak samplePath :=
  ne_of_apply_ne List.length (by decide)

theorem sampleTemp_free : sampleFiles sampleTemp = none := by
  unfold sampleFiles
  rw [Function.update_of_ne sampleTemp_ne_bak, Function.update_of_ne sampleTemp_ne_path]

theorem sampleFiles_path : sampleFiles samplePath = some (binary 1) := by
  unfold sampleFiles
  rw [Function.update_of_ne (bak_ne samplePath), Function.update_self]

theorem sampleFiles_bak : sampleFiles (bak samplePath) = some (binary 0) :=
  Function.update_self _ _ _

def sampleReady : Files :=
  Function.update sampleFiles sampleTemp (some (newBinary [2]))

theorem sampleReady_path : sampleReady samplePath = some (binary 1) := by
  unfold sampleReady
  rw [Function.update_of_ne sampleTemp_ne_path.symm, sampleFiles_path]

theorem sampleReady_bak : sampleReady (bak samplePath) = some (binary 0) := by
  unfold sampleReady
  rw [Function.update_of_ne sampleTemp_ne_bak.symm, sampleFiles_bak]

def sampleAside : Files :=
  Function.update (Function.update sampleReady samplePath none) (bak samplePath)
    (some (binary 1))

theorem sampleAside_path : sampleAside samplePath = none := by
  unfold sampleAside
  rw [Function.update_of_ne (bak_ne samplePath), Function.update_self]

theorem sample_aside :
    (fileSystem String).answers sampleReady (.Rename samplePath (bak samplePath)) (.ok ())
      sampleAside :=
  ⟨binary 1, sampleReady_path, Or.inr (by rw [sampleReady_bak]; simp [binary]), rfl⟩

def sampleBack : Files :=
  Function.update (Function.update sampleAside (bak samplePath) none) samplePath
    (some (binary 1))

theorem sample_back :
    (fileSystem String).answers sampleAside (.Rename (bak samplePath) samplePath) (.ok ())
      sampleBack :=
  ⟨binary 1, Function.update_self _ _ _, Or.inl sampleAside_path, rfl⟩

/-- A swap whose second rename fails, and which moves the old binary back. -/
theorem swapBinary_atomic_iff_sample :
    let t : List (FsEvent String) :=
      preparing samplePath [2] sampleTemp ++
        [⟨.Rename samplePath (bak samplePath), .ok ()⟩,
          ⟨.Rename sampleTemp samplePath, .error "denied"⟩,
          ⟨.Rename (bak samplePath) samplePath, .ok ()⟩,
          ⟨.Remove sampleTemp, .error "denied"⟩]
    (Whole samplePath [2] sampleFiles sampleBack <->
        Refilled samplePath (renames t) ∧
          StaleOnly samplePath sampleFiles (renames t)
            [sampleFiles samplePath, some (newBinary [2])]) ∧
      forall err, Program.done (some (SwapError.swap "denied")) =
          (Program.done (some err) : Program FsCall (FsReply String) _) ->
        (sampleBack samplePath = sampleFiles samplePath <->
          ((samplePath, bak samplePath) ∈ renames t ->
              (bak samplePath, samplePath) ∈ renames t) ∧
            StaleOnly samplePath sampleFiles (renames t) [sampleFiles samplePath]) :=
  swapBinary_atomic_iff sampleFiles_path
    (Program.steps_append preparing_steps (.call (.call (.call (.call (.refl _))))))
    (Contract.answered_append (preparing_answered sampleTemp_name sampleTemp_free)
      (.cons sample_aside (.cons rfl (.cons sample_back (.cons rfl (.nil _))))))

def sampleStale : Files :=
  Function.update (Function.update sampleReady (bak samplePath) none) samplePath
    (some (binary 0))

theorem sample_stale :
    (fileSystem String).answers sampleReady (.Rename (bak samplePath) samplePath) (.ok ())
      sampleStale :=
  ⟨binary 0, sampleReady_bak, Or.inr (by rw [sampleReady_path]; simp [binary]), rfl⟩

/--
After the first rename there is nothing at the path; and a swap that returns an
error may leave the backup of an earlier binary there.
-/
theorem swapBinary_leaves_gap :
    (exists (t : List (FsEvent String)) (q : Program FsCall (FsReply String) _) (fs : Files),
      Program.Steps (swapBinary samplePath [2]) t q ∧
        (fileSystem String).Answered sampleFiles t fs ∧ fs samplePath = none) ∧
    (exists (t : List (FsEvent String)) (err : SwapError String) (fs : Files),
      Program.Runs (swapBinary samplePath [2]) t (some err) ∧
        (fileSystem String).Answered sampleFiles t fs ∧
        ¬ Whole samplePath [2] sampleFiles fs) := by
  constructor
  · exact ⟨_, _, sampleAside,
      Program.steps_append preparing_steps (.call (.refl _)),
      Contract.answered_append (preparing_answered sampleTemp_name sampleTemp_free)
        (.cons sample_aside (.nil _)), sampleAside_path⟩
  · have hruns : Program.Runs (swapBinary samplePath [2])
        (preparing samplePath [2] sampleTemp ++
          [⟨.Rename samplePath (bak samplePath), .error "denied"⟩,
            ⟨.Rename sampleTemp samplePath, .error "denied"⟩,
            ⟨.Rename (bak samplePath) samplePath, .ok ()⟩,
            ⟨.Remove sampleTemp, .error "denied"⟩])
        (some (.swap "denied")) :=
      Program.steps_append preparing_steps (.call (.call (.call (.call (.refl _)))))
    refine ⟨_, _, sampleStale, hruns, ?_, ?_⟩
    · exact Contract.answered_append (preparing_answered sampleTemp_name sampleTemp_free)
        (.cons rfl (.cons rfl (.cons sample_stale (.cons rfl (.nil _)))))
    · unfold Whole sampleStale
      rw [Function.update_self, sampleFiles_path]
      simp [binary, newBinary]

end Stops

end SelfUpdate
end Telemux
