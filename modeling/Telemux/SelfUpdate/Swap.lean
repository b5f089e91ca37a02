import Telemux.SelfUpdate.FileSystem

/-!
# Swapping the binary

Package `selfupdate`: `swapBinary` writes the new binary to a temporary file,
moves the old one aside and the new one into its place; `Rollback` moves the old
one back.  Both are programs over the file system.
-/

namespace Telemux
namespace SelfUpdate

open Interaction Net

def bak (path : Bytes) : Bytes := path ++ utf8 ".bak"

def newBinary (data : Bytes) : Node := .file data 0o755

/-- The errors of `swapBinary`, by the step that failed. -/
inductive SwapError (ε : Type) where
  | temp (err : ε)
  | write (err : ε)
  | close (err : ε)
  | chmod (err : ε)
  | swap (err : ε)

/-- The errors of `Rollback`. -/
inductive RollbackError (ε : Type) where
  | noBackup (err : ε)
  | rename (err : ε)

section Programs

variable {ε : Type}

/-- The deferred `os.Remove(tmpName)`. -/
def removeTemp (tmpName : Bytes) (out : Option (SwapError ε)) :
    Program FsCall (FsReply ε) (Option (SwapError ε)) :=
  .call (.Remove tmpName) fun _ => .done out

/-- The two renames of `swapBinary`, and the one that takes the first back. -/
def replaceBinary (path tmpName : Bytes) :
    Program FsCall (FsReply ε) (Option (SwapError ε)) :=
  -- the error of the backup is ignored
  .call (.Rename path (bak path)) fun _ =>
    .call (.Rename tmpName path) fun
      | .error err =>
          .call (.Rename (bak path) path) fun _ => removeTemp tmpName (some (.swap err))
      | .ok _ => removeTemp tmpName none

/-- The steps of `swapBinary` once it has its temporary file. -/
def writeBinary (path data tmpName : Bytes) :
    Program FsCall (FsReply ε) (Option (SwapError ε)) :=
  .call (.Write tmpName data) fun
    | .error err => .call (.Close tmpName) fun _ => removeTemp tmpName (some (.write err))
    | .ok _ =>
        .call (.Close tmpName) fun
          | .error err => removeTemp tmpName (some (.close err))
          | .ok _ =>
              .call (.Chmod tmpName 0o755) fun
                | .error err => removeTemp tmpName (some (.chmod err))
                | .ok _ => replaceBinary path tmpName

def swapBinary (path data : Bytes) : Program FsCall (FsReply ε) (Option (SwapError ε)) :=
  .call (.CreateTemp (Dir path) (utf8 ".telemux-new-*")) fun
    | .error err => .done (some (.temp err))
    | .ok tmpName => writeBinary path data tmpName

def Rollback (path : Bytes) : Program FsCall (FsReply ε) (Option (RollbackError ε)) :=
  .call (.Stat (bak path)) fun
    | .error err => .done (some (.noBackup err))
    | .ok _ =>
        .call (.Rename (bak path) path) fun
          | .error err => .done (some (.rename err))
          | .ok _ => .done none

end Programs

/-!
## Names
-/

theorem bak_ne (path : Bytes) : path ≠ bak path := by
  intro h
  have hlength := congrArg List.length h
  unfold bak at hlength
  rw [List.length_append] at hlength
  have hsuffix : (utf8 ".bak").length = 4 := rfl
  omega

theorem pattern_suffix : (prefixAndSuffix (utf8 ".telemux-new-*")).2 = [] := rfl

theorem temp_ne_bak {path dir tmp : Bytes}
    (h : TempName dir (utf8 ".telemux-new-*") tmp) : tmp ≠ bak path := by
  rcases h with ⟨random, hrandom, hdigits, rfl⟩
  rw [pattern_suffix, List.append_nil]
  intro heq
  have hlast := congrArg List.getLast? heq
  have hk : (utf8 ".bak").getLast? = some 0x6b := rfl
  have hsuffix : utf8 ".bak" ≠ [] := fun hnil => by simp [hnil] at hk
  unfold bak at hlast
  rw [List.getLast?_append_of_ne_nil _ hrandom,
    List.getLast?_append_of_ne_nil _ hsuffix, hk] at hlast
  have hdigit := hdigits _ (List.mem_of_getLast? hlast)
  cases hdigit

/-!
## Where a swap stands

What is at the two names follows from the renames that succeeded so far.
-/

section Stages

variable {ε : Type}

/-- `Replaced path data fs₀ rs new old`: after the renames `rs`, what the two names hold. -/
inductive Replaced (path data : Bytes) (fs₀ : Files) :
    List (Bytes × Bytes) -> Option Node -> Option Node -> Prop where
  | untouched : Replaced path data fs₀ [] (fs₀ path) (fs₀ (bak path))
  | aside : Replaced path data fs₀ [(path, bak path)] none (fs₀ path)
  | swapped {tmp : Bytes} : tmp ≠ bak path ->
      Replaced path data fs₀ [(path, bak path), (tmp, path)] (some (newBinary data)) (fs₀ path)
  | swappedAlone {tmp : Bytes} : tmp ≠ bak path ->
      Replaced path data fs₀ [(tmp, path)] (some (newBinary data)) (fs₀ (bak path))
  | restored :
      Replaced path data fs₀ [(path, bak path), (bak path, path)] (fs₀ path) none
  | restoredStale : Replaced path data fs₀ [(bak path, path)] (fs₀ (bak path)) none

def BinaryRemoved (path : Bytes) (t : List (FsEvent ε)) : Prop :=
  (⟨.Remove path, .ok ()⟩ : FsEvent ε) ∈ t

structure Swapping (path data : Bytes) (fs₀ fs : Files) (t : List (FsEvent ε)) : Prop where
  replaced : Replaced path data fs₀ (renames t) (fs path) (fs (bak path))
  kept : ¬ BinaryRemoved path t

def SwapDone (path : Bytes) (t : List (FsEvent ε)) : Prop :=
  exists tmp, tmp ≠ bak path ∧ (tmp, path) ∈ renames t

theorem renames_snoc (t : List (FsEvent ε)) (e : FsEvent ε) :
    renames (t ++ [e]) = renames t ++ (renamed e).toList := by
  cases hr : renamed e <;> simp [renames, hr]

variable {path data tmp : Bytes} {fs₀ fs fs' : Files} {t : List (FsEvent ε)}

theorem swapping_frame {c : FsCall} {r : FsReply ε c} (h : Swapping path data fs₀ fs t)
    (hans : fileSystemAnswers fs c r fs') (hrenamed : renamed ⟨c, r⟩ = none)
    (hpath : path ∉ touched c r) (hbak : bak path ∉ touched c r) :
    Swapping path data fs₀ fs' (t ++ [⟨c, r⟩]) := by
  constructor
  · rw [renames_snoc, hrenamed, Option.toList_none, List.append_nil,
      answers_other hans hpath, answers_other hans hbak]
    exact h.replaced
  · intro hremoved
    rcases List.mem_append.mp hremoved with hold | hnew
    · exact h.kept hold
    · cases List.mem_singleton.mp hnew
      exact hpath List.mem_cons_self

def SwapEnd (path data : Bytes) (fs₀ : Files) (out : Option (SwapError ε))
    (g : Files × List (FsEvent ε)) : Prop :=
  Swapping path data fs₀ g.1 g.2 ∧ (out = none <-> SwapDone path g.2)

/-- The contract of a swap that found the files `fs₀`. -/
def swapContract (ε : Type) (path data : Bytes) (fs₀ : Files) :
    Contract FsCall (FsReply ε) (Files × List (FsEvent ε)) :=
  (fileSystem ε).recorded (Swapping path data fs₀)

theorem swap_call {α : Type} {c : FsCall} {next : FsReply ε c -> Program FsCall (FsReply ε) α}
    {Q : α -> Files × List (FsEvent ε) -> Prop} (h : Swapping path data fs₀ fs t)
    (hnext : forall r fs', fileSystemAnswers fs c r fs' ->
      (swapContract ε path data fs₀).Meets (next r) (fs', t ++ [⟨c, r⟩]) Q) :
    (swapContract ε path data fs₀).Meets (.call c next) (fs, t) Q := by
  refine ⟨h, ?_⟩
  intro r g' hans
  rcases g' with ⟨fs', t'⟩
  rcases hans with ⟨hans, rfl⟩
  exact hnext r fs' hans

theorem removeTemp_meets {out : Option (SwapError ε)} (h : Swapping path data fs₀ fs t)
    (htmp : tmp ≠ path) (hbak : tmp ≠ bak path) (hout : out = none <-> SwapDone path t) :
    (swapContract ε path data fs₀).Meets (removeTemp tmp out) (fs, t)
      (SwapEnd path data fs₀) := by
  apply swap_call h
  intro r fs' hans
  have hrenamed : renamed (⟨.Remove tmp, r⟩ : FsEvent ε) = none := rfl
  constructor
  · apply swapping_frame h hans hrenamed
    · simpa [touched] using htmp.symm
    · simpa [touched] using hbak.symm
  · rw [hout]
    unfold SwapDone
    simp only [renames_snoc, hrenamed, Option.toList_none, List.append_nil]

theorem rename_ok {a b : Bytes}
    (hans : fileSystemAnswers fs (.Rename a b) (.ok () : Except ε Unit) fs') (hne : a ≠ b) :
    fs' b = fs a ∧ fs' a = none := by
  rcases hans with ⟨node, hnode, _, rfl⟩
  constructor
  · rw [Function.update_self, hnode]
  · rw [Function.update_of_ne hne, Function.update_self]

theorem replaced_nil (hnone : renames t = []) (h : Swapping path data fs₀ fs t) :
    fs path = fs₀ path ∧ fs (bak path) = fs₀ (bak path) := by
  have hreplaced := h.replaced
  rw [hnone] at hreplaced
  generalize fs path = new at hreplaced ⊢
  generalize fs (bak path) = old at hreplaced ⊢
  cases hreplaced
  exact ⟨rfl, rfl⟩

def BeforeSwap (path : Bytes) (fs₀ fs : Files) (t : List (FsEvent ε)) : Prop :=
  (renames t = [] ∧ fs path = fs₀ path ∧ fs (bak path) = fs₀ (bak path)) ∨
    (renames t = [(path, bak path)] ∧ fs path = none ∧ fs (bak path) = fs₀ path)

theorem swapping_of_beforeSwap (h : BeforeSwap path fs₀ fs t) (hkept : ¬ BinaryRemoved path t) :
    Swapping path data fs₀ fs t := by
  refine ⟨?_, hkept⟩
  rcases h with ⟨hrenames, hpath, hold⟩ | ⟨hrenames, hpath, hold⟩
  · rw [hrenames, hpath, hold]
    exact .untouched
  · rw [hrenames, hpath, hold]
    exact .aside

theorem beforeSwap_snoc (h : BeforeSwap path fs₀ fs t) {e : FsEvent ε}
    (hrenamed : renamed e = none) : BeforeSwap path fs₀ fs (t ++ [e]) := by
  unfold BeforeSwap at h ⊢
  rwa [renames_snoc, hrenamed, Option.toList_none, List.append_nil]

theorem not_swapDone_of_beforeSwap (h : BeforeSwap path fs₀ fs t) : ¬ SwapDone path t := by
  intro hdone
  rcases hdone with ⟨tmp, _, hmem⟩
  rcases h with ⟨hrenames, _, _⟩ | ⟨hrenames, _, _⟩
  · rw [hrenames] at hmem
    cases hmem
  · rw [hrenames, List.mem_singleton, Prod.mk.injEq] at hmem
    exact bak_ne path hmem.right

theorem kept_rename {a b : Bytes} {r : Except ε Unit} (hkept : ¬ BinaryRemoved path t) :
    ¬ BinaryRemoved path (t ++ [⟨.Rename a b, r⟩]) := by
  intro hremoved
  rcases List.mem_append.mp hremoved with hold | hnew
  · exact hkept hold
  · cases List.mem_singleton.mp hnew

theorem restore_meets {err : ε} (h : BeforeSwap path fs₀ fs t)
    (hkept : ¬ BinaryRemoved path t) (htmp : tmp ≠ path) (hbak : tmp ≠ bak path) :
    (swapContract ε path data fs₀).Meets
      (.call (.Rename (bak path) path) fun _ => removeTemp tmp (some (.swap err))) (fs, t)
      (SwapEnd path data fs₀) := by
  apply swap_call (swapping_of_beforeSwap h hkept)
  intro r fs' hans
  have hkept' : ¬ BinaryRemoved path (t ++ [⟨.Rename (bak path) path, r⟩]) := kept_rename hkept
  cases r with
  | error err' =>
      have hsame : fs' = fs := hans
      subst hsame
      have hbefore : BeforeSwap path fs₀ fs' (t ++ [⟨.Rename (bak path) path, .error err'⟩]) :=
        beforeSwap_snoc h rfl
      apply removeTemp_meets (swapping_of_beforeSwap hbefore hkept') htmp hbak
      simpa using not_swapDone_of_beforeSwap hbefore
  | ok _ =>
      rcases rename_ok hans (bak_ne path).symm with ⟨hnew, hgone⟩
      have hrenames : renames (t ++ [⟨.Rename (bak path) path, .ok ()⟩]) =
          renames t ++ [(bak path, path)] := renames_snoc t _
      have hswapping : Swapping path data fs₀ fs'
          (t ++ [⟨.Rename (bak path) path, .ok ()⟩]) := by
        refine ⟨?_, hkept'⟩
        rw [hrenames, hnew, hgone]
        rcases h with ⟨hnone, _, hold⟩ | ⟨haside, _, hold⟩
        · rw [hnone, hold]
          exact .restoredStale
        · rw [haside, hold]
          exact .restored
      apply removeTemp_meets hswapping htmp hbak
      have hnot : ¬ SwapDone path (t ++ [⟨.Rename (bak path) path, .ok ()⟩]) := by
        intro hdone
        rcases hdone with ⟨tmp', hne, hmem⟩
        rw [hrenames] at hmem
        rcases List.mem_append.mp hmem with hold | hlast
        · exact not_swapDone_of_beforeSwap h ⟨tmp', hne, hold⟩
        · cases List.mem_singleton.mp hlast
          exact hne rfl
      simpa using hnot

theorem beforeSwap_backup (h : BeforeSwap path fs₀ fs t) (hnone : renames t = [])
    {r : Except ε Unit} (hans : fileSystemAnswers fs (.Rename path (bak path)) r fs') :
    BeforeSwap path fs₀ fs' (t ++ [⟨.Rename path (bak path), r⟩]) := by
  have hold : fs path = fs₀ path ∧ fs (bak path) = fs₀ (bak path) := by
    rcases h with ⟨_, hold⟩ | ⟨haside, _⟩
    · exact hold
    · rw [hnone] at haside
      cases haside
  unfold BeforeSwap
  rw [renames_snoc, hnone, List.nil_append]
  cases r with
  | error err =>
      have hsame : fs' = fs := hans
      subst hsame
      exact Or.inl ⟨rfl, hold⟩
  | ok _ =>
      rcases rename_ok hans (bak_ne path) with ⟨hmoved, hgone⟩
      exact Or.inr ⟨rfl, hgone, hmoved.trans hold.left⟩

theorem swapping_done (h : BeforeSwap path fs₀ fs t) (hkept : ¬ BinaryRemoved path t)
    (htmp : tmp ≠ path) (hbak : tmp ≠ bak path) (hready : fs tmp = some (newBinary data))
    (hans : fileSystemAnswers fs (.Rename tmp path) (.ok () : Except ε Unit) fs') :
    Swapping path data fs₀ fs' (t ++ [⟨.Rename tmp path, .ok ()⟩]) ∧
      SwapDone path (t ++ [⟨.Rename tmp path, .ok ()⟩]) := by
  rcases rename_ok hans htmp with ⟨hnew, _⟩
  have hold : fs' (bak path) = fs (bak path) :=
    answers_other hans (by simpa [touched] using ⟨hbak.symm, (bak_ne path).symm⟩)
  have hrenames : renames (t ++ [⟨.Rename tmp path, .ok ()⟩]) = renames t ++ [(tmp, path)] :=
    renames_snoc t _
  constructor
  · refine ⟨?_, kept_rename hkept⟩
    rw [hrenames, hnew, hready, hold]
    rcases h with ⟨hnone, _, hbackup⟩ | ⟨haside, _, hbackup⟩
    · rw [hnone, hbackup]
      exact .swappedAlone hbak
    · rw [haside, hbackup]
      exact .swapped hbak
  · refine ⟨tmp, hbak, ?_⟩
    rw [hrenames]
    exact List.mem_append_right _ (List.mem_singleton_self _)

theorem replaceBinary_meets (h : BeforeSwap path fs₀ fs t) (hnone : renames t = [])
    (hkept : ¬ BinaryRemoved path t) (htmp : tmp ≠ path) (hbak : tmp ≠ bak path)
    (hready : fs tmp = some (newBinary data)) :
    (swapContract ε path data fs₀).Meets (replaceBinary path tmp) (fs, t)
      (SwapEnd path data fs₀) := by
  apply swap_call (swapping_of_beforeSwap h hkept)
  intro r fs₁ hans
  have hkept₁ : ¬ BinaryRemoved path (t ++ [⟨.Rename path (bak path), r⟩]) := kept_rename hkept
  have hready₁ : fs₁ tmp = some (newBinary data) := by
    rw [answers_other hans (by simpa [touched] using ⟨htmp, hbak⟩)]
    exact hready
  have hbefore₁ := beforeSwap_backup h hnone hans
  generalize t ++ [⟨.Rename path (bak path), r⟩] = t₁ at hkept₁ hbefore₁ ⊢
  apply swap_call (swapping_of_beforeSwap hbefore₁ hkept₁)
  intro r₂ fs₂ hans₂
  cases r₂ with
  | error err =>
      have hsame : fs₂ = fs₁ := hans₂
      subst hsame
      exact restore_meets (beforeSwap_snoc hbefore₁ rfl) (kept_rename hkept₁) htmp hbak
  | ok _ =>
      rcases swapping_done hbefore₁ hkept₁ htmp hbak hready₁ hans₂ with ⟨hswapping, hdone⟩
      apply removeTemp_meets hswapping htmp hbak
      simpa using hdone

theorem swapping_prepare (htmp : tmp ≠ path) (hbak : tmp ≠ bak path)
    (h : Swapping path data fs₀ fs t) (hnone : renames t = []) {c : FsCall}
    {r : FsReply ε c} (hans : fileSystemAnswers fs c r fs') (hrenamed : renamed ⟨c, r⟩ = none)
    (htouched : touched c r ⊆ [tmp]) :
    Swapping path data fs₀ fs' (t ++ [⟨c, r⟩]) ∧ renames (t ++ [⟨c, r⟩]) = [] := by
  constructor
  · apply swapping_frame h hans hrenamed
    · exact fun hmem => htmp (List.mem_singleton.mp (htouched hmem)).symm
    · exact fun hmem => hbak (List.mem_singleton.mp (htouched hmem)).symm
  · rw [renames_snoc, hnone, hrenamed]
    rfl

theorem removeTemp_fails (htmp : tmp ≠ path) (hbak : tmp ≠ bak path)
    (h : Swapping path data fs₀ fs t) (hnone : renames t = []) (out : SwapError ε) :
    (swapContract ε path data fs₀).Meets (removeTemp tmp (some out)) (fs, t)
      (SwapEnd path data fs₀) := by
  apply removeTemp_meets h htmp hbak
  simp [SwapDone, hnone]

theorem writeBinary_meets (h : Swapping path data fs₀ fs t) (hnone : renames t = [])
    (htmp : tmp ≠ path) (hbak : tmp ≠ bak path) {mode : Nat}
    (hempty : fs tmp = some (.file [] mode)) :
    (swapContract ε path data fs₀).Meets (writeBinary path data tmp) (fs, t)
      (SwapEnd path data fs₀) := by
  apply swap_call h
  intro r fs₁ hans₁
  cases r with
  | error err =>
      rcases swapping_prepare htmp hbak h hnone hans₁ rfl (List.Subset.refl _) with ⟨h₁, hno₁⟩
      apply swap_call h₁
      intro r fs₂ hans₂
      rcases swapping_prepare htmp hbak h₁ hno₁ hans₂ rfl (List.nil_subset _) with ⟨h₂, hno₂⟩
      exact removeTemp_fails htmp hbak h₂ hno₂ _
  | ok _ =>
      rcases swapping_prepare htmp hbak h hnone hans₁ rfl (List.Subset.refl _) with ⟨h₁, hno₁⟩
      have hwritten : fs₁ tmp = some (.file data mode) := by
        rcases hans₁ with ⟨old, mode', hold, rfl⟩
        rw [hempty] at hold
        cases hold
        rw [Function.update_self, List.nil_append]
      apply swap_call h₁
      intro r fs₂ hans₂
      cases r with
      | error err =>
          rcases swapping_prepare htmp hbak h₁ hno₁ hans₂ rfl (List.nil_subset _) with ⟨h₂, hno₂⟩
          exact removeTemp_fails htmp hbak h₂ hno₂ _
      | ok _ =>
          rcases swapping_prepare htmp hbak h₁ hno₁ hans₂ rfl (List.nil_subset _) with ⟨h₂, hno₂⟩
          have hclosed : fs₂ = fs₁ := hans₂
          apply swap_call h₂
          intro r fs₃ hans₃
          cases r with
          | error err =>
              rcases swapping_prepare htmp hbak h₂ hno₂ hans₃ rfl (List.Subset.refl _) with
                ⟨h₃, hno₃⟩
              exact removeTemp_fails htmp hbak h₃ hno₃ _
          | ok _ =>
              rcases swapping_prepare htmp hbak h₂ hno₂ hans₃ rfl (List.Subset.refl _) with
                ⟨h₃, hno₃⟩
              have hready : fs₃ tmp = some (newBinary data) := by
                rcases hans₃ with ⟨data', mode', hdata, rfl⟩
                rw [hclosed, hwritten] at hdata
                cases hdata
                rw [Function.update_self]
                rfl
              have hbefore : BeforeSwap path fs₀ fs₃ _ := Or.inl ⟨hno₃, replaced_nil hno₃ h₃⟩
              exact replaceBinary_meets hbefore hno₃ h₃.kept htmp hbak hready

theorem swapBinary_stops (hpath : fs₀ path ≠ none)
    {q : Program FsCall (FsReply ε) (Option (SwapError ε))}
    (hsteps : Program.Steps (swapBinary path data) t q)
    (hans : (fileSystem ε).Answered fs₀ t fs) :
    Swapping path data fs₀ fs t ∧
      forall out, q = .done out -> (out = none <-> SwapDone path t) := by
  apply Contract.holds_where_stopped (Q := fun out _ t => out = none <-> SwapDone path t) _
    hsteps hans
  have hstart : Swapping (ε := ε) path data fs₀ fs₀ [] :=
    ⟨.untouched, fun hremoved => nomatch hremoved⟩
  show (swapContract ε path data fs₀).Meets _ _ (SwapEnd path data fs₀)
  apply swap_call hstart
  intro r fs₁ hans₁
  cases r with
  | error err =>
      have hsame : fs₁ = fs₀ := hans₁
      subst hsame
      constructor
      · exact swapping_frame hstart hans₁ rfl (by simp [touched]) (by simp [touched])
      · simp [SwapDone, renames, renamed]
  | ok tmp =>
      rcases hans₁ with ⟨hname, hfree, rfl⟩
      have htmp : tmp ≠ path := fun heq => hpath (heq ▸ hfree)
      have hbak : tmp ≠ bak path := temp_ne_bak hname
      apply writeBinary_meets _ rfl htmp hbak (Function.update_self _ _ _)
      apply swapping_frame hstart _ rfl
      · simpa [touched] using htmp.symm
      · simpa [touched] using hbak.symm
      · exact ⟨hname, hfree, rfl⟩

end Stages

/-!
## A run up to the renames
-/

section Prepared

variable {ε : Type} {path data tmp : Bytes} {fs : Files}

def preparing (path data tmp : Bytes) : List (FsEvent ε) :=
  [⟨.CreateTemp (Dir path) (utf8 ".telemux-new-*"), .ok tmp⟩, ⟨.Write tmp data, .ok ()⟩,
    ⟨.Close tmp, .ok ()⟩, ⟨.Chmod tmp 0o755, .ok ()⟩]

theorem preparing_steps :
    Program.Steps (swapBinary (ε := ε) path data) (preparing path data tmp)
      (replaceBinary path tmp) :=
  .call (.call (.call (.call (.refl _))))

theorem preparing_answered (hname : TempName (Dir path) (utf8 ".telemux-new-*") tmp)
    (hfree : fs tmp = none) :
    (fileSystem ε).Answered fs (preparing path data tmp)
      (Function.update fs tmp (some (newBinary data))) := by
  have hcreated : (fileSystem ε).answers fs (.CreateTemp (Dir path) (utf8 ".telemux-new-*"))
      (.ok tmp) (Function.update fs tmp (some (.file [] 0o600))) := ⟨hname, hfree, rfl⟩
  have hwritten : (fileSystem ε).answers (Function.update fs tmp (some (.file [] 0o600)))
      (.Write tmp data) (.ok ()) (Function.update fs tmp (some (.file data 0o600))) := by
    refine ⟨[], 0o600, Function.update_self _ _ _, ?_⟩
    rw [Function.update_idem, List.nil_append]
  have hchanged : (fileSystem ε).answers (Function.update fs tmp (some (.file data 0o600)))
      (.Chmod tmp 0o755) (.ok ()) (Function.update fs tmp (some (newBinary data))) := by
    refine ⟨data, 0o600, Function.update_self _ _ _, ?_⟩
    rw [Function.update_idem]
    rfl
  exact .cons hcreated (.cons hwritten (.cons rfl (.cons hchanged (.nil _))))

end Prepared

end SelfUpdate
end Telemux
