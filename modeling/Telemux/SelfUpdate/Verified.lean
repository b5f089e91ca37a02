import Telemux.Net.JsonWhole
import Telemux.SelfUpdate.Update

/-!
# What an update installs

A run of `Update` that reaches the file system has three answered requests
behind it.  The bytes it puts at the path have the digest that the checksums of
the same release list last for the name of the binary.
-/

namespace Telemux
namespace SelfUpdate

open Interaction Net

section Files

variable {ε α : Type}

/-!
## The part of a run on the file system
-/

def FsEvent.inUpdate (e : FsEvent ε) : UpdateEvent ε :=
  ⟨.Fs e.call, e.reply⟩

theorem onFiles_runs {p : Program FsCall (FsReply ε) α} {t : List (UpdateEvent ε)} {a : α}
    (h : Program.Runs (p.interp onFiles) t a) :
    exists u, t = u.map FsEvent.inUpdate ∧ Program.Runs p u a := by
  induction p generalizing t with
  | done b =>
      cases h
      exact ⟨[], rfl, .refl _⟩
  | call c next ih =>
      cases h with
      | call hrest =>
          rcases ih _ hrest with ⟨u, rfl, hruns⟩
          exact ⟨⟨c, _⟩ :: u, rfl, .call hruns⟩

theorem interp_steps {p q : Program FsCall (FsReply ε) α} {u : List (FsEvent ε)}
    (h : Program.Steps p u q) :
    Program.Steps (p.interp onFiles) (u.map FsEvent.inUpdate) (q.interp onFiles) := by
  induction h with
  | refl p => exact .refl _
  | call _ ih => exact .call ih

theorem answered_inUpdate {fs fs' : Files} {u : List (FsEvent ε)} :
    (updateWorld ε).Answered fs (u.map FsEvent.inUpdate) fs' <->
      (fileSystem ε).Answered fs u fs' := by
  constructor
  · intro h
    induction u generalizing fs with
    | nil =>
        cases h
        exact .nil _
    | cons e u ih =>
        cases h with
        | cons hstep hrest => exact .cons hstep (ih hrest)
  · intro h
    induction h with
    | nil => exact .nil _
    | cons hstep _ ih => exact .cons hstep ih

theorem answered_requests {fs fs' : Files} {t : List (UpdateEvent ε)}
    (h : (updateWorld ε).Answered fs t fs')
    (hget : forall e, e ∈ t -> exists url accept, e.call = .Get url accept) : fs' = fs := by
  induction h with
  | nil => rfl
  | @cons fs fs₁ fs₂ c r t hstep _ ih =>
      rcases hget _ List.mem_cons_self with ⟨url, accept, hcall⟩
      cases hcall
      have hsame : fs₁ = fs := hstep
      rw [ih fun e he => hget e (List.mem_cons_of_mem _ he), hsame]

/-!
## Swaps whose calls succeed
-/

variable {path data : Bytes} {fs fs₀ : Files} {u : List (FsEvent ε)}
variable {out : Option (SwapError ε)}

theorem swapBinary_succeeds (hruns : Program.Runs (swapBinary path data) u out)
    (hok : AllSucceed u) : out = none := by
  rcases swapBinary_runs hruns with ⟨_, hfailed⟩ | ⟨tmp, rest, rfl, hreplace⟩
  · exact absurd hok hfailed
  · have hrest : AllSucceed rest := fun c r hmem => hok c r (List.mem_append_right _ hmem)
    rcases replaceBinary_runs hreplace with ⟨_, hfailed⟩ | ⟨hnil, _⟩
    · exact absurd hrest hfailed
    · exact hnil

theorem swapBinary_installs (hruns : Program.Runs (swapBinary path data) u none)
    (hans : (fileSystem ε).Answered fs₀ u fs) (hok : AllSucceed u) :
    fs path = some (newBinary data) := by
  have hbacked : (path, bak path) ∈ renames u := by
    rcases swapBinary_nil hruns with ⟨tmp, backup, removal, rfl⟩
    rw [backedUp_iff]
    have hbackup := hok (.Rename path (bak path)) backup (by simp [swapping])
    cases backup with
    | error err => cases hbackup
    | ok _ => rfl
  cases swapBinary_effect hruns hans with
  | backedUp _ hnew _ _ => exact hnew
  | notBackedUp hnot => exact absurd hbacked hnot
  | removed hnot => exact absurd hbacked hnot

end Files

/-!
## What an update found out before it touched a file
-/

structure Evidence (ε : Type) where
  releaseRaw : Bytes
  broken : Option ε
  rel : Release
  binAsset : Asset
  sumsAsset : Asset
  sumsRaw : Bytes
  digest : Bytes
  binData : Bytes

section Runs

variable {ε : Type} {opts : UpdateOptions} {sha256 : Bytes -> Bytes}

def Evidence.requests (ev : Evidence ε) (opts : UpdateOptions) : List (UpdateEvent ε) :=
  [⟨.Get opts.releaseURL (some "application/vnd.github+json"),
      .responds 200 ev.releaseRaw ev.broken⟩,
    ⟨.Get ev.sumsAsset.url none, .responds 200 ev.sumsRaw none⟩,
    ⟨.Get ev.binAsset.url none, .responds 200 ev.binData none⟩]

structure Evidence.Valid [JsonStream] [LowerCase] (ev : Evidence ε)
    (sha256 : Bytes -> Bytes) (opts : UpdateOptions) : Prop where
  release : (JsonStream.first ev.releaseRaw ev.broken.isSome).bind decodeRelease = some ev.rel
  binary : PickAsset ev.rel (AssetName opts.goos opts.goarch) = some ev.binAsset
  sums : PickAsset ev.rel "checksums.txt" = some ev.sumsAsset
  listed : LastLineFor (scanLines ev.sumsRaw) (utf8 (AssetName opts.goos opts.goarch)) ev.digest
  verified : sha256hex sha256 ev.binData = LowerCase.toLower ev.digest

def OnlyRequests (t : List (UpdateEvent ε)) : Prop :=
  forall e, e ∈ t -> exists url accept, e.call = .Get url accept

def UpdateOutcome.Updated : UpdateOutcome ε -> Prop
  | .returned fromVersion toVersion none => toVersion ≠ fromVersion
  | .returned _ _ (some _) => False
  | .panicked => False

/-- A run of `Update`: it stops before the file system, or has evidence for its swap. -/
inductive UpdateRun [JsonStream] [LowerCase] (sha256 : Bytes -> Bytes) (opts : UpdateOptions) :
    List (UpdateEvent ε) -> UpdateOutcome ε -> Prop where
  | stopped {t : List (UpdateEvent ε)} {out : UpdateOutcome ε} :
      OnlyRequests t -> ¬ out.Updated -> UpdateRun sha256 opts t out
  | swapped {ev : Evidence ε} {u : List (FsEvent ε)} {err : Option (SwapError ε)} :
      ev.Valid sha256 opts -> ev.rel.version ≠ opts.currentVersion ->
      Program.Runs (swapBinary opts.binaryPath ev.binData) u err ->
      UpdateRun sha256 opts (ev.requests opts ++ u.map FsEvent.inUpdate)
        (.returned opts.currentVersion ev.rel.version (err.map .swap))

theorem onlyRequests_cons {url : String} {accept : Option String} {r : GetReply ε}
    {t : List (UpdateEvent ε)} (h : OnlyRequests t) :
    OnlyRequests (⟨.Get url accept, r⟩ :: t) := by
  intro e he
  rcases List.mem_cons.mp he with hhead | htail
  · rw [hhead]
    exact ⟨url, accept, rfl⟩
  · exact h e htail

theorem onlyRequests_nil : OnlyRequests ([] : List (UpdateEvent ε)) :=
  fun _ he => nomatch he

theorem download_runs {url : String} {t : List (UpdateEvent ε)}
    {out : Option (Except (GetError ε) Bytes)} (h : Program.Runs (download url) t out) :
    exists reply, t = [⟨.Get url none, reply⟩] ∧
      forall body, out = some (.ok body) -> reply = .responds 200 body none := by
  cases h with
  | @call _ _ reply _ _ hrest =>
      refine ⟨reply, ?_⟩
      cases reply with
      | panics =>
          cases hrest
          exact ⟨rfl, fun body heq => nomatch heq⟩
      | fails err =>
          cases hrest
          exact ⟨rfl, fun body heq => nomatch heq⟩
      | responds status raw broken =>
          dsimp only at hrest
          split at hrest
          · cases hrest
            exact ⟨rfl, fun body heq => nomatch heq⟩
          · rename_i hstatus
            cases broken with
            | some err =>
                cases hrest
                exact ⟨rfl, fun body heq => nomatch heq⟩
            | none =>
                cases hrest
                refine ⟨rfl, ?_⟩
                intro body heq
                cases heq
                rw [not_not.mp hstatus]

theorem fetchLatest_runs [JsonStream] {t : List (UpdateEvent ε)}
    {out : Option (Except (GetError ε) Release)} (h : Program.Runs (FetchLatest opts) t out) :
    exists reply, t = [⟨.Get opts.releaseURL (some "application/vnd.github+json"), reply⟩] ∧
      forall rel, out = some (.ok rel) -> exists raw broken,
        reply = .responds 200 raw broken ∧
          (JsonStream.first raw broken.isSome).bind decodeRelease = some rel := by
  cases h with
  | @call _ _ reply _ _ hrest =>
      refine ⟨reply, ?_⟩
      cases reply with
      | panics =>
          cases hrest
          exact ⟨rfl, fun rel heq => nomatch heq⟩
      | fails err =>
          cases hrest
          exact ⟨rfl, fun rel heq => nomatch heq⟩
      | responds status raw broken =>
          dsimp only at hrest
          split at hrest
          · cases hrest
            exact ⟨rfl, fun rel heq => nomatch heq⟩
          · rename_i hstatus
            cases hrel : (JsonStream.first raw broken.isSome).bind decodeRelease with
            | none =>
                rw [hrel] at hrest
                cases hrest
                exact ⟨rfl, fun rel heq => nomatch heq⟩
            | some rel =>
                rw [hrel] at hrest
                cases hrest
                refine ⟨rfl, ?_⟩
                intro rel' heq
                cases heq
                exact ⟨raw, broken, by rw [not_not.mp hstatus], hrel⟩

theorem installBinary_runs {version : String} {wantSum binData : Bytes}
    {t : List (UpdateEvent ε)} {out : UpdateOutcome ε}
    (h : Program.Runs (installBinary sha256 opts version wantSum binData) t out) :
    (t = [] ∧ ¬ out.Updated) ∨
      sha256hex sha256 binData = wantSum ∧
        exists u err, t = u.map FsEvent.inUpdate ∧
          Program.Runs (swapBinary opts.binaryPath binData) u err ∧
          out = .returned opts.currentVersion version (err.map .swap) := by
  unfold installBinary at h
  split at h
  · cases h
    exact Or.inl ⟨rfl, id⟩
  · rename_i hsum
    rcases Program.runs_bind h with ⟨t₁, t₂, err, rfl, hswap, hend⟩
    rcases onFiles_runs hswap with ⟨u, rfl, hruns⟩
    refine Or.inr ⟨not_not.mp hsum, u, err, ?_⟩
    cases err with
    | some err =>
        cases hend
        exact ⟨List.append_nil _, hruns, rfl⟩
    | none =>
        cases hend
        exact ⟨List.append_nil _, hruns, rfl⟩

theorem updateFrom_runs [LowerCase] {version : String} {binAsset sumsAsset : Asset}
    {t : List (UpdateEvent ε)} {out : UpdateOutcome ε}
    (h : Program.Runs (updateFrom sha256 opts version binAsset sumsAsset) t out) :
    (OnlyRequests t ∧ ¬ out.Updated) ∨
      exists sumsRaw digest binData u err,
        LastLineFor (scanLines sumsRaw) (utf8 (AssetName opts.goos opts.goarch)) digest ∧
        sha256hex sha256 binData = LowerCase.toLower digest ∧
        t = [⟨.Get sumsAsset.url none, .responds 200 sumsRaw none⟩,
          ⟨.Get binAsset.url none, .responds 200 binData none⟩] ++ u.map FsEvent.inUpdate ∧
        Program.Runs (swapBinary opts.binaryPath binData) u err ∧
        out = .returned opts.currentVersion version (err.map .swap) := by
  rcases Program.runs_bind h with ⟨t₁, t₂, sums, rfl, hsums, h⟩
  rcases download_runs hsums with ⟨sumsReply, rfl, hsumsRaw⟩
  cases sums with
  | none =>
      cases h
      exact Or.inl ⟨onlyRequests_cons onlyRequests_nil, id⟩
  | some result =>
      cases result with
      | error err =>
          cases h
          exact Or.inl ⟨onlyRequests_cons onlyRequests_nil, id⟩
      | ok sumsRaw =>
          dsimp only at h
          cases hsum : ParseChecksums sumsRaw (utf8 (AssetName opts.goos opts.goarch)) with
          | none =>
              rw [hsum] at h
              cases h
              exact Or.inl ⟨onlyRequests_cons onlyRequests_nil, id⟩
          | some wantSum =>
              rw [hsum] at h
              rcases parseChecksums_last hsum with ⟨digest, hlast, hlower⟩
              rcases Program.runs_bind h with ⟨t₃, t₄, bin, rfl, hbin, h⟩
              rcases download_runs hbin with ⟨binReply, rfl, hbinData⟩
              cases bin with
              | none =>
                  cases h
                  exact Or.inl ⟨onlyRequests_cons (onlyRequests_cons onlyRequests_nil), id⟩
              | some result =>
                  cases result with
                  | error err =>
                      cases h
                      exact Or.inl ⟨onlyRequests_cons (onlyRequests_cons onlyRequests_nil), id⟩
                  | ok binData =>
                      rcases installBinary_runs h with
                        ⟨rfl, hnot⟩ | ⟨hverified, u, err, rfl, hruns, hout⟩
                      · exact Or.inl
                          ⟨onlyRequests_cons (onlyRequests_cons onlyRequests_nil), hnot⟩
                      · rw [hlower] at hverified
                        rw [hsumsRaw _ rfl, hbinData _ rfl]
                        exact Or.inr ⟨sumsRaw, digest, binData, u, err, hlast, hverified, rfl,
                          hruns, hout⟩

theorem update_runs [JsonStream] [LowerCase] {t : List (UpdateEvent ε)}
    {out : UpdateOutcome ε} (h : Program.Runs (Update sha256 opts) t out) :
    UpdateRun sha256 opts t out := by
  rcases Program.runs_bind h with ⟨t₁, t₂, fetched, rfl, hfetch, h⟩
  rcases fetchLatest_runs hfetch with ⟨reply, rfl, hrelease⟩
  cases fetched with
  | none =>
      cases h
      exact .stopped (onlyRequests_cons onlyRequests_nil) id
  | some result =>
      cases result with
      | error err =>
          cases h
          exact .stopped (onlyRequests_cons onlyRequests_nil) id
      | ok rel =>
          rcases hrelease rel rfl with ⟨raw, broken, hreply, hrel⟩
          dsimp only at h
          split at h
          · rename_i hversion
            cases h
            exact .stopped (onlyRequests_cons onlyRequests_nil) (fun hne => hne hversion)
          · rename_i hversion
            cases hbinary : PickAsset rel (AssetName opts.goos opts.goarch) with
            | none =>
                rw [hbinary] at h
                cases h
                exact .stopped (onlyRequests_cons onlyRequests_nil) id
            | some binAsset =>
                cases hsums : PickAsset rel "checksums.txt" with
                | none =>
                    rw [hbinary, hsums] at h
                    cases h
                    exact .stopped (onlyRequests_cons onlyRequests_nil) id
                | some sumsAsset =>
                    rw [hbinary, hsums] at h
                    rcases updateFrom_runs h with
                      ⟨hrequests, hnot⟩ |
                        ⟨sumsRaw, digest, binData, u, err, hlisted, hverified, rfl, hruns, rfl⟩
                    · exact .stopped (onlyRequests_cons hrequests) hnot
                    · rw [hreply]
                      let ev : Evidence ε :=
                        ⟨raw, broken, rel, binAsset, sumsAsset, sumsRaw, digest, binData⟩
                      have hvalid : ev.Valid sha256 opts :=
                        ⟨hrel, hbinary, hsums, hlisted, hverified⟩
                      exact UpdateRun.swapped hvalid hversion hruns

theorem update_swaps [JsonStream] [LowerCase] {ev : Evidence ε} {u : List (FsEvent ε)}
    {err : Option (SwapError ε)} (hvalid : ev.Valid sha256 opts)
    (hversion : ev.rel.version ≠ opts.currentVersion)
    (hruns : Program.Runs (swapBinary opts.binaryPath ev.binData) u err) :
    Program.Runs (Update sha256 opts) (ev.requests opts ++ u.map FsEvent.inUpdate)
      (.returned opts.currentVersion ev.rel.version (err.map .swap)) := by
  have hfetch : Program.Runs (FetchLatest (ε := ε) opts)
      [⟨.Get opts.releaseURL (some "application/vnd.github+json"),
        .responds 200 ev.releaseRaw ev.broken⟩] (some (.ok ev.rel)) := by
    refine .call ?_
    simp only [hvalid.release]
    exact .refl _
  have hdownload : forall url body, Program.Runs (download (ε := ε) url)
      [⟨.Get url none, .responds 200 body none⟩] (some (.ok body)) :=
    fun url body => .call (.refl _)
  have hinstall : Program.Runs
      (installBinary sha256 opts ev.rel.version (LowerCase.toLower ev.digest) ev.binData)
      (u.map FsEvent.inUpdate)
      (.returned opts.currentVersion ev.rel.version (err.map .swap)) := by
    unfold installBinary
    rw [if_neg (not_not.mpr hvalid.verified), ← List.append_nil (u.map _)]
    apply Program.bind_runs (interp_steps hruns)
    cases err with
    | none => exact .refl _
    | some err => exact .refl _
  apply Program.bind_runs (t := [_]) hfetch
  dsimp only
  rw [if_neg hversion, hvalid.binary, hvalid.sums]
  apply Program.bind_runs (t := [_]) (hdownload _ _)
  dsimp only
  rw [parseChecksums_of_last hvalid.listed]
  exact Program.bind_runs (t := [_]) (hdownload _ _) hinstall

/-!
## The result
-/

/-- Every call on the file system succeeds, the removal of a moved file apart. -/
def FilesSucceed (t : List (UpdateEvent ε)) : Prop :=
  forall c r, ⟨.Fs c, r⟩ ∈ t -> Succeeds c r

/--
What a successful update puts at the path has the digest that its release lists
for it, and no other update changes a file.
-/
theorem update_installs_verified [JsonStream] [LowerCase] {t : List (UpdateEvent ε)}
    {out : UpdateOutcome ε} {fs₀ fs : Files}
    (hruns : Program.Runs (Update sha256 opts) t out)
    (hans : (updateWorld ε).Answered fs₀ t fs) (hok : FilesSucceed t) :
    (forall fromVersion toVersion, out = .returned fromVersion toVersion none ->
      toVersion ≠ fromVersion ->
      exists ev : Evidence ε, ev.Valid sha256 opts ∧ ev.rel.version = toVersion ∧
        ev.requests opts <+: t ∧ fs opts.binaryPath = some (newBinary ev.binData)) ∧
    (forall fromVersion toVersion err, out = .returned fromVersion toVersion err ->
      err.isSome = true ∨ toVersion = fromVersion -> fs = fs₀) := by
  cases update_runs hruns with
  | stopped hrequests hnot =>
      constructor
      · intro fromVersion toVersion heq hne
        rw [heq] at hnot
        exact absurd hne hnot
      · intro fromVersion toVersion err _ _
        exact answered_requests hans hrequests
  | @swapped ev u err hvalid hversion hswap =>
      rcases Contract.answered_split hans with ⟨fs₁, hget, hfiles⟩
      have hsame : fs₁ = fs₀ :=
        answered_requests hget (onlyRequests_cons (onlyRequests_cons
          (onlyRequests_cons onlyRequests_nil)))
      subst hsame
      have hall : AllSucceed u := by
        intro c r hmem
        exact hok c r (List.mem_append_right _ (List.mem_map_of_mem hmem))
      have hnil := swapBinary_succeeds hswap hall
      subst hnil
      constructor
      · intro fromVersion toVersion heq _
        cases heq
        exact ⟨ev, hvalid, rfl, List.prefix_append _ _,
          swapBinary_installs hswap (answered_inUpdate.mp hfiles) hall⟩
      · intro fromVersion toVersion err heq hstop
        cases heq
        rcases hstop with hnone | hcurrent
        · cases hnone
        · exact absurd hcurrent hversion

theorem filesSucceed_requests {ev : Evidence ε} {u : List (FsEvent ε)} (h : AllSucceed u) :
    FilesSucceed (ev.requests opts ++ u.map FsEvent.inUpdate) := by
  intro c r hmem
  rcases List.mem_append.mp hmem with hrequest | hfile
  · simp [Evidence.requests] at hrequest
  · rcases List.mem_map.mp hfile with ⟨e, he, heq⟩
    cases heq
    exact h e.call e.reply he

end Runs

section Sample

def sampleOptions : UpdateOptions where
  owner := "owner"
  repo := "telemux"
  currentVersion := "v1"
  goos := "linux"
  goarch := "amd64"
  binaryPath := samplePath

def sampleAssets : List Json :=
  [.obj [("name", .str "checksums.txt"), ("browser_download_url", .str "https://h/sums")],
    .obj [("name", .str "telemux_linux_amd64"), ("browser_download_url", .str "https://h/bin")]]

def sampleRelease : Json :=
  .obj [("tag_name", .str "v2"), ("assets", .arr sampleAssets)]

def sampleReleaseText : String :=
  "\x7b\"tag_name\":\"v2\",\"assets\":[" ++
    "\x7b\"name\":\"checksums.txt\",\"browser_download_url\":\"https://h/sums\"\x7d," ++
    "\x7b\"name\":\"telemux_linux_amd64\",\"browser_download_url\":\"https://h/bin\"\x7d]\x7d"

theorem sampleReleaseText_first :
    decodeFirst (runes (utf8 sampleReleaseText)) false = some sampleRelease := by
  have htext : String.ofList sampleRelease.marshal = sampleReleaseText := by decide +kernel
  have hassets : Writable (maxNestingDepth - 1) (.arr sampleAssets) := by
    apply Writable.arr
    simp only [sampleAssets, List.forall_mem_cons]
    refine ⟨writable_strs [("name", _), ("browser_download_url", _)],
      writable_strs [("name", _), ("browser_download_url", _)], List.forall_mem_nil _⟩
  have hwritable : Writable maxNestingDepth sampleRelease := by
    apply Writable.obj
    intro name v hmem
    simp only [List.mem_cons, Prod.mk.injEq, List.not_mem_nil, or_false] at hmem
    rcases hmem with ⟨_, rfl⟩ | ⟨_, rfl⟩
    · exact .str _ _
    · exact hassets
  exact htext ▸ (wholeBody_marshal hwritable).right

def sampleDigest (_ : Bytes) : Bytes := [0xab]

def sampleEvidence : Evidence String where
  releaseRaw := utf8 sampleReleaseText
  broken := none
  rel :=
    { version := "v2"
      assets := [{ name := "checksums.txt", url := "https://h/sums" },
        { name := "telemux_linux_amd64", url := "https://h/bin" }] }
  binAsset := { name := "telemux_linux_amd64", url := "https://h/bin" }
  sumsAsset := { name := "checksums.txt", url := "https://h/sums" }
  sumsRaw := utf8 "AB  telemux_linux_amd64"
  digest := utf8 "AB"
  binData := [2]

def sampleInstalled : Files :=
  Function.update (Function.update sampleAside sampleTemp none) samplePath
    (some (newBinary [2]))

def sampleSwap : List (FsEvent String) :=
  preparing samplePath [2] sampleTemp ++
    swapping samplePath sampleTemp (.ok ()) (.error "not found")

theorem sampleSwap_answered :
    (fileSystem String).Answered sampleFiles sampleSwap sampleInstalled := by
  have htemp : sampleAside sampleTemp = some (newBinary [2]) := by
    unfold sampleAside
    rw [Function.update_of_ne sampleTemp_ne_bak, Function.update_of_ne sampleTemp_ne_path]
    exact Function.update_self _ _ _
  have hmoved : (fileSystem String).answers sampleAside (.Rename sampleTemp samplePath)
      (.ok ()) sampleInstalled :=
    ⟨newBinary [2], htemp, Or.inl sampleAside_path, rfl⟩
  exact Contract.answered_append (preparing_answered sampleTemp_name sampleTemp_free)
    (.cons sample_aside (.cons hmoved (.cons rfl (.nil _))))

theorem sampleSwap_runs : Program.Runs (swapBinary samplePath [2]) sampleSwap none := by
  apply Program.steps_append preparing_steps
  exact .call (.call (.call (.refl _)))

theorem sampleSwap_succeeds : AllSucceed sampleSwap := by
  unfold sampleSwap preparing swapping
  simp only [List.cons_append, List.nil_append, allSucceed_cons]
  exact ⟨rfl, rfl, rfl, rfl, rfl, rfl, trivial, allSucceed_nil⟩

theorem sampleEvidence_valid :
    letI := sampleLowerCase
    letI := bodyTexts
    sampleEvidence.Valid sampleDigest sampleOptions := by
  let := sampleLowerCase
  let := bodyTexts
  have hfirst : JsonStream.first sampleEvidence.releaseRaw false = some sampleRelease :=
    sampleReleaseText_first
  refine ⟨?_, by decide +kernel, by decide +kernel, ?_, by decide +kernel⟩
  · show (JsonStream.first sampleEvidence.releaseRaw false).bind decodeRelease = _
    rw [hfirst]
    decide +kernel
  · refine ⟨[], utf8 "AB  telemux_linux_amd64", [], by decide +kernel, by decide +kernel, ?_⟩
    intro other hother
    cases hother

theorem update_installs_verified_sample :
    letI := sampleLowerCase
    letI := bodyTexts
    exists ev : Evidence String, ev.Valid sampleDigest sampleOptions ∧ ev.rel.version = "v2" ∧
      ev.requests sampleOptions <+:
        sampleEvidence.requests sampleOptions ++ sampleSwap.map FsEvent.inUpdate ∧
      sampleInstalled samplePath = some (newBinary ev.binData) := by
  let := sampleLowerCase
  let := bodyTexts
  have hruns := update_swaps sampleEvidence_valid (by decide) sampleSwap_runs
  have hans : (updateWorld String).Answered sampleFiles
      (sampleEvidence.requests sampleOptions ++ sampleSwap.map FsEvent.inUpdate)
      sampleInstalled :=
    .cons rfl (.cons rfl (.cons rfl (answered_inUpdate.mpr sampleSwap_answered)))
  exact (update_installs_verified hruns hans (filesSucceed_requests sampleSwap_succeeds)).left
    "v1" "v2" rfl (by decide)

end Sample

end SelfUpdate
end Telemux
