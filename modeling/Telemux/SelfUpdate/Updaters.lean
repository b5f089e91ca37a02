import Telemux.Interaction.Interleaved
import Telemux.SelfUpdate.Verified

/-!
# Processes at one directory

Any number of updates and rollbacks of one binary run at once, started by hand or by
a timer, and each may stop anywhere.  They share a directory in which others may do
what they like to other files.  A temporary name is not given out twice.
-/

namespace Telemux
namespace SelfUpdate

open Interaction Net

variable {ε : Type}

/-!
## The directory
-/

structure Directory where
  files : Files
  /-- The temporary names that were given out. -/
  given : List Bytes := []

def created : (c : FsCall) -> FsReply ε c -> List Bytes
  | .CreateTemp _ _, .ok name => [name]
  | .CreateTemp _ _, .error _ => []
  | .Write _ _, _ => []
  | .Close _, _ => []
  | .Chmod _ _, _ => []
  | .Rename _ _, _ => []
  | .Remove _, _ => []
  | .Stat _, _ => []

def Directory.answers (s : Directory) :
    (c : UpdateCall) -> UpdateReply ε c -> Directory -> Prop
  | .Get _ _, _, s' => s' = s
  | .Fs c, r, s' => fileSystemAnswers s.files c r s'.files ∧
      (forall name, name ∈ created c r -> name ∉ s.given) ∧
      s'.given = s.given ++ created c r

inductive UpdateJob where
  | update (opts : UpdateOptions)
  | rollback

section System

variable [JsonStream] [LowerCase]

def UpdateJob.code (sha256 : Bytes -> Bytes) (path : Bytes) :
    UpdateJob -> Program UpdateCall (UpdateReply ε) Unit
  | .update opts => (Update sha256 opts).bind fun _ => .done ()
  | .rollback => ((Rollback path).interp onFiles).bind fun _ => .done ()

variable (ε) in
def updaters (sha256 : Bytes -> Bytes) (path : Bytes) :
    Object UpdateJob UpdateCall (UpdateReply ε) Unit Directory where
  code := UpdateJob.code sha256 path
  starts _ job := forall opts, job = .update opts -> opts.binaryPath = path
  answers := Directory.answers
  -- Somebody else writes to another file.
  moves s s' := s'.given = s.given ∧
    forall name, name ∈ path :: bak path :: s.given -> s'.files name = s.files name

end System

/-!
## What a process has done so far
-/

def fsPart : List (UpdateEvent ε) -> List (FsEvent ε) :=
  List.filterMap fun
    | ⟨.Fs c, r⟩ => some ⟨c, r⟩
    | ⟨.Get _ _, _⟩ => none

theorem fsPart_append (t u : List (UpdateEvent ε)) : fsPart (t ++ u) = fsPart t ++ fsPart u :=
  List.filterMap_append

theorem mem_fsPart {c : FsCall} {r : FsReply ε c} {t : List (UpdateEvent ε)} :
    ⟨c, r⟩ ∈ fsPart t <-> ⟨.Fs c, r⟩ ∈ t := by
  unfold fsPart
  rw [List.mem_filterMap]
  constructor
  · intro h
    rcases h with ⟨e, he, heq⟩
    rcases e with ⟨c', r'⟩
    cases c' with
    | Get url accept => cases heq
    | Fs c' =>
        cases heq
        exact he
  · intro h
    exact ⟨_, h, rfl⟩

def tempPattern : Bytes := utf8 ".telemux-new-*"

inductive Prepared (path data tmp : Bytes) : List (FsEvent ε) -> Node -> Prop where
  | created : Prepared path data tmp [⟨.CreateTemp (Dir path) tempPattern, .ok tmp⟩]
      (.file [] 0o600)
  | written {u : List (FsEvent ε)} : Prepared path data tmp u (.file [] 0o600) ->
      Prepared path data tmp (u ++ [⟨.Write tmp data, .ok ()⟩]) (.file data 0o600)
  | closed {u : List (FsEvent ε)} {node : Node} {r : Except ε Unit} :
      Prepared path data tmp u node -> Prepared path data tmp (u ++ [⟨.Close tmp, r⟩]) node
  | ready {u : List (FsEvent ε)} : Prepared path data tmp u (.file data 0o600) ->
      Prepared path data tmp (u ++ [⟨.Chmod tmp 0o755, .ok ()⟩]) (newBinary data)
  | aside {u : List (FsEvent ε)} {node : Node} {r : Except ε Unit} :
      Prepared path data tmp u node ->
      Prepared path data tmp (u ++ [⟨.Rename path (bak path), r⟩]) node

def Owns (t : List (UpdateEvent ε)) (tmp : Bytes) : Prop :=
  exists dir pattern, ⟨.Fs (.CreateTemp dir pattern), .ok tmp⟩ ∈ t

theorem owns_of_prepared {path data tmp : Bytes} {node : Node} {t : List (UpdateEvent ε)}
    (h : Prepared path data tmp (fsPart t) node) : Owns t tmp := by
  have hmem : ⟨.CreateTemp (Dir path) tempPattern, .ok tmp⟩ ∈ fsPart t := by
    generalize fsPart t = u at h ⊢
    induction h with
    | created => exact List.mem_cons_self
    | written _ ih => exact List.mem_append_left _ ih
    | closed _ ih => exact List.mem_append_left _ ih
    | ready _ ih => exact List.mem_append_left _ ih
    | aside _ ih => exact List.mem_append_left _ ih
  exact ⟨_, _, mem_fsPart.mp hmem⟩

/-!
## What a process owes at its calls
-/

section Owing

variable [JsonStream] [LowerCase]

/-- An update has seen the release, its checksums and a binary with the digest in them. -/
structure Tested (sha256 : Bytes -> Bytes) (opts : UpdateOptions) (t : List (UpdateEvent ε))
    (ev : Evidence ε) : Prop where
  valid : ev.Valid sha256 opts
  newer : ev.rel.version ≠ opts.currentVersion
  requests : ev.requests opts <+: t

theorem Tested.append {sha256 : Bytes -> Bytes} {opts : UpdateOptions}
    {t : List (UpdateEvent ε)} {ev : Evidence ε} (h : Tested sha256 opts t ev)
    (u : List (UpdateEvent ε)) : Tested sha256 opts (t ++ u) ev :=
  ⟨h.valid, h.newer, h.requests.trans (List.prefix_append t u)⟩

/-- The process is an update that has tested `data`. -/
def Promised (sha256 : Bytes -> Bytes) (job : UpdateJob) (t : List (UpdateEvent ε))
    (data : Bytes) : Prop :=
  exists opts ev, job = .update opts ∧ Tested sha256 opts t ev ∧ ev.binData = data

def Installs (sha256 : Bytes -> Bytes) (path : Bytes) (job : UpdateJob)
    (t : List (UpdateEvent ε)) (tmp : Bytes) : Prop :=
  exists data, Promised sha256 job t data ∧
    Prepared path data tmp (fsPart t) (newBinary data)

def UpdateOwes (sha256 : Bytes -> Bytes) (path : Bytes) (job : UpdateJob)
    (t : List (UpdateEvent ε)) : UpdateCall -> Prop
  | .Get _ _ => True
  | .Fs (.CreateTemp dir pattern) => dir = Dir path ∧ pattern = tempPattern
  | .Fs (.Write name _) => Owns t name
  | .Fs (.Close _) => True
  | .Fs (.Chmod name _) => Owns t name
  | .Fs (.Rename oldpath newpath) =>
      (oldpath = path ∧ newpath = bak path) ∨ (oldpath = bak path ∧ newpath = path) ∨
        newpath = path ∧ Installs sha256 path job t oldpath
  | .Fs (.Remove name) => Owns t name
  | .Fs (.Stat _) => True

variable {sha256 : Bytes -> Bytes} {path data tmp : Bytes} {job : UpdateJob}
  {t : List (UpdateEvent ε)} {s : Directory}

abbrev owing (ε : Type) (sha256 : Bytes -> Bytes) (path : Bytes) (job : UpdateJob) :
    Contract UpdateCall (UpdateReply ε) (List (UpdateEvent ε)) :=
  Contract.onHistory (UpdateOwes sha256 path job)

def Tidy (t : List (UpdateEvent ε)) : Prop :=
  forall tmp, Owns t tmp -> exists r, ⟨.Fs (.Remove tmp), r⟩ ∈ t

theorem Promised.append (h : Promised sha256 job t data) (u : List (UpdateEvent ε)) :
    Promised sha256 job (t ++ u) data := by
  rcases h with ⟨opts, ev, hjob, htested, hdata⟩
  exact ⟨opts, ev, hjob, htested.append u, hdata⟩

omit [JsonStream] [LowerCase] in
theorem owns_snoc {c : FsCall} {r : FsReply ε c} :
    Owns (t ++ [⟨.Fs c, r⟩]) tmp <-> Owns t tmp ∨ tmp ∈ created c r := by
  unfold Owns
  simp only [List.mem_append, List.mem_singleton, exists_or]
  apply or_congr Iff.rfl
  constructor
  · intro h
    rcases h with ⟨dir, pattern, heq⟩
    cases heq
    exact List.mem_singleton_self tmp
  · intro h
    cases c with
    | CreateTemp dir pattern =>
        cases r with
        | error err => cases h
        | ok name =>
            cases List.mem_singleton.mp h
            exact ⟨dir, pattern, rfl⟩
    | _ => cases h

structure Working (t : List (UpdateEvent ε)) (tmp : Bytes) : Prop where
  own : Owns t tmp
  sole : forall name, Owns t name -> name = tmp

omit [JsonStream] [LowerCase] in
theorem Working.snoc (h : Working t tmp) {c : FsCall} {r : FsReply ε c}
    (hcreated : created c r = []) : Working (t ++ [⟨.Fs c, r⟩]) tmp := by
  constructor
  · exact owns_snoc.mpr (.inl h.own)
  · intro name hname
    rcases owns_snoc.mp hname with hold | hnew
    · exact h.sole name hold
    · rw [hcreated] at hnew
      cases hnew

theorem owing_call {α : Type} {c : FsCall}
    {next : FsReply ε c -> Program FsCall (FsReply ε) α}
    {Q : α -> List (UpdateEvent ε) -> Prop} (howes : UpdateOwes sha256 path job t (.Fs c))
    (hnext : forall r, (owing ε sha256 path job).Meets ((next r).interp onFiles)
      (t ++ [⟨.Fs c, r⟩]) Q) :
    (owing ε sha256 path job).Meets ((Program.call c next).interp onFiles) t Q := by
  refine ⟨howes, ?_⟩
  intro r t' heq
  cases (show t' = t ++ [⟨.Fs c, r⟩] from heq)
  exact hnext r

theorem removeTemp_owing (h : Working t tmp) (out : Option (SwapError ε)) :
    (owing ε sha256 path job).Meets ((removeTemp tmp out).interp onFiles) t
      fun _ t' => Tidy t' := by
  refine owing_call (c := .Remove tmp) h.own ?_
  intro r name hname
  rw [(h.snoc (c := .Remove tmp) (r := r) rfl).sole name hname]
  exact ⟨r, List.mem_append_right _ (List.mem_singleton_self _)⟩

theorem replaceBinary_owing (h : Working t tmp) (hdata : Promised sha256 job t data)
    (hready : Prepared path data tmp (fsPart t) (newBinary data)) :
    (owing ε sha256 path job).Meets ((replaceBinary path tmp).interp onFiles) t
      fun _ t' => Tidy t' := by
  refine owing_call (c := .Rename path (bak path)) (Or.inl ⟨rfl, rfl⟩) ?_
  intro r
  have hwork := h.snoc (c := .Rename path (bak path)) (r := r) rfl
  have hready' : Prepared path data tmp (fsPart (t ++ [⟨.Fs (.Rename path (bak path)), r⟩]))
      (newBinary data) := by
    rw [fsPart_append]
    exact hready.aside
  refine owing_call (c := .Rename tmp path)
    (Or.inr (Or.inr ⟨rfl, data, hdata.append _, hready'⟩)) ?_
  intro r'
  have hwork' := hwork.snoc (c := .Rename tmp path) (r := r') rfl
  cases r' with
  | ok _ => exact removeTemp_owing hwork' none
  | error err =>
      refine owing_call (c := .Rename (bak path) path) (Or.inr (Or.inl ⟨rfl, rfl⟩)) ?_
      intro r
      exact removeTemp_owing (hwork'.snoc (c := .Rename (bak path) path) (r := r) rfl) _

theorem writeBinary_owing (h : Working t tmp) (hdata : Promised sha256 job t data)
    (hnew : Prepared path data tmp (fsPart t) (.file [] 0o600)) :
    (owing ε sha256 path job).Meets ((writeBinary path data tmp).interp onFiles) t
      fun _ t' => Tidy t' := by
  refine owing_call (c := .Write tmp data) h.own ?_
  intro r
  have hwritten := h.snoc (c := .Write tmp data) (r := r) rfl
  cases r with
  | error err =>
      refine owing_call (c := .Close tmp) trivial ?_
      intro r
      exact removeTemp_owing (hwritten.snoc (c := .Close tmp) (r := r) rfl) _
  | ok _ =>
      refine owing_call (c := .Close tmp) trivial ?_
      intro r
      have hclosed := hwritten.snoc (c := .Close tmp) (r := r) rfl
      cases r with
      | error err => exact removeTemp_owing hclosed _
      | ok _ =>
          refine owing_call (c := .Chmod tmp 0o755) hclosed.own ?_
          intro r
          have hready := hclosed.snoc (c := .Chmod tmp 0o755) (r := r) rfl
          cases r with
          | error err => exact removeTemp_owing hready _
          | ok _ =>
              apply replaceBinary_owing hready (((hdata.append _).append _).append _)
              simp only [fsPart_append]
              exact .ready (.closed (.written hnew))

theorem swapBinary_owing (hdata : Promised sha256 job t data) (hnone : fsPart t = []) :
    (owing ε sha256 path job).Meets ((swapBinary path data).interp onFiles) t
      fun _ t' => Tidy t' := by
  have hfree : forall name, ¬ Owns t name := by
    intro name hname
    rcases hname with ⟨dir, pattern, hmem⟩
    have hin := mem_fsPart.mpr hmem
    rw [hnone] at hin
    cases hin
  refine owing_call (c := .CreateTemp (Dir path) tempPattern) ⟨rfl, rfl⟩ ?_
  intro r
  cases r with
  | error err =>
      intro name hname
      rcases owns_snoc.mp hname with hold | hnew
      · exact absurd hold (hfree name)
      · cases hnew
  | ok tmp =>
      have hwork : Working (t ++ [⟨.Fs (.CreateTemp (Dir path) tempPattern), .ok tmp⟩]) tmp := by
        constructor
        · exact owns_snoc.mpr (.inr (List.mem_singleton_self tmp))
        · intro name hname
          rcases owns_snoc.mp hname with hold | hnew
          · exact absurd hold (hfree name)
          · exact List.mem_singleton.mp hnew
      apply writeBinary_owing hwork (hdata.append _)
      rw [fsPart_append, hnone]
      exact .created

omit [JsonStream] [LowerCase] in
theorem fsPart_of_onlyRequests (h : OnlyRequests t) : fsPart t = [] := by
  apply List.filterMap_eq_nil_iff.mpr
  intro e he
  rcases e with ⟨c, r⟩
  rcases h _ he with ⟨url, accept, hcall⟩
  cases hcall
  rfl

omit [JsonStream] [LowerCase] in
theorem tidy_of_onlyRequests (h : OnlyRequests t) : Tidy t := by
  intro name hname
  rcases hname with ⟨dir, pattern, hmem⟩
  rcases h _ hmem with ⟨url, accept, hcall⟩
  cases hcall

omit [JsonStream] [LowerCase] in
theorem onlyRequests_snoc (h : OnlyRequests t) (url : String) (accept : Option String)
    (r : GetReply ε) : OnlyRequests (t ++ [⟨.Get url accept, r⟩]) := by
  intro e he
  rcases List.mem_append.mp he with hold | hnew
  · exact h e hold
  · rw [List.mem_singleton.mp hnew]
    exact ⟨url, accept, rfl⟩

theorem download_owing (url : String) :
    (owing ε sha256 path job).Meets (download url) t fun out t' =>
      exists reply, t' = t ++ [⟨.Get url none, reply⟩] ∧
        forall body, out = some (.ok body) -> reply = .responds 200 body none := by
  have hfree : (owing ε sha256 path job).Meets (download url) t fun _ _ => True := by
    refine ⟨trivial, ?_⟩
    intro r t' _
    cases r with
    | panics => trivial
    | fails err => trivial
    | responds status body broken =>
        dsimp only
        split
        · trivial
        · cases broken <;> trivial
  refine Contract.meets_mono ?_ (Contract.meets_runs hfree)
  intro out t' hend
  rcases hend with ⟨_, u, hruns, hans⟩
  rw [Contract.answered_onHistory_eq hans]
  rcases download_runs hruns with ⟨reply, rfl, hbody⟩
  exact ⟨reply, rfl, hbody⟩

theorem fetchLatest_owing (opts : UpdateOptions) :
    (owing ε sha256 path job).Meets (FetchLatest opts) t fun out t' =>
      exists reply,
        t' = t ++ [⟨.Get opts.releaseURL (some "application/vnd.github+json"), reply⟩] ∧
        forall rel, out = some (.ok rel) -> exists raw broken,
          reply = .responds 200 raw broken ∧
            (JsonStream.first raw broken.isSome).bind decodeRelease = some rel := by
  have hfree : (owing ε sha256 path job).Meets (FetchLatest opts) t fun _ _ => True := by
    refine ⟨trivial, ?_⟩
    intro r t' _
    cases r with
    | panics => trivial
    | fails err => trivial
    | responds status body broken =>
        dsimp only
        split
        · trivial
        · split <;> trivial
  refine Contract.meets_mono ?_ (Contract.meets_runs hfree)
  intro out t' hend
  rcases hend with ⟨_, u, hruns, hans⟩
  rw [Contract.answered_onHistory_eq hans]
  rcases fetchLatest_runs hruns with ⟨reply, rfl, hrel⟩
  exact ⟨reply, rfl, hrel⟩

theorem installBinary_owing {opts : UpdateOptions} (hpath : opts.binaryPath = path)
    {version : String} {wantSum binData : Bytes} (hrequests : OnlyRequests t)
    (hdata : sha256hex sha256 binData = wantSum -> Promised sha256 job t binData) :
    (owing ε sha256 path job).Meets (installBinary sha256 opts version wantSum binData) t
      fun _ t' => Tidy t' := by
  unfold installBinary
  split
  · exact tidy_of_onlyRequests hrequests
  · rename_i hsum
    rw [hpath]
    apply Contract.meets_bind
    refine Contract.meets_mono ?_ (swapBinary_owing (hdata (not_not.mp hsum))
      (fsPart_of_onlyRequests hrequests))
    intro err t' htidy
    cases err with
    | none => exact htidy
    | some err => exact htidy

theorem updateFrom_owing {opts : UpdateOptions} (hpath : opts.binaryPath = path)
    {raw : Bytes} {broken : Option ε} {rel : Release} {binAsset sumsAsset : Asset}
    (hrel : (JsonStream.first raw broken.isSome).bind decodeRelease = some rel)
    (hnewer : rel.version ≠ opts.currentVersion)
    (hbinary : PickAsset rel (AssetName opts.goos opts.goarch) = some binAsset)
    (hsums : PickAsset rel "checksums.txt" = some sumsAsset) :
    (owing ε sha256 path (.update opts)).Meets
      (updateFrom sha256 opts rel.version binAsset sumsAsset)
      [⟨.Get opts.releaseURL (some "application/vnd.github+json"), .responds 200 raw broken⟩]
      fun _ t' => Tidy t' := by
  have hfirst : OnlyRequests (ε := ε)
      [⟨.Get opts.releaseURL (some "application/vnd.github+json"), .responds 200 raw broken⟩] :=
    onlyRequests_cons onlyRequests_nil
  unfold updateFrom
  apply Contract.meets_bind
  refine Contract.meets_mono ?_ (download_owing sumsAsset.url)
  intro sums t₁ hsumsEnd
  rcases hsumsEnd with ⟨sumsReply, rfl, hsumsRaw⟩
  have hsecond := onlyRequests_snoc hfirst sumsAsset.url none sumsReply
  cases sums with
  | none => exact tidy_of_onlyRequests hsecond
  | some result =>
      cases result with
      | error err => exact tidy_of_onlyRequests hsecond
      | ok sumsRaw =>
          dsimp only
          cases hsum : ParseChecksums sumsRaw (utf8 (AssetName opts.goos opts.goarch)) with
          | none => exact tidy_of_onlyRequests hsecond
          | some wantSum =>
              apply Contract.meets_bind
              refine Contract.meets_mono ?_ (download_owing binAsset.url)
              intro bin t₂ hbinEnd
              rcases hbinEnd with ⟨binReply, rfl, hbinData⟩
              have hthird := onlyRequests_snoc hsecond binAsset.url none binReply
              cases bin with
              | none => exact tidy_of_onlyRequests hthird
              | some result =>
                  cases result with
                  | error err => exact tidy_of_onlyRequests hthird
                  | ok binData =>
                      apply installBinary_owing hpath hthird
                      intro hverified
                      rcases parseChecksums_last hsum with ⟨digest, hlast, hlower⟩
                      rw [hlower] at hverified
                      rw [hsumsRaw _ rfl, hbinData _ rfl]
                      exact ⟨opts, ⟨raw, broken, rel, binAsset, sumsAsset, sumsRaw, digest, binData⟩,
                        rfl, ⟨⟨hrel, hbinary, hsums, hlast, hverified⟩, hnewer, List.prefix_rfl⟩, rfl⟩

theorem update_owing {opts : UpdateOptions} (hpath : opts.binaryPath = path) :
    (owing ε sha256 path (.update opts)).Meets (Update sha256 opts) []
      fun _ t' => Tidy t' := by
  unfold Update
  apply Contract.meets_bind
  refine Contract.meets_mono ?_ (fetchLatest_owing opts)
  intro fetched t₁ hfetched
  rcases hfetched with ⟨reply, rfl, hrelease⟩
  have hfirst : Tidy (ε := ε)
      [⟨.Get opts.releaseURL (some "application/vnd.github+json"), reply⟩] :=
    tidy_of_onlyRequests (onlyRequests_cons onlyRequests_nil)
  cases fetched with
  | none => exact hfirst
  | some result =>
      cases result with
      | error err => exact hfirst
      | ok rel =>
          rcases hrelease rel rfl with ⟨raw, broken, rfl, hrel⟩
          dsimp only
          split
          · exact hfirst
          · rename_i hversion
            cases hbinary : PickAsset rel (AssetName opts.goos opts.goarch) with
            | none => exact hfirst
            | some binAsset =>
                cases hsums : PickAsset rel "checksums.txt" with
                | none => exact hfirst
                | some sumsAsset => exact updateFrom_owing hpath hrel hversion hbinary hsums

theorem rollback_owing :
    (owing ε sha256 path .rollback).Meets ((Rollback path).interp onFiles) []
      fun _ t' => Tidy t' := by
  have hfree : forall {c : FsCall} {r : FsReply ε c} {t : List (UpdateEvent ε)},
      (forall name, ¬ Owns t name) -> created c r = [] ->
        forall name, ¬ Owns (t ++ [⟨.Fs c, r⟩]) name := by
    intro c r t hfree hcreated name hname
    rcases owns_snoc.mp hname with hold | hnew
    · exact hfree name hold
    · rw [hcreated] at hnew
      cases hnew
  have hnil : forall name, ¬ Owns ([] : List (UpdateEvent ε)) name := by
    intro name hname
    rcases hname with ⟨dir, pattern, hmem⟩
    cases hmem
  refine owing_call (c := .Stat (bak path)) trivial ?_
  intro r
  have hstat := hfree (c := .Stat (bak path)) (r := r) hnil rfl
  cases r with
  | error err => exact fun name hname => absurd hname (hstat name)
  | ok _ =>
      refine owing_call (c := .Rename (bak path) path) (Or.inr (Or.inl ⟨rfl, rfl⟩)) ?_
      intro r
      have hrename := hfree (c := .Rename (bak path) path) (r := r) hstat rfl
      cases r with
      | error err => exact fun name hname => absurd hname (hrename name)
      | ok _ => exact fun name hname => absurd hname (hrename name)

theorem job_owing (hstarts : (updaters ε sha256 path).starts s job) :
    (owing ε sha256 path job).Meets ((updaters ε sha256 path).code job) []
      fun _ t' => Tidy t' := by
  cases job with
  | update opts => exact Contract.meets_bind (update_owing (hstarts opts rfl))
  | rollback => exact Contract.meets_bind rollback_owing

end Owing

end SelfUpdate
end Telemux
