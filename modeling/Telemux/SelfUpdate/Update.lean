import Telemux.Net.Json
import Telemux.SelfUpdate.Checksums
import Telemux.SelfUpdate.Undo

/-!
# Updating

`Update` asks for the latest release, downloads the checksums and the binary of
that release, compares the digest, and swaps the binary.  It is a program over
HTTP requests and the file system; SHA-256 is any function.
-/

namespace Telemux
namespace SelfUpdate

open Interaction Net

/-!
## Releases
-/

structure Asset where
  name : String := ""
  url : String := ""
deriving DecidableEq, Repr

structure Release where
  version : String := ""
  assets : List Asset := []
deriving DecidableEq, Repr

def AssetName (goos goarch : String) : String :=
  "telemux_" ++ goos ++ "_" ++ goarch

def PickAsset (r : Release) (name : String) : Option Asset :=
  r.assets.find? fun a => decide (a.name = name)

def decodeAsset (old : Asset) : Json -> Option Asset :=
  decodeStruct
    (fun key v a =>
      if isField "name" key then (decodeString a.name v).map fun name => { a with name := name }
      else if isField "browser_download_url" key then
        (decodeString a.url v).map fun url => { a with url := url }
      else some a)
    old

/-- What `FetchLatest` decodes into; the slice is a part of the array under it. -/
structure RawRelease where
  tagName : String := ""
  slots : List Asset := []
  length : Nat := 0

def RawRelease.assets (raw : RawRelease) : List Asset :=
  raw.slots.take raw.length

/-- The slice of assets, which null and an empty array replace by a new one. -/
def decodeAssets (raw : RawRelease) : Json -> Option RawRelease
  | .null => some { raw with slots := [], length := 0 }
  | .arr [] => some { raw with slots := [], length := 0 }
  | .arr elems =>
      (decodeSlots decodeAsset {} raw.slots elems).map fun slots =>
        { raw with slots := slots, length := elems.length }
  | _ => none

def decodeRelease (v : Json) : Option Release :=
  (decodeStruct
    (fun key v (raw : RawRelease) =>
      if isField "tag_name" key then
        (decodeString raw.tagName v).map fun tagName => { raw with tagName := tagName }
      else if isField "assets" key then decodeAssets raw v
      else some raw)
    {} v).map fun raw => { version := raw.tagName, assets := raw.assets }

example :
    decodeRelease (.obj [("tag_name", .str "v2"),
      ("assets", .arr [.obj [("name", .str "a"), ("browser_download_url", .str "u")]]),
      ("Assets", .arr [.obj [("name", .str "b")]])]) =
      some { version := "v2", assets := [{ name := "b", url := "u" }] } := by
  decide +kernel

/-- `hex.EncodeToString`. -/
def hexDigit (n : UInt8) : UInt8 :=
  if n < 10 then 0x30 + n else 0x61 + (n - 10)

def EncodeToString (s : Bytes) : Bytes :=
  s.flatMap fun b => [hexDigit (b / 16), hexDigit (b % 16)]

def sha256hex (sha256 : Bytes -> Bytes) (b : Bytes) : Bytes :=
  EncodeToString (sha256 b)

/-!
## Calls
-/

/-- What comes of a request: a URL that is none panics, and a body may break off. -/
inductive GetReply (ε : Type) where
  | panics
  | fails (err : ε)
  | responds (status : Int) (body : Bytes) (broken : Option ε)

inductive UpdateCall where
  | Get (url : String) (accept : Option String)
  | Fs (c : FsCall)

abbrev UpdateReply (ε : Type) : UpdateCall -> Type
  | .Get _ _ => GetReply ε
  | .Fs c => FsReply ε c

abbrev UpdateEvent (ε : Type) := Event UpdateCall (UpdateReply ε)

/-- The outside world of an update: any replies to requests, and a file system. -/
def updateWorld (ε : Type) : Contract UpdateCall (UpdateReply ε) Files where
  owes _ _ := True
  answers fs c r fs' :=
    match c, r with
    | .Get _ _, _ => fs' = fs
    | .Fs c, r => fileSystemAnswers fs c r fs'

inductive GetError (ε : Type) where
  | transport (err : ε)
  | status (code : Int)
  | decode
  | body (err : ε)

/-- The errors `Update` returns. -/
inductive UpdateError (ε : Type) where
  | fetch (err : GetError ε)
  | noArtifact (name : String)
  | noChecksums
  | checksums (err : GetError ε)
  | noDigest (name : String)
  | binary (err : GetError ε)
  | mismatch (want got : Bytes)
  | swap (err : SwapError ε)

inductive UpdateOutcome (ε : Type) where
  | panicked
  | returned (fromVersion toVersion : String) (err : Option (UpdateError ε))

structure UpdateOptions where
  owner : String
  repo : String
  currentVersion : String
  goos : String
  goarch : String
  binaryPath : Bytes
  /-- "" stands for the API of GitHub. -/
  apiBase : String := ""

def DefaultAPIBase : String := "https://api.github.com"

/-- `strings.TrimRight(s, "/")`. -/
def trimSlashes (s : String) : String :=
  String.ofList (s.toList.rdropWhile fun c => decide (c = '/'))

def UpdateOptions.releaseURL (opts : UpdateOptions) : String :=
  trimSlashes (if opts.apiBase = "" then DefaultAPIBase else opts.apiBase) ++ "/repos/" ++
    opts.owner ++ "/" ++ opts.repo ++ "/releases/latest"

/-!
## The program
-/

section Program

variable {ε : Type}

/-- `FetchLatest`; no value is a panic. -/
def FetchLatest [JsonStream] (opts : UpdateOptions) :
    Program UpdateCall (UpdateReply ε) (Option (Except (GetError ε) Release)) :=
  .call (.Get opts.releaseURL (some "application/vnd.github+json")) fun
    | .panics => .done none
    | .fails err => .done (some (.error (.transport err)))
    | .responds status body broken =>
        if status ≠ 200 then .done (some (.error (.status status)))
        else
          match (JsonStream.first body broken.isSome).bind decodeRelease with
          | none => .done (some (.error .decode))
          | some rel => .done (some (.ok rel))

def download (url : String) :
    Program UpdateCall (UpdateReply ε) (Option (Except (GetError ε) Bytes)) :=
  .call (.Get url none) fun
    | .panics => .done none
    | .fails err => .done (some (.error (.transport err)))
    | .responds status body broken =>
        if status ≠ 200 then .done (some (.error (.status status)))
        else
          match broken with
          | some err => .done (some (.error (.body err)))
          | none => .done (some (.ok body))

def onFiles (c : FsCall) : Program UpdateCall (UpdateReply ε) (FsReply ε c) :=
  .call (.Fs c) .done

/-- `Update` once the digest of the binary is known. -/
def installBinary (sha256 : Bytes -> Bytes) (opts : UpdateOptions) (version : String)
    (wantSum binData : Bytes) : Program UpdateCall (UpdateReply ε) (UpdateOutcome ε) :=
  if sha256hex sha256 binData ≠ wantSum then
    .done (.returned opts.currentVersion version
      (some (.mismatch wantSum (sha256hex sha256 binData))))
  else
    ((swapBinary opts.binaryPath binData).interp onFiles).bind fun
      | some err => .done (.returned opts.currentVersion version (some (.swap err)))
      | none => .done (.returned opts.currentVersion version none)

/-- `Update` once the two assets of the release are known. -/
def updateFrom [LowerCase] (sha256 : Bytes -> Bytes) (opts : UpdateOptions)
    (version : String) (binAsset sumsAsset : Asset) :
    Program UpdateCall (UpdateReply ε) (UpdateOutcome ε) :=
  let wantName := AssetName opts.goos opts.goarch
  (download sumsAsset.url).bind fun
    | none => .done .panicked
    | some (.error err) =>
        .done (.returned opts.currentVersion version (some (.checksums err)))
    | some (.ok sumsRaw) =>
        match ParseChecksums sumsRaw (utf8 wantName) with
        | none => .done (.returned opts.currentVersion version (some (.noDigest wantName)))
        | some wantSum =>
            (download binAsset.url).bind fun
              | none => .done .panicked
              | some (.error err) =>
                  .done (.returned opts.currentVersion version (some (.binary err)))
              | some (.ok binData) => installBinary sha256 opts version wantSum binData

def Update [JsonStream] [LowerCase] (sha256 : Bytes -> Bytes) (opts : UpdateOptions) :
    Program UpdateCall (UpdateReply ε) (UpdateOutcome ε) :=
  (FetchLatest opts).bind fun
    | none => .done .panicked
    | some (.error err) => .done (.returned opts.currentVersion "" (some (.fetch err)))
    | some (.ok rel) =>
        if rel.version = opts.currentVersion then
          .done (.returned opts.currentVersion rel.version none)
        else
          match PickAsset rel (AssetName opts.goos opts.goarch) with
          | none =>
              .done (.returned opts.currentVersion rel.version
                (some (.noArtifact (AssetName opts.goos opts.goarch))))
          | some binAsset =>
              match PickAsset rel "checksums.txt" with
              | none => .done (.returned opts.currentVersion rel.version (some .noChecksums))
              | some sumsAsset => updateFrom sha256 opts rel.version binAsset sumsAsset

end Program

end SelfUpdate
end Telemux
