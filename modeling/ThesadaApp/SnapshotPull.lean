import Mathlib.Data.List.Infix
import ThesadaApp.CliRequests
import ThesadaApp.FileHistory
import ThesadaApp.Utf8Chunks

/-!
The pull of a file from a device, in chunks of at most 2048 bytes, and what of it is stored. The text of a chunk comes
out of a JSON string, which is read as UTF-8 for itself.
-/

namespace ThesadaApp.Snapshot

open Cli ConfigSecrets DeviceFiles Json

/-- A command and its payload. The payload of `fs.cat` is the path, the offset and the length. -/
inductive Request where
  | configDump
  | fsLs (dir : String)
  | fsCat (path : String) (offset : Int) (length : Nat)
  deriving DecidableEq, Repr

/-- The payloads that answer a request in time, by its number. -/
abbrev Device := Nat → Request → List (Option CLIResponse)

/-- `CLIRequest`: the response its payloads make. It fails when the time is up before, or when one is no response. -/
def cliRequest (payloads : List (Option CLIResponse)) : Option CLIResponse :=
  match awaitPagedCLIResponse payloads with
  | .response resp => some resp
  | _ => none

/-- The chunked read, from the `n`-th request on. It gives the content, or nothing if a request fails, and is not over
when the fuel runs out. -/
def readChunks (device : Device) (path : String) : (fuel n : Nat) → (offset : Int) → (buf : String) →
    Option (Option String)
  | 0, _, _, _ => none
  | fuel + 1, n, offset, buf =>
      match cliRequest (device n (.fsCat path offset 2048)) with
      | none => some none
      | some resp =>
          if resp.ok = false then some none
          else
            let buf := buf ++ resp.data.getD ""
            if resp.done = some true then some (some buf)
            else
              match resp.length with
              | some length => readChunks device path fuel (n + 1) (offset + length) buf
              | none => some (some buf)

def shellMarkers : List String := ["Usage:", "Error:", "Failed to", "Unknown command:"]

def validSnapshotContent (F : FloatFormat) (path content : String) : Bool :=
  if path = "config.json" then
    let trimmed := trimSpace content.toList
    trimmed.head? = some '\x7b' && trimmed.getLast? = some '\x7d' && (unmarshalMap F trimmed).isSome
  else if ".lua".toList.isSuffixOf path.toList then
    if trimSpace content.toList = [] then false
    else
      let head := (Utf8.encode content.toList).take 200
      !shellMarkers.any fun marker => decide (Utf8.encode marker.toList <:+: head)
  else true

/-- `hex(sha256(content))`. -/
structure Digest where
  hex : List UInt8 → String
  ne_empty : ∀ bs, hex bs ≠ ""

section pull

variable (F : FloatFormat) (sha : Digest) (device : Device) (fuel : Nat)

/-- What is read of a file. -/
def pulledContent (path : String) : Option (Option String) :=
  if path = "config.json" then
    match cliRequest (device 0 .configDump) with
    | none => some none
    | some resp => if resp.ok = false then some none else some (some ("\n".intercalate resp.output))
  else readChunks device path fuel 0 0 ""

/-- The call of `DeviceFiles.Upsert` that a pull ends with, if it stores anything. -/
def pullAndSnapshot (tenant : Slug) (devicePk : UUID) (path source expectedSha : String) : Option (Option UpsertCall) :=
  (pulledContent device fuel path).map fun
    | none => none
    | some content =>
        if validSnapshotContent F path content = false then none
        else
          let hashHex := sha.hex (Utf8.encode content.toList)
          if expectedSha ≠ "" ∧ hashHex ≠ expectedSha then none
          else some ⟨tenant, devicePk, path, content, hashHex, source, none⟩

end pull

/-- `strings.Fields`. -/
def fields (line : String) : List String :=
  ((line.toList.splitOnP isSpace).filter fun w => !w.isEmpty).map String.ofList

/-- The file that a line of `fs.ls` names, with its size before it. -/
def scriptPath (line : String) : Option String :=
  match fields line with
  | [_, name] =>
      if ".lua".toList.isSuffixOf name.toList = false then none
      else some (if name.toList.head? = some '/' then name else "/scripts/" ++ name)
  | _ => none

/-- The pulls of the scripts that are not stored yet, line by line. -/
def pullUntracked (pull : String → Option UpsertCall) (stored : String → Bool) : List String → List UpsertCall
  | [] => []
  | line :: lines =>
      match scriptPath line with
      | none => pullUntracked pull stored lines
      | some path =>
          if stored path then pullUntracked pull stored lines
          else
            match pull path with
            | none => pullUntracked pull stored lines
            | some call => call :: pullUntracked pull (fun p => p = path || stored p) lines

/-- What the scripts found on a device have stored. The pull of each has no hash to compare with. -/
def discoverAndSnapshotScripts (F : FloatFormat) (sha : Digest) (listing : List (Option CLIResponse))
    (device : String → Device) (fuel : Nat) (tenant : Slug) (devicePk : UUID) (stored : String → Bool) :
    List UpsertCall :=
  match cliRequest listing with
  | none => []
  | some resp =>
      if resp.ok = false then []
      else
        pullUntracked (fun path => (pullAndSnapshot F sha (device path) fuel tenant devicePk path "drift" "").join)
          stored resp.output

end ThesadaApp.Snapshot
