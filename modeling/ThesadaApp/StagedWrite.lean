import Mathlib.Data.Nat.Digits.Lemmas
import ThesadaApp.WebConfigWrite

/-!
The staged write of a device file, against a device whose every command may be executed, refused by its file
system or lost, and whose every reply may be honest, an error or lost. Strings are byte lists, as they are on
the wire: the shell of the device cuts a payload at its first newline or its blanks.
-/

namespace ThesadaApp.StagedWrite

open ConfigWrite (RequestStatus)

/-- A string of the source or a byte slice. -/
abbrev Bytes := List UInt8

/-- An ASCII literal. -/
def ascii (s : String) : Bytes := s.toList.map fun c => c.toNat.toUInt8

/-- The decimal digits of a number. -/
def itoa (n : Nat) : Bytes :=
  if n = 0 then ascii "0" else (Nat.digits 10 n).reverse.map fun d => 48 + d.toUInt8

def isDigit (b : UInt8) : Bool := 48 ≤ b && b ≤ 57

/-- The number some digits read as. -/
def digitsValue (ds : Bytes) : Nat := ds.foldl (fun n b => 10 * n + (b.toNat - 48)) 0

inductive CommandName where
  | fsWrite
  | fsAppend
  | fsCat
  | fsMv
  | fsRm
  deriving DecidableEq, Repr

/-- One `CLIRequest` or `CLIRequestRaw` to the device. -/
structure Command where
  name : CommandName
  payload : Bytes
  deriving DecidableEq, Repr

/-- The fields of a response that `stagedWrite` reads. -/
structure CLIResponse where
  ok : Bool
  output : List Bytes
  total : Option Nat
  deriving DecidableEq, Repr

abbrev Files := Bytes → Option Bytes

/-- What became of a command: it did not arrive, the file system refused it and nothing changed, or it ran, a
write with the first bytes only. -/
inductive Outcome where
  | lost
  | refused
  | done (count : Nat)
  deriving DecidableEq, Repr

/-- What the sender is told. -/
inductive Answer where
  | honest
  | deviceError (output : List Bytes)
  | transport (timedOut : Bool) (text : Bytes)
  deriving DecidableEq, Repr

structure Fate where
  outcome : Outcome
  answer : Answer
  deriving DecidableEq, Repr

/-- What surrounds a call: the fate of each command, what the shell of the device makes of a line it splits or
expands, and two texts of the standard library. -/
structure Env where
  schedule : Nat → Fate
  shell : Command → Files → Files × CLIResponse
  /-- The step timeout, printed. -/
  timeout : Bytes
  /-- `strconv.Quote`. -/
  quote : Bytes → Bytes

/-- The firmware prints into a buffer of 64 bytes. -/
def cutLine (l : Bytes) : Bytes := l.take 63

def okLine (l : Bytes) : CLIResponse := ⟨true, [cutLine l], none⟩

def errLine (l : Bytes) : CLIResponse := ⟨false, [l], none⟩

/-- A byte the shell splits at or expands. -/
def special (b : UInt8) : Bool := b ∈ ascii " \t\r\n*?"

/-- The path and the data of a raw payload; there is none without a newline. -/
def cutPayload (payload : Bytes) : Option (Bytes × Bytes) :=
  match payload.dropWhile (· ≠ 10) with
  | [] => none
  | _ :: data => some (payload.takeWhile (· ≠ 10), data)

/-- The arguments of a line, if a blank is all that is special in it. -/
def shellArgs (payload : Bytes) : Option (List Bytes) :=
  let args := payload.splitOn 32
  if args.all fun arg => !arg.any special then some args else none

/-- A command on the device, with its honest response. -/
def execute (env : Env) (files : Files) (c : Command) (outcome : Outcome) : Files × CLIResponse :=
  match c.name, cutPayload c.payload, shellArgs c.payload with
  | .fsWrite, some (path, data), _ =>
      match outcome with
      | .done count =>
          let stored := data.take count
          (Function.update files path (some stored),
            okLine (ascii "Wrote " ++ itoa stored.length ++ ascii " bytes to " ++ path))
      | _ => (files, errLine (ascii "Failed to open file"))
  | .fsAppend, some (path, data), _ =>
      match outcome with
      | .done count =>
          let stored := data.take count
          (Function.update files path (some ((files path).getD [] ++ stored)),
            okLine (ascii "Appended " ++ itoa stored.length ++ ascii " bytes to " ++ path))
      | _ => (files, errLine (ascii "Failed to open file"))
  | .fsCat, _, some [path, _, _] =>
      match outcome, files path with
      | .done _, some body => (files, ⟨true, [], some body.length⟩)
      | _, _ => (files, errLine (ascii "File not found"))
  | .fsMv, _, some [src, dst] =>
      match outcome, files src with
      | .done _, some body =>
          (Function.update (Function.update files dst (some body)) src none,
            okLine (ascii "Renamed " ++ src ++ ascii " -> " ++ dst))
      | _, _ => (files, okLine (ascii "Failed to rename"))
  | .fsRm, _, some [path] =>
      match outcome, files path with
      | .done _, some _ => (Function.update files path none, okLine (ascii "Removed " ++ path))
      | _, _ => (files, okLine (ascii "Failed to remove (file not found or directory)"))
  | _, _, _ => env.shell c files

/-- The device, and what was sent to it with its fate. -/
structure Device where
  files : Files
  sent : List (Command × Fate)

inductive Reply where
  | response (resp : CLIResponse)
  | err (timedOut : Bool) (text : Bytes)
  deriving DecidableEq, Repr

/-- What the sender is told instead of the honest reply. -/
def Answer.reply (answer : Answer) (honest : Reply) : Reply :=
  match answer with
  | .honest => honest
  | .deviceError output => .response ⟨false, output, none⟩
  | .transport timedOut text => .err timedOut text

/-- A round trip. A command that did not arrive is not answered honestly. -/
def request (env : Env) (d : Device) (c : Command) : Device × Reply :=
  let fate := env.schedule d.sent.length
  if fate.outcome = .lost then
    (⟨d.files, d.sent ++ [(c, fate)]⟩, fate.answer.reply (.err true (ascii "context deadline exceeded")))
  else
    (⟨(execute env d.files c fate.outcome).1, d.sent ++ [(c, fate)]⟩,
      fate.answer.reply (.response (execute env d.files c fate.outcome).2))

/-- A failed `stagedWrite`. -/
structure WriteFailure where
  status : RequestStatus
  msg : Bytes
  deriving DecidableEq, Repr

def writeChunkSize : Nat := 3900

def stagedSuffix : Bytes := ascii ".new"

def writeChunkCount (n : Nat) : Nat := (n + writeChunkSize - 1) / writeChunkSize

/-- The lines of a response, printed as a slice or joined by blanks. -/
def joinLines (output : List Bytes) : Bytes := (output.intersperse (ascii " ")).flatten

inductive StepResult where
  | ok (resp : CLIResponse)
  | failed (resp : Option CLIResponse) (f : WriteFailure)
  deriving DecidableEq, Repr

/-- What a step makes of a reply. -/
def stepResult (env : Env) (label : Bytes) : Reply → StepResult
  | .err true _ => .failed none ⟨.timeout, label ++ ascii " timed out after " ++ env.timeout⟩
  | .err false text => .failed none ⟨.error, label ++ ascii " failed: " ++ text⟩
  | .response resp =>
      if resp.ok then .ok resp
      else .failed (some resp) ⟨.error, label ++ ascii " device error: [" ++ joinLines resp.output ++ ascii "]"⟩

def step (env : Env) (label : Bytes) (c : Command) (d : Device) : Device × StepResult :=
  ((request env d c).1, stepResult env label (request env d c).2)

def outputHasPrefix (output : List Bytes) (p : Bytes) : Bool := output.any fun l => p.isPrefixOf l

/-- Drop the staging copy, best effort; the failure says whether it may be left. -/
def cleanup (env : Env) (staged : Bytes) (f : WriteFailure) (d : Device) : Device × WriteFailure :=
  let r := step env (ascii "remove " ++ staged) ⟨.fsRm, staged⟩ d
  let resp :=
    match r.2 with
    | .ok resp => some resp
    | .failed resp _ => resp
  (r.1,
    if resp.any fun resp => outputHasPrefix resp.output (ascii "Removed ") then f
    else
      let kept := ascii " (" ++ staged ++ ascii " may remain on the device, the next save overwrites it)"
      { f with msg := f.msg ++ kept })

/-- A line without a leading text. -/
def stripPrefix (p l : Bytes) : Option Bytes := if p.isPrefixOf l then some (l.drop p.length) else none

/-- `ackBytesRE`: the digits and the path of an ack. -/
def matchAck (l : Bytes) : Option (Bytes × Bytes) :=
  match (stripPrefix (ascii "Wrote ") l).orElse fun _ => stripPrefix (ascii "Appended ") l with
  | none => none
  | some rest =>
      let digits := rest.takeWhile isDigit
      match stripPrefix (ascii " bytes to ") (rest.dropWhile isDigit) with
      | none => none
      | some path => if digits = [] ∨ path = [] ∨ 10 ∈ path then none else some (digits, path)

/-- The largest int. -/
def maxInt : Nat := 9223372036854775807

/-- `ackedBytes`; a number that is no int is no ack. -/
def ackedBytes (output : List Bytes) (staged : Bytes) : Option Nat :=
  match output with
  | [] => none
  | l :: _ =>
      match matchAck l with
      | none => none
      | some (digits, path) =>
          if path.isPrefixOf staged = false then none
          else if digitsValue digits ≤ maxInt then some (digitsValue digits) else none

/-- The chunk loop from the i-th chunk on: the failure it ends in, cleaned up or not, or none. -/
def sendChunks (env : Env) (staged content : Bytes) (total : Nat) : Nat → Nat → Device → Device × Option WriteFailure
  | 0, _, d => (d, none)
  | remaining + 1, i, d =>
      let chunk := (content.drop (i * writeChunkSize)).take writeChunkSize
      let label := ascii "chunk " ++ itoa (i + 1) ++ ascii "/" ++ itoa total
      let r := step env label ⟨if i = 0 then .fsWrite else .fsAppend, staged ++ ascii "\n" ++ chunk⟩ d
      match r.2 with
      | .failed resp f =>
          -- a first chunk the device refused created nothing to clean up
          if i = 0 ∧ resp.isSome then (r.1, some f)
          else
            let cleaned := cleanup env staged f r.1
            (cleaned.1, some cleaned.2)
      | .ok resp =>
          if ackedBytes resp.output staged = some chunk.length then sendChunks env staged content total remaining (i + 1) r.1
          else
            let cleaned := cleanup env staged ⟨.error, label ++ ascii " short write: device replied " ++
              env.quote (joinLines resp.output) ++ ascii " for " ++ itoa chunk.length ++ ascii " bytes"⟩ r.1
            (cleaned.1, some cleaned.2)

def failCleaned (env : Env) (staged : Bytes) (f : WriteFailure) (d : Device) : Device × Except WriteFailure Unit :=
  let cleaned := cleanup env staged f d
  (cleaned.1, .error cleaned.2)

/-- The rename, once the size of the staged file is checked. -/
def renameStaged (env : Env) (staged path : Bytes) (d : Device) : Device × Except WriteFailure Unit :=
  let label := ascii "rename " ++ staged ++ ascii " to " ++ path
  let r := step env label ⟨.fsMv, staged ++ ascii " " ++ path⟩ d
  match r.2 with
  | .failed _ f => failCleaned env staged f r.1
  | .ok resp =>
      if outputHasPrefix resp.output (ascii "Renamed ") then (r.1, .ok ())
      else failCleaned env staged ⟨.error, label ++ ascii " failed: " ++ joinLines resp.output⟩ r.1

/-- The size check, and what follows. -/
def checkStaged (env : Env) (staged path : Bytes) (size : Nat) (d : Device) : Device × Except WriteFailure Unit :=
  let label := ascii "size check of " ++ staged
  let r := step env label ⟨.fsCat, staged ++ ascii " " ++ itoa size ++ ascii " 1"⟩ d
  match r.2 with
  | .failed _ f => failCleaned env staged f r.1
  | .ok resp =>
      if resp.total = some size then renameStaged env staged path r.1
      else
        let got :=
          match resp.total with
          | none => ascii "no size"
          | some n => itoa n ++ ascii " bytes"
        failCleaned env staged ⟨.error, label ++ ascii ": device holds " ++ got ++ ascii ", want " ++ itoa size⟩ r.1

def stagedWrite (env : Env) (path content : Bytes) (d : Device) : Device × Except WriteFailure Unit :=
  if path.any special then (d, .error ⟨.error, ascii "path must not contain whitespace, * or ?"⟩)
  else if path = ascii "/sd" ∨ (ascii "/sd/").isPrefixOf path then
    (d, .error ⟨.error, ascii "files on /sd cannot be replaced atomically, the FAT rename refuses an existing file"⟩)
  else
    let staged := path ++ stagedSuffix
    let total := writeChunkCount content.length
    let r := sendChunks env staged content total total 0 d
    match r.2 with
    | some f => (r.1, .error f)
    | none => checkStaged env staged path content.length r.1

end ThesadaApp.StagedWrite
