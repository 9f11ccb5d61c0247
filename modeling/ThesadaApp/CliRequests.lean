import Mathlib.Logic.Function.Basic
import ThesadaApp.MachineRun

/-!
The CLI calls to one device: each waits for the device's lock, taps the response topic, publishes its command and reads
replies until they make a response or its time is up. A command may be executed, and a reply may come, at any later
time or never; replies overtake each other.
-/

namespace ThesadaApp.Cli

section pages

/-- The fields of a `CLIResponse` besides the two that it is matched by. -/
structure Body where
  ok : Bool
  output : List String
  page : Option Int
  more : Option Bool
  total : Option Int
  offset : Option Int
  length : Option Int
  done : Option Bool
  data : Option String
  deriving DecidableEq

structure CLIResponse extends Body where
  cmd : String
  reqID : String
  deriving DecidableEq

/-- The variables of `awaitPagedCLIResponse`. -/
structure Pages where
  pages : Int → Option (List String)
  final : Option CLIResponse

def Pages.empty : Pages := ⟨fun _ => none, none⟩

def Pages.take (p : Pages) (resp : CLIResponse) : Pages where
  pages := Function.update p.pages (resp.page.getD 0) (some resp.output)
  final := if resp.more = some true then p.final else some resp

/-- The outputs of the pages up to the last, if all are there. -/
def Pages.combined (p : Pages) (finalIdx : Int) : Option (List String) :=
  ((List.range (finalIdx + 1).toNat).mapM fun i => p.pages i).map List.flatten

def Pages.assemble (p : Pages) : Option CLIResponse :=
  p.final.bind fun final => (p.combined (final.page.getD 0)).map fun output =>
    { final with output := output, page := none, more := none }

inductive Outcome where
  | parseError
  | waiting
  | response (resp : CLIResponse)
  deriving DecidableEq

def Pages.await (p : Pages) : List (Option CLIResponse) → Outcome
  | [] => .waiting
  | none :: _ => .parseError
  | some resp :: rest =>
      match (p.take resp).assemble with
      | some whole => .response whole
      | none => (p.take resp).await rest

/-- What has come of the payloads it has read, as far as each of them is a response. -/
def awaitPagedCLIResponse (payloads : List (Option CLIResponse)) : Outcome := Pages.empty.await payloads

end pages

section model

/-- `req_id` and `cmd` of a payload that is JSON. -/
structure Probe where
  reqID : String
  cmd : String

def cliMatchesRequest (payload : Option Probe) (reqID command : String) : Bool :=
  match payload with
  | none => true
  | some probe =>
      if probe.reqID ≠ "" ∧ reqID ≠ "" then probe.reqID = reqID else probe.cmd = "" || probe.cmd = command

/-- A command for the device, and what its replies echo: there is no id where the payload is raw. -/
structure Command where
  /-- The call it is from. -/
  origin : Nat
  command : String
  reqID : String
  deriving DecidableEq

/-- A reply of the device; `none` where the rest of it is no response. -/
structure Reply where
  of : Command
  body : Option Body
  deriving DecidableEq

def Reply.probe (f : Reply) : Probe := ⟨f.of.reqID, f.of.command⟩

def Reply.parsed (f : Reply) : Option CLIResponse := f.body.map fun b => ⟨b, f.of.command, f.of.reqID⟩

inductive Stage where
  /-- at `lock.Lock()` -/
  | waiting
  | locked
  /-- It has the lock and a tap, with a channel and the replies it has read off it. -/
  | tapped (ch read : List Reply) (published : Bool)
  /-- No response is an error. -/
  | returned (read : List Reply) (resp : Option CLIResponse)
  deriving DecidableEq

/-- A call of `CLIRequest`, or of `CLIRequestRaw`. -/
structure Call where
  command : String
  raw : Bool
  stage : Stage
  deriving DecidableEq

/-- `uuid.NewString`, by the call that draws it. -/
structure Uuids where
  newString : Nat → String
  injective : Function.Injective newString
  ne_empty : ∀ i, newString i ≠ ""

structure State where
  calls : Nat → Option Call
  lock : Option Nat
  /-- Commands on their way to the device or not yet executed there. -/
  pending : List Command
  /-- Replies on their way to the app. -/
  replies : List Reply

def State.start : State := ⟨fun _ => none, none, [], []⟩

/-- The statements of a call. -/
inductive Op where
  | lock
  | tap
  /-- An error does not tell whether the command is on its way. -/
  | publish (sent error : Bool)
  | read
  /-- The context is done, or a step before the answer fails. -/
  | fail

inductive Action where
  | call (i : Nat) (command : String) (raw : Bool)
  | next (i : Nat) (op : Op)
  /-- The device runs a command and answers it, on any number of pages. -/
  | execute (n : Nat) (answers : List (Option Body))
  | loseCommand (n : Nat)
  | deliver (n : Nat) (retained : Bool)
  | loseReply (n : Nat)

variable (u : Uuids)

/-- The id a call matches by. -/
def Call.reqID (c : Call) (i : Nat) : String := if c.raw then "" else u.newString i

def Call.message (c : Call) (i : Nat) : Command := ⟨i, c.command, c.reqID u i⟩

/-- The tap of a call: no retained message, and a full channel drops the reply. -/
def Call.hear (c : Call) (i : Nat) (f : Reply) (retained : Bool) : Call :=
  match c.stage with
  | .tapped ch read published =>
      if !retained && cliMatchesRequest (some f.probe) (c.reqID u i) c.command && ch.length < 64 then
        { c with stage := .tapped (ch ++ [f]) read published }
      else c
  | _ => c

def State.put (s : State) (i : Nat) (c : Call) (stage : Stage) : State :=
  { s with calls := Function.update s.calls i (some { c with stage := stage }) }

def State.setLock (s : State) (lock : Option Nat) : State := { s with lock := lock }

def State.send (s : State) (m : Command) : State := { s with pending := s.pending ++ [m] }

/-- A call returns: its tap is gone and the lock is free. -/
def State.leave (s : State) (i : Nat) (c : Call) (read : List Reply) (resp : Option CLIResponse) : State :=
  (s.put i c (.returned read resp)).setLock none

def stepCall (s : State) (i : Nat) (c : Call) : Op → Option State
  | .lock => if c.stage = .waiting ∧ s.lock = none then some ((s.put i c .locked).setLock i) else none
  | .tap => if c.stage = .locked then some (s.put i c (.tapped [] [] false)) else none
  | .publish sent error =>
      match c.stage with
      | .tapped ch read false =>
          let s := if sent then s.send (c.message u i) else s
          some (if error then s.leave i c read none else s.put i c (.tapped ch read true))
      | _ => none
  | .read =>
      match c.stage with
      | .tapped (f :: ch) read true =>
          some (match awaitPagedCLIResponse ((read ++ [f]).map Reply.parsed) with
            | .waiting => s.put i c (.tapped ch (read ++ [f]) true)
            | .parseError => s.leave i c (read ++ [f]) none
            | .response resp => s.leave i c (read ++ [f]) (some resp))
      | _ => none
  | .fail =>
      match c.stage with
      | .locked => some (s.leave i c [] none)
      | .tapped _ read _ => some (s.leave i c read none)
      | _ => none

def stepState (s : State) : Action → Option State
  | .call i command raw => if s.calls i = none then some (s.put i ⟨command, raw, .waiting⟩ .waiting) else none
  | .next i op => (s.calls i).bind fun c => stepCall u s i c op
  | .execute n answers => s.pending[n]?.map fun m =>
      { s with pending := s.pending.eraseIdx n, replies := s.replies ++ answers.map fun body => ⟨m, body⟩ }
  | .loseCommand n => s.pending[n]?.map fun _ => { s with pending := s.pending.eraseIdx n }
  | .deliver n retained => s.replies[n]?.map fun f =>
      { s with replies := s.replies.eraseIdx n, calls := fun i => (s.calls i).map fun c => c.hear u i f retained }
  | .loseReply n => s.replies[n]?.map fun _ => { s with replies := s.replies.eraseIdx n }

def system : Machine State Action Unit where
  step s a := (stepState u s a).map fun s' => (s', ())

end model

end ThesadaApp.Cli
