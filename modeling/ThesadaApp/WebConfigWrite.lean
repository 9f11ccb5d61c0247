import Mathlib.Data.Finset.Erase
import Mathlib.Data.Finset.Insert
import Mathlib.Tactic.Common
import ThesadaApp.Basic
import ThesadaApp.MachineRun

/-!
The staged config write: the POST handler that claims the device's write slot and enqueues the
request, and the `runCLIWrite` goroutine it starts. The goroutine's body is cut at every operation
on shared state (the slot map and the request store) and at the two calls that may take long, so
any number of writes interleave. What `stagedWrite`, the snapshot upsert and the device lookup
answer comes with the action.
-/

namespace ThesadaApp

/-- A devices row's primary key. -/
abbrev DevicePk := UUID

namespace ConfigWrite

inductive RequestStatus where
  | pending
  | done
  | timeout
  | error
  deriving DecidableEq, Repr

structure CLIResponse where
  cmd : String
  ok : Bool
  output : List String
  deriving DecidableEq, Repr

structure RequestEntry where
  status : RequestStatus
  response : Option CLIResponse
  errorMsg : String
  deriving DecidableEq, Repr

/-- The request store; a request id is a position in it. -/
abbrev RequestStore := List RequestEntry

namespace RequestStore

def enqueue (st : RequestStore) : RequestStore := st ++ [⟨.pending, none, ""⟩]

def markDone (st : RequestStore) (id : Nat) (resp : CLIResponse) : RequestStore :=
  st.modify id fun e => { e with status := .done, response := some resp }

def markError (st : RequestStore) (id : Nat) (status : RequestStatus) (msg : String) : RequestStore :=
  st.modify id fun e => { e with status, errorMsg := msg }

def failPending (st : RequestStore) (id : Nat) (msg : String) : RequestStore :=
  st.modify id fun e => if e.status = .pending then { e with status := .error, errorMsg := msg } else e

end RequestStore

/-- The error `stagedWrite` returns: a `*writeFailure`, or any other error by its text. -/
inductive StagedError where
  | writeFailure (status : RequestStatus) (msg : String)
  | other (msg : String)
  deriving DecidableEq, Repr

/-- Where a write stands. `returning` has left the body of `runCLIWrite` with its deferred release
still to run; `unwound` is a panic past that release, before `guardCLI` fails the request. -/
inductive Phase where
  | claimed
  | staging
  | failed (err : StagedError)
  | failedReleased (err : StagedError)
  | staged
  | upserted
  | upsertedReleased
  | returning (released panicked : Bool)
  | unwound
  | finished
  deriving DecidableEq, Repr

namespace Phase

/-- The write has claimed the slot and not finished its `stagedWrite`. -/
def unfinished : Phase → Bool
  | claimed | staging => true
  | _ => false

/-- The write has claimed the slot and run none of its releases. -/
def holding : Phase → Bool
  | claimed | staging | failed _ | staged | upserted | returning false _ => true
  | _ => false

/-- The body of `runCLIWrite` is running: the points a panic can leave it from. -/
def inBody : Phase → Bool
  | staging | failed _ | failedReleased _ | staged | upserted | upsertedReleased => true
  | _ => false

theorem holding_of_unfinished {p : Phase} (hp : p.unfinished = true) : p.holding = true := by
  cases p <;> simp_all [unfinished, holding]

end Phase

/-- One claimed write: the device, the content length and the request id once it is enqueued. -/
structure Write where
  device : DevicePk
  contentLen : Nat
  reqID : Nat
  phase : Phase
  deriving DecidableEq, Repr

/-- What the server holds: the devices with a write in flight, the request store, and every write
claimed so far, named by its position. -/
structure Server where
  deviceWrites : Finset DevicePk
  cliRequests : RequestStore
  writes : List Write
  deriving DecidableEq

def Server.initial : Server := ⟨∅, [], []⟩

structure Config where
  /-- `CLIRequestTimeout` in nanoseconds. -/
  cliRequestTimeout : Nat

def writeChunkSize : Nat := 3900

def writeChunkCount (n : Nat) : Nat := (n + writeChunkSize - 1) / writeChunkSize

/-- The chunks, then fs.cat, fs.mv and fs.rm. -/
def writeSteps (n : Nat) : Nat := writeChunkCount n + 3

/-- `Devices.GetByIDAny`. -/
inductive Lookup where
  | failed
  | missing
  | found

structure CLIWriteRequest where
  path : String
  content : String

/-- A POST to config/write as the handler sees it: the path's id if it parses, the device lookup's
answer, and the body if it decodes. -/
structure WriteRequest where
  pathID : Option DevicePk
  lookup : Lookup
  body : Option CLIWriteRequest

/-- The checks of `handleAdminDeviceConfigWrite` before the claim. -/
def WriteRequest.check (r : WriteRequest) : Except HttpError (DevicePk × CLIWriteRequest) :=
  match r.pathID with
  | none => .error ⟨400, "bad device id"⟩
  | some id =>
      match r.lookup with
      | .failed => .error ⟨500, "device lookup failed"⟩
      | .missing => .error httpNotFound
      | .found =>
          match r.body with
          | none => .error ⟨400, "bad json"⟩
          | some req =>
              if req.path = "" ∨ req.content = "" then .error ⟨400, "path and content required"⟩
              else .ok (id, req)

/-- `LoadOrStore`: refused while the device has a write. -/
def claimDeviceWrite (s : Server) (id : DevicePk) : Option Server :=
  if id ∈ s.deviceWrites then none else some { s with deviceWrites := insert id s.deviceWrites }

def releaseDeviceWrite (s : Server) (id : DevicePk) : Server :=
  { s with deviceWrites := s.deviceWrites.erase id }

/-- What a claimed write can do next: its handler's last part, then the goroutine's steps. -/
inductive WriteAction where
  /-- Enqueue the request, start the goroutine and answer. -/
  | enqueue
  | stagedWriteReturns (err : Option StagedError)
  /-- The snapshot upsert returns; its error is only logged. -/
  | upsertReturns (err : Option String)
  | releaseExplicit
  | mark
  | panics
  | releaseDeferred
  | failPending

inductive Action where
  | post (r : WriteRequest)
  | write (w : Nat) (a : WriteAction)

inductive Event where
  | refused (e : HttpError)
  | claimed (w : Nat) (id : DevicePk)
  | enqueued (requestID timeoutSeconds : Nat)
  | released (w : Nat) (id : DevicePk)
  | went (w : Nat)
  deriving DecidableEq, Repr

/-- The entry `runCLIWrite` leaves for a failed `stagedWrite`. -/
def markFailure (st : RequestStore) (reqID : Nat) : StagedError → RequestStore
  | .writeFailure status msg => st.markError reqID status msg
  | .other msg => st.markError reqID .error msg

def doneResponse (contentLen : Nat) : CLIResponse :=
  { cmd := "fs.write"
    ok := true
    output := [toString contentLen ++ " bytes in " ++ toString (writeChunkCount contentLen) ++ " chunk(s)"] }

/-- Move write `w` to another phase. -/
def Server.setPhase (s : Server) (w : Nat) (p : Phase) : Server :=
  { s with writes := s.writes.modify w fun wr => { wr with phase := p } }

/-- One step of the goroutine that runs write `w`, or of the handler that started it. -/
def stepWrite (cfg : Config) (s : Server) (w : Nat) (wr : Write) : WriteAction → Option (Server × Event)
  | .enqueue =>
      if wr.phase = .claimed then
        let reqID := s.cliRequests.length
        some ({ s with
            cliRequests := s.cliRequests.enqueue
            writes := s.writes.modify w fun wr => { wr with reqID, phase := .staging } },
          .enqueued reqID (cfg.cliRequestTimeout / 1000000000 * writeSteps wr.contentLen))
      else none
  | .stagedWriteReturns err =>
      if wr.phase = .staging then
        some (s.setPhase w (match err with | some e => .failed e | none => .staged), .went w)
      else none
  | .upsertReturns _ => if wr.phase = .staged then some (s.setPhase w .upserted, .went w) else none
  | .releaseExplicit =>
      match wr.phase with
      | .failed e =>
          some ((releaseDeviceWrite s wr.device).setPhase w (.failedReleased e), .released w wr.device)
      | .upserted =>
          some ((releaseDeviceWrite s wr.device).setPhase w .upsertedReleased, .released w wr.device)
      | _ => none
  | .mark =>
      match wr.phase with
      | .failedReleased e =>
          some ({ s with cliRequests := markFailure s.cliRequests wr.reqID e }.setPhase w
            (.returning true false), .went w)
      | .upsertedReleased =>
          some ({ s with cliRequests := s.cliRequests.markDone wr.reqID (doneResponse wr.contentLen) }.setPhase w
            (.returning true false), .went w)
      | _ => none
  | .panics =>
      if wr.phase.inBody then some (s.setPhase w (.returning (!wr.phase.holding) true), .went w) else none
  | .releaseDeferred =>
      match wr.phase with
      | .returning _ panicked =>
          some ((releaseDeviceWrite s wr.device).setPhase w (if panicked then .unwound else .finished),
            .released w wr.device)
      | _ => none
  | .failPending =>
      if wr.phase = .unwound then
        some ({ s with cliRequests := s.cliRequests.failPending wr.reqID
                          "internal error, the cause is in the app log" }.setPhase w .finished, .went w)
      else none

def step (cfg : Config) (s : Server) : Action → Option (Server × Event)
  | .post r =>
      match r.check with
      | .error e => some (s, .refused e)
      | .ok (id, req) =>
          match claimDeviceWrite s id with
          | none => some (s, .refused ⟨409, "a write to this device is already running"⟩)
          | some s' =>
              some ({ s' with writes := s'.writes ++ [⟨id, req.content.utf8ByteSize, 0, .claimed⟩] },
                .claimed s'.writes.length id)
  | .write w a => s.writes[w]?.bind fun wr => stepWrite cfg s w wr a

def machine (cfg : Config) : Machine Server Action Event where
  step := step cfg

end ConfigWrite

end ThesadaApp
