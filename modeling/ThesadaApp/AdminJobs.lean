import Mathlib.Logic.Function.Basic
import ThesadaApp.Basic
import ThesadaApp.MachineRun

/-!
Admin jobs: the POST that starts one, the goroutine that runs its work, the page that polls it, and
the drain at shutdown. The runner's mutex and wait group and the request store's map are the shared
state; a job's goroutine is cut at every operation on them, so jobs, polls, prunes and drains
interleave. How far the work is, how it ends and when contexts expire comes with the action.
-/

namespace ThesadaApp.AdminJobs

section store

inductive RequestStatus where
  | pending
  | done
  | timeout
  | error
  deriving DecidableEq, Repr

/-- `requestEntry` -/
structure Entry (T : Type) where
  status : RequestStatus
  response : T
  errorMsg : String
  done : Int
  total : Int
  createdAt : Time
  finishedAt : Time

/-- The entries of a `requestStore` by id. -/
abbrev Store (T : Type) := UUID → Option (Entry T)

variable {T : Type} [Inhabited T]

/-- `enqueue`, with the id that `uuid.New` gives. -/
def enqueue (st : Store T) (id : UUID) (now : Time) : Store T :=
  Function.update st id (some ⟨.pending, default, "", 0, 0, now, 0⟩)

def progress (st : Store T) (id : UUID) (done total : Int) : Store T :=
  Function.update st id ((st id).map fun e => { e with done, total })

def markDone (st : Store T) (id : UUID) (resp : T) (now : Time) : Store T :=
  Function.update st id ((st id).map fun e =>
    { e with status := .done, response := resp, finishedAt := now })

/-- `get`: the entry, which is dropped once it is terminal. -/
def get (st : Store T) (id : UUID) : Option (Entry T) × Store T :=
  match st id with
  | none => (none, st)
  | some e => (some e, if e.status = .pending then st else Function.update st id none)

def pruneBefore (st : Store T) (cutoff : Time) : Store T := fun id =>
  (st id).filter fun e => e.status = .pending || cutoff ≤ e.finishedAt

end store

/-- The stop channel: not made yet, open, or closed. -/
inductive Chan where
  | none
  | open
  | closed
  deriving DecidableEq, Repr

/-- `jobRunner` -/
structure Runner where
  wg : Nat
  stopped : Bool
  stop : Chan
  deadline : Option Time
  deriving DecidableEq

/-- `begin` -/
def Runner.begin (j : Runner) : Option Runner :=
  if j.stopped then none
  else some { j with wg := j.wg + 1, stop := if j.stop = .none then .open else j.stop }

/-- `drain` up to the wait; `none` is a panic, the close of a closed channel. -/
def Runner.drain (j : Runner) (deadline : Option Time) : Option Runner :=
  if j.stopped then some j
  else match j.stop with
    | .none => some { j with stopped := true, deadline }
    | .open => some { j with stopped := true, deadline, stop := .closed }
    | .closed => none

/-- Where a job is: the handler that started it, its work, and the deferred calls. -/
inductive Phase where
  | begun
  | enqueued (id : UUID)
  | working (id : UUID)
  /-- the work has returned its target, or has panicked and left the failure target -/
  | returned (id : UUID) (target : String)
  | marked (id : UUID)
  | finished (id : UUID)
  deriving DecidableEq, Repr

def Phase.id : Phase → Option UUID
  | .begun => none
  | .enqueued id | .working id | .returned id _ | .marked id | .finished id => some id

structure Job where
  total : Int
  failTarget : String
  cancelled : Bool
  phase : Phase
  deriving DecidableEq

structure Server where
  runner : Runner
  jobs : Store String
  started : List Job
  /-- Calls of `DrainJobs` past the lock, by their deadlines. -/
  drains : List (Option Time)
  now : Time

def boot : Server := ⟨⟨0, false, .none, none⟩, fun _ => none, [], [], 0⟩

/-- `entryTTL` of the job store: ten minutes. -/
def entryTTL : Time := seconds 600

/-- What a job can do next: the rest of its handler, its work, and the deferred calls. -/
inductive JobAction where
  | enqueue (id : UUID)
  /-- `progress(id, 0, total)`; the goroutine starts and the handler redirects -/
  | spawn
  | report (n : Int)
  /-- the watcher sees the stop channel closed -/
  | cancel
  | workReturns (target : String)
  | workPanics
  | mark
  | finish

inductive Action where
  /-- `startJob` up to `begin` -/
  | post (total : Int) (failTarget : String)
  | job (k : Nat) (a : JobAction)
  | drain (deadline : Option Time)
  | drainReturns (i : Nat)
  | drainTimesOut (i : Nat)
  /-- `handleAdminJob` -/
  | poll (id : UUID)
  /-- a tick of `prune` -/
  | prune
  | tick (d : Nat)

/-- What the job page answers. -/
inductive Answer where
  | running (done total : Int)
  | redirect (target : String)
  | unknown
  deriving DecidableEq

inductive Event where
  | refused
  | begun (k : Nat)
  | enqueued (k : Nat) (id : UUID)
  | reported (k : Nat) (id : UUID) (n : Int)
  | cancelled (k : Nat)
  | returned (k : Nat) (id : UUID) (target : String)
  | marked (k : Nat) (id : UUID) (target : String) (t : Time)
  | finished (k : Nat)
  | draining
  | drained (ok : Bool)
  | polled (id : UUID) (a : Answer)
  | pruned (cutoff : Time)
  | panicked
  | ticked
  deriving DecidableEq

/-- `handleAdminJob`'s answer to what `get` returns. -/
def answer : Option (Entry String) → Answer
  | none => .unknown
  | some e => if e.status = .pending then .running e.done e.total else .redirect e.response

def Server.setPhase (s : Server) (k : Nat) (p : Phase) : Server :=
  { s with started := s.started.modify k fun job => { job with phase := p } }

/-- A step of job `k`, from its phase. -/
def stepJob (s : Server) (k : Nat) (job : Job) : JobAction → Option (Server × Event)
  | .enqueue id =>
      match job.phase with
      | .begun => some ({ s with jobs := enqueue s.jobs id s.now }.setPhase k (.enqueued id), .enqueued k id)
      | _ => none
  | .spawn =>
      match job.phase with
      | .enqueued id =>
          some ({ s with jobs := progress s.jobs id 0 job.total }.setPhase k (.working id), .reported k id 0)
      | _ => none
  | .report n =>
      match job.phase with
      | .working id => some ({ s with jobs := progress s.jobs id n job.total }, .reported k id n)
      | _ => none
  | .cancel =>
      if s.runner.stop = .closed then
        some ({ s with started := s.started.modify k fun job => { job with cancelled := true } }, .cancelled k)
      else none
  | .workReturns target =>
      match job.phase with
      | .working id => some (s.setPhase k (.returned id target), .returned k id target)
      | _ => none
  | .workPanics =>
      match job.phase with
      | .working id => some (s.setPhase k (.returned id job.failTarget), .returned k id job.failTarget)
      | _ => none
  | .mark =>
      match job.phase with
      | .returned id target =>
          some ({ s with jobs := markDone s.jobs id target s.now }.setPhase k (.marked id),
            .marked k id target s.now)
      | _ => none
  | .finish =>
      match job.phase with
      | .marked id =>
          -- a wait group below zero panics
          if s.runner.wg = 0 then some (s, .panicked)
          else some ({ s with runner := { s.runner with wg := s.runner.wg - 1 } }.setPhase k (.finished id),
            .finished k)
      | _ => none

def step (s : Server) : Action → Option (Server × Event)
  | .post total failTarget =>
      match s.runner.begin with
      | none => some (s, .refused)
      | some runner =>
          some ({ s with runner, started := s.started ++ [⟨total, failTarget, false, .begun⟩] },
            .begun s.started.length)
  | .job k a => s.started[k]?.bind fun job => stepJob s k job a
  | .drain deadline =>
      match s.runner.drain deadline with
      | none => some (s, .panicked)
      | some runner => some ({ s with runner, drains := s.drains ++ [deadline] }, .draining)
  | .drainReturns i =>
      if i < s.drains.length ∧ s.runner.wg = 0 then
        some ({ s with drains := s.drains.eraseIdx i }, .drained true)
      else none
  | .drainTimesOut i =>
      match s.drains[i]? with
      | some (some d) => if d ≤ s.now then some ({ s with drains := s.drains.eraseIdx i }, .drained false) else none
      | _ => none
  | .poll id => some ({ s with jobs := (get s.jobs id).2 }, .polled id (answer (get s.jobs id).1))
  | .prune => some ({ s with jobs := pruneBefore s.jobs (s.now - entryTTL) }, .pruned (s.now - entryTTL))
  | .tick d => some ({ s with now := s.now + d }, .ticked)

def system : Machine Server Action Event := ⟨step⟩

end ThesadaApp.AdminJobs
