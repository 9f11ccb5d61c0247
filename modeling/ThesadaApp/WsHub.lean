import ThesadaApp.MachineRun

/-!
The WebSocket hub: connections come, publishers queue frames under the read lock, and the two pumps of a connection
race to take it out. Whoever does closes its channel, after the lock.
-/

namespace ThesadaApp.WsHub

section model

/-- The bytes of an event. -/
abbrev Frame := List UInt8

def sendBuffer : Nat := 32

structure Conn where
  tenant : String
  /-- It is in the map of the hub. -/
  registered : Bool
  /-- The calls of `unregister` that have taken it out and are still to close its channel. -/
  closing : Nat
  closed : Bool
  /-- The channel. -/
  send : List Frame
  /-- The frames the write pump has taken off the channel. -/
  written : List Frame
  deriving DecidableEq

/-- A call of `Publish` that holds the read lock, and the connections it has still to visit. -/
structure Publisher where
  tenant : String
  frame : Frame
  pending : List Nat
  deriving DecidableEq

/-- The connections that were ever made, and the publishers inside the lock. -/
structure State where
  conns : List Conn
  publishers : List Publisher
  deriving DecidableEq

def State.start : State := ⟨[], []⟩

inductive Action where
  | connect (tenant : String)
  /-- A publisher takes the read lock. -/
  | publish (tenant : String) (frame : Frame)
  /-- The publisher visits a connection. -/
  | queue (n i : Nat)
  /-- It has visited all and frees the lock. -/
  | finish (n : Nat)
  /-- The locked section of `unregister`, from either pump. -/
  | unregister (i : Nat)
  | close (i : Nat)
  | write (i : Nat)

inductive Event where
  | published (tenant : String) (frame : Frame)
  | closed (i : Nat)
  /-- A send on a closed channel, or a second close of one. -/
  | panicked
  | quiet
  deriving DecidableEq

/-- The connections that the map has for a tenant. -/
def State.subscribers (s : State) (tenant : String) : List Nat :=
  (List.range s.conns.length).filter fun i => s.conns[i]?.any fun c => c.registered && c.tenant = tenant

def State.setConn (s : State) (i : Nat) (c : Conn) : State := { s with conns := s.conns.set i c }

/-- A connection that has been visited. -/
def State.visited (s : State) (n i : Nat) (p : Publisher) : State :=
  { s with publishers := s.publishers.set n { p with pending := p.pending.erase i } }

/-- A frame on the channel of a connection, if there is room. -/
def Conn.enqueue (c : Conn) (frame : Frame) : Conn :=
  if c.send.length < sendBuffer then { c with send := c.send ++ [frame] } else c

/-- A connection out of the map. -/
def Conn.unregister (c : Conn) : Conn := { c with registered := false, closing := c.closing + 1 }

def Conn.close (c : Conn) : Conn := { c with closing := c.closing - 1, closed := true }

def Conn.write (c : Conn) (frame : Frame) (rest : List Frame) : Conn :=
  { c with send := rest, written := c.written ++ [frame] }

/-- The lock is for writing when no publisher has it. -/
def stepState (s : State) : Action → Option (State × Event)
  | .connect tenant =>
      if s.publishers = [] then some ({ s with conns := s.conns ++ [⟨tenant, true, 0, false, [], []⟩] }, .quiet)
      else none
  | .publish tenant frame =>
      some ({ s with publishers := s.publishers ++ [⟨tenant, frame, s.subscribers tenant⟩] }, .published tenant frame)
  | .queue n i =>
      match s.publishers[n]?, s.conns[i]? with
      | some p, some c =>
          if i ∈ p.pending then
            if c.closed then some (s, .panicked)
            else some ((s.visited n i p).setConn i (c.enqueue p.frame), .quiet)
          else none
      | _, _ => none
  | .finish n =>
      match s.publishers[n]? with
      | some p => if p.pending = [] then some ({ s with publishers := s.publishers.eraseIdx n }, .quiet) else none
      | none => none
  | .unregister i =>
      match s.conns[i]? with
      | some c =>
          if s.publishers = [] then some (if c.registered then s.setConn i c.unregister else s, .quiet) else none
      | none => none
  | .close i =>
      match s.conns[i]? with
      | some c =>
          if 0 < c.closing then some (if c.closed then (s, .panicked) else (s.setConn i c.close, .closed i)) else none
      | none => none
  | .write i =>
      match s.conns[i]? with
      | some c =>
          match c.send with
          | frame :: rest => some (s.setConn i (c.write frame rest), .quiet)
          | [] => none
      | none => none

def system : Machine State Action Event where
  step := stepState

end model

/-- The frames published for a tenant, in order. -/
def published (tenant : String) (log : List Event) : List Frame :=
  log.filterMap fun e => match e with
    | .published t frame => if t = tenant then some frame else none
    | _ => none

/-- The frames queued on a connection, in order. -/
def Conn.queued (c : Conn) : List Frame := c.written ++ c.send

/-- No panic, no second close, and every connection has frames of its own tenant only. -/
structure Safe (log : List Event) (s : State) : Prop where
  calm : .panicked ∉ log
  once : ∀ i, log.count (.closed i) ≤ 1
  own : ∀ c ∈ s.conns, ∀ frame ∈ c.queued, frame ∈ published c.tenant log

/-- A publisher starts when no other is inside the lock. -/
def Sequential (s : State) : Action → Prop
  | .publish .. => s.publishers = []
  | _ => True

instance (s : State) : DecidablePred (Sequential s)
  | .publish .. => inferInstanceAs (Decidable (s.publishers = []))
  | .connect _ | .queue .. | .finish _ | .unregister _ | .close _ | .write _ => isTrue trivial

/-- Every connection has the frames of its tenant in the order they were published. -/
def InOrder (log : List Event) (s : State) : Prop := ∀ c ∈ s.conns, c.queued.Sublist (published c.tenant log)

end ThesadaApp.WsHub
