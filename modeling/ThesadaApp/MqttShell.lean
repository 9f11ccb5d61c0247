import ThesadaApp.EnrollApi
import ThesadaApp.EnrollSystem
import ThesadaApp.MachineRun
import ThesadaApp.TapFilter

/-!
The MQTT shell of the admin pages. The reader of a socket takes the frames of the browser one after the other, its
writer takes what is queued for the browser. The messages of the broker come on goroutines of their own and reach the
queue through the tap that the socket has with the shared client.
-/

namespace ThesadaApp.MqttShell

section model

abbrev Bytes := List UInt8

/-- The frames that wait for the writer. -/
def adminMqttMaxBuffer : Nat := 256

/-- The topics and patterns that an audit row lists. -/
def adminMqttAuditCap : Nat := 50

def adminMqttPublishWindow : Time := seconds 10

def adminMqttPublishMax : Nat := 20

structure Config where
  /-- `MQTTTopicRoot`. -/
  root : String
  /-- `%q` of the standard library. -/
  quote : String → String

def Config.allowedPrefix (cfg : Config) : String := cfg.root ++ "/"

/-- A message of the broker. -/
structure Message where
  topic : String
  payload : Bytes
  retained : Bool
  qos : Nat
  deriving DecidableEq

/-- `adminMqttInboundMsg`. -/
structure InboundMsg where
  type : String
  pattern : String
  topic : String
  payload : Bytes
  qos : Int
  retain : Bool

/-- `adminMqttOutboundMsg`. -/
structure OutboundMsg where
  type : String
  topic : String := ""
  payload : Bytes := []
  retained : Bool := false
  qos : Nat := 0
  timestamp : Int := 0
  error : String := ""
  info : String := ""
  dropped : Nat := 0
  deriving DecidableEq

/-- What the sink of a tap makes of a message. -/
def messageMsg (m : Message) (now : Time) : OutboundMsg :=
  { type := "message", topic := m.topic, payload := m.payload, retained := m.retained, qos := m.qos,
    timestamp := now / 1000 }

def errorMsg (text : String) : OutboundMsg := { type := "error", error := text }

def infoMsg (text : String) : OutboundMsg := { type := "info", info := text }

/-- `mqttTap`: its sink is that of a socket. -/
structure Tap where
  id : Nat
  pattern : String
  socket : Nat
  deriving DecidableEq

/-- A matcher is compiled from a pattern. -/
def matcher (pattern topic : String) : Bool :=
  match compileMQTTMatcher pattern with
  | .ok match_ => match_ topic
  | .error _ => false

/-- A call of `fanoutTaps`: the taps it has still to visit, and whether it has the read lock. -/
structure Fanout where
  msg : Message
  pending : List Tap
  holding : Bool
  deriving DecidableEq

/-- Where the reader of a socket is. -/
inductive Reader where
  /-- In `ReadJSON`. -/
  | reading
  /-- In `registerTap`, before the old tap is taken out. -/
  | subscribing (pattern : String)
  /-- At the call of `RegisterTap`. -/
  | registering (pattern : String)
  /-- In `PublishRaw`. -/
  | publishing (topic : String) (payload : Bytes) (qos : Nat) (retain : Bool)
  | replying (m : OutboundMsg)
  /-- In the deferred calls, before the tap is taken out. -/
  | closing
  /-- In the deferred calls, before the audit row is written. -/
  | auditing
  | ended
  deriving DecidableEq

inductive Writer where
  | waiting
  /-- It has taken a message and has not read the counter of the dropped ones. -/
  | taken (m : OutboundMsg)
  | writing (m : OutboundMsg)
  | ended
  deriving DecidableEq

structure Published where
  topic : String
  bytes : Nat
  retain : Bool
  deriving DecidableEq

/-- What the reader keeps for the audit row. -/
structure Tally where
  publishes : Nat
  published : List Published
  subscribes : Nat
  subscribed : List String
  deriving DecidableEq

def Tally.publish (t : Tally) (p : Published) : Tally :=
  { t with
    publishes := t.publishes + 1
    published := if t.published.length < adminMqttAuditCap then t.published ++ [p] else t.published }

def Tally.subscribe (t : Tally) (pattern : String) : Tally :=
  { t with
    subscribes := t.subscribes + 1
    subscribed := if t.subscribed.length < adminMqttAuditCap then t.subscribed ++ [pattern] else t.subscribed }

/-- The row of the audit table. -/
structure AuditEntry where
  user : String
  action : String
  publishes : Nat
  published : List Published
  truncated : Bool
  subscribes : Nat
  subscribed : List String
  subscribedTruncated : Bool
  deriving DecidableEq

def Tally.audit (t : Tally) (user : String) : Option AuditEntry :=
  if t.publishes = 0 ∧ t.subscribes = 0 then none
  else some {
    user
    action := if t.publishes = 0 then "mqtt.shell_subscribe" else "mqtt.shell_publish"
    publishes := t.publishes
    published := t.published
    truncated := t.published.length < t.publishes
    subscribes := t.subscribes
    subscribed := t.subscribed
    subscribedTruncated := t.subscribed.length < t.subscribes }

structure Socket where
  user : String
  remoteAddr : String
  limiter : Limiter
  /-- The id of the tap that `tapCancel` takes out. -/
  tap : Option Nat
  /-- The channel to the writer. -/
  out : List OutboundMsg
  dropped : Nat
  /-- The context is done. -/
  cancelled : Bool
  reader : Reader
  writer : Writer
  tally : Tally

/-- A socket after the upgrade. -/
def newSocket (user remoteAddr : String) : Socket where
  user := user
  remoteAddr := remoteAddr
  limiter := ⟨adminMqttPublishWindow, adminMqttPublishMax, fun _ => []⟩
  tap := none
  out := []
  dropped := 0
  cancelled := false
  reader := .reading
  writer := .waiting
  tally := ⟨0, [], 0, []⟩

structure State where
  clock : Time
  /-- `tapSeq` and `taps` of the client, and every call of `fanoutTaps` there was. -/
  seq : Nat
  taps : List Tap
  fanouts : List Fanout
  sockets : List Socket

def boot (clock : Time) : State := ⟨clock, 0, [], [], []⟩

/-- No fanout has the lock. -/
def State.unlocked (s : State) : Bool := s.fanouts.all fun f => !f.holding

inductive Event where
  | connected (k : Nat)
  /-- A message of the broker takes the read lock. -/
  | arrived (no : Nat) (m : Message)
  /-- The sink of a socket gets it, and has room for it or not. -/
  | offered (k no : Nat) (pattern : String) (m : Message) (now : Time) (room : Bool)
  | finished (no : Nat)
  | framed (k : Nat)
  /-- The limiter lets a publish through. -/
  | passed (k : Nat) (topic : String) (qos : Nat) (now : Time)
  | published (k : Nat) (p : Published)
  | publishFailed (k : Nat) (topic : String)
  | untapped (k : Nat)
  | subscribed (k : Nat) (pattern : String)
  | refused (k : Nat) (pattern : String)
  | replied (k : Nat) (m : OutboundMsg)
  | abandoned (k : Nat) (m : OutboundMsg)
  | audited (k : Nat) (row : AuditEntry)
  /-- The reader or the writer goes on without an effect outside the socket. -/
  | moved (k : Nat)
  | sent (k : Nat) (m : OutboundMsg)
  | lost (k : Nat) (m : OutboundMsg)
  | quiet
  deriving DecidableEq

/-- The socket that an event is about. -/
def Event.socket : Event → Option Nat
  | .connected k | .offered k .. | .framed k | .passed k .. | .published k _ | .publishFailed k _ | .untapped k
  | .subscribed k _ | .refused k _ | .replied k _ | .abandoned k _ | .audited k _ | .moved k | .sent k _
  | .lost k _ => some k
  | .arrived .. | .finished _ | .quiet => none

/-- The sink of a tap: it never waits. -/
def Socket.offer (x : Socket) (m : OutboundMsg) : Socket :=
  if x.out.length < adminMqttMaxBuffer then { x with out := x.out ++ [m] } else { x with dropped := x.dropped + 1 }

/-- What the reader does with a frame of the browser, to where it waits for the first time. -/
def receive (cfg : Config) (now : Time) (k : Nat) (x : Socket) (f : InboundMsg) : Socket × Event :=
  if f.type = "subscribe" then
    let pattern := Enroll.trimSpace f.pattern
    ({ x with reader := .subscribing (if pattern = "" then cfg.root ++ "/#" else pattern) }, .framed k)
  else if f.type = "publish" then
    let topic := Enroll.trimSpace f.topic
    if topic = "" ∨ cfg.allowedPrefix.toList.isPrefixOf topic.toList = false then
      ({ x with reader := .replying (errorMsg ("topic must start with " ++ cfg.allowedPrefix)) }, .framed k)
    else
      let (limiter, allowed) := x.limiter.allow now x.remoteAddr
      if allowed = false then
        ({ x with limiter, reader := .replying (errorMsg "publish rate limit (20 / 10s) exceeded") }, .framed k)
      else
        let qos := if 0 ≤ f.qos ∧ f.qos ≤ 2 then f.qos.toNat else 0
        ({ x with limiter, reader := .publishing topic f.payload qos f.retain }, .passed k topic qos now)
  else ({ x with reader := .replying (errorMsg ("unknown type: " ++ f.type)) }, .framed k)

/-- The error of `PublishRaw`: the connection and what paho says when there is one. -/
def publishRaw (connected : Bool) (paho : Option String) : Option String :=
  if connected then paho else some "mqtt client not connected"

/-- `PublishRaw` returns to the reader. -/
def Socket.publishReturns (x : Socket) (k : Nat) (topic : String) (payload : Bytes) (retain : Bool) :
    Option String → Socket × Event
  | some err => ({ x with reader := .replying (errorMsg ("publish failed: " ++ err)) }, .publishFailed k topic)
  | none =>
      let p : Published := ⟨topic, payload.length, retain⟩
      ({ x with tally := x.tally.publish p, reader := .replying (infoMsg ("published " ++ topic)) }, .published k p)

/-- The writer has its message, with the counter of the dropped ones. -/
def Socket.load (x : Socket) (m : OutboundMsg) : Socket :=
  if 0 < x.dropped then { x with writer := .writing { m with dropped := x.dropped }, dropped := 0 }
  else { x with writer := .writing m }

/-- The writer returns: its deferred calls end the context and close the connection. -/
def Socket.hangUp (x : Socket) : Socket := { x with writer := .ended, cancelled := true }

inductive ReaderStep where
  | frame (f : InboundMsg)
  /-- `ReadJSON` fails. -/
  | fail
  /-- The old tap is taken out, by `registerTap` or by the deferred call. -/
  | untap
  | register
  | publish (connected : Bool) (paho : Option String)
  | reply
  | giveUp
  | audit

inductive WriterStep where
  | take
  | load
  | write (ok : Bool)
  /-- The context is done, a ping failed, or the time of the socket is up. -/
  | done
  | pingFailed
  | lifetime

inductive Action where
  | connect (user remoteAddr : String)
  | arrive (m : Message)
  | visit (n i : Nat)
  | finish (n : Nat)
  | reader (k : Nat) (a : ReaderStep)
  | writer (k : Nat) (a : WriterStep)
  /-- The context of the request is done. -/
  | cancel (k : Nat)
  | tick (d : Nat)

def State.put (s : State) (k : Nat) (x : Socket) : State := { s with sockets := s.sockets.set k x }

/-- A tap out of the table, if there is one. -/
def State.dropTap (s : State) (id : Option Nat) : State := { s with taps := s.taps.filter fun t => some t.id ≠ id }

/-- A new tap in the table, for a socket. -/
def State.addTap (s : State) (k : Nat) (pattern : String) : State :=
  { s with seq := s.seq + 1, taps := s.taps ++ [⟨s.seq + 1, pattern, k⟩] }

/-- `tapCancel`, where there is one, under the lock for writing. -/
def State.untap (s : State) (x : Socket) : Option (State × Socket) :=
  match x.tap with
  | none => some (s, x)
  | some id =>
      if s.unlocked then some (s.dropTap (some id), { x with tap := none })
      else none

def stepReader (cfg : Config) (s : State) (k : Nat) (x : Socket) : ReaderStep → Option (State × Event)
  | .frame f =>
      if x.reader = .reading then
        let (x', e) := receive cfg s.clock k x f
        some (s.put k x', e)
      else none
  | .fail =>
      if x.reader = .reading then some (s.put k { x with reader := .closing, cancelled := true }, .moved k) else none
  | .untap =>
      match x.reader with
      | .subscribing pattern =>
          (s.untap x).map fun (s', x') => (s'.put k { x' with reader := .registering pattern }, .untapped k)
      | .closing => (s.untap x).map fun (s', x') => (s'.put k { x' with reader := .auditing }, .untapped k)
      | _ => none
  | .register =>
      match x.reader with
      | .registering pattern =>
          match compileMQTTMatcher pattern with
          | .error err =>
              some (s.put k { x with reader := .replying (errorMsg ("bad pattern: " ++ err.text cfg.quote)) },
                .refused k pattern)
          | .ok _ =>
              if s.unlocked then
                some ((s.addTap k pattern).put k
                  { x with
                    tap := some (s.seq + 1)
                    tally := x.tally.subscribe pattern
                    reader := .replying (infoMsg ("subscribed: " ++ pattern)) }, .subscribed k pattern)
              else none
      | _ => none
  | .publish connected paho =>
      match x.reader with
      | .publishing topic payload _ retain =>
          let (x', e) := x.publishReturns k topic payload retain (publishRaw connected paho)
          some (s.put k x', e)
      | _ => none
  | .reply =>
      match x.reader with
      | .replying m =>
          if x.out.length < adminMqttMaxBuffer then
            some (s.put k { x with out := x.out ++ [m], reader := .reading }, .replied k m)
          else none
      | _ => none
  | .giveUp =>
      match x.reader with
      | .replying m => if x.cancelled then some (s.put k { x with reader := .reading }, .abandoned k m) else none
      | _ => none
  | .audit =>
      if x.reader = .auditing then
        some (s.put k { x with reader := .ended }, ((x.tally.audit x.user).map (Event.audited k)).getD (.moved k))
      else none

def stepWriter (s : State) (k : Nat) (x : Socket) : WriterStep → Option (State × Event)
  | .take =>
      match x.writer, x.out with
      | .waiting, m :: rest => some (s.put k { x with out := rest, writer := .taken m }, .moved k)
      | _, _ => none
  | .load =>
      match x.writer with
      | .taken m => some (s.put k (x.load m), .moved k)
      | _ => none
  | .write ok =>
      match x.writer with
      | .writing m => some (if ok then (s.put k { x with writer := .waiting }, .sent k m) else (s.put k x.hangUp, .lost k m))
      | _ => none
  | .done => if x.writer = .waiting ∧ x.cancelled then some (s.put k x.hangUp, .moved k) else none
  | .pingFailed | .lifetime => if x.writer = .waiting then some (s.put k x.hangUp, .moved k) else none

def stepState (cfg : Config) (s : State) : Action → Option (State × Event)
  | .connect user remoteAddr =>
      some ({ s with sockets := s.sockets ++ [newSocket user remoteAddr] }, .connected s.sockets.length)
  | .arrive m =>
      some ({ s with fanouts := s.fanouts ++ [⟨m, s.taps, true⟩] }, .arrived s.fanouts.length m)
  | .visit n i =>
      match s.fanouts[n]? with
      | none => none
      | some f =>
          match f.pending[i]? with
          | none => none
          | some t =>
              let s' := { s with fanouts := s.fanouts.set n { f with pending := f.pending.eraseIdx i } }
              if matcher t.pattern f.msg.topic = false then some (s', .quiet)
              else match s.sockets[t.socket]? with
                | none => none
                | some x =>
                    some (s'.put t.socket (x.offer (messageMsg f.msg s.clock)),
                      .offered t.socket n t.pattern f.msg s.clock (x.out.length < adminMqttMaxBuffer))
  | .finish n =>
      match s.fanouts[n]? with
      | some f =>
          if f.pending = [] ∧ f.holding then
            some ({ s with fanouts := s.fanouts.set n { f with holding := false } }, .finished n)
          else none
      | none => none
  | .reader k a => s.sockets[k]?.bind fun x => stepReader cfg s k x a
  | .writer k a => s.sockets[k]?.bind fun x => stepWriter s k x a
  | .cancel k => s.sockets[k]?.map fun x => (s.put k { x with cancelled := true }, .moved k)
  | .tick d => some ({ s with clock := s.clock + d }, .quiet)

def system (cfg : Config) : Machine State Action Event where
  step := stepState cfg

end model

end ThesadaApp.MqttShell
