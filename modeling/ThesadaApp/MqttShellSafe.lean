import Mathlib.Algebra.GroupWithZero.Nat
import ThesadaApp.MailCapped
import ThesadaApp.MqttShellSteps

/-!
What a socket of the shell guarantees by itself: what its browser gets and misses, what its reader publishes, and what
its audit row says.
-/

namespace ThesadaApp.MqttShell

open SlidingWindow

variable {cfg : Config} {s s' : State} {log l pre post : List Event} {k : Nat} {x x' : Socket} {e : Event}
  {now clock : Time}

section delivery

/-- A message without the counter of the dropped ones. -/
def OutboundMsg.plain (m : OutboundMsg) : OutboundMsg := { m with dropped := 0 }

/-- What has gone into the queue. -/
def Event.entered : Event → Option OutboundMsg
  | .offered _ _ _ m now true => some (messageMsg m now)
  | .replied _ m => some m
  | _ => none

/-- What the browser has got. -/
def Event.got : Event → Option OutboundMsg
  | .sent _ m => some m
  | _ => none

/-- What was lost in a write that failed. -/
def Event.gone : Event → Option OutboundMsg
  | .lost _ m => some m
  | _ => none

/-- A message for which the queue had no room. -/
def Event.isDrop : Event → Bool
  | .offered _ _ _ _ _ room => !room
  | _ => false

def Writer.held : Writer → List OutboundMsg
  | .taken m | .writing m => [m]
  | .waiting | .ended => []

/-- The sum of what the messages say was dropped. -/
def reported (ms : List OutboundMsg) : Nat := (ms.map OutboundMsg.dropped).sum

def entered (l : List Event) : List OutboundMsg := l.filterMap Event.entered

def got (l : List Event) : List OutboundMsg := l.filterMap Event.got

def gone (l : List Event) : List OutboundMsg := l.filterMap Event.gone

def drops (l : List Event) : Nat := l.countP Event.isDrop

theorem filterMap_snoc {α : Type} (f : Event → Option α) (l : List Event) (e : Event) :
    (l ++ [e]).filterMap f = l.filterMap f ++ (f e).toList := by
  rw [List.filterMap_append]
  cases h : f e <;> simp [h]

@[simp] theorem entered_snoc (l : List Event) (e : Event) : entered (l ++ [e]) = entered l ++ e.entered.toList :=
  filterMap_snoc _ _ _

@[simp] theorem got_snoc (l : List Event) (e : Event) : got (l ++ [e]) = got l ++ e.got.toList := filterMap_snoc _ _ _

@[simp] theorem gone_snoc (l : List Event) (e : Event) : gone (l ++ [e]) = gone l ++ e.gone.toList :=
  filterMap_snoc _ _ _

@[simp] theorem drops_snoc (l : List Event) (e : Event) :
    drops (l ++ [e]) = drops l + if e.isDrop then 1 else 0 := by
  rw [drops, List.countP_append, List.countP_singleton]
  rfl

/-- Where the messages are that went into the queue of a socket. -/
structure Queued (l : List Event) (x : Socket) : Prop where
  order : (entered l).map OutboundMsg.plain = (got l ++ gone l ++ x.writer.held ++ x.out).map OutboundMsg.plain
  counted : drops l = reported (got l ++ gone l ++ x.writer.held) + x.dropped
  /-- At most one write fails, the last. -/
  last : gone l = [] ∨ x.writer = .ended ∧ (gone l).length = 1
  size : x.out.length ≤ adminMqttMaxBuffer

/-- The messages that no counter has been put on. -/
structure Uncounted (x : Socket) : Prop where
  out : ∀ m ∈ x.out, m.dropped = 0
  taken : ∀ m, x.writer = .taken m → m.dropped = 0
  replying : ∀ m, x.reader = .replying m → m.dropped = 0

/-- The reader gets on, with the queue and the writer as they were. -/
theorem Uncounted.of_reader (h : Uncounted x) (hout : x'.out = x.out) (hw : x'.writer = x.writer)
    (hr : ∀ m, x'.reader = .replying m → m.dropped = 0) : Uncounted x' :=
  ⟨fun m hm => h.out m (hout ▸ hm), fun m hm => h.taken m (hw ▸ hm), hr⟩

theorem Uncounted.step (h : Uncounted x) (hstep : SocketStep cfg now k x x' e) : Uncounted x' := by
  cases hstep with
  | offered no pattern m =>
      unfold Socket.offer
      split
      · refine ⟨fun m' hm' => ?_, h.taken, h.replying⟩
        obtain hold | hnew := List.mem_append.mp hm'
        · exact h.out m' hold
        · rw [List.mem_singleton.mp hnew]
          rfl
      · exact ⟨h.out, h.taken, h.replying⟩
  | framed f hr =>
      obtain ⟨_, hrec⟩ | ⟨_, hrec⟩ | ⟨_, _, -, hrec⟩ | ⟨_, _, _, -, -, -, hrec⟩ := receive_cases cfg now k x f <;>
        rw [hrec] <;> refine h.of_reader rfl rfl fun m hm => ?_ <;> cases hm <;> rfl
  | failed | retapping | closed | audited => exact h.of_reader rfl rfl fun m hm => by cases hm
  | refused | subscribed =>
      refine h.of_reader rfl rfl fun m hm => ?_
      cases hm
      rfl
  | published res hr =>
      cases res <;> refine h.of_reader rfl rfl fun m hm => ?_ <;> cases hm <;> rfl
  | @replied m hr hroom =>
      refine ⟨fun m' hm' => ?_, h.taken, fun m' hm' => by cases hm'⟩
      obtain hold | hnew := List.mem_append.mp hm'
      · exact h.out m' hold
      · exact List.mem_singleton.mp hnew ▸ h.replying m hr
  | abandoned => exact h.of_reader rfl rfl fun m hm => by cases hm
  | @took m rest hw hout =>
      refine ⟨fun m' hm' => h.out m' (hout ▸ List.mem_cons_of_mem _ hm'), fun m' hm' => ?_, h.replying⟩
      cases hm'
      exact h.out m (hout ▸ List.mem_cons_self)
  | loaded hw =>
      unfold Socket.load
      split <;> refine ⟨h.out, fun m hm => ?_, h.replying⟩ <;> cases hm
  | sent | lost | hungUp =>
      refine ⟨h.out, fun m hm => ?_, h.replying⟩
      cases hm
  | cancelled => exact ⟨h.out, h.taken, h.replying⟩

/-- A step after which the queue, the writer and the counter are as they were. -/
theorem Queued.quiet (h : Queued l x) (hout : x'.out = x.out) (hw : x'.writer = x.writer)
    (hd : x'.dropped = x.dropped) (he : e.entered = none ∧ e.got = none ∧ e.gone = none ∧ e.isDrop = false) :
    Queued (l ++ [e]) x' := by
  obtain ⟨hentered, hgot, hgone, hdrop⟩ := he
  constructor
  · simpa [hentered, hgot, hgone, hout, hw] using h.order
  · simpa [hgot, hgone, hdrop, hw, hd] using h.counted
  · simpa [hgone, hw] using h.last
  · rw [hout]
    exact h.size

/-- A message goes into the queue. -/
theorem Queued.enter (h : Queued l x) {m : OutboundMsg} (hroom : x.out.length < adminMqttMaxBuffer)
    (hout : x'.out = x.out ++ [m]) (hw : x'.writer = x.writer) (hd : x'.dropped = x.dropped)
    (he : e.entered = some m ∧ e.got = none ∧ e.gone = none ∧ e.isDrop = false) : Queued (l ++ [e]) x' := by
  obtain ⟨hentered, hgot, hgone, hdrop⟩ := he
  constructor
  · calc (entered (l ++ [e])).map OutboundMsg.plain
        = (entered l).map OutboundMsg.plain ++ [m.plain] := by simp [hentered]
      _ = (got l ++ gone l ++ x.writer.held ++ x.out).map OutboundMsg.plain ++ [m.plain] := by rw [h.order]
      _ = (got (l ++ [e]) ++ gone (l ++ [e]) ++ x'.writer.held ++ x'.out).map OutboundMsg.plain := by
          simp [hgot, hgone, hout, hw]
  · simpa [hgot, hgone, hdrop, hw, hd] using h.counted
  · simpa [hgone, hw] using h.last
  · rw [hout, List.length_append]
    exact hroom

theorem Queued.offer (h : Queued l x) (no : Nat) (pattern : String) (m : Message) :
    Queued (l ++ [.offered k no pattern m now (x.out.length < adminMqttMaxBuffer)])
      (x.offer (messageMsg m now)) := by
  unfold Socket.offer
  by_cases hroom : x.out.length < adminMqttMaxBuffer
  · rw [if_pos hroom, decide_eq_true hroom]
    exact h.enter hroom rfl rfl rfl ⟨rfl, rfl, rfl, rfl⟩
  · rw [if_neg hroom, decide_eq_false hroom]
    constructor
    · simpa [Event.entered, Event.got, Event.gone] using h.order
    · rw [drops_snoc, h.counted]
      simp [Event.isDrop, Event.got, Event.gone, Nat.add_assoc]
    · simpa [Event.gone] using h.last
    · exact h.size

/-- While the writer is there nothing is lost. -/
theorem Queued.gone_eq_nil (h : Queued l x) (hw : x.writer ≠ .ended) : gone l = [] := by
  obtain hnone | ⟨hended, -⟩ := h.last
  · exact hnone
  · exact absurd hended hw

/-- The writer takes a message along, to the browser or to where it is lost. -/
theorem Queued.step (h : Queued l x) (hu : Uncounted x) (hstep : SocketStep cfg now k x x' e) :
    Queued (l ++ [e]) x' := by
  cases hstep with
  | offered no pattern m => exact h.offer no pattern m
  | framed f hr =>
      obtain ⟨_, hrec⟩ | ⟨_, hrec⟩ | ⟨_, _, -, hrec⟩ | ⟨_, _, _, -, -, -, hrec⟩ := receive_cases cfg now k x f <;>
        rw [hrec] <;> exact h.quiet rfl rfl rfl ⟨rfl, rfl, rfl, rfl⟩
  | failed | retapping | closed | refused | subscribed | abandoned | cancelled =>
      exact h.quiet rfl rfl rfl ⟨rfl, rfl, rfl, rfl⟩
  | published res hr => cases res <;> exact h.quiet rfl rfl rfl ⟨rfl, rfl, rfl, rfl⟩
  | audited hr => cases x.tally.audit x.user <;> exact h.quiet rfl rfl rfl ⟨rfl, rfl, rfl, rfl⟩
  | replied hr hroom => exact h.enter hroom rfl rfl rfl ⟨rfl, rfl, rfl, rfl⟩
  | @took m rest hw hout =>
      have hgone : gone l = [] := h.gone_eq_nil (by simp [hw])
      have hm : m.dropped = 0 := hu.out m (hout ▸ List.mem_cons_self)
      constructor
      · simpa [Event.entered, Event.got, Event.gone, hgone, hw, hout, Writer.held] using h.order
      · simpa [Event.isDrop, Event.got, Event.gone, hgone, hw, hm, Writer.held, reported] using h.counted
      · simp [Event.gone, hgone]
      · have hsize := h.size
        rw [hout] at hsize
        exact Nat.le_of_succ_le hsize
  | @loaded m hw =>
      have hgone : gone l = [] := h.gone_eq_nil (by simp [hw])
      have hm : m.dropped = 0 := hu.taken m hw
      unfold Socket.load
      split
      · constructor
        · simpa [Event.entered, Event.got, Event.gone, hgone, hw, Writer.held, OutboundMsg.plain] using h.order
        · simpa [Event.isDrop, Event.got, Event.gone, hgone, hw, hm, Writer.held, reported] using h.counted
        · simp [Event.gone, hgone]
        · exact h.size
      · constructor
        · simpa [Event.entered, Event.got, Event.gone, hgone, hw, Writer.held] using h.order
        · simpa [Event.isDrop, Event.got, Event.gone, hgone, hw, hm, Writer.held, reported] using h.counted
        · simp [Event.gone, hgone]
        · exact h.size
  | @sent m hw =>
      have hgone : gone l = [] := h.gone_eq_nil (by simp [hw])
      constructor
      · simpa [Event.entered, Event.got, Event.gone, hgone, hw, Writer.held] using h.order
      · simpa [Event.isDrop, Event.got, Event.gone, hgone, hw, Writer.held, reported] using h.counted
      · simp [Event.gone, hgone]
      · exact h.size
  | @lost m hw =>
      have hgone : gone l = [] := h.gone_eq_nil (by simp [hw])
      constructor
      · simpa [Event.entered, Event.got, Event.gone, hgone, hw, Writer.held, Socket.hangUp] using h.order
      · simpa [Event.isDrop, Event.got, Event.gone, hgone, hw, Writer.held, Socket.hangUp, reported] using h.counted
      · simp [Event.gone, Socket.hangUp, hgone]
      · exact h.size
  | hungUp hw =>
      have hgone : gone l = [] := h.gone_eq_nil (by simp [hw])
      constructor
      · simpa [Event.entered, Event.got, Event.gone, hgone, hw, Writer.held, Socket.hangUp] using h.order
      · simpa [Event.isDrop, Event.got, Event.gone, hgone, hw, Writer.held, Socket.hangUp] using h.counted
      · simp [Event.gone, hgone]
      · exact h.size

theorem SocketStep.of_offered {no : Nat} {p : String} {m : Message} {t : Time} {room : Bool}
    (h : SocketStep cfg now k x x' (.offered k no p m t room)) : room = decide (x.out.length < adminMqttMaxBuffer) := by
  generalize he : Event.offered k no p m t room = e at h
  cases h with
  | offered no pattern m =>
      cases he
      rfl
  | framed f hr =>
      obtain ⟨_, hrec⟩ | ⟨_, hrec⟩ | ⟨_, _, -, hrec⟩ | ⟨_, _, _, -, -, -, hrec⟩ := receive_cases cfg now k x f <;>
        rw [hrec] at he <;> cases he
  | published res hr => cases res <;> cases he
  | audited hr =>
      cases hrow : x.tally.audit x.user <;> rw [hrow] at he <;> cases he
  | failed | retapping | closed | refused | subscribed | replied | abandoned | took | loaded | sent | lost | hungUp
  | cancelled => cases he

theorem queued_run (hrun : (system cfg).Run (boot clock) log s) (hk : s.sockets[k]? = some x) :
    Queued (own log k) x := by
  have hboth : Uncounted x ∧ Queued (own log k) x := by
    refine socket_run (I := fun l _ x => Uncounted x ∧ Queued l x) ?_ (fun _ _ _ _ _ h => h) ?_ hrun hk
    · intro k now user remoteAddr
      exact ⟨⟨fun _ h => absurd h List.not_mem_nil, nofun, nofun⟩, ⟨rfl, rfl, .inl rfl, Nat.zero_le _⟩⟩
    · rintro l k x now x' e ⟨hu, hd⟩ hstep
      exact ⟨hu.step hstep, hd.step hu hstep⟩
  exact hboth.2

/-- Once the writer has ended the browser gets nothing more. -/
theorem SocketStep.of_ended (h : SocketStep cfg now k x x' e) (hended : x.writer = .ended) :
    x'.writer = .ended ∧ e.got = none := by
  cases h with
  | offered no pattern m =>
      unfold Socket.offer
      split <;> exact ⟨hended, rfl⟩
  | framed f hr =>
      obtain ⟨_, hrec⟩ | ⟨_, hrec⟩ | ⟨_, _, -, hrec⟩ | ⟨_, _, _, -, -, -, hrec⟩ := receive_cases cfg now k x f <;>
        rw [hrec] <;> exact ⟨hended, rfl⟩
  | published res hr => cases res <;> exact ⟨hended, rfl⟩
  | audited hr => cases x.tally.audit x.user <;> exact ⟨hended, rfl⟩
  | failed | retapping | closed | refused | subscribed | replied | abandoned | cancelled => exact ⟨hended, rfl⟩
  | took hw | loaded hw | sent hw | lost hw | hungUp hw =>
      rw [hended] at hw
      cases hw

theorem ended_run (hrun : (system cfg).Run s post s') (hk : s.sockets[k]? = some x) (hended : x.writer = .ended) :
    ∃ x', s'.sockets[k]? = some x' ∧ x'.writer = .ended ∧ got (own post k) = [] := by
  refine hrun.invariant (fun post s' => ∃ x', s'.sockets[k]? = some x' ∧ x'.writer = .ended ∧ got (own post k) = [])
    ⟨x, hk, hended, rfl⟩ ?_
  rintro post s₁ a s₂ e ⟨x₁, hk₁, hended₁, hgot⟩ - hstep
  have hdoes := step_does hstep
  have hlt : k < s₂.sockets.length := (List.getElem?_eq_some_iff.mp hk₁).1.trans_le hdoes.grows.2.1
  refine ⟨_, List.getElem?_eq_getElem hlt, ?_⟩
  obtain ⟨user, remoteAddr, -, rfl, -⟩ | ⟨x₀, hx₀, hmove⟩ := hdoes.socket_cases (List.getElem?_eq_getElem hlt)
  · exact absurd (List.getElem?_eq_some_iff.mp hk₁).1 (Nat.lt_irrefl _)
  · obtain rfl := Option.some.inj (hk₁.symm.trans hx₀)
    obtain hsocket | ⟨heq, hother⟩ := hmove
    · obtain ⟨hended₂, hnone⟩ := hsocket.of_ended hended₁
      rw [own_snoc_self hsocket.socket, got_snoc, hgot, hnone]
      exact ⟨hended₂, rfl⟩
    · rw [own_snoc_other hother, heq]
      exact ⟨hended₁, hgot⟩

/-- The messages that are lost when the writer ends: that of the write that failed, and those that wait. -/
def Socket.missed (l : List Event) (x : Socket) : List OutboundMsg := if x.writer = .ended then gone l ++ x.out else []

/-- The messages that are still on their way. -/
def Socket.underway (x : Socket) : List OutboundMsg := if x.writer = .ended then [] else x.writer.held ++ x.out

/-- What has become of the messages that were offered to a socket. -/
structure Delivered (l : List Event) (x : Socket) : Prop where
  /-- What went into the queue comes out in the same order, and nothing else does. -/
  order : (entered l).map OutboundMsg.plain = (got l ++ x.missed l ++ x.underway).map OutboundMsg.plain
  /-- Every message without room is counted, once. -/
  counted : drops l = reported (got l ++ gone l ++ x.writer.held) + x.dropped
  /-- With the writer go one message and what waits. -/
  missed : (x.missed l).length ≤ 1 + adminMqttMaxBuffer
  size : x.out.length ≤ adminMqttMaxBuffer

theorem Queued.delivered (h : Queued l x) : Delivered l x := by
  refine ⟨?_, h.counted, ?_, h.size⟩
  · rw [h.order, Socket.missed, Socket.underway]
    by_cases hended : x.writer = .ended
    · rw [if_pos hended, if_pos hended, hended, Writer.held, List.append_nil, List.append_nil, List.append_assoc]
    · rw [if_neg hended, if_neg hended, h.gone_eq_nil hended, List.append_assoc]
  · unfold Socket.missed
    split
    · rw [List.length_append]
      refine Nat.add_le_add ?_ h.size
      obtain hnone | ⟨-, hone⟩ := h.last
      · exact hnone ▸ Nat.zero_le 1
      · exact hone.le
    · exact Nat.zero_le _

/-- What a socket is offered reaches the browser in order, is told to it as dropped, is still on its way, or is lost with
the writer, after which nothing reaches the browser; and it is dropped only while the queue is full. -/
theorem session_delivered (hrun : (system cfg).Run (boot clock) log s) (hk : s.sockets[k]? = some x) :
    Delivered (own log k) x ∧
      (∀ post s', (system cfg).Run s post s' → x.writer = .ended → got (own (log ++ post) k) = got (own log k)) ∧
      ∀ pre no p m t post, log = pre ++ .offered k no p m t false :: post → ∃ s₁ a s₂ x₁,
        (system cfg).Run (boot clock) pre s₁ ∧ (system cfg).step s₁ a = some (s₂, .offered k no p m t false) ∧
          (system cfg).Run s₂ post s ∧ s₁.sockets[k]? = some x₁ ∧ x₁.out.length = adminMqttMaxBuffer := by
  refine ⟨(queued_run hrun hk).delivered, ?_, ?_⟩
  · intro post s' hpost hended
    obtain ⟨-, -, -, hgot⟩ := ended_run hpost hk hended
    rw [own, List.filter_append, ← own, ← own, got, List.filterMap_append, ← got, ← got, hgot, List.append_nil]
  · intro pre no p m t post hlog
    rw [hlog] at hrun
    obtain ⟨s₁, a, s₂, hpre, -, hstep, hpost⟩ := hrun.at_event
    refine ⟨s₁, a, s₂, ?_⟩
    have hdoes := step_does hstep
    generalize he : Event.offered k no p m t false = e at hdoes
    cases hdoes with
    | @socket k' x' x'' s₁' e hk' hsocket hclient =>
        subst he
        obtain rfl : k = k' := Option.some.inj hsocket.socket
        have hfull : ¬x'.out.length < adminMqttMaxBuffer := of_decide_eq_false hsocket.of_offered.symm
        exact ⟨x', hpre, hstep, hpost, hk', le_antisymm (queued_run hpre hk').size (Nat.le_of_not_lt hfull)⟩
    | connected | arrived | skipped | finished | ticked => cases he

theorem session_delivered_aSession : ∃ log s x, (system lab).Run (boot 0) log s ∧ s.sockets[0]? = some x ∧
    (entered (own log 0)).map OutboundMsg.plain =
      (got (own log 0) ++ x.missed (own log 0) ++ x.underway).map OutboundMsg.plain ∧
    messageMsg ⟨"thesada/acme/status", [111, 107], true, 1⟩ 0 ∈ got (own log 0) := by
  have hexec : ((system lab).execIf (fun _ _ _ => True) [] (boot 0) aSession).any (fun out => 0 < out.2.sockets.length ∧
      messageMsg ⟨"thesada/acme/status", [111, 107], true, 1⟩ 0 ∈ got (own out.1 0)) = true := by decide +kernel
  obtain ⟨log, s, hrun, htest⟩ := Machine.exists_runIf_of_any hexec
  obtain ⟨hlt, hmem⟩ := of_decide_eq_true htest
  exact ⟨log, s, _, hrun, List.getElem?_eq_getElem hlt,
    (session_delivered hrun (List.getElem?_eq_getElem hlt)).1.order, hmem⟩

end delivery

section publishing

/-- A publish that the limiter let through. -/
structure PublishCall where
  topic : String
  qos : Nat
  at_ : Time

def Event.call : Event → Option PublishCall
  | .passed _ topic qos now => some ⟨topic, qos, now⟩
  | _ => none

/-- The topic of a publish that came back. -/
def Event.returned : Event → Option String
  | .published _ p => some p.topic
  | .publishFailed _ topic => some topic
  | _ => none

def calls (l : List Event) : List PublishCall := l.filterMap Event.call

def returns (l : List Event) : List String := l.filterMap Event.returned

@[simp] theorem calls_snoc (l : List Event) (e : Event) : calls (l ++ [e]) = calls l ++ e.call.toList :=
  filterMap_snoc _ _ _

@[simp] theorem returns_snoc (l : List Event) (e : Event) : returns (l ++ [e]) = returns l ++ e.returned.toList :=
  filterMap_snoc _ _ _

/-- The publish that the reader waits for. -/
def Reader.inFlight : Reader → List String
  | .publishing topic _ _ _ => [topic]
  | _ => []

/-- The hits of the one key of a socket. -/
def callHits (addr : String) (cs : List PublishCall) (key : String) : List Time :=
  if key = addr then cs.map PublishCall.at_ else []

/-- What a socket publishes, and when. -/
structure Guarded (cfg : Config) (l : List Event) (x : Socket) : Prop where
  /-- Only below the root of the topics. -/
  inside : ∀ c ∈ calls l, cfg.allowedPrefix.toList <+: c.topic.toList ∧ c.qos ≤ 2
  /-- Not more than the limit in any window. -/
  capped : Capped adminMqttPublishWindow PublishCall.at_ adminMqttPublishMax (calls l)
  /-- One after the other, and each comes back once. -/
  answered : (calls l).map PublishCall.topic = returns l ++ x.reader.inFlight

structure GuardInv (cfg : Config) (l : List Event) (now : Time) (x : Socket) : Prop extends Guarded cfg l x where
  limiter : x.limiter.Keeps adminMqttPublishWindow adminMqttPublishMax (callHits x.remoteAddr (calls l)) now

theorem recent_callHits {addr : String} {cs : List PublishCall} {window : Int} :
    recent window id now (callHits addr cs addr) = recent window PublishCall.at_ now cs := by
  rw [callHits, if_pos rfl, recent, recent, List.countP_map]
  rfl

theorem callHits_snoc {addr : String} {cs : List PublishCall} (c : PublishCall) :
    callHits addr (cs ++ [c]) = Function.update (callHits addr cs) addr (callHits addr cs addr ++ [c.at_]) := by
  funext key
  by_cases hkey : key = addr
  · subst hkey
    rw [Function.update_self]
    simp [callHits]
  · rw [Function.update_of_ne hkey]
    simp [callHits, hkey]

/-- A step without a publish. -/
theorem GuardInv.quiet (h : GuardInv cfg l now x) (hlimiter : x'.limiter = x.limiter)
    (haddr : x'.remoteAddr = x.remoteAddr) (hreader : x'.reader.inFlight = x.reader.inFlight)
    (he : e.call = none ∧ e.returned = none) : GuardInv cfg (l ++ [e]) now x' := by
  obtain ⟨hcall, hreturned⟩ := he
  have hcalls : calls (l ++ [e]) = calls l := by simp [hcall]
  refine ⟨⟨?_, ?_, ?_⟩, ?_⟩
  · rw [hcalls]
    exact h.inside
  · rw [hcalls]
    exact h.capped
  · rw [hcalls, hreader]
    simpa [hreturned] using h.answered
  · rw [hcalls, hlimiter, haddr]
    exact h.limiter

theorem GuardInv.receive (h : GuardInv cfg l now x) (f : InboundMsg) (hr : x.reader = .reading) :
    GuardInv cfg (l ++ [(receive cfg now k x f).2]) now (receive cfg now k x f).1 := by
  obtain ⟨_, hrec⟩ | ⟨_, hrec⟩ | ⟨text, l', hallow, hrec⟩ | ⟨topic, qos, l', hallow, hinside, hqos, hrec⟩ :=
    receive_cases cfg now k x f
  · rw [hrec]
    exact h.quiet rfl rfl (by rw [hr]; rfl) ⟨rfl, rfl⟩
  · rw [hrec]
    exact h.quiet rfl rfl (by rw [hr]; rfl) ⟨rfl, rfl⟩
  · -- the limiter forgets what is old, and answers as before
    rw [hrec]
    have hold : GuardInv cfg (l ++ [.framed k]) now { x with reader := .replying (errorMsg text) } :=
      h.quiet rfl rfl (by rw [hr]; rfl) ⟨rfl, rfl⟩
    refine ⟨⟨hold.inside, hold.capped, hold.answered⟩, ?_⟩
    have hfull : adminMqttPublishMax ≤
        recent adminMqttPublishWindow id now (callHits x.remoteAddr (calls l) x.remoteAddr) := by
      by_contra hroom
      obtain ⟨_, hgranted, -⟩ := h.limiter.granted (le_refl now) (Nat.not_le.mp hroom)
      rw [hallow] at hgranted
      cases hgranted
    obtain ⟨_, hrefused, hkeeps⟩ := h.limiter.refused (le_refl now) hfull
    rw [hallow] at hrefused
    cases hrefused
    simpa [Event.call] using hkeeps
  · rw [hrec]
    have hroom : recent adminMqttPublishWindow id now (callHits x.remoteAddr (calls l) x.remoteAddr) <
        adminMqttPublishMax := by
      by_contra hfull
      obtain ⟨_, hrefused, -⟩ := h.limiter.refused (le_refl now) (Nat.not_lt.mp hfull)
      rw [hallow] at hrefused
      cases hrefused
    obtain ⟨_, hgranted, hkeeps⟩ := h.limiter.granted (le_refl now) hroom
    rw [hallow] at hgranted
    cases hgranted
    have hcalls : calls (l ++ [.passed k topic qos now]) = calls l ++ [⟨topic, qos, now⟩] := calls_snoc _ _
    refine ⟨⟨?_, ?_, ?_⟩, ?_⟩
    · intro c hc
      rw [hcalls] at hc
      obtain hold | hnew := List.mem_append.mp hc
      · exact h.inside c hold
      · obtain rfl := List.mem_singleton.mp hnew
        exact ⟨hinside, hqos⟩
    · rw [hcalls]
      rw [recent_callHits] at hroom
      exact h.capped.snoc hroom
    · have hanswered := h.answered
      rw [hr] at hanswered
      simpa [hcalls, Reader.inFlight, Event.returned] using hanswered
    · rw [hcalls, callHits_snoc]
      exact hkeeps

theorem GuardInv.step (h : GuardInv cfg l now x) (hstep : SocketStep cfg now k x x' e) :
    GuardInv cfg (l ++ [e]) now x' := by
  cases hstep with
  | framed f hr => exact h.receive f hr
  | @published topic payload qos retain res hr =>
      have hanswered := h.answered
      rw [hr] at hanswered
      have hcalls : calls (l ++ [(x.publishReturns k topic payload retain res).2]) = calls l := by
        cases res <;> simp [Socket.publishReturns, Event.call]
      refine ⟨⟨?_, ?_, ?_⟩, ?_⟩
      · rw [hcalls]
        exact h.inside
      · rw [hcalls]
        exact h.capped
      · rw [hcalls, hanswered]
        cases res <;> simp [Socket.publishReturns, Reader.inFlight, Event.returned]
      · rw [hcalls]
        cases res <;> exact h.limiter
  | offered | loaded =>
      first | unfold Socket.offer | unfold Socket.load
      split <;> exact h.quiet rfl rfl rfl ⟨rfl, rfl⟩
  | failed hr | retapping hr | closed hr | refused _ hr | subscribed _ hr | replied hr | abandoned hr =>
      exact h.quiet rfl rfl (by rw [hr]; rfl) ⟨rfl, rfl⟩
  | audited hr =>
      cases x.tally.audit x.user <;> exact h.quiet rfl rfl (by rw [hr]; rfl) ⟨rfl, rfl⟩
  | took | sent | lost | hungUp | cancelled => exact h.quiet rfl rfl rfl ⟨rfl, rfl⟩

/-- Whatever the browser asks for, a socket publishes inside the tree and within the limit. -/
theorem publishes_guarded (hrun : (system cfg).Run (boot clock) log s) (hk : s.sockets[k]? = some x) :
    Guarded cfg (own log k) x := by
  refine (socket_run (I := GuardInv cfg) ?_ ?_ (fun _ _ _ _ _ _ h hstep => h.step hstep) hrun hk).toGuarded
  · intro k now user remoteAddr
    refine ⟨⟨fun c hc => absurd hc List.not_mem_nil, capped_nil, rfl⟩, rfl, rfl, fun key t _ => ?_⟩
    rw [callHits]
    split <;> rfl
  · intro l x now now' hlater h
    exact ⟨h.toGuarded, h.limiter.later hlater⟩

theorem publishes_guarded_aSession : ∃ log s x, (system lab).Run (boot 0) log s ∧ Guarded lab (own log 0) x ∧
    returns (own log 0) = ["thesada/acme/cli"] := by
  have hexec : ((system lab).execIf (fun _ _ _ => True) [] (boot 0) aSession).any (fun out => 0 < out.2.sockets.length ∧
      returns (own out.1 0) = ["thesada/acme/cli"]) = true := by decide +kernel
  obtain ⟨log, s, hrun, htest⟩ := Machine.exists_runIf_of_any hexec
  obtain ⟨hlt, hreturns⟩ := of_decide_eq_true htest
  exact ⟨log, s, _, hrun, publishes_guarded hrun (List.getElem?_eq_getElem hlt), hreturns⟩

end publishing

section audit

def Event.publishedItem : Event → Option Published
  | .published _ p => some p
  | _ => none

def Event.subscribedPattern : Event → Option String
  | .subscribed _ pattern => some pattern
  | _ => none

def Event.auditRow : Event → Option AuditEntry
  | .audited _ row => some row
  | _ => none

def publishes (l : List Event) : List Published := l.filterMap Event.publishedItem

def subscribes (l : List Event) : List String := l.filterMap Event.subscribedPattern

def auditRows (l : List Event) : List AuditEntry := l.filterMap Event.auditRow

@[simp] theorem publishes_snoc (l : List Event) (e : Event) :
    publishes (l ++ [e]) = publishes l ++ e.publishedItem.toList := filterMap_snoc _ _ _

@[simp] theorem subscribes_snoc (l : List Event) (e : Event) :
    subscribes (l ++ [e]) = subscribes l ++ e.subscribedPattern.toList := filterMap_snoc _ _ _

@[simp] theorem auditRows_snoc (l : List Event) (e : Event) :
    auditRows (l ++ [e]) = auditRows l ++ e.auditRow.toList := filterMap_snoc _ _ _

def tallyOf (ps : List Published) (patterns : List String) : Tally :=
  ⟨ps.length, ps.take adminMqttAuditCap, patterns.length, patterns.take adminMqttAuditCap⟩

/-- The row for what a session has published and subscribed to, if it has done either. -/
def sessionRow (user : String) (ps : List Published) (patterns : List String) : Option AuditEntry :=
  if ps = [] ∧ patterns = [] then none
  else some {
    user
    action := if ps = [] then "mqtt.shell_subscribe" else "mqtt.shell_publish"
    publishes := ps.length
    published := ps.take adminMqttAuditCap
    truncated := adminMqttAuditCap < ps.length
    subscribes := patterns.length
    subscribed := patterns.take adminMqttAuditCap
    subscribedTruncated := adminMqttAuditCap < patterns.length }

theorem take_snoc {α : Type} (n : Nat) (xs : List α) (a : α) :
    (xs ++ [a]).take n = if (xs.take n).length < n then xs.take n ++ [a] else xs.take n := by
  rw [List.length_take]
  by_cases hlt : xs.length < n
  · rw [if_pos (by omega), List.take_of_length_le (by simpa using Nat.succ_le_of_lt hlt), List.take_of_length_le hlt.le]
  · rw [if_neg (by omega), List.take_append_of_le_length (Nat.not_lt.mp hlt)]

theorem tallyOf_publish (ps : List Published) (patterns : List String) (p : Published) :
    (tallyOf ps patterns).publish p = tallyOf (ps ++ [p]) patterns := by
  rw [tallyOf, tallyOf, take_snoc, List.length_append]
  rfl

theorem tallyOf_subscribe (ps : List Published) (patterns : List String) (pattern : String) :
    (tallyOf ps patterns).subscribe pattern = tallyOf ps (patterns ++ [pattern]) := by
  rw [tallyOf, tallyOf, take_snoc, List.length_append]
  rfl

theorem tallyOf_audit (user : String) (ps : List Published) (patterns : List String) :
    (tallyOf ps patterns).audit user = sessionRow user ps patterns := by
  simp only [Tally.audit, tallyOf, sessionRow, List.length_eq_zero_iff, List.length_take, min_lt_iff, lt_irrefl,
    or_false]

structure AuditInv (l : List Event) (x : Socket) : Prop where
  tally : x.tally = tallyOf (publishes l) (subscribes l)
  rows : auditRows l = if x.reader = .ended then (sessionRow x.user (publishes l) (subscribes l)).toList else []

/-- A step without a subscription, a publish or an audit row. -/
theorem AuditInv.quiet (h : AuditInv l x) (htally : x'.tally = x.tally) (huser : x'.user = x.user)
    (hreader : x'.reader = .ended ↔ x.reader = .ended)
    (he : e.publishedItem = none ∧ e.subscribedPattern = none ∧ e.auditRow = none) : AuditInv (l ++ [e]) x' := by
  obtain ⟨hpublished, hsubscribed, hrow⟩ := he
  constructor
  · simpa [hpublished, hsubscribed, htally] using h.tally
  · simpa [hpublished, hsubscribed, hrow, huser, hreader] using h.rows

theorem AuditInv.step (h : AuditInv l x) (hstep : SocketStep cfg now k x x' e) : AuditInv (l ++ [e]) x' := by
  cases hstep with
  | framed f hr =>
      obtain ⟨_, hrec⟩ | ⟨_, hrec⟩ | ⟨_, _, -, hrec⟩ | ⟨_, _, _, -, -, -, hrec⟩ := receive_cases cfg now k x f <;>
        rw [hrec] <;> exact h.quiet rfl rfl (by simp [hr]) ⟨rfl, rfl, rfl⟩
  | @published topic payload qos retain res hr =>
      cases res with
      | some err => exact h.quiet rfl rfl (by simp [Socket.publishReturns, hr]) ⟨rfl, rfl, rfl⟩
      | none =>
          constructor
          · simp only [Socket.publishReturns, publishes_snoc, subscribes_snoc, h.tally, tallyOf_publish]
            simp [Event.publishedItem, Event.subscribedPattern]
          · simpa [Socket.publishReturns, Event.auditRow, hr] using h.rows
  | subscribed id hr =>
      constructor
      · simp only [publishes_snoc, subscribes_snoc, h.tally, tallyOf_subscribe]
        simp [Event.publishedItem, Event.subscribedPattern]
      · simpa [Event.auditRow, hr] using h.rows
  | audited hr =>
      have hnone : auditRows l = [] := by simpa [hr] using h.rows
      have hrow : x.tally.audit x.user = sessionRow x.user (publishes l) (subscribes l) := by
        rw [h.tally, tallyOf_audit]
      rw [hrow]
      cases hsession : sessionRow x.user (publishes l) (subscribes l) with
      | none =>
          constructor
          · simpa [Event.publishedItem, Event.subscribedPattern] using h.tally
          · simp [Event.publishedItem, Event.subscribedPattern, Event.auditRow, hnone, hsession]
      | some row =>
          constructor
          · simpa [Event.publishedItem, Event.subscribedPattern] using h.tally
          · simp [Event.publishedItem, Event.subscribedPattern, Event.auditRow, hnone, hsession]
  | offered | loaded =>
      first | unfold Socket.offer | unfold Socket.load
      split <;> exact h.quiet rfl rfl Iff.rfl ⟨rfl, rfl, rfl⟩
  | failed hr | retapping hr | closed hr | refused _ hr | replied hr | abandoned hr =>
      exact h.quiet rfl rfl (by simp [hr]) ⟨rfl, rfl, rfl⟩
  | took | sent | lost | hungUp | cancelled => exact h.quiet rfl rfl Iff.rfl ⟨rfl, rfl, rfl⟩

end audit

end ThesadaApp.MqttShell
