import ThesadaApp.MqttShell

/-!
The steps of the shell: what each can do to its socket and to the client, and the rule that takes an invariant of a
socket through the whole run. The log of a socket has the events about it.
-/

namespace ThesadaApp.MqttShell

variable {cfg : Config} {s s' : State} {log l pre post : List Event} {j k : Nat} {x x' : Socket} {e : Event} {now : Time}

section steps

/-- What a step can do to the socket it is about. -/
inductive SocketStep (cfg : Config) (now : Time) (k : Nat) (x : Socket) : Socket → Event → Prop
  | offered (no : Nat) (pattern : String) (m : Message) :
      SocketStep cfg now k x (x.offer (messageMsg m now))
        (.offered k no pattern m now (x.out.length < adminMqttMaxBuffer))
  | framed (f : InboundMsg) (hr : x.reader = .reading) :
      SocketStep cfg now k x (receive cfg now k x f).1 (receive cfg now k x f).2
  | failed (hr : x.reader = .reading) :
      SocketStep cfg now k x { x with reader := .closing, cancelled := true } (.moved k)
  | retapping {pattern : String} (hr : x.reader = .subscribing pattern) :
      SocketStep cfg now k x { x with tap := none, reader := .registering pattern } (.untapped k)
  | closed (hr : x.reader = .closing) :
      SocketStep cfg now k x { x with tap := none, reader := .auditing } (.untapped k)
  | refused {pattern : String} (err : FilterError) (hr : x.reader = .registering pattern) :
      SocketStep cfg now k x { x with reader := .replying (errorMsg ("bad pattern: " ++ err.text cfg.quote)) }
        (.refused k pattern)
  | subscribed {pattern : String} (id : Nat) (hr : x.reader = .registering pattern) :
      SocketStep cfg now k x
        { x with
          tap := some id
          tally := x.tally.subscribe pattern
          reader := .replying (infoMsg ("subscribed: " ++ pattern)) } (.subscribed k pattern)
  | published {topic : String} {payload : Bytes} {qos : Nat} {retain : Bool} (res : Option String)
      (hr : x.reader = .publishing topic payload qos retain) :
      SocketStep cfg now k x (x.publishReturns k topic payload retain res).1
        (x.publishReturns k topic payload retain res).2
  | replied {m : OutboundMsg} (hr : x.reader = .replying m) (hroom : x.out.length < adminMqttMaxBuffer) :
      SocketStep cfg now k x { x with out := x.out ++ [m], reader := .reading } (.replied k m)
  | abandoned {m : OutboundMsg} (hr : x.reader = .replying m) (hcancelled : x.cancelled = true) :
      SocketStep cfg now k x { x with reader := .reading } (.abandoned k m)
  | audited (hr : x.reader = .auditing) :
      SocketStep cfg now k x { x with reader := .ended } (((x.tally.audit x.user).map (Event.audited k)).getD (.moved k))
  | took {m : OutboundMsg} {rest : List OutboundMsg} (hw : x.writer = .waiting) (hout : x.out = m :: rest) :
      SocketStep cfg now k x { x with out := rest, writer := .taken m } (.moved k)
  | loaded {m : OutboundMsg} (hw : x.writer = .taken m) : SocketStep cfg now k x (x.load m) (.moved k)
  | sent {m : OutboundMsg} (hw : x.writer = .writing m) :
      SocketStep cfg now k x { x with writer := .waiting } (.sent k m)
  | lost {m : OutboundMsg} (hw : x.writer = .writing m) : SocketStep cfg now k x x.hangUp (.lost k m)
  | hungUp (hw : x.writer = .waiting) : SocketStep cfg now k x x.hangUp (.moved k)
  | cancelled : SocketStep cfg now k x { x with cancelled := true } (.moved k)

/-- The events in which a socket and the client take part. -/
def Event.ofClient : Event → Bool
  | .offered .. | .untapped _ | .subscribed .. => true
  | _ => false

/-- What a step of a socket can do to the client. -/
inductive ClientStep (s : State) (k : Nat) (x x' : Socket) : State → Event → Prop
  | same {e : Event} (htap : x'.tap = x.tap) (hown : e.ofClient = false) : ClientStep s k x x' s e
  | offered {n i : Nat} {f : Fanout} {t : Tap} (now : Time) (room : Bool) (hn : s.fanouts[n]? = some f)
      (hi : f.pending[i]? = some t) (hmatch : matcher t.pattern f.msg.topic = true) (hk : t.socket = k)
      (htap : x'.tap = x.tap) :
      ClientStep s k x x' { s with fanouts := s.fanouts.set n { f with pending := f.pending.eraseIdx i } }
        (.offered k n t.pattern f.msg now room)
  | untapped (hidle : x.tap ≠ none → s.unlocked = true) (htap : x'.tap = none) :
      ClientStep s k x x' (s.dropTap x.tap) (.untapped k)
  | subscribed {pattern : String} (hidle : s.unlocked = true) (htap : x'.tap = some (s.seq + 1)) :
      ClientStep s k x x' (s.addTap k pattern) (.subscribed k pattern)

/-- What a step can do. -/
inductive Does (cfg : Config) (s : State) : State → Event → Prop
  | connected (user remoteAddr : String) :
      Does cfg s { s with sockets := s.sockets ++ [newSocket user remoteAddr] } (.connected s.sockets.length)
  | arrived (m : Message) :
      Does cfg s { s with fanouts := s.fanouts ++ [⟨m, s.taps, true⟩] } (.arrived s.fanouts.length m)
  | skipped {n i : Nat} {f : Fanout} {t : Tap} (hn : s.fanouts[n]? = some f) (hi : f.pending[i]? = some t)
      (hmatch : matcher t.pattern f.msg.topic = false) :
      Does cfg s { s with fanouts := s.fanouts.set n { f with pending := f.pending.eraseIdx i } } .quiet
  | finished {n : Nat} {f : Fanout} (hn : s.fanouts[n]? = some f) (hdone : f.pending = []) :
      Does cfg s { s with fanouts := s.fanouts.set n { f with holding := false } } (.finished n)
  | ticked (d : Nat) : Does cfg s { s with clock := s.clock + d } .quiet
  | socket {k : Nat} {x x' : Socket} {s₁ : State} {e : Event} (hk : s.sockets[k]? = some x)
      (hstep : SocketStep cfg s.clock k x x' e) (hclient : ClientStep s k x x' s₁ e) : Does cfg s (s₁.put k x') e

theorem Socket.offer_tap (x : Socket) (m : OutboundMsg) : (x.offer m).tap = x.tap := by
  unfold Socket.offer
  split <;> rfl

theorem Socket.load_tap (x : Socket) (m : OutboundMsg) : (x.load m).tap = x.tap := by
  unfold Socket.load
  split <;> rfl

/-- A frame leaves the tap as it is and reaches the broker at most later. -/
theorem receive_cases (cfg : Config) (now : Time) (k : Nat) (x : Socket) (f : InboundMsg) :
    (∃ pattern, receive cfg now k x f = ({ x with reader := .subscribing pattern }, .framed k)) ∨
      (∃ text, receive cfg now k x f = ({ x with reader := .replying (errorMsg text) }, .framed k)) ∨
      (∃ text l', x.limiter.allow now x.remoteAddr = (l', false) ∧
        receive cfg now k x f = ({ x with limiter := l', reader := .replying (errorMsg text) }, .framed k)) ∨
      ∃ topic qos l', x.limiter.allow now x.remoteAddr = (l', true) ∧ cfg.allowedPrefix.toList <+: topic.toList ∧
        qos ≤ 2 ∧ receive cfg now k x f =
          ({ x with limiter := l', reader := .publishing topic f.payload qos f.retain }, .passed k topic qos now) := by
  unfold receive
  split
  · exact .inl ⟨_, rfl⟩
  · split
    · dsimp only
      split
      · exact .inr (.inl ⟨"topic must start with " ++ cfg.allowedPrefix, rfl⟩)
      · next hguard =>
          rw [not_or, Bool.not_eq_false, List.isPrefixOf_iff_prefix] at hguard
          rcases hallow : x.limiter.allow now x.remoteAddr with ⟨l', allowed⟩
          cases allowed with
          | false => exact .inr (.inr (.inl ⟨"publish rate limit (20 / 10s) exceeded", l', rfl, rfl⟩))
          | true =>
              refine .inr (.inr (.inr ⟨Enroll.trimSpace f.topic, _, l', rfl, hguard.2, ?_, rfl⟩))
              split
              · omega
              · exact Nat.zero_le 2
    · exact .inr (.inl ⟨"unknown type: " ++ f.type, rfl⟩)

theorem State.untap_eq {x₁ : Socket} {s₁ : State} (h : s.untap x = some (s₁, x₁)) :
    x₁ = { x with tap := none } ∧ (x.tap ≠ none → s.unlocked = true) ∧
      s₁ = s.dropTap x.tap := by
  unfold State.untap at h
  split at h
  · next htap =>
      cases h
      refine ⟨?_, fun hne => absurd htap hne, ?_⟩
      · rw [← htap]
      · have hall : (s.taps.filter fun t => some t.id ≠ x.tap) = s.taps := by
          refine List.filter_eq_self.mpr ?_
          rintro t -
          simp [htap]
        rw [State.dropTap, hall]
  · next id htap =>
      split at h
      · next hidle =>
          cases h
          exact ⟨rfl, fun _ => hidle, by rw [htap]⟩
      · cases h

theorem receive_client (f : InboundMsg) : ClientStep s k x (receive cfg now k x f).1 s (receive cfg now k x f).2 := by
  obtain ⟨_, h⟩ | ⟨_, h⟩ | ⟨_, _, -, h⟩ | ⟨_, _, _, -, -, -, h⟩ := receive_cases cfg now k x f <;>
    rw [h] <;> exact .same rfl rfl

theorem publishReturns_client (topic : String) (payload : Bytes) (retain : Bool) (res : Option String) :
    ClientStep s k x (x.publishReturns k topic payload retain res).1 s
      (x.publishReturns k topic payload retain res).2 := by
  cases res with
  | none => exact .same rfl rfl
  | some err => exact .same rfl rfl

theorem stepReader_does {a : ReaderStep} (hk : s.sockets[k]? = some x)
    (h : stepReader cfg s k x a = some (s', e)) : Does cfg s s' e := by
  cases a with
  | frame f =>
      simp only [stepReader] at h
      split at h
      · next hr =>
          cases h
          exact .socket hk (.framed f hr) (receive_client f)
      · cases h
  | fail =>
      simp only [stepReader] at h
      split at h
      · next hr =>
          cases h
          exact .socket hk (.failed hr) (.same rfl rfl)
      · cases h
  | untap =>
      simp only [stepReader] at h
      split at h
      · next pattern hr =>
          obtain ⟨⟨s₁, x₁⟩, huntap, heq⟩ := Option.map_eq_some_iff.mp h
          cases heq
          obtain ⟨rfl, hidle, rfl⟩ := State.untap_eq huntap
          exact .socket hk (.retapping hr) (.untapped hidle rfl)
      · next hr =>
          obtain ⟨⟨s₁, x₁⟩, huntap, heq⟩ := Option.map_eq_some_iff.mp h
          cases heq
          obtain ⟨rfl, hidle, rfl⟩ := State.untap_eq huntap
          exact .socket hk (.closed hr) (.untapped hidle rfl)
      · cases h
  | register =>
      simp only [stepReader] at h
      split at h
      · next pattern hr =>
          split at h
          · next err _ =>
              cases h
              exact .socket hk (.refused err hr) (.same rfl rfl)
          · split at h
            · next hidle =>
                cases h
                exact .socket hk (.subscribed _ hr) (.subscribed hidle rfl)
            · cases h
      · cases h
  | publish connected paho =>
      simp only [stepReader] at h
      split at h
      · next topic payload qos retain hr =>
          cases h
          exact .socket hk (.published _ hr) (publishReturns_client topic payload retain _)
      · cases h
  | reply =>
      simp only [stepReader] at h
      split at h
      · next m hr =>
          split at h
          · next hroom =>
              cases h
              exact .socket hk (.replied hr hroom) (.same rfl rfl)
          · cases h
      · cases h
  | giveUp =>
      simp only [stepReader] at h
      split at h
      · next m hr =>
          split at h
          · next hcancelled =>
              cases h
              exact .socket hk (.abandoned hr hcancelled) (.same rfl rfl)
          · cases h
      · cases h
  | audit =>
      simp only [stepReader] at h
      split at h
      · next hr =>
          cases h
          refine .socket hk (.audited hr) (.same rfl ?_)
          cases x.tally.audit x.user <;> rfl
      · cases h

theorem stepWriter_does {a : WriterStep} (hk : s.sockets[k]? = some x)
    (h : stepWriter s k x a = some (s', e)) : Does cfg s s' e := by
  cases a with
  | take =>
      simp only [stepWriter] at h
      split at h
      · next m rest hw hout =>
          cases h
          exact .socket hk (.took hw hout) (.same rfl rfl)
      · cases h
  | load =>
      simp only [stepWriter] at h
      split at h
      · next m hw =>
          cases h
          exact .socket hk (.loaded hw) (.same (x.load_tap m) rfl)
      · cases h
  | write ok =>
      simp only [stepWriter] at h
      split at h
      · next m hw =>
          cases ok with
          | true =>
              cases h
              exact .socket hk (.sent hw) (.same rfl rfl)
          | false =>
              cases h
              exact .socket hk (.lost hw) (.same rfl rfl)
      · cases h
  | done =>
      simp only [stepWriter] at h
      split at h
      · next hw =>
          cases h
          exact .socket hk (.hungUp hw.1) (.same rfl rfl)
      · cases h
  | pingFailed | lifetime =>
      simp only [stepWriter] at h
      split at h
      · next hw =>
          cases h
          exact .socket hk (.hungUp hw) (.same rfl rfl)
      · cases h

theorem step_does {a : Action} (h : (system cfg).step s a = some (s', e)) : Does cfg s s' e := by
  change stepState cfg s a = some (s', e) at h
  cases a with
  | connect user remoteAddr =>
      cases h
      exact .connected user remoteAddr
  | arrive m =>
      cases h
      exact .arrived m
  | visit n i =>
      simp only [stepState] at h
      split at h
      · cases h
      · next f hn =>
          split at h
          · cases h
          · next t hi =>
              split at h
              · next hmatch =>
                  cases h
                  exact .skipped hn hi hmatch
              · next hmatch =>
                  split at h
                  · cases h
                  · next x hk =>
                      cases h
                      exact .socket hk (.offered n t.pattern f.msg)
                        (.offered s.clock _ hn hi (by simpa using hmatch) rfl (x.offer_tap _))
  | finish n =>
      simp only [stepState] at h
      split at h
      · next f hn =>
          split at h
          · next hdone =>
              cases h
              exact .finished hn hdone.1
          · cases h
      · cases h
  | reader k a =>
      obtain ⟨x, hk, hstep⟩ := Option.bind_eq_some_iff.mp h
      exact stepReader_does hk hstep
  | writer k a =>
      obtain ⟨x, hk, hstep⟩ := Option.bind_eq_some_iff.mp h
      exact stepWriter_does hk hstep
  | cancel k =>
      obtain ⟨x, hk, heq⟩ := Option.map_eq_some_iff.mp h
      cases heq
      exact .socket hk .cancelled (.same rfl rfl)
  | tick d =>
      cases h
      exact .ticked d

end steps

section runs

/-- What the log has about a socket. -/
def own (log : List Event) (k : Nat) : List Event := log.filter fun e => e.socket = some k

theorem own_snoc_self (h : e.socket = some k) : own (log ++ [e]) k = own log k ++ [e] := by
  simp [own, List.filter_append, h]

theorem own_snoc_other (h : e.socket ≠ some k) : own (log ++ [e]) k = own log k := by
  simp [own, List.filter_append, h]

theorem SocketStep.socket (h : SocketStep cfg now k x x' e) : e.socket = some k := by
  cases h with
  | framed f hr =>
      obtain ⟨_, h⟩ | ⟨_, h⟩ | ⟨_, _, -, h⟩ | ⟨_, _, _, -, -, -, h⟩ := receive_cases cfg now k x f <;>
        rw [h] <;> rfl
  | published res hr => cases res <;> rfl
  | audited hr => cases x.tally.audit x.user <;> rfl
  | offered | failed | retapping | closed | refused | subscribed | replied | abandoned | took | loaded | sent | lost
  | hungUp | cancelled => rfl

theorem SocketStep.of_subscribed {pattern : String} (h : SocketStep cfg now k x x' (.subscribed j pattern)) :
    x.reader = .registering pattern := by
  generalize he : Event.subscribed j pattern = e at h
  cases h with
  | subscribed id hr =>
      cases he
      exact hr
  | framed f hr =>
      obtain ⟨_, hrec⟩ | ⟨_, hrec⟩ | ⟨_, _, -, hrec⟩ | ⟨_, _, _, -, -, -, hrec⟩ := receive_cases cfg now k x f <;>
        rw [hrec] at he <;> cases he
  | published res hr => cases res <;> cases he
  | audited hr =>
      cases hrow : x.tally.audit x.user <;> rw [hrow] at he <;> cases he
  | offered | failed | retapping | closed | refused | replied | abandoned | took | loaded | sent | lost | hungUp
  | cancelled => cases he

theorem ClientStep.frame {s₁ : State} (h : ClientStep s k x x' s₁ e) :
    s₁.sockets = s.sockets ∧ s₁.clock = s.clock := by
  cases h <;> exact ⟨rfl, rfl⟩

/-- A socket after a step is new, or it was there and made the step, or it was there and did not. -/
theorem Does.socket_cases (h : Does cfg s s' e) (hk : s'.sockets[k]? = some x') :
    (∃ user remoteAddr, x' = newSocket user remoteAddr ∧ k = s.sockets.length ∧ e = .connected k) ∨
      ∃ x, s.sockets[k]? = some x ∧ (SocketStep cfg s.clock k x x' e ∨ x' = x ∧ e.socket ≠ some k) := by
  cases h with
  | connected user remoteAddr =>
      obtain hold | ⟨rfl, rfl⟩ := Machine.getElem?_concat_cases hk
      · refine .inr ⟨x', hold, .inr ⟨rfl, fun heq => ?_⟩⟩
        exact Nat.lt_irrefl _ (Option.some.inj heq ▸ (List.getElem?_eq_some_iff.mp hold).1)
      · exact .inl ⟨user, remoteAddr, rfl, rfl, rfl⟩
  | arrived m => exact .inr ⟨x', hk, .inr ⟨rfl, nofun⟩⟩
  | skipped hn hi hmatch => exact .inr ⟨x', hk, .inr ⟨rfl, nofun⟩⟩
  | finished hn hdone => exact .inr ⟨x', hk, .inr ⟨rfl, nofun⟩⟩
  | ticked d => exact .inr ⟨x', hk, .inr ⟨rfl, nofun⟩⟩
  | @socket j x y s₁ e hj hsocket hclient =>
      rw [State.put, hclient.frame.1] at hk
      obtain ⟨rfl, rfl⟩ | ⟨hne, hold⟩ := Machine.getElem?_set_cases hk
      · exact .inr ⟨x, hj, .inl hsocket⟩
      · refine .inr ⟨x', hold, .inr ⟨rfl, fun heq => hne ?_⟩⟩
        exact Option.some.inj (heq.symm.trans hsocket.socket)

/-- Time goes on, sockets stay, and an event is about a socket that is there. -/
theorem Does.grows (h : Does cfg s s' e) : s.clock ≤ s'.clock ∧ s.sockets.length ≤ s'.sockets.length ∧
    ∀ k, e.socket = some k → k < s'.sockets.length := by
  cases h with
  | connected user remoteAddr =>
      rw [List.length_append, List.length_singleton]
      refine ⟨le_refl _, Nat.le_succ _, fun k hk => ?_⟩
      obtain rfl := Option.some.inj hk
      exact Nat.lt_succ_self _
  | arrived m => exact ⟨le_refl _, le_refl _, nofun⟩
  | skipped hn hi hmatch => exact ⟨le_refl _, le_refl _, nofun⟩
  | finished hn hdone => exact ⟨le_refl _, le_refl _, nofun⟩
  | ticked d => exact ⟨Int.le_add_of_nonneg_right (Int.natCast_nonneg d), le_refl _, nofun⟩
  | socket hj hsocket hclient =>
      obtain ⟨hsockets, hclock⟩ := hclient.frame
      rw [State.put, List.length_set, hsockets]
      refine ⟨hclock.ge, le_refl _, fun k hk => ?_⟩
      rw [hsocket.socket] at hk
      obtain rfl := Option.some.inj hk
      exact (List.getElem?_eq_some_iff.mp hj).1

theorem known_run {clock : Time} (hrun : (system cfg).Run (boot clock) log s) :
    ∀ e ∈ log, ∀ k, e.socket = some k → k < s.sockets.length := by
  refine hrun.invariant (fun log s => ∀ e ∈ log, ∀ k, e.socket = some k → k < s.sockets.length) ?_ ?_
  · intro e he
    exact absurd he List.not_mem_nil
  · intro log s a s' e hknown _ hstep e' he k hk
    obtain ⟨-, hlength, hnow⟩ := (step_does hstep).grows
    obtain hpast | hlast := List.mem_append.mp he
    · exact (hknown e' hpast k hk).trans_le hlength
    · obtain rfl := List.mem_singleton.mp hlast
      exact hnow k hk

/-- Nothing is logged about a socket before it is connected. -/
theorem own_eq_nil {clock : Time} (hrun : (system cfg).Run (boot clock) log s) (hk : s.sockets.length ≤ k) :
    own log k = [] := by
  refine List.filter_eq_nil_iff.mpr fun e he hsocket => ?_
  exact absurd (known_run hrun e he k (of_decide_eq_true hsocket)) (Nat.not_lt.mpr hk)

/-- What holds of a new socket and is kept by its steps holds of every socket in a run, of its own log. -/
theorem socket_run {I : List Event → Time → Socket → Prop}
    (hnew : ∀ k now user remoteAddr, I [.connected k] now (newSocket user remoteAddr))
    (hlater : ∀ l x now now', now ≤ now' → I l now x → I l now' x)
    (hstep : ∀ l k x now x' e, I l now x → SocketStep cfg now k x x' e → I (l ++ [e]) now x')
    {clock : Time} (hrun : (system cfg).Run (boot clock) log s) (hk : s.sockets[k]? = some x) :
    I (own log k) s.clock x := by
  refine hrun.invariant_along (fun log s => ∀ k x, s.sockets[k]? = some x → I (own log k) s.clock x) ?_ ?_ k x hk
  · intro k x hx
    cases hx
  · intro log s a s' e hpre hI _ hmove k x' hx'
    have hdoes := step_does hmove
    refine hlater _ _ _ _ hdoes.grows.1 ?_
    obtain ⟨user, remoteAddr, rfl, rfl, rfl⟩ | ⟨x, hx, hsocket | ⟨rfl, hother⟩⟩ := hdoes.socket_cases hx'
    · rw [own_snoc_self rfl, own_eq_nil hpre (le_refl _)]
      exact hnew _ _ _ _
    · rw [own_snoc_self hsocket.socket]
      exact hstep _ _ _ _ _ _ (hI k x hx) hsocket
    · rw [own_snoc_other hother]
      exact hI k x' hx

end runs

section session

def lab : Config := ⟨"thesada", id⟩

/-- A session that subscribes, is offered a message and reads it, publishes one and ends. -/
def aSession : List Action :=
  [.connect "root" "10.0.0.1", .reader 0 (.frame ⟨"subscribe", "thesada/+/status", "", [], 0, false⟩), .reader 0 .untap,
    .reader 0 .register, .reader 0 .reply, .arrive ⟨"thesada/acme/status", [111, 107], true, 1⟩, .visit 0 0, .finish 0,
    .writer 0 .take, .writer 0 .load, .writer 0 (.write true), .writer 0 .take, .writer 0 .load,
    .writer 0 (.write true), .reader 0 (.frame ⟨"publish", "", "thesada/acme/cli", [104, 105], 1, false⟩),
    .reader 0 (.publish true none), .reader 0 .reply, .reader 0 .fail, .reader 0 .untap, .reader 0 .audit]

end session

end ThesadaApp.MqttShell
