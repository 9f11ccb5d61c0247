import ThesadaApp.MqttShellSafe
import ThesadaApp.MqttShellTaps

/-!
The shell comes to rest. Left to itself it has done after a bounded number of steps, in whatever order they come, and
then nothing is on its way any more: a socket has handed over all that it was offered, or it is gone and has left no
tap behind.
-/

namespace ThesadaApp.MqttShell

variable {cfg : Config} {s s' s₁ : State} {log log' l pre post : List Event} {k n : Nat} {x x' : Socket} {e : Event}
  {now clock : Time} {a : Action}

section work

/-- The steps that need nothing from the broker, the browser or the clock. A reader whose connection is closed fails. -/
def Internal (s : State) : Action → Prop
  | .visit .. | .finish _ => True
  | .reader _ (.frame _) => False
  | .reader k .fail => ∃ x, s.sockets[k]? = some x ∧ x.writer = .ended
  | .reader .. => True
  | .writer _ .take | .writer _ .load | .writer _ (.write _) | .writer _ .done => True
  | .connect .. | .arrive _ | .writer .. | .cancel _ | .tick _ => False

theorem internal_fail : (s.sockets[k]?.map Socket.writer) = some .ended ↔ Internal s (.reader k .fail) :=
  Option.map_eq_some_iff

instance (s : State) : (a : Action) → Decidable (Internal s a)
  | .visit .. | .finish _ => .isTrue trivial
  | .reader _ (.frame _) => .isFalse id
  | .reader _ .fail => decidable_of_iff _ internal_fail
  | .reader _ .untap | .reader _ .register | .reader _ (.publish _ _) | .reader _ .reply | .reader _ .giveUp
  | .reader _ .audit => .isTrue trivial
  | .writer _ .take | .writer _ .load | .writer _ (.write _) | .writer _ .done => .isTrue trivial
  | .writer _ .pingFailed | .writer _ .lifetime => .isFalse id
  | .connect .. | .arrive _ | .cancel _ | .tick _ => .isFalse id

def Fanout.work (f : Fanout) : Nat := 4 * f.pending.length + if f.holding then 1 else 0

def Reader.work : Reader → Nat
  | .ended => 0
  | .auditing => 1
  | .closing => 2
  | .reading => 3
  | .replying _ => 7
  | .registering _ | .publishing .. => 8
  | .subscribing _ => 9

def Writer.work : Writer → Nat
  | .ended => 0
  | .waiting => 1
  | .writing _ => 2
  | .taken _ => 3

def Socket.work (x : Socket) : Nat := 3 * x.out.length + x.reader.work + x.writer.work

/-- What is left to do. -/
def State.work (s : State) : Nat := (s.fanouts.map Fanout.work).sum + (s.sockets.map Socket.work).sum

theorem sum_map_set {α : Type} {xs : List α} {i : Nat} {a b : α} (w : α → Nat) (h : xs[i]? = some a) :
    ((xs.set i b).map w).sum + w a = (xs.map w).sum + w b := by
  induction xs generalizing i with
  | nil => cases h
  | cons y xs ih =>
      cases i with
      | zero =>
          obtain rfl := Option.some.inj h
          simp only [List.set_cons_zero, List.map_cons, List.sum_cons]
          omega
      | succ i =>
          have hrest := ih h
          simp only [List.set_cons_succ, List.map_cons, List.sum_cons]
          omega

theorem work_put (hk : s.sockets[k]? = some x) (hsockets : s₁.sockets = s.sockets) (hfanouts : s₁.fanouts = s.fanouts)
    (hless : x'.work < x.work) : (s₁.put k x').work < s.work := by
  have hsum := sum_map_set (b := x') Socket.work hk
  simp only [State.work, State.put, hsockets, hfanouts]
  omega

theorem Socket.offer_work (x : Socket) (m : OutboundMsg) : (x.offer m).work ≤ x.work + 3 := by
  unfold Socket.offer
  split
  · simp only [Socket.work, List.length_append, List.length_singleton]
    omega
  · exact Nat.le_add_right _ _

theorem Socket.load_work {m : OutboundMsg} (hw : x.writer = .taken m) : (x.load m).work < x.work := by
  unfold Socket.load
  split <;> simp [Socket.work, hw, Writer.work]

/-- A tap that was visited pays for the message it may put into a queue. -/
theorem visit_lessens {n i : Nat} (h : (system cfg).step s (.visit n i) = some (s', e)) : s'.work < s.work := by
  simp only [system, stepState] at h
  split at h
  · cases h
  · next f hn =>
      split at h
      · cases h
      · next t hi =>
          have hlength := List.length_eraseIdx_of_lt (List.getElem?_eq_some_iff.mp hi).1
          have hpos := (List.getElem?_eq_some_iff.mp hi).1
          have hsum := sum_map_set (b := { f with pending := f.pending.eraseIdx i }) Fanout.work hn
          have hvisited : Fanout.work { f with pending := f.pending.eraseIdx i } + 4 = f.work := by
            simp only [Fanout.work, hlength]
            omega
          split at h
          · cases h
            simp only [State.work]
            omega
          · split at h
            · cases h
            · next x hk =>
                cases h
                have hoffer := x.offer_work (messageMsg f.msg s.clock)
                have hput := sum_map_set (b := x.offer (messageMsg f.msg s.clock)) Socket.work hk
                simp only [State.work, State.put]
                omega

theorem finish_lessens {n : Nat} (h : (system cfg).step s (.finish n) = some (s', e)) : s'.work < s.work := by
  simp only [system, stepState] at h
  split at h
  · next f hn =>
      split at h
      · next hdone =>
          cases h
          have hsum := sum_map_set (b := { f with holding := false }) Fanout.work hn
          have hone : Fanout.work { f with holding := false } + 1 = f.work := by
            simp [Fanout.work, hdone.2]
          simp only [State.work]
          omega
      · cases h
  · cases h

/-- An untapped socket goes on with its reader. -/
theorem untap_lessens {r : Reader} (hk : s.sockets[k]? = some x) (hless : r.work < x.reader.work)
    (h : ((s.untap x).map fun (s₁, x₁) => (s₁.put k { x₁ with reader := r }, Event.untapped k)) = some (s', e)) :
    s'.work < s.work := by
  obtain ⟨⟨s₁, x₁⟩, huntap, heq⟩ := Option.map_eq_some_iff.mp h
  cases heq
  obtain ⟨rfl, -, rfl⟩ := State.untap_eq huntap
  refine work_put hk rfl rfl ?_
  simp only [Socket.work]
  omega

theorem reader_lessens {a : ReaderStep} (hk : s.sockets[k]? = some x) (ha : ∀ f, a ≠ .frame f)
    (h : stepReader cfg s k x a = some (s', e)) : s'.work < s.work := by
  cases a with
  | frame f => exact absurd rfl (ha f)
  | fail =>
      simp only [stepReader] at h
      split at h
      · next hr =>
          cases h
          exact work_put hk rfl rfl (by simp [Socket.work, hr, Reader.work])
      · cases h
  | untap =>
      simp only [stepReader] at h
      split at h
      · next pattern hr => exact untap_lessens hk (by simp [hr, Reader.work]) h
      · next hr => exact untap_lessens hk (by simp [hr, Reader.work]) h
      · cases h
  | register =>
      simp only [stepReader] at h
      split at h
      · next pattern hr =>
          split at h
          · cases h
            exact work_put hk rfl rfl (by simp [Socket.work, hr, Reader.work])
          · split at h
            · cases h
              exact work_put hk rfl rfl (by simp [Socket.work, hr, Reader.work])
            · cases h
      · cases h
  | publish connected paho =>
      simp only [stepReader] at h
      split at h
      · next topic payload qos retain hr =>
          cases h
          refine work_put hk rfl rfl ?_
          cases publishRaw connected paho <;> simp [Socket.publishReturns, Socket.work, hr, Reader.work]
      · cases h
  | reply =>
      simp only [stepReader] at h
      split at h
      · next m hr =>
          split at h
          · cases h
            refine work_put hk rfl rfl ?_
            simp only [Socket.work, hr, Reader.work, List.length_append, List.length_singleton]
            omega
          · cases h
      · cases h
  | giveUp =>
      simp only [stepReader] at h
      split at h
      · next m hr =>
          split at h
          · cases h
            exact work_put hk rfl rfl (by simp [Socket.work, hr, Reader.work])
          · cases h
      · cases h
  | audit =>
      simp only [stepReader] at h
      split at h
      · next hr =>
          cases h
          exact work_put hk rfl rfl (by simp [Socket.work, hr, Reader.work])
      · cases h

theorem hangUp_work (hw : 0 < x.writer.work) : x.hangUp.work < x.work := by
  simpa [Socket.work, Socket.hangUp, Writer.work] using hw

theorem writer_lessens {a : WriterStep} (hk : s.sockets[k]? = some x) (h : stepWriter s k x a = some (s', e)) :
    s'.work < s.work := by
  cases a with
  | take =>
      simp only [stepWriter] at h
      split at h
      · next m rest hw hout =>
          cases h
          refine work_put hk rfl rfl ?_
          simp only [Socket.work, hw, hout, Writer.work, List.length_cons]
          omega
      · cases h
  | load =>
      simp only [stepWriter] at h
      split at h
      · next m hw =>
          cases h
          exact work_put hk rfl rfl (Socket.load_work hw)
      · cases h
  | write ok =>
      simp only [stepWriter] at h
      split at h
      · next m hw =>
          cases ok with
          | true =>
              cases h
              exact work_put hk rfl rfl (by simp [Socket.work, hw, Writer.work])
          | false =>
              cases h
              exact work_put hk rfl rfl (hangUp_work (by simp [hw, Writer.work]))
      · cases h
  | done =>
      simp only [stepWriter] at h
      split at h
      · next hw =>
          cases h
          exact work_put hk rfl rfl (hangUp_work (by simp [hw.1, Writer.work]))
      · cases h
  | pingFailed | lifetime =>
      simp only [stepWriter] at h
      split at h
      · next hw =>
          cases h
          exact work_put hk rfl rfl (hangUp_work (by simp [hw, Writer.work]))
      · cases h

/-- Every such step leaves less to do. -/
theorem work_lessens (hinternal : Internal s a) (h : (system cfg).step s a = some (s', e)) : s'.work < s.work := by
  cases a with
  | connect | arrive | cancel | tick => cases hinternal
  | visit n i => exact visit_lessens h
  | finish n => exact finish_lessens h
  | reader k a =>
      obtain ⟨x, hk, hstep⟩ := Option.bind_eq_some_iff.mp h
      refine reader_lessens hk ?_ hstep
      rintro f rfl
      exact hinternal
  | writer k a =>
      obtain ⟨x, hk, hstep⟩ := Option.bind_eq_some_iff.mp h
      exact writer_lessens hk hstep

end work

section rest

/-- A socket without its reader or its writer is cancelled. -/
structure CancelInv (x : Socket) : Prop where
  writer : x.writer = .ended → x.cancelled = true
  reader : x.reader = .closing ∨ x.reader = .auditing ∨ x.reader = .ended → x.cancelled = true

/-- The reader gets on, and stays in the loop. -/
theorem CancelInv.of_reader (h : CancelInv x) (hw : x'.writer = x.writer) (hc : x'.cancelled = x.cancelled)
    (hr : x'.reader ≠ .closing ∧ x'.reader ≠ .auditing ∧ x'.reader ≠ .ended) : CancelInv x' := by
  constructor
  · intro hended
    rw [hc]
    exact h.writer (hw ▸ hended)
  · rintro (heq | heq | heq)
    · exact absurd heq hr.1
    · exact absurd heq hr.2.1
    · exact absurd heq hr.2.2

theorem CancelInv.step (h : CancelInv x) (hstep : SocketStep cfg now k x x' e) : CancelInv x' := by
  cases hstep with
  | framed f hr =>
      obtain ⟨_, hrec⟩ | ⟨_, hrec⟩ | ⟨_, _, -, hrec⟩ | ⟨_, _, _, -, -, -, hrec⟩ := receive_cases cfg now k x f <;>
        rw [hrec] <;> exact h.of_reader rfl rfl ⟨Reader.noConfusion, Reader.noConfusion, Reader.noConfusion⟩
  | published res hr =>
      cases res <;> exact h.of_reader rfl rfl ⟨Reader.noConfusion, Reader.noConfusion, Reader.noConfusion⟩
  | retapping | refused | subscribed | replied | abandoned =>
      exact h.of_reader rfl rfl ⟨Reader.noConfusion, Reader.noConfusion, Reader.noConfusion⟩
  | failed hr => exact ⟨fun _ => rfl, fun _ => rfl⟩
  | closed hr => exact ⟨h.writer, fun _ => h.reader (.inl hr)⟩
  | audited hr => exact ⟨h.writer, fun _ => h.reader (.inr (.inl hr))⟩
  | offered =>
      unfold Socket.offer
      split <;> exact ⟨h.writer, h.reader⟩
  | loaded =>
      unfold Socket.load
      split <;> exact ⟨Writer.noConfusion, h.reader⟩
  | took | sent => exact ⟨Writer.noConfusion, h.reader⟩
  | lost | hungUp | cancelled => exact ⟨fun _ => rfl, fun _ => rfl⟩

theorem cancelInv_run (hrun : (system cfg).Run (boot clock) log s) (hk : s.sockets[k]? = some x) : CancelInv x :=
  socket_run (I := fun _ _ x => CancelInv x)
    (fun _ _ _ _ => ⟨Writer.noConfusion, fun hr => by obtain hr | hr | hr := hr <;> cases hr⟩)
    (fun _ _ _ _ _ h => h) (fun _ _ _ _ _ _ h hstep => h.step hstep) hrun hk

/-- Nothing goes on by itself any more. -/
def Stuck (cfg : Config) (s : State) : Prop := ∀ a, Internal s a → (system cfg).step s a = none

theorem Stuck.fanouts (hrun : (system cfg).Run (boot clock) log s) (hstuck : Stuck cfg s) :
    ∀ f ∈ s.fanouts, f.pending = [] ∧ f.holding = false := by
  intro f hf
  obtain ⟨n, hn⟩ := List.mem_iff_getElem?.mp hf
  have hempty : f.pending = [] := by
    by_contra hne
    obtain ⟨t, rest, hpending⟩ := List.exists_cons_of_ne_nil hne
    have hnone : stepState cfg s (.visit n 0) = none := hstuck (.visit n 0) trivial
    have htaps := ((fanInv_run hrun).held f hf).1 t (hpending ▸ List.mem_cons_self)
    have hid := (tapInv_run hrun).tap_of_mem htaps
    obtain ⟨x, hx, -⟩ := Option.bind_eq_some_iff.mp hid
    simp only [stepState, hn, hpending, List.getElem?_cons_zero, hx] at hnone
    split at hnone <;> cases hnone
  refine ⟨hempty, ?_⟩
  have hnone : stepState cfg s (.finish n) = none := hstuck (.finish n) trivial
  simp only [stepState, hn, hempty, true_and] at hnone
  split at hnone
  · cases hnone
  · next hfree => exact Bool.not_eq_true _ ▸ hfree

theorem Stuck.unlocked (hrun : (system cfg).Run (boot clock) log s) (hstuck : Stuck cfg s) : s.unlocked = true :=
  List.all_eq_true.mpr fun f hf => by rw [(hstuck.fanouts hrun f hf).2]; rfl

/-- A socket at rest: it waits for the browser and has handed over all that went into its queue, or it is gone. -/
inductive Rested (log : List Event) (s : State) (k : Nat) (x : Socket) : Prop
  | live (hreader : x.reader = .reading) (hwriter : x.writer = .waiting) (hcancelled : x.cancelled = false)
      (hgot : (got (own log k)).map OutboundMsg.plain = (entered (own log k)).map OutboundMsg.plain)
  | over (hreader : x.reader = .ended) (hwriter : x.writer = .ended) (htap : s.tapsOf k = [])

theorem untap_isSome (h : s.unlocked = true) (x : Socket) : (s.untap x).isSome = true := by
  unfold State.untap
  split
  · rfl
  · rw [if_pos h]
    rfl

theorem Stuck.reader_step (hstuck : Stuck cfg s) (hk : s.sockets[k]? = some x) {a : ReaderStep}
    (ha : Internal s (.reader k a)) : stepReader cfg s k x a = none := by
  have hnone : (s.sockets[k]?.bind fun x => stepReader cfg s k x a) = none := hstuck (.reader k a) ha
  rw [hk] at hnone
  exact hnone

theorem Stuck.writer_step (hstuck : Stuck cfg s) (hk : s.sockets[k]? = some x) {a : WriterStep}
    (ha : Internal s (.writer k a)) : stepWriter s k x a = none := by
  have hnone : (s.sockets[k]?.bind fun x => stepWriter s k x a) = none := hstuck (.writer k a) ha
  rw [hk] at hnone
  exact hnone

/-- The writer waits for something to write, or has ended. -/
theorem Stuck.writer (hstuck : Stuck cfg s) (hk : s.sockets[k]? = some x) :
    x.writer = .waiting ∧ x.out = [] ∧ x.cancelled = false ∨ x.writer = .ended := by
  cases hw : x.writer with
  | waiting =>
      have htake := hstuck.writer_step hk (a := .take) trivial
      have hdone := hstuck.writer_step hk (a := .done) trivial
      simp only [stepWriter, hw] at htake hdone
      refine .inl ⟨rfl, ?_, ?_⟩
      · cases hout : x.out with
        | nil => rfl
        | cons m rest =>
            rw [hout] at htake
            cases htake
      · rw [Bool.eq_false_iff]
        intro hcancelled
        rw [if_pos ⟨trivial, hcancelled⟩] at hdone
        cases hdone
  | taken m =>
      have hnone := hstuck.writer_step hk (a := .load) trivial
      simp only [stepWriter, hw] at hnone
      cases hnone
  | writing m =>
      have hnone := hstuck.writer_step hk (a := .write true) trivial
      simp only [stepWriter, hw] at hnone
      cases hnone
  | ended => exact .inr rfl

/-- The reader waits for the browser, or has ended. -/
theorem Stuck.reader (hrun : (system cfg).Run (boot clock) log s) (hstuck : Stuck cfg s)
    (hk : s.sockets[k]? = some x) : x.reader = .reading ∨ x.reader = .ended := by
  have hfree := hstuck.unlocked hrun
  cases hr : x.reader with
  | reading => exact .inl rfl
  | ended => exact .inr rfl
  | subscribing pattern =>
      have hnone := hstuck.reader_step hk (a := .untap) trivial
      simp only [stepReader, hr, Option.map_eq_none_iff] at hnone
      have hsome := untap_isSome hfree x
      rw [hnone] at hsome
      cases hsome
  | closing =>
      have hnone := hstuck.reader_step hk (a := .untap) trivial
      simp only [stepReader, hr, Option.map_eq_none_iff] at hnone
      have hsome := untap_isSome hfree x
      rw [hnone] at hsome
      cases hsome
  | registering pattern =>
      have hnone := hstuck.reader_step hk (a := .register) trivial
      simp only [stepReader, hr, hfree] at hnone
      split at hnone <;> cases hnone
  | publishing topic payload qos retain =>
      have hnone := hstuck.reader_step hk (a := .publish true none) trivial
      simp only [stepReader, hr] at hnone
      cases hnone
  | auditing =>
      have hnone := hstuck.reader_step hk (a := .audit) trivial
      simp only [stepReader, hr] at hnone
      cases hnone
  | replying m =>
      have hreply := hstuck.reader_step hk (a := .reply) trivial
      have hgiveUp := hstuck.reader_step hk (a := .giveUp) trivial
      simp only [stepReader, hr] at hreply hgiveUp
      obtain ⟨-, hout, -⟩ | hended := hstuck.writer hk
      · -- an empty queue has room
        rw [hout, if_pos (by decide)] at hreply
        cases hreply
      · -- the writer that has gone has ended the context
        rw [if_pos ((cancelInv_run hrun hk).writer hended)] at hgiveUp
        cases hgiveUp

theorem Stuck.rested (hrun : (system cfg).Run (boot clock) log s) (hstuck : Stuck cfg s)
    (hk : s.sockets[k]? = some x) : Rested log s k x := by
  obtain ⟨hw, hout, hcancelled⟩ | hw := hstuck.writer hk
  · obtain hr | hr := hstuck.reader hrun hk
    · have hqueued := queued_run hrun hk
      have horder := hqueued.order
      rw [hw, hout, hqueued.gone_eq_nil (by rw [hw]; exact Writer.noConfusion)] at horder
      exact .live hr hw hcancelled (by simpa [Writer.held] using horder.symm)
    · rw [(cancelInv_run hrun hk).reader (.inr (.inr hr))] at hcancelled
      cases hcancelled
  · have hr : x.reader = .ended := by
      refine (hstuck.reader hrun hk).resolve_left fun hreading => ?_
      have hnone := hstuck.reader_step hk (a := .fail) ⟨x, hk, hw⟩
      simp only [stepReader, hreading] at hnone
      cases hnone
    refine .over hr hw ?_
    have hids := (tapInv_run hrun).ids k
    rw [State.tapID, hk, Option.bind_some, untapped_run hrun hk (.inr (.inr hr))] at hids
    exact List.map_eq_nil_iff.mp hids

/-- Whatever the order of its steps, the shell left to itself stops within a bound, and has then offered every message
of the broker to all that were due it, and brought every socket to rest. -/
theorem shell_settles (hrun : (system cfg).Run (boot clock) log s)
    (hself : (system cfg).RunIf (fun _ => Internal) s log' s') :
    log'.length ≤ s.work ∧ (Stuck cfg s' →
      (∀ pre n m post, log ++ log' = pre ++ .arrived n m :: post → ∀ k, offers (own (log ++ log') k) n = due (own pre k) m) ∧
        ∀ k x, s'.sockets[k]? = some x → Rested (log ++ log') s' k x) := by
  have hlength := hself.length_le State.work fun _ _ _ _ _ => work_lessens
  have hall := hrun.trans hself.run
  refine ⟨by omega, fun hstuck => ⟨?_, fun k x => hstuck.rested hall⟩⟩
  intro pre n m post hlog k
  obtain ⟨f, hf, hfanned⟩ := (fanInv_run hall).fanned pre n m post hlog
  have hshared := hfanned.shared k
  rw [Fanout.owed, (hstuck.fanouts hall f (List.mem_of_getElem? hf)).1] at hshared
  exact hshared

/-- Where nothing goes on by itself. -/
theorem stuck_of (hfanouts : ∀ f ∈ s.fanouts, f.pending = [] ∧ f.holding = false)
    (hsockets : ∀ x ∈ s.sockets, x.reader = .ended ∧ x.writer = .ended) : Stuck cfg s := by
  have hreader : ∀ k x a, s.sockets[k]? = some x → stepReader cfg s k x a = none := by
    intro k x a hk
    have hr := (hsockets x (List.mem_of_getElem? hk)).1
    cases a <;> simp [stepReader, hr]
  have hwriter : ∀ k x a, s.sockets[k]? = some x → stepWriter s k x a = none := by
    intro k x a hk
    have hw := (hsockets x (List.mem_of_getElem? hk)).2
    cases a <;> simp [stepWriter, hw]
  intro a ha
  change stepState cfg s a = none
  cases a with
  | connect | arrive | cancel | tick => cases ha
  | visit n i =>
      cases hn : s.fanouts[n]? with
      | none => simp [stepState, hn]
      | some f => simp [stepState, hn, (hfanouts f (List.mem_of_getElem? hn)).1]
  | finish n =>
      cases hn : s.fanouts[n]? with
      | none => simp [stepState, hn]
      | some f => simp [stepState, hn, (hfanouts f (List.mem_of_getElem? hn)).2]
  | reader k a => exact Option.bind_eq_none_iff.mpr fun x hk => hreader k x a hk
  | writer k a => exact Option.bind_eq_none_iff.mpr fun x hk => hwriter k x a hk

/-- What is left to do after the reader has failed. -/
def settling : List Action :=
  [.reader 0 .untap, .writer 0 .take, .reader 0 .audit, .writer 0 .load, .writer 0 (.write true), .writer 0 .done]

/-- A session whose reader has failed, left to itself. -/
theorem shell_settles_aSession : ∃ log s log' s' x, (system lab).Run (boot 0) log s ∧
    (system lab).RunIf (fun _ => Internal) s log' s' ∧ 0 < log'.length ∧ log'.length ≤ s.work ∧
    s'.sockets[0]? = some x ∧ Rested (log ++ log') s' 0 x := by
  have hexec : ((system lab).execIf (fun _ _ _ => True) [] (boot 0) (aSession.take 18)).any (fun out =>
      ((system lab).execIf (fun _ => Internal) [] out.2 settling).any fun out' => 0 < out'.1.length ∧
        (∀ f ∈ out'.2.fanouts, f.pending = [] ∧ f.holding = false) ∧ 0 < out'.2.sockets.length ∧
          ∀ x ∈ out'.2.sockets, x.reader = .ended ∧ x.writer = .ended) = true := by decide +kernel
  obtain ⟨log, s, hrun, hself⟩ := Machine.exists_runIf_of_any hexec
  obtain ⟨log', s', hself, htest⟩ := Machine.exists_runIf_of_any hself
  obtain ⟨hpos, hfanouts, hlt, hsockets⟩ := of_decide_eq_true htest
  have hsettled := shell_settles hrun hself
  have hk := List.getElem?_eq_getElem hlt
  exact ⟨log, s, log', s', _, hrun, hself, hpos, hsettled.1, hk, (hsettled.2 (stuck_of hfanouts hsockets)).2 0 _ hk⟩

end rest

end ThesadaApp.MqttShell
