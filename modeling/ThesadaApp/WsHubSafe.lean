import Mathlib.Data.List.Sublists
import ThesadaApp.WsHub

/-!
A connection is registered, about to be closed, or closed. Publishers hold the read lock for as long as they have
connections to visit, and none is taken out meanwhile, so what they send on is open.
-/

namespace ThesadaApp.WsHub

section published

variable {tenant : String} {log : List Event} {e : Event} {frame : Frame}

theorem published_append : published tenant (log ++ [e]) = published tenant log ++ published tenant [e] :=
  List.filterMap_append ..

theorem mem_published_append (h : frame ∈ published tenant log) : frame ∈ published tenant (log ++ [e]) := by
  rw [published_append]
  exact List.mem_append_left _ h

theorem published_quiet (he : ∀ t f, e ≠ .published t f) : published tenant (log ++ [e]) = published tenant log := by
  rw [published_append]
  cases e with
  | published t f => exact absurd rfl (he t f)
  | closed | panicked | quiet => exact List.append_nil _

theorem published_self : published tenant (log ++ [.published tenant frame]) = published tenant log ++ [frame] := by
  rw [published_append]
  simp [published]

end published

section conns

variable {s : State} {i j : Nat} {c c' : Conn} {tenant : String}

theorem getElem?_setConn (h : (s.setConn i c').conns[j]? = some c) : i = j ∧ c = c' ∨ i ≠ j ∧ s.conns[j]? = some c := by
  rw [State.setConn, List.getElem?_set] at h
  split_ifs at h with hij
  · exact .inl ⟨hij, (Option.some.inj h).symm⟩
  · exact .inr ⟨hij, h⟩

theorem setConn_self (h : s.conns[i]? = some c) : (s.setConn i c').conns[i]? = some c' := by
  obtain ⟨hlt, -⟩ := List.getElem?_eq_some_iff.mp h
  exact List.getElem?_set_self hlt

theorem setConn_other (h : i ≠ j) : (s.setConn i c').conns[j]? = s.conns[j]? := List.getElem?_set_ne h

theorem mem_subscribers : i ∈ s.subscribers tenant ↔
    ∃ c, s.conns[i]? = some c ∧ c.registered = true ∧ c.tenant = tenant := by
  rw [State.subscribers, List.mem_filter, List.mem_range, Option.any_eq_true]
  simp only [Bool.and_eq_true, decide_eq_true_eq]
  constructor
  · rintro ⟨-, c, hc, hregistered, htenant⟩
    exact ⟨c, hc, hregistered, htenant⟩
  · rintro ⟨c, hc, hregistered, htenant⟩
    exact ⟨(List.getElem?_eq_some_iff.mp hc).1, c, hc, hregistered, htenant⟩

theorem nodup_subscribers : (s.subscribers tenant).Nodup := List.nodup_range.filter _

end conns

section safety

/-- A connection is in one place, and has been closed if it is closed. -/
structure ConnOk (log : List Event) (i : Nat) (c : Conn) : Prop where
  place : c.registered.toNat + c.closing + c.closed.toNat = 1
  count : log.count (.closed i) = c.closed.toNat
  own : ∀ frame ∈ c.queued, frame ∈ published c.tenant log

/-- What a publisher has still to visit is registered for its tenant. -/
structure PublisherOk (log : List Event) (conns : List Conn) (p : Publisher) : Prop where
  frame : p.frame ∈ published p.tenant log
  pending : ∀ i ∈ p.pending, ∃ c, conns[i]? = some c ∧ c.registered = true ∧ c.tenant = p.tenant

structure Inv (log : List Event) (s : State) : Prop where
  calm : .panicked ∉ log
  conns : ∀ i c, s.conns[i]? = some c → ConnOk log i c
  fresh : ∀ i, s.conns.length ≤ i → log.count (.closed i) = 0
  publishers : ∀ p ∈ s.publishers, PublisherOk log s.conns p

variable {log : List Event} {s s' : State} {e : Event} {i n : Nat} {c c' : Conn} {p : Publisher}

theorem count_append_of_ne (he : e ≠ .closed i) : (log ++ [e]).count (.closed i) = log.count (.closed i) := by
  rw [List.count_append, List.count_singleton, if_neg (by simpa using he), Nat.add_zero]

theorem ConnOk.append (h : ConnOk log i c) (he : e ≠ .closed i) : ConnOk (log ++ [e]) i c where
  place := h.place
  count := by rw [count_append_of_ne he, h.count]
  own frame hframe := mem_published_append (h.own frame hframe)

theorem PublisherOk.append {conns : List Conn} (h : PublisherOk log conns p) : PublisherOk (log ++ [e]) conns p :=
  ⟨mem_published_append h.frame, h.pending⟩

/-- A publisher that is done with some of its connections. -/
theorem Inv.publish_less (h : Inv log s) {publishers : List Publisher}
    (hsub : ∀ q ∈ publishers, ∃ p ∈ s.publishers, q.tenant = p.tenant ∧ q.frame = p.frame ∧ q.pending ⊆ p.pending) :
    Inv log { s with publishers := publishers } where
  calm := h.calm
  conns := h.conns
  fresh := h.fresh
  publishers q hq := by
    obtain ⟨p, hp, htenant, hframe, hpending⟩ := hsub q hq
    obtain ⟨hpublished, hvisit⟩ := h.publishers p hp
    rw [← htenant, ← hframe] at hpublished
    rw [← htenant] at hvisit
    exact ⟨hpublished, fun i hi => hvisit i (hpending hi)⟩

/-- Nothing changes but the log. -/
theorem Inv.quiet (h : Inv log s) : Inv (log ++ [.quiet]) s where
  calm hmem := by simp [h.calm] at hmem
  conns i c hc := (h.conns i c hc).append Event.noConfusion
  fresh i hi := by rw [count_append_of_ne Event.noConfusion, h.fresh i hi]
  publishers p hp := (h.publishers p hp).append

/-- One connection changes. It stays in the map, unless no publisher is inside the lock. -/
theorem Inv.setConn (h : Inv log s) (hc : s.conns[i]? = some c) (hok : ConnOk (log ++ [e]) i c')
    (htenant : c'.tenant = c.tenant) (hstay : s.publishers = [] ∨ c'.registered = c.registered)
    (he : e = .quiet ∨ e = .closed i) : Inv (log ++ [e]) (s.setConn i c') := by
  have hother : ∀ j, i ≠ j → e ≠ .closed j := by
    rintro j hij rfl
    rcases he with he | he
    · cases he
    · exact hij (Event.closed.inj he).symm
  refine ⟨?_, ?_, ?_, ?_⟩
  · rcases he with rfl | rfl <;> simpa using h.calm
  · intro j d hd
    rcases getElem?_setConn hd with ⟨rfl, rfl⟩ | ⟨hij, hd⟩
    · exact hok
    · exact (h.conns j d hd).append (hother j hij)
  · intro j hj
    rw [State.setConn, List.length_set] at hj
    have hij : i ≠ j := by
      rintro rfl
      rw [List.getElem?_eq_none hj] at hc
      cases hc
    rw [count_append_of_ne (hother j hij), h.fresh j hj]
  · intro p hp
    rcases hstay with hnone | hstay
    · exact absurd hp (by rw [State.setConn, hnone]; exact List.not_mem_nil)
    · refine ⟨mem_published_append (h.publishers p hp).frame, ?_⟩
      intro j hj
      obtain ⟨d, hd, hregistered, hsame⟩ := (h.publishers p hp).pending j hj
      by_cases hij : i = j
      · subst hij
        obtain rfl : c = d := Option.some.inj (hc.symm.trans hd)
        exact ⟨c', setConn_self hc, hstay.trans hregistered, htenant.trans hsame⟩
      · exact ⟨d, (setConn_other hij).trans hd, hregistered, hsame⟩

theorem Inv.connect (h : Inv log s) (hlock : s.publishers = []) (tenant : String) :
    Inv (log ++ [.quiet]) { s with conns := s.conns ++ [⟨tenant, true, 0, false, [], []⟩] } where
  calm hmem := by simp [h.calm] at hmem
  conns j c hc := by
    rw [List.getElem?_append] at hc
    split_ifs at hc with hj
    · exact (h.conns j c hc).append Event.noConfusion
    · rw [List.getElem?_singleton, Option.ite_none_right_eq_some] at hc
      obtain rfl := Option.some.inj hc.2
      refine ⟨rfl, ?_, fun frame hframe => absurd hframe List.not_mem_nil⟩
      rw [count_append_of_ne Event.noConfusion]
      exact h.fresh j (not_lt.mp hj)
  fresh j hj := by
    rw [List.length_append] at hj
    rw [count_append_of_ne Event.noConfusion, h.fresh j (by omega)]
  publishers p hp := by
    rw [hlock] at hp
    cases hp

theorem Inv.publish (h : Inv log s) (tenant : String) (frame : Frame) : Inv (log ++ [.published tenant frame])
    { s with publishers := s.publishers ++ [⟨tenant, frame, s.subscribers tenant⟩] } where
  calm hmem := by simp [h.calm] at hmem
  conns i c hc := (h.conns i c hc).append Event.noConfusion
  fresh i hi := by rw [count_append_of_ne Event.noConfusion, h.fresh i hi]
  publishers p hp := by
    rcases List.mem_append.mp hp with hp | hp
    · exact (h.publishers p hp).append
    · obtain rfl := List.mem_singleton.mp hp
      refine ⟨?_, fun i hi => mem_subscribers.mp hi⟩
      rw [published_self]
      exact List.mem_append_right _ (List.mem_singleton_self frame)

theorem queued_enqueue (c : Conn) (frame : Frame) :
    (c.enqueue frame).queued = c.queued ++ [frame] ∨ (c.enqueue frame).queued = c.queued := by
  rw [Conn.enqueue]
  split_ifs
  · exact .inl (List.append_assoc ..).symm
  · exact .inr rfl

theorem queued_write {frame : Frame} {rest : List Frame} (h : c.send = frame :: rest) :
    (c.write frame rest).queued = c.queued := by
  rw [Conn.queued, Conn.queued, h]
  exact List.append_cons .. |>.symm

theorem enqueue_frame (c : Conn) (frame : Frame) : (c.enqueue frame).tenant = c.tenant ∧
    (c.enqueue frame).registered = c.registered ∧ (c.enqueue frame).closing = c.closing ∧
    (c.enqueue frame).closed = c.closed := by
  rw [Conn.enqueue]
  split_ifs <;> exact ⟨rfl, rfl, rfl, rfl⟩

/-- A publisher visits a connection: it is still registered, so its channel is open. -/
theorem Inv.queue (h : Inv log s) (hp : s.publishers[n]? = some p) (hc : s.conns[i]? = some c) (hi : i ∈ p.pending) :
    c.closed = false ∧ Inv (log ++ [.quiet]) ((s.visited n i p).setConn i (c.enqueue p.frame)) := by
  have hpublisher := h.publishers p (List.mem_of_getElem? hp)
  obtain ⟨d, hd, hregistered, htenant⟩ := hpublisher.pending i hi
  obtain rfl : c = d := Option.some.inj (hc.symm.trans hd)
  have hok := h.conns i c hc
  obtain ⟨hsameTenant, hsameRegistered, hclosing, hclosed⟩ := enqueue_frame c p.frame
  have hvisited : Inv log (s.visited n i p) := h.publish_less fun q hq => by
    rcases List.mem_or_eq_of_mem_set hq with hq | rfl
    · exact ⟨q, hq, rfl, rfl, List.Subset.refl _⟩
    · exact ⟨p, List.mem_of_getElem? hp, rfl, rfl, List.erase_subset⟩
  constructor
  · have hplace := hok.place
    rw [hregistered] at hplace
    cases hopen : c.closed with
    | false => rfl
    | true => simp [hopen] at hplace
  · refine hvisited.setConn (c := c) hc ⟨?_, ?_, ?_⟩ hsameTenant (.inr hsameRegistered) (.inl rfl)
    · rw [hsameRegistered, hclosing, hclosed]
      exact hok.place
    · rw [hclosed, count_append_of_ne Event.noConfusion]
      exact hok.count
    · intro frame hframe
      rw [hsameTenant]
      refine mem_published_append ?_
      rcases queued_enqueue c p.frame with hqueued | hqueued
      · rw [hqueued] at hframe
        rcases List.mem_append.mp hframe with hframe | hframe
        · exact hok.own frame hframe
        · rw [List.mem_singleton.mp hframe, htenant]
          exact hpublisher.frame
      · rw [hqueued] at hframe
        exact hok.own frame hframe

theorem Inv.unregister (h : Inv log s) (hlock : s.publishers = []) (hc : s.conns[i]? = some c)
    (hregistered : c.registered = true) : Inv (log ++ [.quiet]) (s.setConn i c.unregister) := by
  have hok := h.conns i c hc
  refine h.setConn hc ⟨?_, ?_, ?_⟩ rfl (.inl hlock) (.inl rfl)
  · have hplace := hok.place
    rw [hregistered] at hplace
    simp only [Conn.unregister, Bool.toNat_false, Bool.toNat_true] at hplace ⊢
    omega
  · exact (hok.append Event.noConfusion).count
  · exact (hok.append Event.noConfusion).own

/-- A connection is closed by the one call that has taken it out, so it is open before. -/
theorem Inv.close (h : Inv log s) (hc : s.conns[i]? = some c) (hclosing : 0 < c.closing) :
    c.closed = false ∧ Inv (log ++ [.closed i]) (s.setConn i c.close) := by
  have hok := h.conns i c hc
  have hplace := hok.place
  have hopen : c.closed = false := by
    cases hclosed : c.closed with
    | false => rfl
    | true =>
        rw [hclosed, Bool.toNat_true] at hplace
        omega
  have hcount := hok.count
  rw [hopen] at hplace hcount
  refine ⟨hopen, h.setConn hc ⟨?_, ?_, ?_⟩ rfl (.inr rfl) (.inr rfl)⟩
  · simp only [Conn.close, Bool.toNat_false, Bool.toNat_true] at hplace ⊢
    omega
  · rw [List.count_append, hcount]
    simp [Conn.close]
  · exact fun frame hframe => mem_published_append (hok.own frame hframe)

theorem Inv.write (h : Inv log s) (hc : s.conns[i]? = some c) {frame : Frame} {rest : List Frame}
    (hsend : c.send = frame :: rest) : Inv (log ++ [.quiet]) (s.setConn i (c.write frame rest)) := by
  have hok := (h.conns i c hc).append (e := .quiet) Event.noConfusion
  refine h.setConn hc ⟨hok.place, hok.count, ?_⟩ rfl (.inr rfl) (.inl rfl)
  rw [queued_write hsend]
  exact hok.own

/-- What a step does where none panics. -/
inductive Moves (s : State) : Action → State → Event → Prop where
  | connect (tenant : String) (hlock : s.publishers = []) :
      Moves s (.connect tenant) { s with conns := s.conns ++ [⟨tenant, true, 0, false, [], []⟩] } .quiet
  | publish (tenant : String) (frame : Frame) : Moves s (.publish tenant frame)
      { s with publishers := s.publishers ++ [⟨tenant, frame, s.subscribers tenant⟩] } (.published tenant frame)
  | queue {n i : Nat} {p : Publisher} {c : Conn} (hp : s.publishers[n]? = some p) (hc : s.conns[i]? = some c)
      (hi : i ∈ p.pending) : Moves s (.queue n i) ((s.visited n i p).setConn i (c.enqueue p.frame)) .quiet
  | finish (n : Nat) : Moves s (.finish n) { s with publishers := s.publishers.eraseIdx n } .quiet
  | unregister {i : Nat} {c : Conn} (hlock : s.publishers = []) (hc : s.conns[i]? = some c)
      (hregistered : c.registered = true) : Moves s (.unregister i) (s.setConn i c.unregister) .quiet
  | late (i : Nat) : Moves s (.unregister i) s .quiet
  | close {i : Nat} {c : Conn} (hc : s.conns[i]? = some c) (hclosing : 0 < c.closing) :
      Moves s (.close i) (s.setConn i c.close) (.closed i)
  | write {i : Nat} {c : Conn} {frame : Frame} {rest : List Frame} (hc : s.conns[i]? = some c)
      (hsend : c.send = frame :: rest) : Moves s (.write i) (s.setConn i (c.write frame rest)) .quiet

/-- No step panics. -/
theorem Inv.moves (h : Inv log s) {a : Action} (hstep : stepState s a = some (s', e)) : Moves s a s' e := by
  cases a with
  | connect tenant =>
      simp only [stepState, Option.ite_none_right_eq_some, Option.some.injEq, Prod.mk.injEq] at hstep
      obtain ⟨hlock, rfl, rfl⟩ := hstep
      exact .connect tenant hlock
  | publish tenant frame =>
      cases hstep
      exact .publish tenant frame
  | queue n i =>
      simp only [stepState] at hstep
      split at hstep
      · next p c hp hc =>
          split_ifs at hstep with hi hclosed
          · rw [(h.queue hp hc hi).1] at hclosed
            cases hclosed
          · cases hstep
            exact .queue hp hc hi
      · cases hstep
  | finish n =>
      simp only [stepState] at hstep
      split at hstep
      · split_ifs at hstep
        cases hstep
        exact .finish n
      · cases hstep
  | unregister i =>
      simp only [stepState] at hstep
      split at hstep
      · next c hc =>
          rw [Option.ite_none_right_eq_some, Option.some.injEq, Prod.mk.injEq] at hstep
          obtain ⟨hlock, rfl, rfl⟩ := hstep
          split_ifs with hregistered
          · exact .unregister hlock hc hregistered
          · exact .late i
      · cases hstep
  | close i =>
      simp only [stepState] at hstep
      split at hstep
      · next c hc =>
          rw [Option.ite_none_right_eq_some] at hstep
          obtain ⟨hclosing, hstep⟩ := hstep
          rw [(h.close hc hclosing).1] at hstep
          cases hstep
          exact .close hc hclosing
      · cases hstep
  | write i =>
      simp only [stepState] at hstep
      split at hstep
      · next c hc =>
          split at hstep
          · next frame rest hsend =>
              cases hstep
              exact .write hc hsend
          · cases hstep
      · cases hstep

theorem Inv.step (h : Inv log s) {a : Action} (hmove : Moves s a s' e) : Inv (log ++ [e]) s' := by
  cases hmove with
  | connect tenant hlock => exact h.connect hlock tenant
  | publish tenant frame => exact h.publish tenant frame
  | queue hp hc hi => exact (h.queue hp hc hi).2
  | finish n =>
      exact (h.publish_less fun q hq => ⟨q, List.mem_of_mem_eraseIdx hq, rfl, rfl, List.Subset.refl _⟩).quiet
  | unregister hlock hc hregistered => exact h.unregister hlock hc hregistered
  | late => exact h.quiet
  | close hc hclosing => exact (h.close hc hclosing).2
  | write hc hsend => exact h.write hc hsend

theorem inv_start : Inv [] .start :=
  ⟨List.not_mem_nil, fun _ _ hc => (by cases hc), fun _ _ => rfl, fun _ hp => absurd hp List.not_mem_nil⟩

theorem inv_run {ok : List Event → State → Action → Prop} (hrun : system.RunIf ok .start log s) : Inv log s := by
  refine hrun.invariant Inv inv_start ?_
  intro log s a s' e ih _ hstep
  exact ih.step (ih.moves hstep)

theorem Inv.safe (h : Inv log s) : Safe log s where
  calm := h.calm
  once i := by
    rcases Nat.lt_or_ge i s.conns.length with hlt | hge
    · rw [(h.conns i s.conns[i] (List.getElem?_eq_getElem hlt)).count]
      exact Bool.toNat_le _
    · rw [h.fresh i hge]
      exact Nat.zero_le 1
  own c hc := by
    obtain ⟨i, hi⟩ := List.mem_iff_getElem?.mp hc
    exact (h.conns i c hi).own

end safety

section order

/-- One publisher at a time: what is queued on a connection is in order, and before the frame it has still to get. -/
structure Ordered (log : List Event) (s : State) : Prop where
  single : s.publishers.length ≤ 1
  nodup : ∀ p ∈ s.publishers, p.pending.Nodup
  queued : ∀ (i : Nat) (c : Conn), s.conns[i]? = some c → c.queued.Sublist (published c.tenant log)
  next : ∀ p ∈ s.publishers, ∀ i ∈ p.pending, ∀ c : Conn, s.conns[i]? = some c →
    (c.queued ++ [p.frame]).Sublist (published c.tenant log)

variable {log : List Event} {s s' : State} {e : Event} {i n : Nat} {c c' : Conn} {p : Publisher}

/-- Nothing is published and nothing is queued. -/
theorem Ordered.setConn (h : Ordered log s) (hc : s.conns[i]? = some c) (hqueued : c'.queued = c.queued)
    (htenant : c'.tenant = c.tenant) (he : ∀ t f, e ≠ .published t f) : Ordered (log ++ [e]) (s.setConn i c') where
  single := h.single
  nodup := h.nodup
  queued j d hd := by
    rw [published_quiet he]
    rcases getElem?_setConn hd with ⟨rfl, rfl⟩ | ⟨-, hd⟩
    · rw [hqueued, htenant]
      exact h.queued i c hc
    · exact h.queued j d hd
  next p hp j hj d hd := by
    rw [published_quiet he]
    rcases getElem?_setConn hd with ⟨rfl, rfl⟩ | ⟨-, hd⟩
    · rw [hqueued, htenant]
      exact h.next p hp i hj c hc
    · exact h.next p hp j hj d hd

theorem Ordered.quiet (h : Ordered log s) : Ordered (log ++ [.quiet]) s where
  single := h.single
  nodup := h.nodup
  queued i c hc := by
    rw [published_quiet (by simp)]
    exact h.queued i c hc
  next p hp i hi c hc := by
    rw [published_quiet (by simp)]
    exact h.next p hp i hi c hc

theorem Ordered.connect (h : Ordered log s) (hlock : s.publishers = []) (tenant : String) :
    Ordered (log ++ [.quiet]) { s with conns := s.conns ++ [⟨tenant, true, 0, false, [], []⟩] } where
  single := h.single
  nodup := h.nodup
  queued j c hc := by
    rw [published_quiet (by simp)]
    rw [List.getElem?_append] at hc
    split_ifs at hc
    · exact h.queued j c hc
    · rw [List.getElem?_singleton, Option.ite_none_right_eq_some] at hc
      obtain rfl := Option.some.inj hc.2
      exact List.nil_sublist _
  next p hp := by
    rw [hlock] at hp
    cases hp

/-- What is published next comes after all that is queued. -/
theorem Ordered.publish (h : Ordered log s) (hlock : s.publishers = []) (tenant : String) (frame : Frame) :
    Ordered (log ++ [.published tenant frame])
      { s with publishers := s.publishers ++ [⟨tenant, frame, s.subscribers tenant⟩] } where
  single := by
    rw [hlock]
    exact Nat.le_refl 1
  nodup p hp := by
    rw [hlock] at hp
    rw [List.mem_singleton.mp hp]
    exact nodup_subscribers
  queued i c hc := by
    rw [published_append]
    exact (h.queued i c hc).trans (List.sublist_append_left _ _)
  next p hp i hi c hc := by
    rw [hlock] at hp
    obtain rfl := List.mem_singleton.mp hp
    obtain ⟨d, hd, -, htenant⟩ := mem_subscribers.mp hi
    obtain rfl : c = d := Option.some.inj (hc.symm.trans hd)
    rw [htenant, published_self, ← htenant]
    exact (h.queued i c hc).append (List.Sublist.refl [frame])

/-- The publisher visits a connection, which gets the frame or, when it is full, does not. -/
theorem Ordered.queue (h : Ordered log s) (hp : s.publishers[n]? = some p) (hc : s.conns[i]? = some c)
    (hi : i ∈ p.pending) : Ordered (log ++ [.quiet]) ((s.visited n i p).setConn i (c.enqueue p.frame)) := by
  have htenant := (enqueue_frame c p.frame).1
  have hmem := List.mem_of_getElem? hp
  -- it is the only publisher
  have hvisited : ∀ q ∈ (s.visited n i p).publishers, q = { p with pending := p.pending.erase i } := by
    obtain ⟨hn, hget⟩ := List.getElem?_eq_some_iff.mp hp
    have hsingle := h.single
    obtain ⟨only, honly⟩ := List.length_eq_one_iff.mp (by omega : s.publishers.length = 1)
    have hzero : n = 0 := by omega
    intro q hq
    rw [State.visited, honly, hzero] at hq
    exact List.mem_singleton.mp hq
  refine ⟨?_, ?_, ?_, ?_⟩
  · simp only [State.setConn, State.visited, List.length_set]
    exact h.single
  · intro q hq
    rw [hvisited q hq]
    exact (h.nodup p hmem).erase i
  · intro j d hd
    rw [published_quiet (by simp)]
    rcases getElem?_setConn hd with ⟨rfl, rfl⟩ | ⟨-, hd⟩
    · rw [htenant]
      rcases queued_enqueue c p.frame with hqueued | hqueued <;> rw [hqueued]
      · exact h.next p hmem i hi c hc
      · exact h.queued i c hc
    · exact h.queued j d hd
  · intro q hq j hj d hd
    rw [published_quiet (by simp)]
    rw [hvisited q hq] at hj ⊢
    obtain ⟨hne, hj⟩ := (h.nodup p hmem).mem_erase_iff.mp hj
    rw [setConn_other (Ne.symm hne)] at hd
    exact h.next p hmem j hj d hd

theorem Ordered.finish (h : Ordered log s) :
    Ordered (log ++ [.quiet]) { s with publishers := s.publishers.eraseIdx n } :=
  Ordered.quiet ⟨(List.eraseIdx_sublist _ _).length_le.trans h.single,
    fun p hp => h.nodup p (List.mem_of_mem_eraseIdx hp), h.queued,
    fun p hp => h.next p (List.mem_of_mem_eraseIdx hp)⟩

theorem Ordered.step (h : Ordered log s) {a : Action} (hok : Sequential s a) (hmove : Moves s a s' e) :
    Ordered (log ++ [e]) s' := by
  cases hmove with
  | connect tenant hlock => exact h.connect hlock tenant
  | publish tenant frame => exact h.publish hok tenant frame
  | queue hp hc hi => exact h.queue hp hc hi
  | finish n => exact h.finish
  | unregister _ hc => exact h.setConn hc rfl rfl (by simp)
  | late => exact h.quiet
  | close hc => exact h.setConn hc rfl rfl (by simp)
  | write hc hsend => exact h.setConn hc (queued_write hsend) rfl (by simp)

theorem ordered_start : Ordered [] .start :=
  ⟨Nat.zero_le 1, fun _ hp => absurd hp List.not_mem_nil, fun _ _ hc => (by cases hc),
    fun _ hp => absurd hp List.not_mem_nil⟩

end order

/-- In every run nothing panics, no channel is closed twice and each connection gets frames of its own tenant only,
in the order they are published if one publisher runs at a time. -/
theorem hub_safe {log : List Event} {s : State} :
    (system.Run .start log s → Safe log s) ∧
    (system.RunIf (fun _ => Sequential) .start log s → Safe log s ∧ InOrder log s) := by
  refine ⟨fun hrun => (inv_run hrun).safe, fun hrun => ⟨(inv_run hrun).safe, ?_⟩⟩
  have hordered : Ordered log s := by
    refine hrun.invariant_along Ordered ordered_start ?_
    intro log s a s' e hrun ih hok hstep
    exact ih.step hok ((inv_run hrun).moves hstep)
  intro c hc
  obtain ⟨i, hi⟩ := List.mem_iff_getElem?.mp hc
  exact hordered.queued i c hi

/-- A frame is queued, both pumps take the connection out, and another frame finds nobody. -/
theorem hub_safe_race : ∃ log s, system.RunIf (fun _ => Sequential) .start log s ∧ log.count (.closed 0) = 1 ∧
    system.Run .start log s ∧ Safe log s ∧ InOrder log s := by
  have hexec : (system.execIf (fun _ => Sequential) [] .start
      [.connect "acme", .connect "beta", .publish "acme" [1], .queue 0 0, .finish 0, .unregister 0, .unregister 0,
        .publish "acme" [2], .finish 0, .close 0, .write 0]).any
      (fun x => x.1.count (.closed 0) = 1) = true := by
    decide
  obtain ⟨log, s, hrun, hclosed⟩ := Machine.exists_runIf_of_any hexec
  exact ⟨log, s, hrun, of_decide_eq_true hclosed, hrun.run, hub_safe.1 hrun.run, (hub_safe.2 hrun).2⟩

end ThesadaApp.WsHub
