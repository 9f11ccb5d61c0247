import Mathlib.Data.List.Perm.Basic
import ThesadaApp.MqttShellSteps

/-!
The taps of the shell. A socket has the tap of the pattern it has subscribed to last and no other, and every message of
the broker is offered once to each tap that was there when it came, while the tap is there.
-/

namespace ThesadaApp.MqttShell

variable {cfg : Config} {s s' s₁ : State} {log l pre post : List Event} {j k n : Nat} {x x' : Socket} {e : Event}
  {now clock : Time} {m : Message} {f : Fanout} {t : Tap}

section taps

def Event.retap (current : Option String) : Event → Option String
  | .subscribed _ pattern => some pattern
  | .untapped _ => none
  | _ => current

/-- The pattern that a socket has a tap for. -/
def currentTap (l : List Event) : Option String := l.foldl Event.retap none

theorem currentTap_snoc (l : List Event) (e : Event) : currentTap (l ++ [e]) = e.retap (currentTap l) :=
  List.foldl_concat ..

theorem retap_of_quiet (h : e.ofClient = false) (current : Option String) : e.retap current = current := by
  cases e <;> first | rfl | cases h

theorem currentTap_own_quiet (h : e.ofClient = false) (k : Nat) :
    currentTap (own (log ++ [e]) k) = currentTap (own log k) := by
  by_cases hk : e.socket = some k
  · rw [own_snoc_self hk, currentTap_snoc, retap_of_quiet h]
  · rw [own_snoc_other hk]

/-- A reader that registers a tap, or has left the loop, has none. -/
def Untapped (x : Socket) : Prop :=
  (∃ pattern, x.reader = .registering pattern) ∨ x.reader = .auditing ∨ x.reader = .ended → x.tap = none

theorem Untapped.step (h : Untapped x) (hstep : SocketStep cfg now k x x' e) : Untapped x' := by
  cases hstep with
  | framed f hr =>
      obtain ⟨_, hrec⟩ | ⟨_, hrec⟩ | ⟨_, _, -, hrec⟩ | ⟨_, _, _, -, -, -, hrec⟩ := receive_cases cfg now k x f <;>
        rw [hrec] <;> rintro (⟨_, heq⟩ | heq | heq) <;> cases heq
  | published res hr => cases res <;> rintro (⟨_, heq⟩ | heq | heq) <;> cases heq
  | retapping | closed => exact fun _ => rfl
  | failed | refused | subscribed | replied | abandoned => rintro (⟨_, heq⟩ | heq | heq) <;> cases heq
  | audited hr => exact fun _ => h (.inr (.inl hr))
  | offered | loaded =>
      first | unfold Socket.offer | unfold Socket.load
      split <;> exact h
  | took | sent | lost | hungUp | cancelled => exact h

theorem untapped_run (hrun : (system cfg).Run (boot clock) log s) (hk : s.sockets[k]? = some x) : Untapped x :=
  socket_run (I := fun _ _ x => Untapped x) (fun _ _ _ _ _ => rfl) (fun _ _ _ _ _ h => h)
    (fun _ _ _ _ _ _ h hstep => h.step hstep) hrun hk

/-- The taps of a socket in the table of the client. -/
def State.tapsOf (s : State) (k : Nat) : List Tap := s.taps.filter fun t => t.socket = k

def State.tapID (s : State) (k : Nat) : Option Nat := s.sockets[k]?.bind Socket.tap

structure TapInv (log : List Event) (s : State) : Prop where
  patterns : ∀ k, (s.tapsOf k).map Tap.pattern = (currentTap (own log k)).toList
  ids : ∀ k, (s.tapsOf k).map Tap.id = (s.tapID k).toList
  nodup : (s.taps.map Tap.id).Nodup
  seq : ∀ t ∈ s.taps, t.id ≤ s.seq

/-- A step that leaves the table as it is. -/
theorem TapInv.keep (h : TapInv log s) (htaps : s'.taps = s.taps) (hseq : s'.seq = s.seq)
    (hquiet : ∀ k, currentTap (own (log ++ [e]) k) = currentTap (own log k)) (hids : ∀ k, s'.tapID k = s.tapID k) :
    TapInv (log ++ [e]) s' := by
  have htapsOf : ∀ k, s'.tapsOf k = s.tapsOf k := fun k => by rw [State.tapsOf, htaps, State.tapsOf]
  constructor
  · intro k
    rw [htapsOf, hquiet]
    exact h.patterns k
  · intro k
    rw [htapsOf, hids]
    exact h.ids k
  · rw [htaps]
    exact h.nodup
  · rw [htaps, hseq]
    exact h.seq

theorem tapID_put (s₁ : State) (hsockets : s₁.sockets = s.sockets) (hk : s.sockets[k]? = some x) (j : Nat) :
    (s₁.put k x').tapID j = if j = k then x'.tap else s.tapID j := by
  rw [State.tapID, State.put, hsockets]
  by_cases hjk : j = k
  · subst hjk
    rw [if_pos rfl, List.getElem?_set_self (List.getElem?_eq_some_iff.mp hk).1]
    rfl
  · rw [if_neg hjk, List.getElem?_set_ne (Ne.symm hjk)]
    rfl

/-- A tap of the table is the one its socket knows. -/
theorem TapInv.tap_of_mem (h : TapInv log s) (ht : t ∈ s.taps) : s.tapID t.socket = some t.id := by
  have hmem : t.id ∈ (s.tapsOf t.socket).map Tap.id :=
    List.mem_map_of_mem (List.mem_filter.mpr ⟨ht, decide_eq_true rfl⟩)
  rw [h.ids] at hmem
  exact Option.mem_toList.mp hmem

theorem TapInv.untap (h : TapInv log s) (hk : s.sockets[k]? = some x) (htap : x'.tap = none) :
    TapInv (log ++ [.untapped k])
      ((s.dropTap x.tap).put k x') := by
  have hid : s.tapID k = x.tap := by
    rw [State.tapID, hk]
    rfl
  -- the tap that goes is of this socket, and its only one
  have hgone : ∀ t ∈ s.taps, some t.id = x.tap ↔ t.socket = k := by
    intro t ht
    constructor
    · intro heq
      have hmem : t.id ∈ (s.tapsOf k).map Tap.id := by
        rw [h.ids, hid, ← heq]
        exact List.mem_singleton_self _
      obtain ⟨t', ht', hsame⟩ := List.mem_map.mp hmem
      obtain ⟨ht', hsocket⟩ := List.mem_filter.mp ht'
      rw [List.inj_on_of_nodup_map h.nodup ht ht' hsame.symm]
      exact of_decide_eq_true hsocket
    · intro heq
      rw [← h.tap_of_mem ht, heq, hid]
  have htapsOf : ∀ j, ((s.dropTap x.tap).put k x').tapsOf j =
      if j = k then [] else s.tapsOf j := by
    intro j
    rw [State.tapsOf, State.put, State.dropTap, List.filter_filter]
    split
    · next hjk =>
        refine List.filter_eq_nil_iff.mpr fun t ht hboth => ?_
        simp only [Bool.and_eq_true, decide_eq_true_eq] at hboth
        exact hboth.2 ((hgone t ht).mpr (hboth.1.trans hjk))
    · next hjk =>
        refine List.filter_congr fun t ht => ?_
        by_cases hsocket : t.socket = j
        · have hstays : some t.id ≠ x.tap := fun heq => hjk (hsocket ▸ (hgone t ht).mp heq)
          simp [hsocket, hstays]
        · simp [hsocket]
  constructor
  · intro j
    rw [htapsOf]
    split
    · next hjk =>
        rw [hjk, own_snoc_self rfl, currentTap_snoc]
        rfl
    · next hjk =>
        have hother : (Event.socket (.untapped k)) ≠ some j := fun heq => hjk (Option.some.inj heq).symm
        rw [own_snoc_other hother]
        exact h.patterns j
  · intro j
    rw [htapsOf, tapID_put (s.dropTap x.tap) rfl hk, htap]
    split
    · rfl
    · exact h.ids j
  · exact h.nodup.sublist (List.filter_sublist.map Tap.id)
  · exact fun t ht => h.seq t (List.mem_of_mem_filter ht)

theorem TapInv.subscribe (h : TapInv log s) (hk : s.sockets[k]? = some x) (hnone : x.tap = none) {pattern : String}
    (htap : x'.tap = some (s.seq + 1)) :
    TapInv (log ++ [.subscribed k pattern])
      ((s.addTap k pattern).put k x') := by
  have hid : s.tapID k = none := by
    rw [State.tapID, hk]
    exact hnone
  have hempty : s.tapsOf k = [] := by
    have hids := h.ids k
    rw [hid] at hids
    exact List.map_eq_nil_iff.mp hids
  have htapsOf : ∀ j, ((s.addTap k pattern).put k x').tapsOf j =
      if j = k then [⟨s.seq + 1, pattern, k⟩] else s.tapsOf j := by
    intro j
    rw [State.tapsOf, State.put, State.addTap, List.filter_append]
    split
    · next hjk =>
        rw [hjk]
        rw [State.tapsOf] at hempty
        rw [hempty, List.nil_append]
        exact List.filter_cons_of_pos (decide_eq_true rfl)
    · next hjk =>
        rw [List.filter_cons_of_neg (by simpa using Ne.symm hjk), List.filter_nil, List.append_nil]
        rfl
  constructor
  · intro j
    rw [htapsOf]
    split
    · next hjk =>
        rw [hjk, own_snoc_self rfl, currentTap_snoc]
        rfl
    · next hjk =>
        have hother : (Event.socket (.subscribed k pattern)) ≠ some j := fun heq => hjk (Option.some.inj heq).symm
        rw [own_snoc_other hother]
        exact h.patterns j
  · intro j
    rw [htapsOf, tapID_put (s.addTap k pattern) rfl hk, htap]
    split
    · rfl
    · exact h.ids j
  · rw [State.put, State.addTap, List.map_append]
    refine h.nodup.append (List.nodup_singleton _) fun id hold hnew => ?_
    obtain ⟨t, ht, rfl⟩ := List.mem_map.mp hold
    have hlast : t.id = s.seq + 1 := List.mem_singleton.mp hnew
    have hseq := h.seq t ht
    omega
  · intro t ht
    obtain hold | hnew := List.mem_append.mp ht
    · exact (h.seq t hold).trans (Nat.le_succ _)
    · rw [List.mem_singleton.mp hnew]
      exact le_refl _

theorem tapInv_run (hrun : (system cfg).Run (boot clock) log s) : TapInv log s := by
  have hboot : TapInv [] (boot clock) := ⟨fun _ => rfl, fun _ => rfl, List.nodup_nil, fun t ht => by cases ht⟩
  refine hrun.invariant_along TapInv hboot ?_
  intro log s a s' e hpre h _ hmove
  cases step_does hmove with
  | connected user remoteAddr =>
      refine h.keep rfl rfl (currentTap_own_quiet rfl) fun k => ?_
      rw [State.tapID, State.tapID]
      by_cases hlt : k < s.sockets.length
      · rw [List.getElem?_append_left hlt]
      · rw [List.getElem?_eq_none (Nat.not_lt.mp hlt)]
        cases hk : (s.sockets ++ [newSocket user remoteAddr])[k]? with
        | none => rfl
        | some x =>
            obtain hold | hnew := List.mem_append.mp (List.mem_of_getElem? hk)
            · rw [List.getElem?_append_right (Nat.not_lt.mp hlt)] at hk
              rw [List.mem_singleton.mp (List.mem_of_getElem? hk)]
              rfl
            · rw [List.mem_singleton.mp hnew]
              rfl
  | arrived m => exact h.keep rfl rfl (currentTap_own_quiet rfl) fun _ => rfl
  | skipped hn hi hmatch => exact h.keep rfl rfl (currentTap_own_quiet rfl) fun _ => rfl
  | finished hn hdone => exact h.keep rfl rfl (currentTap_own_quiet rfl) fun _ => rfl
  | ticked d => exact h.keep rfl rfl (currentTap_own_quiet rfl) fun _ => rfl
  | @socket k x x' s₁ e hk hsocket hclient =>
      have hsame : ∀ s₁ : State, s₁.sockets = s.sockets → x'.tap = x.tap → ∀ j, (s₁.put k x').tapID j = s.tapID j := by
        intro s₁ hsockets htap j
        rw [tapID_put s₁ hsockets hk, htap]
        split
        · next hjk =>
            rw [hjk, State.tapID, hk]
            rfl
        · rfl
      cases hclient with
      | same htap hown => exact h.keep rfl rfl (currentTap_own_quiet hown) (hsame s rfl htap)
      | @offered n i f t now room hn hi hmatch _ htap =>
          refine h.keep rfl rfl (fun j => ?_) (hsame _ rfl htap)
          by_cases hj : j = k
          · rw [hj, own_snoc_self rfl, currentTap_snoc]
            rfl
          · have hother : (Event.offered k n t.pattern f.msg now room).socket ≠ some j := fun heq =>
              hj (Option.some.inj heq).symm
            rw [own_snoc_other hother]
      | untapped hidle htap => exact h.untap hk htap
      | subscribed hidle htap =>
          exact h.subscribe hk (untapped_run hpre hk (.inl ⟨_, hsocket.of_subscribed⟩)) htap

end taps

section fanouts

def Tap.wants (m : Message) (k : Nat) (t : Tap) : Bool := t.socket = k && matcher t.pattern m.topic

/-- The sinks of a socket that a fanout has still to call. -/
def Fanout.owed (f : Fanout) (k : Nat) : Nat := f.pending.countP (Tap.wants f.msg k)

def Event.isOffer (n : Nat) : Event → Bool
  | .offered _ no _ _ _ _ => no = n
  | _ => false

/-- How often a socket was offered the message with a number. -/
def offers (l : List Event) (n : Nat) : Nat := l.countP (Event.isOffer n)

theorem offers_snoc (l : List Event) (e : Event) (n : Nat) :
    offers (l ++ [e]) n = offers l n + if e.isOffer n then 1 else 0 := by
  rw [offers, List.countP_append, List.countP_singleton]
  rfl

/-- A socket is due a message once, if it has a tap that wants it when the message comes. -/
def due (l : List Event) (m : Message) : Nat := if (currentTap l).any fun p => matcher p m.topic then 1 else 0

/-- The patterns of a socket's tap, by the table when the message comes. -/
theorem TapInv.owed (h : TapInv log s) (m : Message) (k : Nat) :
    Fanout.owed ⟨m, s.taps, true⟩ k = due (own log k) m := by
  have hcount : Fanout.owed ⟨m, s.taps, true⟩ k = ((s.tapsOf k).map Tap.pattern).countP fun p => matcher p m.topic := by
    rw [Fanout.owed, List.countP_map, State.tapsOf, List.countP_filter]
    refine List.countP_congr fun t _ => ?_
    simp [Tap.wants, and_comm]
  rw [hcount, h.patterns, due]
  cases currentTap (own log k) with
  | none => rfl
  | some p => simp [List.countP_singleton]

theorem Fanout.owed_visited {i : Nat} (hi : f.pending[i]? = some t) (k : Nat) :
    Fanout.owed { f with pending := f.pending.eraseIdx i } k + (if t.wants f.msg k then 1 else 0) = f.owed k := by
  obtain ⟨hlt, rfl⟩ := List.getElem?_eq_some_iff.mp hi
  have hperm := List.getElem_cons_eraseIdx_perm hlt
  rw [Fanout.owed, Fanout.owed, ← hperm.countP_eq, List.countP_cons]

/-- What has become of the message that came after `pre`. -/
structure Fanned (log pre : List Event) (n : Nat) (m : Message) (f : Fanout) : Prop where
  msg : f.msg = m
  shared : ∀ k, offers (own log k) n + f.owed k = due (own pre k) m
  pending : ∀ t ∈ f.pending, currentTap (own pre t.socket) = some t.pattern
  told : ∀ k p m' now room, .offered k n p m' now room ∈ log →
    m' = m ∧ currentTap (own pre k) = some p ∧ matcher p m.topic = true

structure FanInv (log : List Event) (s : State) : Prop where
  fanned : ∀ pre n m post, log = pre ++ .arrived n m :: post → ∃ f, s.fanouts[n]? = some f ∧ Fanned log pre n m f
  known : ∀ k n p m now room, .offered k n p m now room ∈ log → n < s.fanouts.length
  finished : ∀ n, .finished n ∈ log → ∃ f, s.fanouts[n]? = some f ∧ f.pending = []
  /-- The taps that are still to visit are in the table, and the lock is held for them. -/
  held : ∀ f ∈ s.fanouts, (∀ t ∈ f.pending, t ∈ s.taps) ∧ (f.pending ≠ [] → f.holding = true)

theorem FanInv.pending_eq_nil (h : FanInv log s) (hidle : s.unlocked = true) : ∀ f ∈ s.fanouts, f.pending = [] := by
  intro f hf
  by_contra hne
  have hfree := List.all_eq_true.mp hidle f hf
  rw [(h.held f hf).2 hne] at hfree
  cases hfree

/-- The events of a fanout. -/
def Event.ofFanout : Event → Bool
  | .arrived .. | .offered .. | .finished _ => true
  | _ => false

theorem ofFanout_of_quiet (hk : e.socket = some k) (h : e.ofClient = false) : e.ofFanout = false := by
  cases e with
  | arrived | finished => cases hk
  | offered => cases h
  | connected | framed | passed | published | publishFailed | untapped | subscribed | refused | replied | abandoned
  | audited | moved | sent | lost | quiet => rfl

theorem offers_own_snoc (k n : Nat) :
    offers (own (log ++ [e]) k) n = offers (own log k) n + if e.socket = some k ∧ e.isOffer n then 1 else 0 := by
  by_cases hk : e.socket = some k
  · rw [own_snoc_self hk, offers_snoc]
    simp [hk]
  · rw [own_snoc_other hk, if_neg fun hboth => hk hboth.1, Nat.add_zero]

/-- The log up to an arrival, when another event follows. -/
theorem arrived_split {no : Nat} (h : log ++ [e] = pre ++ .arrived no m :: post) :
    (e = .arrived no m ∧ pre = log) ∨ ∃ post', log = pre ++ .arrived no m :: post' := by
  obtain rfl | ⟨post', last, rfl⟩ := List.eq_nil_or_concat post
  · obtain ⟨hlog, he⟩ := List.append_inj' h rfl
    exact .inl ⟨List.singleton_inj.mp he, hlog.symm⟩
  · rw [List.concat_eq_append, ← List.cons_append, ← List.append_assoc] at h
    exact .inr ⟨post', (List.append_inj' h rfl).1⟩

/-- An event that is no offer of this message, with the taps still to visit as they were. -/
theorem Fanned.keep {f' : Fanout} (h : Fanned log pre n m f) (hmsg : f'.msg = f.msg)
    (hpending : ∀ t ∈ f'.pending, t ∈ f.pending) (howed : ∀ k, f'.owed k = f.owed k)
    (he : ∀ k p m' now room, e ≠ .offered k n p m' now room) : Fanned (log ++ [e]) pre n m f' := by
  refine ⟨hmsg.trans h.msg, ?_, fun t ht => h.pending t (hpending t ht), ?_⟩
  · intro k
    have hoffer : e.isOffer n = false := by
      cases e with
      | offered k' n' p m' now room =>
          refine decide_eq_false fun hn => he k' p m' now room ?_
          rw [hn]
      | connected | arrived | finished | framed | passed | published | publishFailed | untapped | subscribed | refused
      | replied | abandoned | audited | moved | sent | lost | quiet => rfl
    rw [offers_own_snoc, howed, if_neg (by simp [hoffer]), Nat.add_zero]
    exact h.shared k
  · intro k p m' now room hmem
    obtain hpast | hnow := List.mem_append.mp hmem
    · exact h.told k p m' now room hpast
    · exact absurd (List.mem_singleton.mp hnow).symm (he k p m' now room)

/-- A step that is none of a fanout, and takes no tap away that is still to visit. -/
theorem FanInv.keep (h : FanInv log s) (hfanouts : s'.fanouts = s.fanouts) (he : e.ofFanout = false)
    (htaps : ∀ f ∈ s.fanouts, ∀ t ∈ f.pending, t ∈ s'.taps) : FanInv (log ++ [e]) s' := by
  have hne : ∀ k no p m' now room, e ≠ .offered k no p m' now room := by
    rintro k no p m' now room rfl
    cases he
  constructor
  · intro pre no m' post hsplit
    rw [hfanouts]
    obtain ⟨rfl, -⟩ | ⟨post', hlog⟩ := arrived_split hsplit
    · cases he
    · obtain ⟨f, hf, hfanned⟩ := h.fanned _ _ _ _ hlog
      exact ⟨f, hf, hfanned.keep rfl (fun _ ht => ht) (fun _ => rfl) fun k => hne k no⟩
  · intro k no p m' now room hmem
    rw [hfanouts]
    obtain hpast | hnow := List.mem_append.mp hmem
    · exact h.known k no p m' now room hpast
    · exact absurd (List.mem_singleton.mp hnow).symm (hne k no p m' now room)
  · intro no hmem
    rw [hfanouts]
    obtain hpast | hnow := List.mem_append.mp hmem
    · exact h.finished no hpast
    · obtain rfl := List.mem_singleton.mp hnow
      cases he
  · intro f hf
    rw [hfanouts] at hf
    exact ⟨htaps f hf, (h.held f hf).2⟩

theorem FanInv.arrive (h : FanInv log s) (htap : TapInv log s) (m : Message) :
    FanInv (log ++ [.arrived s.fanouts.length m]) { s with fanouts := s.fanouts ++ [⟨m, s.taps, true⟩] } := by
  constructor
  · intro pre no m' post hsplit
    obtain ⟨heq, rfl⟩ | ⟨post', hlog⟩ := arrived_split hsplit
    · cases heq
      refine ⟨⟨m, s.taps, true⟩, List.getElem?_concat_length, rfl, ?_, ?_, ?_⟩
      · intro k
        have hnone : offers (own pre k) s.fanouts.length = 0 := by
          refine List.countP_eq_zero.mpr fun e' he' hoffer => ?_
          have hmem := List.mem_of_mem_filter he'
          cases e' with
          | offered k' no' p m' now room =>
              obtain rfl : no' = s.fanouts.length := of_decide_eq_true hoffer
              exact absurd (h.known k' _ p m' now room hmem) (Nat.lt_irrefl _)
          | connected | arrived | finished | framed | passed | published | publishFailed | untapped | subscribed
          | refused | replied | abandoned | audited | moved | sent | lost | quiet => cases hoffer
        rw [offers_own_snoc, if_neg (by simp [Event.isOffer]), hnone, htap.owed, Nat.add_zero, Nat.zero_add]
      · intro t ht
        have hmem : t.pattern ∈ (s.tapsOf t.socket).map Tap.pattern :=
          List.mem_map_of_mem (List.mem_filter.mpr ⟨ht, decide_eq_true rfl⟩)
        rw [htap.patterns] at hmem
        exact Option.mem_toList.mp hmem
      · intro k p m' now room hmem
        obtain hpast | hnow := List.mem_append.mp hmem
        · exact absurd (h.known k _ p m' now room hpast) (Nat.lt_irrefl _)
        · cases List.mem_singleton.mp hnow
    · obtain ⟨f, hf, hfanned⟩ := h.fanned _ _ _ _ hlog
      refine ⟨f, ?_, hfanned.keep rfl (fun _ ht => ht) (fun _ => rfl) fun k p m' now room => Event.noConfusion⟩
      exact (List.getElem?_append_left (List.getElem?_eq_some_iff.mp hf).1).trans hf
  · intro k no p m' now room hmem
    rw [List.length_append]
    obtain hpast | hnow := List.mem_append.mp hmem
    · exact Nat.lt_add_right _ (h.known k no p m' now room hpast)
    · cases List.mem_singleton.mp hnow
  · intro no hmem
    obtain hpast | hnow := List.mem_append.mp hmem
    · obtain ⟨f, hf, hdone⟩ := h.finished no hpast
      exact ⟨f, (List.getElem?_append_left (List.getElem?_eq_some_iff.mp hf).1).trans hf, hdone⟩
    · cases List.mem_singleton.mp hnow
  · intro f hf
    obtain hold | hnew := List.mem_append.mp hf
    · exact h.held f hold
    · rw [List.mem_singleton.mp hnew]
      exact ⟨fun _ ht => ht, fun _ => rfl⟩

/-- A fanout gets on, by a visit or to its end. -/
theorem FanInv.advance (h : FanInv log s) {f' : Fanout} (hn : s.fanouts[n]? = some f)
    (hfanouts : s'.fanouts = s.fanouts.set n f') (htaps : s'.taps = s.taps)
    (he : ∀ no m, e ≠ .arrived no m) (hothers : ∀ k no p m' now room, e = .offered k no p m' now room → no = n)
    (hfinished : ∀ no, e = .finished no → no = n ∧ f.pending = [])
    (hpending : ∀ t ∈ f'.pending, t ∈ f.pending) (hholding : f'.pending ≠ [] → f'.holding = true)
    (hfanned : ∀ pre m, Fanned log pre n m f → Fanned (log ++ [e]) pre n m f') : FanInv (log ++ [e]) s' := by
  have hlt := (List.getElem?_eq_some_iff.mp hn).1
  constructor
  · intro pre no m' post hsplit
    rw [hfanouts]
    obtain ⟨heq, -⟩ | ⟨post', hlog⟩ := arrived_split hsplit
    · exact absurd heq (he no m')
    · obtain ⟨g, hg, hold⟩ := h.fanned _ _ _ _ hlog
      by_cases hno : no = n
      · subst hno
        obtain rfl := Option.some.inj (hn.symm.trans hg)
        exact ⟨f', List.getElem?_set_self hlt, hfanned pre m' hold⟩
      · refine ⟨g, (List.getElem?_set_ne (Ne.symm hno)).trans hg, ?_⟩
        refine hold.keep rfl (fun _ ht => ht) (fun _ => rfl) fun k p m'' now room heq => ?_
        exact hno (hothers k no p m'' now room heq)
  · intro k no p m' now room hmem
    rw [hfanouts, List.length_set]
    obtain hpast | hnow := List.mem_append.mp hmem
    · exact h.known k no p m' now room hpast
    · rw [hothers k no p m' now room (List.mem_singleton.mp hnow).symm]
      exact hlt
  · intro no hmem
    rw [hfanouts]
    have hdone : (∃ g, s.fanouts[no]? = some g ∧ g.pending = []) := by
      obtain hpast | hnow := List.mem_append.mp hmem
      · exact h.finished no hpast
      · obtain ⟨rfl, hdone⟩ := hfinished no (List.mem_singleton.mp hnow).symm
        exact ⟨f, hn, hdone⟩
    obtain ⟨g, hg, hdone⟩ := hdone
    by_cases hno : no = n
    · subst hno
      obtain rfl := Option.some.inj (hn.symm.trans hg)
      refine ⟨f', List.getElem?_set_self hlt, List.eq_nil_iff_forall_not_mem.mpr fun t ht => ?_⟩
      have hmem := hpending t ht
      rw [hdone] at hmem
      cases hmem
    · exact ⟨g, (List.getElem?_set_ne (Ne.symm hno)).trans hg, hdone⟩
  · intro g hg
    rw [hfanouts] at hg
    rw [htaps]
    obtain hold | rfl := List.mem_or_eq_of_mem_set hg
    · exact h.held g hold
    · exact ⟨fun t ht => (h.held f (List.mem_of_getElem? hn)).1 t (hpending t ht), hholding⟩

/-- The visit of a tap that wants the message. -/
theorem Fanned.offer {i : Nat} {room : Bool} (h : Fanned log pre n m f) (hi : f.pending[i]? = some t)
    (hmatch : matcher t.pattern f.msg.topic = true) :
    Fanned (log ++ [.offered t.socket n t.pattern f.msg now room]) pre n m
      { f with pending := f.pending.eraseIdx i } := by
  refine ⟨h.msg, ?_, fun t' ht' => h.pending t' (List.mem_of_mem_eraseIdx ht'), ?_⟩
  · intro k
    rw [offers_own_snoc, ← h.shared k, ← Fanout.owed_visited hi k, Nat.add_assoc, Nat.add_comm (ite _ _ _)]
    simp [Event.socket, Event.isOffer, Tap.wants, hmatch]
  · intro k p m' now' room' hmem
    obtain hpast | hnow := List.mem_append.mp hmem
    · exact h.told k p m' now' room' hpast
    · cases List.mem_singleton.mp hnow
      exact ⟨h.msg, h.pending t (List.mem_of_getElem? hi), h.msg ▸ hmatch⟩

theorem fanInv_run (hrun : (system cfg).Run (boot clock) log s) : FanInv log s := by
  have hboot : FanInv [] (boot clock) := by
    constructor
    · intro pre no m post hsplit
      simp at hsplit
    · intro k no p m now room hmem
      cases hmem
    · intro no hmem
      cases hmem
    · intro f hf
      cases hf
  refine hrun.invariant_along FanInv hboot ?_
  intro log s a s' e hpre h _ hmove
  have hvisit : ∀ {n i : Nat} {f : Fanout}, s.fanouts[n]? = some f →
      f.pending.eraseIdx i ≠ [] → f.holding = true := by
    intro n i f hn hne
    refine (h.held f (List.mem_of_getElem? hn)).2 fun hnil => hne ?_
    rw [hnil, List.eraseIdx_nil]
  cases step_does hmove with
  | connected user remoteAddr => exact h.keep rfl rfl fun f hf => (h.held f hf).1
  | arrived m => exact h.arrive (tapInv_run hpre) m
  | @skipped n i f t hn hi hmatch =>
      refine h.advance hn rfl rfl (fun _ _ => Event.noConfusion) (fun _ _ _ _ _ _ => Event.noConfusion)
        (fun _ => Event.noConfusion) (fun _ => List.mem_of_mem_eraseIdx) (hvisit hn) fun pre m hfanned => ?_
      refine hfanned.keep rfl (fun _ => List.mem_of_mem_eraseIdx) (fun k => ?_) fun _ _ _ _ _ => Event.noConfusion
      rw [← Fanout.owed_visited hi k]
      simp [Tap.wants, hmatch]
  | @finished n f hn hdone =>
      refine h.advance hn rfl rfl (fun _ _ => Event.noConfusion) (fun _ _ _ _ _ _ => Event.noConfusion)
        (fun no heq => ⟨(Event.finished.inj heq).symm, hdone⟩) (fun _ ht => ht) (fun hne => absurd hdone hne)
        fun pre m hfanned => ?_
      exact hfanned.keep rfl (fun _ ht => ht) (fun _ => rfl) fun _ _ _ _ _ => Event.noConfusion
  | ticked d => exact h.keep rfl rfl fun f hf => (h.held f hf).1
  | @socket k x x' s₁ e hk hsocket hclient =>
      cases hclient with
      | same htap hown => exact h.keep rfl (ofFanout_of_quiet hsocket.socket hown) fun f hf => (h.held f hf).1
      | @offered n i f t now room hn hi hmatch hown htap =>
          subst hown
          refine h.advance hn rfl rfl (fun _ _ => Event.noConfusion) (fun _ _ _ _ _ _ heq => ?_)
            (fun _ => Event.noConfusion) (fun _ => List.mem_of_mem_eraseIdx) (hvisit hn)
            fun pre m hfanned => hfanned.offer hi hmatch
          cases heq
          rfl
      | untapped hidle htap =>
          refine h.keep rfl rfl fun f hf t ht => List.mem_filter.mpr ⟨(h.held f hf).1 t ht, decide_eq_true ?_⟩
          intro heq
          -- a tap goes only while no fanout has the lock
          have hnone := h.pending_eq_nil (hidle fun hnone => by rw [hnone] at heq; cases heq) f hf
          rw [hnone] at ht
          cases ht
      | subscribed hidle htap =>
          exact h.keep rfl rfl fun f hf t ht => List.mem_append_left _ ((h.held f hf).1 t ht)

/-- What a message of the broker that came after `pre` is to a socket. -/
structure FannedOnce (log pre : List Event) (n : Nat) (m : Message) (k : Nat) : Prop where
  /-- It is offered once at most, and not at all if no tap of the socket wants it. -/
  once : offers (own log k) n ≤ due (own pre k) m
  /-- And when its fanout has ended, it has been offered. -/
  all : .finished n ∈ log → offers (own log k) n = due (own pre k) m
  /-- What is offered is the message, by the pattern that the socket has subscribed to last. -/
  told : ∀ p m' now room, .offered k n p m' now room ∈ log →
    m' = m ∧ currentTap (own pre k) = some p ∧ matcher p m.topic = true
  /-- The socket has not left the tap in between. -/
  current : ∀ pre' p m' now room post', log = pre' ++ .offered k n p m' now room :: post' →
    currentTap (own pre' k) = some p

/-- Every message of the broker comes once to every socket that has a tap for it, and to no other. -/
theorem fanned_once (hrun : (system cfg).Run (boot clock) (pre ++ .arrived n m :: post) s) (k : Nat) :
    FannedOnce (pre ++ .arrived n m :: post) pre n m k := by
  have hinv := fanInv_run hrun
  obtain ⟨f, hf, hfanned⟩ := hinv.fanned pre n m post rfl
  constructor
  · exact (Nat.le_add_right _ _).trans (hfanned.shared k).le
  · intro hfinished
    obtain ⟨f', hf', hdone⟩ := hinv.finished n hfinished
    obtain rfl := Option.some.inj (hf.symm.trans hf')
    have hshared := hfanned.shared k
    rw [Fanout.owed, hdone] at hshared
    exact hshared
  · exact fun p m' now room => hfanned.told k p m' now room
  · intro pre' p m' now room post' hlog
    rw [hlog] at hrun
    obtain ⟨s₁, a, s₂, hpre, -, hstep, -⟩ := hrun.at_event
    have hdoes := step_does hstep
    generalize he : Event.offered k n p m' now room = e at hdoes
    cases hdoes with
    | @socket k' x x' s₁' e hk hsocket hclient =>
        subst he
        cases hclient with
        | same htap hown => cases hown
        | @offered n i f t now room hn hi hmatch hown htap =>
            have hmem := ((fanInv_run hpre).held f (List.mem_of_getElem? hn)).1 t (List.mem_of_getElem? hi)
            have hpattern : t.pattern ∈ (s₁.tapsOf k).map Tap.pattern :=
              List.mem_map_of_mem (List.mem_filter.mpr ⟨hmem, decide_eq_true hown⟩)
            rw [(tapInv_run hpre).patterns] at hpattern
            exact Option.mem_toList.mp hpattern
    | connected | arrived | skipped | finished | ticked => cases he

theorem fanned_once_aSession : ∃ pre post s, (system lab).Run (boot 0)
      (pre ++ .arrived 0 ⟨"thesada/acme/status", [111, 107], true, 1⟩ :: post) s ∧
    offers (own (pre ++ .arrived 0 ⟨"thesada/acme/status", [111, 107], true, 1⟩ :: post) 0) 0 =
      due (own pre 0) ⟨"thesada/acme/status", [111, 107], true, 1⟩ := by
  have hexec : ((system lab).execIf (fun _ _ _ => True) [] (boot 0) aSession).any (fun out =>
      .arrived 0 ⟨"thesada/acme/status", [111, 107], true, 1⟩ ∈ out.1 ∧ .finished 0 ∈ out.1) = true := by decide +kernel
  obtain ⟨log, s, hrun, htest⟩ := Machine.exists_runIf_of_any hexec
  obtain ⟨harrived, hfinished⟩ := of_decide_eq_true htest
  obtain ⟨pre, post, rfl⟩ := List.append_of_mem harrived
  exact ⟨pre, post, s, hrun, (fanned_once hrun 0).all hfinished⟩

end fanouts

end ThesadaApp.MqttShell
