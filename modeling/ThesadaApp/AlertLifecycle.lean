import ThesadaApp.AlertDispatch

/-!
The life of an alert over its runs. A status that is not pending stays, a counted run is one more attempt, and what a
recorded run has sent is remembered: by a mark for each channel, and by a row for each webhook.
-/

namespace ThesadaApp.Alerts

def Event.sends : Event → List Sent
  | .changed => []
  | .run r => r.sends

/-- The outcome of the run is written. -/
def Event.isRecorded : Event → Bool
  | .changed => false
  | .run r => r.recorded.isSome

/-- A recorded run that had a recipient. -/
def Event.isAttempt : Event → Bool
  | .changed => false
  | .run r => r.recorded.isSome && !r.recipients.isEmpty

def Event.tries (e : Event) (c : Channel) : Bool := e.sends.any fun x => x.channel = c

/-- A send of the channel succeeds. -/
def Event.succeeds (e : Event) (c : Channel) : Bool := e.sends.any fun x => x.channel = c && x.ok

/-- The mark of a channel. -/
def AlertRow.delivered (a : AlertRow) : Channel → Bool
  | .email => a.deliveredEmail
  | .telegram => a.deliveredTelegram
  | .webhook => a.deliveredWebhook

def Action.env : Action → Option RunEnv
  | .dispatch _ env | .sweep _ _ env => some env
  | _ => none

/-- What one step does to the status, the attempts and the marks. -/
structure Advances (s : State) (a : Action) (s' : State) (e : Event) : Prop where
  terminal : s.alert.status ≠ .pending → s'.alert.status = s.alert.status
  attempts : s'.alert.attempts = s.alert.attempts + if e.isAttempt then 1 else 0
  budget : ∀ env, a.env = some env → e.isRecorded = true → s'.alert.status = .pending →
    s'.alert.attempts < env.cfg.maxAttempts
  marks : ∀ c, s.alert.delivered c = true → s'.alert.delivered c = true

/-- The sends of a run, in order. -/
def posts (log : List Event) : List Sent := log.flatMap Event.sends

/-- Once a recorded run has sent on the email or the telegram channel, no later run sends on it; a webhook that was
recorded is not posted again, in the same run or in a later one. -/
structure SentOnce (s : State) (log : List Event) : Prop where
  marked : ∀ c, c ≠ .webhook → s.alert.delivered c = true → ∀ e ∈ log, e.tries c = false
  channels : log.Pairwise fun e e' => ∀ c, c ≠ .webhook → e.isRecorded = true → e.succeeds c = true → e'.tries c = false
  listed : ∀ x ∈ posts log, x.channel = .webhook → x.subID ∉ s.deliveries
  webhooks : (posts log).Pairwise fun x y => x.recorded = true → y.channel = .webhook → y.subID ≠ x.subID

section loop

variable {s : State} {row : AlertRow} {env : RunEnv} {recipients rest : List Recipient} {p : Progress} {r : Recipient}

/-- The loop keeps what each of its sends keeps. -/
theorem sendAll_invariant (P : Progress → Prop)
    (hsend : ∀ p r, r ∈ recipients → P p → skips row p.sentHooks r = false → P (sendTo env p r).1) (hp : P p) :
    P (sendAll row env recipients p).1 := by
  induction recipients generalizing p with
  | nil => exact hp
  | cons r rest ih =>
      have hrest : ∀ p r', r' ∈ rest → P p → skips row p.sentHooks r' = false → P (sendTo env p r').1 :=
        fun p r' hr' => hsend p r' (List.mem_cons_of_mem r hr')
      unfold sendAll
      split
      · exact ih hrest hp
      · next hskip =>
          have hsent := hsend p r List.mem_cons_self hp (Bool.not_eq_true _ ▸ hskip)
          dsimp only
          split
          · exact hsent
          · exact ih hrest hsent

/-- Each recipient is sent to at most once, in order. -/
theorem sendAll_sublist : ∃ sends, (sendAll row env recipients p).1.sends = p.sends ++ sends ∧
    (sends.map Sent.subID).Sublist (recipients.map Recipient.subID) := by
  induction recipients generalizing p with
  | nil => exact ⟨[], (List.append_nil _).symm, List.Sublist.slnil⟩
  | cons r rest ih =>
      unfold sendAll
      split
      · obtain ⟨sends, hsends, hsub⟩ := ih
        exact ⟨sends, hsends, hsub.cons _⟩
      · dsimp only
        split
        · exact ⟨[_], rfl, (List.nil_sublist _).cons_cons _⟩
        · obtain ⟨sends, hsends, hsub⟩ := ih
          refine ⟨_ :: sends, hsends.trans (List.append_cons _ _ _).symm, hsub.cons_cons _⟩

/-- What is known of the loop's variables. -/
structure LoopInv (row : AlertRow) (recipients : List Recipient) (loaded : List UUID) (p : Progress) : Prop where
  emailOK : p.emailOK = true ↔ ∃ x ∈ p.sends, x.channel = .email ∧ x.ok = true
  tgOK : p.tgOK = true ↔ ∃ x ∈ p.sends, x.channel = .telegram ∧ x.ok = true
  sends : ∀ x ∈ p.sends, (∃ r ∈ recipients, x.subID = r.subID ∧ x.channel = r.channel) ∧
    row.delivered x.channel = false ∧ (x.channel = .webhook → x.subID ∉ loaded)
  recorded : ∀ x ∈ p.sends, x.recorded = true → x.channel = .webhook ∧ x.subID ∈ p.deliveries
  loadedHooks : ∀ id ∈ loaded, id ∈ p.sentHooks ∧ id ∈ p.deliveries
  sentHooks : ∀ id ∈ p.sentHooks, id ∈ p.deliveries
  deliveries : ∀ id ∈ p.deliveries, id ∈ loaded ∨ ∃ x ∈ p.sends, x.channel = .webhook ∧ x.ok = true ∧ x.subID = id

theorem LoopInv.start (row : AlertRow) (recipients : List Recipient) (loaded : List UUID) :
    LoopInv row recipients loaded (.start loaded) := by
  exact ⟨by simp [Progress.start], by simp [Progress.start], fun x hx => absurd hx List.not_mem_nil,
    fun x hx => absurd hx List.not_mem_nil, fun _ h => ⟨h, h⟩, fun _ h => h, fun _ h => Or.inl h⟩

theorem mem_sentHooks_sendTo {id : UUID} : id ∈ (sendTo env p r).1.sentHooks ↔
    (r.channel = .webhook ∧ env.send r.subID = .ok ∧ env.mark r.subID = .acked ∧ id = r.subID) ∨ id ∈ p.sentHooks := by
  simp only [sendTo]
  split
  · next hacked =>
      simp only [Bool.and_eq_true, decide_eq_true_eq] at hacked
      rw [List.mem_cons, hacked.1.1, hacked.1.2, hacked.2]
      simp only [true_and]
  · next hnot =>
      simp only [Bool.and_eq_true, decide_eq_true_eq] at hnot
      exact ⟨.inr, fun h => h.resolve_left fun ⟨hchannel, hok, hmark, _⟩ => hnot ⟨⟨hchannel, hok⟩, hmark⟩⟩

theorem mem_deliveries_sendTo {id : UUID} : id ∈ (sendTo env p r).1.deliveries ↔
    (r.channel = .webhook ∧ env.send r.subID = .ok ∧ env.mark r.subID ≠ .refused ∧ id = r.subID) ∨
      id ∈ p.deliveries := by
  simp only [sendTo]
  split
  · next hrecorded =>
      simp only [Bool.and_eq_true, decide_eq_true_eq] at hrecorded
      rw [List.mem_cons, hrecorded.1.1, hrecorded.1.2]
      simp only [true_and, ne_eq, hrecorded.2, not_false_eq_true]
  · next hnot =>
      simp only [Bool.and_eq_true, decide_eq_true_eq] at hnot
      exact ⟨.inr, fun h => h.resolve_left fun ⟨hchannel, hok, hmark, _⟩ => hnot ⟨⟨hchannel, hok⟩, hmark⟩⟩

theorem LoopInv.sendTo {loaded : List UUID} (h : LoopInv row recipients loaded p) (hr : r ∈ recipients)
    (hskip : skips row p.sentHooks r = false) : LoopInv row recipients loaded (sendTo env p r).1 := by
  refine ⟨?_, ?_, fun x hx => ?_, fun x hx hrecorded => ?_, fun id hid => ?_, fun id hid => ?_, fun id hid => ?_⟩
  · simp only [Alerts.sendTo, Bool.or_eq_true, h.emailOK, List.mem_append, List.mem_singleton, or_and_right, exists_or,
      exists_eq_left, Bool.and_eq_true, decide_eq_true_eq]
  · simp only [Alerts.sendTo, Bool.or_eq_true, h.tgOK, List.mem_append, List.mem_singleton, or_and_right, exists_or,
      exists_eq_left, Bool.and_eq_true, decide_eq_true_eq]
  · rcases List.mem_append.mp hx with hx | hx
    · exact h.sends x hx
    · obtain rfl := List.mem_singleton.mp hx
      refine ⟨⟨r, hr, rfl, rfl⟩, ?_, fun hwebhook hloaded => ?_⟩
      · unfold skips at hskip
        cases hchannel : r.channel <;> simp_all [AlertRow.delivered]
      · have hwebhook : r.channel = .webhook := hwebhook
        simp [skips, hwebhook, (h.loadedHooks r.subID hloaded).1] at hskip
  · rcases List.mem_append.mp hx with hx | hx
    · obtain ⟨hchannel, hmem⟩ := h.recorded x hx hrecorded
      exact ⟨hchannel, mem_deliveries_sendTo.mpr (.inr hmem)⟩
    · obtain rfl := List.mem_singleton.mp hx
      simp only [Bool.and_eq_true, decide_eq_true_eq] at hrecorded
      obtain ⟨⟨hchannel, hok⟩, hmark⟩ := hrecorded
      exact ⟨hchannel, mem_deliveries_sendTo.mpr (.inl ⟨hchannel, hok, hmark, rfl⟩)⟩
  · obtain ⟨hhook, hrow⟩ := h.loadedHooks id hid
    exact ⟨mem_sentHooks_sendTo.mpr (.inr hhook), mem_deliveries_sendTo.mpr (.inr hrow)⟩
  · rcases mem_sentHooks_sendTo.mp hid with ⟨hchannel, hok, hmark, rfl⟩ | hold
    · exact mem_deliveries_sendTo.mpr (.inl ⟨hchannel, hok, by rw [hmark]; decide, rfl⟩)
    · exact mem_deliveries_sendTo.mpr (.inr (h.sentHooks id hold))
  · rcases mem_deliveries_sendTo.mp hid with ⟨hchannel, hok, -, rfl⟩ | hold
    · exact .inr ⟨_, List.mem_append_right _ (List.mem_singleton_self _), hchannel, decide_eq_true hok, rfl⟩
    · exact (h.deliveries id hold).imp_right fun ⟨x, hx, hsent⟩ => ⟨x, List.mem_append_left _ hx, hsent⟩

theorem sendAll_inv (recipients : List Recipient) (loaded : List UUID) :
    LoopInv row recipients loaded (sendAll row env recipients (.start loaded)).1 :=
  sendAll_invariant (LoopInv row recipients loaded) (fun _ _ hr h hskip => h.sendTo hr hskip)
    (.start row recipients loaded)

end loop

/-- The loop of a run, or none of it. -/
def Ran (s : State) (recipients : List Recipient) (env : RunEnv) (p : Progress) : Prop :=
  p = .start s.deliveries ∨ p = (sendAll s.alert env recipients (.start s.deliveries)).1

/-- What a run that records its outcome makes of the alert. -/
structure Writes (s : State) (recipients : List Recipient) (env : RunEnv) (p : Progress) (a : AlertRow) : Prop where
  pending : s.alert.status = .pending
  matched : a.devicePK = s.alert.devicePK ∧ a.severity = s.alert.severity
  email : a.deliveredEmail = (s.alert.deliveredEmail || p.emailOK)
  telegram : a.deliveredTelegram = (s.alert.deliveredTelegram || p.tgOK)
  webhook : ∃ hook, a.deliveredWebhook = (s.alert.deliveredWebhook || hook) ∧
    (hook = true → hookOK s.alert p.sentHooks recipients = true)
  attempts : a.attempts = s.alert.attempts + if recipients.isEmpty then 0 else 1
  budget : a.status = .pending → a.attempts < env.cfg.maxAttempts
  delivered : a.status = .delivered → (needs s.alert s.deliveries recipients .email = true → p.emailOK = true) ∧
    (needs s.alert s.deliveries recipients .telegram = true → p.tgOK = true) ∧
    (needs s.alert s.deliveries recipients .webhook = true → hookOK s.alert p.sentHooks recipients = true)

/-- What a run does. -/
structure RunSpec (s : State) (recipients : List Recipient) (env : RunEnv) (s' : State) (r : Report) (p : Progress) :
    Prop where
  ran : Ran s recipients env p
  sends : (Event.run r).sends = p.sends
  same : s' = { s with alert := s'.alert, deliveries := p.deliveries }
  outcome : r.recorded = none ∧ s'.alert = s.alert ∨
    r.recorded.isSome = true ∧ r.recipients = recipients ∧ Writes s recipients env p s'.alert

section runs

variable {s : State} {env : RunEnv} {recipients : List Recipient} {p : Progress} {sent : DeliveryFlags}

theorem recordOutcome_spec (s : State) (write : Commit) (sent : DeliveryFlags) (status : Status) (attempts : Nat)
    (next : Option Time) {r : State × Option Status} (h : recordOutcome s write sent status attempts next = r) :
    r = (s, none) ∨ ∃ a, r = ({ s with alert := a }, some status) ∧ a.status = status ∧ a.attempts = attempts ∧
      (a.devicePK = s.alert.devicePK ∧ a.severity = s.alert.severity) ∧
      a.deliveredEmail = (s.alert.deliveredEmail || sent.email) ∧
      a.deliveredTelegram = (s.alert.deliveredTelegram || sent.telegram) ∧
      a.deliveredWebhook = (s.alert.deliveredWebhook || sent.webhook) := by
  subst h
  unfold recordOutcome
  split
  · exact Or.inl rfl
  · exact Or.inr ⟨_, rfl, rfl, rfl, ⟨rfl, rfl⟩, rfl, rfl, rfl⟩

/-- The outcome of a run is recorded, or is not. -/
def Records (s : State) (recipients : List Recipient) (env : RunEnv) (p : Progress) (r : State × Option Status) : Prop :=
  r = ({ s with deliveries := p.deliveries }, none) ∨
    ∃ a status, r = ({ s with alert := a, deliveries := p.deliveries }, some status) ∧ Writes s recipients env p a

theorem recordFailed_spec (hpending : s.alert.status = .pending) (hne : recipients ≠ [])
    (hemail : sent.email = p.emailOK) (htg : sent.telegram = p.tgOK)
    (hhook : sent.webhook = true → hookOK s.alert p.sentHooks recipients = true) :
    Records s recipients env p (recordFailed { s with deliveries := p.deliveries } env sent) := by
  have hwrites : ∀ a : AlertRow, a.attempts = s.alert.attempts + 1 →
      (a.devicePK = s.alert.devicePK ∧ a.severity = s.alert.severity) →
      a.deliveredEmail = (s.alert.deliveredEmail || sent.email) →
      a.deliveredTelegram = (s.alert.deliveredTelegram || sent.telegram) →
      a.deliveredWebhook = (s.alert.deliveredWebhook || sent.webhook) →
      (a.status = .pending → a.attempts < env.cfg.maxAttempts) → a.status ≠ .delivered → Writes s recipients env p a :=
    fun a hattempts hmatched he ht hw hbudget hdelivered =>
      ⟨hpending, hmatched, hemail ▸ he, htg ▸ ht, ⟨sent.webhook, hw, hhook⟩,
        by rw [hattempts, if_neg (by simpa using hne)], hbudget, fun h => absurd h hdelivered⟩
  unfold recordFailed
  dsimp only
  split
  · rcases recordOutcome_spec { s with deliveries := p.deliveries } env.write sent .dead _ none rfl with
      h | ⟨a, h, hstatus, hattempts, hmatched, he, ht, hw⟩
    · exact Or.inl h
    · refine Or.inr ⟨a, _, h, hwrites a hattempts hmatched he ht hw (fun hp => ?_) fun hd => ?_⟩
      · cases hstatus.symm.trans hp
      · cases hstatus.symm.trans hd
  · next hbudget =>
      rcases recordOutcome_spec { s with deliveries := p.deliveries } env.write sent .pending _ _ rfl with
        h | ⟨a, h, hstatus, hattempts, hmatched, he, ht, hw⟩
      · exact Or.inl h
      · refine Or.inr ⟨a, _, h, hwrites a hattempts hmatched he ht hw (fun _ => ?_) fun hd => ?_⟩
        · rw [hattempts]
          exact Nat.lt_of_not_le hbudget
        · cases hstatus.symm.trans hd

theorem recordRun_spec (hpending : s.alert.status = .pending) (hne : recipients ≠ []) :
    Records s recipients env p (recordRun { s with deliveries := p.deliveries } env recipients s.deliveries p) := by
  unfold recordRun
  dsimp only
  split
  · next hdone =>
      rcases recordOutcome_spec { s with deliveries := p.deliveries } env.write
          ⟨p.emailOK, p.tgOK, hookOK s.alert p.sentHooks recipients⟩ .delivered _ none rfl with
        h | ⟨a, h, hstatus, hattempts, hmatched, he, ht, hw⟩
      · exact Or.inl h
      · refine Or.inr ⟨a, _, h, hpending, hmatched, he, ht, ⟨_, hw, fun h => h⟩, ?_, fun hp => ?_, fun _ => ?_⟩
        · rw [hattempts, if_neg (by simpa using hne)]
        · cases hstatus.symm.trans hp
        · simp only [Bool.and_eq_true, Bool.or_eq_true, Bool.not_eq_true'] at hdone
          exact ⟨fun hneeds => hdone.1.1.resolve_left (by simp [hneeds]),
            fun hneeds => hdone.1.2.resolve_left (by simp [hneeds]),
            fun hneeds => hdone.2.resolve_left (by simp [hneeds])⟩
  · exact recordFailed_spec hpending hne rfl rfl fun h => h

/-- The spec of `Dispatch`. -/
theorem dispatch_spec (s : State) (recipients : List Recipient) (env : RunEnv) :
    ∃ p, RunSpec s recipients env (dispatch s recipients env).1 (dispatch s recipients env).2 p := by
  have hrecords : ∀ {p : Progress} {r : State × Option Status}, Ran s recipients env p → Records s recipients env p r →
      ∃ p', RunSpec s recipients env r.1 ⟨recipients, p.sends, r.2⟩ p' := by
    rintro p r hran (rfl | ⟨a, status, rfl, hwrites⟩)
    · exact ⟨p, hran, rfl, rfl, Or.inl ⟨rfl, rfl⟩⟩
    · exact ⟨p, hran, rfl, rfl, Or.inr ⟨rfl, rfl, hwrites⟩⟩
  unfold dispatch
  split
  · exact ⟨.start s.deliveries, Or.inl rfl, rfl, rfl, Or.inl ⟨rfl, rfl⟩⟩
  · next hgate =>
      rw [not_or, not_not] at hgate
      have hpending := hgate.2
      split
      · next hnil =>
          subst hnil
          dsimp only
          refine hrecords (p := .start s.deliveries) (Or.inl rfl) ?_
          rcases recordOutcome_spec s env.write ⟨false, false, false⟩ .none s.alert.attempts none rfl with
            h | ⟨a, h, hstatus, hattempts, hmatched, he, ht, hw⟩
          · exact Or.inl h
          · refine Or.inr ⟨a, _, h, hpending, hmatched, he, ht, ⟨false, hw, fun h => by cases h⟩, hattempts,
              fun hp => ?_, fun hd => ?_⟩
            · cases hstatus.symm.trans hp
            · cases hstatus.symm.trans hd
      · next hne =>
          split
          · exact hrecords (p := .start s.deliveries) (Or.inl rfl)
              (recordFailed_spec hpending hne rfl rfl fun h => by cases h)
          · split
            · exact ⟨.start s.deliveries, Or.inl rfl, rfl, rfl, Or.inl ⟨rfl, rfl⟩⟩
            · dsimp only
              refine hrecords (Or.inr rfl) ?_
              split
              · exact recordFailed_spec hpending hne rfl rfl fun h => by cases h
              · exact recordRun_spec hpending hne

end runs

/-- A subscription that has a delivery, or is gone. -/
def State.Spent (s : State) (id : UUID) : Prop := id ∈ s.deliveries ∨ id ∈ s.retired

def State.Fresh (s : State) : Prop := ∀ sub ∈ s.subscriptions, sub.id ∉ s.retired

section steps

variable {s s' : State} {a : Action} {e : Event} {env : RunEnv} {recipients : List Recipient} {p : Progress} {r : Report}
  {c : Channel}

theorem State.unsubscribe_spec (q : Subscription → Bool) (h : s.Fresh) :
    (s.unsubscribe q).Fresh ∧ ∀ id, s.Spent id → (s.unsubscribe q).Spent id := by
  refine ⟨fun sub hsub hretired => ?_, fun id hid => ?_⟩
  · obtain ⟨hmem, hkept⟩ := KeyedTable.mem_deleteWhere.mp hsub
    rcases List.mem_append.mp hretired with hgone | hold
    · obtain ⟨sub', hsub', hid⟩ := List.mem_map.mp hgone
      obtain ⟨hmem', hq⟩ := List.mem_filter.mp hsub'
      rw [KeyedTable.eq_of_key (KeyedTable.mem_rows.mp hmem') hmem hid, hkept] at hq
      cases hq
    · exact h sub hmem hold
  · by_cases hgone : id ∈ (s.subscriptions.rows.filter q).map Subscription.id
    · exact Or.inr (List.mem_append_left _ hgone)
    · rcases hid with hid | hid
      · exact Or.inl (List.mem_filter.mpr ⟨hid, decide_eq_true hgone⟩)
      · exact Or.inr (List.mem_append_right _ hid)

theorem stepDispatch_spec (h : stepDispatch s recipients env = some (s', e)) :
    recipients.Perm s.loadRecipients ∧ ∃ p r, e = .run r ∧ RunSpec s recipients env s' r p := by
  unfold stepDispatch at h
  split at h
  · next hperm =>
      obtain ⟨rfl, rfl⟩ := Prod.mk.inj (Option.some.inj h)
      obtain ⟨p, hspec⟩ := dispatch_spec s recipients env
      exact ⟨hperm, p, _, rfl, hspec⟩
  · cases h

/-- A step is a run, or leaves the alert alone. -/
theorem step_cases (hfresh : s.Fresh) (h : step s a = some (s', e)) :
    (a.env = none ∧ e = .changed ∧ s'.alert = s.alert ∧ s'.Fresh ∧ ∀ id, s.Spent id → s'.Spent id) ∨
      ∃ recipients env p r, a.env = some env ∧ recipients.Perm s.loadRecipients ∧ e = .run r ∧
        RunSpec s recipients env s' r p := by
  cases a with
  | subscribe sub =>
      simp only [step] at h
      split at h
      · next hnew =>
          obtain ⟨rfl, rfl⟩ := Prod.mk.inj (Option.some.inj h)
          refine Or.inl ⟨rfl, rfl, rfl, fun sub' hsub' => ?_, fun _ hid => hid⟩
          rcases (KeyedTable.mem_insert hnew.1).mp hsub' with hsub' | rfl
          · exact hfresh sub' hsub'
          · exact hnew.2
      · cases h
  | unsubscribe id =>
      obtain ⟨rfl, rfl⟩ := Prod.mk.inj (Option.some.inj h)
      exact Or.inl ⟨rfl, rfl, rfl, State.unsubscribe_spec _ hfresh⟩
  | setContact user contact =>
      obtain ⟨rfl, rfl⟩ := Prod.mk.inj (Option.some.inj h)
      exact Or.inl ⟨rfl, rfl, rfl, hfresh, fun _ hid => hid⟩
  | deleteUser user =>
      obtain ⟨rfl, rfl⟩ := Prod.mk.inj (Option.some.inj h)
      exact Or.inl ⟨rfl, rfl, rfl, State.unsubscribe_spec _ hfresh⟩
  | dispatch recipients env =>
      obtain ⟨hperm, p, r, he, hspec⟩ := stepDispatch_spec h
      exact Or.inr ⟨recipients, env, p, r, rfl, hperm, he, hspec⟩
  | sweep now recipients env =>
      simp only [step] at h
      split at h
      · obtain ⟨hperm, p, r, he, hspec⟩ := stepDispatch_spec h
        exact Or.inr ⟨recipients, env, p, r, rfl, hperm, he, hspec⟩
      · cases h

/-- The recipient of a subscription carries its id. -/
theorem map_filterMap_sublist {α β κ : Type*} {f : α → Option β} {g : β → κ} {k : α → κ}
    (h : ∀ x y, f x = some y → g y = k x) (l : List α) : ((l.filterMap f).map g).Sublist (l.map k) := by
  induction l with
  | nil => exact List.Sublist.slnil
  | cons x l ih =>
      cases hx : f x with
      | none =>
          rw [List.filterMap_cons_none hx]
          exact ih.cons _
      | some y =>
          rw [List.filterMap_cons_some hx, List.map_cons, List.map_cons, h x y hx]
          exact ih.cons_cons _

theorem loadRecipients_sublist (s : State) :
    (s.loadRecipients.map Recipient.subID).Sublist (s.subscriptions.rows.map Subscription.id) := by
  refine map_filterMap_sublist (fun sub x hx => ?_) _
  obtain ⟨u, -, hx⟩ := Option.bind_eq_some_iff.mp hx
  split at hx
  · obtain rfl := Option.some.inj hx
    rfl
  · cases hx

/-- A subscription is a recipient at most once. -/
theorem nodup_subIDs (hperm : recipients.Perm s.loadRecipients) : (recipients.map Recipient.subID).Nodup :=
  ((hperm.map Recipient.subID).nodup_iff).mpr ((loadRecipients_sublist s).nodup s.subscriptions.nodup)

theorem not_retired_of_mem (hfresh : s.Fresh) (hperm : recipients.Perm s.loadRecipients) {x : Recipient}
    (hx : x ∈ recipients) : x.subID ∉ s.retired := by
  have hmem := (loadRecipients_sublist s).subset (List.mem_map_of_mem (hperm.subset hx))
  obtain ⟨sub, hsub, hid⟩ := List.mem_map.mp hmem
  rw [← hid]
  exact hfresh sub hsub

theorem Ran.inv (h : Ran s recipients env p) : LoopInv s.alert recipients s.deliveries p := by
  rcases h with rfl | rfl
  · exact .start _ _ _
  · exact sendAll_inv _ _

theorem Ran.nodup (h : Ran s recipients env p) (hnodup : (recipients.map Recipient.subID).Nodup) :
    (p.sends.map Sent.subID).Nodup := by
  rcases h with rfl | rfl
  · exact List.nodup_nil
  · obtain ⟨sends, hsends, hsub⟩ : ∃ sends, (sendAll s.alert env recipients (.start s.deliveries)).1.sends = [] ++ sends ∧
        (sends.map Sent.subID).Sublist (recipients.map Recipient.subID) := sendAll_sublist
    rw [hsends]
    exact hsub.nodup hnodup

/-- What a run does to the status, the attempts and the marks. -/
theorem RunSpec.advances (h : RunSpec s recipients env s' r p) (henv : a.env = some env) :
    Advances s a s' (.run r) := by
  rcases h.outcome with ⟨hnone, hsame⟩ | ⟨hsome, hrecipients, hwrites⟩
  · refine ⟨fun _ => by rw [hsame], ?_, fun env' _ hrecorded => ?_, fun c hc => by rw [hsame]; exact hc⟩
    · rw [hsame, Event.isAttempt, hnone]
      rfl
    · rw [Event.isRecorded, hnone] at hrecorded
      cases hrecorded
  · refine ⟨fun hne => absurd hwrites.pending hne, ?_, fun env' henv' _ hpending => ?_, fun c hc => ?_⟩
    · rw [hwrites.attempts, Event.isAttempt, hsome, hrecipients]
      cases recipients.isEmpty <;> rfl
    · obtain rfl := Option.some.inj (henv.symm.trans henv')
      exact hwrites.budget hpending
    · cases c with
      | email =>
          have hemail : s.alert.deliveredEmail = true := hc
          rw [AlertRow.delivered, hwrites.email, hemail, Bool.true_or]
      | telegram =>
          have htg : s.alert.deliveredTelegram = true := hc
          rw [AlertRow.delivered, hwrites.telegram, htg, Bool.true_or]
      | webhook =>
          have hhook : s.alert.deliveredWebhook = true := hc
          obtain ⟨hook, hw, -⟩ := hwrites.webhook
          rw [AlertRow.delivered, hw, hhook, Bool.true_or]

/-- A recorded run marks the email and the telegram channel if it has sent on it. -/
theorem RunSpec.marks (h : RunSpec s recipients env s' r p) (hc : c ≠ .webhook) (hrecorded : r.recorded.isSome = true)
    (hsucceeds : (Event.run r).succeeds c = true) : s'.alert.delivered c = true := by
  rcases h.outcome with ⟨hnone, -⟩ | ⟨-, -, hwrites⟩
  · rw [hnone] at hrecorded
    cases hrecorded
  · obtain ⟨x, hx, hsent⟩ := List.any_eq_true.mp hsucceeds
    obtain ⟨hchannel, hok⟩ := Bool.and_eq_true_iff.mp hsent
    rw [h.sends] at hx
    cases c with
    | email =>
        have hemail : p.emailOK = true := h.ran.inv.emailOK.mpr ⟨x, hx, of_decide_eq_true hchannel, hok⟩
        rw [AlertRow.delivered, hwrites.email, hemail, Bool.or_true]
    | telegram =>
        have htg : p.tgOK = true := h.ran.inv.tgOK.mpr ⟨x, hx, of_decide_eq_true hchannel, hok⟩
        rw [AlertRow.delivered, hwrites.telegram, htg, Bool.or_true]
    | webhook => exact absurd rfl hc

theorem RunSpec.tries_eq_false (h : RunSpec s recipients env s' r p) (hmarked : s.alert.delivered c = true) :
    (Event.run r).tries c = false := by
  refine List.any_eq_false.mpr fun x hx hchannel => ?_
  rw [h.sends] at hx
  have hunmarked := (h.ran.inv.sends x hx).2.1
  rw [of_decide_eq_true hchannel, hmarked] at hunmarked
  cases hunmarked

/-- A webhook is posted only if its subscription is not spent, and spends it when it is recorded. -/
theorem RunSpec.spent (h : RunSpec s recipients env s' r p) (hfresh : s.Fresh)
    (hperm : recipients.Perm s.loadRecipients) {x : Sent} (hx : x ∈ p.sends) :
    (x.channel = .webhook → ¬ s.Spent x.subID) ∧ (x.recorded = true → s'.Spent x.subID) := by
  obtain ⟨⟨y, hy, hid, -⟩, -, hloaded⟩ := h.ran.inv.sends x hx
  refine ⟨fun hchannel hspent => hspent.elim (hloaded hchannel) ?_, fun hrecorded => ?_⟩
  · rw [hid]
    exact not_retired_of_mem hfresh hperm hy
  · rw [h.same]
    exact Or.inl (h.ran.inv.recorded x hx hrecorded).2

theorem RunSpec.spent_mono (h : RunSpec s recipients env s' r p) {id : UUID} (hid : s.Spent id) : s'.Spent id := by
  rw [h.same]
  exact hid.imp_left fun hid => (h.ran.inv.loadedHooks id hid).2

theorem RunSpec.fresh (h : RunSpec s recipients env s' r p) (hfresh : s.Fresh) : s'.Fresh := by
  rw [h.same]
  exact hfresh

end steps

/-- What the state remembers of the run: its marks, and its spent subscriptions. -/
structure Inv (s₀ : State) (log : List Event) (s : State) : Prop where
  fresh : s.Fresh
  marked : ∀ c, c ≠ .webhook → (s₀.alert.delivered c = true ∨ ∃ e ∈ log, e.isRecorded = true ∧ e.succeeds c = true) →
    s.alert.delivered c = true
  spent : ∀ id, (id ∈ s₀.deliveries ∨ ∃ x ∈ posts log, x.recorded = true ∧ x.subID = id) → s.Spent id
  once : SentOnce s₀ log

section lifecycle

variable {s₀ s s' : State} {log : List Event} {a : Action} {e : Event}

theorem posts_snoc : posts (log ++ [e]) = posts log ++ e.sends := by
  rw [posts, List.flatMap_append, List.flatMap_singleton]
  rfl

theorem SentOnce.snoc (h : SentOnce s₀ log)
    (hmarked : ∀ c, c ≠ .webhook →
      (s₀.alert.delivered c = true ∨ ∃ e ∈ log, e.isRecorded = true ∧ e.succeeds c = true) → e.tries c = false)
    (hspent : ∀ x ∈ e.sends, x.channel = .webhook →
      ¬ (x.subID ∈ s₀.deliveries ∨ ∃ y ∈ posts log, y.recorded = true ∧ y.subID = x.subID))
    (hnodup : (e.sends.map Sent.subID).Nodup) : SentOnce s₀ (log ++ [e]) := by
  refine ⟨fun c hc hstart e' he' => ?_, ?_, ?_, ?_⟩
  · rcases List.mem_append.mp he' with he' | he'
    · exact h.marked c hc hstart e' he'
    · obtain rfl := List.mem_singleton.mp he'
      exact hmarked c hc (Or.inl hstart)
  · rw [List.pairwise_append]
    refine ⟨h.channels, List.pairwise_singleton _ _, fun e' he' e'' he'' c hc hrecorded hsucceeds => ?_⟩
    obtain rfl := List.mem_singleton.mp he''
    exact hmarked c hc (Or.inr ⟨e', he', hrecorded, hsucceeds⟩)
  · intro x hx hchannel hid
    rw [posts_snoc] at hx
    rcases List.mem_append.mp hx with hx | hx
    · exact h.listed x hx hchannel hid
    · exact hspent x hx hchannel (Or.inl hid)
  · rw [posts_snoc, List.pairwise_append]
    refine ⟨h.webhooks, ?_, fun x hx y hy hrecorded hchannel hid => ?_⟩
    · exact (List.pairwise_map.mp hnodup).imp fun hne _ _ => hne.symm
    · exact hspent y hy hchannel (Or.inr ⟨x, hx, hrecorded, hid.symm⟩)

theorem Inv.step_spec (h : Inv s₀ log s) (hstep : step s a = some (s', e)) :
    Inv s₀ (log ++ [e]) s' ∧ Advances s a s' e := by
  rcases step_cases h.fresh hstep with
    ⟨-, rfl, halert, hfresh, hspent⟩ | ⟨recipients, env, p, r, henv, hperm, rfl, hrun⟩
  · refine ⟨⟨hfresh, fun c hc hmark => ?_, fun id hid => hspent id (h.spent id ?_), ?_⟩, ?_⟩
    · rw [halert]
      refine h.marked c hc (hmark.imp_right fun ⟨e, he, hrecorded, hsucceeds⟩ => ⟨e, ?_, hrecorded, hsucceeds⟩)
      rcases List.mem_append.mp he with he | he
      · exact he
      · rw [List.mem_singleton.mp he] at hrecorded
        cases hrecorded
    · rw [posts_snoc] at hid
      simpa [Event.sends] using hid
    · exact h.once.snoc (fun _ _ _ => rfl) (fun x hx => absurd hx List.not_mem_nil) List.nodup_nil
    · exact ⟨fun _ => by rw [halert], by rw [halert]; rfl, (fun _ _ hrecorded => by cases hrecorded),
        fun c hc => by rw [halert]; exact hc⟩
  · have hadvances := hrun.advances henv
    refine ⟨⟨hrun.fresh h.fresh, fun c hc hmark => ?_, fun id hid => ?_, ?_⟩, hadvances⟩
    · rcases hmark with hstart | ⟨e, he, hrecorded, hsucceeds⟩
      · exact hadvances.marks c (h.marked c hc (Or.inl hstart))
      · rcases List.mem_append.mp he with he | he
        · exact hadvances.marks c (h.marked c hc (Or.inr ⟨e, he, hrecorded, hsucceeds⟩))
        · obtain rfl := List.mem_singleton.mp he
          exact hrun.marks hc hrecorded hsucceeds
    · rcases hid with hstart | ⟨x, hx, hrecorded, rfl⟩
      · exact hrun.spent_mono (h.spent id (Or.inl hstart))
      · rw [posts_snoc] at hx
        rcases List.mem_append.mp hx with hx | hx
        · exact hrun.spent_mono (h.spent _ (Or.inr ⟨x, hx, hrecorded, rfl⟩))
        · rw [hrun.sends] at hx
          exact (hrun.spent h.fresh hperm hx).2 hrecorded
    · refine h.once.snoc (fun c hc hmark => hrun.tries_eq_false (h.marked c hc hmark)) (fun x hx hchannel hid => ?_) ?_
      · rw [hrun.sends] at hx
        exact (hrun.spent h.fresh hperm hx).1 hchannel (h.spent x.subID hid)
      · rw [hrun.sends]
        exact hrun.ran.nodup (nodup_subIDs hperm)

theorem inv_start (hfresh : s₀.Fresh) : Inv s₀ [] s₀ := by
  refine ⟨hfresh, fun c _ hmark => ?_, fun id hid => ?_, fun _ _ _ _ he => absurd he List.not_mem_nil, .nil,
    fun _ hx => absurd hx List.not_mem_nil, .nil⟩
  · exact hmark.resolve_right fun ⟨_, he, _⟩ => absurd he List.not_mem_nil
  · exact Or.inl (hid.resolve_right fun ⟨_, hx, _⟩ => absurd hx List.not_mem_nil)

/-- The life of an alert under any runs, with any outcomes, and any changes of subscriptions between them. -/
theorem alert_lifecycle {alert : AlertRow} {subscriptions : KeyedTable Subscription.id} {users : UUID → Option Contact}
    {deliveries : List UUID} (hrun : system.Run (start alert subscriptions users deliveries) log s) :
    SentOnce (start alert subscriptions users deliveries) log ∧
      ∀ a s' e, step s a = some (s', e) → Advances s a s' e := by
  have hinv : Inv (start alert subscriptions users deliveries) log s :=
    hrun.invariant (Inv _) (inv_start fun _ _ => List.not_mem_nil)
      fun _ _ _ _ _ hinv _ hstep => (hinv.step_spec hstep).1
  exact ⟨hinv.once, fun _ _ _ hstep => (hinv.step_spec hstep).2⟩

end lifecycle

/-- A run of which every write lands, and in which the sends to these subscriptions fail. -/
def failing (ids : List UUID) : RunEnv where
  cfg := ⟨5, seconds 60⟩
  loads := true
  renders := true
  encodes := true
  send id := if id ∈ ids then .failed else .ok
  mark _ := .acked
  write := .acked
  appNow := seconds 60

/-- A critical alert that was never sent. -/
def newAlert : AlertRow := ⟨5, .crit, false, false, false, .pending, 0, 0⟩

def oneUser : UUID → Option Contact := Function.update (fun _ => none) 7 (some ⟨"u@acme.test", none⟩)

/-- One user, by email and by webhook. -/
def emailAndHook : KeyedTable Subscription.id :=
  ⟨[⟨1, 7, none, .email, .warn, none⟩, ⟨2, 7, some 5, .webhook, .info, some "https://hooks.acme.test/a"⟩], by decide⟩

/-- The webhook fails, a second email subscription is made, and the retry posts the webhook alone. -/
def retriedHook : List Action :=
  let email : Recipient := ⟨1, 7, .email, "u@acme.test", none, none⟩
  let hook : Recipient := ⟨2, 7, .webhook, "u@acme.test", none, some "https://hooks.acme.test/a"⟩
  [.dispatch [hook, email] (failing [2]), .subscribe ⟨3, 7, some 5, .email, .warn, none⟩,
    .sweep (seconds 180) [⟨3, 7, .email, "u@acme.test", none, none⟩, email, hook] (failing [])]

theorem retriedHook_runs :
    (system.execIf (fun _ _ _ => True) [] (start newAlert emailAndHook oneUser []) retriedHook).any
      (fun r => decide (r.2.alert.status = .delivered) && decide (r.2.alert.attempts = 2) &&
        decide ((posts r.1).countP (fun x => x.channel = .email) = 1)) = true := by
  decide +kernel

theorem retriedHook_lifecycle : ∃ log s, system.Run (start newAlert emailAndHook oneUser []) log s ∧
    SentOnce (start newAlert emailAndHook oneUser []) log ∧ s.alert.status = .delivered ∧ s.alert.attempts = 2 := by
  obtain ⟨log, s, hrun, htest⟩ := Machine.exists_runIf_of_any retriedHook_runs
  obtain ⟨hdelivered, hattempts⟩ := Bool.and_eq_true_iff.mp (Bool.and_eq_true_iff.mp htest).1
  exact ⟨log, s, hrun, (alert_lifecycle hrun).1, of_decide_eq_true hdelivered, of_decide_eq_true hattempts⟩

end ThesadaApp.Alerts
