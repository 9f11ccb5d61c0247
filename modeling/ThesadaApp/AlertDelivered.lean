import ThesadaApp.AlertLifecycle

/-!
What a delivered alert has reached. A webhook is remembered for each subscription, email and telegram for the alert:
once one send of the channel succeeds, its other recipients are not tried again.
-/

namespace ThesadaApp.Alerts

/-- Only runs: the subscriptions stay as they are. -/
def OnlyRuns (_log : List Event) (_s : State) (a : Action) : Prop := a.env ≠ none

instance (log : List Event) (s : State) (a : Action) : Decidable (OnlyRuns log s a) :=
  inferInstanceAs (Decidable (a.env ≠ none))

/-- A send to the recipient that succeeded. -/
def Reached (log : List Event) (r : Recipient) : Prop :=
  ∃ x ∈ posts log, x.subID = r.subID ∧ x.channel = r.channel ∧ x.ok = true

/-- Every webhook was reached, and of each other channel that has a subscription at least one recipient. -/
structure ReachedChannels (recipients : List Recipient) (log : List Event) : Prop where
  webhooks : ∀ r ∈ recipients, r.channel = .webhook → Reached log r
  channels : ∀ c, c ≠ .webhook → (∃ r ∈ recipients, r.channel = c) → ∃ r ∈ recipients, r.channel = c ∧ Reached log r

/-- What the state remembers of the sends. -/
structure Remembered (s₀ : State) (log : List Event) (s : State) : Prop where
  same : s.subscriptions = s₀.subscriptions ∧ s.users = s₀.users ∧ s.alert.devicePK = s₀.alert.devicePK ∧
    s.alert.severity = s₀.alert.severity
  marked : ∀ c, c ≠ .webhook → s.alert.delivered c = true → ∃ r ∈ s₀.loadRecipients, r.channel = c ∧ Reached log r
  hookMarked : s.alert.deliveredWebhook = true → ∀ r ∈ s₀.loadRecipients, r.channel = .webhook → Reached log r
  deliveries : ∀ id ∈ s.deliveries, ∃ x ∈ posts log, x.subID = id ∧ x.channel = .webhook ∧ x.ok = true
  delivered : s.alert.status = .delivered → ReachedChannels s₀.loadRecipients log

section delivered

variable {s₀ s s' : State} {log : List Event} {a : Action} {e : Event} {env : RunEnv} {recipients : List Recipient}
  {p : Progress} {r : Report} {c : Channel}

theorem Reached.snoc {x : Recipient} (h : Reached log x) (e : Event) : Reached (log ++ [e]) x := by
  obtain ⟨y, hy, hsent⟩ := h
  exact ⟨y, by rw [posts_snoc]; exact List.mem_append_left _ hy, hsent⟩

theorem ReachedChannels.snoc (h : ReachedChannels recipients log) (e : Event) :
    ReachedChannels recipients (log ++ [e]) :=
  ⟨fun r hr hc => (h.webhooks r hr hc).snoc e,
    fun c hc hex => (h.channels c hc hex).imp fun _ hr => ⟨hr.1, hr.2.1, hr.2.2.snoc e⟩⟩

theorem Remembered.loadRecipients_eq (h : Remembered s₀ log s) : s.loadRecipients = s₀.loadRecipients := by
  unfold State.loadRecipients
  rw [h.same.1, h.same.2.1, h.same.2.2.1, h.same.2.2.2]

/-- A send of the run that succeeded reached a recipient of its channel. -/
theorem RunSpec.reached (h : RunSpec s recipients env s' r p) (hperm : recipients.Perm s₀.loadRecipients) {x : Sent}
    (hx : x ∈ p.sends) (hok : x.ok = true) (hc : x.channel = c) :
    ∃ y ∈ s₀.loadRecipients, y.channel = c ∧ Reached (log ++ [.run r]) y := by
  obtain ⟨⟨y, hy, hid, hchannel⟩, -⟩ := h.ran.inv.sends x hx
  refine ⟨y, hperm.subset hy, hchannel.symm.trans hc, x, ?_, hid, hchannel, hok⟩
  rw [posts_snoc, h.sends]
  exact List.mem_append_right _ hx

/-- A row of the run is of a webhook that was reached, before or in it. -/
theorem Remembered.deliveries_run (h : Remembered s₀ log s) (hrun : RunSpec s recipients env s' r p) {id : UUID}
    (hid : id ∈ p.deliveries) :
    ∃ x ∈ posts (log ++ [.run r]), x.subID = id ∧ x.channel = .webhook ∧ x.ok = true := by
  rw [posts_snoc, hrun.sends]
  rcases hrun.ran.inv.deliveries id hid with hold | ⟨x, hx, hchannel, hok, hid⟩
  · obtain ⟨x, hx, hsent⟩ := h.deliveries id hold
    exact ⟨x, List.mem_append_left _ hx, hsent⟩
  · exact ⟨x, List.mem_append_right _ hx, hid, hchannel, hok⟩

/-- If the run finds all its webhooks done, all of them are reached. -/
theorem Remembered.webhooks_run (h : Remembered s₀ log s) (hrun : RunSpec s recipients env s' r p)
    (hperm : recipients.Perm s₀.loadRecipients) (hhook : hookOK s.alert p.sentHooks recipients = true) :
    ∀ y ∈ s₀.loadRecipients, y.channel = .webhook → Reached (log ++ [.run r]) y := by
  intro y hy hchannel
  have hall := (Bool.and_eq_true_iff.mp hhook).2
  have hdone := List.all_eq_true.mp hall y
    (List.mem_filter.mpr ⟨hperm.mem_iff.mpr hy, decide_eq_true hchannel⟩)
  rcases Bool.or_eq_true_iff.mp hdone with hsent | hmarked
  · obtain ⟨x, hx, hid, hwebhook, hok⟩ :=
      h.deliveries_run hrun (hrun.ran.inv.sentHooks y.subID (of_decide_eq_true hsent))
    exact ⟨x, hx, hid, hwebhook.trans hchannel.symm, hok⟩
  · exact (h.hookMarked hmarked y hy hchannel).snoc _

/-- An alert that the run delivers. -/
theorem Remembered.delivered_run (h : Remembered s₀ log s) (hrun : RunSpec s recipients env s' r p)
    (hperm : recipients.Perm s₀.loadRecipients) (hwrites : Writes s recipients env p s'.alert)
    (hdelivered : s'.alert.status = .delivered) : ReachedChannels s₀.loadRecipients (log ++ [.run r]) := by
  obtain ⟨hemail, htg, hhook⟩ := hwrites.delivered hdelivered
  refine ⟨fun y hy hchannel => ?_, fun c hc ⟨y, hy, hchannel⟩ => ?_⟩
  · by_cases hneeds : needs s.alert s.deliveries recipients .webhook = true
    · exact h.webhooks_run hrun hperm (hhook hneeds) y hy hchannel
    · have hdone := List.any_eq_false.mp (Bool.not_eq_true _ ▸ hneeds) y (hperm.mem_iff.mpr hy)
      simp only [hchannel, decide_true, Bool.true_and, Bool.not_eq_true', Bool.not_eq_false, Bool.or_eq_true,
        decide_eq_true_eq] at hdone
      rcases hdone with hmarked | hloaded
      · exact (h.hookMarked hmarked y hy hchannel).snoc _
      · obtain ⟨x, hx, hid, hwebhook, hok⟩ := h.deliveries y.subID hloaded
        exact Reached.snoc ⟨x, hx, hid, hwebhook.trans hchannel.symm, hok⟩ _
  · by_cases hmarked : s.alert.delivered c = true
    · exact (h.marked c hc hmarked).imp fun _ hz => ⟨hz.1, hz.2.1, hz.2.2.snoc _⟩
    · rw [Bool.not_eq_true] at hmarked
      have hneeds : needs s.alert s.deliveries recipients c = true := by
        refine List.any_eq_true.mpr ⟨y, hperm.mem_iff.mpr hy, ?_⟩
        cases c with
        | email => simp [hchannel, show s.alert.deliveredEmail = false from hmarked]
        | telegram => simp [hchannel, show s.alert.deliveredTelegram = false from hmarked]
        | webhook => exact absurd rfl hc
      cases c with
      | email =>
          obtain ⟨x, hx, hsent, hok⟩ := hrun.ran.inv.emailOK.mp (hemail hneeds)
          exact hrun.reached hperm hx hok hsent
      | telegram =>
          obtain ⟨x, hx, hsent, hok⟩ := hrun.ran.inv.tgOK.mp (htg hneeds)
          exact hrun.reached hperm hx hok hsent
      | webhook => exact absurd rfl hc

/-- A run that marks email or telegram has reached a recipient of it, unless it was marked before. -/
theorem Remembered.marked_run (h : Remembered s₀ log s) (hrun : RunSpec s recipients env s' r p)
    (hperm : recipients.Perm s₀.loadRecipients) (hwrites : Writes s recipients env p s'.alert) (hc : c ≠ .webhook)
    (hmarked : s'.alert.delivered c = true) :
    ∃ y ∈ s₀.loadRecipients, y.channel = c ∧ Reached (log ++ [.run r]) y := by
  have hbefore : s.alert.delivered c = true → ∃ y ∈ s₀.loadRecipients, y.channel = c ∧ Reached (log ++ [.run r]) y :=
    fun hbefore => (h.marked c hc hbefore).imp fun _ hy => ⟨hy.1, hy.2.1, hy.2.2.snoc _⟩
  cases c with
  | email =>
      rw [AlertRow.delivered, hwrites.email, Bool.or_eq_true] at hmarked
      rcases hmarked with hmarked | hok
      · exact hbefore hmarked
      · obtain ⟨x, hx, hsent, hok⟩ := hrun.ran.inv.emailOK.mp hok
        exact hrun.reached hperm hx hok hsent
  | telegram =>
      rw [AlertRow.delivered, hwrites.telegram, Bool.or_eq_true] at hmarked
      rcases hmarked with hmarked | hok
      · exact hbefore hmarked
      · obtain ⟨x, hx, hsent, hok⟩ := hrun.ran.inv.tgOK.mp hok
        exact hrun.reached hperm hx hok hsent
  | webhook => exact absurd rfl hc

theorem Remembered.run (h : Remembered s₀ log s) (hrun : RunSpec s recipients env s' r p)
    (hperm : recipients.Perm s₀.loadRecipients) : Remembered s₀ (log ++ [.run r]) s' := by
  have hsame := hrun.same
  have hdeliveries : ∀ id ∈ s'.deliveries, ∃ x ∈ posts (log ++ [.run r]), x.subID = id ∧ x.channel = .webhook ∧
      x.ok = true := by
    rw [hsame]
    exact fun id hid => h.deliveries_run hrun hid
  have hsubs : s'.subscriptions = s.subscriptions ∧ s'.users = s.users := by
    rw [hsame]
    exact ⟨rfl, rfl⟩
  rcases hrun.outcome with ⟨-, halert⟩ | ⟨-, -, hwrites⟩
  · refine ⟨?_, fun c hc hmarked => ?_, fun hmarked y hy hchannel => ?_, hdeliveries, fun hdelivered => ?_⟩
    · rw [hsubs.1, hsubs.2, halert]
      exact h.same
    · rw [halert] at hmarked
      exact (h.marked c hc hmarked).imp fun _ hy => ⟨hy.1, hy.2.1, hy.2.2.snoc _⟩
    · rw [halert] at hmarked
      exact (h.hookMarked hmarked y hy hchannel).snoc _
    · rw [halert] at hdelivered
      exact (h.delivered hdelivered).snoc _
  · refine ⟨?_, fun c hc => h.marked_run hrun hperm hwrites hc, fun hmarked => ?_, hdeliveries,
      h.delivered_run hrun hperm hwrites⟩
    · rw [hsubs.1, hsubs.2, hwrites.matched.1, hwrites.matched.2]
      exact h.same
    · obtain ⟨hook, hw, hok⟩ := hwrites.webhook
      rw [hw, Bool.or_eq_true] at hmarked
      rcases hmarked with hmarked | hhook
      · exact fun y hy hchannel => (h.hookMarked hmarked y hy hchannel).snoc _
      · exact h.webhooks_run hrun hperm (hok hhook)

/-- If an alert that was new becomes delivered, under the same subscriptions all along, every webhook was reached, and
of email and of telegram some recipient. -/
theorem delivered_reaches {subscriptions : KeyedTable Subscription.id} {users : UUID → Option Contact}
    {alert : AlertRow} (hnew : alert.status = .pending ∧ ∀ c, alert.delivered c = false)
    (hrun : system.RunIf OnlyRuns (start alert subscriptions users []) log s)
    (hdelivered : s.alert.status = .delivered) :
    ReachedChannels (start alert subscriptions users []).loadRecipients log := by
  have hremembered : s.Fresh ∧ Remembered (start alert subscriptions users []) log s := by
    refine hrun.invariant (fun log s => s.Fresh ∧ Remembered (start alert subscriptions users []) log s) ?_
      fun log s a s' e ⟨hfresh, h⟩ hok hstep => ?_
    · refine ⟨fun _ _ => List.not_mem_nil, ⟨rfl, rfl, rfl, rfl⟩, fun c _ hmarked => ?_, fun hmarked => ?_,
        fun _ h => absurd h List.not_mem_nil, fun hstatus => ?_⟩
      · cases (hnew.2 c).symm.trans hmarked
      · cases (hnew.2 .webhook).symm.trans hmarked
      · cases hnew.1.symm.trans hstatus
    · rcases step_cases hfresh hstep with ⟨hnone, -⟩ | ⟨recipients, env, p, r, -, hperm, rfl, hspec⟩
      · exact absurd hnone hok
      · rw [h.loadRecipients_eq] at hperm
        exact ⟨hspec.fresh hfresh, h.run hspec hperm⟩
  exact hremembered.2.delivered hdelivered

end delivered

theorem retriedOnly_runs : (system.execIf OnlyRuns [] (start newAlert emailAndHook oneUser [])
    [.dispatch (start newAlert emailAndHook oneUser []).loadRecipients (failing [2]),
      .sweep (seconds 180) (start newAlert emailAndHook oneUser []).loadRecipients (failing [])]).any
    (fun r => decide (r.2.alert.status = .delivered)) = true := by
  decide +kernel

theorem retriedOnly_reaches : ∃ log s, system.RunIf OnlyRuns (start newAlert emailAndHook oneUser []) log s ∧
    s.alert.status = .delivered ∧ ReachedChannels (start newAlert emailAndHook oneUser []).loadRecipients log := by
  obtain ⟨log, s, hrun, htest⟩ := Machine.exists_runIf_of_any retriedOnly_runs
  exact ⟨log, s, hrun, of_decide_eq_true htest,
    delivered_reaches ⟨rfl, fun c => by cases c <;> rfl⟩ hrun (of_decide_eq_true htest)⟩

/-- Two users, each by email. -/
def twoEmails : KeyedTable Subscription.id :=
  ⟨[⟨1, 7, none, .email, .warn, none⟩, ⟨2, 8, none, .email, .warn, none⟩], by decide⟩

def twoUsers : UUID → Option Contact := Function.update oneUser 8 (some ⟨"v@acme.test", none⟩)

theorem oneEmailFails_runs : (system.execIf OnlyRuns [] (start newAlert twoEmails twoUsers [])
    [.dispatch (start newAlert twoEmails twoUsers []).loadRecipients (failing [1])]).any
    (fun r => decide (r.2.alert.status = .delivered) &&
      (posts r.1).all fun x => !decide (x.subID = 1 ∧ x.ok = true)) = true := by
  decide +kernel

/-- One email fails, and with the other the alert is delivered. -/
theorem oneEmailFails_delivered : ∃ log s, system.RunIf OnlyRuns (start newAlert twoEmails twoUsers []) log s ∧
    s.alert.status = .delivered ∧
    ∃ r ∈ (start newAlert twoEmails twoUsers []).loadRecipients, r.channel = .email ∧ ¬ Reached log r := by
  obtain ⟨log, s, hrun, htest⟩ := Machine.exists_runIf_of_any oneEmailFails_runs
  obtain ⟨hdelivered, hfails⟩ := Bool.and_eq_true_iff.mp htest
  refine ⟨log, s, hrun, of_decide_eq_true hdelivered, ⟨1, 7, .email, "u@acme.test", none, none⟩, by decide, rfl, ?_⟩
  rintro ⟨x, hx, hid, -, hok⟩
  simpa [hid, hok] using List.all_eq_true.mp hfails x hx

end ThesadaApp.Alerts
