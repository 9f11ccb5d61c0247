import ThesadaApp.MailLimits

/-!
Whatever a limiter has forgotten does not count any more, so it answers as if it kept every hit. The hits are those of
the calls that were let through: a refused call leaves no trace, and the client that was asked for first still has its
room when it is charged.
-/

namespace ThesadaApp

open SlidingWindow

/-- A limiter answers from a point in time on as if it kept all of the hits. -/
structure Limiter.Keeps (l : Limiter) (w : Time) (n : Nat) (hits : String → List Time) (clock : Time) : Prop where
  window : l.window = w
  max : l.max = n
  hits : ∀ key now, clock ≤ now →
    ((l.hits key).filter fun t => now - w < t) = (hits key).filter fun t => now - w < t

namespace Limiter

variable {l : Limiter} {w clock now : Time} {n : Nat} {hits : String → List Time} {key : String}

theorem Keeps.later (h : l.Keeps w n hits clock) (hnow : clock ≤ now) : l.Keeps w n hits now :=
  ⟨h.window, h.max, fun key t ht => h.hits key t (hnow.trans ht)⟩

theorem Keeps.wouldAllow (h : l.Keeps w n hits clock) (hnow : clock ≤ now) :
    l.wouldAllow now key = decide (recent w id now (hits key) < n) := by
  rw [Limiter.wouldAllow, h.window, h.max, h.hits key now hnow, recent, List.countP_eq_length_filter]
  rfl

theorem Keeps.sweep (h : l.Keeps w n hits clock) (hnow : clock ≤ now) : (l.sweep now).Keeps w n hits now where
  window := h.window
  max := h.max
  hits key t ht := by
    rw [← h.hits key t (hnow.trans ht), Limiter.sweep, h.window]
    exact filter_recent (Int.sub_le_sub_right ht w) _

/-- The hits of one key are what is recent of them, with or without a new one. -/
theorem Keeps.update (h : l.Keeps w n hits clock) (hnow : clock ≤ now) (key : String) (new : List Time) :
    ({ l with hits := Function.update l.hits key (((l.hits key).filter fun t => now - w < t) ++ new) }).Keeps w n
      (Function.update hits key (hits key ++ new)) now where
  window := h.window
  max := h.max
  hits k t ht := by
    show (Function.update l.hits key _ k).filter _ = _
    by_cases hk : k = key
    · subst hk
      rw [Function.update_self, Function.update_self, List.filter_append, List.filter_append,
        h.hits k now hnow, filter_recent (Int.sub_le_sub_right ht w)]
    · rw [Function.update_of_ne hk, Function.update_of_ne hk]
      exact h.hits k t (hnow.trans ht)

theorem Keeps.granted (h : l.Keeps w n hits clock) (hnow : clock ≤ now) (hroom : recent w id now (hits key) < n) :
    ∃ l', l.allow now key = (l', true) ∧ l'.Keeps w n (Function.update hits key (hits key ++ [now])) now := by
  have hlength : ((l.hits key).filter fun t => now - w < t).length < n := by
    rw [h.hits key now hnow, ← List.countP_eq_length_filter]
    exact hroom
  refine ⟨_, ?_, h.update hnow key [now]⟩
  rw [Limiter.allow, h.window, h.max]
  exact if_neg (by omega)

theorem Keeps.refused (h : l.Keeps w n hits clock) (hnow : clock ≤ now) (hfull : n ≤ recent w id now (hits key)) :
    ∃ l', l.allow now key = (l', false) ∧ l'.Keeps w n hits now := by
  have hlength : n ≤ ((l.hits key).filter fun t => now - w < t).length := by
    rw [h.hits key now hnow, ← List.countP_eq_length_filter]
    exact hfull
  have hkeeps := h.update hnow key []
  rw [List.append_nil, List.append_nil, Function.update_eq_self] at hkeeps
  refine ⟨_, ?_, hkeeps⟩
  rw [Limiter.allow, h.window, h.max]
  exact if_pos hlength

end Limiter

namespace Mail

/-- The charge of the call that holds the lock. -/
def pending : Option Call → List (String × Time)
  | some ⟨_, email, _, .charged at_⟩ => [(email, at_)]
  | _ => []

/-- Every charge of an address. -/
def slots (toLower : String → String) (log : List Event) (s : State) : List (String × Time) :=
  ((accepted log).map fun a => (toLower a.submitted, a.chargedAt)) ++ pending s.call

def emailHits (xs : List (String × Time)) (key : String) : List Time :=
  (xs.filter fun x => "email:" ++ x.1 = key).map Prod.snd

def ipHits (as : List Accepted) (key : String) : List Time :=
  (as.filter fun a => a.ip ≠ "" && "ip:" ++ a.ip = key).map Accepted.spentAt

/-- The calls that were let through for a client. -/
def ofClient (as : List Accepted) (ip : String) : List Accepted := as.filter fun a => a.ip = ip

/-- Since when the call that holds the lock has had room. -/
def Stage.since (clock : Time) : Stage → Time
  | .checked => clock
  | .charged at_ => at_

structure Inv (toLower : String → String) (log : List Event) (s : State) : Prop where
  byEmail : s.byEmail.Keeps window maxPerEmail (emailHits (slots toLower log s)) s.clock
  byIP : s.byIP.Keeps window maxPerIP (ipHits (accepted log)) s.clock
  ordered : ∀ a ∈ accepted log, a.chargedAt ≤ a.spentAt
  past : ∀ x ∈ pending s.call, x.2 ≤ s.clock
  /-- The call goes on with the address it was asked for, in lower case. -/
  folded : ∀ c ∈ s.call, c.email = toLower c.submitted
  addresses : ∀ email, Capped window Prod.snd maxPerEmail ((slots toLower log s).filter fun x => x.1 = email)
  clients : ∀ ip, ip ≠ "" → Capped window Accepted.spentAt maxPerIP (ofClient (accepted log) ip)
  shares : ∀ ip, ip ≠ "" → Capped window Accepted.chargedAt maxPerIP (ofClient (accepted log) ip)
  room : ∀ c ∈ s.call, c.ip ≠ "" →
    recent window Accepted.spentAt (c.stage.since s.clock) (ofClient (accepted log) c.ip) < maxPerIP

section hits

variable {log : List Event} {s : State} {e : Event} {a : Accepted} {email ip : String} {now at_ : Time}
  {xs : List (String × Time)} {as : List Accepted}

theorem recent_emailHits : recent window id now (emailHits xs ("email:" ++ email)) =
    recent window Prod.snd now (xs.filter fun x => x.1 = email) := by
  rw [recent, recent, emailHits, List.countP_map]
  simp only [String.append_right_inj]
  rfl

theorem recent_ipHits (hip : ip ≠ "") : recent window id now (ipHits as ("ip:" ++ ip)) =
    recent window Accepted.spentAt now (ofClient as ip) := by
  have hsame : (as.filter fun a => a.ip ≠ "" && "ip:" ++ a.ip = "ip:" ++ ip) = ofClient as ip := by
    refine List.filter_congr fun a _ => ?_
    by_cases ha : a.ip = ip
    · simp [ha, hip]
    · simp [ha]
  rw [recent, recent, ipHits, hsame, List.countP_map]
  rfl

theorem emailHits_snoc : emailHits (xs ++ [(email, now)]) =
    Function.update (emailHits xs) ("email:" ++ email) (emailHits xs ("email:" ++ email) ++ [now]) := by
  funext key
  rw [emailHits, List.filter_append, List.map_append]
  by_cases hkey : key = "email:" ++ email
  · subst hkey
    rw [Function.update_self]
    simp [emailHits]
  · rw [Function.update_of_ne hkey]
    simp [emailHits, Ne.symm hkey]

theorem ipHits_snoc (hip : a.ip ≠ "") : ipHits (as ++ [a]) =
    Function.update (ipHits as) ("ip:" ++ a.ip) (ipHits as ("ip:" ++ a.ip) ++ [a.spentAt]) := by
  funext key
  rw [ipHits, List.filter_append, List.map_append]
  by_cases hkey : key = "ip:" ++ a.ip
  · subst hkey
    rw [Function.update_self]
    simp [ipHits, hip]
  · rw [Function.update_of_ne hkey]
    simp [ipHits, Ne.symm hkey]

theorem ipHits_snoc_empty (hip : a.ip = "") : ipHits (as ++ [a]) = ipHits as := by
  funext key
  simp [ipHits, hip]

theorem ofClient_snoc : ofClient (as ++ [a]) ip = if a.ip = ip then ofClient as ip ++ [a] else ofClient as ip := by
  rw [ofClient, List.filter_append]
  split_ifs with h <;> simp [ofClient, h]

theorem accepted_append : accepted (log ++ [e]) = accepted log ++ accepted [e] := List.filterMap_append ..

theorem accepted_of_ne (he : ∀ a, e ≠ .accepted a) : accepted (log ++ [e]) = accepted log := by
  rw [accepted_append]
  cases e with
  | accepted a => exact absurd rfl (he a)
  | refused | quiet => exact List.append_nil _

theorem accepted_self : accepted (log ++ [.accepted a]) = accepted log ++ [a] := accepted_append

end hits

section steps

variable {toLower : String → String} {log : List Event} {s : State} {e : Event} {submitted email ip : String}
  {now at_ : Time}

/-- A step that lets nobody through and charges nobody. -/
theorem Inv.idle (h : Inv toLower log s) (he : ∀ a, e ≠ .accepted a) {byEmail byIP : Limiter} {call : Option Call}
    (hnow : s.clock ≤ now) (hslots : pending call = pending s.call) (hfold : ∀ c ∈ call, c.email = toLower c.submitted)
    (hemail : byEmail.Keeps window maxPerEmail (emailHits (slots toLower log s)) now)
    (hip : byIP.Keeps window maxPerIP (ipHits (accepted log)) now)
    (hroom : ∀ c ∈ call, c.ip ≠ "" →
      recent window Accepted.spentAt (c.stage.since now) (ofClient (accepted log) c.ip) < maxPerIP) :
    Inv toLower (log ++ [e]) ⟨byEmail, byIP, now, call⟩ := by
  have hsame : slots toLower (log ++ [e]) ⟨byEmail, byIP, now, call⟩ = slots toLower log s := by
    rw [slots, slots, accepted_of_ne he, hslots]
  refine ⟨?_, ?_, ?_, ?_, hfold, ?_, ?_, ?_, ?_⟩
  · rw [hsame]
    exact hemail
  · rw [accepted_of_ne he]
    exact hip
  · rw [accepted_of_ne he]
    exact h.ordered
  · intro x hx
    exact (h.past x (hslots ▸ hx)).trans hnow
  · rw [hsame]
    exact h.addresses
  · rw [accepted_of_ne he]
    exact h.clients
  · rw [accepted_of_ne he]
    exact h.shares
  · rw [accepted_of_ne he]
    exact hroom

/-- The room of the call that holds the lock is still there later. -/
theorem Inv.room_later (h : Inv toLower log s) (hnow : s.clock ≤ now) : ∀ c ∈ s.call, c.ip ≠ "" →
    recent window Accepted.spentAt (c.stage.since now) (ofClient (accepted log) c.ip) < maxPerIP := by
  intro c hc hip
  refine lt_of_le_of_lt ?_ (h.room c hc hip)
  cases hstage : c.stage with
  | checked => exact recent_anti hnow
  | charged at_ => exact Nat.le_refl _

/-- The check of the client. -/
theorem Inv.allow (h : Inv toLower log s) (hnow : s.clock ≤ now) (hidle : s.call = none) {stage : Call}
    (hstage : stage.stage = .checked) (hfold : stage.email = toLower stage.submitted)
    (hroom : stage.ip ≠ "" → s.byIP.wouldAllow now ("ip:" ++ stage.ip) = true) :
    Inv toLower (log ++ [.quiet]) (s.at now (some stage)) := by
  have hpending : pending (some stage) = pending s.call := by
    rw [hidle]
    obtain ⟨submitted, email, ip, _⟩ := stage
    obtain rfl := hstage
    rfl
  refine h.idle (by simp) hnow hpending (fun c hc => Option.some.inj hc ▸ hfold) (h.byEmail.later hnow)
    (h.byIP.later hnow) ?_
  intro c hc hip
  obtain rfl := Option.some.inj hc
  have hwould := hroom hip
  rw [h.byIP.wouldAllow hnow, decide_eq_true_eq, recent_ipHits hip] at hwould
  rw [hstage]
  exact hwould

/-- The charge of the address. -/
theorem Inv.chargeEmail (h : Inv toLower log s) (hnow : s.clock ≤ now)
    (hcall : s.call = some ⟨submitted, email, ip, .checked⟩) :
    (∃ l, s.byEmail.allow now ("email:" ++ email) = (l, true) ∧
      Inv toLower (log ++ [.quiet]) (({ s with byEmail := l }).at now (some ⟨submitted, email, ip, .charged now⟩))) ∨
    (∃ l, s.byEmail.allow now ("email:" ++ email) = (l, false) ∧
      Inv toLower (log ++ [.refused submitted ip]) (({ s with byEmail := l }).at now none)) := by
  have hpending : pending s.call = [] := by rw [hcall]; rfl
  by_cases hroom : recent window Prod.snd now ((slots toLower log s).filter fun x => x.1 = email) < maxPerEmail
  · left
    obtain ⟨l, hallow, hkeeps⟩ := h.byEmail.granted hnow (by rw [recent_emailHits]; exact hroom)
    have hslots : slots toLower (log ++ [.quiet])
        (({ s with byEmail := l }).at now (some ⟨submitted, email, ip, .charged now⟩)) =
          slots toLower log s ++ [(email, now)] := by
      rw [slots, slots, accepted_of_ne (by simp), hpending, List.append_nil]
      rfl
    refine ⟨l, hallow, ?_, ?_, ?_, ?_, ?_, ?_, ?_, ?_, ?_⟩
    · rw [hslots, emailHits_snoc]
      exact hkeeps
    · rw [accepted_of_ne (by simp)]
      exact h.byIP.later hnow
    · rw [accepted_of_ne (by simp)]
      exact h.ordered
    · intro x hx
      rw [List.mem_singleton.mp hx]
      exact Int.le_refl now
    · intro c hc
      obtain rfl := Option.some.inj hc
      exact h.folded ⟨submitted, email, ip, .checked⟩ hcall
    · intro address
      rw [hslots, List.filter_append]
      by_cases haddress : email = address
      · subst haddress
        have hone : [(email, now)].filter (fun x => x.1 = email) = [(email, now)] := by simp
        rw [hone]
        exact (h.addresses email).snoc hroom
      · have hnone : [(email, now)].filter (fun x => x.1 = address) = [] := by simp [haddress]
        rw [hnone, List.append_nil]
        exact h.addresses address
    · rw [accepted_of_ne (by simp)]
      exact h.clients
    · rw [accepted_of_ne (by simp)]
      exact h.shares
    · intro c hc hip
      rw [accepted_of_ne (by simp)]
      obtain rfl := Option.some.inj hc
      exact h.room_later hnow ⟨submitted, email, ip, .checked⟩ hcall hip
  · right
    obtain ⟨l, hallow, hkeeps⟩ := h.byEmail.refused hnow (by rw [recent_emailHits]; exact not_lt.mp hroom)
    exact ⟨l, hallow, h.idle (by simp) hnow hpending.symm (fun c hc => by cases hc) hkeeps (h.byIP.later hnow)
      fun c hc => (by cases hc)⟩

/-- The call that has been charged is let through. -/
theorem Inv.accept (h : Inv toLower log s) (hnow : s.clock ≤ now)
    (hcall : s.call = some ⟨submitted, email, ip, .charged at_⟩) {byIP : Limiter}
    (hkeeps : byIP.Keeps window maxPerIP (ipHits (accepted log ++ [⟨submitted, ip, at_, now⟩])) now) :
    Inv toLower (log ++ [.accepted ⟨submitted, ip, at_, now⟩]) (({ s with byIP := byIP }).at now none) := by
  have hslots : slots toLower (log ++ [.accepted ⟨submitted, ip, at_, now⟩]) (({ s with byIP := byIP }).at now none) =
      slots toLower log s := by
    have hfold : email = toLower submitted := h.folded _ hcall
    rw [slots, slots, accepted_self, hcall, List.map_append, hfold]
    exact List.append_nil _
  have hpast : at_ ≤ s.clock := h.past (email, at_) (by rw [hcall]; exact List.mem_singleton_self _)
  have hordered : ∀ a ∈ accepted log ++ [⟨submitted, ip, at_, now⟩], a.chargedAt ≤ a.spentAt := by
    intro a ha
    rcases List.mem_append.mp ha with ha | ha
    · exact h.ordered a ha
    · rw [List.mem_singleton.mp ha]
      exact hpast.trans hnow
  -- the client has had room since the charge
  have hroom : ip ≠ "" → recent window Accepted.spentAt at_ (ofClient (accepted log) ip) < maxPerIP :=
    h.room _ hcall
  refine ⟨?_, ?_, ?_, ?_, ?_, ?_, ?_, ?_, ?_⟩
  · rw [hslots]
    exact h.byEmail.later hnow
  · rw [accepted_self]
    exact hkeeps
  · rw [accepted_self]
    exact hordered
  · intro x hx
    cases hx
  · intro c hc
    cases hc
  · rw [hslots]
    exact h.addresses
  · intro client hclient
    rw [accepted_self, ofClient_snoc]
    split_ifs with hsame
    · subst hsame
      exact (h.clients ip hclient).snoc ((recent_anti (hpast.trans hnow)).trans_lt (hroom hclient))
    · exact h.clients client hclient
  · intro client hclient
    rw [accepted_self, ofClient_snoc]
    split_ifs with hsame
    · subst hsame
      refine (h.shares ip hclient).snoc (lt_of_le_of_lt ?_ (hroom hclient))
      exact recent_mono fun a ha => h.ordered a (List.mem_of_mem_filter ha)
    · exact h.shares client hclient
  · intro c hc
    cases hc

/-- The hit of the client. It is never refused. -/
theorem Inv.spendIP (h : Inv toLower log s) (hnow : s.clock ≤ now)
    (hcall : s.call = some ⟨submitted, email, ip, .charged at_⟩) (hip : ip ≠ "") :
    ∃ l, s.byIP.allow now ("ip:" ++ ip) = (l, true) ∧
      Inv toLower (log ++ [.accepted ⟨submitted, ip, at_, now⟩]) (({ s with byIP := l }).at now none) := by
  have hpast : at_ ≤ s.clock := h.past (email, at_) (by rw [hcall]; exact List.mem_singleton_self _)
  have hroom : recent window Accepted.spentAt at_ (ofClient (accepted log) ip) < maxPerIP := h.room _ hcall hip
  have hnowRoom : recent window id now (ipHits (accepted log) ("ip:" ++ ip)) < maxPerIP := by
    rw [recent_ipHits hip]
    exact (recent_anti (hpast.trans hnow)).trans_lt hroom
  obtain ⟨l, hallow, hkeeps⟩ := h.byIP.granted hnow hnowRoom
  refine ⟨l, hallow, h.accept hnow hcall ?_⟩
  rw [ipHits_snoc hip]
  exact hkeeps

theorem Inv.step (h : Inv toLower log s) {a : Action} {s' : State}
    (hstep : (system toLower).step s a = some (s', e)) : Inv toLower (log ++ [e]) s' := by
  simp only [system, Option.ite_none_right_eq_some] at hstep
  obtain ⟨hclock, hstep⟩ := hstep
  cases a with
  | allow email ip now =>
      have hnow : s.clock ≤ now := hclock
      simp only [stepState] at hstep
      split at hstep
      · cases hstep
      · next hidle =>
          split_ifs at hstep with hfull
          · cases hstep
            exact h.idle (by simp) hnow (by rw [hidle]) (fun c hc => by cases hc) (h.byEmail.later hnow)
              (h.byIP.later hnow) fun c hc => (by cases hc)
          · cases hstep
            refine h.allow hnow hidle rfl rfl fun hip => ?_
            rw [not_and, Bool.not_eq_false] at hfull
            exact hfull hip
  | chargeEmail now =>
      have hnow : s.clock ≤ now := hclock
      simp only [stepState] at hstep
      split at hstep
      · next submitted email ip hcall =>
          rcases h.chargeEmail hnow hcall with ⟨l, hallow, hinv⟩ | ⟨l, hallow, hinv⟩
          · rw [hallow] at hstep
            cases hstep
            exact hinv
          · rw [hallow] at hstep
            cases hstep
            exact hinv
      · cases hstep
  | spendIP now =>
      have hnow : s.clock ≤ now := hclock
      simp only [stepState] at hstep
      split at hstep
      · next submitted email ip at_ hcall =>
          split_ifs at hstep with hip
          · cases hstep
            refine h.accept hnow hcall ?_
            rw [ipHits_snoc_empty hip]
            exact h.byIP.later hnow
          · obtain ⟨l, hallow, hinv⟩ := h.spendIP hnow hcall hip
            rw [hallow] at hstep
            cases hstep
            exact hinv
      · cases hstep
  | sweepEmail now =>
      have hnow : s.clock ≤ now := hclock
      cases hstep
      exact h.idle (by simp) hnow rfl h.folded (h.byEmail.sweep hnow) (h.byIP.later hnow) (h.room_later hnow)
  | sweepIP now =>
      have hnow : s.clock ≤ now := hclock
      cases hstep
      exact h.idle (by simp) hnow rfl h.folded (h.byEmail.later hnow) (h.byIP.sweep hnow) (h.room_later hnow)

theorem inv_start (clock : Time) : Inv toLower [] (.start clock) where
  byEmail := ⟨rfl, rfl, fun _ _ _ => rfl⟩
  byIP := ⟨rfl, rfl, fun _ _ _ => rfl⟩
  ordered := fun _ ha => absurd ha List.not_mem_nil
  past := fun _ hx => absurd hx List.not_mem_nil
  folded := fun _ hc => by cases hc
  addresses := fun _ => capped_nil
  clients := fun _ _ => capped_nil
  shares := fun _ _ => capped_nil
  room := fun _ hc => by cases hc

theorem inv_run {clock : Time} (hrun : (system toLower).Run (.start clock) log s) : Inv toLower log s := by
  refine hrun.invariant (Inv toLower) (inv_start clock) ?_
  intro log s a s' e ih _ hstep
  exact ih.step hstep

end steps

/-- The calls for an address, in whatever case it was asked for. -/
def ofAddress (toLower : String → String) (as : List Accepted) (address : String) : List Accepted :=
  as.filter fun a => toLower a.submitted = toLower address

/-- What the caps are to guarantee of the calls that were let through, in every window: a client has at most its own
budget, an address at most its own, and of that a client no more than its budget. -/
structure WithinCaps (toLower : String → String) (as : List Accepted) : Prop where
  clients : ∀ ip, ip ≠ "" → Capped window Accepted.spentAt maxPerIP (ofClient as ip)
  addresses : ∀ address, Capped window Accepted.chargedAt maxPerEmail (ofAddress toLower as address)
  shares : ∀ address ip, ip ≠ "" →
    Capped window Accepted.chargedAt maxPerIP (ofClient (ofAddress toLower as address) ip)

/-- Two states whose limiters answer alike from a point in time on, whoever asks. -/
def AnswerAlike (s s' : State) (clock : Time) : Prop :=
  ∀ key now, clock ≤ now → s.byEmail.wouldAllow now key = s'.byEmail.wouldAllow now key ∧
    s.byIP.wouldAllow now key = s'.byIP.wouldAllow now key

theorem Inv.withinCaps {toLower : String → String} {log : List Event} {s : State} (h : Inv toLower log s) :
    WithinCaps toLower (accepted log) where
  clients := h.clients
  addresses address now := by
    have hslots : inWindow window Accepted.chargedAt now (ofAddress toLower (accepted log) address) =
        inWindow window Prod.snd now (((accepted log).map fun a => (toLower a.submitted, a.chargedAt)).filter
          fun x => x.1 = toLower address) := by
      rw [inWindow, inWindow, List.filter_map, List.countP_map]
      rfl
    have hsub : (((accepted log).map fun a => (toLower a.submitted, a.chargedAt)).filter
        fun x => x.1 = toLower address).Sublist ((slots toLower log s).filter fun x => x.1 = toLower address) :=
      (List.sublist_append_left _ _).filter _
    rw [hslots]
    exact (h.addresses (toLower address)).sublist hsub now
  shares address ip hip := (h.shares ip hip).sublist (List.filter_sublist.filter _)

/-- Over every interleaving the calls that are let through are within the caps, and calls that are refused leave the
later answers of both limiters as they were. -/
theorem allow_capped {toLower : String → String} {clock : Time} {log : List Event} {s : State}
    (hrun : (system toLower).Run (.start clock) log s) :
    WithinCaps toLower (accepted log) ∧
    ∀ log' s', (system toLower).Run s log' s' → accepted log' = [] → s.call = none → s'.call = none →
      AnswerAlike s s' (max s.clock s'.clock) := by
  have hinv := inv_run hrun
  refine ⟨hinv.withinCaps, ?_⟩
  intro log' s' hrun' hrefused hidle hidle' key now hnow
  have hinv' : Inv toLower (log ++ log') s' := inv_run (hrun.trans hrun')
  have haccepted : accepted (log ++ log') = accepted log := by
    rw [accepted, List.filterMap_append]
    exact (congrArg (accepted log ++ ·) hrefused).trans (List.append_nil _)
  have hslots : slots toLower (log ++ log') s' = slots toLower log s := by
    rw [slots, slots, haccepted, hidle, hidle']
  have hclock : s.clock ≤ now := (le_max_left _ _).trans hnow
  have hclock' : s'.clock ≤ now := (le_max_right _ _).trans hnow
  constructor
  · rw [hinv.byEmail.wouldAllow hclock, hinv'.byEmail.wouldAllow hclock', hslots]
  · rw [hinv.byIP.wouldAllow hclock, hinv'.byIP.wouldAllow hclock', haccepted]

/-- A call of a client for an address, at one reading of the clock. -/
def callAt (email ip : String) (now : Time) : List Action := [.allow email ip now, .chargeEmail now, .spendIP now]

/-- A client has had its five, and is refused the sixth time. -/
theorem sixth_refused : ∃ log s log' s', (system String.toLower).Run (.start 0) log s ∧
    (accepted log).length = maxPerIP ∧ (system String.toLower).Run s log' s' ∧
    log' = [.refused "Eve@acme.test" "203.0.113.9"] ∧ WithinCaps String.toLower (accepted log) ∧
    AnswerAlike s s' (max s.clock s'.clock) := by
  have hexec : ((system String.toLower).execIf (fun _ _ _ => True) [] (.start 0)
      ((List.range 5).flatMap fun i => callAt "eve@ACME.test" "203.0.113.9" i)).any (fun x =>
        (accepted x.1).length = maxPerIP ∧ x.2.call = none ∧
          ((system String.toLower).step x.2 (.allow "Eve@acme.test" "203.0.113.9" 5)).any fun y =>
            y.1.call = none ∧ y.2 = .refused "Eve@acme.test" "203.0.113.9") = true := by
    decide +kernel
  obtain ⟨log, s, hrun, htest⟩ := Machine.exists_runIf_of_any hexec
  obtain ⟨hlength, hidle, hrefused⟩ := of_decide_eq_true htest
  obtain ⟨⟨s', e⟩, hstep, hy⟩ := (Option.any_eq_true _ _).mp hrefused
  obtain ⟨hidle', rfl⟩ := of_decide_eq_true hy
  obtain ⟨hcaps, halike⟩ := allow_capped hrun
  exact ⟨log, s, _, s', hrun, hlength, .one hstep, rfl, hcaps,
    halike _ s' (.one hstep) rfl hidle hidle'⟩

end Mail

end ThesadaApp
