import Mathlib.Data.List.Pairwise
import ThesadaApp.MachineRun
import ThesadaApp.TotpStatements

/-!
Time steps and login challenges are used once. A transaction that has written a row holds it until it ends, so what
it found there is still committed when it commits: the step it records is above the user's last one, and the challenge
it spends is still there.
-/

namespace ThesadaApp.TotpRows

open Login (totpMaxWrongCodes)

/-- The commit opens a session for the challenge. -/
def Event.opens (challenge : String) : Event → Bool
  | .ended (.opened h _ _) => h = challenge
  | _ => false

/-- The commit counts a wrong code against the challenge. -/
def Event.counts (challenge : String) : Event → Bool
  | .ended (.counted h) => h = challenge
  | _ => false

/-- The user and the time step the commit accepts. -/
def Event.accepts : Event → Option (UUID × Int)
  | .ended (.opened _ user step) => some (user, step)
  | .ended (.accepted user step) => some (user, step)
  | _ => none

/-- The time steps accepted for a user, in commit order. -/
def acceptedSteps (user : UUID) (log : List Event) : List Int :=
  (log.filterMap Event.accepts).filterMap fun a => if a.1 = user then some a.2 else none

def Tables.lastStep (d : Tables) (user : UUID) : Option Int := (d.users user).bind UserRow.totpLastStep

def Tables.attempts (d : Tables) (challenge : String) : Nat := ((d.challenges challenge).map Challenge.attempts).getD 0

/-- The wrong codes counted against a challenge since the start. -/
def wrongCodes (challenge : String) (log : List Event) : Nat := log.countP (Event.counts challenge)

/-- Each challenge opens at most one session, and none once five wrong codes were counted against it; the steps
accepted for a user are strictly increasing, from the one on record at the start. -/
structure SingleUse (d : Tables) (log : List Event) : Prop where
  once : ∀ challenge, log.countP (Event.opens challenge) ≤ 1
  capped : ∀ pre post e challenge, log = pre ++ e :: post → e.opens challenge = true →
    wrongCodes challenge pre < totpMaxWrongCodes ∧
      (d.attempts challenge < totpMaxWrongCodes → d.attempts challenge + wrongCodes challenge pre < totpMaxWrongCodes)
  increasing : ∀ user, ((d.lastStep user).toList ++ acceptedSteps user log).Pairwise (· < ·)

/-- What is known of a transaction at each of its statements. -/
def PointInv (t : Txn) : Point → Prop
  | .start | .recordStep .. | .recordStepRow .. | .noteWrong _ | .noteWrongRow _ => t.step = none ∧ t.challenge = none
  | .deleteAtCap challenge =>
      t.step = none ∧ ∃ w, t.challenge = some (challenge, w)
  | .delete challenge then' | .deleteRow challenge then' =>
      t.challenge = none ∧
        (then' = .rejected ∧ t.step = none ∨ ∃ u n, then' = .opened challenge u n ∧ t.step = some (u, n))
  | .commit (.opened challenge u n) => t.step = some (u, n) ∧ t.challenge = some (challenge, none)
  | .commit (.accepted u n) => t.step = some (u, n) ∧ t.challenge = none
  | .commit (.counted challenge) => t.step = none ∧ ∃ w, t.challenge = some (challenge, w) ∧
      ∀ c ∈ w, c.attempts < totpMaxWrongCodes
  | .commit .rejected => t.step = none ∧ ∀ h w, t.challenge = some (h, w) → w = none

/-- A transaction holds the rows it has written, which are committed as it found them. -/
structure TxnInv (d : Tables) (held : Lock → Prop) (t : Txn) : Prop where
  step : ∀ u n, t.step = some (u, n) → held (.user u) ∧
    ∃ r, d.users u = some r ∧ r.totpLastStep.all (fun last => last < n) = true
  challenge : ∀ h w, t.challenge = some (h, w) → held (.challenge h) ∧
    ∃ c, d.challenges h = some c ∧ ∀ c' ∈ w, c'.attempts = c.attempts + 1
  point : PointInv t t.point

/-- The rows that are held do not change. -/
structure Kept (d d' : Tables) (held : Lock → Prop) : Prop where
  user : ∀ u, held (.user u) → d'.users u = d.users u
  challenge : ∀ h, held (.challenge h) → d'.challenges h = d.challenges h

section txn

variable {cfg : Config} {d d' : Tables} {held held' : Lock → Prop} {t : Txn}

theorem TxnInv.kept (h : Kept d d' held) (ht : TxnInv d held t) : TxnInv d' held t := by
  refine ⟨fun u n hn => ?_, fun c w hw => ?_, ht.point⟩
  · obtain ⟨hheld, hrow⟩ := ht.step u n hn
    exact ⟨hheld, by rw [h.user u hheld]; exact hrow⟩
  · obtain ⟨hheld, hrow⟩ := ht.challenge c w hw
    exact ⟨hheld, by rw [h.challenge c hheld]; exact hrow⟩

/-- More locks are no harm. -/
theorem TxnInv.mono (h : TxnInv d held t) (hheld : ∀ k, held k → held' k) : TxnInv d held' t :=
  ⟨fun u n hn => ⟨hheld _ (h.step u n hn).1, (h.step u n hn).2⟩,
    fun c w hw => ⟨hheld _ (h.challenge c w hw).1, (h.challenge c w hw).2⟩, h.point⟩

/-- A transaction that has written nothing. -/
theorem TxnInv.unwritten (hstep : t.step = none) (hchallenge : t.challenge = none) (hpoint : PointInv t t.point) :
    TxnInv d held t :=
  ⟨fun _ _ hn => absurd (hstep.symm.trans hn) (Option.some_ne_none _).symm,
    fun _ _ hw => absurd (hchallenge.symm.trans hw) (Option.some_ne_none _).symm, hpoint⟩

theorem Txn.apply_users_of_ne {u : UUID} (h : ∀ n, t.step ≠ some (u, n)) : (t.apply d).users u = d.users u := by
  unfold Txn.apply
  dsimp only
  split
  · rfl
  · next u' n hstep =>
      refine if_neg fun heq => h n ?_
      rw [hstep, heq]

theorem Txn.apply_users_self {u : UUID} {n : Int} {r : UserRow} (h : t.step = some (u, n)) (hr : d.users u = some r) :
    (t.apply d).users u = some { r with totpLastStep := some n } := by
  simp [Txn.apply, h, hr]

theorem Txn.apply_challenges_of_ne {c : String} (h : ∀ w, t.challenge ≠ some (c, w)) :
    (t.apply d).challenges c = d.challenges c := by
  unfold Txn.apply
  dsimp only
  split
  · rfl
  · next c' w hchallenge =>
      refine if_neg fun heq => h w ?_
      rw [hchallenge, heq]

theorem Txn.apply_challenges_self {c : String} {w : Option Challenge} (h : t.challenge = some (c, w)) :
    (t.apply d).challenges c = w := by
  simp [Txn.apply, h]

/-- A commit leaves the rows of the others alone. -/
theorem TxnInv.kept_apply (h : TxnInv d held t) (hdisjoint : ∀ k, held k → ¬ held' k) : Kept d (t.apply d) held' := by
  refine ⟨fun u hu => ?_, fun c hc => ?_⟩
  · exact Txn.apply_users_of_ne fun n hn => hdisjoint _ (h.step u n hn).1 hu
  · exact Txn.apply_challenges_of_ne fun w hw => hdisjoint _ (h.challenge c w hw).1 hc

theorem PointInv.reject (hstep : t.step = none) (hchallenge : t.challenge = none) :
    PointInv t (t.call.reject cfg) := by
  cases t.call with
  | finishTOTPLoginAny => exact ⟨hstep, hchallenge⟩
  | acceptTOTPLogin => exact ⟨hstep, fun h w hw => absurd (hchallenge.symm.trans hw) (Option.some_ne_none _).symm⟩

end txn

/-- What the tables remember of the run: a spent challenge is gone, one that is there carries its wrong codes, and the
step on record is the last one accepted. -/
structure History (d₀ : Tables) (log : List Event) (d : Tables) : Prop where
  spent : ∀ h, log.countP (Event.opens h) ≠ 0 → d.challenges h = none
  attempts : ∀ h c, d.challenges h = some c → c.attempts = d₀.attempts h + wrongCodes h log ∧
    (wrongCodes h log ≠ 0 → c.attempts < totpMaxWrongCodes)
  lastStep : ∀ u, d.lastStep u = ((d₀.lastStep u).toList ++ acceptedSteps u log).getLast?

section history

variable {d₀ d d' : Tables} {log : List Event} {e : Event}

theorem wrongCodes_snoc (h : String) : wrongCodes h (log ++ [e]) = wrongCodes h log + if e.counts h then 1 else 0 := by
  rw [wrongCodes, List.countP_append, List.countP_singleton]
  rfl

theorem acceptedSteps_snoc (u : UUID) : acceptedSteps u (log ++ [e]) = acceptedSteps u log ++
    (e.accepts.bind fun a => if a.1 = u then some a.2 else none).toList := by
  rw [acceptedSteps, List.filterMap_append, List.filterMap_append]
  cases h : e.accepts with
  | none => simp [acceptedSteps, h]
  | some a =>
      by_cases ha : a.1 = u
      · simp [acceptedSteps, h, ha]
      · simp [acceptedSteps, h, ha]

/-- An event keeps single use if it opens a session for a challenge that has opened none, below the cap, and accepts
a step above every other of the user. -/
theorem SingleUse.snoc (h : SingleUse d₀ log)
    (hopens : ∀ c, e.opens c = true → log.countP (Event.opens c) = 0 ∧ wrongCodes c log < totpMaxWrongCodes ∧
      (d₀.attempts c < totpMaxWrongCodes → d₀.attempts c + wrongCodes c log < totpMaxWrongCodes))
    (haccepts : ∀ u n, e.accepts = some (u, n) → ∀ m ∈ (d₀.lastStep u).toList ++ acceptedSteps u log, m < n) :
    SingleUse d₀ (log ++ [e]) := by
  refine ⟨fun c => ?_, fun pre post e' c hlog he' => ?_, fun u => ?_⟩
  · rw [List.countP_append, List.countP_singleton]
    split
    · next hc => rw [(hopens c hc).1]
    · exact h.once c
  · rcases List.eq_nil_or_concat post with rfl | ⟨post', last, rfl⟩
    · obtain ⟨rfl, heq⟩ := List.append_inj' hlog rfl
      obtain rfl : e = e' := by simpa using heq
      exact (hopens c he').2
    · rw [List.concat_eq_append, ← List.cons_append, ← List.append_assoc] at hlog
      exact h.capped pre post' e' c (List.append_inj' hlog rfl).1 he'
  · rw [acceptedSteps_snoc, ← List.append_assoc, List.pairwise_append]
    refine ⟨h.increasing u, Option.pairwise_toList, fun m hm n hn => ?_⟩
    · rw [Option.mem_toList, Option.bind_eq_some_iff] at hn
      obtain ⟨a, ha, hn⟩ := hn
      split_ifs at hn with hu
      obtain rfl := Option.some.inj hn
      obtain rfl := hu
      exact haccepts a.1 a.2 ha m hm

/-- An event that opens, counts and accepts nothing. -/
structure Event.Plain (e : Event) : Prop where
  opens : ∀ h, e.opens h = false
  counts : ∀ h, e.counts h = false
  accepts : e.accepts = none

theorem Event.plain_statement : Event.statement.Plain := ⟨fun _ => rfl, fun _ => rfl, rfl⟩

theorem Event.plain_failed : Event.failed.Plain := ⟨fun _ => rfl, fun _ => rfl, rfl⟩

theorem Event.Plain.singleUse (he : e.Plain) (h : SingleUse d₀ log) : SingleUse d₀ (log ++ [e]) := by
  refine h.snoc (fun c hc => ?_) fun u n hn => ?_
  · rw [he.opens] at hc
    cases hc
  · rw [he.accepts] at hn
    cases hn

theorem Event.Plain.history (he : e.Plain) (h : History d₀ log d) : History d₀ (log ++ [e]) d := by
  refine ⟨fun c hc => h.spent c ?_, fun c r hr => ?_, fun u => ?_⟩
  · rw [List.countP_append, List.countP_singleton, he.opens] at hc
    exact hc
  · rw [wrongCodes_snoc, he.counts]
    exact h.attempts c r hr
  · rw [acceptedSteps_snoc, he.accepts, Option.bind_none, Option.toList_none, List.append_nil]
    exact h.lastStep u

/-- A step above the one on record is above every step accepted so far. -/
theorem History.lt_of_all (h : History d₀ log d) (hsingle : SingleUse d₀ log) {u : UUID} {n : Int}
    (hn : (d.lastStep u).all (fun last => last < n) = true) :
    ∀ m ∈ (d₀.lastStep u).toList ++ acceptedSteps u log, m < n := by
  intro m hm
  have hne := List.ne_nil_of_mem hm
  have hle : m ≤ ((d₀.lastStep u).toList ++ acceptedSteps u log).getLast hne :=
    ((hsingle.increasing u).imp le_of_lt).rel_getLast hm
  rw [h.lastStep u, List.getLast?_eq_some_getLast hne, Option.all_some, decide_eq_true_eq] at hn
  exact lt_of_le_of_lt hle hn

end history

section commit

variable {d₀ d : Tables} {held : Lock → Prop} {t : Txn} {log : List Event} {outcome : Outcome}

theorem PointInv.accepts_eq (h : PointInv t (.commit outcome)) : (Event.ended outcome).accepts = t.step := by
  cases outcome with
  | opened challenge u n => exact h.1.symm
  | accepted u n => exact h.1.symm
  | counted challenge => exact h.1.symm
  | rejected => exact h.1.symm

theorem PointInv.deletes_of_opens (h : PointInv t (.commit outcome)) {c : String}
    (hopens : (Event.ended outcome).opens c = true) : t.challenge = some (c, none) := by
  cases outcome with
  | opened challenge u n =>
      obtain rfl := of_decide_eq_true hopens
      exact h.2
  | accepted u n => cases hopens
  | counted challenge => cases hopens
  | rejected => cases hopens

theorem PointInv.writes_of_counts (h : PointInv t (.commit outcome)) {c : String}
    (hcounts : (Event.ended outcome).counts c = true) : ∃ w, t.challenge = some (c, w) := by
  cases outcome with
  | opened challenge u n => cases hcounts
  | accepted u n => cases hcounts
  | counted challenge =>
      obtain rfl := of_decide_eq_true hcounts
      exact h.2.imp fun _ hw => hw.1
  | rejected => cases hcounts

/-- A challenge that is written and stays was counted against, and is below the cap. -/
theorem PointInv.counts_of_writes (h : PointInv t (.commit outcome)) {c : String} {r : Challenge}
    (hwrites : t.challenge = some (c, some r)) :
    (Event.ended outcome).counts c = true ∧ r.attempts < totpMaxWrongCodes := by
  cases outcome with
  | opened challenge u n => cases h.2.symm.trans hwrites
  | accepted u n => cases h.2.symm.trans hwrites
  | counted challenge =>
      obtain ⟨-, w, hw, hcap⟩ := h
      obtain ⟨rfl, rfl⟩ := Prod.mk.inj (Option.some.inj (hw.symm.trans hwrites))
      exact ⟨decide_eq_true rfl, hcap r rfl⟩
  | rejected => cases h.2 c (some r) hwrites

/-- The commit of a transaction whose rows are as it found them. -/
theorem TxnInv.singleUse_ended (h : TxnInv d held t) (hpoint : t.point = .commit outcome) (hhistory : History d₀ log d)
    (hsingle : SingleUse d₀ log) : SingleUse d₀ (log ++ [.ended outcome]) := by
  have hp := h.point
  rw [hpoint] at hp
  refine hsingle.snoc (fun c hc => ?_) fun u n hn => ?_
  · obtain ⟨-, r, hr, -⟩ := h.challenge c none (hp.deletes_of_opens hc)
    obtain ⟨hattempts, hcap⟩ := hhistory.attempts c r hr
    have hunspent : log.countP (Event.opens c) = 0 := by
      by_contra hspent
      cases hr.symm.trans (hhistory.spent c hspent)
    refine ⟨hunspent, ?_, fun hstart => ?_⟩
    · by_cases hzero : wrongCodes c log = 0
      · rw [hzero]
        decide
      · have := hcap hzero
        omega
    · by_cases hzero : wrongCodes c log = 0
      · rw [hzero]
        exact hstart
      · exact hattempts ▸ hcap hzero
  · rw [hp.accepts_eq] at hn
    obtain ⟨-, r, hr, hlast⟩ := h.step u n hn
    refine hhistory.lt_of_all hsingle ?_
    rw [Tables.lastStep, hr]
    exact hlast

theorem TxnInv.spent_ended (h : TxnInv d held t) (hpoint : PointInv t (.commit outcome)) (hhistory : History d₀ log d)
    {c : String} (hspent : (log ++ [Event.ended outcome]).countP (Event.opens c) ≠ 0) :
    (t.apply d).challenges c = none := by
  rw [List.countP_append, List.countP_singleton] at hspent
  by_cases hopens : (Event.ended outcome).opens c = true
  · exact Txn.apply_challenges_self (hpoint.deletes_of_opens hopens)
  · rw [if_neg hopens, Nat.add_zero] at hspent
    have hgone := hhistory.spent c hspent
    rw [Txn.apply_challenges_of_ne fun w hw => ?_, hgone]
    obtain ⟨-, r, hr, -⟩ := h.challenge c w hw
    cases hgone.symm.trans hr

theorem TxnInv.attempts_ended (h : TxnInv d held t) (hpoint : PointInv t (.commit outcome))
    (hhistory : History d₀ log d) {c : String} {r : Challenge} (hr : (t.apply d).challenges c = some r) :
    r.attempts = d₀.attempts c + wrongCodes c (log ++ [.ended outcome]) ∧
      (wrongCodes c (log ++ [.ended outcome]) ≠ 0 → r.attempts < totpMaxWrongCodes) := by
  rw [wrongCodes_snoc]
  by_cases hwrites : ∃ w, t.challenge = some (c, w)
  · obtain ⟨w, hw⟩ := hwrites
    rw [Txn.apply_challenges_self hw] at hr
    subst hr
    obtain ⟨hcounts, hcap⟩ := hpoint.counts_of_writes hw
    obtain ⟨-, r', hr', hadd⟩ := h.challenge c _ hw
    rw [if_pos hcounts, ← Nat.add_assoc, ← (hhistory.attempts c r' hr').1]
    exact ⟨hadd r rfl, fun _ => hcap⟩
  · rw [Txn.apply_challenges_of_ne fun w hw => hwrites ⟨w, hw⟩] at hr
    rw [if_neg fun hcounts => hwrites (hpoint.writes_of_counts hcounts)]
    exact hhistory.attempts c r hr

theorem TxnInv.lastStep_ended (h : TxnInv d held t) (hpoint : PointInv t (.commit outcome)) (u : UUID) :
    (t.apply d).lastStep u = ((Event.ended outcome).accepts.bind fun a => if a.1 = u then some a.2 else none).or
      (d.lastStep u) := by
  rw [hpoint.accepts_eq]
  by_cases hstep : ∃ n, t.step = some (u, n)
  · obtain ⟨n, hn⟩ := hstep
    obtain ⟨-, r, hr, -⟩ := h.step u n hn
    rw [Tables.lastStep, Txn.apply_users_self hn hr, hn]
    simp
  · rw [Tables.lastStep, Txn.apply_users_of_ne fun n hn => hstep ⟨n, hn⟩, ← Tables.lastStep]
    have hother : (t.step.bind fun a => if a.1 = u then some a.2 else none) = none := by
      rw [Option.bind_eq_none_iff]
      intro a ha
      exact if_neg fun hu => hstep ⟨a.2, by rw [ha, ← hu]⟩
    rw [hother, Option.none_or]

theorem TxnInv.history_ended (h : TxnInv d held t) (hpoint : t.point = .commit outcome) (hhistory : History d₀ log d) :
    History d₀ (log ++ [.ended outcome]) (t.apply d) := by
  have hp := h.point
  rw [hpoint] at hp
  refine ⟨fun _ hc => h.spent_ended hp hhistory hc, fun _ _ hr => h.attempts_ended hp hhistory hr, fun u => ?_⟩
  rw [h.lastStep_ended hp, hhistory.lastStep u, acceptedSteps_snoc, ← List.append_assoc]
  cases (Event.ended outcome).accepts.bind fun a => if a.1 = u then some a.2 else none with
  | none => rw [Option.toList_none, List.append_nil, Option.none_or]
  | some n => rw [Option.toList_some, List.getLast?_concat, Option.some_or]

end commit

structure Inv (d₀ : Tables) (log : List Event) (s : State) : Prop where
  each : s.txns.Each TxnInv s.tables
  history : History d₀ log s.tables
  singleUse : SingleUse d₀ log

/-- What a step of a run keeps, and that it leaves the last steps of the users it accepts none of. -/
structure StepSpec (d₀ : Tables) (log : List Event) (s : State) (r : State × Event) : Prop where
  inv : Inv d₀ (log ++ [r.2]) r.1
  lastStep : r.2.accepts = none → ∀ u, r.1.tables.lastStep u = s.tables.lastStep u

section steps

variable {cfg : Config} {d₀ : Tables} {log : List Event} {s : State} {tx : Nat} {t : Txn} {r : State × Event}

theorem Inv.fail (h : Inv d₀ log s) : StepSpec d₀ log s (s.fail tx) :=
  ⟨⟨h.each.close fun _ _ _ _ hj => hj, Event.plain_failed.history h.history, Event.plain_failed.singleUse h.singleUse⟩,
    fun _ _ => rfl⟩

theorem Inv.put (h : Inv d₀ log s) (ht : TxnInv s.tables (s.txns.Held tx) t) : StepSpec d₀ log s (s.put tx t) :=
  ⟨⟨h.each.put ht, Event.plain_statement.history h.history, Event.plain_statement.singleUse h.singleUse⟩,
    fun _ _ => rfl⟩

theorem Inv.lockPut (h : Inv d₀ log s) {k : Lock} (hfree : s.txns.mayLock tx k = true)
    (ht : TxnInv s.tables ((s.txns.lock tx k).Held tx) t) : StepSpec d₀ log s ((s.lock tx k).put tx t) :=
  ⟨⟨h.each.lockPut hfree ht, Event.plain_statement.history h.history, Event.plain_statement.singleUse h.singleUse⟩,
    fun _ _ => rfl⟩

/-- What is known at a point is about what was written. -/
theorem PointInv.goTo {p : Point} (q : Point) (h : PointInv t p) : PointInv { t with point := q } p := by
  cases p with
  | commit outcome => cases outcome <;> exact h
  | _ => exact h

/-- A transaction that goes on without a write. -/
theorem Inv.goTo (h : Inv d₀ log s) (ht : TxnInv s.tables (s.txns.Held tx) t) {p : Point} (hp : PointInv t p) :
    StepSpec d₀ log s (s.put tx { t with point := p }) :=
  h.put ⟨ht.step, ht.challenge, hp.goTo p⟩

theorem acceptTOTPCode_spec (h : Inv d₀ log s) (ht : TxnInv s.tables (s.txns.Held tx) t) (hstep : t.step = none)
    (hchallenge : t.challenge = none) (user : UUID) (secret code : String) (appNow : Time) :
    StepSpec d₀ log s (acceptTOTPCode cfg s tx t user secret code appNow) := by
  unfold acceptTOTPCode
  split
  · exact h.fail
  · exact h.goTo ht (.reject hstep hchallenge)
  · exact h.goTo ht ⟨hstep, hchallenge⟩

theorem stepStart_spec (h : Inv d₀ log s) (ht : TxnInv s.tables (s.txns.Held tx) t) (hstep : t.step = none)
    (hchallenge : t.challenge = none) (appNow : Time) : StepSpec d₀ log s (stepStart cfg s tx t appNow) := by
  unfold stepStart
  split
  · exact acceptTOTPCode_spec h ht hstep hchallenge ..
  · split
    · exact h.fail
    · split
      · exact h.fail
      · split
        · exact h.goTo ht ⟨hchallenge, Or.inl ⟨rfl, hstep⟩⟩
        · exact acceptTOTPCode_spec h ht hstep hchallenge ..

/-- The UPDATE that records a step locks its row, and finds the last step below it. -/
theorem TxnInv.recordStep (hchallenge : t.challenge = none) {user : UUID} {n : Int}
    (hrecords : (s.tables.users user).any (t.call.records n) = true) :
    TxnInv s.tables ((s.txns.lock tx (.user user)).Held tx)
      { t with point := t.call.accept cfg user n, step := some (user, n) } := by
  refine ⟨fun u m hm => ?_, fun c w hw => absurd (hchallenge.symm.trans hw) (Option.some_ne_none _).symm, ?_⟩
  · obtain ⟨rfl, rfl⟩ := Prod.mk.inj (Option.some.inj hm)
    obtain ⟨r, hr, hrecord⟩ := (Option.any_eq_true _ _).mp hrecords
    exact ⟨Txns.held_lock, r, hr, (Bool.and_eq_true_iff.mp hrecord).2⟩
  · cases t.call with
    | finishTOTPLoginAny => exact ⟨hchallenge, Or.inr ⟨user, n, rfl, rfl⟩⟩
    | acceptTOTPLogin => exact ⟨rfl, hchallenge⟩

/-- The UPDATE that counts a wrong code. -/
theorem TxnInv.countWrong (hstep : t.step = none) {challenge : String} {c : Challenge}
    (hc : s.tables.challenges challenge = some c) {p : Point}
    (hp : p = .deleteAtCap challenge ∨ p = .commit (.counted challenge) ∧ c.attempts + 1 < totpMaxWrongCodes) :
    TxnInv s.tables ((s.txns.lock tx (.challenge challenge)).Held tx)
      { t with challenge := some (challenge, some { c with attempts := c.attempts + 1 }), point := p } := by
  refine ⟨fun u n hn => absurd (hstep.symm.trans hn) (Option.some_ne_none _).symm, fun h w hw => ?_, ?_⟩
  · obtain ⟨rfl, rfl⟩ := Prod.mk.inj (Option.some.inj hw)
    refine ⟨Txns.held_lock, c, hc, fun c' hc' => ?_⟩
    obtain rfl := Option.some.inj hc'
    rfl
  · rcases hp with rfl | ⟨rfl, hcap⟩
    · exact ⟨hstep, _, rfl⟩
    · refine ⟨hstep, _, rfl, fun c' hc' => ?_⟩
      obtain rfl := Option.some.inj hc'
      exact hcap

/-- The DELETE of a spent challenge. -/
theorem TxnInv.deleteChallenge (ht : TxnInv s.tables (s.txns.Held tx) t) {challenge : String} {then' : Outcome}
    (hpoint : t.point = .deleteRow challenge then') {c : Challenge} (hc : s.tables.challenges challenge = some c) :
    TxnInv s.tables ((s.txns.lock tx (.challenge challenge)).Held tx)
      { t with challenge := some (challenge, none), point := .commit then' } := by
  refine ⟨fun u n hn => ?_, fun h w hw => ?_, ?_⟩
  · exact (ht.step u n hn).imp Txns.Held.lock fun hrow => hrow
  · obtain ⟨rfl, rfl⟩ := Prod.mk.inj (Option.some.inj hw)
    exact ⟨Txns.held_lock, c, hc, fun c' hc' => absurd hc' (Option.not_mem_none _)⟩
  · have hp := ht.point
    rw [hpoint] at hp
    obtain ⟨-, ⟨rfl, hstep⟩ | ⟨u, n, rfl, hstep⟩⟩ := hp
    · refine ⟨hstep, fun h w hw => ?_⟩
      exact (Prod.mk.inj (Option.some.inj hw)).2.symm
    · exact ⟨hstep, rfl⟩

theorem deletedNone_spec (h : Inv d₀ log s) (ht : TxnInv s.tables (s.txns.Held tx) t) {challenge : String}
    {then' : Outcome} (hp : PointInv t (.delete challenge then')) : StepSpec d₀ log s (deletedNone s tx t then') := by
  unfold deletedNone
  split
  · next hrejected =>
      refine h.goTo ht ?_
      obtain ⟨hchallenge, ⟨-, hstep⟩ | ⟨u, n, hopened, -⟩⟩ := hp
      · exact ⟨hstep, fun c w hw => absurd (hchallenge.symm.trans hw) (Option.some_ne_none _).symm⟩
      · cases hrejected.symm.trans hopened
  · exact h.fail

theorem commit_spec (h : Inv d₀ log s) (htxn : s.txns.txn tx = some t) {outcome : Outcome}
    (hpoint : t.point = .commit outcome) :
    StepSpec d₀ log s (⟨t.apply s.tables, s.txns.close tx⟩, .ended outcome) := by
  have ht := h.each tx t htxn
  refine ⟨⟨?_, ht.history_ended hpoint h.history, ht.singleUse_ended hpoint h.history h.singleUse⟩, fun hnone u => ?_⟩
  · exact h.each.close fun j x hj _ hx => hx.kept (ht.kept_apply fun _ hk hk' => hj (hk'.unique hk))
  · have hp := ht.point
    rw [hpoint] at hp
    rw [ht.lastStep_ended hp, hnone, Option.bind_none, Option.none_or]

theorem stepTxn_spec (h : Inv d₀ log s) (htxn : s.txns.txn tx = some t) {appNow : Time}
    (hstep : stepTxn cfg s tx t appNow = some r) : StepSpec d₀ log s r := by
  have ht := h.each tx t htxn
  have hp := ht.point
  unfold stepTxn at hstep
  split at hstep
  · next hpoint =>
      obtain rfl := Option.some.inj hstep
      rw [hpoint] at hp
      exact stepStart_spec h ht hp.1 hp.2 appNow
  · next user n hpoint =>
      obtain rfl := Option.some.inj hstep
      rw [hpoint] at hp
      split
      · exact h.goTo ht hp
      · exact h.goTo ht (.reject hp.1 hp.2)
  · next user n hpoint =>
      rw [hpoint] at hp
      split at hstep
      · next hfree =>
          obtain rfl := Option.some.inj hstep
          split
          · next hrecords => exact h.lockPut hfree (.recordStep hp.2 hrecords)
          · exact h.goTo ht (.reject hp.1 hp.2)
      · cases hstep
  · next challenge hpoint =>
      obtain rfl := Option.some.inj hstep
      rw [hpoint] at hp
      split
      · exact h.goTo ht hp
      · exact h.fail
  · next challenge hpoint =>
      rw [hpoint] at hp
      split at hstep
      · next hfree =>
          obtain rfl := Option.some.inj hstep
          split
          · exact h.fail
          · next c hc =>
              refine h.lockPut hfree (.countWrong hp.1 hc ?_)
              split
              · next hcap => exact Or.inr ⟨rfl, hcap⟩
              · exact Or.inl rfl
      · cases hstep
  · next challenge hpoint =>
      obtain rfl := Option.some.inj hstep
      rw [hpoint] at hp
      obtain ⟨hnone, w, hw⟩ := hp
      refine h.put ⟨ht.step, fun c w' hw' => ?_, hnone, none, rfl, fun c hc => absurd hc (Option.not_mem_none _)⟩
      obtain ⟨rfl, rfl⟩ := Prod.mk.inj (Option.some.inj hw')
      obtain ⟨hheld, r, hr, -⟩ := ht.challenge _ w hw
      exact ⟨hheld, r, hr, fun c hc => absurd hc (Option.not_mem_none _)⟩
  · next challenge then' hpoint =>
      obtain rfl := Option.some.inj hstep
      rw [hpoint] at hp
      split
      · exact h.goTo ht hp
      · exact deletedNone_spec h ht hp
  · next challenge then' hpoint =>
      rw [hpoint] at hp
      split at hstep
      · next hfree =>
          obtain rfl := Option.some.inj hstep
          split
          · next hsome =>
              obtain ⟨c, hc⟩ := Option.isSome_iff_exists.mp hsome
              exact h.lockPut hfree (ht.deleteChallenge hpoint hc)
          · exact deletedNone_spec h ht hp
      · cases hstep
  · next outcome hpoint =>
      obtain rfl := Option.some.inj hstep
      exact commit_spec h htxn hpoint

theorem step_spec (h : Inv d₀ log s) {a : Action} (hstep : step cfg s a = some r) : StepSpec d₀ log s r := by
  cases a with
  | begin tx now call =>
      simp only [step] at hstep
      split at hstep
      · cases hstep
      · obtain rfl := Option.some.inj hstep
        exact h.put (.unwritten rfl rfl ⟨rfl, rfl⟩)
  | next tx appNow =>
      obtain ⟨t, ht, hstep⟩ := Option.bind_eq_some_iff.mp hstep
      exact stepTxn_spec h ht hstep
  | rollback tx =>
      simp only [step] at hstep
      split at hstep
      · cases hstep
      · obtain rfl := Option.some.inj hstep
        exact h.fail

theorem inv_start (d : Tables) : Inv d [] (start d) := by
  refine ⟨Txns.Each.idle, ⟨fun c hc => absurd rfl hc, fun c r hr => ⟨?_, fun hne => absurd rfl hne⟩, fun u => ?_⟩,
    fun c => Nat.zero_le 1, fun pre post e c hlog => ?_, fun u => ?_⟩
  · rw [Tables.attempts, show d.challenges c = some r from hr]
    rfl
  · show d.lastStep u = ((d.lastStep u).toList ++ []).getLast?
    rw [List.append_nil]
    cases d.lastStep u with
    | none => rfl
    | some n => rfl
  · exact absurd hlog.symm (by simp)
  · show ((d.lastStep u).toList ++ []).Pairwise (· < ·)
    rw [List.append_nil]
    exact Option.pairwise_toList

end steps

section runs

variable {cfg : Config} {d : Tables} {log : List Event} {s : State}

theorem inv_run (hrun : (system cfg).Run (start d) log s) : Inv d log s :=
  hrun.invariant (Inv d) (inv_start d) fun _ _ _ _ _ hinv _ hstep => (step_spec hinv hstep).inv

end runs

/-- One secret, with its codes at the time steps 2 and 3. -/
def raceCfg : Config where
  sha256 token := if token = "AQEBAQEBAQEBAQEBAQEBAQEBAQEBAQEBAQEBAQEBAQE" then "56d5fa73" else ""
  totp :=
    { decodeKey := fun secret =>
        if secret = "JBSWY3DPEHPK3PXP" then some [72, 101, 108, 108, 111, 33, 222, 173, 190, 239] else none
      digits := fun _ counter => if counter = 2 then "602287" else if counter = 3 then "143627" else "" }

/-- A user with that secret, and one challenge. -/
def raceTables : Tables where
  users := Function.update (fun _ => none) 7 (some ⟨acme, some "JBSWY3DPEHPK3PXP", none⟩)
  challenges := Function.update (fun _ => none) "56d5fa73" (some ⟨7, seconds 360, "password", 0⟩)

/-- Two requests finish the challenge with one code, and the second waits for the user's row; a login with the next
code follows. -/
def racingFinishes : List Action :=
  let finish := Call.finishTOTPLoginAny "AQEBAQEBAQEBAQEBAQEBAQEBAQEBAQEBAQEBAQEBAQE" "602287"
  [.begin 0 (seconds 60) finish, .begin 1 (seconds 60) finish, .next 0 (seconds 60), .next 1 (seconds 60),
    .next 0 (seconds 60), .next 1 (seconds 60), .next 0 (seconds 60), .next 0 (seconds 60), .next 0 (seconds 60),
    .next 0 (seconds 60), .next 1 (seconds 60), .next 1 (seconds 60),
    .begin 2 (seconds 90) (.acceptTOTPLogin acme 7 "JBSWY3DPEHPK3PXP" "143627"), .next 2 (seconds 90),
    .next 2 (seconds 90), .next 2 (seconds 90), .next 2 (seconds 90)]

theorem racingFinishes_runs : ((system raceCfg).execIf (fun _ _ _ => True) [] (start raceTables) racingFinishes).any
    (fun r => decide (acceptedSteps 7 r.1 = [2, 3]) && decide (r.1.countP (Event.opens "56d5fa73") = 1)) = true := by
  decide +kernel

end ThesadaApp.TotpRows
