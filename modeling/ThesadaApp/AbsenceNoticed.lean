import ThesadaApp.AbsenceSweep

/-!
A device that stays quiet is noticed, as long as nothing stands in its place: no alert the device has sent itself under
the code of the sweep, and fewer devices than a batch holds that have been quiet as long and cannot be raised. Every
sweep then raises one of the devices quiet as long, until it is the device's turn.
-/

namespace ThesadaApp.Absence

/-- The payload of a sweep. No device can send it: it has no severity. -/
def Config.BySweep (cfg : Config) (a : StoredAlert) : Prop := ∃ t, a.raw = some (cfg.absencePayload t)

/-- What a sweep has stored is an absence alert. -/
def Sourced (cfg : Config) (s : State) : Prop := ∀ a ∈ s.alerts, cfg.BySweep a → a.code = "absence"

/-- A sweep has raised the device since that time. -/
def Noticed (cfg : Config) (s : State) (devicePK : UUID) (t : Time) : Prop :=
  ∃ a ∈ s.alerts, a.devicePK = devicePK ∧ a.code = "absence" ∧ t ≤ a.receivedAt ∧ cfg.BySweep a

/-- Every absence alert of the device since that time is of a sweep. -/
def NotForged (cfg : Config) (s : State) (devicePK : UUID) (t : Time) : Prop :=
  ∀ a ∈ s.alerts, a.devicePK = devicePK → a.code = "absence" → t ≤ a.receivedAt → cfg.BySweep a

/-- A paired device, last seen then, that has been quiet for the window. -/
structure Quiet (s : State) (d : DeviceRow) (lastSeen : Sighting) : Prop where
  mem : d ∈ s.devices
  paired : d.pairedAt ≠ none
  seen : d.lastSeenAt = some lastSeen
  due : lastSeen.time ≤ s.clock - absenceWindow

/-- The tenant is below its cap of alerts. -/
def State.belowQuota (cfg : Config) (s : State) (now : Time) (tenantID : Slug) : Bool :=
  quotaAllowEvent cfg.quotaEventsPerDay s.tenantOf s.alerts now tenantID

/-- A paired device quiet since then or longer, which no alert of this stretch is stored for. -/
def ahead (alerts : List StoredAlert) (t : Time) (d : DeviceRow) : Bool :=
  d.pairedAt ≠ none && d.lastSeenAt.any fun l => l.time ≤ t && !absentSince alerts d.id l.time

/-- The candidate a sweep comes to next. -/
def State.turn (s : State) : Option Candidate := s.sweep.bind fun sweep => sweep.batch.head?

/-- Only sweeps, none of whose queries fails; the device is quiet by the clock of the process as well, and its tenant
is below its cap when it is the device's turn. -/
def SweepsOnly (cfg : Config) (d : DeviceRow) (lastSeen : Sighting) (_log : List Event) (s : State) : Action → Prop
  | .scan _ appNow _ => absenceWindow ≤ appNow - lastSeen.time
  | .raise now fails =>
      fails = false ∧ ∀ c, s.turn = some c → c.devicePK = d.id → s.belowQuota cfg now d.tenantID = true
  | .finish => True
  | _ => False

/-- Of the devices quiet as long, fewer than a batch holds are of tenants at their cap. -/
def Unblocked (cfg : Config) (lastSeen : Sighting) (s : State) : Action → Prop
  | .scan now _ _ => s.devices.rows.countP (fun d => ahead s.alerts lastSeen.time d && !s.belowQuota cfg now d.tenantID) <
      absenceBatchLimit
  | _ => True

def Event.isFinished (e : Event) : Bool := e = .finished

/-- The devices to raise before a device last seen then can be sure of its turn. -/
def State.aheadCount (s : State) (t : Time) : Nat := s.devices.rows.countP (ahead s.alerts t)

/-- A candidate as a scan leaves it, for the devices as they are. -/
def Candidate.Of (s : State) (c : Candidate) : Prop :=
  ∃ d ∈ s.devices, d.id = c.devicePK ∧ d.tenantID = c.tenantID ∧ d.pairedAt ≠ none ∧ d.lastSeenAt = some c.lastSeen ∧
    c.lastSeen.time ≤ s.clock - absenceWindow ∧ ∀ t ∈ c.lastAbsence, t < c.lastSeen.time

/-- In what is left of a batch there is a device quiet as long that will be raised: the device itself, or one whose
tenant is below its cap and comes first of its tenant. -/
def Upcoming (cfg : Config) (d : DeviceRow) (lastSeen : Sighting) (s : State) (batch : List Candidate) : Prop :=
  ∃ pre x post, batch = pre ++ x :: post ∧ x.lastSeen.time ≤ lastSeen.time ∧
    absentSince s.alerts x.devicePK x.lastSeen.time = false ∧
      (x.devicePK = d.id ∨ s.belowQuota cfg s.clock x.tenantID = true ∧ ∀ y ∈ pre, y.tenantID ≠ x.tenantID)

/-- The state with the alert of a turn. -/
def State.store (cfg : Config) (s : State) (c : Candidate) : State :=
  { s with alerts := s.alerts ++ [cfg.absenceAlert c s.clock] }

section alerts

variable {alerts : List StoredAlert} {new : StoredAlert} {devicePK : UUID} {t now : Time} {d : DeviceRow}
  {c : Candidate}

theorem absentSince_iff : absentSince alerts devicePK t = true ↔
    ∃ a ∈ alerts, a.devicePK = devicePK ∧ a.code = "absence" ∧ t ≤ a.receivedAt := by
  simp [absentSince, and_assoc]

theorem absentSince_append (h : absentSince alerts devicePK t = true) :
    absentSince (alerts ++ [new]) devicePK t = true := by
  obtain ⟨a, ha, hsince⟩ := absentSince_iff.mp h
  exact absentSince_iff.mpr ⟨a, List.mem_append_left _ ha, hsince⟩

/-- An alert more leaves no more devices ahead. -/
theorem ahead_of_append (h : ahead (alerts ++ [new]) t d = true) : ahead alerts t d = true := by
  obtain ⟨hpaired, hseen⟩ := Bool.and_eq_true_iff.mp h
  refine Bool.and_eq_true_iff.mpr ⟨hpaired, ?_⟩
  obtain ⟨l, hl, hbefore⟩ := (Option.any_eq_true _ _).mp hseen
  obtain ⟨hle, hopen⟩ := Bool.and_eq_true_iff.mp hbefore
  refine (Option.any_eq_true _ _).mpr ⟨l, hl, Bool.and_eq_true_iff.mpr ⟨hle, ?_⟩⟩
  by_contra hraised
  have hsince : absentSince alerts d.id l.time = true := by simpa using hraised
  rw [absentSince_append hsince] at hopen
  cases hopen

theorem candidate_eq_some : candidate alerts now d = some c ↔
    d.pairedAt ≠ none ∧ d.lastSeenAt = some c.lastSeen ∧ c.lastSeen.time ≤ now - absenceWindow ∧
      absentSince alerts d.id c.lastSeen.time = false ∧
        c = ⟨d.tenantID, d.id, c.lastSeen, lastAbsence alerts d.id⟩ := by
  unfold candidate
  rw [Option.bind_eq_some_iff]
  constructor
  · rintro ⟨l, hl, h⟩
    split at h
    · next hopen =>
        obtain rfl := Option.some.inj h
        exact ⟨hopen.1, hl, hopen.2.1, hopen.2.2, rfl⟩
    · cases h
  · rintro ⟨hpaired, hl, hdue, hopen, hc⟩
    exact ⟨c.lastSeen, hl, by rw [if_pos ⟨hpaired, hdue, hopen⟩]; exact congrArg some hc.symm⟩

/-- An absence alert from before the device was seen is all a candidate has. -/
theorem lastAbsence_lt (h : absentSince alerts devicePK t = false) {m : Time}
    (hm : lastAbsence alerts devicePK = some m) : m < t := by
  have hmem := List.max?_mem hm
  obtain ⟨a, ha, rfl⟩ := List.mem_map.mp hmem
  obtain ⟨ha, hcode⟩ := List.mem_filter.mp ha
  by_contra hle
  have hsince : absentSince alerts devicePK t = true := by
    simp only [Bool.and_eq_true, decide_eq_true_eq] at hcode
    exact absentSince_iff.mpr ⟨a, ha, hcode.1, hcode.2, Int.not_lt.mp hle⟩
  rw [hsince] at h
  cases h

end alerts

section raise

variable {cfg : Config} {s : State} {appNow : Time} {c : Candidate}

theorem absenceEpisodeOpen_of {lastSeen : Sighting} {last : Option Time} (hdue : absenceWindow ≤ appNow - lastSeen.time)
    (hlast : ∀ t ∈ last, t < lastSeen.time) :
    absenceEpisodeOpen lastSeen.time appNow absenceWindow (last.getD zeroTime) = true := by
  have hwindow : ¬ (lastSeen.time = zeroTime ∨ absenceWindow ≤ 0) := fun h => h.elim lastSeen.ne_zero (by decide)
  have hdue' : absenceDue lastSeen.time appNow absenceWindow = true := by
    rw [absenceDue, if_neg hwindow]
    exact decide_eq_true hdue
  rw [absenceEpisodeOpen, hdue', if_neg Bool.noConfusion]
  cases last with
  | none => exact if_pos rfl
  | some t =>
      split
      · rfl
      · exact decide_eq_true (hlast t rfl)

theorem Candidate.Of.tenantOf (h : c.Of s) : s.tenantOf c.devicePK = some c.tenantID := by
  obtain ⟨d, hd, hid, htenant, -⟩ := h
  rw [State.tenantOf, ← hid, KeyedTable.find_of_mem hd, Option.map_some, htenant]

/-- A turn stores the alert of its device or leaves the tables alone. -/
theorem raise_alerts (cfg : Config) (s : State) (appNow : Time) (c : Candidate) (fails : Bool) :
    (State.raise cfg s appNow c s.clock fails).1 = s ∨
      (State.raise cfg s appNow c s.clock fails).1 = s.store cfg c := by
  unfold State.raise
  split
  · exact .inl rfl
  · split
    · exact .inl rfl
    · split
      · exact .inl rfl
      · next alerts hok =>
          obtain ⟨-, -, -, rfl⟩ := insertAlert_eq_ok.mp hok
          exact .inr rfl

theorem raise_event (cfg : Config) (s : State) (appNow : Time) (c : Candidate) (now : Time) (fails : Bool) :
    (State.raise cfg s appNow c now fails).2 ≠ .finished := by
  unfold State.raise
  split
  · exact Event.noConfusion
  · split
    · exact Event.noConfusion
    · split
      · exact Event.noConfusion
      · exact Event.noConfusion

/-- No alert of the last ten minutes has the payload of a device that is still open: it would be an absence alert. -/
theorem not_duplicates (hsourced : Sourced cfg s) (hof : c.Of s)
    (hopen : absentSince s.alerts c.devicePK c.lastSeen.time = false) {a : StoredAlert} (ha : a ∈ s.alerts) :
    a.duplicates (cfg.absenceAlert c s.clock) = false := by
  by_contra hdup
  simp only [Bool.not_eq_false, StoredAlert.duplicates, Bool.and_eq_true, decide_eq_true_eq] at hdup
  obtain ⟨⟨⟨hdevice, -⟩, hraw⟩, hrecent⟩ := hdup
  obtain ⟨-, -, -, -, -, -, hdue, -⟩ := hof
  have hcode := hsourced a ha ⟨_, hraw⟩
  have hwindow : alertDedupWindow ≤ absenceWindow := by decide
  have hsince : absentSince s.alerts c.devicePK c.lastSeen.time = true := by
    refine absentSince_iff.mpr ⟨a, ha, hdevice, hcode, Int.le_trans hdue ?_⟩
    exact Int.le_of_lt (Int.lt_of_le_of_lt (Int.sub_le_sub_left hwindow _) hrecent)
  rw [hsince] at hopen
  cases hopen

/-- What a turn needs to raise its device. -/
theorem raise_ready (hsourced : Sourced cfg s) (hof : c.Of s) (hdue : absenceWindow ≤ appNow - c.lastSeen.time)
    (hopen : absentSince s.alerts c.devicePK c.lastSeen.time = false)
    (hquota : s.belowQuota cfg s.clock c.tenantID = true) :
    State.raise cfg s appNow c s.clock false = (s.store cfg c, .raised c.devicePK) := by
  have hlast : ∀ t ∈ c.lastAbsence, t < c.lastSeen.time := by
    obtain ⟨-, -, -, -, -, -, -, hlast⟩ := hof
    exact hlast
  have hinsert : insertAlert cfg.quotaEventsPerDay s.tenantOf s.alerts c.tenantID (cfg.absenceAlert c s.clock) =
      .ok (s.alerts ++ [cfg.absenceAlert c s.clock]) :=
    insertAlert_eq_ok.mpr ⟨hof.tenantOf, fun a ha => not_duplicates hsourced hof hopen ha, hquota, rfl⟩
  rw [State.raise, absenceEpisodeOpen_of hdue hlast, if_neg Bool.noConfusion, if_neg Bool.noConfusion, hinsert]
  rfl

end raise

section sweeps

variable {cfg : Config} {s : State} {d : DeviceRow} {lastSeen : Sighting} {now : Time} {order : List Candidate}

/-- The candidates of a scan that have been quiet as long and cannot be raised are devices that are ahead. -/
theorem countP_order_le (hperm : order.Perm (s.candidates now)) :
    order.countP (fun c => c.lastSeen.time ≤ lastSeen.time && !s.belowQuota cfg now c.tenantID) ≤
      s.devices.rows.countP fun d => ahead s.alerts lastSeen.time d && !s.belowQuota cfg now d.tenantID := by
  rw [hperm.countP_eq, State.candidates, List.countP_filterMap]
  refine List.countP_mono_left fun d _ h => ?_
  cases hc : candidate s.alerts now d with
  | none =>
      rw [hc] at h
      cases h
  | some c =>
      rw [hc] at h
      obtain ⟨hle, hfull⟩ := Bool.and_eq_true_iff.mp h
      obtain ⟨hpaired, hseen, -, hopen, heq⟩ := candidate_eq_some.mp hc
      have htenant : c.tenantID = d.tenantID := by rw [heq]
      refine Bool.and_eq_true_iff.mpr ⟨?_, by rwa [← htenant]⟩
      simp only [ahead, hseen, Option.any_some, hopen, Bool.not_false, Bool.and_true, Bool.and_eq_true]
      exact ⟨decide_eq_true hpaired, hle⟩

theorem mem_candidates {c : Candidate} (hc : c ∈ s.candidates now) :
    ∃ d ∈ s.devices, candidate s.alerts now d = some c :=
  List.mem_filterMap.mp hc

theorem of_candidates {c : Candidate} (hc : c ∈ s.candidates now) {sweep : Option Sweep} :
    c.Of { s with clock := now, sweep } := by
  obtain ⟨d, hd, hcandidate⟩ := mem_candidates hc
  obtain ⟨hpaired, hseen, hdue, hopen, heq⟩ := candidate_eq_some.mp hcandidate
  refine ⟨d, hd, by rw [heq], by rw [heq], hpaired, hseen, hdue, fun t ht => ?_⟩
  rw [heq] at ht
  exact lastAbsence_lt hopen ht

/-- Some device of the batch will be raised. -/
theorem upcoming_scan {appNow : Time} (hquiet : Quiet s d lastSeen) (hclock : s.clock ≤ now)
    (hopen : absentSince s.alerts d.id lastSeen.time = false) (hperm : order.Perm (s.candidates now))
    (hsorted : order.Pairwise fun c c' => c.lastSeen.time ≤ c'.lastSeen.time)
    (hunblocked : Unblocked cfg lastSeen s (.scan now appNow order)) {sweep : Option Sweep} :
    Upcoming cfg d lastSeen { s with clock := now, sweep } (order.take absenceBatchLimit) := by
  have hcandidate : candidate s.alerts now d = some ⟨d.tenantID, d.id, lastSeen, lastAbsence s.alerts d.id⟩ :=
    candidate_eq_some.mpr ⟨hquiet.paired, hquiet.seen,
      Int.le_trans hquiet.due (Int.sub_le_sub_right hclock _), hopen, rfl⟩
  have hmem : (⟨d.tenantID, d.id, lastSeen, lastAbsence s.alerts d.id⟩ : Candidate) ∈ order :=
    hperm.mem_iff.mpr (List.mem_filterMap.mpr ⟨d, hquiet.mem, hcandidate⟩)
  by_cases hin : (⟨d.tenantID, d.id, lastSeen, lastAbsence s.alerts d.id⟩ : Candidate) ∈ order.take absenceBatchLimit
  · obtain ⟨pre, post, hsplit⟩ := List.append_of_mem hin
    exact ⟨pre, _, post, hsplit, Int.le_refl _, hopen, .inl rfl⟩
  · -- the device is not in the batch, so the batch is full and all of it is quiet as long
    rw [← List.take_append_drop absenceBatchLimit order, List.mem_append] at hmem
    have hlater := hmem.resolve_left hin
    have hle : ∀ x ∈ order.take absenceBatchLimit, x.lastSeen.time ≤ lastSeen.time := by
      rw [← List.take_append_drop absenceBatchLimit order, List.pairwise_append] at hsorted
      exact fun x hx => hsorted.2.2 x hx _ hlater
    have hlength : (order.take absenceBatchLimit).length = absenceBatchLimit := by
      have hpos := List.length_pos_of_mem hlater
      rw [List.length_drop] at hpos
      rw [List.length_take]
      omega
    have hfree : ((order.take absenceBatchLimit).find? fun x => s.belowQuota cfg now x.tenantID).isSome = true := by
      by_contra hnone
      rw [Option.not_isSome_iff_eq_none, List.find?_eq_none] at hnone
      have hall : (order.take absenceBatchLimit).countP (fun c =>
          c.lastSeen.time ≤ lastSeen.time && !s.belowQuota cfg now c.tenantID) = absenceBatchLimit := by
        refine Eq.trans (List.countP_eq_length.mpr fun x hx => ?_) hlength
        simpa [hle x hx] using hnone x hx
      have hcount : absenceBatchLimit ≤ order.countP fun c =>
          c.lastSeen.time ≤ lastSeen.time && !s.belowQuota cfg now c.tenantID := by
        rw [← hall]
        exact (List.take_sublist absenceBatchLimit order).countP_le
      exact absurd hunblocked (Nat.not_lt.mpr (Nat.le_trans hcount (countP_order_le hperm)))
    obtain ⟨x, hx⟩ := Option.isSome_iff_exists.mp hfree
    obtain ⟨hquota, pre, post, hsplit, hfull⟩ := List.find?_eq_some_iff_append.mp hx
    have hxmem : x ∈ order.take absenceBatchLimit := List.mem_of_find?_eq_some hx
    obtain ⟨dx, -, hcx⟩ := mem_candidates (hperm.subset (List.mem_of_mem_take hxmem))
    obtain ⟨-, -, -, hopenx, heq⟩ := candidate_eq_some.mp hcx
    have hid : x.devicePK = dx.id := by rw [heq]
    refine ⟨pre, x, post, hsplit, hle x hxmem, by rw [hid]; exact hopenx, .inr ⟨hquota, fun y hy htenant => ?_⟩⟩
    have hfully := hfull y hy
    rw [htenant, hquota] at hfully
    cases hfully

theorem ahead_eq {alerts : List StoredAlert} {t : Time} {l : Sighting} (hpaired : d.pairedAt ≠ none)
    (hseen : d.lastSeenAt = some l) (hle : l.time ≤ t) : ahead alerts t d = !absentSince alerts d.id l.time := by
  simp [ahead, hpaired, hseen, hle]

section store

variable {c x : Candidate}

theorem aheadCount_store_le {t : Time} : (s.store cfg c).aheadCount t ≤ s.aheadCount t :=
  List.countP_mono_left fun _ _ h => ahead_of_append h

/-- A candidate quiet as long is no longer ahead once it has an alert. -/
theorem aheadCount_store_lt (hof : x.Of s) (hle : x.lastSeen.time ≤ lastSeen.time)
    (hopen : absentSince s.alerts x.devicePK x.lastSeen.time = false)
    (hraised : absentSince (s.store cfg c).alerts x.devicePK x.lastSeen.time = true) :
    (s.store cfg c).aheadCount lastSeen.time < s.aheadCount lastSeen.time := by
  obtain ⟨d, hd, hid, -, hpaired, hseen, -⟩ := hof
  have hbefore : ahead s.alerts lastSeen.time d = true := by rw [ahead_eq hpaired hseen hle, hid, hopen, Bool.not_false]
  have hafter : ahead (s.store cfg c).alerts lastSeen.time d = false := by
    rw [ahead_eq hpaired hseen hle, hid, hraised, Bool.not_true]
  exact KeyedTable.countP_lt (KeyedTable.mem_rows.mpr hd) (fun _ _ h => ahead_of_append h) hbefore hafter

theorem absentSince_store (hle : c.lastSeen.time ≤ s.clock) :
    absentSince (s.store cfg c).alerts c.devicePK c.lastSeen.time = true :=
  absentSince_iff.mpr ⟨_, List.mem_append_right _ List.mem_cons_self, rfl, rfl, hle⟩

theorem Sourced.store (h : Sourced cfg s) : Sourced cfg (s.store cfg c) := by
  intro a ha hsweep
  rcases List.mem_append.mp ha with ha | ha
  · exact h a ha hsweep
  · rw [List.mem_singleton.mp ha]
    rfl

theorem NotForged.store {devicePK : UUID} {t : Time} (h : NotForged cfg s devicePK t) :
    NotForged cfg (s.store cfg c) devicePK t := by
  intro a ha hdevice hcode hsince
  rcases List.mem_append.mp ha with ha | ha
  · exact h a ha hdevice hcode hsince
  · rw [List.mem_singleton.mp ha]
    exact ⟨_, rfl⟩

theorem Noticed.store {devicePK : UUID} {t : Time} (h : Noticed cfg s devicePK t) :
    Noticed cfg (s.store cfg c) devicePK t := by
  obtain ⟨a, ha, hnoticed⟩ := h
  exact ⟨a, List.mem_append_left _ ha, hnoticed⟩

/-- The row of a candidate names its tenant. -/
theorem Candidate.Of.tenantID_eq (h : c.Of s) (hd : d ∈ s.devices) (hid : c.devicePK = d.id) :
    c.tenantID = d.tenantID := by
  obtain ⟨d', hd', hid', htenant, -⟩ := h
  obtain rfl := KeyedTable.eq_of_key hd' hd (hid'.trans hid)
  exact htenant.symm

/-- One turn: it raises a device that is ahead, or the one that will be raised is still to come. -/
theorem upcoming_raise {appNow : Time} {rest : List Candidate} (hsourced : Sourced cfg s) (hd : d ∈ s.devices)
    (hdue : absenceWindow ≤ appNow - lastSeen.time) (hbatch : ∀ y ∈ c :: rest, y.Of s)
    (hturn : c.devicePK = d.id → s.belowQuota cfg s.clock d.tenantID = true)
    (hupcoming : Upcoming cfg d lastSeen s (c :: rest)) :
    (State.raise cfg s appNow c s.clock false).1.aheadCount lastSeen.time < s.aheadCount lastSeen.time ∨
      Upcoming cfg d lastSeen (State.raise cfg s appNow c s.clock false).1 rest := by
  obtain ⟨pre, x, post, hsplit, hle, hopen, hquota⟩ := hupcoming
  have hof : x.Of s := hbatch x (by rw [hsplit]; exact List.mem_append_right _ List.mem_cons_self)
  cases pre with
  | nil =>
      obtain ⟨rfl, rfl⟩ := List.cons.inj hsplit
      have hbelow : s.belowQuota cfg s.clock c.tenantID = true := by
        rcases hquota with hown | ⟨hquota, -⟩
        · rw [hof.tenantID_eq hd hown]
          exact hturn hown
        · exact hquota
      rw [raise_ready hsourced hof (Int.le_trans hdue (Int.sub_le_sub_left hle _)) hopen hbelow]
      refine .inl (aheadCount_store_lt hof hle hopen (absentSince_store ?_))
      obtain ⟨-, -, -, -, -, -, hseen, -⟩ := hof
      exact Int.le_trans hseen (Int.sub_le_self _ (by decide))
  | cons y pre =>
      obtain ⟨rfl, rfl⟩ := List.cons.inj hsplit
      rcases raise_alerts cfg s appNow c false with hsame | hstore
      · rw [hsame]
        exact .inr ⟨pre, x, post, rfl, hle, hopen,
          hquota.imp id fun h => ⟨h.1, fun y hy => h.2 y (List.mem_cons_of_mem _ hy)⟩⟩
      · rw [hstore]
        cases hraised : absentSince (s.store cfg c).alerts x.devicePK x.lastSeen.time with
        | true => exact .inl (aheadCount_store_lt hof hle hopen hraised)
        | false =>
            refine .inr ⟨pre, x, post, rfl, hle, hraised,
              hquota.imp id fun h => ⟨?_, fun y hy => h.2 y (List.mem_cons_of_mem _ hy)⟩⟩
            have hother : s.tenantOf (cfg.absenceAlert c s.clock).devicePK ≠ some x.tenantID := by
              show s.tenantOf c.devicePK ≠ some x.tenantID
              rw [(hbatch c List.mem_cons_self).tenantOf]
              exact fun heq => h.2 c List.mem_cons_self (Option.some.inj heq)
            have hcount := h.1
            rw [State.belowQuota, quotaAllowEvent_iff] at hcount ⊢
            refine hcount.imp id fun hlt => ?_
            show (eventCount s.tenantOf (s.alerts ++ _) s.clock _ : Int) < _
            rw [eventCount_append_other hother]
            exact hlt

/-- Time passes. -/
theorem Candidate.Of.later (h : c.Of s) (hclock : s.clock ≤ now) {sweep : Option Sweep} :
    c.Of { s with clock := now, sweep } := by
  obtain ⟨d, hd, hid, htenant, hpaired, hseen, hdue, hlast⟩ := h
  exact ⟨d, hd, hid, htenant, hpaired, hseen, Int.le_trans hdue (Int.sub_le_sub_right hclock _), hlast⟩

theorem Upcoming.later {batch : List Candidate} (h : Upcoming cfg d lastSeen s batch) (hclock : s.clock ≤ now)
    {sweep : Option Sweep} : Upcoming cfg d lastSeen { s with clock := now, sweep } batch := by
  obtain ⟨pre, x, post, hsplit, hle, hopen, hquota⟩ := h
  exact ⟨pre, x, post, hsplit, hle, hopen, hquota.imp id fun h => ⟨quotaAllowEvent_mono hclock h.1, h.2⟩⟩

theorem Candidate.Of.store (h : x.Of s) : x.Of (s.store cfg c) := h

end store

end sweeps

/-- A sweep that will leave one device less ahead: its candidates are as they were scanned, and one will be raised. -/
structure OnTrack (cfg : Config) (d : DeviceRow) (lastSeen : Sighting) (s : State) (sweep : Sweep) : Prop where
  due : absenceWindow ≤ sweep.now - lastSeen.time
  batch : ∀ c ∈ sweep.batch, c.Of s
  upcoming : Upcoming cfg d lastSeen s sweep.batch

/-- The sweeps it takes, with the one that has begun. -/
def State.sweepsNeeded (s : State) (t : Time) : Nat := s.aheadCount t + s.sweep.toList.length

/-- What holds along a run of sweeps from `s₀`. Until the device has been noticed, each of them leaves one device less
ahead, or will before it ends. -/
structure Inv (cfg : Config) (s₀ : State) (d : DeviceRow) (lastSeen : Sighting) (log : List Event) (s : State) :
    Prop where
  devices : s.devices = s₀.devices
  clock : s₀.clock ≤ s.clock
  sourced : Sourced cfg s
  notForged : NotForged cfg s d.id lastSeen.time
  progress : Noticed cfg s d.id lastSeen.time ∨
    s.aheadCount lastSeen.time + log.countP Event.isFinished ≤ s₀.sweepsNeeded lastSeen.time ∧
      ∀ sweep ∈ s.sweep, s.aheadCount lastSeen.time + log.countP Event.isFinished < s₀.sweepsNeeded lastSeen.time ∨
        OnTrack cfg d lastSeen s sweep

section runs

variable {cfg : Config} {s₀ s s' : State} {d : DeviceRow} {lastSeen : Sighting} {log : List Event} {a : Action}
  {e : Event}

theorem Quiet.later (h : Quiet s₀ d lastSeen) (hinv : Inv cfg s₀ d lastSeen log s) : Quiet s d lastSeen :=
  ⟨by rw [hinv.devices]; exact h.mem, h.paired, h.seen, Int.le_trans h.due (Int.sub_le_sub_right hinv.clock _)⟩

/-- A device that no sweep has raised is open: no one else has. -/
theorem Inv.open_of_not_noticed (h : Inv cfg s₀ d lastSeen log s) (hnot : ¬ Noticed cfg s d.id lastSeen.time) :
    absentSince s.alerts d.id lastSeen.time = false := by
  by_contra hraised
  obtain ⟨a, ha, hdevice, hcode, hsince⟩ := absentSince_iff.mp (by simpa using hraised)
  exact hnot ⟨a, ha, hdevice, hcode, hsince, h.notForged a ha hdevice hcode hsince⟩

theorem countP_isFinished_snoc (he : e.isFinished = false) :
    (log ++ [e]).countP Event.isFinished = log.countP Event.isFinished := by
  rw [List.countP_append, List.countP_singleton, he]
  rfl

theorem Inv.scan (h : Inv cfg s₀ d lastSeen log s) (hquiet : Quiet s₀ d lastSeen) {now appNow : Time}
    {order : List Candidate} (hok : SweepsOnly cfg d lastSeen log s (.scan now appNow order))
    (hunblocked : Unblocked cfg lastSeen s (.scan now appNow order)) (hclock : s.clock ≤ now)
    (hperm : order.Perm (s.candidates now))
    (hsorted : order.Pairwise fun c c' => c.lastSeen.time ≤ c'.lastSeen.time) :
    Inv cfg s₀ d lastSeen (log ++ [.scanned])
      { s with clock := now, sweep := some ⟨appNow, order.take absenceBatchLimit⟩ } := by
  refine ⟨h.devices, Int.le_trans h.clock hclock, h.sourced, h.notForged, ?_⟩
  rw [countP_isFinished_snoc rfl]
  by_cases hnoticed : Noticed cfg s d.id lastSeen.time
  · exact .inl hnoticed
  · refine .inr ⟨(h.progress.resolve_left hnoticed).1, ?_⟩
    rintro sweep ⟨⟩
    refine .inr ⟨hok, fun c hc => of_candidates (hperm.subset (List.mem_of_mem_take hc)), ?_⟩
    exact upcoming_scan (hquiet.later h) hclock (h.open_of_not_noticed hnoticed) hperm hsorted hunblocked

/-- A turn of a sweep on track. -/
theorem OnTrack.raise {now appNow : Time} {c : Candidate} {rest : List Candidate}
    (h : OnTrack cfg d lastSeen s ⟨appNow, c :: rest⟩) (hsourced : Sourced cfg s) (hd : d ∈ s.devices)
    (hturn : c.devicePK = d.id → s.belowQuota cfg now d.tenantID = true) (hclock : s.clock ≤ now) :
    let t := { s with clock := now, sweep := some ⟨appNow, rest⟩ }
    (State.raise cfg t appNow c now false).1.aheadCount lastSeen.time < s.aheadCount lastSeen.time ∨
      OnTrack cfg d lastSeen (State.raise cfg t appNow c now false).1 ⟨appNow, rest⟩ := by
  intro t
  have hbatch : ∀ y ∈ c :: rest, y.Of t := fun y hy => (h.batch y hy).later hclock
  refine (upcoming_raise (s := t) hsourced hd h.due hbatch hturn (h.upcoming.later hclock)).imp id fun hupcoming => ?_
  refine ⟨h.due, fun y hy => ?_, hupcoming⟩
  have hy := hbatch y (List.mem_cons_of_mem _ hy)
  rcases raise_alerts cfg t appNow c false with hsame | hstore
  · rw [hsame]
    exact hy
  · rw [hstore]
    exact hy.store

theorem Inv.raise (h : Inv cfg s₀ d lastSeen log s) (hquiet : Quiet s₀ d lastSeen) {now appNow : Time} {c : Candidate}
    {rest : List Candidate} (hsweep : s.sweep = some ⟨appNow, c :: rest⟩)
    (hturn : c.devicePK = d.id → s.belowQuota cfg now d.tenantID = true) (hclock : s.clock ≤ now) :
    let r := State.raise cfg { s with clock := now, sweep := some ⟨appNow, rest⟩ } appNow c now false
    Inv cfg s₀ d lastSeen (log ++ [r.2]) r.1 := by
  intro r
  have hevent : r.2.isFinished = false := decide_eq_false (raise_event _ _ _ _ _ _)
  have hprogress : Noticed cfg s d.id lastSeen.time ∨
      s.aheadCount lastSeen.time + log.countP Event.isFinished ≤ s₀.sweepsNeeded lastSeen.time ∧
        (s.aheadCount lastSeen.time + log.countP Event.isFinished < s₀.sweepsNeeded lastSeen.time ∨
          r.1.aheadCount lastSeen.time < s.aheadCount lastSeen.time ∨ OnTrack cfg d lastSeen r.1 ⟨appNow, rest⟩) :=
    h.progress.imp id fun hprogress => ⟨hprogress.1, (hprogress.2 _ hsweep).imp id fun htrack =>
      htrack.raise h.sourced (hquiet.later h).mem hturn hclock⟩
  have hstored : r.1 = { s with clock := now, sweep := some ⟨appNow, rest⟩ } ∨
      r.1 = State.store cfg { s with clock := now, sweep := some ⟨appNow, rest⟩ } c := raise_alerts _ _ _ _ false
  rcases hstored with hr | hr
  · rw [hr] at hprogress ⊢
    refine ⟨h.devices, Int.le_trans h.clock hclock, h.sourced, h.notForged, ?_⟩
    rw [countP_isFinished_snoc hevent]
    refine hprogress.imp id fun hprogress => ⟨hprogress.1, ?_⟩
    rintro sweep ⟨⟩
    exact hprogress.2.imp id fun h => h.resolve_left (Nat.lt_irrefl _)
  · have hle : r.1.aheadCount lastSeen.time ≤ s.aheadCount lastSeen.time := by
      rw [hr]
      exact aheadCount_store_le
    rw [hr] at hprogress hle ⊢
    refine ⟨h.devices, Int.le_trans h.clock hclock, Sourced.store h.sourced, NotForged.store h.notForged, ?_⟩
    rw [countP_isFinished_snoc hevent]
    refine hprogress.imp (fun h => Noticed.store h) fun hprogress => ⟨by omega, ?_⟩
    rintro sweep ⟨⟩
    rcases hprogress.2 with hless | hless | htrack
    · exact .inl (by omega)
    · exact .inl (by omega)
    · exact .inr htrack

theorem Inv.finish (h : Inv cfg s₀ d lastSeen log s) {now : Time} (hsweep : s.sweep = some ⟨now, []⟩) :
    Inv cfg s₀ d lastSeen (log ++ [.finished]) { s with sweep := none } := by
  refine ⟨h.devices, h.clock, h.sourced, h.notForged, h.progress.imp id fun hprogress => ⟨?_, ?_⟩⟩
  · have hcount : (log ++ [Event.finished]).countP Event.isFinished = log.countP Event.isFinished + 1 := by
      rw [List.countP_append]
      rfl
    rcases hprogress.2 _ hsweep with hless | ⟨-, -, pre, x, post, hsplit, -⟩
    · rw [hcount]
      exact hless
    · cases pre with
      | nil => cases hsplit
      | cons y pre => cases hsplit
  · rintro sweep ⟨⟩

/-- One step of a sweep. -/
theorem Inv.step (h : Inv cfg s₀ d lastSeen log s) (hquiet : Quiet s₀ d lastSeen)
    (hok : SweepsOnly cfg d lastSeen log s a ∧ Unblocked cfg lastSeen s a)
    (hstep : Absence.step cfg s a = some (s', e)) : Inv cfg s₀ d lastSeen (log ++ [e]) s' := by
  cases a with
  | sight devicePK now => exact hok.1.elim
  | ingest devicePK now tenantID payload => exact hok.1.elim
  | scanFails => exact hok.1.elim
  | scan now appNow order =>
      simp only [Absence.step] at hstep
      split at hstep
      · next hscan =>
          obtain ⟨rfl, rfl⟩ := Prod.mk.inj (Option.some.inj hstep)
          exact h.scan hquiet hok.1 hok.2 hscan.2.1 hscan.2.2.1 hscan.2.2.2
      · cases hstep
  | raise now fails =>
      simp only [Absence.step] at hstep
      split at hstep
      · next appNow c rest hsweep =>
          split at hstep
          · next hclock =>
              obtain ⟨rfl, hturn⟩ := hok.1
              have hr := Option.some.inj hstep
              obtain ⟨rfl, rfl⟩ := Prod.mk.inj (Eq.trans hr.symm rfl)
              exact h.raise hquiet hsweep (hturn c (by rw [State.turn, hsweep]; rfl)) hclock
          · cases hstep
      · cases hstep
  | finish =>
      simp only [Absence.step] at hstep
      split at hstep
      · next hsweep =>
          obtain ⟨rfl, rfl⟩ := Prod.mk.inj (Option.some.inj hstep)
          exact h.finish hsweep
      · cases hstep

theorem parseAlert_absencePayload (cfg : Config) (t : Time) :
    ∃ err, parseAlert (some (cfg.absencePayload t)) = .error err :=
  ⟨.severity, rfl⟩

/-- No message of a device passes for an alert of a sweep. -/
theorem sourced_ingest (h : Sourced cfg s) {devicePK : UUID} {now : Time} {tenantID : Slug} {payload : Option Json} :
    Sourced cfg (s.ingest cfg devicePK now tenantID payload).1 := by
  unfold State.ingest
  split
  · exact h
  · next severity code message hparse =>
      split
      · exact h
      · next alerts hok =>
          obtain ⟨-, -, -, rfl⟩ := insertAlert_eq_ok.mp hok
          rintro a ha ⟨t, hraw⟩
          rcases List.mem_append.mp ha with ha | ha
          · exact h a ha ⟨t, hraw⟩
          · rw [List.mem_singleton.mp ha] at hraw
            obtain rfl : payload = some (cfg.absencePayload t) := hraw
            obtain ⟨err, herr⟩ := parseAlert_absencePayload cfg t
            rw [herr] at hparse
            cases hparse

theorem sourced_step (h : Sourced cfg s) (hstep : Absence.step cfg s a = some (s', e)) : Sourced cfg s' := by
  cases a with
  | sight devicePK now =>
      simp only [Absence.step] at hstep
      split at hstep
      · obtain ⟨rfl, -⟩ := Prod.mk.inj (Option.some.inj hstep)
        exact h
      · cases hstep
  | ingest devicePK now tenantID payload =>
      simp only [Absence.step] at hstep
      split at hstep
      · obtain rfl : (s.ingest cfg devicePK now tenantID payload).1 = s' := congrArg Prod.fst (Option.some.inj hstep)
        exact sourced_ingest h
      · cases hstep
  | scan now appNow order =>
      simp only [Absence.step] at hstep
      split at hstep
      · obtain ⟨rfl, -⟩ := Prod.mk.inj (Option.some.inj hstep)
        exact h
      · cases hstep
  | scanFails =>
      simp only [Absence.step] at hstep
      split at hstep
      · obtain ⟨rfl, -⟩ := Prod.mk.inj (Option.some.inj hstep)
        exact h
      · cases hstep
  | raise now fails =>
      simp only [Absence.step] at hstep
      split at hstep
      · next appNow c rest hsweep =>
          split at hstep
          · have hraise := congrArg Prod.fst (Option.some.inj hstep)
            obtain rfl : (State.raise cfg { s with clock := now, sweep := some ⟨appNow, rest⟩ } appNow c now fails).1 =
              s' := hraise
            rcases raise_alerts cfg { s with clock := now, sweep := some ⟨appNow, rest⟩ } appNow c fails with
              hsame | hstore
            · rw [hsame]
              exact h
            · rw [hstore]
              exact Sourced.store h
          · cases hstep
      · cases hstep
  | finish =>
      simp only [Absence.step] at hstep
      split at hstep
      · obtain ⟨rfl, -⟩ := Prod.mk.inj (Option.some.inj hstep)
        exact h
      · cases hstep

theorem sourced_run {pre : List Event} (h : Sourced cfg s₀) (hrun : (system cfg).Run s₀ pre s) : Sourced cfg s :=
  hrun.invariant (fun _ => Sourced cfg) h fun _ _ _ _ _ hinv _ hstep => sourced_step hinv hstep

/-- After any history of alerts and sightings, sweeps raise every device that has been quiet for the window: after as
many of them as there are devices ahead. -/
theorem absence_noticed {s₁ s₂ : State} {pre post : List Event} (hsourced : Sourced cfg s₀)
    (hhistory : (system cfg).Run s₀ pre s₁) (hquiet : Quiet s₁ d lastSeen)
    (hforged : NotForged cfg s₁ d.id lastSeen.time)
    (hsweeps : (system cfg).RunIf (fun log s a => SweepsOnly cfg d lastSeen log s a ∧ Unblocked cfg lastSeen s a)
      s₁ post s₂)
    (hmany : s₁.sweepsNeeded lastSeen.time ≤ post.countP Event.isFinished) : Noticed cfg s₂ d.id lastSeen.time := by
  have hzero : Inv cfg s₁ d lastSeen [] s₁ := by
    refine ⟨rfl, Int.le_refl _, sourced_run hsourced hhistory, hforged, .inr ⟨Nat.le_add_right _ _, ?_⟩⟩
    intro sweep hsweep
    have hbegun : s₁.sweep.toList.length = 1 := by rw [hsweep]; rfl
    exact .inl (by rw [State.sweepsNeeded, hbegun]; exact Nat.lt_succ_self _)
  have hinv := hsweeps.invariant (Inv cfg s₁ d lastSeen) hzero fun _ _ _ _ _ h hok hstep => h.step hquiet hok hstep
  by_contra hnot
  have hcount := (hinv.progress.resolve_left hnot).1
  have hahead : ahead s₂.alerts lastSeen.time d = true := by
    rw [ahead_eq hquiet.paired hquiet.seen (Int.le_refl _), hinv.open_of_not_noticed hnot, Bool.not_false]
  have hpos : 0 < s₂.aheadCount lastSeen.time := List.countP_pos_iff.mpr ⟨d, (hquiet.later hinv).mem, hahead⟩
  omega

end runs

def epoch : Sighting := ⟨0, by decide⟩

/-- A cap of so many alerts a day; the payloads of the runs below are about the epoch. -/
def dailyCap (max : Int) : Config := ⟨max, fun _ => "1970-01-01T00:00:00Z", fun _ => "1970-01-01T00:00:00Z"⟩

def quietDevice : DeviceRow := ⟨7, acme, some 0, some epoch⟩

/-- One device, last seen a thousand seconds ago. -/
def quietFleet : State := ⟨⟨[quietDevice], by decide⟩, [], seconds 1000, none⟩

/-- Another of another tenant that has been silent as long, and one that was seen since. -/
def wideFleet : State where
  devices := ⟨[⟨8, beta, some 0, some epoch⟩, quietDevice, ⟨9, acme, some 0, some ⟨seconds 900, by decide⟩⟩], by decide⟩
  alerts := []
  clock := seconds 1000
  sweep := none

theorem quietFleet_noticed : ∃ log s, (system (dailyCap 1)).Run wideFleet log s ∧ Noticed (dailyCap 1) s 7 0 := by
  have hscanned : (system (dailyCap 1)).RunIf (fun log s a => SweepsOnly (dailyCap 1) quietDevice epoch log s a ∧
      Unblocked (dailyCap 1) epoch s a) wideFleet [.scanned]
      { wideFleet with sweep := some ⟨seconds 1000, [⟨beta, 8, epoch, none⟩, ⟨acme, 7, epoch, none⟩]⟩ } :=
    .snoc (a := Action.scan (seconds 1000) (seconds 1000) [⟨beta, 8, epoch, none⟩, ⟨acme, 7, epoch, none⟩]) .nil
      ⟨show absenceWindow ≤ seconds 1000 - 0 by decide, show _ < absenceBatchLimit by decide⟩ rfl
  have hraised := hscanned.snoc (a := Action.raise (seconds 1000) false) ⟨⟨rfl, fun _ _ _ => by decide⟩, trivial⟩ rfl
  have hboth := hraised.snoc (a := Action.raise (seconds 1000) false) ⟨⟨rfl, fun _ _ _ => by decide⟩, trivial⟩ rfl
  have hswept := hboth.snoc (a := Action.finish) ⟨trivial, trivial⟩ rfl
  -- nothing is left for the second sweep
  have hagain := hswept.snoc (a := Action.scan (seconds 1000) (seconds 1000) [])
    ⟨show absenceWindow ≤ seconds 1000 - 0 by decide, show _ < absenceBatchLimit by decide⟩ rfl
  have hrun := hagain.snoc (a := Action.finish) ⟨trivial, trivial⟩ rfl
  have hsourced : Sourced (dailyCap 1) wideFleet := fun a ha => absurd ha List.not_mem_nil
  refine ⟨_, _, hrun.run, absence_noticed hsourced .nil ?_ ?_ hrun ?_⟩
  · exact ⟨List.mem_cons_of_mem _ List.mem_cons_self, by decide, rfl, by decide⟩
  · exact fun a ha => absurd ha List.not_mem_nil
  · decide

section starved

variable {cfg : Config} {s : State} {d : DeviceRow} {lastSeen : Sighting}

/-- A turn whose tenant is at its cap. -/
theorem raise_full (appNow : Time) {c : Candidate} (hfull : s.belowQuota cfg s.clock c.tenantID = false) :
    ∃ e, State.raise cfg s appNow c s.clock false = (s, e) ∧ e.isFinished = false := by
  have hevent := decide_eq_false (raise_event cfg s appNow c s.clock false)
  refine ⟨_, Prod.ext ?_ rfl, hevent⟩
  unfold State.raise
  split
  · rfl
  · split
    · rfl
    · split
      · rfl
      · next alerts hok =>
          have hbelow : s.belowQuota cfg s.clock c.tenantID = true := (insertAlert_eq_ok.mp hok).2.2.1
          rw [hbelow] at hfull
          cases hfull

/-- The turns of a batch of which no tenant is below its cap. -/
theorem batch_full (cfg : Config) (d : DeviceRow) (lastSeen : Sighting) {appNow : Time} {batch : List Candidate}
    (hsweep : s.sweep = some ⟨appNow, batch⟩)
    (hfull : ∀ c ∈ batch, s.belowQuota cfg s.clock c.tenantID = false ∧ c.devicePK ≠ d.id) :
    ∃ log, (system cfg).RunIf (SweepsOnly cfg d lastSeen) s log { s with sweep := some ⟨appNow, []⟩ } ∧
      log.countP Event.isFinished = 0 := by
  induction batch generalizing s with
  | nil =>
      refine ⟨[], ?_, rfl⟩
      rw [← hsweep]
      exact .nil
  | cons c rest ih =>
      have hstate : ∀ y, y ∈ c :: rest →
          State.belowQuota cfg { s with sweep := some ⟨appNow, rest⟩ } s.clock y.tenantID = false :=
        fun y hy => (hfull y hy).1
      obtain ⟨e, hraise, he⟩ := raise_full appNow (hstate c List.mem_cons_self)
      have hstep : (system cfg).step s (.raise s.clock false) = some ({ s with sweep := some ⟨appNow, rest⟩ }, e) := by
        simp only [system, Absence.step, hsweep, Int.le_refl, if_true]
        exact congrArg some hraise
      have hturn : SweepsOnly cfg d lastSeen [] s (.raise s.clock false) := by
        refine ⟨rfl, fun c' hc' hid => absurd hid ?_⟩
        rw [State.turn, hsweep] at hc'
        obtain rfl := Option.some.inj hc'
        exact (hfull c List.mem_cons_self).2
      obtain ⟨log, hrun, hcount⟩ := ih (s := { s with sweep := some ⟨appNow, rest⟩ }) rfl fun y hy =>
        ⟨hstate y (List.mem_cons_of_mem _ hy), (hfull y (List.mem_cons_of_mem _ hy)).2⟩
      refine ⟨[] ++ [e] ++ log, (Machine.RunIf.nil.snoc hturn hstep).append hrun, ?_⟩
      rw [List.countP_append, List.nil_append, List.countP_singleton, he, hcount]
      rfl

/-- A state that its sweeps leave as it is: the batch is of tenants at their cap, as often as it is scanned. -/
theorem sweeps_full (cfg : Config) (d : DeviceRow) (lastSeen : Sighting) (hidle : s.sweep = none)
    (hdue : lastSeen.time ≤ s.clock - absenceWindow)
    (hsorted : (s.candidates s.clock).Pairwise fun c c' => c.lastSeen.time ≤ c'.lastSeen.time)
    (hfull : ∀ c ∈ (s.candidates s.clock).take absenceBatchLimit,
      s.belowQuota cfg s.clock c.tenantID = false ∧ c.devicePK ≠ d.id) (n : Nat) :
    ∃ log, (system cfg).RunIf (SweepsOnly cfg d lastSeen) s log s ∧ log.countP Event.isFinished = n := by
  induction n with
  | zero => exact ⟨[], .nil, rfl⟩
  | succ n ih =>
      obtain ⟨log, hrun, hcount⟩ := ih
      obtain ⟨turns, hturns, hnone⟩ := batch_full cfg d lastSeen
        (s := { s with sweep := some ⟨s.clock, (s.candidates s.clock).take absenceBatchLimit⟩ }) rfl hfull
      have hscan : (system cfg).step s (.scan s.clock s.clock (s.candidates s.clock)) =
          some ({ s with sweep := some ⟨s.clock, (s.candidates s.clock).take absenceBatchLimit⟩ }, .scanned) :=
        if_pos ⟨hidle, Int.le_refl _, List.Perm.refl _, hsorted⟩
      have hfinish : (system cfg).step { s with sweep := some ⟨s.clock, []⟩ } .finish = some (s, .finished) := by
        show some (_, _) = _
        rw [← hidle]
      have hclock : absenceWindow ≤ s.clock - lastSeen.time := by
        have hsum := Int.add_le_of_le_sub_right hdue
        exact Int.le_sub_left_of_add_le hsum
      refine ⟨log ++ ([] ++ [.scanned] ++ turns ++ [.finished]), hrun.append ?_, ?_⟩
      · have hbegun : (system cfg).RunIf (SweepsOnly cfg d lastSeen) s [.scanned]
            { s with sweep := some ⟨s.clock, (s.candidates s.clock).take absenceBatchLimit⟩ } :=
          .snoc .nil (show SweepsOnly cfg d lastSeen [] s (.scan ..) from hclock) hscan
        exact (hbegun.append hturns).snoc (show SweepsOnly cfg d lastSeen _ _ .finish from trivial) hfinish
      · simp [List.countP_append, hcount, hnone, Event.isFinished]

end starved

/-- `{"code": "boot", "severity": "info"}` -/
def bootAlert : Json := .field "code" (.string "boot") (.field "severity" (.string "info") .empty)

def lateDevice : DeviceRow := ⟨0, beta, some 0, some ⟨seconds 1, by decide⟩⟩

/-- A hundred devices of a tenant that has had its alert of the day, and one of another tenant that was seen later. -/
def cappedFleet : State where
  devices := ⟨(List.range 100).map (fun i => ⟨i + 1, acme, some 0, some epoch⟩) ++ [lateDevice], by decide +kernel⟩
  alerts := [⟨1, 0, .info, "boot", "", some bootAlert⟩]
  clock := seconds 1000
  sweep := none

/-- `{"code": "absence", "severity": "warn"}`, of a device -/
def ownAbsence : Json := .field "code" (.string "absence") (.field "severity" (.string "warn") .empty)

/-- The one device of this fleet has sent an absence alert before it went silent. -/
def forgedFleet : State := { quietFleet with alerts := [⟨7, 0, .warn, "absence", "", some ownAbsence⟩] }

theorem forgedFleet_history : ∃ log, (system (dailyCap 2)).Run { quietFleet with clock := 0 } log forgedFleet :=
  ⟨_, .snoc (a := .finish) (.snoc (a := .scan (seconds 1000) (seconds 1000) [])
    (.snoc (a := .ingest 7 0 acme (some ownAbsence)) (.snoc (a := .sight 7 epoch) .nil trivial rfl) trivial rfl)
    trivial rfl) trivial rfl⟩

/-- However many sweeps there are, the late device of the first fleet has no alert, and the silent one of the second
none but its own. -/
theorem absence_unnoticed :
    (Sourced (dailyCap 1) cappedFleet ∧ Quiet cappedFleet lateDevice ⟨seconds 1, by decide⟩ ∧
      cappedFleet.belowQuota (dailyCap 1) cappedFleet.clock beta = true ∧
      ∀ n, ∃ log s,
        (system (dailyCap 1)).RunIf (SweepsOnly (dailyCap 1) lateDevice ⟨seconds 1, by decide⟩) cappedFleet log s ∧
        log.countP Event.isFinished = n ∧ ¬ Noticed (dailyCap 1) s 0 (seconds 1)) ∧
    (∃ pre, (system (dailyCap 2)).Run { quietFleet with clock := 0 } pre forgedFleet) ∧
      Quiet forgedFleet quietDevice epoch ∧
      forgedFleet.belowQuota (dailyCap 2) forgedFleet.clock acme = true ∧
      ∀ n, ∃ log s, (system (dailyCap 2)).RunIf (SweepsOnly (dailyCap 2) quietDevice epoch) forgedFleet log s ∧
        log.countP Event.isFinished = n ∧ ¬ Noticed (dailyCap 2) s 7 0 := by
  refine ⟨⟨?_, ?_, by decide, fun n => ?_⟩, forgedFleet_history, ?_, by decide, fun n => ?_⟩
  · rintro a ha ⟨t, hraw⟩
    obtain rfl := List.mem_singleton.mp ha
    simp [Config.absencePayload, bootAlert] at hraw
  · exact ⟨List.mem_append_right _ List.mem_cons_self, by decide, rfl, by decide⟩
  · obtain ⟨log, hrun, hcount⟩ := sweeps_full (s := cappedFleet) (dailyCap 1) lateDevice ⟨seconds 1, by decide⟩
      rfl (by decide) (by decide +kernel) (by decide +kernel) n
    refine ⟨log, cappedFleet, hrun, hcount, ?_⟩
    rintro ⟨a, ha, hdevice, -⟩
    obtain rfl := List.mem_singleton.mp ha
    cases hdevice
  · exact ⟨List.mem_cons_self, by decide, rfl, by decide⟩
  · obtain ⟨log, hrun, hcount⟩ := sweeps_full (s := forgedFleet) (dailyCap 2) quietDevice epoch rfl (by decide)
      (by decide) (by decide) n
    refine ⟨log, forgedFleet, hrun, hcount, ?_⟩
    rintro ⟨a, ha, -, -, -, t, hraw⟩
    obtain rfl := List.mem_singleton.mp ha
    simp [Config.absencePayload, ownAbsence] at hraw

end ThesadaApp.Absence
