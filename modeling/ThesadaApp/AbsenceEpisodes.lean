import ThesadaApp.SightingStatements

/-!
One absence alert for each quiet stretch of a device, none once the device has been seen again, and another one for the
next stretch. This holds as long as no sighting of a device is committed between the scan and the insert of the sweep,
and none has the insert come between its begin or its clearing and its commit.
-/

namespace ThesadaApp.Episodes

open Absence (DeviceRow Sighting Candidate Config absenceWindow absenceBatchLimit absenceEpisodeOpen zeroTime candidate
  absentSince)

/-- An absence alert of the device. -/
def absenceOf (devicePK : UUID) (a : StoredAlert) : Bool := a.devicePK = devicePK && a.code = "absence"

def Event.raises (devicePK : UUID) : Event → Bool
  | .raised d _ _ => d = devicePK
  | _ => false

/-- Every absence alert of the device is cleared, and once it has been quiet for the window the next sweep finds it and
raises it. -/
structure Ready (s : State) (devicePK : UUID) : Prop where
  cleared : ∀ r ∈ s.alerts, absenceOf devicePK r.alert = true → r.clearedAt ≠ none
  again : ∀ d ∈ s.devices, d.id = devicePK → d.pairedAt ≠ none → ∃ l, d.lastSeenAt = some l ∧
    ∀ now appNow, l.time ≤ now - absenceWindow → absenceWindow ≤ appNow - l.time →
      ∃ c ∈ s.candidates now, c.devicePK = devicePK ∧
        absenceEpisodeOpen c.lastSeen.time appNow absenceWindow (c.lastAbsence.getD zeroTime) = true

/-- The episodes of every device, in a run that has come so far. -/
structure Episodic (log : List Event) (s : State) : Prop where
  /-- Between two sightings at most one alert is raised. -/
  once : ∀ devicePK pre mid post, log = pre ++ mid ++ post → .seen devicePK ∉ mid →
    mid.countP (Event.raises devicePK) ≤ 1
  /-- When an alert is raised its device has been quiet for the window. -/
  due : ∀ devicePK receivedAt lastSeenAt, .raised devicePK receivedAt lastSeenAt ∈ log →
    ∃ l, lastSeenAt = some l ∧ l.time ≤ receivedAt - absenceWindow
  /-- A sighting clears the absence of its device, which stays so until the next alert. -/
  again : ∀ devicePK pre post, log = pre ++ .seen devicePK :: post → (∀ e ∈ post, e.raises devicePK = false) →
    Ready s devicePK

/-- The clearing of the sighting has run. -/
def Point.hasCleared : Point → Bool
  | .cleared _ => true
  | _ => false

/-- A sighting begins after the absence alerts of its device. When an insert ends, no sighting of its device has been
committed since the scan, and one in progress has begun later than the insert and is still to clear the alerts. -/
def Unraced (_log : List Event) (s : State) : Action → Prop
  | .sight _ devicePK now => ∀ a ∈ s.stored, absenceOf devicePK a = true → a.receivedAt < now.time
  | .insert fails => fails = false → ∀ w ∈ s.sweep, ∀ i ∈ w.inserting,
      s.lastSeenAt i.candidate.devicePK = some i.candidate.lastSeen ∧
        ∀ t ∈ s.sightings.rows, t.devicePK = i.candidate.devicePK →
          i.receivedAt < t.now.time ∧ t.point.hasCleared = false
  | _ => True

instance (log : List Event) (s : State) (a : Action) : Decidable (Unraced log s a) := by
  cases a <;> unfold Unraced <;> infer_instance

/-- The devices a sweep has yet to decide or to insert for. -/
def Sweep.turns (w : Sweep) : List UUID :=
  (w.inserting.toList.map fun i => i.candidate.devicePK) ++ w.batch.map Candidate.devicePK

/-- What holds between the statements of an unraced run. -/
structure Inv (s : State) : Prop where
  pending : ∀ t ∈ s.sightings, ∀ a ∈ s.stored, absenceOf t.devicePK a = true → a.receivedAt < t.now.time
  /-- The clearing of a sighting has missed no absence alert of its device. -/
  cleared : ∀ t ∈ s.sightings, ∀ n, t.point = .cleared n → ∀ a ∈ s.stored.drop n, absenceOf t.devicePK a = false
  batch : ∀ w ∈ s.sweep, ∀ c ∈ w.batch, c.lastSeen.time ≤ s.clock - absenceWindow
  inserting : ∀ w ∈ s.sweep, ∀ i ∈ w.inserting, i.candidate.lastSeen.time ≤ i.receivedAt - absenceWindow
  distinct : ∀ w ∈ s.sweep, w.turns.Nodup

/-- The stretch has its alert, and no sweep in progress raises another. -/
structure Blocked (s : State) (devicePK : UUID) : Prop where
  raised : ∃ l, s.lastSeenAt devicePK = some l ∧ absentSince s.stored devicePK l.time = true
  noTurn : ∀ w ∈ s.sweep, devicePK ∉ w.turns

/-- The device has been seen, and has no absence alert since. -/
structure Rested (s : State) (devicePK : UUID) : Prop where
  cleared : ∀ r ∈ s.alerts, absenceOf devicePK r.alert = true → r.clearedAt ≠ none
  seen : ∀ d ∈ s.devices, d.id = devicePK → ∃ l, d.lastSeenAt = some l ∧
    ∀ a ∈ s.stored, absenceOf devicePK a = true → a.receivedAt < l.time

/-- The state with the alert of an insert. -/
def State.store (cfg : Config) (s : State) (w : Sweep) (i : Insert) : State :=
  { s with
    alerts := s.alerts ++ [⟨cfg.absenceAlert i.candidate i.receivedAt, none⟩]
    sweep := some { w with inserting := none } }

section tables

variable {cfg : Config} {s : State} {t : SightingTx} {n : Nat} {devicePK : UUID} {w : Sweep} {i : Insert} {now : Time}

theorem absenceOf_iff {a : StoredAlert} : absenceOf devicePK a = true ↔ a.devicePK = devicePK ∧ a.code = "absence" := by
  rw [absenceOf, Bool.and_eq_true, decide_eq_true_eq, decide_eq_true_eq]

theorem absenceOf_absenceAlert {c : Candidate} {receivedAt : Time} :
    absenceOf devicePK (cfg.absenceAlert c receivedAt) = true ↔ c.devicePK = devicePK :=
  absenceOf_iff.trans ⟨And.left, fun h => ⟨h, rfl⟩⟩

theorem absentSince_iff {alerts : List StoredAlert} {time : Time} : absentSince alerts devicePK time = true ↔
    ∃ a ∈ alerts, absenceOf devicePK a = true ∧ time ≤ a.receivedAt := by
  simp only [Absence.absentSince_iff, absenceOf_iff, and_assoc]

/-- Clearing writes only `cleared_at`. -/
theorem map_clearOpenAbsence {rows : List AlertRow} :
    (clearOpenAbsence rows devicePK now).map AlertRow.alert = rows.map AlertRow.alert := by
  rw [clearOpenAbsence, List.map_map]
  refine List.map_congr_left fun r _ => ?_
  dsimp only [Function.comp_apply]
  split <;> rfl

@[simp] theorem stored_see : (s.see t n).stored = s.stored := by
  show (clearOpenAbsence (s.alerts.take n) t.devicePK t.now.time ++ s.alerts.drop n).map AlertRow.alert = s.stored
  rw [List.map_append, map_clearOpenAbsence, ← List.map_append, List.take_append_drop]
  rfl

@[simp] theorem stored_store : (s.store cfg w i).stored = s.stored ++ [cfg.absenceAlert i.candidate i.receivedAt] :=
  List.map_append

/-- An absence alert of the device is cleared, or was so before. -/
theorem cleared_of_mem_clear {rows : List AlertRow} {r : AlertRow} (hr : r ∈ clearOpenAbsence rows devicePK now)
    (habsence : absenceOf devicePK r.alert = true) : r.clearedAt ≠ none := by
  obtain ⟨old, -, rfl⟩ := List.mem_map.mp hr
  by_cases hopen : old.openAbsence devicePK = true
  · rw [if_pos hopen]
    exact Option.some_ne_none _
  · rw [if_neg hopen] at habsence ⊢
    intro hnone
    refine hopen ?_
    rw [absenceOf, Bool.and_eq_true] at habsence
    rw [AlertRow.openAbsence, habsence.1, habsence.2, hnone]
    rfl

/-- The alerts of other devices are as they were. -/
theorem mem_of_mem_clear {rows : List AlertRow} {other : UUID} {r : AlertRow}
    (hr : r ∈ clearOpenAbsence rows devicePK now) (habsence : absenceOf other r.alert = true) (hne : other ≠ devicePK) :
    r ∈ rows := by
  obtain ⟨old, hold, rfl⟩ := List.mem_map.mp hr
  by_cases hopen : old.openAbsence devicePK = true
  · rw [if_pos hopen] at habsence
    rw [AlertRow.openAbsence, Bool.and_eq_true, Bool.and_eq_true, decide_eq_true_eq] at hopen
    exact absurd ((absenceOf_iff.mp habsence).1.symm.trans hopen.1.1) hne
  · rw [if_neg hopen]
    exact hold

theorem lastSeenAt_see : (s.see t n).lastSeenAt devicePK =
    if devicePK = t.devicePK then (s.devices.find devicePK).map fun _ => t.now else s.lastSeenAt devicePK := by
  unfold State.lastSeenAt State.see
  dsimp only
  rw [KeyedTable.find_updateWhere]
  cases hfind : s.devices.find devicePK with
  | none => simp
  | some d =>
      have hid : d.id = devicePK := KeyedTable.find_key hfind
      by_cases hd : devicePK = t.devicePK <;> simp [hid, hd]

theorem lastSeenAt_of_mem {d : DeviceRow} (hd : d ∈ s.devices) : s.lastSeenAt d.id = d.lastSeenAt := by
  rw [State.lastSeenAt, KeyedTable.find_of_mem hd, Option.bind_some]

/-- A device is at most once among the candidates. -/
theorem candidates_sublist {alerts : List StoredAlert} (rows : List DeviceRow) :
    ((rows.filterMap (candidate alerts now)).map Candidate.devicePK).Sublist (rows.map DeviceRow.id) := by
  induction rows with
  | nil => exact List.nil_sublist _
  | cons d rows ih =>
      rw [List.filterMap_cons]
      split
      · exact ih.cons _
      · next c hc =>
          obtain ⟨-, -, -, -, heq⟩ := Absence.candidate_eq_some.mp hc
          have hid : c.devicePK = d.id := by rw [heq]
          rw [List.map_cons, List.map_cons, hid]
          exact ih.cons_cons _

theorem Rested.ready (h : Rested s devicePK) : Ready s devicePK where
  cleared := h.cleared
  again d hd hid hpaired := by
    obtain ⟨l, hl, hbefore⟩ := h.seen d hd hid
    refine ⟨l, hl, fun now appNow hdue happ => ?_⟩
    have hopen : absentSince s.stored d.id l.time = false := by
      by_contra hsince
      obtain ⟨a, ha, habsence, hle⟩ := absentSince_iff.mp (Bool.not_eq_false _ ▸ hsince)
      rw [hid] at habsence
      exact absurd (hbefore a ha habsence) (Int.not_lt.mpr hle)
    have hcandidate : candidate s.stored now d = some ⟨d.tenantID, d.id, l, Absence.lastAbsence s.stored d.id⟩ :=
      Absence.candidate_eq_some.mpr ⟨hpaired, hl, hdue, hopen, rfl⟩
    refine ⟨_, List.mem_filterMap.mpr ⟨d, hd, hcandidate⟩, hid, ?_⟩
    exact Absence.absenceEpisodeOpen_of happ fun m hm => Absence.lastAbsence_lt hopen hm

end tables

section steps

variable {cfg : Config} {s s' : State} {t : SightingTx} {n : Nat} {devicePK : UUID} {w : Sweep} {i : Insert}
  {log : List Event} {a : Action} {e : Event}

/-- What a step does to the tables. -/
inductive Change (cfg : Config) (s s' : State) (a : Action) : Event → Prop
  | none {e : Event} (hdevices : s'.devices = s.devices) (halerts : s'.alerts = s.alerts)
      (hseen : ∀ d, e ≠ .seen d) (hraised : ∀ d, e.raises d = false) : Change cfg s s' a e
  | seen (t : SightingTx) (n : Nat) (ht : t ∈ s.sightings) (hpoint : t.point = .cleared n) (hs : s' = s.see t n) :
      Change cfg s s' a (.seen t.devicePK)
  | raised (w : Sweep) (i : Insert) (hw : s.sweep = some w) (hi : w.inserting = some i) (ha : a = .insert false)
      (hs : s' = s.store cfg w i) :
      Change cfg s s' a (.raised i.candidate.devicePK i.receivedAt (s.lastSeenAt i.candidate.devicePK))

/-- A sweep whose insert has ended. -/
def State.endInsert (s : State) (w : Sweep) : State := { s with sweep := some { w with inserting := none } }

/-- What a step can do. -/
inductive Next (cfg : Config) (s : State) : Action → State → Event → Prop
  | sight (id : Nat) (devicePK : UUID) (now : Sighting) (hid : s.sightings.find id = none) (hclock : s.clock ≤ now.time) :
      Next cfg s (.sight id devicePK now)
        { s with clock := now.time, sightings := s.sightings.insert ⟨id, devicePK, now, .started⟩ hid } .began
  | bump (t : SightingTx) : Next cfg s (.next t.id) (s.setPoint t .bumped) .statement
  | clear (t : SightingTx) : Next cfg s (.next t.id) (s.setPoint t (.cleared s.alerts.length)) .statement
  | see (t : SightingTx) (n : Nat) (ht : t ∈ s.sightings) (hpoint : t.point = .cleared n) :
      Next cfg s (.next t.id) (s.see t n) (.seen t.devicePK)
  | rollback (id : Nat) :
      Next cfg s (.rollback id) { s with sightings := s.sightings.deleteWhere fun x => x.id = id } .rolledBack
  | scan (now appNow : Time) (order : List Candidate) (hperm : order.Perm (s.candidates now)) :
      Next cfg s (.scan now appNow order) { s with clock := now, sweep := some ⟨appNow, none, order.take absenceBatchLimit⟩ }
        .scanned
  | scanFails : Next cfg s .scanFails s .scanFailed
  | skip (now appNow : Time) (c : Candidate) (batch : List Candidate) (hw : s.sweep = some ⟨appNow, none, c :: batch⟩) :
      Next cfg s (.raise now) { s with sweep := some ⟨appNow, none, batch⟩ } .skipped
  | begin (now appNow : Time) (c : Candidate) (batch : List Candidate) (hw : s.sweep = some ⟨appNow, none, c :: batch⟩)
      (hclock : s.clock ≤ now) :
      Next cfg s (.raise now) { s with clock := now, sweep := some ⟨appNow, some ⟨c, now⟩, batch⟩ } .inserting
  | insertFails (w : Sweep) (hw : s.sweep = some w) : Next cfg s (.insert true) (s.endInsert w) .insertFailed
  | refuse (w : Sweep) (err : InsertAlertError) (hw : s.sweep = some w) :
      Next cfg s (.insert false) (s.endInsert w) (.refused err)
  | store (w : Sweep) (i : Insert) (hw : s.sweep = some w) (hi : w.inserting = some i) :
      Next cfg s (.insert false) (s.store cfg w i)
        (.raised i.candidate.devicePK i.receivedAt (s.lastSeenAt i.candidate.devicePK))
  | finish : Next cfg s .finish { s with sweep := none } .finished

theorem stepSighting_next (ht : t ∈ s.sightings) (hstep : stepSighting s t = some (s', e)) :
    Next cfg s (.next t.id) s' e := by
  unfold stepSighting at hstep
  split at hstep
  · split at hstep
    · cases hstep
      exact .bump t
    · cases hstep
  · cases hstep
    exact .clear t
  · next n hpoint =>
      cases hstep
      exact .see t n ht hpoint

theorem raise_next {appNow now : Time} {c : Candidate} {batch : List Candidate}
    (hw : s.sweep = some ⟨appNow, none, c :: batch⟩) (hclock : s.clock ≤ now) :
    Next cfg s (.raise now) (s.raise ⟨appNow, none, c :: batch⟩ c batch now).1
      (s.raise ⟨appNow, none, c :: batch⟩ c batch now).2 := by
  unfold State.raise
  split
  · exact .skip now appNow c batch hw
  · exact .begin now appNow c batch hw hclock

theorem insert_next {fails : Bool} (hw : s.sweep = some w) (hi : w.inserting = some i) :
    Next cfg s (.insert fails) (s.insert cfg w i fails).1 (s.insert cfg w i fails).2 := by
  unfold State.insert
  cases fails with
  | true => exact .insertFails w hw
  | false =>
      dsimp only
      rw [if_neg Bool.noConfusion]
      split
      · exact .refuse w _ hw
      · exact .store w i hw hi

theorem step_next (hstep : step cfg s a = some (s', e)) : Next cfg s a s' e := by
  cases a with
  | sight id devicePK now =>
      simp only [step] at hstep
      split at hstep
      · next hid =>
          split at hstep
          · next hclock =>
              cases hstep
              exact .sight id devicePK now hid hclock.1
          · cases hstep
      · cases hstep
  | next id =>
      obtain ⟨t, hfind, hsighting⟩ := Option.bind_eq_some_iff.mp hstep
      obtain rfl := KeyedTable.find_key hfind
      exact stepSighting_next (KeyedTable.find_mem hfind) hsighting
  | rollback id =>
      simp only [step] at hstep
      split at hstep
      · cases hstep
        exact .rollback id
      · cases hstep
  | scan now appNow order =>
      simp only [step] at hstep
      split at hstep
      · next hscan =>
          cases hstep
          exact .scan now appNow order hscan.2.2.1
      · cases hstep
  | scanFails =>
      simp only [step] at hstep
      split at hstep
      · cases hstep
        exact .scanFails
      · cases hstep
  | raise now =>
      simp only [step] at hstep
      split at hstep
      · next hw =>
          split at hstep
          · next hclock =>
              obtain ⟨rfl, rfl⟩ := Prod.mk.inj (Option.some.inj hstep)
              exact raise_next hw hclock
          · cases hstep
      · cases hstep
  | insert fails =>
      simp only [step] at hstep
      split at hstep
      · next hw =>
          obtain ⟨rfl, rfl⟩ := Prod.mk.inj (Option.some.inj hstep)
          exact insert_next hw rfl
      · cases hstep
  | finish =>
      simp only [step] at hstep
      split at hstep
      · cases hstep
        exact .finish
      · cases hstep

theorem step_change (hstep : step cfg s a = some (s', e)) : Change cfg s s' a e := by
  cases step_next hstep with
  | see t n ht hpoint => exact .seen t n ht hpoint rfl
  | store w i hw hi => exact .raised w i hw hi rfl rfl
  | _ => exact .none rfl rfl (fun _ => Event.noConfusion) fun _ => rfl

end steps

section invariant

variable {cfg : Config} {s s' : State} {t : SightingTx} {n : Nat} {devicePK : UUID} {w : Sweep} {i : Insert}
  {log : List Event} {a : Action} {e : Event}

theorem Inv.start {devices : KeyedTable DeviceRow.id} {alerts : List AlertRow} {clock : Time} :
    Inv (start devices alerts clock) where
  pending t ht := by cases ht
  cleared t ht := by cases ht
  batch w hw := by cases hw
  inserting w hw := by cases hw
  distinct w hw := by cases hw

/-- Time goes on. -/
theorem Inv.batch_later (h : Inv s) {now : Time} (hclock : s.clock ≤ now) :
    ∀ w ∈ s.sweep, ∀ c ∈ w.batch, c.lastSeen.time ≤ now - absenceWindow := fun w hw c hc =>
  Int.le_trans (h.batch w hw c hc) (Int.sub_le_sub_right hclock _)

/-- A sighting that begins after the absence alerts of its device. -/
theorem Inv.sight (h : Inv s) {id : Nat} {now : Sighting} (hid : s.sightings.find id = none) (hclock : s.clock ≤ now.time)
    (hafter : ∀ a ∈ s.stored, absenceOf devicePK a = true → a.receivedAt < now.time) :
    Inv { s with clock := now.time, sightings := s.sightings.insert ⟨id, devicePK, now, .started⟩ hid } where
  pending t ht a ha habsence := by
    rcases (KeyedTable.mem_insert hid).mp ht with ht | rfl
    · exact h.pending t ht a ha habsence
    · exact hafter a ha habsence
  cleared t ht n hpoint := by
    rcases (KeyedTable.mem_insert hid).mp ht with ht | rfl
    · exact h.cleared t ht n hpoint
    · cases hpoint
  batch := h.batch_later hclock
  inserting := h.inserting
  distinct := h.distinct

theorem mem_setPoint {x : SightingTx} {point : Point} (hx : x ∈ (s.setPoint t point).sightings) :
    x ∈ s.sightings ∨ ∃ old ∈ s.sightings, x = { old with point } := by
  obtain ⟨old, hold, rfl⟩ := List.mem_map.mp (KeyedTable.mem_rows.mpr hx)
  split
  · exact .inr ⟨old, hold, rfl⟩
  · exact .inl hold

/-- A clearing sees every alert there is. -/
theorem Inv.setPoint (h : Inv s) {point : Point} (hpoint : point = .bumped ∨ point = .cleared s.stored.length) :
    Inv (s.setPoint t point) where
  pending x hx a ha habsence := by
    rcases mem_setPoint hx with hx | ⟨old, hold, rfl⟩
    · exact h.pending x hx a ha habsence
    · exact h.pending old hold a ha habsence
  cleared x hx n hn a ha := by
    rcases mem_setPoint hx with hx | ⟨old, hold, rfl⟩
    · exact h.cleared x hx n hn a ha
    · rcases hpoint with rfl | rfl
      · cases hn
      · obtain rfl := Point.cleared.inj hn
        have hnil : a ∈ s.stored.drop s.stored.length := ha
        rw [List.drop_length] at hnil
        cases hnil
  batch := h.batch
  inserting := h.inserting
  distinct := h.distinct

/-- A sighting that ends, and leaves the alerts as they are but for `cleared_at`. -/
theorem Inv.endSighting (h : Inv s) {id : Nat} (hsightings : s'.sightings = s.sightings.deleteWhere fun x => x.id = id)
    (hstored : s'.stored = s.stored) (hclock : s'.clock = s.clock) (hsweep : s'.sweep = s.sweep) : Inv s' where
  pending x hx a ha habsence := by
    rw [hsightings] at hx
    rw [hstored] at ha
    exact h.pending x (KeyedTable.mem_deleteWhere.mp hx).1 a ha habsence
  cleared x hx n hn a ha := by
    rw [hsightings] at hx
    rw [hstored] at ha
    exact h.cleared x (KeyedTable.mem_deleteWhere.mp hx).1 n hn a ha
  batch := by
    rw [hsweep, hclock]
    exact h.batch
  inserting := by
    rw [hsweep]
    exact h.inserting
  distinct := by
    rw [hsweep]
    exact h.distinct

theorem Inv.scan (h : Inv s) {now appNow : Time} {order : List Candidate} (hperm : order.Perm (s.candidates now)) :
    Inv { s with clock := now, sweep := some ⟨appNow, none, order.take absenceBatchLimit⟩ } where
  pending := h.pending
  cleared := h.cleared
  batch w hw c hc := by
    obtain rfl := Option.some.inj hw
    obtain ⟨d, -, hd⟩ := List.mem_filterMap.mp (hperm.mem_iff.mp (List.mem_of_mem_take hc))
    obtain ⟨-, -, hdue, -⟩ := Absence.candidate_eq_some.mp hd
    exact hdue
  inserting w hw i hi := by
    obtain rfl := Option.some.inj hw
    cases hi
  distinct w hw := by
    obtain rfl := Option.some.inj hw
    have hnodup : (s.candidates now |>.map Candidate.devicePK).Nodup :=
      s.devices.nodup.sublist (candidates_sublist s.devices.rows)
    exact ((hperm.map _).nodup_iff.mpr hnodup).sublist ((List.take_sublist _ _).map _)

/-- A candidate is passed over. -/
theorem Inv.skip (h : Inv s) {appNow : Time} {c : Candidate} {batch : List Candidate}
    (hsweep : s.sweep = some ⟨appNow, none, c :: batch⟩) : Inv { s with sweep := some ⟨appNow, none, batch⟩ } where
  pending := h.pending
  cleared := h.cleared
  batch w hw x hx := by
    obtain rfl := Option.some.inj hw
    exact h.batch _ hsweep x (List.mem_cons_of_mem _ hx)
  inserting w hw i hi := by
    obtain rfl := Option.some.inj hw
    cases hi
  distinct w hw := by
    obtain rfl := Option.some.inj hw
    have hnodup : (c.devicePK :: batch.map Candidate.devicePK).Nodup := h.distinct _ hsweep
    exact hnodup.of_cons

/-- The insert of a candidate begins. -/
theorem Inv.begin (h : Inv s) {appNow now : Time} {c : Candidate} {batch : List Candidate}
    (hsweep : s.sweep = some ⟨appNow, none, c :: batch⟩) (hclock : s.clock ≤ now) :
    Inv { s with clock := now, sweep := some ⟨appNow, some ⟨c, now⟩, batch⟩ } where
  pending := h.pending
  cleared := h.cleared
  batch w hw x hx := by
    obtain rfl := Option.some.inj hw
    exact h.batch_later hclock _ hsweep x (List.mem_cons_of_mem _ hx)
  inserting w hw i hi := by
    obtain rfl := Option.some.inj hw
    obtain rfl := Option.some.inj hi
    exact h.batch_later hclock _ hsweep c List.mem_cons_self
  distinct w hw := by
    obtain rfl := Option.some.inj hw
    have hnodup : (c.devicePK :: batch.map Candidate.devicePK).Nodup := h.distinct _ hsweep
    exact hnodup

theorem Inv.endInsert (h : Inv s) (hsweep : s.sweep = some w) : Inv (s.endInsert w) where
  pending := h.pending
  cleared := h.cleared
  batch w' hw' := by
    obtain rfl := Option.some.inj hw'
    exact h.batch w hsweep
  inserting w' hw' i hi := by
    obtain rfl := Option.some.inj hw'
    cases hi
  distinct w' hw' := by
    obtain rfl := Option.some.inj hw'
    exact (h.distinct w hsweep).sublist (List.sublist_append_right _ _)

/-- An alert that the sightings of its device in progress have yet to clear. -/
theorem Inv.store (h : Inv s) (hsweep : s.sweep = some w)
    (hlater : ∀ t ∈ s.sightings.rows, t.devicePK = i.candidate.devicePK →
      i.receivedAt < t.now.time ∧ t.point.hasCleared = false) : Inv (s.store cfg w i) := by
  have hend := h.endInsert hsweep
  refine ⟨fun t ht a ha habsence => ?_, fun t ht n hn a ha => ?_, hend.batch, hend.inserting, hend.distinct⟩
  · rw [stored_store] at ha
    rcases List.mem_append.mp ha with ha | ha
    · exact h.pending t ht a ha habsence
    · rw [List.mem_singleton.mp ha] at habsence ⊢
      exact (hlater t ht (absenceOf_absenceAlert.mp habsence).symm).1
  · rw [stored_store, List.drop_append] at ha
    rcases List.mem_append.mp ha with ha | ha
    · exact h.cleared t ht n hn a ha
    · rw [List.mem_singleton.mp (List.mem_of_mem_drop ha), ← Bool.not_eq_true, absenceOf_absenceAlert]
      intro heq
      have hpoint := (hlater t ht heq.symm).2
      rw [hn] at hpoint
      cases hpoint

theorem Inv.finish (h : Inv s) : Inv { s with sweep := none } where
  pending := h.pending
  cleared := h.cleared
  batch w hw := by cases hw
  inserting w hw := by cases hw
  distinct w hw := by cases hw

theorem Inv.step (h : Inv s) (hok : Unraced log s a) (hstep : step cfg s a = some (s', e)) : Inv s' := by
  cases step_next hstep with
  | sight id devicePK now hid hclock => exact h.sight hid hclock hok
  | bump t => exact h.setPoint (.inl rfl)
  | clear t => exact h.setPoint (.inr (by rw [State.stored, List.length_map]))
  | see t n ht hpoint => exact h.endSighting rfl stored_see rfl rfl
  | rollback id => exact h.endSighting rfl rfl rfl rfl
  | scan now appNow order hperm => exact h.scan hperm
  | scanFails => exact h
  | skip now appNow c batch hw => exact h.skip hw
  | begin now appNow c batch hw hclock => exact h.begin hw hclock
  | insertFails w hw => exact h.endInsert hw
  | refuse w err hw => exact h.endInsert hw
  | store w i hw hi =>
      obtain ⟨-, hlater⟩ := hok rfl w hw i hi
      exact h.store hw hlater
  | finish => exact h.finish

/-- The turns of a scan are candidates, which have no alert yet. -/
theorem open_of_scan {now appNow : Time} {order : List Candidate} (hperm : order.Perm (s.candidates now))
    (hturn : devicePK ∈ Sweep.turns ⟨appNow, none, order.take absenceBatchLimit⟩) :
    ∃ l, s.lastSeenAt devicePK = some l ∧ absentSince s.stored devicePK l.time = false := by
  obtain ⟨c, hc, rfl⟩ := List.mem_map.mp hturn
  obtain ⟨d, hd, hcandidate⟩ := List.mem_filterMap.mp (hperm.mem_iff.mp (List.mem_of_mem_take hc))
  obtain ⟨-, hl, -, hopen, heq⟩ := Absence.candidate_eq_some.mp hcandidate
  have hid : c.devicePK = d.id := by rw [heq]
  rw [hid]
  exact ⟨c.lastSeen, (lastSeenAt_of_mem hd).trans hl, hopen⟩

/-- The turns of a sweep in progress were its turns before, or are those of a scan. -/
theorem step_turns (hstep : step cfg s a = some (s', e)) {w' : Sweep} (hw' : s'.sweep = some w')
    (hturn : devicePK ∈ w'.turns) : (∃ w, s.sweep = some w ∧ devicePK ∈ w.turns) ∨
      ∃ l, s.lastSeenAt devicePK = some l ∧ absentSince s.stored devicePK l.time = false := by
  cases step_next hstep with
  | scan now appNow order hperm =>
      obtain rfl := Option.some.inj hw'
      exact .inr (open_of_scan hperm hturn)
  | skip now appNow c batch hw =>
      obtain rfl := Option.some.inj hw'
      exact .inl ⟨_, hw, List.mem_cons_of_mem c.devicePK hturn⟩
  | begin now appNow c batch hw hclock =>
      obtain rfl := Option.some.inj hw'
      exact .inl ⟨_, hw, hturn⟩
  | insertFails w hw =>
      obtain rfl := Option.some.inj hw'
      exact .inl ⟨w, hw, List.mem_append_right _ hturn⟩
  | refuse w err hw =>
      obtain rfl := Option.some.inj hw'
      exact .inl ⟨w, hw, List.mem_append_right _ hturn⟩
  | store w i hw hi =>
      obtain rfl := Option.some.inj hw'
      exact .inl ⟨w, hw, List.mem_append_right _ hturn⟩
  | finish => cases hw'
  | _ => exact .inl ⟨w', hw', hturn⟩

/-- A stretch that has its alert gets no other before its device is seen. -/
theorem Blocked.step (h : Blocked s devicePK) (hstep : step cfg s a = some (s', e)) (hseen : e ≠ .seen devicePK) :
    Blocked s' devicePK := by
  obtain ⟨l, hl, hsince⟩ := h.raised
  refine ⟨⟨l, ?_, ?_⟩, fun w' hw' hturn => ?_⟩
  · rw [← hl]
    cases step_change hstep with
    | none hdevices _ _ _ => rw [State.lastSeenAt, hdevices, State.lastSeenAt]
    | seen t n ht hpoint hs =>
        have hne : devicePK ≠ t.devicePK := fun heq => hseen (by rw [heq])
        rw [hs, lastSeenAt_see, if_neg hne]
    | raised w i hw hi ha hs =>
        rw [hs]
        rfl
  · cases step_change hstep with
    | none _ halerts _ _ =>
        rw [State.stored, halerts]
        exact hsince
    | seen t n ht hpoint hs =>
        rw [hs, stored_see]
        exact hsince
    | raised w i hw hi ha hs =>
        rw [hs, stored_store]
        exact Absence.absentSince_append hsince
  · rcases step_turns hstep hw' hturn with ⟨w, hw, hold⟩ | ⟨l', hl', hopen⟩
    · exact h.noTurn w hw hold
    · obtain rfl := Option.some.inj (hl.symm.trans hl')
      rw [hopen] at hsince
      cases hsince

/-- An alert that is raised is the one of its stretch. -/
theorem Inv.blocked (h : Inv s) (hw : s.sweep = some w) (hi : w.inserting = some i)
    (hlast : s.lastSeenAt i.candidate.devicePK = some i.candidate.lastSeen) :
    Blocked (s.store cfg w i) i.candidate.devicePK where
  raised := by
    have hdue := h.inserting w hw i hi
    refine ⟨i.candidate.lastSeen, hlast, absentSince_iff.mpr ⟨cfg.absenceAlert i.candidate i.receivedAt, ?_, ?_, ?_⟩⟩
    · rw [stored_store]
      exact List.mem_append_right _ List.mem_cons_self
    · exact absenceOf_absenceAlert.mpr rfl
    · have hwindow : 0 ≤ absenceWindow := by decide
      exact Int.le_trans hdue (Int.sub_le_self i.receivedAt hwindow)
  noTurn w' hw' hturn := by
    obtain rfl := Option.some.inj hw'
    have hnodup := h.distinct w hw
    rw [Sweep.turns, hi] at hnodup
    exact (List.nodup_cons.mp hnodup).1 hturn

/-- A sighting that is committed has cleared every absence alert of its device. -/
theorem Inv.rested (h : Inv s) (ht : t ∈ s.sightings) (hpoint : t.point = .cleared n) :
    Rested (s.see t n) t.devicePK where
  cleared r hr habsence := by
    rcases List.mem_append.mp hr with hr | hr
    · exact cleared_of_mem_clear hr habsence
    · have hlate : r.alert ∈ s.stored.drop n := by
        rw [State.stored, ← List.map_drop]
        exact List.mem_map_of_mem hr
      rw [h.cleared t ht n hpoint _ hlate] at habsence
      cases habsence
  seen d hd hid := by
    obtain ⟨old, hold, rfl⟩ := List.mem_map.mp (KeyedTable.mem_rows.mpr hd)
    refine ⟨t.now, ?_, fun a ha habsence => ?_⟩
    · by_cases hold : old.id = t.devicePK
      · simp [hold]
      · simp [hold] at hid
    · rw [stored_see] at ha
      exact h.pending t ht a ha habsence

theorem Rested.step (h : Rested s devicePK) (hinv : Inv s) (hstep : step cfg s a = some (s', e))
    (hraised : e.raises devicePK = false) : Rested s' devicePK := by
  cases step_change hstep with
  | none hdevices halerts _ _ =>
      refine ⟨?_, ?_⟩
      · rw [halerts]
        exact h.cleared
      · rw [hdevices, State.stored, halerts]
        exact h.seen
  | seen t n ht hpoint hs =>
      subst hs
      by_cases heq : devicePK = t.devicePK
      · rw [heq]
        exact hinv.rested ht hpoint
      · refine ⟨fun r hr habsence => ?_, fun d hd hid => ?_⟩
        · rcases List.mem_append.mp hr with hr | hr
          · exact h.cleared r (List.mem_of_mem_take (mem_of_mem_clear hr habsence heq)) habsence
          · exact h.cleared r (List.mem_of_mem_drop hr) habsence
        · obtain ⟨old, hold, rfl⟩ := List.mem_map.mp (KeyedTable.mem_rows.mpr hd)
          rw [stored_see]
          by_cases hother : old.id = t.devicePK
          · simp [hother] at hid
            exact absurd hid.symm heq
          · simp only [hother, decide_false, Bool.false_eq_true, if_false] at hid ⊢
            exact h.seen old hold hid
  | raised w i hw hi ha hs =>
      subst hs
      have hother : ¬ i.candidate.devicePK = devicePK := by simpa [Event.raises] using hraised
      refine ⟨fun r hr habsence => ?_, fun d hd hid => ?_⟩
      · rcases List.mem_append.mp hr with hr | hr
        · exact h.cleared r hr habsence
        · rw [List.mem_singleton.mp hr, absenceOf_absenceAlert] at habsence
          exact absurd habsence hother
      · obtain ⟨l, hl, hbefore⟩ := h.seen d hd hid
        refine ⟨l, hl, fun a ha habsence => ?_⟩
        rw [stored_store] at ha
        rcases List.mem_append.mp ha with ha | ha
        · exact hbefore a ha habsence
        · rw [List.mem_singleton.mp ha, absenceOf_absenceAlert] at habsence
          exact absurd habsence hother

end invariant

section runs

variable {cfg : Config} {s₀ s s' : State} {devicePK : UUID} {log : List Event} {a : Action} {e : Event}

/-- The end of a log that has grown by one event. -/
theorem split_concat {pre mid : List Event} (h : log ++ [e] = pre ++ mid) :
    mid = [] ∨ ∃ mid', mid = mid' ++ [e] ∧ log = pre ++ mid' := by
  rcases List.eq_nil_or_concat mid with rfl | ⟨mid', x, rfl⟩
  · exact .inl rfl
  · rw [List.concat_eq_append, ← List.append_assoc] at h
    obtain ⟨hlog, hx⟩ := List.append_inj' h rfl
    obtain rfl := List.singleton_inj.mp hx
    exact .inr ⟨mid', List.concat_eq_append, hlog⟩

/-- The end of a log without a sighting of a device: it has one alert at most, and then the stretch is blocked. -/
def AtMostOnce (log : List Event) (s : State) : Prop :=
  ∀ devicePK pre mid, log = pre ++ mid → .seen devicePK ∉ mid →
    mid.countP (Event.raises devicePK) = 0 ∨ mid.countP (Event.raises devicePK) = 1 ∧ Blocked s devicePK

theorem AtMostOnce.step (h : AtMostOnce log s) (hinv : Inv s) (hok : Unraced log s a)
    (hstep : step cfg s a = some (s', e)) : AtMostOnce (log ++ [e]) s' := by
  intro devicePK pre mid hlog hseen
  rcases split_concat hlog with rfl | ⟨mid, rfl, rfl⟩
  · exact .inl rfl
  rw [List.mem_append, List.mem_singleton, not_or] at hseen
  rw [List.countP_append, List.countP_singleton]
  cases hraises : e.raises devicePK with
  | false =>
      rw [if_neg Bool.noConfusion, Nat.add_zero]
      rcases h devicePK pre mid rfl hseen.1 with hnone | ⟨hone, hblocked⟩
      · exact .inl hnone
      · exact .inr ⟨hone, hblocked.step hstep (Ne.symm hseen.2)⟩
  | true =>
      cases step_change hstep with
      | none _ _ _ hnone =>
          rw [hnone devicePK] at hraises
          cases hraises
      | seen => cases hraises
      | raised w i hw hi ha hs =>
          subst ha hs
          obtain rfl : i.candidate.devicePK = devicePK := of_decide_eq_true hraises
          obtain ⟨hlast, -⟩ := hok rfl w hw i hi
          refine .inr ⟨?_, hinv.blocked hw hi hlast⟩
          rcases h _ pre mid rfl hseen.1 with hnone | ⟨-, hblocked⟩
          · rw [hnone, if_pos rfl]
          · -- the device is the turn of the sweep, so its stretch cannot have an alert
            refine absurd ?_ (hblocked.noTurn w hw)
            rw [Sweep.turns, hi]
            exact List.mem_cons_self

/-- Until the next alert a device that has been seen is at rest. -/
def RestedSince (log : List Event) (s : State) : Prop :=
  ∀ devicePK pre post, log = pre ++ .seen devicePK :: post → (∀ e ∈ post, e.raises devicePK = false) → Rested s devicePK

theorem RestedSince.step (h : RestedSince log s) (hinv : Inv s) (hstep : step cfg s a = some (s', e)) :
    RestedSince (log ++ [e]) s' := by
  intro devicePK pre post hlog hnone
  rcases split_concat hlog with hnil | ⟨mid, hmid, rfl⟩
  · cases hnil
  cases mid with
  | nil =>
      obtain ⟨rfl, rfl⟩ := List.cons.inj hmid
      cases step_change hstep with
      | none _ _ hseen _ => exact absurd rfl (hseen devicePK)
      | seen t n ht hpoint hs =>
          rw [hs]
          exact hinv.rested ht hpoint
  | cons x mid =>
      obtain ⟨rfl, rfl⟩ := List.cons.inj hmid
      have hbefore : Rested s devicePK :=
        h devicePK pre mid rfl fun y hy => hnone y (List.mem_append_left _ hy)
      exact hbefore.step hinv hstep (hnone e (List.mem_append_right _ List.mem_cons_self))

/-- In an unraced run, from a state where nothing is in progress, the episodes of every device are as they are to be. -/
theorem episodic_of_runIf {devices : KeyedTable DeviceRow.id} {alerts : List AlertRow} {clock : Time}
    (hrun : (machine cfg).RunIf Unraced (start devices alerts clock) log s) : Episodic log s := by
  have hall : (Inv s ∧ AtMostOnce log s ∧ RestedSince log s) ∧ Episodic log s := by
    refine hrun.invariant (fun log s => (Inv s ∧ AtMostOnce log s ∧ RestedSince log s) ∧ Episodic log s) ?_ ?_
    · refine ⟨⟨.start, fun devicePK pre mid hlog _ => ?_, fun devicePK pre post hlog => ?_⟩, ?_, ?_, ?_⟩
      · rw [(List.append_eq_nil_iff.mp hlog.symm).2]
        exact .inl rfl
      · cases pre <;> cases hlog
      · intro devicePK pre mid post hlog _
        rw [(List.append_eq_nil_iff.mp (List.append_eq_nil_iff.mp hlog.symm).1).2]
        exact Nat.zero_le _
      · intro devicePK receivedAt lastSeenAt hmem
        cases hmem
      · intro devicePK pre post hlog
        cases pre <;> cases hlog
    · rintro log s a s' e ⟨⟨hinv, honce, hrested⟩, hepisodic⟩ hok hstep
      have honce' := honce.step hinv hok hstep
      have hrested' := hrested.step hinv hstep
      refine ⟨⟨hinv.step hok hstep, honce', hrested'⟩, ?_, ?_, ?_⟩
      · intro devicePK pre mid post hlog hseen
        rcases split_concat hlog with rfl | ⟨post, rfl, rfl⟩
        · rw [List.append_nil] at hlog
          rcases honce' devicePK pre mid hlog hseen with hnone | ⟨hone, -⟩
          · exact hnone ▸ Nat.zero_le 1
          · exact Nat.le_of_eq hone
        · exact hepisodic.once devicePK pre mid post rfl hseen
      · intro devicePK receivedAt lastSeenAt hmem
        rcases List.mem_append.mp hmem with hold | hnew
        · exact hepisodic.due devicePK receivedAt lastSeenAt hold
        · rw [← List.mem_singleton.mp hnew] at hstep
          have hchange := step_change hstep
          generalize hevent : Event.raised devicePK receivedAt lastSeenAt = x at hchange
          cases hchange with
          | none _ _ _ hnone =>
              have hx := hnone devicePK
              rw [← hevent] at hx
              simp [Event.raises] at hx
          | seen => cases hevent
          | raised w i hw hi ha hs =>
              subst ha
              injection hevent with hdevice hreceived hlast
              obtain ⟨hseen, -⟩ := hok rfl w hw i hi
              exact ⟨i.candidate.lastSeen, hlast.trans hseen, hreceived ▸ hinv.inserting w hw i hi⟩
      · intro devicePK pre post hlog hnone
        exact (hrested' devicePK pre post hlog hnone).ready
  exact hall.2

/-- No caps, and payloads that do not tell two times apart. -/
def testConfig : Config := ⟨0, fun _ => "", fun _ => ""⟩

def seenAt (n : Nat) : Sighting where
  time := seconds n
  ne_zero := by
    show (n : Int) * 1000000 ≠ -62135596800000000
    omega

/-- Device 1 of acme is paired and was last seen at 0. -/
def pairedDevice : KeyedTable DeviceRow.id := ⟨[⟨1, acme, some 0, some (seenAt 0)⟩], by decide⟩

def pairedCandidate (lastSeen : Sighting) (lastAbsence : Option Time) : Candidate := ⟨acme, 1, lastSeen, lastAbsence⟩

/-- Two quiet stretches, with a sighting between them. -/
theorem twoStretches_episodic : ∃ log s, (machine testConfig).RunIf Unraced (start pairedDevice [] 0) log s ∧
    log.countP (Event.raises 1) = 2 ∧ Episodic log s := by
  have hexec : ((machine testConfig).execIf Unraced [] (start pairedDevice [] 0)
      [.scan (seconds 900) (seconds 900) [pairedCandidate (seenAt 0) none], .raise (seconds 900), .insert false, .finish,
        .sight 0 1 (seenAt 1000), .next 0, .next 0, .next 0,
        .scan (seconds 2000) (seconds 2000) [pairedCandidate (seenAt 1000) (some (seconds 900))],
        .raise (seconds 2000), .insert false]).any
      (fun x => x.1.countP (Event.raises 1) = 2) = true := by decide
  obtain ⟨log, s, hrun, htest⟩ := Machine.exists_runIf_of_any hexec
  exact ⟨log, s, hrun, by simpa using htest, episodic_of_runIf hrun⟩

/-- The device is seen between the scan and the insert, and an alert says that it is not. -/
theorem seenBeforeInsert_late : ¬ ∀ (cfg : Config) (devices : KeyedTable DeviceRow.id) (alerts : List AlertRow)
    (clock : Time) (log : List Event) (s : State), (machine cfg).Run (start devices alerts clock) log s →
      Episodic log s := by
  intro hall
  have hexec : ((machine testConfig).execIf (fun _ _ _ => True) [] (start pairedDevice [] 0)
      [.scan (seconds 900) (seconds 900) [pairedCandidate (seenAt 0) none], .sight 0 1 (seenAt 901), .next 0, .next 0,
        .next 0, .raise (seconds 902), .insert false]).any
      (fun x => x.1.contains (.raised 1 (seconds 902) (some (seenAt 901)))) = true := by decide
  obtain ⟨log, s, hrun, hraised⟩ := Machine.exists_runIf_of_any hexec
  obtain ⟨l, hl, hdue⟩ := (hall _ _ _ _ _ _ hrun).due _ _ _ (List.contains_iff_mem.mp hraised)
  obtain rfl := Option.some.inj hl
  exact absurd hdue (by decide)

end runs

end ThesadaApp.Episodes
