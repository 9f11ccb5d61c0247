import ThesadaApp.TenantStatements

/-!
Two alerts of a device with the same payload are at least ten minutes apart, as long as no other call brings one
between the duplicate query of a call and its insert: nothing is locked in between that the other would wait for.
-/

namespace ThesadaApp.TenantRows

/-- Two rows of which one should not be there. -/
def conflicts (a b : StoredAlert) : Bool :=
  a.devicePK = b.devicePK && a.raw.isSome && a.raw = b.raw && a.receivedAt - b.receivedAt < alertDedupWindow &&
    b.receivedAt - a.receivedAt < alertDedupWindow

/-- No device has stored the same payload twice less than the window apart. -/
def Deduped (alerts : List StoredAlert) : Prop := alerts.Pairwise fun a b => conflicts a b = false

instance (alerts : List StoredAlert) : Decidable (Deduped alerts) :=
  inferInstanceAs (Decidable (alerts.Pairwise fun a b => conflicts a b = false))

def Event.checks (tx : Nat) : Event → Bool
  | .checked tx' _ => tx' = tx
  | _ => false

/-- The events since the duplicate query of the transaction, the last first. -/
def since (tx : Nat) (log : List Event) : List Event := log.reverse.takeWhile fun e => !e.checks tx

/-- A commit that the duplicate query of the row should have seen: it has stored the payload, or has moved the device
into the tenant with what it has stored. -/
def Event.races (tenantID : Slug) (new : StoredAlert) : Event → Bool
  | .committed (.alert _ a) => conflicts a new
  | .committed (.move id targetTenant _) => id = new.devicePK && targetTenant = tenantID
  | _ => false

/-- The alert a transaction stores next, with its tenant. -/
def Point.stores : Point → Option (Slug × StoredAlert)
  | .write (.alert tenantID new) => some (tenantID, new)
  | _ => none

/-- An insert has not been raced since its duplicate query, or not by a row that is still there. -/
def Unraced (log : List Event) (s : State) : Action → Prop
  | .next tx _ => ∀ t ∈ s.txns.txn tx, ∀ x ∈ t.point.stores, ∀ e ∈ since tx log, e.races x.1 x.2 = true →
      ∀ a ∈ s.tables.alerts, conflicts a x.2 = false
  | _ => True

instance (log : List Event) (s : State) : (a : Action) → Decidable (Unraced log s a)
  | .begin .. => inferInstanceAs (Decidable True)
  | .next tx _ =>
      inferInstanceAs (Decidable (∀ t ∈ s.txns.txn tx, ∀ x ∈ t.point.stores, ∀ e ∈ since tx log,
        e.races x.1 x.2 = true → ∀ a ∈ s.tables.alerts, conflicts a x.2 = false))
  | .rollback _ => inferInstanceAs (Decidable True)

/-- What the duplicate query of the row, and the log since, say of the tables. -/
def Seen (log : List Event) (d : Tables) (tx : Nat) (tenantID : Slug) (new : StoredAlert) : Prop :=
  d.tenantOf new.devicePK ≠ some tenantID ∨ (∃ e ∈ since tx log, e.races tenantID new = true) ∨
    ∀ a ∈ d.alerts, conflicts a new = false

/-- Transactions that are to store a row know of the tables what their duplicate query has found. -/
structure DedupInv (log : List Event) (s : State) : Prop where
  deduped : Deduped s.tables.alerts
  seen : ∀ tx t, s.txns.txn tx = some t → ∀ tenantID new, t.point.work = some (.alert tenantID new) →
    Seen log s.tables tx tenantID new

section seen

variable {log : List Event} {e : Event} {d d' : Tables} {tx : Nat} {tenantID : Slug} {new a : StoredAlert} {w : Work}
  {fresh : UUID}

theorem conflicts_duplicates (h : conflicts a new = true) : a.duplicates new = true := by
  simp only [conflicts, StoredAlert.duplicates, Bool.and_eq_true, decide_eq_true_eq] at h ⊢
  obtain ⟨⟨⟨hdevice, hpayload⟩, -⟩, hnear⟩ := h
  exact ⟨⟨hdevice, hpayload⟩, Int.sub_lt_of_sub_lt hnear⟩

theorem since_snoc (he : e.checks tx = false) : since tx (log ++ [e]) = e :: since tx log := by
  rw [since, List.reverse_append, List.reverse_singleton, List.singleton_append,
    List.takeWhile_cons_of_pos (by rw [he]; rfl)]
  rfl

/-- The tables are as they were. -/
theorem Seen.snoc (h : Seen log d tx tenantID new) (he : e.checks tx = false) :
    Seen (log ++ [e]) d tx tenantID new := by
  refine h.imp id fun h => h.imp (fun h => ?_) id
  obtain ⟨e', he', hraces⟩ := h
  exact ⟨e', by rw [since_snoc he]; exact List.mem_cons_of_mem _ he', hraces⟩

theorem since_committed : since tx (log ++ [.committed w]) = .committed w :: since tx log := since_snoc rfl

/-- An event since that should have been seen. -/
theorem Seen.raced (h : (Event.committed w).races tenantID new = true) :
    Seen (log ++ [.committed w]) d' tx tenantID new :=
  .inr (.inl ⟨.committed w, by rw [since_committed]; exact List.mem_cons_self, h⟩)

/-- Another transaction commits: what it has changed is in the tables or in the log. -/
theorem Seen.committed (h : Seen log d tx tenantID new) (happly : w.apply d fresh = some d') :
    Seen (log ++ [.committed w]) d' tx tenantID new := by
  have hsnoc := h.snoc (e := .committed w) rfl
  cases Work.written happly with
  | user t entry hfree waitlist => exact hsnoc
  | has t deviceID hhas => exact hsnoc
  | device t deviceID hnot hfree =>
      by_cases hown : new.devicePK = fresh
      · refine .inr (.inr fun a ha => ?_)
        by_contra hconflict
        simp only [Bool.not_eq_false, conflicts, Bool.and_eq_true, decide_eq_true_eq] at hconflict
        exact Tables.ne_devicePK_of_find_none hfree ha (hconflict.1.1.1.1.trans hown)
      · refine hsnoc.imp (fun hother => ?_) id
        rwa [Tables.tenantOf_insertDevice, if_neg hown]
  | move pk targetTenant deviceID hfree =>
      by_cases hmoved : pk = new.devicePK ∧ targetTenant = tenantID
      · exact .raced (by simp [Event.races, hmoved])
      · refine hsnoc.imp (fun hother => ?_) id
        rw [Tables.tenantOf_moveDevice]
        split
        · next hid =>
            intro hnow
            obtain ⟨-, -, htarget⟩ := Option.map_eq_some_iff.mp hnow
            exact hmoved ⟨hid.symm, htarget⟩
        · exact hother
  | alert t a hown hdevice =>
      cases hconflict : conflicts a new with
      | true => exact .raced hconflict
      | false =>
          refine hsnoc.imp id fun hseen => hseen.imp id fun hnone => fun x hx => ?_
          rcases List.mem_append.mp hx with hx | hx
          · exact hnone x hx
          · rw [List.mem_singleton.mp hx, hconflict]

/-- A deletion brings nothing. -/
theorem Seen.deleted (h : Seen log d tx tenantID new) {call : Call} (hdelete : stepDelete d call = some d') :
    Seen (log ++ [.deleted]) d' tx tenantID new := by
  have hsnoc := h.snoc (e := .deleted) rfl
  cases call with
  | deleteUser t pk =>
      obtain rfl := Option.some.inj hdelete
      exact hsnoc
  | deleteDevice t pk =>
      obtain rfl := Option.some.inj hdelete
      refine hsnoc.imp (fun hother hnow => hother (Tables.tenantOf_deleteDevices hnow)) fun hseen => hseen.imp id ?_
      exact fun hnone x hx => hnone x (List.mem_filter.mp hx).1
  | deleteTenant t =>
      simp only [stepDelete] at hdelete
      split at hdelete
      · cases hdelete
      · split at hdelete
        · cases hdelete
        · obtain rfl := Option.some.inj hdelete
          exact hsnoc
  | _ => cases hdelete

/-- The alerts after a deletion are some of those before it. -/
theorem stepDelete_alerts {call : Call} (hdelete : stepDelete d call = some d') : d'.alerts.Sublist d.alerts := by
  cases call with
  | deleteUser t pk =>
      obtain rfl := Option.some.inj hdelete
      exact List.Sublist.refl _
  | deleteDevice t pk =>
      obtain rfl := Option.some.inj hdelete
      exact List.filter_sublist
  | deleteTenant t =>
      simp only [stepDelete] at hdelete
      split at hdelete
      · cases hdelete
      · split at hdelete
        · cases hdelete
        · obtain rfl := Option.some.inj hdelete
          exact List.Sublist.refl _
  | _ => cases hdelete

end seen

section steps

variable {cfg : Config} {s s' : State} {log : List Event} {e : Event} {a : Action} {tx : Nat} {t : Txn}
  {p : Point} {k : Option Lock}

/-- A step of one transaction: of the others only the tables change. -/
theorem DedupInv.local (h : DedupInv log s) (hlocal : Txns.Local tx s.txns s'.txns)
    (hdeduped : Deduped s'.tables.alerts)
    (hother : ∀ j tenantID new, j ≠ tx → Seen log s.tables j tenantID new → Seen (log ++ [e]) s'.tables j tenantID new)
    (hown : ∀ x, s'.txns.txn tx = some x → ∀ tenantID new, x.point.work = some (.alert tenantID new) →
      Seen (log ++ [e]) s'.tables tx tenantID new) : DedupInv (log ++ [e]) s' := by
  refine ⟨hdeduped, fun j x hx tenantID new hwork => ?_⟩
  by_cases hj : j = tx
  · subst hj
    exact hown x hx tenantID new hwork
  · rw [hlocal.other hj] at hx
    exact hother j tenantID new hj (h.seen j x hx tenantID new hwork)

/-- The end of a transaction that has written nothing. -/
theorem DedupInv.close (h : DedupInv log s) (he : ∀ j, e.checks j = false) : DedupInv (log ++ [e]) (s.close tx) := by
  refine h.local (Txns.Local.close s.txns tx) h.deduped (fun j _ _ _ hj => hj.snoc (he j)) fun x hx => ?_
  exact absurd (Txns.close_txn.symm.trans hx) (Option.some_ne_none _).symm

/-- A transaction that goes on stores what it was to store before, unless it has just run its duplicate query. -/
theorem Next.seen (hnext : Next cfg s tx t p k e) (h : DedupInv log s) (htxn : s.txns.txn tx = some t)
    {tenantID : Slug} {new : StoredAlert} (hwork : p.work = some (.alert tenantID new)) :
    Seen (log ++ [e]) s.tables tx tenantID new := by
  have hkept : ∀ w, t.point.work = some w → w = .alert tenantID new → e.checks tx = false →
      Seen (log ++ [e]) s.tables tx tenantID new := by
    rintro w hw rfl he
    exact (h.seen tx t htxn tenantID new hw).snoc he
  cases hnext with
  | begun w k hpoint hw hk =>
      rw [Work.quota_work] at hwork
      exact absurd (Option.some.inj hwork) (hw _ _)
  | checked tenantID' new' hpoint hnow hdup =>
      rw [Work.quota_work] at hwork
      obtain ⟨rfl, rfl⟩ := Work.alert.inj (Option.some.inj hwork)
      by_cases hown : s.tables.tenantOf new'.devicePK = some tenantID'
      · refine .inr (.inr fun a ha => ?_)
        by_contra hconflict
        have hduplicate := conflicts_duplicates (Bool.not_eq_false _ ▸ hconflict : conflicts a new' = true)
        rw [hdup hown a ha] at hduplicate
        cases hduplicate
      · exact .inl hown
  | locked w hpoint =>
      refine hkept w (by rw [hpoint]; rfl) ?_ rfl
      split at hwork
      · exact Option.some.inj hwork
      · exact Option.some.inj hwork
  | has w deviceID hpoint hdevice hhas => exact hkept w (by rw [hpoint]; rfl) (Option.some.inj hwork) rfl
  | hasNot w hpoint hnot => exact hkept w (by rw [hpoint]; rfl) (Option.some.inj hwork) rfl
  | counted w hpoint hfree => exact hkept w (by rw [hpoint]; rfl) (Option.some.inj hwork) rfl

/-- A write of a transaction that was not raced. -/
theorem Deduped.apply {d d' : Tables} {w : Work} {fresh : UUID} (h : Deduped d.alerts)
    (happly : w.apply d fresh = some d') (hseen : ∀ tenantID new, w = .alert tenantID new → Seen log d tx tenantID new)
    (hunraced : ∀ tenantID new, w = .alert tenantID new → ∀ e ∈ since tx log, e.races tenantID new = true →
      ∀ a ∈ d.alerts, conflicts a new = false) : Deduped d'.alerts := by
  cases Work.written happly with
  | user tenantID entry hfree waitlist => exact h
  | has tenantID deviceID hhas => exact h
  | device tenantID deviceID hnot hfree => exact h
  | move pk targetTenant deviceID hfree => exact h
  | alert tenantID new hown hdevice =>
      refine List.pairwise_append.mpr ⟨h, List.pairwise_singleton _ _, fun a ha b hb => ?_⟩
      rw [List.mem_singleton.mp hb]
      rcases hseen tenantID new rfl with hother | ⟨e, he, hraces⟩ | hnone
      · exact absurd hown hother
      · exact hunraced tenantID new rfl e he hraces a ha
      · exact hnone a ha

theorem DedupInv.change {s' : State} (h : DedupInv log s) (htxn : s.txns.txn tx = some t)
    (hunraced : ∀ tenantID new, t.point = .write (.alert tenantID new) → ∀ e ∈ since tx log,
      e.races tenantID new = true → ∀ a ∈ s.tables.alerts, conflicts a new = false)
    (hchange : Change cfg s tx t s' e) : DedupInv (log ++ [e]) s' := by
  cases hchange with
  | ended e he =>
      refine h.close fun j => ?_
      rcases he with rfl | rfl
      · rfl
      · rfl
  | refused w hpoint hfull => exact h.close fun _ => rfl
  | goesOn p k e hfree hnext =>
      have hlocal : Txns.Local tx s.txns (k.elim s (s.lock tx)).txns := by
        cases k with
        | none => exact Txns.Local.refl _
        | some l => exact Txns.Local.lock (hfree l rfl)
      have htables : (k.elim s (s.lock tx)).tables = s.tables := by
        cases k with
        | none => rfl
        | some l => rfl
      have hchecks : ∀ j, j ≠ tx → e.checks j = false := by
        intro j hj
        cases hnext with
        | checked tenantID new hpoint hnow hdup => exact decide_eq_false fun heq => hj heq.symm
        | _ => rfl
      refine h.local (hlocal.trans (Txns.Local.put _ tx _)) (htables ▸ h.deduped) (fun j _ _ hj hseen => ?_) ?_
      · exact htables ▸ hseen.snoc (hchecks j hj)
      · intro x hx tenantID new hwork
        obtain rfl := Option.some.inj (Txns.put_txn.symm.trans hx)
        exact htables ▸ hnext.seen h htxn hwork
  | deleted tables hpoint hdelete =>
      refine h.local (Txns.Local.close s.txns tx) (h.deduped.sublist (stepDelete_alerts hdelete))
        (fun j _ _ _ hseen => hseen.deleted hdelete) fun x hx => ?_
      exact absurd (Txns.close_txn.symm.trans hx) (Option.some_ne_none _).symm
  | wrote w fresh tables hpoint happly =>
      have hseen : ∀ tenantID new, w = .alert tenantID new → Seen log s.tables tx tenantID new :=
        fun tenantID new hw => h.seen tx t htxn tenantID new (by rw [hpoint, hw]; rfl)
      have hdeduped := h.deduped.apply happly hseen fun tenantID new hw => hunraced tenantID new (by rw [hpoint, hw])
      refine h.local (Txns.Local.close s.txns tx) hdeduped (fun j _ _ _ hj => hj.committed happly) fun x hx => ?_
      exact absurd (Txns.close_txn.symm.trans hx) (Option.some_ne_none _).symm

theorem DedupInv.step (h : DedupInv log s) (hok : Unraced log s a) (hstep : TenantRows.step cfg s a = some (s', e)) :
    DedupInv (log ++ [e]) s' := by
  rcases step_cases hstep with
    ⟨tx, now, call, rfl, -, -, rfl, rfl⟩ | ⟨tx, fresh, t, rfl, ht, hchange⟩ | ⟨tx, rfl, rfl, rfl⟩
  · refine h.local (Txns.Local.put s.txns tx _) h.deduped (fun j _ _ _ hj => hj.snoc rfl) fun x hx _ _ hwork => ?_
    obtain rfl := Option.some.inj (Txns.put_txn.symm.trans hx)
    cases hwork
  · refine h.change ht (fun tenantID new hpoint => ?_) hchange
    exact hok t ht (tenantID, new) (by rw [hpoint]; rfl)
  · exact h.close fun _ => rfl

/-- An answer that the alert is a duplicate is the end of its transaction. -/
theorem duplicate_tables (hstep : TenantRows.step cfg s a = some (s', .duplicate)) : s'.tables = s.tables := by
  generalize hd : Event.duplicate = e at hstep
  rcases step_cases hstep with ⟨-, -, -, -, -, -, -, rfl⟩ | ⟨tx, fresh, t, rfl, ht, hchange⟩ | ⟨-, -, -, rfl⟩
  · cases hd
  · cases hchange with
    | ended e he => rfl
    | refused w hpoint hfull => cases hd
    | goesOn p k e hfree hnext =>
        subst hd
        cases hnext
    | deleted tables hpoint hdelete => cases hd
    | wrote w fresh tables hpoint happly => cases hd
  · cases hd

/-- In a run in which no insert is raced since its duplicate query, a device never has the same payload twice within the
window; and an alert that is answered as a duplicate has changed nothing. -/
theorem alert_dedup {d : Tables} {clock : Time} (hstart : Deduped d.alerts)
    (hrun : (system cfg).RunIf Unraced (start d clock) log s) :
    Deduped s.tables.alerts ∧
      ∀ a s', TenantRows.step cfg s a = some (s', .duplicate) → s'.tables = s.tables := by
  have hzero : DedupInv [] (start d clock) := ⟨hstart, fun _ _ ht => by cases ht⟩
  have hinv := hrun.invariant DedupInv hzero fun _ _ _ _ _ h hok hstep => h.step hok hstep
  exact ⟨hinv.deduped, fun _ _ hstep => duplicate_tables hstep⟩

end steps

/-- A tenant with a device that has sent nothing. -/
def oneDevice : Tables :=
  ⟨∅, ⟨[⟨7, acme, "bed-1"⟩], by decide⟩, [], fun _ => none, fun _ ha => absurd ha List.not_mem_nil⟩

def defaultCaps : Config := ⟨25, 50, 10000, fun _ => 0⟩

/-- `{"code": "soil_dry", "severity": "warn"}` -/
def soilDry : Json := .field "code" (.string "soil_dry") (.field "severity" (.string "warn") .empty)

def insertSoilDry : Call := .insertAlert acme 7 .warn "soil_dry" "" (some soilDry)

/-- An alert, its redelivery a second later, and the same again after the window. -/
def redelivered : List Action :=
  [.begin 0 0 insertSoilDry, .next 0 0, .next 0 0, .next 0 0, .next 0 0, .begin 1 (seconds 1) insertSoilDry, .next 1 0,
    .begin 2 (seconds 600) insertSoilDry, .next 2 0, .next 2 0, .next 2 0, .next 2 0]

theorem redelivered_runs : ((system defaultCaps).execIf Unraced [] (start oneDevice 0) redelivered).any
    (fun r => decide (r.2.tables.alerts.length = 2)) = true := by
  decide +kernel

theorem redelivered_dedup : ∃ log s, (system defaultCaps).Run (start oneDevice 0) log s ∧
    s.tables.alerts.length = 2 ∧ Deduped s.tables.alerts := by
  obtain ⟨log, s, hrun, htest⟩ := Machine.exists_runIf_of_any redelivered_runs
  have hstart : Deduped oneDevice.alerts := List.Pairwise.nil
  exact ⟨log, s, hrun.run, of_decide_eq_true htest, (alert_dedup hstart hrun).1⟩

/-- The alert and its redelivery at once: both have run their duplicate query before one of them takes the lock. -/
def deliveredTwice : List Action :=
  [.begin 0 0 insertSoilDry, .begin 1 (seconds 1) insertSoilDry, .next 0 0, .next 1 0, .next 0 0, .next 0 0, .next 0 0,
    .next 1 0, .next 1 0, .next 1 0]

theorem deliveredTwice_runs :
    ((system defaultCaps).execIf (fun _ _ _ => True) [] (start oneDevice 0) deliveredTwice).any
      (fun r => !decide (Deduped r.2.tables.alerts)) = true := by
  decide +kernel

/-- The payload is stored twice, one second apart. -/
theorem deliveredTwice_not_deduped : Deduped oneDevice.alerts ∧
    ∃ log s, (system defaultCaps).Run (start oneDevice 0) log s ∧ ¬ Deduped s.tables.alerts := by
  obtain ⟨log, s, hrun, htest⟩ := Machine.exists_runIf_of_any deliveredTwice_runs
  rw [Bool.not_eq_true', decide_eq_false_iff_not] at htest
  exact ⟨List.Pairwise.nil, log, s, hrun, htest⟩

end ThesadaApp.TenantRows
