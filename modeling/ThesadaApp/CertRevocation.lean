import ThesadaApp.CertStore
import ThesadaApp.MachineRun

/-!
What the revocation answer says over whole histories of issues, revokes, deletes and recreated devices. A serial
is recorded once, and where its row stands or its tombstone, one of the two holds the device and the key it was
issued for; an answer of revoked is handed from the row to the tombstone.
-/

namespace ThesadaApp.Certs

structure Config where
  quotaDevices : Int
  tenants : List Slug

inductive Action where
  | issue (tenantID : Slug) (devicePk : UUID) (now : Time) (n : NewCert)
  | issueWithIdentity (tenantID : Slug) (devicePk : UUID) (now : Time) (n : NewCert) (pubkeyHex : String)
  | issuePending (tenantID : Slug) (devicePk : UUID) (now : Time) (n : NewCert)
  | activate (tenantID : Slug) (certID : Nat) (devicePk : UUID) (now : Time)
  | markFailed (tenantID : Slug) (certID : Nat)
  | revoke (tenantID : Slug) (devicePk : UUID) (now : Time)
  | deleteByID (tenantID : Slug) (id : UUID)
  | reassign (id : UUID) (targetTenant : Slug)
  /-- A message or a claim writes the devices row of (tenant, device id); `fresh` is the id of a new one. -/
  | upsert (tenantID : Slug) (deviceID mqttTopicPrefix : String) (fresh : UUID)

inductive Event where
  /-- The row inserted, with the device id of its device. -/
  | issued (c : Certificate) (deviceID : String)
  | deleted (id : UUID)
  | changed
  | failed (err : CertError)
  deriving DecidableEq

/-- How a call that issues ends. -/
def issueOutcome (s : Store) (r : Except CertError (Store × Certificate)) : Store × Event :=
  match r with
  | .error err => (s, .failed err)
  | .ok (s', c) => (s', .issued c ((s.devices.get c.devicePk).elim "" Device.deviceID))

/-- How a call that only changes rows ends. -/
def changeOutcome (s : Store) (r : Except CertError Store) : Store × Event :=
  match r with
  | .error err => (s, .failed err)
  | .ok s' => (s', .changed)

def step (cfg : Config) (s : Store) : Action → Option (Store × Event)
  | .issue tenantID devicePk now n => some (issueOutcome s (issue s tenantID devicePk now n))
  | .issueWithIdentity tenantID devicePk now n pubkeyHex =>
      some (issueOutcome s (issueWithIdentity s tenantID devicePk now n pubkeyHex))
  | .issuePending tenantID devicePk now n => some (issueOutcome s (issuePending s tenantID devicePk now n))
  | .activate tenantID certID devicePk now => some (changeOutcome s (activate s tenantID certID devicePk now))
  | .markFailed tenantID certID => some (changeOutcome s (markFailed s tenantID certID))
  | .revoke tenantID devicePk now => some (changeOutcome s (revoke s tenantID devicePk now))
  | .deleteByID tenantID id =>
      match deleteByID s tenantID id with
      | .error err => some (s, .failed err)
      | .ok (s', gone) => some (s', if gone then .deleted id else .changed)
  | .reassign id targetTenant =>
      match reassign cfg.quotaDevices cfg.tenants s.devices id targetTenant with
      | .error err => some (s, .failed (.device err))
      | .ok devices => some ({ s with devices }, .changed)
  | .upsert tenantID deviceID mqttTopicPrefix fresh =>
      match Rights.upsertCore cfg.quotaDevices s.devices tenantID deviceID mqttTopicPrefix fresh with
      | .error err => some (s, .failed (.device err))
      | .ok (devices, _) => some ({ s with devices }, .changed)

def system (cfg : Config) : Machine Store Action Event where
  step := step cfg

/-- The serial a call would record. -/
def Action.serial : Action → Option String
  | .issue _ _ _ n | .issueWithIdentity _ _ _ n _ | .issuePending _ _ _ n => some n.serialHex
  | _ => none

def serials (log : List Event) : List String :=
  log.filterMap fun e =>
    match e with
    | .issued c _ => some c.serialHex
    | _ => none

/-- `SignDeviceCert` draws 128 random bits, and none that it drew before. -/
def FreshSerial (log : List Event) (_ : Store) (a : Action) : Prop := ∀ serial ∈ a.serial, serial ∉ serials log

instance (log : List Event) (s : Store) (a : Action) : Decidable (FreshSerial log s a) :=
  inferInstanceAs (Decidable (∀ serial ∈ a.serial, serial ∉ serials log))

/-- What a change keeps of a certificate: what it was issued for, and that it is revoked. -/
structure Kept (old c : Certificate) : Prop where
  serialHex : c.serialHex = old.serialHex
  devicePk : c.devicePk = old.devicePk
  pubkeyHex : c.pubkeyHex = old.pubkeyHex
  revoked : old.revoked = true → c.revoked = true

theorem Kept.refl (c : Certificate) : Kept c c := ⟨rfl, rfl, rfl, id⟩

/-- The rows of the first table are all in the second, some of them changed. -/
structure RowsKept (t t' : CertTable) (new : Option Certificate) : Prop where
  forward : ∀ old ∈ t, ∃ c ∈ t', Kept old c
  back : ∀ c ∈ t', (∃ old ∈ t, Kept old c) ∨ new = some c

def DevicesKept (devices devices' : DeviceTable) : Prop :=
  ∀ d ∈ devices, ∃ d' ∈ devices', d'.id = d.id ∧ d'.deviceID = d.deviceID

theorem DevicesKept.refl (devices : DeviceTable) : DevicesKept devices devices := fun d hd => ⟨d, hd, rfl, rfl⟩

/-- What a step can do to the devices, the certificates and the tombstones, when its call brings a serial. -/
inductive Effect (s s' : Store) (serial : Option String) : Event → Prop
  | issued {c : Certificate} {d : Device} (hd : d ∈ s.devices) (hpk : d.id = c.devicePk)
      (hdevices : s'.devices = s.devices) (htombstones : s'.tombstones = s.tombstones)
      (hrows : RowsKept s.certs s'.certs (some c)) (hnew : c ∈ s'.certs)
      (hserial : serial = some c.serialHex) : Effect s s' serial (.issued c d.deviceID)
  | deleted {d : Device} (hd : d ∈ s.devices) (hdevices : s'.devices = s.devices.delete d.id)
      (hcerts : s'.certs = s.certs.deleteDevice d.id)
      (htombstones : tombstoneCertSerials s d.deviceID d.id = some s'.tombstones) :
      Effect s s' serial (.deleted d.id)
  | kept {e : Event} (hissued : ∀ c deviceID, e ≠ .issued c deviceID) (hdeleted : ∀ id, e ≠ .deleted id)
      (hdevices : DevicesKept s.devices s'.devices) (htombstones : s'.tombstones = s.tombstones)
      (hrows : RowsKept s.certs s'.certs none) : Effect s s' serial e

section effects

variable {s s' : Store} {tenantID : Slug} {devicePk : UUID} {now : Time} {n : NewCert} {status : CertStatus}
  {pubkeyHex : String} {c : Certificate}

theorem kept_revokeRow (now : Time) (devicePk : UUID) (c : Certificate) : Kept c (revokeRow now devicePk c) := by
  unfold revokeRow
  split
  · exact ⟨rfl, rfl, rfl, fun _ => rfl⟩
  · exact .refl c

theorem rowsKept_refl (t : CertTable) : RowsKept t t none :=
  ⟨fun old hold => ⟨old, hold, .refl old⟩, fun c hc => .inl ⟨c, hc, .refl c⟩⟩

/-- A map over the rows that keeps each, with or without a new row, keeps the table. -/
theorem rowsKept_commit {t t' : CertTable} {f : Certificate → Certificate} (new : Option Certificate)
    (hf : ∀ c, Kept c (f c)) (h : CertTable.commit (t.rows.map f ++ new.toList) = some t') : RowsKept t t' new := by
  have hmem : ∀ c, c ∈ t' ↔ (∃ old ∈ t, f old = c) ∨ new = some c := by
    intro c
    rw [← CertTable.mem_rows, CertTable.commit_eq_some h, List.mem_append, List.mem_map, Option.mem_toList]
    rfl
  constructor
  · intro old hold
    exact ⟨f old, (hmem _).mpr (.inl ⟨old, hold, rfl⟩), hf old⟩
  · intro c hc
    rcases (hmem c).mp hc with ⟨old, hold, rfl⟩ | hnew
    · exact .inl ⟨old, hold, hf old⟩
    · exact .inr hnew

theorem issueTx_effect (h : issueTx s tenantID devicePk now n status pubkeyHex = .ok (s', c)) :
    c.serialHex = n.serialHex ∧ (∃ d ∈ s.devices, d.id = c.devicePk) ∧ s'.devices = s.devices ∧
      s'.tombstones = s.tombstones ∧ RowsKept s.certs s'.certs (some c) ∧ c ∈ s'.certs := by
  unfold issueTx at h
  split at h
  · cases h
  · next hvisible =>
      dsimp only at h
      split at h
      · next certs hcommit =>
          obtain ⟨rfl, rfl⟩ := Prod.mk.inj (Except.ok.inj h)
          have hdevice : ∃ d ∈ s.devices, d.id = devicePk := by
            unfold Store.visible at hvisible
            cases hget : s.devices.get devicePk with
            | none => simp [hget] at hvisible
            | some d => exact ⟨d, (DeviceTable.get_eq_some.mp hget).1, (DeviceTable.get_eq_some.mp hget).2⟩
          have hrows := CertTable.commit_eq_some hcommit
          refine ⟨rfl, hdevice, rfl, rfl, rowsKept_commit (some _) (kept_revokeRow now devicePk) hcommit, ?_⟩
          rw [← CertTable.mem_rows, hrows]
          exact List.mem_append_right _ (List.mem_singleton_self _)
      · cases h

theorem setCerts_rowsKept {f : Certificate → Certificate} (hf : ∀ c, Kept c (f c)) (h : setCerts s f = .ok s') :
    s'.devices = s.devices ∧ s'.tombstones = s.tombstones ∧ RowsKept s.certs s'.certs none := by
  unfold setCerts at h
  split at h
  · cases h
  · next certs hcommit =>
      obtain rfl := Except.ok.inj h
      exact ⟨rfl, rfl, rowsKept_commit none hf (by simpa using hcommit)⟩

theorem quiet_effect {serial : Option String} (err : CertError) : Effect s s serial (.failed err) :=
  .kept nofun nofun (.refl _) rfl (rowsKept_refl _)

/-- The three issuing calls are one transaction with a write of `paired_at` at its end. -/
theorem issued_effect (pairedAt : Option Time) {r : Except CertError (Store × Certificate)}
    (hr : r = (issueTx s tenantID devicePk now n status pubkeyHex).map fun r =>
      (r.1.setPairedAt devicePk pairedAt, r.2)) :
    Effect s (issueOutcome s r).1 (some n.serialHex) (issueOutcome s r).2 := by
  subst hr
  cases hissue : issueTx s tenantID devicePk now n status pubkeyHex with
  | error err => exact quiet_effect err
  | ok r =>
      obtain ⟨s₁, c⟩ := r
      obtain ⟨hserial, ⟨d, hd, hpk⟩, hdevices, htombstones, hrows, hnew⟩ := issueTx_effect hissue
      have hget : s.devices.get c.devicePk = some d := DeviceTable.get_eq_some.mpr ⟨hd, hpk⟩
      have heffect : Effect s (s₁.setPairedAt devicePk pairedAt) (some n.serialHex) (.issued c d.deviceID) :=
        .issued hd hpk hdevices htombstones hrows hnew (congrArg some hserial.symm)
      simpa [issueOutcome, Except.map, hget] using heffect

theorem changed_effect {r : Except CertError Store} {serial : Option String}
    (h : ∀ s', r = .ok s' → s'.devices = s.devices ∧ s'.tombstones = s.tombstones ∧ RowsKept s.certs s'.certs none) :
    Effect s (changeOutcome s r).1 serial (changeOutcome s r).2 := by
  cases r with
  | error err => exact quiet_effect err
  | ok s' =>
      obtain ⟨hdevices, htombstones, hrows⟩ := h s' rfl
      refine .kept nofun nofun ?_ htombstones hrows
      simp only [changeOutcome, hdevices]
      exact .refl _

/-- A change of status leaves what a certificate was issued for. -/
theorem kept_setStatus (p : Certificate → Bool) (status : CertStatus) (c : Certificate) :
    Kept c (if p c then { c with status := status } else c) := by
  split
  · exact ⟨rfl, rfl, rfl, fun h => h⟩
  · exact .refl c

theorem activate_rowsKept {certID : Nat} (h : activate s tenantID certID devicePk now = .ok s') :
    s'.devices = s.devices ∧ s'.tombstones = s.tombstones ∧ RowsKept s.certs s'.certs none := by
  unfold activate at h
  dsimp only at h
  split at h
  · cases h
  · obtain ⟨s₁, hset, rfl⟩ := map_eq_ok h
    obtain ⟨hdevices, htombstones, hrows⟩ := setCerts_rowsKept (kept_setStatus _ _) hset
    exact ⟨hdevices, htombstones, hrows⟩

theorem markFailed_rowsKept {certID : Nat} (h : markFailed s tenantID certID = .ok s') :
    s'.devices = s.devices ∧ s'.tombstones = s.tombstones ∧ RowsKept s.certs s'.certs none := by
  unfold markFailed at h
  dsimp only at h
  split at h
  · cases h
  · exact setCerts_rowsKept (kept_setStatus _ _) h

theorem revoke_rowsKept (h : revoke s tenantID devicePk now = .ok s') :
    s'.devices = s.devices ∧ s'.tombstones = s.tombstones ∧ RowsKept s.certs s'.certs none := by
  unfold revoke at h
  split at h
  · obtain ⟨s₁, hset, rfl⟩ := map_eq_ok h
    obtain ⟨hdevices, htombstones, hrows⟩ := setCerts_rowsKept (kept_revokeRow now devicePk) hset
    exact ⟨hdevices, htombstones, hrows⟩
  · obtain rfl := Except.ok.inj h
    exact ⟨rfl, rfl, rowsKept_refl _⟩

theorem reassign_devicesKept {quotaDevices : Int} {tenants : List Slug} {devices devices' : DeviceTable} {id : UUID}
    {targetTenant : Slug} (h : reassign quotaDevices tenants devices id targetTenant = .ok devices') :
    DevicesKept devices devices' := by
  intro d hd
  refine ⟨_, (DeviceTable.mem_updateRows (reassign_spec h)).mpr ⟨d, hd, rfl⟩, ?_⟩
  split <;> exact ⟨rfl, rfl⟩

theorem upsertCore_devicesKept {quotaDevices : Int} {devices devices' : DeviceTable} {id fresh : UUID}
    {deviceID mqttTopicPrefix : String}
    (h : Rights.upsertCore quotaDevices devices tenantID deviceID mqttTopicPrefix fresh = .ok (devices', id)) :
    DevicesKept devices devices' := by
  unfold Rights.upsertCore at h
  split at h
  · cases h
  · split at h
    · cases h
    · next r hupsert =>
        obtain rfl := Except.ok.inj h
        obtain ⟨old, -, -, -, hset, -, hiff⟩ := DeviceTable.upsertRow_spec hupsert
        intro d hd
        by_cases heq : d = old
        · exact ⟨_, hset, by rw [heq]; exact ⟨rfl, rfl⟩⟩
        · exact ⟨d, (hiff d).mpr (.inr ⟨hd, heq⟩), rfl, rfl⟩

theorem deleteByID_effect {id : UUID} {gone : Bool} {serial : Option String} (h : deleteByID s tenantID id = .ok (s', gone)) :
    Effect s s' serial (if gone then .deleted id else .changed) := by
  unfold deleteByID at h
  split at h
  · obtain ⟨rfl, rfl⟩ := Prod.mk.inj (Except.ok.inj h)
    exact .kept nofun nofun (.refl _) rfl (rowsKept_refl _)
  · next d hget =>
      obtain ⟨hd, rfl⟩ := DeviceTable.get_eq_some.mp hget
      split at h
      · obtain ⟨rfl, rfl⟩ := Prod.mk.inj (Except.ok.inj h)
        exact .kept nofun nofun (.refl _) rfl (rowsKept_refl _)
      · split at h
        · cases h
        · next htombstones =>
            obtain ⟨rfl, rfl⟩ := Prod.mk.inj (Except.ok.inj h)
            exact .deleted hd rfl rfl htombstones

theorem step_effect {cfg : Config} {a : Action} {e : Event} (h : step cfg s a = some (s', e)) :
    Effect s s' a.serial e := by
  cases a with
  | issue tenantID devicePk now n =>
      obtain ⟨rfl, rfl⟩ := Prod.mk.inj (Option.some.inj h)
      exact issued_effect (some now) rfl
  | issueWithIdentity tenantID devicePk now n pubkeyHex =>
      obtain ⟨rfl, rfl⟩ := Prod.mk.inj (Option.some.inj h)
      by_cases hempty : pubkeyHex = ""
      · simp only [issueWithIdentity, if_pos hempty]
        exact quiet_effect _
      · have hissue : issueWithIdentity s tenantID devicePk now n pubkeyHex =
            (issueTx s tenantID devicePk now n .active pubkeyHex).map fun r =>
              (r.1.setPairedAt devicePk (some now), r.2) := if_neg hempty
        exact issued_effect (some now) hissue
  | issuePending tenantID devicePk now n =>
      obtain ⟨rfl, rfl⟩ := Prod.mk.inj (Option.some.inj h)
      exact issued_effect none rfl
  | activate tenantID certID devicePk now =>
      obtain ⟨rfl, rfl⟩ := Prod.mk.inj (Option.some.inj h)
      exact changed_effect fun s' => activate_rowsKept
  | markFailed tenantID certID =>
      obtain ⟨rfl, rfl⟩ := Prod.mk.inj (Option.some.inj h)
      exact changed_effect fun s' => markFailed_rowsKept
  | revoke tenantID devicePk now =>
      obtain ⟨rfl, rfl⟩ := Prod.mk.inj (Option.some.inj h)
      exact changed_effect fun s' => revoke_rowsKept
  | deleteByID tenantID id =>
      simp only [step] at h
      split at h
      · obtain ⟨rfl, rfl⟩ := Prod.mk.inj (Option.some.inj h)
        exact quiet_effect _
      · next hdelete =>
          obtain ⟨rfl, rfl⟩ := Prod.mk.inj (Option.some.inj h)
          exact deleteByID_effect hdelete
  | reassign id targetTenant =>
      simp only [step] at h
      split at h
      · obtain ⟨rfl, rfl⟩ := Prod.mk.inj (Option.some.inj h)
        exact quiet_effect _
      · next hreassign =>
          obtain ⟨rfl, rfl⟩ := Prod.mk.inj (Option.some.inj h)
          exact .kept nofun nofun (reassign_devicesKept hreassign) rfl (rowsKept_refl _)
  | upsert tenantID deviceID mqttTopicPrefix fresh =>
      simp only [step] at h
      split at h
      · obtain ⟨rfl, rfl⟩ := Prod.mk.inj (Option.some.inj h)
        exact quiet_effect _
      · next hupsert =>
          obtain ⟨rfl, rfl⟩ := Prod.mk.inj (Option.some.inj h)
          exact .kept nofun nofun (upsertCore_devicesKept hupsert) rfl (rowsKept_refl _)

end effects

section tombstones

variable {t t' : TombstoneTable} {cs : List Certificate} {deviceID : String} {x : SerialTombstone}

/-- What one row of the INSERT does to the tombstone of a serial. -/
theorem tombstoneCert_spec {c : Certificate} (h : tombstoneCert deviceID t c = some t') :
    (∀ x ∈ t, x ∈ t') ∧
      (∀ x ∈ t', x ∈ t ∨ (c.serialHex = x.serialHex ∧ deviceID = x.deviceID ∧ c.pubkeyHex = some x.pubkeyHex)) ∧
      ∀ p, c.pubkeyHex = some p → ∃ x ∈ t', x.serialHex = c.serialHex := by
  unfold tombstoneCert at h
  split at h
  · next hnone =>
      obtain rfl := Option.some.inj h
      exact ⟨fun x hx => hx, fun x hx => .inl hx, by simp [hnone]⟩
  · next p hp =>
      split at h
      · next hshape =>
          obtain rfl := Option.some.inj h
          refine ⟨?_, ?_, ?_⟩
          · intro x hx
            refine KeyedTable.find_mem (k := x.serialHex) ?_
            rw [KeyedTable.find_upsert, KeyedTable.find_of_mem hx]
            split <;> rfl
          · intro x hx
            rcases (KeyedTable.mem_upsert _).mp hx with heq | ⟨hx, -⟩
            · cases hfind : t.find c.serialHex with
              | none =>
                  have hx : x = ⟨c.serialHex, deviceID, p, hshape⟩ := by rw [heq, hfind]; rfl
                  exact .inr ⟨by rw [hx], by rw [hx], by rw [hp, hx]⟩
              | some old =>
                  have hx : x = old := by rw [heq, hfind]; rfl
                  exact .inl (hx ▸ KeyedTable.find_mem hfind)
            · exact .inl hx
          · intro q _
            have hthere : (t.upsert ⟨c.serialHex, deviceID, p, hshape⟩ id fun _ => rfl).find c.serialHex ≠ none := by
              rw [KeyedTable.find_upsert, if_pos rfl]
              exact Option.some_ne_none _
            obtain ⟨x, hx⟩ := Option.ne_none_iff_exists'.mp hthere
            exact ⟨x, KeyedTable.find_mem hx, KeyedTable.find_key hx⟩
      · cases h

/-- The whole INSERT: no tombstone goes, each new one is of one of the rows, and every row with a key has one. -/
theorem tombstoneCerts_spec (h : cs.foldlM (tombstoneCert deviceID) t = some t') :
    (∀ x ∈ t, x ∈ t') ∧
      (∀ x ∈ t', x ∈ t ∨ ∃ c ∈ cs, c.serialHex = x.serialHex ∧ deviceID = x.deviceID ∧ c.pubkeyHex = some x.pubkeyHex) ∧
      ∀ c ∈ cs, ∀ p, c.pubkeyHex = some p → ∃ x ∈ t', x.serialHex = c.serialHex := by
  induction cs generalizing t with
  | nil =>
      obtain rfl := Option.some.inj h
      exact ⟨fun x hx => hx, fun x hx => .inl hx, fun c hc => absurd hc List.not_mem_nil⟩
  | cons c cs ih =>
      rw [List.foldlM_cons] at h
      obtain ⟨t₁, hone, hrest⟩ := Option.bind_eq_some_iff.mp h
      obtain ⟨hkeep, hnew, hall⟩ := tombstoneCert_spec hone
      obtain ⟨hkeep', hnew', hall'⟩ := ih hrest
      refine ⟨fun x hx => hkeep' x (hkeep x hx), ?_, ?_⟩
      · intro x hx
        rcases hnew' x hx with hx | ⟨c', hc', hof⟩
        · exact (hnew x hx).imp_right fun hof => ⟨c, List.mem_cons_self, hof⟩
        · exact .inr ⟨c', List.mem_cons_of_mem c hc', hof⟩
      · intro c' hc' p hp
        rcases List.mem_cons.mp hc' with rfl | hc'
        · obtain ⟨x, hx, hserial⟩ := hall p hp
          exact ⟨x, hkeep' x hx, hserial⟩
        · exact hall' c' hc' p hp

/-- A serial that has a tombstone is one a device can present as it is stored. -/
theorem canonical_of_shape : canonicalCertSerial x.serialHex = some x.serialHex := by
  have hshape := x.shape
  simp only [tombstoneShape, Bool.and_eq_true, decide_eq_true_eq, Bool.not_eq_true', Bool.and_eq_false_iff,
    decide_eq_false_iff_not] at hshape
  obtain ⟨⟨⟨⟨⟨hmin, hmax⟩, hhex⟩, hzero⟩, -⟩, -⟩ := hshape
  have hne : x.serialHex ≠ "" := by
    intro hempty
    rw [hempty] at hmin
    exact absurd hmin (by decide)
  unfold canonicalCertSerial
  rw [if_neg (by simp [hne, hhex])]
  have hcanonical : (if x.serialHex.toList.dropWhile (· = '0') = [] then ['0']
      else x.serialHex.toList.dropWhile (· = '0')) = x.serialHex.toList := by
    cases hlist : x.serialHex.toList with
    | nil => simp [hlist] at hmin
    | cons c rest =>
        by_cases hc : c = '0'
        · -- a leading zero is the whole serial
          have hrest : rest = [] := by
            rcases hzero with hhead | hlength
            · exact absurd (by rw [hlist, hc]; rfl) hhead
            · rw [hlist] at hlength
              cases rest with
              | nil => rfl
              | cons c' rest => simp at hlength
          rw [hc, hrest]
          rfl
        · simp [hc]
  simp only [hcanonical]
  rw [if_neg (by simpa [enrollSerialMaxLen] using hmax), String.ofList_toList]

end tombstones

theorem Kept.trans {c₀ c₁ c₂ : Certificate} (h : Kept c₀ c₁) (h' : Kept c₁ c₂) : Kept c₀ c₂ where
  serialHex := h'.serialHex.trans h.serialHex
  devicePk := h'.devicePk.trans h.devicePk
  pubkeyHex := h'.pubkeyHex.trans h.pubkeyHex
  revoked := fun hrevoked => h'.revoked (h.revoked hrevoked)

theorem mem_serials {log : List Event} {c : Certificate} {deviceID : String} (h : .issued c deviceID ∈ log) :
    c.serialHex ∈ serials log :=
  List.mem_filterMap.mpr ⟨_, h, rfl⟩

/-- A serial answers for a device and a key through its tombstone: no row has it. -/
structure Remembered (s : Store) (serialHex deviceID pubkeyHex : String) : Prop where
  noRow : ∀ c ∈ s.certs, c.serialHex ≠ serialHex
  tombstone : ∃ t ∈ s.tombstones, t.serialHex = serialHex ∧ t.deviceID = deviceID ∧ t.pubkeyHex = pubkeyHex

/-- What the tables owe to the log of what was issued. -/
structure Inv (log : List Event) (s : Store) : Prop where
  /-- A row was issued for its device, which is there. -/
  row : ∀ c ∈ s.certs, ∃ c₀ d, .issued c₀ d.deviceID ∈ log ∧ Kept c₀ c ∧ d ∈ s.devices ∧ d.id = c.devicePk
  /-- A tombstone is of a serial that was issued and has no row. -/
  tombstone : ∀ t ∈ s.tombstones, (∃ c₀, .issued c₀ t.deviceID ∈ log ∧ c₀.serialHex = t.serialHex ∧
    c₀.pubkeyHex = some t.pubkeyHex) ∧ ∀ c ∈ s.certs, c.serialHex ≠ t.serialHex
  /-- A serial is issued once. -/
  once : ∀ c₀ dev c₁ dev', .issued c₀ dev ∈ log → .issued c₁ dev' ∈ log → c₀.serialHex = c₁.serialHex →
    c₀ = c₁ ∧ dev = dev'
  /-- What was issued has its row, or is gone and, with a key, remembered. -/
  trace : ∀ c₀ dev, .issued c₀ dev ∈ log → (∃ c ∈ s.certs, Kept c₀ c) ∨
    ((∀ c ∈ s.certs, c.serialHex ≠ c₀.serialHex) ∧ ∀ p, c₀.pubkeyHex = some p → Remembered s c₀.serialHex dev p)

section runs

variable {log : List Event} {s s' : Store} {serial : Option String} {e : Event} {deviceID pubkeyHex canonical : String}

theorem inv_init : Inv [] init := by
  constructor
  · intro c hc
    exact absurd hc List.not_mem_nil
  · intro t ht
    exact absurd ht List.not_mem_nil
  · intro c₀ dev c₁ dev' h
    exact absurd h List.not_mem_nil
  · intro c₀ dev h
    exact absurd h List.not_mem_nil

/-- A deletion leaves of each of its certificates with a key a tombstone and no row. -/
theorem deleted_remembered (hinv : Inv log s) {d : Device} (hcerts : s'.certs = s.certs.deleteDevice d.id)
    (htombstones : tombstoneCertSerials s d.deviceID d.id = some s'.tombstones) {c : Certificate} (hc : c ∈ s.certs)
    (hpk : c.devicePk = d.id) (hkey : c.pubkeyHex = some pubkeyHex) : Remembered s' c.serialHex d.deviceID pubkeyHex := by
  obtain ⟨-, hnew, hall⟩ := tombstoneCerts_spec htombstones
  refine ⟨?_, ?_⟩
  · intro c' hc' heq
    rw [hcerts, CertTable.mem_deleteDevice] at hc'
    obtain rfl := CertTable.eq_of_serial hc'.1 hc heq
    exact hc'.2 hpk
  · obtain ⟨t, ht, hserial⟩ := hall c (List.mem_filter.mpr ⟨hc, decide_eq_true hpk⟩) pubkeyHex hkey
    rcases hnew t ht with hold | ⟨c', hc', hserial', hdevice, hkey'⟩
    · exact absurd hserial.symm ((hinv.tombstone t hold).2 c hc)
    · obtain rfl := CertTable.eq_of_serial (List.mem_of_mem_filter hc') hc (hserial'.trans hserial)
      exact ⟨t, ht, hserial, hdevice.symm, Option.some.inj (hkey'.symm.trans hkey)⟩

/-- A serial that has no row gets one only if it is drawn again. -/
theorem noRow_step (h : ∀ c ∈ s.certs, c.serialHex ≠ canonical) (heffect : Effect s s' serial e)
    (hserial : serial ≠ some canonical) : ∀ c ∈ s'.certs, c.serialHex ≠ canonical := by
  intro c hc
  cases heffect with
  | issued hd hpk hdevices htombstones hrows hnew hdrawn =>
      rcases hrows.back c hc with ⟨old, hold, hkept⟩ | heq
      · rw [hkept.serialHex]
        exact h old hold
      · obtain rfl := Option.some.inj heq
        exact fun heq => hserial (hdrawn.trans (congrArg some heq))
  | deleted hd hdevices hcerts htombstones =>
      rw [hcerts, CertTable.mem_deleteDevice] at hc
      exact h c hc.1
  | kept hissued hdeleted hdevices htombstones hrows =>
      rcases hrows.back c hc with ⟨old, hold, hkept⟩ | hnone
      · rw [hkept.serialHex]
        exact h old hold
      · cases hnone

/-- A remembered serial stays so: it is not issued again, and tombstones are never taken away. -/
theorem Remembered.step (h : Remembered s canonical deviceID pubkeyHex) (heffect : Effect s s' serial e)
    (hserial : serial ≠ some canonical) : Remembered s' canonical deviceID pubkeyHex := by
  obtain ⟨t, ht, hof⟩ := h.tombstone
  refine ⟨noRow_step h.noRow heffect hserial, t, ?_, hof⟩
  cases heffect with
  | issued hd hpk hdevices htombstones hrows hnew hdrawn => exact htombstones ▸ ht
  | deleted hd hdevices hcerts htombstones => exact (tombstoneCerts_spec htombstones).1 t ht
  | kept hissued hdeleted hdevices htombstones hrows => exact htombstones ▸ ht

/-- The device a row was issued for is the one it has. -/
theorem Inv.device_of_row (hinv : Inv log s) {c c₀ : Certificate} {d : Device} {dev : String} (hc : c ∈ s.certs)
    (hissued : .issued c₀ dev ∈ log) (hkept : Kept c₀ c) (hd : d ∈ s.devices) (hpk : d.id = c.devicePk) :
    d.deviceID = dev := by
  obtain ⟨c₁, d₁, hissued₁, hkept₁, hd₁, hpk₁⟩ := hinv.row c hc
  obtain rfl := DeviceTable.eq_of_id hd hd₁ (hpk.trans hpk₁.symm)
  exact (hinv.once _ _ _ _ hissued₁ hissued (hkept₁.serialHex.symm.trans hkept.serialHex)).2

theorem inv_issued (hinv : Inv log s) {c : Certificate} {d : Device} (hd : d ∈ s.devices) (hpk : d.id = c.devicePk)
    (hdevices : s'.devices = s.devices) (htombstones : s'.tombstones = s.tombstones)
    (hrows : RowsKept s.certs s'.certs (some c)) (hnew : c ∈ s'.certs) (hfresh : c.serialHex ∉ serials log) :
    Inv (log ++ [.issued c d.deviceID]) s' := by
  have hother : ∀ c₀ dev, .issued c₀ dev ∈ log → c.serialHex ≠ c₀.serialHex := fun c₀ dev h heq =>
    hfresh (heq ▸ mem_serials h)
  have heffect : Effect s s' (some c.serialHex) (.issued c d.deviceID) :=
    .issued hd hpk hdevices htombstones hrows hnew rfl
  have hcases : ∀ c₀ dev, .issued c₀ dev ∈ log ++ [.issued c d.deviceID] →
      .issued c₀ dev ∈ log ∨ (c₀ = c ∧ dev = d.deviceID) := by
    intro c₀ dev h
    exact (List.mem_append.mp h).imp_right fun h => Event.issued.inj (List.mem_singleton.mp h)
  constructor
  case row =>
    intro r hr
    rw [hdevices]
    rcases hrows.back r hr with ⟨old, hold, hkept⟩ | heq
    · obtain ⟨c₀, d₀, hissued, hkept₀, hd₀, hpk₀⟩ := hinv.row old hold
      exact ⟨c₀, d₀, List.mem_append_left _ hissued, hkept₀.trans hkept, hd₀, hpk₀.trans hkept.devicePk.symm⟩
    · obtain rfl := Option.some.inj heq
      exact ⟨c, d, List.mem_append_right _ (List.mem_singleton_self _), .refl c, hd, hpk⟩
  case tombstone =>
    intro t ht
    rw [htombstones] at ht
    obtain ⟨⟨c₀, hissued, hserial, hkey⟩, hnoRow⟩ := hinv.tombstone t ht
    refine ⟨⟨c₀, List.mem_append_left _ hissued, hserial, hkey⟩, noRow_step hnoRow heffect ?_⟩
    exact fun heq => hother c₀ _ hissued ((Option.some.inj heq).trans hserial.symm)
  case once =>
    intro c₀ dev c₁ dev' h h' heq
    rcases hcases c₀ dev h with hold | ⟨rfl, rfl⟩ <;> rcases hcases c₁ dev' h' with hold' | ⟨rfl, rfl⟩
    · exact hinv.once c₀ dev c₁ dev' hold hold' heq
    · exact absurd heq.symm (hother c₀ dev hold)
    · exact absurd heq (hother c₁ dev' hold')
    · exact ⟨rfl, rfl⟩
  case trace =>
    intro c₀ dev h
    rcases hcases c₀ dev h with h | ⟨rfl, rfl⟩
    · have hne : some c.serialHex ≠ some c₀.serialHex := fun heq => hother c₀ dev h (Option.some.inj heq)
      rcases hinv.trace c₀ dev h with ⟨r, hr, hkept⟩ | ⟨hnoRow, hkeyed⟩
      · obtain ⟨r', hr', hkept'⟩ := hrows.forward r hr
        exact .inl ⟨r', hr', hkept.trans hkept'⟩
      · exact .inr ⟨noRow_step hnoRow heffect hne, fun p hp => (hkeyed p hp).step heffect hne⟩
    · exact .inl ⟨c₀, hnew, .refl c₀⟩

/-- What was issued before an event that issues nothing. -/
theorem issued_before {c₀ : Certificate} {dev : String} (hissued : ∀ c deviceID, e ≠ .issued c deviceID)
    (h : .issued c₀ dev ∈ log ++ [e]) : .issued c₀ dev ∈ log :=
  (List.mem_append.mp h).resolve_right fun h => hissued c₀ dev (List.mem_singleton.mp h).symm

theorem inv_deleted (hinv : Inv log s) {d : Device} (hd : d ∈ s.devices) (hdevices : s'.devices = s.devices.delete d.id)
    (hcerts : s'.certs = s.certs.deleteDevice d.id)
    (htombstones : tombstoneCertSerials s d.deviceID d.id = some s'.tombstones) :
    Inv (log ++ [.deleted d.id]) s' := by
  have heffect : Effect s s' none (.deleted d.id) := .deleted hd hdevices hcerts htombstones
  have hissued : ∀ c₀ dev, Event.deleted d.id ≠ .issued c₀ dev := nofun
  constructor
  case row =>
    intro c hc
    rw [hcerts, CertTable.mem_deleteDevice] at hc
    obtain ⟨c₀, d₀, hissued, hkept, hd₀, hpk₀⟩ := hinv.row c hc.1
    refine ⟨c₀, d₀, List.mem_append_left _ hissued, hkept, ?_, hpk₀⟩
    rw [hdevices, DeviceTable.mem_delete]
    exact ⟨hd₀, fun heq => hc.2 (hpk₀.symm.trans heq)⟩
  case tombstone =>
    intro t ht
    rcases (tombstoneCerts_spec htombstones).2.1 t ht with hold | ⟨c, hc, hserial, hdevice, hkey⟩
    · obtain ⟨⟨c₀, hissued, hof⟩, hnoRow⟩ := hinv.tombstone t hold
      exact ⟨⟨c₀, List.mem_append_left _ hissued, hof⟩, noRow_step hnoRow heffect nofun⟩
    · obtain ⟨hc, hpk⟩ := List.mem_filter.mp hc
      obtain ⟨c₀, d₀, hissued, hkept, hd₀, hpk₀⟩ := hinv.row c hc
      obtain rfl := DeviceTable.eq_of_id hd hd₀ ((of_decide_eq_true hpk).symm.trans hpk₀.symm)
      rw [← hdevice, ← hserial]
      exact ⟨⟨c₀, List.mem_append_left _ hissued, hkept.serialHex.symm, hkept.pubkeyHex.symm.trans hkey⟩,
        (deleted_remembered hinv hcerts htombstones hc (of_decide_eq_true hpk) hkey).noRow⟩
  case once =>
    intro c₀ dev c₁ dev' h h'
    exact hinv.once c₀ dev c₁ dev' (issued_before hissued h) (issued_before hissued h')
  case trace =>
    intro c₀ dev h
    rcases hinv.trace c₀ dev (issued_before hissued h) with ⟨c, hc, hkept⟩ | ⟨hnoRow, hkeyed⟩
    · by_cases hpk : c.devicePk = d.id
      · refine .inr ⟨?_, fun p hp => ?_⟩
        · intro c' hc' heq
          rw [hcerts, CertTable.mem_deleteDevice] at hc'
          obtain rfl := CertTable.eq_of_serial hc'.1 hc (heq.trans hkept.serialHex.symm)
          exact hc'.2 hpk
        · have hgone := deleted_remembered hinv hcerts htombstones hc hpk (hkept.pubkeyHex.trans hp)
          rw [hinv.device_of_row hc (issued_before hissued h) hkept hd hpk.symm, hkept.serialHex] at hgone
          exact hgone
      · exact .inl ⟨c, by rw [hcerts, CertTable.mem_deleteDevice]; exact ⟨hc, hpk⟩, hkept⟩
    · exact .inr ⟨noRow_step hnoRow heffect nofun, fun p hp => (hkeyed p hp).step heffect nofun⟩

theorem inv_kept (hinv : Inv log s) (hissued : ∀ c deviceID, e ≠ .issued c deviceID)
    (hdevices : DevicesKept s.devices s'.devices) (htombstones : s'.tombstones = s.tombstones)
    (hrows : RowsKept s.certs s'.certs none) (heffect : Effect s s' none e) : Inv (log ++ [e]) s' := by
  constructor
  case row =>
    intro c hc
    rcases hrows.back c hc with ⟨old, hold, hkept⟩ | hnone
    · obtain ⟨c₀, d₀, hissued₀, hkept₀, hd₀, hpk₀⟩ := hinv.row old hold
      obtain ⟨d, hd, hid, hdevice⟩ := hdevices d₀ hd₀
      refine ⟨c₀, d, ?_, hkept₀.trans hkept, hd, ?_⟩
      · rw [hdevice]
        exact List.mem_append_left _ hissued₀
      · rw [hid, hpk₀, hkept.devicePk]
    · cases hnone
  case tombstone =>
    intro t ht
    rw [htombstones] at ht
    obtain ⟨⟨c₀, hissued₀, hof⟩, hnoRow⟩ := hinv.tombstone t ht
    exact ⟨⟨c₀, List.mem_append_left _ hissued₀, hof⟩, noRow_step hnoRow heffect nofun⟩
  case once =>
    intro c₀ dev c₁ dev' h h'
    exact hinv.once c₀ dev c₁ dev' (issued_before hissued h) (issued_before hissued h')
  case trace =>
    intro c₀ dev h
    rcases hinv.trace c₀ dev (issued_before hissued h) with ⟨c, hc, hkept⟩ | ⟨hnoRow, hkeyed⟩
    · obtain ⟨c', hc', hkept'⟩ := hrows.forward c hc
      exact .inl ⟨c', hc', hkept.trans hkept'⟩
    · exact .inr ⟨noRow_step hnoRow heffect nofun, fun p hp => (hkeyed p hp).step heffect nofun⟩

theorem inv_step (hinv : Inv log s) (heffect : Effect s s' serial e) (hfresh : ∀ x ∈ serial, x ∉ serials log) :
    Inv (log ++ [e]) s' := by
  cases heffect with
  | issued hd hpk hdevices htombstones hrows hnew hserial =>
      exact inv_issued hinv hd hpk hdevices htombstones hrows hnew (hfresh _ hserial)
  | deleted hd hdevices hcerts htombstones => exact inv_deleted hinv hd hdevices hcerts htombstones
  | kept hissued hdeleted hdevices htombstones hrows =>
      exact inv_kept hinv hissued hdevices htombstones hrows (.kept hissued hdeleted hdevices htombstones hrows)

theorem inv_run {cfg : Config} (hrun : (system cfg).RunIf FreshSerial init log s) : Inv log s :=
  hrun.invariant Inv inv_init fun _ _ _ _ _ hinv hfresh hstep => inv_step hinv (step_effect hstep) hfresh

/-- A revoked row answers for the device and the key it was issued for. -/
def RevokedRow (s : Store) (serialHex deviceID pubkeyHex : String) : Prop :=
  ∃ c ∈ s.certs, ∃ d ∈ s.devices, c.serialHex = serialHex ∧ c.revoked = true ∧ c.pubkeyHex = some pubkeyHex ∧
    d.id = c.devicePk ∧ d.deviceID = deviceID

theorem statusRow_of_row (hinv : Inv log s) {c : Certificate} (hc : c ∈ s.certs) : ∃ d ∈ s.devices, d.id = c.devicePk ∧
    statusRow s c.serialHex = some ⟨c.revoked, c.status, c.pubkeyHex.getD "", d.deviceID⟩ := by
  obtain ⟨-, d, -, -, hd, hpk⟩ := hinv.row c hc
  refine ⟨d, hd, hpk, ?_⟩
  rw [statusRow, CertTable.find_eq_some.mpr ⟨hc, rfl⟩, Option.bind_eq_bind, Option.bind_some,
    DeviceTable.get_eq_some.mpr ⟨hd, hpk⟩]
  rfl

theorem statusRow_of_noRow (h : ∀ c ∈ s.certs, c.serialHex ≠ canonical) : statusRow s canonical = none := by
  rw [statusRow, CertTable.find_eq_none.mpr h]
  rfl

/-- An identity key in the table is not empty. -/
theorem pubkey_ne_empty {c : Certificate} (hc : c ∈ s.certs) (hkey : c.pubkeyHex = some pubkeyHex) : pubkeyHex ≠ "" := by
  rintro rfl
  have hcheck := s.certs.constraints.pubkey c hc
  rw [hkey] at hcheck
  exact absurd hcheck (by decide)

/-- When the answer is revoked: by a revoked row, or by a tombstone without a row. -/
theorem answer_revoked_iff (hinv : Inv log s) {serialIn : String} :
    revocationStatus s deviceID pubkeyHex serialIn = some (.revoked, canonical) ↔
      canonicalCertSerial serialIn = some canonical ∧
        (RevokedRow s canonical deviceID pubkeyHex ∨ Remembered s canonical deviceID pubkeyHex) := by
  rw [revocationStatus, Option.map_eq_some_iff]
  constructor
  · rintro ⟨canonical', hcanonical, hanswer⟩
    obtain ⟨hrevoked, rfl⟩ := Prod.mk.inj hanswer
    refine ⟨hcanonical, ?_⟩
    by_cases hrow : ∃ c ∈ s.certs, c.serialHex = canonical'
    · obtain ⟨c, hc, rfl⟩ := hrow
      obtain ⟨d, hd, hpk, hstatus⟩ := statusRow_of_row hinv hc
      simp only [hstatus, certRevocationAnswer] at hrevoked
      split at hrevoked
      · cases hrevoked
      · next hmatch =>
          split at hrevoked
          · next hflag =>
              push Not at hmatch
              obtain ⟨hne, hkey, hdevice⟩ := hmatch
              refine .inl ⟨c, hc, d, hd, rfl, hflag, ?_, hpk, hdevice⟩
              cases hpub : c.pubkeyHex with
              | none => simp [hpub] at hne
              | some p =>
                  rw [hpub, Option.getD_some] at hkey
                  rw [hkey]
          · split at hrevoked <;> cases hrevoked
    · push Not at hrow
      rw [statusRow_of_noRow hrow] at hrevoked
      simp only [Option.isSome_none, Bool.false_eq_true, if_false, certRevocationAnswer] at hrevoked
      split at hrevoked
      · next t hfind =>
          split at hrevoked
          · next hboth =>
              exact .inr ⟨hrow, t, KeyedTable.find_mem hfind, KeyedTable.find_key hfind, hboth.2, hboth.1⟩
          · cases hrevoked
      · cases hrevoked
  · rintro ⟨hcanonical, ⟨c, hc, d, hd, rfl, hflag, hkey, hpk, hdevice⟩ | ⟨hnoRow, t, ht, rfl, rfl, rfl⟩⟩
    · refine ⟨_, hcanonical, ?_⟩
      obtain ⟨d', hd', hpk', hstatus⟩ := statusRow_of_row hinv hc
      obtain rfl := DeviceTable.eq_of_id hd hd' (hpk.trans hpk'.symm)
      have hne := pubkey_ne_empty hc hkey
      simp [hstatus, certRevocationAnswer, hkey, hdevice, hflag, hne]
    · refine ⟨_, hcanonical, ?_⟩
      simp [statusRow_of_noRow hnoRow, certRevocationAnswer, KeyedTable.find_of_mem ht]

/-- A step hands an answer of revoked on, from the row to the row or to the tombstone. -/
theorem revoked_step (hinv : Inv log s) (heffect : Effect s s' serial e) (hfresh : ∀ x ∈ serial, x ∉ serials log)
    (h : RevokedRow s canonical deviceID pubkeyHex ∨ Remembered s canonical deviceID pubkeyHex) :
    RevokedRow s' canonical deviceID pubkeyHex ∨ Remembered s' canonical deviceID pubkeyHex := by
  rcases h with ⟨c, hc, d, hd, rfl, hflag, hkey, hpk, hdevice⟩ | hremembered
  · have hrow : ∀ c' ∈ s'.certs, Kept c c' → (∃ d' ∈ s'.devices, d'.id = d.id ∧ d'.deviceID = d.deviceID) →
        RevokedRow s' c.serialHex deviceID pubkeyHex := by
      rintro c' hc' hkept ⟨d', hd', hid, hdevice'⟩
      exact ⟨c', hc', d', hd', hkept.serialHex, hkept.revoked hflag, hkept.pubkeyHex.trans hkey,
        by rw [hid, hpk, hkept.devicePk], hdevice'.trans hdevice⟩
    cases heffect with
    | issued hd₀ hpk₀ hdevices htombstones hrows hnew hdrawn =>
        obtain ⟨c', hc', hkept⟩ := hrows.forward c hc
        exact .inl (hrow c' hc' hkept ⟨d, by rw [hdevices]; exact hd, rfl, rfl⟩)
    | @deleted d₀ hd₀ hdevices hcerts htombstones =>
        by_cases hmine : c.devicePk = d₀.id
        · obtain rfl := DeviceTable.eq_of_id hd hd₀ (hpk.trans hmine)
          rw [← hdevice]
          exact .inr (deleted_remembered hinv hcerts htombstones hc hmine hkey)
        · refine .inl (hrow c ?_ (.refl c) ⟨d, ?_, rfl, rfl⟩)
          · rw [hcerts, CertTable.mem_deleteDevice]
            exact ⟨hc, hmine⟩
          · rw [hdevices, DeviceTable.mem_delete]
            exact ⟨hd, fun heq => hmine (hpk.symm.trans heq)⟩
    | kept hissued hdeleted hdevices htombstones hrows =>
        obtain ⟨c', hc', hkept⟩ := hrows.forward c hc
        exact .inl (hrow c' hc' hkept (hdevices d hd))
  · refine .inr (hremembered.step heffect fun heq => ?_)
    obtain ⟨t, ht, rfl, -, -⟩ := hremembered.tombstone
    obtain ⟨⟨c₀, hissued, hserial, -⟩, -⟩ := hinv.tombstone t ht
    exact hfresh _ heq (hserial ▸ mem_serials hissued)

/-- An answer of revoked is given for what the serial was issued for. -/
theorem revoked_issued (hinv : Inv log s) {c₀ : Certificate} {dev : String} (hissued : .issued c₀ dev ∈ log)
    (h : RevokedRow s c₀.serialHex deviceID pubkeyHex ∨ Remembered s c₀.serialHex deviceID pubkeyHex) :
    deviceID = dev ∧ c₀.pubkeyHex = some pubkeyHex := by
  rcases h with ⟨c, hc, d, hd, hserial, -, hkey, hpk, rfl⟩ | ⟨-, t, ht, hserial, rfl, rfl⟩
  · obtain ⟨c₁, d₁, hissued₁, hkept₁, hd₁, hpk₁⟩ := hinv.row c hc
    obtain rfl := DeviceTable.eq_of_id hd hd₁ (hpk.trans hpk₁.symm)
    obtain ⟨rfl, rfl⟩ := hinv.once _ _ _ _ hissued₁ hissued (hkept₁.serialHex.symm.trans hserial)
    exact ⟨rfl, hkept₁.pubkeyHex.symm.trans hkey⟩
  · obtain ⟨⟨c₁, hissued₁, hserial₁, hkey₁⟩, -⟩ := hinv.tombstone t ht
    obtain ⟨rfl, rfl⟩ := hinv.once _ _ _ _ hissued₁ hissued (hserial₁.trans hserial)
    exact ⟨rfl, hkey₁⟩

/-- What the revocation answers come to in a state that a run has reached. -/
structure MonotonePrecise (cfg : Config) (log : List Event) (s : Store) : Prop where
  /-- However the run goes on, revoked stays revoked. -/
  monotone : ∀ deviceID pubkeyHex serialIn canonical,
    revocationStatus s deviceID pubkeyHex serialIn = some (.revoked, canonical) → ∀ post s',
    (system cfg).RunIf (fun post => FreshSerial (log ++ post)) s post s' →
    revocationStatus s' deviceID pubkeyHex serialIn = some (.revoked, canonical)
  /-- No unrevoked row is answered as revoked. -/
  unrevoked : ∀ c ∈ s.certs, c.revoked = false → ∀ deviceID pubkeyHex serialIn,
    revocationStatus s deviceID pubkeyHex serialIn ≠ some (.revoked, c.serialHex)
  /-- No serial is answered as revoked for a device or a key other than those it was recorded under. -/
  recorded : ∀ c₀ dev, .issued c₀ dev ∈ log → ∀ deviceID pubkeyHex serialIn,
    revocationStatus s deviceID pubkeyHex serialIn = some (.revoked, c₀.serialHex) →
    deviceID = dev ∧ c₀.pubkeyHex = some pubkeyHex
  /-- Every serial with a key that a deleted device had is answered as revoked. -/
  deleted : ∀ pre post id, log = pre ++ .deleted id :: post → ∀ c₀ dev pubkeyHex, .issued c₀ dev ∈ pre →
    c₀.devicePk = id → c₀.pubkeyHex = some pubkeyHex →
    revocationStatus s dev pubkeyHex c₀.serialHex = some (.revoked, c₀.serialHex)

variable {cfg : Config} {devicePk : UUID}

theorem answer_run (hrun : (system cfg).RunIf FreshSerial init log s) {post : List Event}
    (hafter : (system cfg).RunIf (fun post => FreshSerial (log ++ post)) s post s') {serialIn : String}
    (h : revocationStatus s deviceID pubkeyHex serialIn = some (.revoked, canonical)) :
    revocationStatus s' deviceID pubkeyHex serialIn = some (.revoked, canonical) := by
  obtain ⟨hcanonical, hrevoked⟩ := (answer_revoked_iff (inv_run hrun)).mp h
  have hall : RevokedRow s' canonical deviceID pubkeyHex ∨ Remembered s' canonical deviceID pubkeyHex := by
    refine hafter.invariant_along
      (fun _ s' => RevokedRow s' canonical deviceID pubkeyHex ∨ Remembered s' canonical deviceID pubkeyHex) hrevoked ?_
    intro post₁ s₁ a s₂ e hrun₁ hrevoked₁ hfresh hstep
    exact revoked_step (inv_run (hrun.append hrun₁)) (step_effect hstep) hfresh hrevoked₁
  exact (answer_revoked_iff (inv_run (hrun.append hafter))).mpr ⟨hcanonical, hall⟩

/-- Deleting a device makes every serial with a key that was issued to it answer revoked. -/
theorem answer_of_deleted (hcerts : s'.certs = s.certs.deleteDevice devicePk) (hinv' : Inv (log ++ [e]) s')
    {c₀ : Certificate} {dev : String} (hissued : .issued c₀ dev ∈ log) (hpk : c₀.devicePk = devicePk)
    (hkey : c₀.pubkeyHex = some pubkeyHex) :
    revocationStatus s' dev pubkeyHex c₀.serialHex = some (.revoked, c₀.serialHex) := by
  rcases hinv'.trace c₀ dev (List.mem_append_left _ hissued) with ⟨c, hc, hkept⟩ | ⟨-, hkeyed⟩
  · rw [hcerts, CertTable.mem_deleteDevice] at hc
    exact absurd (hkept.devicePk.trans hpk) hc.2
  · have hremembered := hkeyed pubkeyHex hkey
    obtain ⟨t, -, hserial, -, -⟩ := hremembered.tombstone
    rw [answer_revoked_iff hinv', ← hserial]
    exact ⟨canonical_of_shape, .inr (hserial ▸ hremembered)⟩

theorem Effect.certs_of_deleted {id : UUID} (h : Effect s s' serial (.deleted id)) :
    s'.certs = s.certs.deleteDevice id := by
  cases h with
  | deleted hd hdevices hcerts htombstones => exact hcerts
  | kept hissued hdeleted hdevices htombstones hrows => exact absurd rfl (hdeleted id)

/-- Over every history, the revocation answers are monotone and precise. -/
theorem revocation_monotone_precise (hrun : (system cfg).RunIf FreshSerial init log s) : MonotonePrecise cfg log s := by
  have hinv := inv_run hrun
  constructor
  case monotone =>
    intro deviceID pubkeyHex serialIn canonical h post s' hafter
    exact answer_run hrun hafter h
  case unrevoked =>
    intro c hc hlive deviceID pubkeyHex serialIn h
    rcases ((answer_revoked_iff hinv).mp h).2 with ⟨c', hc', -, -, hserial, hflag, -⟩ | hremembered
    · obtain rfl := CertTable.eq_of_serial hc' hc hserial
      rw [hlive] at hflag
      cases hflag
    · exact hremembered.noRow c hc rfl
  case recorded =>
    intro c₀ dev hissued deviceID pubkeyHex serialIn h
    exact revoked_issued hinv hissued ((answer_revoked_iff hinv).mp h).2
  case deleted =>
    rintro pre post id rfl c₀ dev pubkeyHex hissued hpk hkey
    obtain ⟨s₁, a, s₂, hbefore, hfresh, hstep, hafter⟩ := hrun.split_at_event
    have hdeleted := hbefore.snoc hfresh hstep
    have hcerts := (step_effect hstep).certs_of_deleted
    exact answer_run hdeleted hafter (answer_of_deleted hcerts (inv_run hdeleted) hissued hpk hkey)

end runs

/-- A device id and a key as enrollment accepts them. -/
def unitID : String := "thesada-0123456789ab"

def unitKey : String := "00112233445566778899aabbccddeeff00112233445566778899aabbccddeeff"

/-- Two certificates of a device, and a third of the device created again after its deletion. -/
def reissued : List Action :=
  [.upsert acme unitID "" 1, .issueWithIdentity acme 1 10 ⟨1, "1f", "thesada-acme-" ++ unitID⟩ unitKey,
    .issueWithIdentity acme 1 20 ⟨2, "2e", "thesada-acme-" ++ unitID⟩ unitKey, .deleteByID acme 1,
    .upsert beta unitID "" 2, .issueWithIdentity beta 2 30 ⟨3, "3d", "thesada-beta-" ++ unitID⟩ unitKey]

theorem reissued_runs : ((system ⟨0, [acme, beta]⟩).execIf FreshSerial [] init reissued).any (fun r =>
    decide (revocationStatus r.2 unitID unitKey "1f" = some (.revoked, "1f")) &&
      decide (revocationStatus r.2 unitID unitKey "002e" = some (.revoked, "2e")) &&
      decide (revocationStatus r.2 unitID unitKey "3d" = some (.active, "3d"))) = true := by
  decide +kernel

theorem reissued_monotone_precise : ∃ log s, (system ⟨0, [acme, beta]⟩).RunIf FreshSerial init log s ∧
    MonotonePrecise ⟨0, [acme, beta]⟩ log s ∧ revocationStatus s unitID unitKey "3d" = some (.active, "3d") := by
  obtain ⟨log, s, hrun, htest⟩ := Machine.exists_runIf_of_any reissued_runs
  exact ⟨log, s, hrun, revocation_monotone_precise hrun, of_decide_eq_true (Bool.and_eq_true_iff.mp htest).2⟩

end ThesadaApp.Certs
