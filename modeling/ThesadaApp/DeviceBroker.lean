import ThesadaApp.DeviceTable

/-!
Broker identity bookkeeping. A device's broker client and role are named after the tenant they were issued
under; the row records that tenant and the older ones whose clients are still to be deleted. Each call is
one transaction: it gives the table after it, or the error that leaves the table as it was.
-/

namespace ThesadaApp

/-- What a device row holds on the broker. -/
structure BrokerIdentity where
  devicePk : UUID
  current : Option Slug
  stale : List Slug
  deriving DecidableEq

/-- Every identity to delete, current first. -/
def BrokerIdentity.tenants (b : BrokerIdentity) : List Slug := (b.current.toList ++ b.stale).eraseDups

theorem BrokerIdentity.mem_tenants {b : BrokerIdentity} {t : Slug} :
    t ∈ b.tenants ↔ b.current = some t ∨ t ∈ b.stale := by
  simp [BrokerIdentity.tenants, List.mem_eraseDups]

inductive DeviceError where
  /-- `pgx.ErrNoRows`. -/
  | noRows
  | brokerIdentityTaken
  | quotaDevices
  /-- A constraint of the database refused the statement. -/
  | constraint
  deriving DecidableEq, Repr

/-- The row's record names the identity, live or still awaiting teardown. -/
def Device.Records (d : Device) (identity : Slug) : Prop :=
  d.brokerTenantID = some identity ∨ identity ∈ d.brokerStaleTenants

instance (d : Device) (identity : Slug) : Decidable (d.Records identity) :=
  inferInstanceAs (Decidable (_ ∨ _))

namespace DeviceTable

/-- UPDATE of the rows that satisfy `p`, unless a constraint refuses it. -/
def updateRows (devices : DeviceTable) (p : Device → Bool) (f : Device → Device) : Option DeviceTable :=
  commit (devices.rows.map fun d => if p d then f d else d)

theorem mem_updateRows {devices devices' : DeviceTable} {p : Device → Bool} {f : Device → Device}
    (h : devices.updateRows p f = some devices') {d : Device} :
    d ∈ devices' ↔ ∃ old ∈ devices, (if p old then f old else old) = d := by
  rw [← mem_rows, commit_eq_some h, List.mem_map]
  rfl

end DeviceTable

/-- A row other than `devicePk` holds the identity for the device id. -/
def identityHeldElsewhere (devices : DeviceTable) (identity : Slug) (deviceID : String) (devicePk : UUID) : Bool :=
  devices.rows.any fun o => o.deviceID = deviceID && o.id ≠ devicePk && decide (o.Records identity)

/-- The stale list once the identity of `tenantID` is the current one. -/
def staleAfterReserve (d : Device) (tenantID : Slug) : List Slug :=
  let stale :=
    match d.brokerTenantID with
    | none => d.brokerStaleTenants
    | some prev =>
        if prev ≠ tenantID ∧ prev ∉ d.brokerStaleTenants then d.brokerStaleTenants ++ [prev]
        else d.brokerStaleTenants
  stale.filter fun t => t ≠ tenantID

def Device.setBroker (d : Device) (current : Option Slug) (stale : List Slug) : Device :=
  { d with brokerTenantID := current, brokerStaleTenants := stale }

/-- `ReserveBrokerIdentity`. -/
def reserveBrokerIdentity (devices : DeviceTable) (tenantID : Slug) (deviceID : String) :
    Except DeviceError (DeviceTable × BrokerIdentity) :=
  match devices.find tenantID deviceID with
  | none => .error .noRows
  | some d =>
      if identityHeldElsewhere devices tenantID deviceID d.id then .error .brokerIdentityTaken
      else
        let stale := staleAfterReserve d tenantID
        match devices.updateRows (fun o => o.id = d.id) (·.setBroker (some tenantID) stale) with
        | none => .error .brokerIdentityTaken
        | some devices' => .ok (devices', ⟨d.id, some tenantID, stale⟩)

/-- `BrokerIdentityOf`, for the row as the caller read it: its key and the tenant it was in. -/
def brokerIdentityOf (devices : DeviceTable) (devicePk : UUID) (tenantID : Slug) : Except DeviceError BrokerIdentity :=
  match devices.get devicePk with
  | none => .error .noRows
  | some d =>
      match d.brokerTenantID with
      | some recorded => .ok ⟨devicePk, some recorded, d.brokerStaleTenants⟩
      | none =>
          .ok ⟨devicePk, if identityHeldElsewhere devices d.tenantID d.deviceID d.id then none else some tenantID,
            d.brokerStaleTenants⟩

def Device.forget (d : Device) (identity : Slug) : Device :=
  d.setBroker (if d.brokerTenantID = some identity then none else d.brokerTenantID)
    (d.brokerStaleTenants.filter fun t => t ≠ identity)

/-- `ForgetBrokerIdentity`, under the row-level security of `tenantID`: a row that has left the tenant is
not seen. -/
def forgetBrokerIdentity (devices : DeviceTable) (tenantID : Slug) (devicePk : UUID) (identity : Slug) :
    Except DeviceError DeviceTable :=
  match devices.updateRows (fun d => d.id = devicePk && d.tenantID = tenantID) (·.forget identity) with
  | none => .error .constraint
  | some devices' => .ok devices'

/-- `Reassign`: the row moves, and everything else in it stays. -/
def reassign (quotaDevices : Int) (tenants : List Slug) (devices : DeviceTable) (id : UUID) (targetTenant : Slug) :
    Except DeviceError DeviceTable :=
  match devices.get id with
  | none => .error .noRows
  | some d =>
      if quotaAllowDevice devices targetTenant d.deviceID quotaDevices = false then .error .quotaDevices
      else if targetTenant ∉ tenants then .error .constraint
      else
        match devices.updateRows (fun o => o.id = id) fun o => { o with tenantID := targetTenant } with
        | none => .error .constraint
        | some devices' => .ok devices'

/-- Some row of the device id records the identity. -/
def Recorded (devices : DeviceTable) (deviceID : String) (identity : Slug) : Prop :=
  ∃ d ∈ devices, d.deviceID = deviceID ∧ d.Records identity

section specs

variable {devices devices' : DeviceTable} {tenantID identity t : Slug} {deviceID : String} {devicePk : UUID}

@[simp] theorem Device.records_setBroker {d : Device} {current : Option Slug} {stale : List Slug} :
    (d.setBroker current stale).Records t ↔ current = some t ∨ t ∈ stale := Iff.rfl

/-- An identity the row held stays on its record, live or stale. -/
theorem Device.Records.reserve {d : Device} (h : d.Records t) :
    (d.setBroker (some tenantID) (staleAfterReserve d tenantID)).Records t := by
  by_cases heq : t = tenantID
  · exact .inl (by rw [heq]; rfl)
  · refine .inr ?_
    simp only [Device.setBroker, staleAfterReserve, List.mem_filter, decide_eq_true_eq, ne_eq, heq,
      not_false_eq_true, and_true]
    rcases h with hcurrent | hstale
    · rw [hcurrent]
      dsimp only
      split_ifs with hmoved
      · exact List.mem_append_right _ (List.mem_singleton_self t)
      · by_contra hnot
        exact hmoved ⟨heq, hnot⟩
    · split
      · exact hstale
      · split_ifs
        · exact List.mem_append_left _ hstale
        · exact hstale

theorem Device.records_forget {d : Device} : (d.forget identity).Records t ↔ d.Records t ∧ t ≠ identity := by
  rw [Device.forget, Device.records_setBroker, Device.Records, List.mem_filter, decide_eq_true_eq]
  by_cases hcurrent : d.brokerTenantID = some identity
  · rw [if_pos hcurrent, hcurrent]
    grind
  · rw [if_neg hcurrent]
    grind

/-- An update that leaves device ids alone, and on the rows of one device id keeps an identity on record,
keeps it recorded. -/
theorem Recorded.updateRows {p : Device → Bool} {f : Device → Device} (h : Recorded devices deviceID t)
    (hupdate : devices.updateRows p f = some devices')
    (hkeep : ∀ d ∈ devices, d.Records t → d.deviceID = deviceID → p d = true →
      (f d).deviceID = deviceID ∧ (f d).Records t) : Recorded devices' deviceID t := by
  obtain ⟨d, hd, hdevice, hrecords⟩ := h
  refine ⟨if p d then f d else d, (DeviceTable.mem_updateRows hupdate).mpr ⟨d, hd, rfl⟩, ?_⟩
  split_ifs with hp
  · exact hkeep d hd hrecords hdevice hp
  · exact ⟨hdevice, hrecords⟩

/-- A reservation that went through has written the broker columns of the tenant's own row, whose identity
no other row held. -/
theorem reserveBrokerIdentity_spec {id : BrokerIdentity}
    (h : reserveBrokerIdentity devices tenantID deviceID = .ok (devices', id)) :
    ∃ d ∈ devices, d.tenantID = tenantID ∧ d.deviceID = deviceID ∧
      ¬ identityHeldElsewhere devices tenantID deviceID d.id = true ∧
      devices.updateRows (fun o => o.id = d.id) (·.setBroker (some tenantID) (staleAfterReserve d tenantID)) =
        some devices' ∧
      id = ⟨d.id, some tenantID, staleAfterReserve d tenantID⟩ := by
  unfold reserveBrokerIdentity at h
  split at h
  · cases h
  · next d hd =>
      obtain ⟨hmem, htenant, hdevice⟩ := DeviceTable.find_eq_some.mp hd
      split at h
      · cases h
      · next helsewhere =>
          dsimp only at h
          split at h
          · cases h
          · next hupdate =>
              obtain ⟨rfl, rfl⟩ := Prod.mk.inj (Except.ok.inj h)
              exact ⟨d, hmem, htenant, hdevice, helsewhere, hupdate, rfl⟩

theorem forgetBrokerIdentity_spec (h : forgetBrokerIdentity devices tenantID devicePk identity = .ok devices') :
    devices.updateRows (fun d => d.id = devicePk && d.tenantID = tenantID) (·.forget identity) = some devices' := by
  unfold forgetBrokerIdentity at h
  split at h
  · cases h
  · next hupdate =>
      obtain rfl := Except.ok.inj h
      exact hupdate

theorem reassign_spec {quotaDevices : Int} {tenants : List Slug} {id : UUID} {targetTenant : Slug}
    (h : reassign quotaDevices tenants devices id targetTenant = .ok devices') :
    devices.updateRows (fun o => o.id = id) (fun o => { o with tenantID := targetTenant }) = some devices' := by
  unfold reassign at h
  split at h
  · cases h
  · split at h
    · cases h
    split at h
    · cases h
    split at h
    · cases h
    · next hupdate =>
        obtain rfl := Except.ok.inj h
        exact hupdate

/-- A reservation records its own identity and keeps every other. -/
theorem reserveBrokerIdentity_recorded {id : BrokerIdentity}
    (h : reserveBrokerIdentity devices tenantID deviceID = .ok (devices', id)) :
    Recorded devices' deviceID tenantID ∧ ∀ t, Recorded devices deviceID t → Recorded devices' deviceID t := by
  obtain ⟨d, hmem, -, rfl, -, hupdate, -⟩ := reserveBrokerIdentity_spec h
  refine ⟨⟨_, (DeviceTable.mem_updateRows hupdate).mpr ⟨d, hmem, rfl⟩, ?_⟩, fun t ht => ?_⟩
  · rw [if_pos (decide_eq_true rfl)]
    exact ⟨rfl, .inl rfl⟩
  · refine ht.updateRows hupdate fun o ho hrecords hdevice hid => ⟨hdevice, ?_⟩
    obtain rfl := DeviceTable.eq_of_id ho hmem (of_decide_eq_true hid)
    exact hrecords.reserve

/-- A forget takes away one identity, and only from the row it names. -/
theorem forgetBrokerIdentity_recorded
    (h : forgetBrokerIdentity devices tenantID devicePk identity = .ok devices') {d : Device} (hd : d ∈ devices)
    (hrecords : d.Records t) (hkept : t = identity → ¬ (d.id = devicePk ∧ d.tenantID = tenantID)) :
    Recorded devices' d.deviceID t := by
  refine ⟨_, (DeviceTable.mem_updateRows (forgetBrokerIdentity_spec h)).mpr ⟨d, hd, rfl⟩, ?_⟩
  split_ifs with hp
  · refine ⟨rfl, Device.records_forget.mpr ⟨hrecords, fun heq => hkept heq ?_⟩⟩
    simpa using hp
  · exact ⟨rfl, hrecords⟩

/-- A reservation writes only the broker columns. -/
theorem reserveBrokerIdentity_rows {id : BrokerIdentity}
    (h : reserveBrokerIdentity devices tenantID deviceID = .ok (devices', id)) :
    ∀ d' ∈ devices', ∃ d ∈ devices, d' = d ∨ ∃ current stale, d' = d.setBroker current stale := by
  obtain ⟨_, -, -, -, -, hupdate, -⟩ := reserveBrokerIdentity_spec h
  intro d' hd'
  obtain ⟨d, hd, rfl⟩ := (DeviceTable.mem_updateRows hupdate).mp hd'
  refine ⟨d, hd, ?_⟩
  split_ifs
  · exact .inr ⟨_, _, rfl⟩
  · exact .inl rfl

/-- A reassign writes only the tenant, and only of its row. -/
theorem reassign_rows {quotaDevices : Int} {tenants : List Slug} {id : UUID} {targetTenant : Slug}
    (h : reassign quotaDevices tenants devices id targetTenant = .ok devices') :
    ∀ d' ∈ devices', ∃ d ∈ devices, d' = d ∨ (d.id = id ∧ d' = { d with tenantID := targetTenant }) := by
  intro d' hd'
  obtain ⟨d, hd, rfl⟩ := (DeviceTable.mem_updateRows (reassign_spec h)).mp hd'
  refine ⟨d, hd, ?_⟩
  split_ifs with hid
  · exact .inr ⟨by simpa using hid, rfl⟩
  · exact .inl rfl

theorem reassign_recorded {quotaDevices : Int} {tenants : List Slug} {id : UUID} {targetTenant : Slug}
    (h : reassign quotaDevices tenants devices id targetTenant = .ok devices')
    (ht : Recorded devices deviceID t) : Recorded devices' deviceID t :=
  ht.updateRows (reassign_spec h) fun _ _ hrecords hdevice _ => ⟨hdevice, hrecords⟩

/-- A teardown of the row finds every identity on its record. -/
theorem brokerIdentityOf_records {d : Device} (hd : d ∈ devices) (hrecords : d.Records t) :
    ∃ id, brokerIdentityOf devices d.id tenantID = .ok id ∧ t ∈ id.tenants := by
  unfold brokerIdentityOf
  rw [DeviceTable.get_eq_some.mpr ⟨hd, rfl⟩]
  dsimp only
  rcases hrecords with hcurrent | hstale
  · rw [hcurrent]
    exact ⟨_, rfl, BrokerIdentity.mem_tenants.mpr (.inl rfl)⟩
  · split <;> exact ⟨_, rfl, BrokerIdentity.mem_tenants.mpr (.inr hstale)⟩

end specs

end ThesadaApp
