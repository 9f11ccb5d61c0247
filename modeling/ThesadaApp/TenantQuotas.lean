import ThesadaApp.TenantStatements

/-!
The caps of a tenant hold under every interleaving: who creates a row under a cap holds the lock of the tenant from
before it counts. A device that moves into the tenant brings its alerts with it, and takes the lock only if there is a
cap on devices.
-/

namespace ThesadaApp.TenantRows

/-- No tenant is over a cap that is on. -/
structure Caps (cfg : Config) (d : Tables) : Prop where
  users : 0 < cfg.quotaUsers → ∀ t, (d.userCount t : Int) ≤ cfg.quotaUsers
  devices : 0 < cfg.quotaDevices → ∀ t, (d.deviceCount t : Int) ≤ cfg.quotaDevices

/-- The rows of the tenant that count against the cap on devices have not grown, and no device id has come; one that has
gone leaves room. -/
structure Shrinks (t : Slug) (d d' : Tables) : Prop where
  count : d'.deviceCount t ≤ d.deviceCount t
  hasOld : ∀ deviceID, d'.hasDevice t deviceID = true → d.hasDevice t deviceID = true
  gone : ∀ deviceID, d.hasDevice t deviceID = true → d'.hasDevice t deviceID = true ∨ d'.deviceCount t < d.deviceCount t

section tables

variable {d d' : Tables} {t t' : Slug} {deviceID : String} {fresh id : UUID} {now : Time} {w : Work}

theorem hasDevice_iff : d.hasDevice t deviceID = true ↔ ∃ x ∈ d.devices, x.tenantID = t ∧ x.deviceID = deviceID := by
  rw [Tables.hasDevice, List.any_eq_true]
  simp only [Bool.and_eq_true, decide_eq_true_eq]
  rfl

theorem Shrinks.refl (t : Slug) (d : Tables) : Shrinks t d d := ⟨Nat.le_refl _, fun _ => id, fun _ => .inl⟩

/-- The devices are as they were. -/
theorem Shrinks.of_devices (h : d'.devices = d.devices) : Shrinks t d d' := by
  have hcount : d'.deviceCount t = d.deviceCount t := by rw [Tables.deviceCount, Tables.deviceCount, h]
  have hhas : ∀ deviceID, d'.hasDevice t deviceID = d.hasDevice t deviceID := by
    intro deviceID
    rw [Tables.hasDevice, Tables.hasDevice, h]
  exact ⟨Nat.le_of_eq hcount, fun _ hd => by rwa [hhas] at hd, fun _ hd => .inl (by rwa [hhas])⟩

theorem shrinks_insertDevice {x : DeviceRow} (h : d.devices.find x.id = none) (hother : x.tenantID ≠ t) :
    Shrinks t d (d.insertDevice x h) := by
  have hcount : (d.insertDevice x h).deviceCount t = d.deviceCount t := by
    show (d.devices.rows ++ [x]).countP _ = _
    rw [List.countP_append, List.countP_singleton, if_neg (by simpa using hother)]
    rfl
  refine ⟨Nat.le_of_eq hcount, fun deviceID hhas => ?_, fun deviceID hhas => .inl ?_⟩
  · obtain ⟨y, hy, rfl, hid⟩ := hasDevice_iff.mp hhas
    rcases (KeyedTable.mem_insert h).mp hy with hold | rfl
    · exact hasDevice_iff.mpr ⟨y, hold, rfl, hid⟩
    · exact absurd rfl hother
  · obtain ⟨y, hy, hrow⟩ := hasDevice_iff.mp hhas
    exact hasDevice_iff.mpr ⟨y, (KeyedTable.mem_insert h).mpr (.inl hy), hrow⟩

theorem deviceCount_insertDevice {x : DeviceRow} (h : d.devices.find x.id = none) (hown : x.tenantID = t) :
    (d.insertDevice x h).deviceCount t = d.deviceCount t + 1 := by
  show (d.devices.rows ++ [x]).countP _ = _
  rw [List.countP_append, List.countP_singleton, if_pos (by simpa using hown)]
  rfl

theorem mem_moveDevice {y : DeviceRow} : y ∈ (d.moveDevice id t').devices ↔
    ∃ x ∈ d.devices, (if x.id = id then { x with tenantID := t' } else x) = y := by
  unfold Tables.moveDevice
  rw [KeyedTable.mem_updateWhere]
  simp only [decide_eq_true_eq]

theorem deviceCount_moveDevice : (d.moveDevice id t').deviceCount t =
    d.devices.rows.countP fun x => (if x.id = id then t' else x.tenantID) = t := by
  show (d.devices.rows.map _).countP _ = _
  rw [List.countP_map]
  refine List.countP_congr fun x _ => ?_
  by_cases hx : x.id = id
  · simp [hx]
  · simp [hx]

theorem shrinks_moveDevice (hother : t' ≠ t) : Shrinks t d (d.moveDevice id t') := by
  have himp : ∀ x ∈ d.devices.rows, decide ((if x.id = id then t' else x.tenantID) = t) = true →
      decide (x.tenantID = t) = true := by
    intro x _ hx
    rw [decide_eq_true_eq] at hx ⊢
    split at hx
    · exact absurd hx hother
    · exact hx
  refine ⟨?_, fun deviceID hhas => ?_, fun deviceID hhas => ?_⟩
  · rw [deviceCount_moveDevice]
    exact List.countP_mono_left himp
  · obtain ⟨y, hy, htenant, hid⟩ := hasDevice_iff.mp hhas
    obtain ⟨x, hx, rfl⟩ := mem_moveDevice.mp hy
    split at htenant
    · exact absurd htenant hother
    · next hne =>
        rw [if_neg hne] at hid
        exact hasDevice_iff.mpr ⟨x, hx, htenant, hid⟩
  · obtain ⟨x, hx, htenant, hid⟩ := hasDevice_iff.mp hhas
    by_cases hmoved : x.id = id
    · right
      rw [deviceCount_moveDevice]
      exact KeyedTable.countP_lt (KeyedTable.mem_rows.mpr hx) himp (decide_eq_true htenant)
        (by rw [if_pos hmoved]; exact decide_eq_false hother)
    · exact .inl (hasDevice_iff.mpr ⟨x, mem_moveDevice.mpr ⟨x, hx, if_neg hmoved⟩, htenant, hid⟩)

theorem deviceCount_moveDevice_le : (d.moveDevice id t).deviceCount t ≤ d.deviceCount t + 1 :=
  KeyedTable.countP_updateWhere_le (t := d.devices) (f := fun x : DeviceRow => { x with tenantID := t })
    (fun _ => rfl) fun x => x.tenantID = t

/-- The device that moves has the device id in the tenant already, so it stays where it is. -/
theorem deviceCount_moveDevice_of_has (hhas : d.hasDevice t deviceID = true)
    (hfree : (d.devices.rows.any fun x => x.id ≠ id && x.tenantID = t && x.deviceID = deviceID) = false) :
    (d.moveDevice id t).deviceCount t ≤ d.deviceCount t := by
  obtain ⟨x, hx, htenant, hid⟩ := hasDevice_iff.mp hhas
  have hown : x.id = id := by
    by_contra hne
    have hnone := List.any_eq_false.mp hfree x hx
    simp [hne, htenant, hid] at hnone
  rw [deviceCount_moveDevice]
  refine List.countP_mono_left fun y hy htarget => ?_
  rw [decide_eq_true_eq] at htarget ⊢
  split at htarget
  · next hyid => rw [KeyedTable.eq_of_key hy hx (hyid.trans hown.symm), htenant]
  · exact htarget

theorem shrinks_deleteDevices {p : DeviceRow → Bool} : Shrinks t d (d.deleteDevices p) := by
  have hcount : (d.deleteDevices p).deviceCount t = d.devices.rows.countP fun x => decide (x.tenantID = t) && !p x := by
    show (d.devices.rows.filter _).countP _ = _
    rw [List.countP_filter]
  have himp : ∀ x ∈ d.devices.rows, (decide (x.tenantID = t) && !p x) = true → decide (x.tenantID = t) = true :=
    fun _ _ hx => (Bool.and_eq_true_iff.mp hx).1
  refine ⟨?_, fun deviceID hhas => ?_, fun deviceID hhas => ?_⟩
  · rw [hcount]
    exact List.countP_mono_left himp
  · obtain ⟨x, hx, hrow⟩ := hasDevice_iff.mp hhas
    exact hasDevice_iff.mpr ⟨x, (KeyedTable.mem_deleteWhere.mp hx).1, hrow⟩
  · obtain ⟨x, hx, htenant, hid⟩ := hasDevice_iff.mp hhas
    cases hp : p x with
    | true =>
        right
        rw [hcount]
        exact KeyedTable.countP_lt (KeyedTable.mem_rows.mpr hx) himp (decide_eq_true htenant)
          (by rw [hp]; exact Bool.and_false _)
    | false => exact .inl (hasDevice_iff.mpr ⟨x, KeyedTable.mem_deleteWhere.mpr ⟨hx, hp⟩, htenant, hid⟩)

/-- Alerts of the tenant are not more when none has come, nor a device of them. -/
theorem eventCount_le (halerts : d'.alerts.Sublist d.alerts)
    (htenant : ∀ a ∈ d'.alerts, d'.tenantOf a.devicePK = some t → d.tenantOf a.devicePK = some t) :
    d'.eventCount now t ≤ d.eventCount now t := by
  refine Nat.le_trans (List.countP_mono_left fun a ha hcounts => ?_) halerts.countP_le
  simp only [Bool.and_eq_true, decide_eq_true_eq] at hcounts ⊢
  exact ⟨htenant a ha hcounts.1, hcounts.2⟩

theorem eventCount_moveDevice_le (hother : t' ≠ t) : (d.moveDevice id t').eventCount now t ≤ d.eventCount now t := by
  refine eventCount_le (List.Sublist.refl _) fun a _ htenant => ?_
  rw [Tables.tenantOf_moveDevice] at htenant
  split at htenant
  · obtain ⟨-, -, heq⟩ := Option.map_eq_some_iff.mp htenant
    exact absurd heq hother
  · exact htenant

/-- The write makes a user of the tenant. -/
def Work.addsUser (t : Slug) : Work → Prop
  | .user t' _ => t' = t
  | _ => False

/-- The write brings a device into the tenant, or finds it there. -/
def Work.addsDevice (t : Slug) : Work → Prop
  | .device t' _ | .move _ t' _ => t' = t
  | _ => False

/-- The write brings alerts into the tenant. -/
def Work.addsAlert (t : Slug) : Work → Prop
  | .alert t' _ | .move _ t' _ => t' = t
  | _ => False

/-- What a write leaves of the tables of a tenant. -/
structure Applied (w : Work) (t : Slug) (d d' : Tables) : Prop where
  users : d'.userCount t ≤ d.userCount t + 1
  usersOther : ¬ w.addsUser t → d'.userCount t ≤ d.userCount t
  devices : d'.deviceCount t ≤ d.deviceCount t + 1
  devicesHas : w.addsDevice t → ∀ deviceID ∈ w.deviceID, d.hasDevice t deviceID = true →
    d'.deviceCount t ≤ d.deviceCount t
  devicesOther : ¬ w.addsDevice t → Shrinks t d d'
  eventsOther : ¬ w.addsAlert t → ∀ now, d'.eventCount now t ≤ d.eventCount now t

/-- A write of users only. -/
theorem applied_users (hdevices : d'.devices = d.devices) (halerts : d'.alerts = d.alerts)
    (husers : d'.userCount t ≤ d.userCount t + 1) (hother : ¬ w.addsUser t → d'.userCount t ≤ d.userCount t) :
    Applied w t d d' := by
  have hcount : d'.deviceCount t = d.deviceCount t := by rw [Tables.deviceCount, Tables.deviceCount, hdevices]
  refine ⟨husers, hother, by omega, fun _ _ _ _ => Nat.le_of_eq hcount, fun _ => .of_devices hdevices, fun _ now => ?_⟩
  refine eventCount_le (by rw [halerts]) fun a _ htenant => ?_
  rwa [Tables.tenantOf, hdevices] at htenant

theorem userCount_insertUser {u : UserRow} (h : d.users.find u.id = none) :
    (d.insertUser u h).userCount t = d.userCount t + if u.tenantID = t then 1 else 0 := by
  show (d.users.rows ++ [u]).countP _ = _
  rw [List.countP_append, List.countP_singleton]
  simp only [decide_eq_true_eq]
  rfl

theorem Work.applied (happly : w.apply d fresh = some d') (t : Slug) : Applied w t d d' := by
  cases Work.written happly with
  | user t' entry hfree waitlist =>
      have hcount : Tables.userCount { d.insertUser ⟨fresh, t', false⟩ hfree with waitlist } t =
          d.userCount t + if t' = t then 1 else 0 := userCount_insertUser hfree
      refine applied_users rfl rfl ?_ fun hother => ?_
      · rw [hcount]
        split
        · exact Nat.le_refl _
        · exact Nat.le_succ _
      · rw [hcount, if_neg (show ¬ t' = t from hother)]
        exact Nat.le_refl _
  | has t' deviceID hhas => exact applied_users rfl rfl (Nat.le_succ _) fun _ => Nat.le_refl _
  | device t' deviceID hnot hfree =>
      refine ⟨Nat.le_succ _, fun _ => Nat.le_refl _, ?_, ?_,
        fun hother => shrinks_insertDevice hfree hother, fun _ now => ?_⟩
      · by_cases hown : t' = t
        · exact Nat.le_of_eq (deviceCount_insertDevice hfree hown)
        · exact Nat.le_succ_of_le (shrinks_insertDevice hfree hown).count
      · rintro rfl _ ⟨⟩ hhas
        exact absurd hhas (Bool.eq_false_iff.mp hnot)
      · refine eventCount_le (List.Sublist.refl _) fun a ha htenant => ?_
        rwa [Tables.tenantOf_insertDevice, if_neg (Tables.ne_devicePK_of_find_none hfree ha)] at htenant
  | move pk t' deviceID hfree =>
      refine ⟨Nat.le_succ _, fun _ => Nat.le_refl _, ?_, ?_, fun hother => shrinks_moveDevice hother,
        fun hother _ => eventCount_moveDevice_le hother⟩
      · by_cases hown : t' = t
        · subst hown
          exact deviceCount_moveDevice_le
        · exact Nat.le_succ_of_le (shrinks_moveDevice hown).count
      · rintro rfl _ ⟨⟩ hhas
        exact deviceCount_moveDevice_of_has hhas hfree
  | alert t' new hown hdevice =>
      refine ⟨Nat.le_succ _, fun _ => Nat.le_refl _, Nat.le_succ _, fun h => h.elim, fun _ => .of_devices rfl,
        fun hother now => Nat.le_of_eq (eventCount_append_other fun hsame => ?_)⟩
      exact hother (Option.some.inj (hown.symm.trans hsame))

/-- A deletion leaves no more of anything. -/
structure Deleted (t : Slug) (d d' : Tables) : Prop where
  users : d'.userCount t ≤ d.userCount t
  devices : Shrinks t d d'
  events : ∀ now, d'.eventCount now t ≤ d.eventCount now t

theorem deleted_deleteUsers {p : UserRow → Bool} : Deleted t d (d.deleteUsers p) :=
  ⟨(List.filter_sublist).countP_le, .of_devices rfl, fun _ => Nat.le_refl _⟩

theorem stepDelete_deleted {call : Call} (hdelete : stepDelete d call = some d') (t : Slug) : Deleted t d d' := by
  cases call with
  | deleteUser t' pk =>
      obtain rfl := Option.some.inj hdelete
      exact deleted_deleteUsers
  | deleteDevice t' pk =>
      obtain rfl := Option.some.inj hdelete
      refine ⟨Nat.le_refl _, shrinks_deleteDevices, fun now => eventCount_le List.filter_sublist fun a _ htenant => ?_⟩
      exact Tables.tenantOf_deleteDevices htenant
  | deleteTenant t' =>
      simp only [stepDelete] at hdelete
      split at hdelete
      · cases hdelete
      · split at hdelete
        · cases hdelete
        · obtain rfl := Option.some.inj hdelete
          exact ⟨deleted_deleteUsers.users, .of_devices rfl, fun _ => Nat.le_refl _⟩
  | _ => cases hdelete

end tables

/-- There is room for the write under its cap, or the device id is there already. -/
def Work.Allowed (cfg : Config) (d : Tables) (now : Time) : Work → Prop
  | .user t _ => (d.userCount t : Int) < cfg.quotaUsers
  | .device t deviceID | .move _ t deviceID => (d.deviceCount t : Int) < cfg.quotaDevices ∨
      d.hasDevice t deviceID = true ∧ (d.deviceCount t : Int) ≤ cfg.quotaDevices
  | .alert t _ => (d.eventCount now t : Int) < cfg.quotaEventsPerDay

/-- What is known of a transaction at each of its statements. -/
def PointInv (cfg : Config) (d : Tables) (held : Lock → Prop) (now : Time) : Point → Prop
  | .start => True
  | .lockQuota w => 0 < w.max cfg
  | .deviceExists w => 0 < w.max cfg ∧ held (.quota (cfg.hash w.tenantID))
  | .count w => 0 < w.max cfg ∧ held (.quota (cfg.hash w.tenantID)) ∧
      ∀ deviceID ∈ w.deviceID, d.hasDevice w.tenantID deviceID = false
  | .write w => 0 < w.max cfg → held (.quota (cfg.hash w.tenantID)) ∧ w.Allowed cfg d now

/-- A transaction at a statement of its cap holds the lock of the tenant; the row it is to store is of when it began. -/
structure TxnInv (cfg : Config) (d : Tables) (held : Lock → Prop) (t : Txn) : Prop where
  point : PointInv cfg d held t.now t.point
  now : ∀ tenantID new, t.point.work = some (.alert tenantID new) → new.receivedAt = t.now

structure Inv (cfg : Config) (s : State) : Prop where
  each : s.txns.Each (TxnInv cfg) s.tables
  caps : Caps cfg s.tables

/-- What a transaction that holds the lock of the tenant relies on. -/
structure Kept (cfg : Config) (t : Slug) (d d' : Tables) : Prop where
  users : 0 < cfg.quotaUsers → d'.userCount t ≤ d.userCount t
  devices : 0 < cfg.quotaDevices → Shrinks t d d'

section txn

variable {cfg : Config} {d d' : Tables} {held held' : Lock → Prop} {now : Time} {p : Point} {t : Txn} {w : Work}

theorem Work.Allowed.kept (h : w.Allowed cfg d now) (hmax : 0 < w.max cfg) (hkept : Kept cfg w.tenantID d d')
    (hevents : ∀ tenantID new, w = .alert tenantID new → (d'.eventCount now tenantID : Int) < cfg.quotaEventsPerDay) :
    w.Allowed cfg d' now := by
  have hdevice : ∀ deviceID, 0 < cfg.quotaDevices → ((d.deviceCount w.tenantID : Int) < cfg.quotaDevices ∨
      d.hasDevice w.tenantID deviceID = true ∧ (d.deviceCount w.tenantID : Int) ≤ cfg.quotaDevices) →
      (d'.deviceCount w.tenantID : Int) < cfg.quotaDevices ∨
        d'.hasDevice w.tenantID deviceID = true ∧ (d'.deviceCount w.tenantID : Int) ≤ cfg.quotaDevices := by
    intro deviceID hon hroom
    have hshrinks := hkept.devices hon
    have hcount := hshrinks.count
    rcases hroom with hroom | ⟨hhas, hroom⟩
    · exact .inl (by omega)
    · rcases hshrinks.gone deviceID hhas with hhas' | hless
      · exact .inr ⟨hhas', by omega⟩
      · exact .inl (by omega)
  cases w with
  | user tenantID entry => exact Int.lt_of_le_of_lt (Int.ofNat_le.mpr (hkept.users hmax)) h
  | device tenantID deviceID => exact hdevice deviceID hmax h
  | move pk tenantID deviceID => exact hdevice deviceID hmax h
  | alert tenantID new => exact hevents tenantID new rfl

/-- A transaction stands where it was after a change that keeps what it relies on. -/
theorem TxnInv.kept (h : TxnInv cfg d held t)
    (hkept : ∀ w, t.point.work = some w → held (.quota (cfg.hash w.tenantID)) → Kept cfg w.tenantID d d')
    (hevents : ∀ tenantID new, t.point = .write (.alert tenantID new) → held (.quota (cfg.hash tenantID)) →
      0 < cfg.quotaEventsPerDay → (d.eventCount t.now tenantID : Int) < cfg.quotaEventsPerDay →
      (d'.eventCount t.now tenantID : Int) < cfg.quotaEventsPerDay) : TxnInv cfg d' held t := by
  refine ⟨?_, h.now⟩
  have hpoint := h.point
  cases hp : t.point with
  | start => trivial
  | lockQuota w =>
      rw [hp] at hpoint
      exact hpoint
  | deviceExists w =>
      rw [hp] at hpoint
      exact hpoint
  | count w =>
      rw [hp] at hpoint
      obtain ⟨hmax, hheld, hnot⟩ := hpoint
      refine ⟨hmax, hheld, fun deviceID hdevice => ?_⟩
      by_contra hhas
      have hon : 0 < cfg.quotaDevices := by
        cases w with
        | device t' deviceID' => exact hmax
        | move pk t' deviceID' => exact hmax
        | user t' entry => cases hdevice
        | alert t' new => cases hdevice
      have hold := ((hkept w (by rw [hp]; rfl) hheld).devices hon).hasOld deviceID (Bool.not_eq_false _ ▸ hhas)
      rw [hnot deviceID hdevice] at hold
      cases hold
  | write w =>
      rw [hp] at hpoint
      intro hmax
      obtain ⟨hheld, hallowed⟩ := hpoint hmax
      refine ⟨hheld, hallowed.kept hmax (hkept w (by rw [hp]; rfl) hheld) ?_⟩
      rintro tenantID new rfl
      exact hevents tenantID new hp hheld hmax hallowed

end txn

/-- A device that moves without a cap on devices leaves room for the inserts of the tenant that have counted:
`InsertAlert` holds the lock of the tenant, and the move does not ask for it. -/
def MovesFit (cfg : Config) (_log : List Event) (s : State) : Action → Prop
  | .next tx _ => cfg.quotaDevices ≤ 0 → 0 < cfg.quotaEventsPerDay → ∀ t ∈ s.txns.txn tx, ∀ pk targetTenant deviceID,
      t.point = .write (.move pk targetTenant deviceID) → ∀ j x new, s.txns.txn j = some x →
        x.point = .write (.alert targetTenant new) →
          ((s.tables.moveDevice pk targetTenant).eventCount x.now targetTenant : Int) < cfg.quotaEventsPerDay
  | _ => True

section steps

variable {cfg : Config} {d d' : Tables} {s s' : State} {log : List Event} {a : Action} {e : Event} {tx : Nat} {t : Txn}
  {w : Work} {p : Point} {k : Option Lock} {fresh : UUID} {held held' : Lock → Prop}

/-- A write that comes under a cap that is on holds the lock of its tenant. -/
theorem TxnInv.holds (h : TxnInv cfg d held t) (hpoint : t.point = .write w) (hmax : 0 < w.max cfg) :
    held (.quota (cfg.hash w.tenantID)) ∧ w.Allowed cfg d t.now := by
  have hp := h.point
  rw [hpoint] at hp
  exact hp hmax

/-- A commit keeps what the others rely on, who hold other locks. -/
theorem TxnInv.kept_applied (h : TxnInv cfg d held t) (hpoint : t.point = .write w) (happly : w.apply d fresh = some d')
    (hdisjoint : ∀ l, held l → ¬ held' l) {tenantID : Slug} (hheld : held' (.quota (cfg.hash tenantID))) :
    Kept cfg tenantID d d' := by
  have happlied := w.applied happly tenantID
  refine ⟨fun hon => happlied.usersOther fun hadds => ?_, fun hon => happlied.devicesOther fun hadds => ?_⟩
  · cases w with
    | user t' entry =>
        obtain rfl : t' = tenantID := hadds
        exact hdisjoint _ (h.holds hpoint hon).1 hheld
    | _ => exact hadds
  · cases w with
    | device t' deviceID =>
        obtain rfl : t' = tenantID := hadds
        exact hdisjoint _ (h.holds hpoint hon).1 hheld
    | move pk t' deviceID =>
        obtain rfl : t' = tenantID := hadds
        exact hdisjoint _ (h.holds hpoint hon).1 hheld
    | _ => exact hadds

/-- The caps after a commit. -/
theorem Caps.applied (h : Caps cfg d) (ht : TxnInv cfg d held t) (hpoint : t.point = .write w)
    (happly : w.apply d fresh = some d') : Caps cfg d' := by
  refine ⟨fun hon tenantID => ?_, fun hon tenantID => ?_⟩
  · have happlied := w.applied happly tenantID
    have hcap := h.users hon tenantID
    by_cases hadds : w.addsUser tenantID
    · cases w with
      | user t' entry =>
          obtain rfl : t' = tenantID := hadds
          have hallowed : (d.userCount t' : Int) < cfg.quotaUsers := (ht.holds hpoint hon).2
          have hcount := happlied.users
          omega
      | _ => exact hadds.elim
    · have hcount := happlied.usersOther hadds
      omega
  · have happlied := w.applied happly tenantID
    have hcap := h.devices hon tenantID
    have hroom : ∀ deviceID ∈ w.deviceID, w.addsDevice tenantID →
        ((d.deviceCount tenantID : Int) < cfg.quotaDevices ∨
          d.hasDevice tenantID deviceID = true ∧ (d.deviceCount tenantID : Int) ≤ cfg.quotaDevices) →
        (d'.deviceCount tenantID : Int) ≤ cfg.quotaDevices := by
      rintro deviceID hdevice hadds (hroom | ⟨hhas, -⟩)
      · have hcount := happlied.devices
        omega
      · have hcount := happlied.devicesHas hadds deviceID hdevice hhas
        omega
    by_cases hadds : w.addsDevice tenantID
    · cases w with
      | device t' deviceID =>
          obtain rfl : t' = tenantID := hadds
          exact hroom deviceID rfl rfl (ht.holds hpoint hon).2
      | move pk t' deviceID =>
          obtain rfl : t' = tenantID := hadds
          exact hroom deviceID rfl rfl (ht.holds hpoint hon).2
      | _ => exact hadds.elim
    · have hcount := (happlied.devicesOther hadds).count
      omega

theorem Inv.close (h : Inv cfg s) (tx : Nat) : Inv cfg (s.close tx) :=
  ⟨h.each.close fun _ _ _ _ hj => hj, h.caps⟩

/-- What a transaction knows that goes on. -/
theorem Next.inv (hnext : Next cfg s tx t p k e) (h : Inv cfg s) (ht : TxnInv cfg s.tables (s.txns.Held tx) t)
    (hlocked : ∀ l ∈ k, held l) (hheld : ∀ l, s.txns.Held tx l → held l) :
    TxnInv cfg s.tables held { t with point := p } := by
  have hp := ht.point
  have hbegun : ∀ w : Work, PointInv cfg s.tables held t.now (w.quota cfg) := by
    intro w
    unfold Work.quota
    split
    · next hoff => exact fun hon => absurd hon (Int.not_lt.mpr hoff)
    · next hon => exact Int.not_le.mp hon
  cases hnext with
  | begun w k hpoint hw hk =>
      refine ⟨hbegun w, fun tenantID new hwork => ?_⟩
      rw [Work.quota_work] at hwork
      exact absurd (Option.some.inj hwork) (hw _ _)
  | checked tenantID new hpoint hnow hdup =>
      refine ⟨hbegun _, fun tenantID' new' hwork => ?_⟩
      rw [Work.quota_work] at hwork
      obtain ⟨-, rfl⟩ := Work.alert.inj (Option.some.inj hwork)
      exact hnow
  | locked w hpoint =>
      rw [hpoint] at hp
      refine ⟨?_, fun tenantID new hwork => ht.now tenantID new ?_⟩
      · show PointInv cfg s.tables held t.now _
        split
        · next hnone => exact ⟨hp, hlocked _ rfl, fun deviceID hdevice => by rw [hnone] at hdevice; cases hdevice⟩
        · exact ⟨hp, hlocked _ rfl⟩
      · rw [hpoint]
        have hsame : (if w.deviceID = none then Point.count w else .deviceExists w).work = some w := by
          split
          · rfl
          · rfl
        exact hsame.symm.trans hwork
  | has w deviceID hpoint hdevice hhas =>
      rw [hpoint] at hp
      refine ⟨fun hmax => ⟨hheld _ hp.2, ?_⟩,
        fun tenantID new hwork => ht.now tenantID new (by rw [hpoint]; exact hwork)⟩
      cases w with
      | device t' deviceID' =>
          obtain rfl := Option.some.inj hdevice
          exact .inr ⟨hhas, h.caps.devices hmax t'⟩
      | move pk t' deviceID' =>
          obtain rfl := Option.some.inj hdevice
          exact .inr ⟨hhas, h.caps.devices hmax t'⟩
      | user t' entry => cases hdevice
      | alert t' new => cases hdevice
  | hasNot w hpoint hnot =>
      rw [hpoint] at hp
      exact ⟨⟨hp.1, hheld _ hp.2, hnot⟩, fun tenantID new hwork => ht.now tenantID new (by rw [hpoint]; exact hwork)⟩
  | counted w hpoint hfree =>
      rw [hpoint] at hp
      refine ⟨fun hmax => ⟨hheld _ hp.2.1, ?_⟩,
        fun tenantID new hwork => ht.now tenantID new (by rw [hpoint]; exact hwork)⟩
      have hroom : (w.used s.tables t.now : Int) < w.max cfg := by
        rw [quotaFull, Bool.and_eq_false_iff, decide_eq_false_iff_not, decide_eq_false_iff_not] at hfree
        exact Int.not_le.mp (hfree.resolve_left fun hoff => hoff hmax)
      cases w with
      | user t' entry => exact hroom
      | device t' deviceID => exact .inl hroom
      | move pk t' deviceID => exact .inl hroom
      | alert t' new => exact hroom

theorem Inv.change (h : Inv cfg s) (htxn : s.txns.txn tx = some t) (hok : MovesFit cfg log s (.next tx fresh))
    (hchange : Change cfg s tx t s' e) : Inv cfg s' := by
  have ht := h.each tx t htxn
  cases hchange with
  | ended e he => exact h.close tx
  | refused w hpoint hfull => exact h.close tx
  | goesOn p k e hfree hnext =>
      cases k with
      | none => exact ⟨h.each.put (hnext.inv h ht (fun _ hl => by cases hl) fun _ hl => hl), h.caps⟩
      | some l =>
          have hlocked : ∀ l' ∈ some l, (s.txns.lock tx l).Held tx l' := by
            rintro l' ⟨⟩
            exact Txns.held_lock
          exact ⟨h.each.lockPut (hfree l rfl) (hnext.inv h ht hlocked fun _ => Txns.Held.lock), h.caps⟩
  | deleted tables hpoint hdelete =>
      have hdeleted := stepDelete_deleted hdelete
      refine ⟨h.each.close fun j x hj _ hx => hx.kept (fun w _ _ => ?_) fun tenantID _ _ _ _ hroom => ?_, ?_⟩
      · exact ⟨fun _ => (hdeleted w.tenantID).users, fun _ => (hdeleted w.tenantID).devices⟩
      · exact Int.lt_of_le_of_lt (Int.ofNat_le.mpr ((hdeleted tenantID).events x.now)) hroom
      · refine ⟨fun hon tenantID => ?_, fun hon tenantID => ?_⟩
        · exact Int.le_trans (Int.ofNat_le.mpr (hdeleted tenantID).users) (h.caps.users hon tenantID)
        · exact Int.le_trans (Int.ofNat_le.mpr (hdeleted tenantID).devices.count) (h.caps.devices hon tenantID)
  | wrote w fresh' tables hpoint happly =>
      refine ⟨h.each.close fun j x hj hxtxn hx => ?_, h.caps.applied ht hpoint happly⟩
      have hdisjoint : ∀ l, s.txns.Held tx l → ¬ s.txns.Held j l := fun l hl hl' => hj (hl'.unique hl)
      refine hx.kept (fun w' _ hheld => ht.kept_applied hpoint happly hdisjoint hheld) ?_
      intro tenantID new hxpoint hheld hon hroom
      by_cases hadds : w.addsAlert tenantID
      · cases w with
        | alert t' new' =>
            obtain rfl : t' = tenantID := hadds
            exact absurd hheld (hdisjoint _ (ht.holds hpoint hon).1)
        | move pk t' deviceID =>
            obtain rfl : t' = tenantID := hadds
            by_cases hcap : 0 < cfg.quotaDevices
            · exact absurd hheld (hdisjoint _ (ht.holds hpoint hcap).1)
            · -- the move has not waited for the insert
              cases Work.written happly with
              | move _ _ _ hfree =>
                  exact hok (Int.not_lt.mp hcap) hon t htxn pk t' deviceID hpoint j x new hxtxn hxpoint
        | user t' entry => exact hadds.elim
        | device t' deviceID => exact hadds.elim
      · exact Int.lt_of_le_of_lt (Int.ofNat_le.mpr ((w.applied happly tenantID).eventsOther hadds x.now)) hroom

theorem Inv.step (h : Inv cfg s) (hok : MovesFit cfg log s a) (hstep : TenantRows.step cfg s a = some (s', e)) :
    Inv cfg s' := by
  rcases step_cases hstep with
    ⟨tx, now, call, rfl, -, -, rfl, rfl⟩ | ⟨tx, fresh, t, rfl, ht, hchange⟩ | ⟨tx, rfl, rfl, rfl⟩
  · exact ⟨h.each.put ⟨trivial, fun _ _ hwork => by cases hwork⟩, h.caps⟩
  · exact h.change ht hok hchange
  · exact h.close tx

/-- A commit was the write of its transaction. -/
theorem committed_txn (hstep : TenantRows.step cfg s a = some (s', .committed w)) :
    ∃ tx t, s.txns.txn tx = some t ∧ t.point = .write w := by
  generalize hd : Event.committed w = e at hstep
  rcases step_cases hstep with ⟨-, -, -, -, -, -, -, rfl⟩ | ⟨tx, fresh, t, rfl, ht, hchange⟩ | ⟨-, -, -, rfl⟩
  · cases hd
  · cases hchange with
    | ended e he =>
        subst hd
        rcases he with he | he
        · cases he
        · cases he
    | refused w hpoint hfull => cases hd
    | goesOn p k e hfree hnext =>
        subst hd
        cases hnext
    | deleted tables hpoint hdelete => cases hd
    | wrote w' fresh' tables hpoint happly =>
        obtain rfl := Event.committed.inj hd
        exact ⟨tx, t, ht, hpoint⟩
  · cases hd

/-- The transaction is an upsert of the device id, or a claim that has come as far. -/
def Txn.Upserts (t : Txn) (tenantID : Slug) (deviceID : String) : Prop :=
  t.point.work = some (.device tenantID deviceID) ∨ t.point = .start ∧ t.call = .upsert tenantID deviceID

/-- An upsert of a device id that the tenant has goes on as soon as it has not to wait for the lock. -/
theorem Inv.upsert (h : Inv cfg s) {tenantID : Slug} {deviceID : String} (htxn : s.txns.txn tx = some t)
    (hupserts : t.Upserts tenantID deviceID) (hhas : s.tables.hasDevice tenantID deviceID = true)
    (hfree : s.txns.mayLock tx (.quota (cfg.hash tenantID)) = true) (fresh : UUID) :
    ∃ s' e, TenantRows.step cfg s (.next tx fresh) = some (s', e) ∧
      (e = .statement ∨ e = .committed (.device tenantID deviceID)) := by
  have hp := (h.each tx t htxn).point
  simp only [TenantRows.step, htxn, Option.bind_some]
  rcases hupserts with hwork | ⟨hpoint, hcall⟩
  · cases hpoint : t.point with
    | start =>
        rw [hpoint] at hwork
        cases hwork
    | lockQuota w =>
        rw [hpoint] at hwork
        obtain rfl := Option.some.inj hwork
        simp only [stepTxn, hpoint]
        exact ⟨_, _, if_pos hfree, .inl rfl⟩
    | deviceExists w =>
        simp only [stepTxn, hpoint]
        exact ⟨_, _, rfl, .inl rfl⟩
    | count w =>
        rw [hpoint] at hwork hp
        obtain rfl := Option.some.inj hwork
        have hnot := hp.2.2 deviceID rfl
        rw [show (Work.device tenantID deviceID).tenantID = tenantID from rfl, hhas] at hnot
        cases hnot
    | write w =>
        rw [hpoint] at hwork
        obtain rfl := Option.some.inj hwork
        have happly : (Work.device tenantID deviceID).apply s.tables fresh = some s.tables := if_pos hhas
        simp only [stepTxn, hpoint, happly]
        exact ⟨_, _, rfl, .inr rfl⟩
  · simp only [stepTxn, hpoint, stepStart, hcall]
    exact ⟨_, _, rfl, .inl rfl⟩

/-- The caps in a state: those on users and devices are kept, an alert is stored for a tenant that has room for it, and
a device id that is there is never refused. -/
structure QuotasHold (cfg : Config) (s : State) : Prop where
  caps : Caps cfg s.tables
  alerts : 0 < cfg.quotaEventsPerDay → ∀ a s' tenantID new,
    TenantRows.step cfg s a = some (s', .committed (.alert tenantID new)) → ∀ moment, new.receivedAt ≤ moment →
      (s.tables.eventCount moment tenantID : Int) < cfg.quotaEventsPerDay
  upserts : ∀ tx t tenantID deviceID, s.txns.txn tx = some t → t.Upserts tenantID deviceID →
    s.tables.hasDevice tenantID deviceID = true → s.txns.mayLock tx (.quota (cfg.hash tenantID)) = true →
      ∀ fresh, ∃ s' e, TenantRows.step cfg s (.next tx fresh) = some (s', e) ∧
        (e = .statement ∨ e = .committed (.device tenantID deviceID))

theorem Inv.quotas (h : Inv cfg s) : QuotasHold cfg s := by
  refine ⟨h.caps, fun hon a s' tenantID new hstep moment hmoment => ?_,
    fun tx t tenantID deviceID htxn hupserts hhas hfree => h.upsert htxn hupserts hhas hfree⟩
  obtain ⟨tx, t, htxn, hpoint⟩ := committed_txn hstep
  have ht := h.each tx t htxn
  have hroom : (s.tables.eventCount t.now tenantID : Int) < cfg.quotaEventsPerDay := (ht.holds hpoint hon).2
  have hnow := ht.now tenantID new (by rw [hpoint]; rfl)
  rw [hnow] at hmoment
  exact Int.lt_of_le_of_lt (Int.ofNat_le.mpr (eventCount_mono hmoment)) hroom

/-- Under every interleaving in which no device is moved past the cap of an alert that has been counted, and with a cap
on devices in every interleaving: no tenant gets over its caps. -/
theorem tenant_quotas {clock : Time} (hcaps : Caps cfg d)
    (hrun : (system cfg).RunIf (MovesFit cfg) (start d clock) log s) :
    QuotasHold cfg s := by
  have hzero : Inv cfg (start d clock) := ⟨Txns.Each.idle, hcaps⟩
  exact (hrun.invariant (fun _ => Inv cfg) hzero fun _ _ _ _ _ h hok hstep => h.step hok hstep).quotas

end steps

/-- Two tenants with a device each, of which one has sent an alert. -/
def twoDevices : Tables where
  users := ∅
  devices := ⟨[⟨7, acme, "bed-1"⟩, ⟨8, beta, "bed-2"⟩], by decide⟩
  alerts := [⟨8, 0, .warn, "soil_dry", "", none⟩]
  waitlist _ := none
  alertDevice a ha := by
    rw [List.mem_singleton.mp ha]
    rfl

def tightCaps : Config := ⟨1, 2, 1, fun _ => 0⟩

/-- A device moves into a tenant and fills its caps on devices and alerts. The tenant updates the other device, and can
have no third, nor a second alert. -/
def fillCaps : List Action :=
  [.begin 0 0 (.reassign 8 acme), .next 0 0, .next 0 0, .next 0 0, .next 0 0, .next 0 0,
    .begin 1 0 (.upsert acme "bed-1"), .next 1 0, .next 1 0, .next 1 0, .next 1 0,
    .begin 2 0 (.upsert acme "bed-3"), .next 2 0, .next 2 0, .next 2 0, .next 2 0,
    .begin 3 0 (.insertAlert acme 7 .warn "soil_dry" "" none), .next 3 0, .next 3 0, .next 3 0]

/-- What is committed and refused. -/
def outcomes (log : List Event) : List Event :=
  log.filter fun e => match e with
    | .committed _ | .refused _ => true
    | _ => false

theorem fillCaps_runs : ((system tightCaps).execIf (fun _ _ _ => True) [] (start twoDevices 0) fillCaps).any
    (fun r => decide (outcomes r.1 = [.committed (.move 8 acme "bed-2"), .committed (.device acme "bed-1"),
      .refused (.device acme "bed-3"), .refused (.alert acme ⟨7, 0, .warn, "soil_dry", "", none⟩)])) = true := by
  decide +kernel

theorem twoDevices_caps : Caps tightCaps twoDevices :=
  ⟨fun _ _ => Int.natCast_nonneg 1, fun _ _ => Int.ofNat_le.mpr List.countP_le_length⟩

theorem fillCaps_quotas : ∃ log s, (system tightCaps).Run (start twoDevices 0) log s ∧
    Event.refused (.device acme "bed-3") ∈ log ∧ QuotasHold tightCaps s := by
  obtain ⟨log, s, hrun, htest⟩ := Machine.exists_runIf_of_any fillCaps_runs
  refine ⟨log, s, hrun, ?_, tenant_quotas twoDevices_caps (hrun.imp fun log s a _ _ _ _ _ => ?_)⟩
  · have hmem : Event.refused (.device acme "bed-3") ∈ outcomes log := by
      rw [of_decide_eq_true htest]
      simp
    exact (List.mem_filter.mp hmem).1
  · cases a with
    | next tx fresh => exact fun hoff => absurd hoff (by decide)
    | _ => trivial

/-- One alert a day, and any number of devices. -/
def alertCap : Config := ⟨1, 0, 1, fun _ => 0⟩

/-- An alert is counted; before it is stored, the device that has sent one moves in. -/
def movedAfterCount : List Action :=
  [.begin 0 0 (.insertAlert acme 7 .warn "soil_dry" "" none), .next 0 0, .next 0 0, .next 0 0,
    .begin 1 0 (.reassign 8 acme), .next 1 0, .next 1 0]

theorem movedAfterCount_runs :
    ((system alertCap).execIf (fun _ _ _ => True) [] (start twoDevices 0) movedAfterCount).any
      (fun r => (step alertCap r.2 (.next 0 0)).any (fun q =>
        q.2 = .committed (.alert acme ⟨7, 0, .warn, "soil_dry", "", none⟩)) &&
        decide (r.2.tables.eventCount 0 acme = 1)) = true := by
  decide +kernel

/-- The tenant is at its cap when the alert is stored. -/
theorem movedAfterCount_over : Caps alertCap twoDevices ∧
    ∃ log s, (system alertCap).Run (start twoDevices 0) log s ∧ ¬ QuotasHold alertCap s := by
  obtain ⟨log, s, hrun, htest⟩ := Machine.exists_runIf_of_any movedAfterCount_runs
  obtain ⟨hany, hcount⟩ := Bool.and_eq_true_iff.mp htest
  obtain ⟨⟨s', e⟩, hstep, he⟩ := (Option.any_eq_true _ _).mp hany
  obtain rfl : e = _ := of_decide_eq_true he
  refine ⟨⟨fun _ _ => Int.natCast_nonneg 1, fun hon => absurd hon (by decide)⟩, log, s, hrun, fun hholds => ?_⟩
  have hroom := hholds.alerts (by decide) _ _ _ _ hstep 0 (Int.le_refl _)
  rw [of_decide_eq_true hcount] at hroom
  exact absurd hroom (by decide)

end ThesadaApp.TenantRows
