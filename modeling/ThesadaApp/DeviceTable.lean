import Mathlib.Data.List.Nodup
import ThesadaApp.Basic

/-!
The devices table and the service calls that write its identity columns. A write computes the new
rows and commits them only if the table's unique constraints hold of them, which is how the database
refuses a duplicate.
-/

namespace ThesadaApp

/-- A devices row, with the columns the modelled calls read. -/
structure Device where
  id : UUID
  tenantID : Slug
  deviceID : String
  ownerUserID : Option UUID
  mqttTopicPrefix : Option String
  brokerTenantID : Option Slug
  brokerStaleTenants : List Slug
  deriving DecidableEq

/-- The key of `devices_broker_identity_uniq`; a row without a broker identity has none. -/
def Device.brokerKey (d : Device) : Option (Slug × String) := d.brokerTenantID.map fun t => (t, d.deviceID)

/-- The primary key and the two unique constraints. -/
structure DeviceConstraints (rows : List Device) : Prop where
  pk : (rows.map Device.id).Nodup
  tenantDevice : (rows.map fun d => (d.tenantID, d.deviceID)).Nodup
  brokerIdentity : (rows.filterMap Device.brokerKey).Nodup

instance (rows : List Device) : Decidable (DeviceConstraints rows) :=
  decidable_of_iff ((rows.map Device.id).Nodup ∧ (rows.map fun d => (d.tenantID, d.deviceID)).Nodup ∧
      (rows.filterMap Device.brokerKey).Nodup)
    ⟨fun h => ⟨h.1, h.2.1, h.2.2⟩, fun h => ⟨h.pk, h.tenantDevice, h.brokerIdentity⟩⟩

structure DeviceTable where
  rows : List Device
  constraints : DeviceConstraints rows
  deriving DecidableEq

namespace DeviceTable

instance : EmptyCollection DeviceTable := ⟨⟨[], ⟨List.nodup_nil, List.nodup_nil, List.nodup_nil⟩⟩⟩

instance : Membership Device DeviceTable := ⟨fun t d => d ∈ t.rows⟩

theorem mem_rows {t : DeviceTable} {d : Device} : d ∈ t.rows ↔ d ∈ t := Iff.rfl

/-- The rows become the table's, or a unique constraint refuses them. -/
def commit (rows : List Device) : Option DeviceTable :=
  if h : DeviceConstraints rows then some ⟨rows, h⟩ else none

theorem commit_eq_some {rows : List Device} {t : DeviceTable} (h : commit rows = some t) : t.rows = rows := by
  unfold commit at h
  split at h
  · exact congrArg DeviceTable.rows (Option.some.inj h).symm
  · cases h

theorem eq_of_id {t : DeviceTable} {d d' : Device} (hd : d ∈ t) (hd' : d' ∈ t) (hid : d.id = d'.id) :
    d = d' :=
  List.inj_on_of_nodup_map t.constraints.pk hd hd' hid

theorem eq_of_tenant_device {t : DeviceTable} {d d' : Device} (hd : d ∈ t) (hd' : d' ∈ t)
    (htenant : d.tenantID = d'.tenantID) (hdevice : d.deviceID = d'.deviceID) : d = d' :=
  List.inj_on_of_nodup_map t.constraints.tenantDevice hd hd' (by rw [htenant, hdevice])

/-- The row of (tenant, device id). -/
def find (t : DeviceTable) (tenantID : Slug) (deviceID : String) : Option Device :=
  t.rows.find? fun d => d.tenantID = tenantID ∧ d.deviceID = deviceID

/-- The row of a primary key. -/
def get (t : DeviceTable) (id : UUID) : Option Device := t.rows.find? fun d => d.id = id

theorem find_eq_some {t : DeviceTable} {tenantID : Slug} {deviceID : String} {d : Device} :
    t.find tenantID deviceID = some d ↔ d ∈ t ∧ d.tenantID = tenantID ∧ d.deviceID = deviceID := by
  constructor
  · intro h
    exact ⟨List.mem_of_find?_eq_some h, by simpa using List.find?_some h⟩
  · rintro ⟨hd, rfl, rfl⟩
    cases hfound : t.find d.tenantID d.deviceID with
    | none => simpa using List.find?_eq_none.mp hfound d hd
    | some x =>
        have hx : x.tenantID = d.tenantID ∧ x.deviceID = d.deviceID := by simpa using List.find?_some hfound
        rw [eq_of_tenant_device (List.mem_of_find?_eq_some hfound) hd hx.1 hx.2]

theorem get_eq_some {t : DeviceTable} {id : UUID} {d : Device} : t.get id = some d ↔ d ∈ t ∧ d.id = id := by
  constructor
  · intro h
    exact ⟨List.mem_of_find?_eq_some h, by simpa using List.find?_some h⟩
  · rintro ⟨hd, rfl⟩
    cases hfound : t.get d.id with
    | none => simpa using List.find?_eq_none.mp hfound d hd
    | some x =>
        have hx : x.id = d.id := by simpa using List.find?_some hfound
        rw [eq_of_id (List.mem_of_find?_eq_some hfound) hd hx]

/-- DELETE of the row of a primary key. -/
def delete (t : DeviceTable) (id : UUID) : DeviceTable where
  rows := t.rows.filter fun d => d.id ≠ id
  constraints :=
    have hsub : (t.rows.filter fun d => d.id ≠ id).Sublist t.rows := List.filter_sublist
    ⟨t.constraints.pk.sublist (hsub.map _), t.constraints.tenantDevice.sublist (hsub.map _),
      t.constraints.brokerIdentity.sublist (hsub.filterMap _)⟩

theorem mem_delete {t : DeviceTable} {id : UUID} {d : Device} : d ∈ t.delete id ↔ d ∈ t ∧ d.id ≠ id := by
  rw [← mem_rows, delete, List.mem_filter, mem_rows, decide_eq_true_eq]

end DeviceTable

/-- A non-positive cap is off. -/
def quotaFull (count max : Int) : Bool := 0 < max && max ≤ count

/-- A device id the tenant already has is never refused. -/
def quotaAllowDevice (devices : DeviceTable) (tenantID : Slug) (deviceID : String) (max : Int) : Bool :=
  if max ≤ 0 then true
  else if (devices.find tenantID deviceID).isSome then true
  else !quotaFull (devices.rows.countP fun d => d.tenantID = tenantID) max

namespace DeviceTable

/-- INSERT INTO devices … ON CONFLICT (tenant_id, device_id) DO UPDATE … RETURNING id. `fresh` is the
default of the id column, and `set` writes the columns both branches write. -/
def upsertRow (t : DeviceTable) (tenantID : Slug) (deviceID : String) (fresh : UUID)
    (set : Device → Device) : Option (DeviceTable × UUID) :=
  match t.find tenantID deviceID with
  | some old => (commit (t.rows.map fun d => if d.id = old.id then set d else d)).map (·, old.id)
  | none => (commit (t.rows ++ [set ⟨fresh, tenantID, deviceID, none, none, none, []⟩])).map (·, fresh)

/-- What an upsert leaves: one row of (tenant, device id), with the returned id, and every other row as
it was. -/
theorem upsertRow_spec {t t' : DeviceTable} {tenantID : Slug} {deviceID : String} {fresh id : UUID}
    {set : Device → Device} (h : t.upsertRow tenantID deviceID fresh set = some (t', id)) :
    ∃ old : Device, old.id = id ∧ old.tenantID = tenantID ∧ old.deviceID = deviceID ∧ set old ∈ t' ∧
      ((old ∈ t) ∨ old = ⟨fresh, tenantID, deviceID, none, none, none, []⟩) ∧
      ∀ d, d ∈ t' ↔ d = set old ∨ (d ∈ t ∧ d ≠ old) := by
  unfold upsertRow at h
  split at h
  · next old hold =>
      obtain ⟨t₁, hcommit, heq⟩ := Option.map_eq_some_iff.mp h
      obtain ⟨rfl, rfl⟩ := Prod.mk.inj heq
      obtain ⟨hmem, rfl, rfl⟩ := find_eq_some.mp hold
      have hiff : ∀ d, d ∈ t₁ ↔ d = set old ∨ (d ∈ t ∧ d ≠ old) := by
        intro d
        rw [← mem_rows, commit_eq_some hcommit, List.mem_map]
        constructor
        · rintro ⟨x, hx, rfl⟩
          by_cases hid : x.id = old.id
          · rw [if_pos hid, eq_of_id hx hmem hid]
            exact .inl rfl
          · rw [if_neg hid]
            exact .inr ⟨hx, fun heq => hid (by rw [heq])⟩
        · rintro (rfl | ⟨hd, hne⟩)
          · exact ⟨old, hmem, if_pos rfl⟩
          · exact ⟨d, hd, if_neg fun hid => hne (eq_of_id hd hmem hid)⟩
      exact ⟨old, rfl, rfl, rfl, (hiff _).mpr (.inl rfl), .inl hmem, hiff⟩
  · next hnone =>
      obtain ⟨t₁, hcommit, heq⟩ := Option.map_eq_some_iff.mp h
      obtain ⟨rfl, rfl⟩ := Prod.mk.inj heq
      have hnew : ∀ d ∈ t, d ≠ ⟨fresh, tenantID, deviceID, none, none, none, []⟩ := by
        rintro d hd rfl
        have := find_eq_some.mpr ⟨hd, rfl, rfl⟩
        simp [hnone] at this
      have hiff : ∀ d, d ∈ t₁ ↔ d = set ⟨fresh, tenantID, deviceID, none, none, none, []⟩ ∨
          (d ∈ t ∧ d ≠ ⟨fresh, tenantID, deviceID, none, none, none, []⟩) := by
        intro d
        rw [← mem_rows, commit_eq_some hcommit, List.mem_append, List.mem_singleton, mem_rows, or_comm]
        exact or_congr_right ⟨fun hd => ⟨hd, hnew d hd⟩, And.left⟩
      exact ⟨_, rfl, rfl, rfl, (hiff _).mpr (.inl rfl), .inr rfl, hiff⟩

end DeviceTable

end ThesadaApp
