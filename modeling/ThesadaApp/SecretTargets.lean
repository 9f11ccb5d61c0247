import Mathlib.Data.List.Sort
import ThesadaApp.LeftJoin
import ThesadaApp.SecretProvision

/-!
Whom a change of a tenant default reaches: the paired devices of the tenant without an override of the field, by one
query for the devices and by another for their number. A device with a bare password counts as one that overrides every
network, since the bare password goes to a network too.
-/

namespace ThesadaApp.Secrets

open LeftJoin

/-- The columns of `devices` the two queries read. -/
structure DeviceRow where
  id : UUID
  tenantID : Slug
  pairedAt : Option Time
  lastSeenAt : Option Time
  deriving DecidableEq

/-- LIKE 'wifi.password:%' -/
def likeWifiPassword (field : String) : Bool := wifiPasswordPrefix.toList.isPrefixOf field.toList

/-- A stored row that takes its device out of both queries. -/
def SecretRow.pins {β : Type} (r : SecretRow β) (devicePK : UUID) (field : String) : Bool :=
  r.devicePK = some devicePK && (r.field = field || likeWifiPassword field && r.field = legacyWifiPassword)

/-- The rows of `devices` that both queries look for. -/
def inherits {β : Type} (visible : List (SecretRow β)) (tenantID : Slug) (field : String) (d : DeviceRow) : Bool :=
  d.tenantID = tenantID && d.pairedAt.isSome && !visible.any fun r => r.pins d.id field

/-- ORDER BY last_seen_at DESC NULLS LAST -/
def DeviceRow.before (d d' : DeviceRow) : Prop :=
  match d.lastSeenAt, d'.lastSeenAt with
  | some seen, some seen' => seen' ≤ seen
  | none, some _ => False
  | _, none => True

instance : DecidableRel DeviceRow.before := fun d d' => by
  unfold DeviceRow.before
  split <;> infer_instance

abbrev Devices := KeyedTable DeviceRow.id

section queries

variable {β : Type} (s : Store β) (devices : Devices) (tenantID : Slug)

def provisionTargets (field : String) : Except SecretError (List UUID) :=
  if validSecretField field = false then .error (.unknownField field)
  else .ok (((devices.rows.filter (inherits (s.visible tenantID) tenantID field)).insertionSort
    DeviceRow.before).map DeviceRow.id)

/-- The defaults that the policy shows to their tenant. -/
def Store.defaults : List (SecretRow β) := (s.visible tenantID).filter fun r => r.devicePK.isNone

/-- `ProvisionTargetCounts`, a map from fields. -/
def provisionTargetCounts : String → Option Nat :=
  groupCount (fun r => r.field)
    (leftJoin (fun r d => inherits (s.visible tenantID) tenantID r.field d) (s.defaults tenantID) devices.rows)

end queries

/-- What `SetTenantSecret` accepts as the field of a default. -/
def tenantDefaultField (field : String) : Bool := validSecretField field && decide (field ≠ legacyWifiPassword)

/-- The override of a device and the default have one firmware key on the device. -/
def SameFirmwareField (primarySSID override field : String) : Prop :=
  ∃ fwField, firmwareSecretField override primarySSID = some fwField ∧
    firmwareSecretField field primarySSID = some fwField

section targets

variable {β : Type} {s : Store β} {devices : Devices} {t : Slug} {field : String}

/-- The stored fields that go to the firmware key of a default pin the device against it. -/
theorem pins_of_sameFirmwareField {r : SecretRow β} {id : UUID} {primarySSID : String}
    (hfield : field ≠ legacyWifiPassword) (hdevice : r.devicePK = some id)
    (hsame : SameFirmwareField primarySSID r.field field) : r.pins id field = true := by
  obtain ⟨fwField, hoverride, hdefault⟩ := hsame
  rw [firmwareSecretField, if_neg hfield] at hdefault
  obtain rfl := Option.some.inj hdefault
  rw [SecretRow.pins, hdevice, decide_eq_true rfl, Bool.true_and, Bool.or_eq_true]
  unfold firmwareSecretField at hoverride
  split at hoverride
  · next hbare =>
      -- the bare password goes to a network, and the default is of one
      split at hoverride
      · cases hoverride
      · obtain rfl := Option.some.inj hoverride
        refine .inr (Bool.and_eq_true_iff.mpr ⟨?_, decide_eq_true hbare⟩)
        rw [likeWifiPassword, String.toList_append]
        exact List.isPrefixOf_iff_prefix.mpr (List.prefix_append _ _)
  · exact .inl (decide_eq_true (Option.some.inj hoverride))

theorem provisionTargets_eq (s : Store β) (devices : Devices) (t : Slug) (hvalid : validSecretField field = true) : ∃ ids,
    provisionTargets s devices t field = .ok ids ∧
      ids.Perm ((devices.rows.filter (inherits (s.visible t) t field)).map DeviceRow.id) := by
  refine ⟨_, if_neg (by rw [hvalid]; decide), ?_⟩
  exact (List.perm_insertionSort _ _).map _

/-- A tenant has one default of a field at most. -/
theorem defaults_nodup : ((s.defaults t).map fun r => r.field).Nodup := by
  have hslots : ((s.defaults t).map fun r => r.slot).Nodup :=
    s.secrets.nodup.sublist ((List.filter_sublist.trans List.filter_sublist).map _)
  refine List.Nodup.of_map (fun field => Slot.tenant t field) ?_
  rw [List.map_map]
  have hslot : (s.defaults t).map ((fun field => Slot.tenant t field) ∘ fun r => r.field) =
      (s.defaults t).map fun r => r.slot := by
    refine List.map_congr_left fun r hr => ?_
    obtain ⟨hvisible, hnone⟩ := List.mem_filter.mp hr
    have htenant := (mem_visible.mp hvisible).2
    have hdevice : r.devicePK = none := Option.isNone_iff_eq_none.mp hnone
    show Slot.tenant t r.field = Place.slot r.toPlace
    rw [Place.slot, hdevice, htenant]
  rw [hslot]
  exact hslots

theorem defaults_find {r : SecretRow β} :
    r ∈ s.defaults t ∧ r.field = field ↔ r ∈ s.secrets ∧ r.toPlace = ⟨t, none, field⟩ := by
  obtain ⟨⟨t', d, f⟩, c⟩ := r
  rw [Store.defaults, List.mem_filter, mem_visible]
  simp [and_assoc, and_left_comm, and_comm]

/-- The number shown for a default that is stored is the number of devices that a change of it reaches. -/
theorem targetCounts_eq {ids : List UUID}
    (hperm : ids.Perm ((devices.rows.filter (inherits (s.visible t) t field)).map DeviceRow.id)) :
    provisionTargetCounts s devices t field =
      if ∃ r ∈ s.secrets, r.toPlace = ⟨t, none, field⟩ then some ids.length else none := by
  rw [provisionTargetCounts, groupCount_leftJoin defaults_nodup, hperm.length_eq, List.length_map]
  cases hfound : (s.defaults t).find? fun r => r.field = field with
  | none =>
      rw [if_neg, Option.map_none]
      rintro ⟨r, hr⟩
      obtain ⟨hdefault, hfield⟩ := defaults_find.mpr hr
      exact List.find?_eq_none.mp hfound r hdefault (decide_eq_true hfield)
  | some r =>
      have hfield : r.field = field := by simpa using List.find?_some hfound
      rw [if_pos ⟨r, defaults_find.mp ⟨List.mem_of_find?_eq_some hfound, hfield⟩⟩, Option.map_some, hfield]

/-- No override that the policy shows goes to the firmware key of a default on a device that inherits it. -/
theorem inherits_spares {d : DeviceRow} {r : SecretRow β} {primarySSID : String}
    (hdefault : tenantDefaultField field = true) (hinherits : inherits (s.visible t) t field d = true)
    (hr : r ∈ s.visible t) (hdevice : r.devicePK = some d.id) : ¬ SameFirmwareField primarySSID r.field field := by
  intro hsame
  have hnone : ∀ x ∈ s.visible t, x.pins d.id field = false := by
    simpa [inherits] using (Bool.and_eq_true_iff.mp hinherits).2
  have hpins := pins_of_sameFirmwareField (of_decide_eq_true (Bool.and_eq_true_iff.mp hdefault).2) hdevice hsame
  rw [hnone r hr] at hpins
  cases hpins

end targets

section hidden

variable {β : Type} (s : Store β) (devices : Devices) (t : Slug) (field : String) (primarySSID : UUID → String)

/-- A change of the default reaches no device with an override of its firmware key, under whatever tenant the override
is stored, and the number shown for a default that is stored is the number of devices reached. -/
def SparesOverrides : Prop := ∃ ids,
  provisionTargets s devices t field = .ok ids ∧
    (∀ id ∈ ids, ∀ r ∈ s.secrets, r.devicePK = some id → ¬ SameFirmwareField (primarySSID id) r.field field) ∧
    provisionTargetCounts s devices t field =
      if ∃ r ∈ s.secrets, r.toPlace = ⟨t, none, field⟩ then some ids.length else none

/-- A paired device with an override of the firmware key that an earlier tenant of the device stored, hidden from the
queries by the policy, has a row of its own tenant too that takes it out of them. -/
def HiddenOverridesPinned : Prop := ∀ d ∈ devices, d.tenantID = t → d.pairedAt.isSome = true →
  ∀ r ∈ s.secrets, r.tenantID ≠ t → r.devicePK = some d.id → SameFirmwareField (primarySSID d.id) r.field field →
    ∃ own ∈ s.secrets, own.tenantID = t ∧ own.pins d.id field = true

end hidden

/-- Whatever is stored, for every tenant, default and network that each device joins first: the devices reached exclude
the overridden ones exactly if no override is hidden, since `Reassign` leaves the rows of the earlier tenant and the
policy keeps them from the queries. -/
theorem sparesOverrides_iff {β : Type} (s : Store β) (devices : Devices) (t : Slug) {field : String}
    (primarySSID : UUID → String) (hdefault : tenantDefaultField field = true) :
    SparesOverrides s devices t field primarySSID ↔ HiddenOverridesPinned s devices t field primarySSID := by
  obtain ⟨ids, hids, hperm⟩ := provisionTargets_eq s devices t (Bool.and_eq_true_iff.mp hdefault).1
  constructor
  · rintro ⟨ids', hids', hspares, -⟩ d hd htenant hpaired r hr - hdevice hsame
    obtain rfl := Except.ok.inj (hids.symm.trans hids')
    by_contra hnone
    have hinherits : inherits (s.visible t) t field d = true := by
      rw [inherits, decide_eq_true htenant, hpaired, Bool.true_and, Bool.true_and, Bool.not_eq_true', List.any_eq_false]
      intro own hown hpins
      obtain ⟨hstored, hown⟩ := mem_visible.mp hown
      exact hnone ⟨own, hstored, hown, hpins⟩
    have hid := hperm.mem_iff.mpr (List.mem_map_of_mem (List.mem_filter.mpr ⟨hd, hinherits⟩))
    exact hspares d.id hid r hr hdevice hsame
  · intro hpinned
    refine ⟨ids, hids, fun id hid r hr hdevice hsame => ?_, targetCounts_eq hperm⟩
    obtain ⟨d, hd, rfl⟩ := List.mem_map.mp (hperm.mem_iff.mp hid)
    obtain ⟨hd, hinherits⟩ := List.mem_filter.mp hd
    by_cases htenant : r.tenantID = t
    · exact inherits_spares hdefault hinherits (mem_visible.mpr ⟨hr, htenant⟩) hdevice hsame
    · obtain ⟨hpaired, hnone⟩ := Bool.and_eq_true_iff.mp hinherits
      obtain ⟨hown, hpaired⟩ := Bool.and_eq_true_iff.mp hpaired
      obtain ⟨own, hstored, howned, hpins⟩ := hpinned d hd (of_decide_eq_true hown) hpaired r hr htenant hdevice hsame
      rw [Bool.not_eq_true', List.any_eq_false] at hnone
      exact hnone own (mem_visible.mpr ⟨hstored, howned⟩) hpins

/-- A default for a network, and a device with a bare password beside one that inherits. -/
def bareBesideInheriting : Store Unit where
  tenantDEK := ∅
  secrets := ⟨[⟨⟨acme, none, "wifi.password:SiteNet"⟩, ()⟩, ⟨⟨acme, some 7, "wifi.password"⟩, ()⟩], by decide⟩

def twoPaired : Devices := ⟨[⟨7, acme, some 0, none⟩, ⟨8, acme, some 0, some (seconds 60)⟩], by decide⟩

theorem bareBesideInheriting_spared :
    SparesOverrides bareBesideInheriting twoPaired acme "wifi.password:SiteNet" fun _ => "SiteNet" := by
  refine (sparesOverrides_iff _ _ _ _ (by decide)).mpr fun d _ _ _ r hr htenant => ?_
  -- every row is of the tenant
  have hacme : ∀ r ∈ bareBesideInheriting.secrets.rows, r.tenantID = acme := by decide
  exact absurd (hacme r hr) htenant

/-- The override that the device got under beta stays when `Reassign` gives the device to acme. -/
def overriddenUnderBeta : Store Unit where
  tenantDEK := ∅
  secrets := ⟨[⟨⟨beta, some 7, "wifi.password:SiteNet"⟩, ()⟩, ⟨⟨acme, none, "wifi.password:SiteNet"⟩, ()⟩], by decide⟩

def reassigned : Devices := ⟨[⟨7, acme, some 0, none⟩], by decide⟩

/-- The default of the new tenant goes to the device over its override. -/
theorem overriddenUnderBeta_reached :
    ¬ SparesOverrides overriddenUnderBeta reassigned acme "wifi.password:SiteNet" fun _ => "SiteNet" := by
  rintro ⟨ids, hids, hspares, -⟩
  have hreached : provisionTargets overriddenUnderBeta reassigned acme "wifi.password:SiteNet" = .ok [7] := by decide
  obtain rfl := Except.ok.inj (hreached.symm.trans hids)
  exact hspares 7 List.mem_cons_self ⟨⟨beta, some 7, "wifi.password:SiteNet"⟩, ()⟩ List.mem_cons_self rfl
    ⟨"wifi.password:SiteNet", by decide, by decide⟩

end ThesadaApp.Secrets
