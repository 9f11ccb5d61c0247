import ThesadaApp.DeviceRights

/-!
The names of a device on the broker: the certificate CN, which is the client's username, and the role. Both
join tenant and device id with a hyphen, which either may contain, so two devices get one name when a part of
the id of one ends up in the tenant of the other.
-/

namespace ThesadaApp

/-- The two ways a join at one character can come about twice: cut at the same place, or one cut inside the
other's part. -/
theorem append_cons_eq_iff {α : Type*} {c : α} {l₁ l₂ m₁ m₂ : List α} : l₁ ++ c :: m₁ = l₂ ++ c :: m₂ ↔
    (l₁ = l₂ ∧ m₁ = m₂) ∨ (∃ x, l₂ = l₁ ++ c :: x ∧ m₁ = x ++ c :: m₂) ∨
      ∃ x, l₁ = l₂ ++ c :: x ∧ m₂ = x ++ c :: m₁ := by
  constructor
  · intro h
    rcases List.append_eq_append_iff.mp h with ⟨as, hl, hm⟩ | ⟨as, hl, hm⟩
    · cases as with
      | nil => exact .inl ⟨by simpa using hl.symm, (List.cons.inj hm).2⟩
      | cons a as =>
          obtain ⟨rfl, hrest⟩ := List.cons.inj hm
          exact .inr (.inl ⟨as, hl, hrest⟩)
    · cases as with
      | nil => exact .inl ⟨by simpa using hl, (List.cons.inj hm).2.symm⟩
      | cons a as =>
          obtain ⟨rfl, hrest⟩ := List.cons.inj hm
          exact .inr (.inr ⟨as, hl, hrest⟩)
  · rintro (⟨rfl, rfl⟩ | ⟨x, rfl, rfl⟩ | ⟨x, rfl, rfl⟩) <;> simp

/-- The tenant of the second device is that of the first and a part of the first's id. -/
def NameShifted (tenant₁ deviceID₁ tenant₂ deviceID₂ : String) : Prop :=
  ∃ x, tenant₂ = tenant₁ ++ "-" ++ x ∧ deviceID₁ = x ++ "-" ++ deviceID₂

section names

variable {tenant₁ deviceID₁ tenant₂ deviceID₂ : String}

theorem hyphenated_eq_iff : tenant₁ ++ "-" ++ deviceID₁ = tenant₂ ++ "-" ++ deviceID₂ ↔
    (tenant₁ = tenant₂ ∧ deviceID₁ = deviceID₂) ∨ NameShifted tenant₁ deviceID₁ tenant₂ deviceID₂ ∨
      NameShifted tenant₂ deviceID₂ tenant₁ deviceID₁ := by
  have hshifted : ∀ t₁ d₁ t₂ d₂ : String, NameShifted t₁ d₁ t₂ d₂ ↔
      ∃ x, t₂.toList = t₁.toList ++ '-' :: x ∧ d₁.toList = x ++ '-' :: d₂.toList := by
    intro t₁ d₁ t₂ d₂
    constructor
    · rintro ⟨x, rfl, rfl⟩
      exact ⟨x.toList, by simp, by simp⟩
    · rintro ⟨x, ht, hd⟩
      exact ⟨String.ofList x, String.toList_inj.mp (by simpa using ht), String.toList_inj.mp (by simpa using hd)⟩
  have hjoin : ∀ t d : String, (t ++ "-" ++ d).toList = t.toList ++ '-' :: d.toList := by
    intro t d
    simp
  rw [hshifted, hshifted, ← String.toList_inj, hjoin, hjoin, append_cons_eq_iff, String.toList_inj, String.toList_inj]

theorem deviceCertCN_eq_iff : deviceCertCN tenant₁ deviceID₁ = deviceCertCN tenant₂ deviceID₂ ↔
    tenant₁ ++ "-" ++ deviceID₁ = tenant₂ ++ "-" ++ deviceID₂ := by
  simp [deviceCertCN, String.append_assoc]

theorem dynsecDeviceRoleName_eq_iff :
    dynsecDeviceRoleName tenant₁ deviceID₁ = dynsecDeviceRoleName tenant₂ deviceID₂ ↔
      tenant₁ ++ "-" ++ deviceID₁ = tenant₂ ++ "-" ++ deviceID₂ := by
  simp [dynsecDeviceRoleName, String.append_assoc]

/-- Ids of one length, as all that enrollment accepts are, are not shifted. -/
theorem not_nameShifted_of_length (h : deviceID₁.length = deviceID₂.length) :
    ¬ NameShifted tenant₁ deviceID₁ tenant₂ deviceID₂ := by
  rintro ⟨x, -, rfl⟩
  have hone : ("-" : String).length = 1 := rfl
  simp only [String.length_append] at h
  omega

theorem length_of_validDeviceID {deviceID : String} (h : validDeviceID deviceID = true) : deviceID.length = 20 := by
  simp only [validDeviceID, Bool.and_eq_true, List.isPrefixOf_iff_prefix, decide_eq_true_eq] at h
  obtain ⟨⟨hex, hex_eq⟩, hlength, -⟩ := h
  have hprefix : deviceIDPrefix.toList.length = 8 := rfl
  rw [← hex_eq, List.drop_left, deviceIDHexLen] at hlength
  rw [← String.length_toList, ← hex_eq, List.length_append, hprefix, hlength]

/-- No two enrolled devices share a name. -/
theorem enrolled_names_injective (h₁ : validDeviceID deviceID₁ = true) (h₂ : validDeviceID deviceID₂ = true)
    (hname : tenant₁ ++ "-" ++ deviceID₁ = tenant₂ ++ "-" ++ deviceID₂) :
    tenant₁ = tenant₂ ∧ deviceID₁ = deviceID₂ := by
  have hlength : deviceID₁.length = deviceID₂.length := by
    rw [length_of_validDeviceID h₁, length_of_validDeviceID h₂]
  rcases hyphenated_eq_iff.mp hname with hsame | hshifted | hshifted
  · exact hsame
  · exact absurd hshifted (not_nameShifted_of_length hlength)
  · exact absurd hshifted (not_nameShifted_of_length hlength.symm)

/-- A shifted pair is a pair of two different devices. -/
theorem tenant_ne_of_nameShifted (h : NameShifted tenant₁ deviceID₁ tenant₂ deviceID₂) : tenant₁ ≠ tenant₂ := by
  rintro rfl
  obtain ⟨x, htenant, -⟩ := h
  have hlength := congrArg String.length htenant
  have hone : ("-" : String).length = 1 := rfl
  simp only [String.length_append] at hlength
  omega

end names

/-- CN and role name tell two devices apart exactly if neither is the other with a part of its id moved into
the tenant. -/
theorem names_injective_iff (tenant₁ tenant₂ : Slug) (deviceID₁ deviceID₂ : String) :
    ((deviceCertCN tenant₁.val deviceID₁ = deviceCertCN tenant₂.val deviceID₂ →
        tenant₁ = tenant₂ ∧ deviceID₁ = deviceID₂) ∧
      (dynsecDeviceRoleName tenant₁.val deviceID₁ = dynsecDeviceRoleName tenant₂.val deviceID₂ →
        tenant₁ = tenant₂ ∧ deviceID₁ = deviceID₂)) ↔
      ¬ NameShifted tenant₁.val deviceID₁ tenant₂.val deviceID₂ ∧
        ¬ NameShifted tenant₂.val deviceID₂ tenant₁.val deviceID₁ := by
  rw [deviceCertCN_eq_iff, dynsecDeviceRoleName_eq_iff, and_self, hyphenated_eq_iff, Slug.ext_iff]
  constructor
  · intro hinj
    constructor
    · intro hshifted
      exact tenant_ne_of_nameShifted hshifted (hinj (.inr (.inl hshifted))).1
    · intro hshifted
      exact tenant_ne_of_nameShifted hshifted (hinj (.inr (.inr hshifted))).1.symm
  · rintro ⟨hleft, hright⟩ (hsame | hshifted | hshifted)
    · exact hsame
    · exact absurd hshifted hleft
    · exact absurd hshifted hright

/-- A tenant that extends the slug of another. -/
def acmeBeta : Slug := ⟨"acme-beta", by decide⟩

/-- The rows of two devices that published under acme and under that tenant. -/
def betaPump : Device := ⟨1, acme, "beta-pump", none, some "thesada/acme/beta-pump", none, []⟩

def pumpOfAcmeBeta : Device := ⟨2, acmeBeta, "pump", none, some "thesada/acme-beta/pump", none, []⟩

theorem shifted_runs : ((Rights.system { Rights.pumpConfig with tenants := [acme, acmeBeta] }).execIf
    (fun _ _ _ => True) [] ∅
    [Rights.published "thesada/acme/beta-pump/info" 1, Rights.published "thesada/acme-beta/pump/info" 2]).any
      (fun r => r.2.rows.contains betaPump && r.2.rows.contains pumpOfAcmeBeta) = true := by
  decide +kernel

/-- Two devices that published are stored and have one name. -/
theorem shifted_names_equal : ∃ log devices,
    (Rights.system { Rights.pumpConfig with tenants := [acme, acmeBeta] }).Run ∅ log devices ∧
      ∃ d₁ ∈ devices, ∃ d₂ ∈ devices, d₁.tenantID ≠ d₂.tenantID ∧
        deviceCertCN d₁.tenantID.val d₁.deviceID = deviceCertCN d₂.tenantID.val d₂.deviceID ∧
        dynsecDeviceRoleName d₁.tenantID.val d₁.deviceID = dynsecDeviceRoleName d₂.tenantID.val d₂.deviceID := by
  obtain ⟨log, devices, hrun, htest⟩ := Machine.exists_runIf_of_any shifted_runs
  obtain ⟨hfirst, hsecond⟩ := Bool.and_eq_true_iff.mp htest
  exact ⟨log, devices, hrun, betaPump, List.contains_iff_mem.mp hfirst, pumpOfAcmeBeta,
    List.contains_iff_mem.mp hsecond, by decide, by decide, by decide⟩

end ThesadaApp
