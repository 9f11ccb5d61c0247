import ThesadaApp.SecretSemantics

/-!
The secrets of a device as it is paired or provisioned: its fields are pushed one after the other, each under its
firmware key, and the device keeps what was pushed last. Two stored fields go to the key of the primary network, its own
and the bare one from before there was a password for each network.
-/

namespace ThesadaApp.Secrets

def wifiSecretField (ssid : String) : String := if ssid = "" then "" else wifiPasswordPrefix ++ ssid

/-- `FirmwareSecretField`: the bare field goes to the primary network, if there is one. -/
def firmwareSecretField (field primarySSID : String) : Option String :=
  if field = legacyWifiPassword then
    if primarySSID = "" then none else some (wifiPasswordPrefix ++ primarySSID)
  else some field

/-- `secretProvisionFields`: the fields in the order in which they are pushed, and the primary SSID. -/
def secretProvisionFields (ssids : List String) : List String × String :=
  (scalarSecretFields ++ (ssids.map wifiSecretField).filter (fun f => f ≠ "") ++ [legacyWifiPassword], ssids.headD "")

inductive PushError where
  | unreachable
  | rejected
  deriving DecidableEq

/-- The text that `pushSecret` returns. -/
def PushError.msg : PushError → String
  | .unreachable => "push+secret+failed+(device+unreachable)"
  | .rejected => "device+rejected+secret"

structure ProvisionOutcome where
  pushed : List String
  skippedUnset : List String
  skippedNoSSID : List String
  abortMsg : String

/-- Provisioning in progress: what `reveal` reads from, the outcome so far, and what the device has accepted. -/
structure Provisioning (σ : Type) where
  source : σ
  out : ProvisionOutcome
  sent : List (String × List UInt8)

/-- A field and its value as they reach the device: `push` answers in the light of what was sent before. -/
abbrev Push := List (String × List UInt8) → String → List UInt8 → Except PushError Unit

def provisionDeviceSecrets {σ : Type} (ssid : String)
    (reveal : σ → String → Except SecretError (Option (List UInt8) × σ)) (push : Push) :
    List String → Provisioning σ → Provisioning σ
  | [], p => p
  | field :: fields, p =>
      match reveal p.source field with
      | .error _ => { p with out.abortMsg := "secret+decrypt+failed" }
      | .ok (none, source) =>
          provisionDeviceSecrets ssid reveal push fields
            { p with source, out.skippedUnset := p.out.skippedUnset ++ [field] }
      | .ok (some value, source) =>
          match firmwareSecretField field ssid with
          | none =>
              provisionDeviceSecrets ssid reveal push fields
                { p with source, out.skippedNoSSID := p.out.skippedNoSSID ++ [field] }
          | some fwField =>
              match push p.sent fwField value with
              | .error err => { p with source, out.abortMsg := err.msg }
              | .ok () =>
                  provisionDeviceSecrets ssid reveal push fields
                    { source, out := { p.out with pushed := p.out.pushed ++ [fwField] },
                      sent := p.sent ++ [(fwField, value)] }

/-- What the device holds after these pushes. -/
def nvs (sent : List (String × List UInt8)) : String → Option (List UInt8) :=
  sent.foldl (fun held p => Function.update held p.1 (some p.2)) fun _ => none

section provision

variable {ν β : Type} (A : Gcm ν β) (fleet : Fleet)

/-- The `reveal` of both callers: `Resolve`, which finds nothing when the origin is unset. -/
def revealEffective (keyring : Option Key) (draw : String → Draw ν) (tenantID : Slug) (devicePK : UUID) (s : Store β)
    (field : String) : Except SecretError (Option (List UInt8) × Store β) :=
  (resolve A fleet keyring (draw field) s tenantID devicePK field).map fun r =>
    (if r.1.2 = .unset then none else some r.1.1, r.2)

/-- Provisioning of a device with these networks, from a store. -/
def provision (keyring : Option Key) (draw : String → Draw ν) (push : Push) (s : Store β) (tenantID : Slug)
    (devicePK : UUID) (ssids : List String) : Provisioning (Store β) :=
  let r := secretProvisionFields ssids
  provisionDeviceSecrets r.2 (revealEffective A fleet keyring draw tenantID devicePK) push r.1
    ⟨s, ⟨[], [], [], ""⟩, []⟩

end provision

/-- What a network of a device is to have: the device's own password of it, else, for the primary network, its bare
one, else the default of the tenant. -/
def Values.network (m : Values) (tenantID : Slug) (devicePK : UUID) (primarySSID ssid : String) : Option (List UInt8) :=
  ((m ⟨tenantID, some devicePK, wifiPasswordPrefix ++ ssid⟩).or
    (if ssid = primarySSID then m ⟨tenantID, some devicePK, legacyWifiPassword⟩ else none)).or
      (m ⟨tenantID, none, wifiPasswordPrefix ++ ssid⟩)

/-- The pushes leave each configured network with what it is to have, and touch no other. -/
def KeepsOverrides (m : Values) (tenantID : Slug) (devicePK : UUID) (ssids : List String)
    (sent : List (String × List UInt8)) : Prop :=
  ∀ ssid, nvs sent (wifiPasswordPrefix ++ ssid) =
    if ssid ∈ ssids ∧ ssid ≠ "" then m.network tenantID devicePK (ssids.headD "") ssid else none

/-- The primary network has a password of its own and the device a bare one that differs. -/
def Values.Clobbered (m : Values) (tenantID : Slug) (devicePK : UUID) (primarySSID : String) : Prop :=
  primarySSID ≠ "" ∧ ∃ own bare, m ⟨tenantID, some devicePK, wifiPasswordPrefix ++ primarySSID⟩ = some own ∧
    m ⟨tenantID, some devicePK, legacyWifiPassword⟩ = some bare ∧ own ≠ bare

section fields

variable {ssid ssid' : String} {ssids : List String}

theorem wifiPassword_injective (h : wifiPasswordPrefix ++ ssid = wifiPasswordPrefix ++ ssid') : ssid = ssid' := by
  have hlist := congrArg String.toList h
  rw [String.toList_append, String.toList_append] at hlist
  exact String.toList_injective (List.append_cancel_left hlist)

theorem wifiPassword_ne {field : String} (h : wifiPasswordPrefix.toList.isPrefixOf field.toList = false) :
    wifiPasswordPrefix ++ ssid ≠ field := by
  rintro rfl
  rw [String.toList_append, List.isPrefixOf_iff_prefix.mpr (List.prefix_append _ _)] at h
  cases h

theorem wifiPassword_not_scalar : wifiPasswordPrefix ++ ssid ∉ scalarSecretFields := by
  have hnone : ∀ f ∈ scalarSecretFields, wifiPasswordPrefix.toList.isPrefixOf f.toList = false := by decide
  exact fun hmem => wifiPassword_ne (hnone _ hmem) rfl

theorem wifiPassword_ne_legacy : wifiPasswordPrefix ++ ssid ≠ legacyWifiPassword := wifiPassword_ne (by decide)

/-- The fields that go to a key of their own. -/
def ownFields (ssids : List String) : List String :=
  scalarSecretFields ++ (ssids.map wifiSecretField).filter fun f => f ≠ ""

theorem wifiPassword_mem_ownFields : wifiPasswordPrefix ++ ssid ∈ ownFields ssids ↔ ssid ∈ ssids ∧ ssid ≠ "" := by
  have hne : ∀ x : String, wifiPasswordPrefix ++ x ≠ "" := fun _ => wifiPassword_ne (by decide)
  rw [ownFields, List.mem_append, or_iff_right wifiPassword_not_scalar, List.mem_filter, List.mem_map]
  constructor
  · rintro ⟨⟨x, hx, hfield⟩, -⟩
    unfold wifiSecretField at hfield
    split at hfield
    · exact absurd hfield.symm (hne ssid)
    · next hempty =>
        obtain rfl := wifiPassword_injective hfield
        exact ⟨hx, hempty⟩
  · rintro ⟨hmem, hempty⟩
    exact ⟨⟨ssid, hmem, if_neg hempty⟩, decide_eq_true (hne ssid)⟩

theorem ne_legacy_of_mem {f : String} (hf : f ∈ ownFields ssids) : f ≠ legacyWifiPassword := by
  rw [ownFields, List.mem_append, List.mem_filter, List.mem_map] at hf
  rcases hf with hscalar | ⟨⟨x, -, rfl⟩, hne⟩
  · rintro rfl
    revert hscalar
    decide
  · unfold wifiSecretField
    split
    · decide
    · exact wifiPassword_ne_legacy

end fields

/-- The push of a field that has a value. -/
def pushOf (value : String → Option (List UInt8)) (primarySSID field : String) : Option (String × List UInt8) :=
  (value field).bind fun v => (firmwareSecretField field primarySSID).map fun k => (k, v)

section nvs

variable {l l' : List (String × List UInt8)} {key : String}

/-- A later push wins. -/
theorem nvs_append : nvs (l ++ l') key = (nvs l' key).or (nvs l key) := by
  induction l' using List.reverseRecOn with
  | nil => rw [List.append_nil]; rfl
  | append_singleton l' p ih =>
      have hlast : ∀ x, nvs (x ++ [p]) = Function.update (nvs x) p.1 (some p.2) := fun x => by
        rw [nvs, List.foldl_append]
        rfl
      rw [← List.append_assoc, hlast, hlast]
      by_cases hkey : key = p.1
      · subst hkey
        simp
      · rw [Function.update_of_ne hkey, Function.update_of_ne hkey, ih]

theorem nvs_singleton {value : List UInt8} {k : String} :
    nvs [(k, value)] key = if key = k then some value else none := by
  show Function.update (fun _ => none) k (some value) key = _
  rw [Function.update_apply]

variable {value : String → Option (List UInt8)} {primarySSID : String}

/-- Fields that are pushed under their own names. -/
theorem nvs_filterMap {fields : List String} :
    nvs (fields.filterMap fun f => (value f).map fun v => (f, v)) key = if key ∈ fields then value key else none := by
  induction fields with
  | nil => rfl
  | cons f fields ih =>
      rw [← List.singleton_append, List.filterMap_append, nvs_append, ih]
      by_cases hkey : key = f
      · subst hkey
        cases hvalue : value key with
        | none => simp [hvalue, nvs]
        | some v =>
            rw [if_pos (List.mem_append_left _ List.mem_cons_self)]
            have hfirst : nvs ([key].filterMap fun f => (value f).map fun v => (f, v)) key = some v := by
              simp [hvalue, nvs_singleton]
            rw [hfirst]
            split
            · rfl
            · rfl
      · have hfirst : nvs ([f].filterMap fun f => (value f).map fun v => (f, v)) key = none := by
          cases hvalue : value f with
          | none => simp [hvalue, nvs]
          | some v => simp [hvalue, nvs_singleton, hkey]
        rw [hfirst, Option.or_none]
        simp [hkey]

theorem nvs_ownFields {ssids : List String} : nvs ((ownFields ssids).filterMap (pushOf value primarySSID)) key =
    if key ∈ ownFields ssids then value key else none := by
  rw [← nvs_filterMap]
  refine congrArg (fun l => nvs l key) (List.filterMap_congr fun f hf => ?_)
  rw [pushOf, firmwareSecretField, if_neg (ne_legacy_of_mem hf)]
  cases value f with
  | none => rfl
  | some v => rfl

/-- The bare password, under the key of the primary network. -/
theorem nvs_bare {ssid : String} :
    nvs ([legacyWifiPassword].filterMap (pushOf value primarySSID)) (wifiPasswordPrefix ++ ssid) =
      if primarySSID ≠ "" ∧ ssid = primarySSID then value legacyWifiPassword else none := by
  cases hvalue : value legacyWifiPassword with
  | none => simp [pushOf, hvalue, nvs]
  | some v =>
      by_cases hprimary : primarySSID = ""
      · simp [pushOf, firmwareSecretField, hprimary, nvs, hvalue]
      · simp only [pushOf, firmwareSecretField, if_true, hprimary, if_false, List.filterMap_cons, hvalue,
          Option.bind_some, Option.map_some, List.filterMap_nil, nvs_singleton]
        by_cases hssid : ssid = primarySSID
        · rw [if_pos (by rw [hssid]), if_pos ⟨hprimary, hssid⟩]
        · rw [if_neg fun heq => hssid (wifiPassword_injective heq), if_neg fun hand => hssid hand.2]

end nvs

section loop

variable {σ : Type} {ssid : String} {reveal : σ → String → Except SecretError (Option (List UInt8) × σ)} {push : Push}
  {source : σ} {value : String → Option (List UInt8)}

theorem PushError.msg_ne_empty (err : PushError) : err.msg ≠ "" := by
  cases err with
  | unreachable => decide
  | rejected => decide

/-- When `reveal` reads from one source that it leaves alone, and nothing aborts, the fields with a value have been
pushed in their order. -/
theorem provisionDeviceSecrets_sent {fields : List String}
    (hreveal : ∀ f, (∃ err, reveal source f = .error err) ∨ reveal source f = .ok (value f, source))
    {p : Provisioning σ} (hsource : p.source = source)
    (hdone : (provisionDeviceSecrets ssid reveal push fields p).out.abortMsg = "") :
    (provisionDeviceSecrets ssid reveal push fields p).sent = p.sent ++ fields.filterMap (pushOf value ssid) := by
  induction fields generalizing p with
  | nil => rw [List.filterMap_nil, List.append_nil]; rfl
  | cons f fields ih =>
      rw [provisionDeviceSecrets, hsource] at hdone ⊢
      rcases hreveal f with ⟨err, herror⟩ | hok
      · rw [herror] at hdone
        exact absurd (show "secret+decrypt+failed" = "" from hdone) (by decide)
      · rw [hok] at hdone ⊢
        cases hvalue : value f with
        | none =>
            simp only [hvalue] at hdone ⊢
            rw [ih rfl hdone, List.filterMap_cons_none (by rw [pushOf, hvalue]; rfl)]
        | some v =>
            simp only [hvalue] at hdone ⊢
            cases hfield : firmwareSecretField f ssid with
            | none =>
                simp only [hfield] at hdone ⊢
                rw [ih rfl hdone, List.filterMap_cons_none (by rw [pushOf, hvalue, hfield]; rfl)]
            | some k =>
                simp only [hfield] at hdone ⊢
                cases hpush : push p.sent k v with
                | error err =>
                    simp only [hpush] at hdone
                    exact absurd hdone err.msg_ne_empty
                | ok _ =>
                    simp only [hpush] at hdone ⊢
                    rw [ih rfl hdone, List.filterMap_cons_some (b := (k, v)) (by rw [pushOf, hvalue, hfield]; rfl),
                      List.append_assoc, List.singleton_append]

end loop

section provisioning

variable {ν β : Type} {A : Gcm ν β} {fleet : Fleet} {s : Store β} {m : Values} {t : Slug} {d : UUID}
  {ssids : List String} {keyring : Option Key} {draw : String → Draw ν} {push : Push}

/-- A value that is found has an origin. -/
theorem Values.effective_set {f : String} {r : List UInt8 × SecretOrigin} (h : m.effective t d f = some r) :
    r.2 ≠ .unset := by
  unfold Values.effective at h
  split at h
  · obtain rfl := Option.some.inj h
    exact SecretOrigin.noConfusion
  · split at h
    · cases h
    · obtain ⟨v, -, rfl⟩ := Option.map_eq_some_iff.mp h
      exact SecretOrigin.noConfusion

/-- The bare password is never a tenant's. -/
theorem Values.effective_bare :
    (m.effective t d legacyWifiPassword).map Prod.fst = m ⟨t, some d, legacyWifiPassword⟩ := by
  unfold Values.effective
  cases m ⟨t, some d, legacyWifiPassword⟩ with
  | none => rfl
  | some v => rfl

theorem Values.effective_network {ssid : String} : (m.effective t d (wifiPasswordPrefix ++ ssid)).map Prod.fst =
    (m ⟨t, some d, wifiPasswordPrefix ++ ssid⟩).or (m ⟨t, none, wifiPasswordPrefix ++ ssid⟩) := by
  unfold Values.effective
  cases m ⟨t, some d, wifiPasswordPrefix ++ ssid⟩ with
  | none =>
      dsimp only
      rw [if_neg wifiPassword_ne_legacy, Option.map_map, Option.none_or]
      exact Option.map_id'
  | some v => rfl

/-- A reading of the store fails, or finds the effective value and leaves the store alone. -/
theorem Represents.reveal (h : Represents A fleet m s) (f : String) :
    (∃ err, revealEffective A fleet keyring draw t d s f = .error err) ∨
      revealEffective A fleet keyring draw t d s f = .ok ((m.effective t d f).map Prod.fst, s) := by
  unfold revealEffective
  cases keyring with
  | none => exact .inl ⟨_, rfl⟩
  | some kek =>
      cases hfield : validSecretField f with
      | false =>
          left
          rw [Secrets.resolve, if_pos hfield]
          exact ⟨_, rfl⟩
      | true =>
          rw [h.resolve hfield]
          cases heffective : m.effective t d f with
          | none => exact .inr rfl
          | some r =>
              dsimp only
              split
              · right
                simp [Except.map, Values.effective_set heffective]
              · exact .inl ⟨_, rfl⟩

/-- What a provisioning that is not aborted leaves under the key of a network: the bare password comes last. -/
theorem Represents.nvs_provision (h : Represents A fleet m s)
    (hdone : (provision A fleet keyring draw push s t d ssids).out.abortMsg = "") (ssid : String) :
    nvs (provision A fleet keyring draw push s t d ssids).sent (wifiPasswordPrefix ++ ssid) =
      (if ssids.headD "" ≠ "" ∧ ssid = ssids.headD "" then m ⟨t, some d, legacyWifiPassword⟩ else none).or
        (if ssid ∈ ssids ∧ ssid ≠ "" then (m ⟨t, some d, wifiPasswordPrefix ++ ssid⟩).or
          (m ⟨t, none, wifiPasswordPrefix ++ ssid⟩) else none) := by
  have hsent := provisionDeviceSecrets_sent h.reveal rfl hdone
  have hfields : (secretProvisionFields ssids).1 = ownFields ssids ++ [legacyWifiPassword] := rfl
  rw [provision, hsent, List.nil_append, hfields, List.filterMap_append, nvs_append, nvs_bare, nvs_ownFields]
  simp only [wifiPassword_mem_ownFields, Values.effective_bare, Values.effective_network]
  rfl

/-- In every state of the store, for every list of networks: a provisioning that is not aborted leaves each network
with the password it is to have if and only if the bare password does not come over another of the primary network. -/
theorem provision_keeps_iff {log : List (Event ν)} (hrun : (system A fleet).Run emptyStore log s)
    (hdone : (provision A fleet keyring draw push s t d ssids).out.abortMsg = "") :
    KeepsOverrides (latest log) t d ssids (provision A fleet keyring draw push s t d ssids).sent ↔
      ¬ (latest log).Clobbered t d (ssids.headD "") := by
  have hnvs := (represents_of_run hrun).nvs_provision hdone
  have hprimary : ssids.headD "" ≠ "" → ssids.headD "" ∈ ssids := by
    cases ssids with
    | nil => exact fun hne => absurd rfl hne
    | cons x xs => exact fun _ => List.mem_cons_self
  constructor
  · rintro hkeeps ⟨hne, own, bare, hown, hbare, hdiffer⟩
    have hlast := hkeeps (ssids.headD "")
    rw [hnvs, if_pos ⟨hne, rfl⟩, if_pos ⟨hprimary hne, hne⟩, if_pos ⟨hprimary hne, hne⟩, Values.network, hown,
      hbare] at hlast
    exact hdiffer (Option.some.inj hlast).symm
  · intro hclear ssid
    rw [hnvs]
    by_cases hown : ssids.headD "" ≠ "" ∧ ssid = ssids.headD ""
    · obtain ⟨hne, rfl⟩ := hown
      rw [if_pos ⟨hne, rfl⟩, if_pos ⟨hprimary hne, hne⟩, if_pos ⟨hprimary hne, hne⟩, Values.network, if_pos rfl]
      cases hpassword : latest log ⟨t, some d, wifiPasswordPrefix ++ ssids.headD ""⟩ with
      | none => rfl
      | some own =>
          cases hbare : latest log ⟨t, some d, legacyWifiPassword⟩ with
          | none => rfl
          | some bare =>
              have hsame : own = bare := by
                by_contra hdiffer
                exact hclear ⟨hne, own, bare, hpassword, hbare, hdiffer⟩
              rw [hsame]
              rfl
    · rw [if_neg hown, Option.none_or]
      split
      · next hconfigured =>
          have hother : ssid ≠ ssids.headD "" := fun heq => hown ⟨heq ▸ hconfigured.2, heq⟩
          rw [Values.network, if_neg hother, Option.or_none]
      · rfl

end provisioning

/-- A device that accepts every push. -/
def pushesAll : Push := fun _ _ _ => .ok ()

/-- A default for one network, and for the other the device's own password. -/
def siteDefaults : List (Action Unit) :=
  [.setTenantSecret (some oldKEK) firstDraw acme "wifi.password:Barn" [1],
    .setSecret (some oldKEK) firstDraw acme 7 "wifi.password:HomeNet" [2]]

theorem siteDefaults_runs : ((system symbolicGcm oneFleet).execIf (fun _ _ _ => True) [] emptyStore siteDefaults).any
    (fun r => decide ((provision symbolicGcm oneFleet (some oldKEK) (fun _ => firstDraw) pushesAll r.2 acme 7
        ["HomeNet", "Barn"]).out.abortMsg = "") &&
      decide (latest r.1 ⟨acme, some 7, legacyWifiPassword⟩ = none)) = true := by
  decide +kernel

theorem siteDefaults_kept : ∃ log s, (system symbolicGcm oneFleet).Run emptyStore log s ∧
    KeepsOverrides (latest log) acme 7 ["HomeNet", "Barn"] (provision symbolicGcm oneFleet (some oldKEK)
      (fun _ => firstDraw) pushesAll s acme 7 ["HomeNet", "Barn"]).sent := by
  obtain ⟨log, s, hrun, htest⟩ := Machine.exists_runIf_of_any siteDefaults_runs
  obtain ⟨hdone, hbare⟩ := Bool.and_eq_true_iff.mp htest
  refine ⟨log, s, hrun, (provision_keeps_iff hrun (of_decide_eq_true hdone)).mpr ?_⟩
  rintro ⟨-, own, bare, -, hsome, -⟩
  rw [of_decide_eq_true hbare] at hsome
  cases hsome

/-- The bare password of an old device, and a password of its primary network that was stored later. -/
def bareAndOwn : List (Action Unit) :=
  [.setSecret (some oldKEK) firstDraw acme 7 "wifi.password" [1],
    .setSecret (some oldKEK) firstDraw acme 7 "wifi.password:HomeNet" [2]]

theorem bareAndOwn_runs : ((system symbolicGcm oneFleet).execIf (fun _ _ _ => True) [] emptyStore bareAndOwn).any
    (fun r =>
      let p := provision symbolicGcm oneFleet (some oldKEK) (fun _ => firstDraw) pushesAll r.2 acme 7 ["HomeNet"]
      decide (p.out.abortMsg = "") && decide (nvs p.sent (wifiPasswordPrefix ++ "HomeNet") = some [1]) &&
        decide ((latest r.1).network acme 7 "HomeNet" "HomeNet" = some [2])) = true := by
  decide +kernel

/-- The device is left with the old password. -/
theorem bareAndOwn_not_kept : ∃ log s, (system symbolicGcm oneFleet).Run emptyStore log s ∧
    (provision symbolicGcm oneFleet (some oldKEK) (fun _ => firstDraw) pushesAll s acme 7
      ["HomeNet"]).out.abortMsg = "" ∧
    ¬ KeepsOverrides (latest log) acme 7 ["HomeNet"] (provision symbolicGcm oneFleet (some oldKEK)
      (fun _ => firstDraw) pushesAll s acme 7 ["HomeNet"]).sent := by
  obtain ⟨log, s, hrun, htest⟩ := Machine.exists_runIf_of_any bareAndOwn_runs
  simp only [Bool.and_eq_true, decide_eq_true_eq] at htest
  obtain ⟨⟨hdone, hnvs⟩, hown⟩ := htest
  refine ⟨log, s, hrun, hdone, fun hkeeps => ?_⟩
  have hlast := hkeeps "HomeNet"
  rw [hnvs, if_pos ⟨List.mem_singleton.mpr rfl, by decide⟩, List.headD_cons, hown] at hlast
  exact absurd hlast (by decide)

end ThesadaApp.Secrets
