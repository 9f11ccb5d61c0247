import Mathlib.Data.List.Induction
import ThesadaApp.MachineRun
import ThesadaApp.SecretKeys

/-!
What the store is for: of each place the value that was written last and not cleared since, and for a device its own or
else its tenant's. A call reads these values as long as its root key is the one that wraps the DEK of the tenant.
-/

namespace ThesadaApp.Secrets

/-- The value of each place. -/
abbrev Values := Place → Option (List UInt8)

/-- What a device has of a field, and from where. -/
def Values.effective (m : Values) (tenantID : Slug) (devicePK : UUID) (field : String) :
    Option (List UInt8 × SecretOrigin) :=
  match m ⟨tenantID, some devicePK, field⟩ with
  | some value => some (value, .override)
  | none =>
      if field = legacyWifiPassword then none
      else (m ⟨tenantID, none, field⟩).map fun value => (value, .tenant)

inductive Action (ν : Type) where
  | setSecret (keyring : Option Key) (draw : Draw ν) (tenantID : Slug) (devicePK : UUID) (field : String)
      (value : List UInt8)
  | setTenantSecret (keyring : Option Key) (draw : Draw ν) (tenantID : Slug) (field : String) (value : List UInt8)
  | clearDeviceSecret (tenantID : Slug) (devicePK : UUID) (field : String)
  | clearTenantSecret (tenantID : Slug) (field : String)
  | ensureTenantDEK (keyring : Option Key) (draw : Draw ν) (tenantID : Slug)
  | rotateRootKEK (keyring newKeyring : Option Key) (nonce : Slug → ν)

/-- The value of a place that a call leaves. -/
def Action.writes {ν : Type} : Action ν → Option (Place × Option (List UInt8))
  | .setSecret _ _ tenantID devicePK field value => some (⟨tenantID, some devicePK, field⟩, some value)
  | .setTenantSecret _ _ tenantID field value => some (⟨tenantID, none, field⟩, some value)
  | .clearDeviceSecret tenantID devicePK field => some (⟨tenantID, some devicePK, field⟩, none)
  | .clearTenantSecret tenantID field => some (⟨tenantID, none, field⟩, none)
  | .ensureTenantDEK .. | .rotateRootKEK .. => none

def Action.isRotation {ν : Type} : Action ν → Bool
  | .rotateRootKEK .. => true
  | _ => false

inductive Event (ν : Type) where
  | done (a : Action ν)
  | failed (e : SecretError)

def Values.after {ν : Type} (m : Values) : Event ν → Values
  | .done a =>
      match a.writes with
      | none => m
      | some (p, value) => Function.update m p value
  | .failed _ => m

/-- Of each place the value that was written last, unless it was cleared since. -/
def latest {ν : Type} (log : List (Event ν)) : Values := log.foldl Values.after fun _ => none

theorem latest_append {ν : Type} (log : List (Event ν)) (e : Event ν) :
    latest (log ++ [e]) = (latest log).after e := by
  rw [latest, List.foldl_append]
  rfl

section system

variable {ν β : Type} (A : Gcm ν β) (fleet : Fleet)

def Action.run (s : Store β) : Action ν → Except SecretError (Store β)
  | .setSecret keyring draw tenantID devicePK field value =>
      Secrets.setSecret A fleet keyring draw s tenantID devicePK field value
  | .setTenantSecret keyring draw tenantID field value =>
      Secrets.setTenantSecret A fleet keyring draw s tenantID field value
  | .clearDeviceSecret tenantID devicePK field => (Secrets.clearDeviceSecret s tenantID devicePK field).map Prod.snd
  | .clearTenantSecret tenantID field => (Secrets.clearTenantSecret s tenantID field).map Prod.snd
  | .ensureTenantDEK keyring draw tenantID => Secrets.ensureTenantDEK A fleet keyring draw s tenantID
  | .rotateRootKEK keyring newKeyring nonce => (Secrets.rotateRootKEK A keyring newKeyring nonce s).map Prod.snd

def system : Machine (Store β) (Action ν) (Event ν) where
  step s a := some (match a.run A fleet s with
    | .ok s' => (s', .done a)
    | .error e => (s, .failed e))

def emptyStore : Store β := ⟨∅, ∅⟩

end system

section place

theorem Place.aad_injective : Function.Injective Place.aad := by
  rintro ⟨t, d, f⟩ ⟨t', d', f'⟩ h
  have hmiddle : ∀ d : Option UUID, '\x00' ∉ (d.elim tenantDefaultMarker UUID.string).toList := by
    rintro (_ | d)
    · decide
    · exact nul_not_mem_uuid d
  have haad : ∀ (t : Slug) (d : Option UUID) (f : String), Place.aad ⟨t, d, f⟩ =
      t.val ++ "\x00" ++ d.elim tenantDefaultMarker UUID.string ++ "\x00" ++ f := by
    rintro t (_ | d) f
    · rfl
    · rfl
  rw [haad, haad] at h
  obtain ⟨htenant, hdevice, rfl⟩ :=
    aad_inj (nul_not_mem_slug t) (nul_not_mem_slug t') (hmiddle d) (hmiddle d') h
  obtain rfl := Slug.ext htenant
  cases d with
  | none =>
      cases d' with
      | none => rfl
      | some d' => exact absurd hdevice.symm (uuid_ne_marker d')
  | some d =>
      cases d' with
      | none => exact absurd hdevice (uuid_ne_marker d)
      | some d' => rw [UUID.string_injective hdevice]

/-- A slot is the place of one tenant at most, as long as a device is of one tenant. -/
theorem Place.eq_of_slot {p q : Place} (h : p.slot = q.slot) (hdevice : p.devicePK.isSome → p.tenantID = q.tenantID) :
    p = q := by
  obtain ⟨t, d, f⟩ := p
  obtain ⟨t', d', f'⟩ := q
  cases d with
  | none =>
      cases d' with
      | none =>
          obtain ⟨rfl, rfl⟩ := Slot.tenant.inj h
          rfl
      | some d' => cases h
  | some d =>
      cases d' with
      | none => cases h
      | some d' =>
          obtain ⟨rfl, rfl⟩ := Slot.device.inj h
          obtain rfl : t = t' := hdevice rfl
          rfl

end place

section values

variable {ν β : Type} {A : Gcm ν β} {fleet : Fleet} {s s' : Store β} {m : Values} {p : Place} {t : Slug} {d : UUID}
  {f : String} {kek dek : Key} {draw : Draw ν}

/-- The store holds the values, each under the DEK of its tenant. -/
structure Represents (A : Gcm ν β) (fleet : Fleet) (m : Values) (s : Store β) : Prop where
  sound : ∀ r ∈ s.secrets, ∃ value dek nonce, m r.toPlace = some value ∧ s.HasDEK A r.tenantID dek ∧
    r.ciphertext = encryptSecret A dek nonce value r.aad
  complete : ∀ p value, m p = some value → ∃ r ∈ s.secrets, r.toPlace = p
  device : ∀ r ∈ s.secrets, ∀ d ∈ r.devicePK, fleet.tenantOf d = some r.tenantID
  named : ∀ r ∈ s.secrets, r.devicePK = none → r.field ≠ legacyWifiPassword
  wrapped : ∀ row ∈ s.tenantDEK, ∃ dek, Wraps A row dek

theorem Represents.empty : Represents A fleet (fun _ => none) emptyStore :=
  ⟨fun _ hr => absurd hr List.not_mem_nil, fun _ _ h => absurd h (Option.some_ne_none _).symm,
    fun _ hr => absurd hr List.not_mem_nil, fun _ hr => absurd hr List.not_mem_nil,
    fun _ hrow => absurd hrow List.not_mem_nil⟩

theorem Represents.keeps (h : Represents A fleet m s) (hkeeps : KeepsDEKs A s s') : Represents A fleet m s' := by
  obtain ⟨hsecrets, hdeks, hwrapped⟩ := hkeeps
  refine ⟨fun r hr => ?_, ?_, ?_, ?_, hwrapped h.wrapped⟩
  · obtain ⟨value, dek, nonce, hvalue, hdek, hciphertext⟩ := h.sound r (hsecrets ▸ hr)
    exact ⟨value, dek, nonce, hvalue, hdeks _ _ hdek, hciphertext⟩
  · rw [hsecrets]
    exact h.complete
  · rw [hsecrets]
    exact h.device
  · rw [hsecrets]
    exact h.named

/-- The row of a place that may be written is of the place. -/
theorem Represents.place_of_slot (h : Represents A fleet m s) {r : SecretRow β} (hr : r ∈ s.secrets)
    (hslot : r.slot = p.slot) (hdevice : ∀ d ∈ p.devicePK, fleet.tenantOf d = some p.tenantID) : r.toPlace = p := by
  refine Place.eq_of_slot hslot fun hsome => ?_
  obtain ⟨d, hd⟩ := Option.isSome_iff_exists.mp hsome
  have hp : p.devicePK = some d := by
    unfold Place.slot at hslot
    rw [hd] at hslot
    cases hpd : p.devicePK with
    | none =>
        rw [hpd] at hslot
        cases hslot
    | some d' =>
        rw [hpd] at hslot
        rw [(Slot.device.inj hslot).1]
  exact Option.some.inj ((h.device r hr d hd).symm.trans (hdevice d hp))

theorem Represents.upsert (h : Represents A fleet m s) {value : List UInt8} {nonce : ν}
    (hdek : s.HasDEK A p.tenantID dek) (hnamed : p.devicePK = none → p.field ≠ legacyWifiPassword)
    (hupsert : upsertSecret fleet s p (encryptSecret A dek nonce value p.aad) = .ok s') :
    Represents A fleet (Function.update m p (some value)) s' := by
  unfold upsertSecret at hupsert
  split at hupsert
  · cases hupsert
  · next hpolicy =>
      split at hupsert
      · cases hupsert
      · obtain rfl := Except.ok.inj hupsert
        have hdevice : ∀ d ∈ p.devicePK, fleet.tenantOf d = some p.tenantID := by
          intro d hd
          by_contra hne
          exact hpolicy ((Option.any_eq_true _ _).mpr ⟨d, hd, decide_eq_true hne⟩)
        set written : SecretRow β := ⟨p, encryptSecret A dek nonce value p.aad⟩ with hwritten
        have hrow : ((s.secrets.find p.slot).elim written fun r => { r with ciphertext := written.ciphertext }) =
            written := by
          cases hold : s.secrets.find p.slot with
          | none => rfl
          | some old =>
              have hslot := KeyedTable.find_key hold
              have hplace := h.place_of_slot (KeyedTable.find_mem hold) hslot hdevice
              show SecretRow.mk old.toPlace _ = _
              rw [hplace]
        -- a row now is the one written, or was there and is of another place
        have hrows : ∀ r, r ∈ s.secrets.upsert written (fun r => { r with ciphertext := written.ciphertext })
            (fun _ => rfl) ↔ r = written ∨ r ∈ s.secrets ∧ r.toPlace ≠ p := by
          intro r
          rw [KeyedTable.mem_upsert, show written.slot = p.slot from rfl, hrow]
          refine or_congr_right (and_congr_right fun hr => not_congr ?_)
          exact ⟨fun hslot => h.place_of_slot hr hslot hdevice, fun hplace => congrArg Place.slot hplace⟩
        refine ⟨fun r hr => ?_, fun q v hq => ?_, fun r hr => ?_, fun r hr => ?_, h.wrapped⟩
        · rcases (hrows r).mp hr with rfl | ⟨hold, hne⟩
          · exact ⟨value, dek, nonce, Function.update_self .., hdek, rfl⟩
          · rw [Function.update_of_ne hne]
            exact h.sound r hold
        · by_cases hqp : q = p
          · exact ⟨written, (hrows _).mpr (.inl rfl), hqp.symm⟩
          · rw [Function.update_of_ne hqp] at hq
            obtain ⟨r, hr, rfl⟩ := h.complete q v hq
            exact ⟨r, (hrows r).mpr (.inr ⟨hr, hqp⟩), rfl⟩
        · rcases (hrows r).mp hr with rfl | ⟨hold, -⟩
          · exact hdevice
          · exact h.device r hold
        · rcases (hrows r).mp hr with rfl | ⟨hold, -⟩
          · exact hnamed
          · exact h.named r hold

theorem Represents.delete (h : Represents A fleet m s) (p : Place) :
    Represents A fleet (Function.update m p none) (deleteSecret s p).2 := by
  have hrows : ∀ r, r ∈ (deleteSecret s p).2.secrets ↔ r ∈ s.secrets ∧ r.toPlace ≠ p := by
    intro r
    show r ∈ s.secrets.deleteWhere _ ↔ _
    rw [KeyedTable.mem_deleteWhere, decide_eq_false_iff_not]
  refine ⟨fun r hr => ?_, fun q v hq => ?_, fun r hr => h.device r ((hrows r).mp hr).1,
    fun r hr => h.named r ((hrows r).mp hr).1, h.wrapped⟩
  · obtain ⟨hold, hne⟩ := (hrows r).mp hr
    rw [Function.update_of_ne hne]
    exact h.sound r hold
  · by_cases hqp : q = p
    · rw [hqp, Function.update_self] at hq
      cases hq
    · rw [Function.update_of_ne hqp] at hq
      obtain ⟨r, hr, rfl⟩ := h.complete q v hq
      exact ⟨r, (hrows r).mpr ⟨hr, hqp⟩, rfl⟩

theorem Represents.write (h : Represents A fleet m s) {value : List UInt8}
    (hnamed : p.devicePK = none → p.field ≠ legacyWifiPassword)
    (hwrite : writeSecret A fleet kek draw s p value = .ok s') :
    Represents A fleet (Function.update m p (some value)) s' := by
  obtain ⟨⟨dek, s₁⟩, hdek, hupsert⟩ := bind_eq_ok hwrite
  obtain ⟨hkeeps, hhas⟩ := tenantDEK_spec hdek
  exact (h.keeps hkeeps).upsert (hhas h.wrapped) hnamed hupsert

/-- What a call that succeeds has done. -/
inductive Outcome (A : Gcm ν β) (fleet : Fleet) (s : Store β) (a : Action ν) (s' : Store β) : Prop
  | wrote {kek : Key} {draw : Draw ν} {p : Place} {value : List UInt8} (hwrites : a.writes = some (p, some value))
      (hnamed : p.devicePK = none → p.field ≠ legacyWifiPassword)
      (hwrite : writeSecret A fleet kek draw s p value = .ok s')
  | cleared {p : Place} (hwrites : a.writes = some (p, none)) (hdelete : s' = (deleteSecret s p).2)
  | ensured {kek : Key} {draw : Draw ν} {t : Slug} (hwrites : a.writes = none)
      (hensure : ensureTenantDEKTx A fleet kek draw s t = .ok s')
  | rotated {keyring newKeyring : Option Key} {nonce : Slug → ν} {res : RotationResult} (hwrites : a.writes = none)
      (hrotation : a.isRotation = true) (hrotate : rotateRootKEK A keyring newKeyring nonce s = .ok (res, s'))

theorem Action.run_outcome {a : Action ν} (hrun : a.run A fleet s = .ok s') : Outcome A fleet s a s' := by
  cases a with
  | setSecret keyring draw tenantID devicePK field value =>
      simp only [Action.run, Secrets.setSecret] at hrun
      split at hrun
      · cases hrun
      · split at hrun
        · cases hrun
        · split at hrun
          · cases hrun
          · exact .wrote rfl (fun hnone => by cases hnone) hrun
  | setTenantSecret keyring draw tenantID field value =>
      simp only [Action.run, Secrets.setTenantSecret] at hrun
      split at hrun
      · cases hrun
      · split at hrun
        · cases hrun
        · split at hrun
          · cases hrun
          · next hlegacy => exact .wrote rfl (fun _ => hlegacy) hrun
  | clearDeviceSecret tenantID devicePK field =>
      obtain ⟨r, hclear, rfl⟩ := map_eq_ok hrun
      simp only [Secrets.clearDeviceSecret] at hclear
      split at hclear
      · cases hclear
      · split at hclear
        · cases hclear
        · obtain rfl := Except.ok.inj hclear
          exact .cleared rfl rfl
  | clearTenantSecret tenantID field =>
      obtain ⟨r, hclear, rfl⟩ := map_eq_ok hrun
      simp only [Secrets.clearTenantSecret] at hclear
      split at hclear
      · cases hclear
      · obtain rfl := Except.ok.inj hclear
        exact .cleared rfl rfl
  | ensureTenantDEK keyring draw tenantID =>
      simp only [Action.run, Secrets.ensureTenantDEK] at hrun
      split at hrun
      · cases hrun
      · exact .ensured rfl hrun
  | rotateRootKEK keyring newKeyring nonce =>
      obtain ⟨r, hrotate, rfl⟩ := map_eq_ok hrun
      exact .rotated rfl rfl hrotate

/-- A call that succeeds does to the values what it is for. -/
theorem Represents.run (h : Represents A fleet m s) {a : Action ν} (hrun : a.run A fleet s = .ok s') :
    Represents A fleet (m.after (.done a)) s' := by
  cases Action.run_outcome hrun with
  | wrote hwrites hnamed hwrite =>
      rw [Values.after, hwrites]
      exact h.write hnamed hwrite
  | cleared hwrites hdelete =>
      rw [Values.after, hwrites, hdelete]
      exact h.delete _
  | ensured hwrites hensure =>
      rw [Values.after, hwrites]
      exact h.keeps (ensureTenantDEKTx_spec hensure)
  | rotated hwrites _ hrotate =>
      rw [Values.after, hwrites]
      exact h.keeps (rotateRootKEK_spec hrotate)

/-- In every run the store holds the values that were written last. -/
theorem represents_of_run {log : List (Event ν)} (hrun : (system A fleet).Run emptyStore log s) :
    Represents A fleet (latest log) s := by
  refine hrun.invariant (fun log s => Represents A fleet (latest log) s) .empty fun log s a s' e h _ hstep => ?_
  rw [latest_append]
  have hstep := Option.some.inj hstep
  cases hresult : a.run A fleet s with
  | ok s₁ =>
      rw [hresult] at hstep
      obtain ⟨rfl, rfl⟩ := Prod.mk.inj hstep
      exact h.run hresult
  | error e =>
      rw [hresult] at hstep
      obtain ⟨rfl, rfl⟩ := Prod.mk.inj hstep
      exact h

end values

section reads

variable {ν β : Type} {A : Gcm ν β} {fleet : Fleet} {s s' : Store β} {m : Values} {t : Slug} {d : UUID} {f : String}
  {kek : Key} {draw : Draw ν}

theorem mem_visible {r : SecretRow β} : r ∈ s.visible t ↔ r ∈ s.secrets ∧ r.tenantID = t := by
  rw [Store.visible, List.mem_filter, decide_eq_true_eq]
  rfl

/-- The row that the query of `Resolve` finds. -/
inductive Effective (s : Store β) (t : Slug) (d : UUID) (f : String) : Option (SecretRow β) → Prop
  | override (r : SecretRow β) (hr : r ∈ s.secrets) (hplace : r.toPlace = ⟨t, some d, f⟩) : Effective s t d f (some r)
  | tenant (r : SecretRow β) (hnot : ∀ x ∈ s.secrets, x.toPlace ≠ ⟨t, some d, f⟩) (hfield : f ≠ legacyWifiPassword)
      (hr : r ∈ s.secrets) (hplace : r.toPlace = ⟨t, none, f⟩) : Effective s t d f (some r)
  | unset (hnot : ∀ x ∈ s.secrets, x.toPlace ≠ ⟨t, some d, f⟩)
      (hnone : f = legacyWifiPassword ∨ ∀ x ∈ s.secrets, x.toPlace ≠ ⟨t, none, f⟩) : Effective s t d f none

theorem effectiveRow_cases (s : Store β) (t : Slug) (d : UUID) (f : String) :
    Effective s t d f (s.effectiveRow t d f) := by
  unfold Store.effectiveRow
  dsimp only
  set rows := (s.visible t).filter fun r =>
    r.field = f && (r.devicePK = some d || r.devicePK = none && !decide (f = legacyWifiPassword)) with hrows
  have hmem : ∀ r, r ∈ rows ↔ r ∈ s.secrets ∧ (r.toPlace = ⟨t, some d, f⟩ ∨
      r.toPlace = ⟨t, none, f⟩ ∧ f ≠ legacyWifiPassword) := by
    intro r
    obtain ⟨⟨t', d', f'⟩, c⟩ := r
    rw [hrows, List.mem_filter, mem_visible, and_assoc]
    simp only [Bool.and_eq_true, Bool.or_eq_true, decide_eq_true_eq, Bool.not_eq_true', decide_eq_false_iff_not,
      Place.mk.injEq]
    tauto
  cases hdevice : rows.filter fun r => r.devicePK.isSome with
  | cons r rest =>
      have hr : r ∈ rows.filter fun r => r.devicePK.isSome := by rw [hdevice]; exact List.mem_cons_self
      obtain ⟨hr, hsome⟩ := List.mem_filter.mp hr
      obtain ⟨hstored, hplace | ⟨hplace, -⟩⟩ := (hmem r).mp hr
      · exact .override r hstored hplace
      · rw [show r.devicePK = none by rw [hplace]] at hsome
        cases hsome
  | nil =>
      have hnot : ∀ x ∈ s.secrets, x.toPlace ≠ ⟨t, some d, f⟩ := by
        intro x hx hplace
        refine List.filter_eq_nil_iff.mp hdevice x ((hmem x).mpr ⟨hx, .inl hplace⟩) ?_
        rw [show x.devicePK = some d by rw [hplace]]
        rfl
      rw [List.nil_append]
      cases hdefault : rows.filter fun r => r.devicePK.isNone with
      | cons r rest =>
          have hr : r ∈ rows.filter fun r => r.devicePK.isNone := by rw [hdefault]; exact List.mem_cons_self
          obtain ⟨hstored, hplace | ⟨hplace, hfield⟩⟩ := (hmem r).mp (List.mem_filter.mp hr).1
          · exact absurd hplace (hnot r hstored)
          · exact .tenant r hnot hfield hstored hplace
      | nil =>
          refine .unset hnot ?_
          by_cases hfield : f = legacyWifiPassword
          · exact .inl hfield
          · refine .inr fun x hx hplace => ?_
            refine List.filter_eq_nil_iff.mp hdefault x ((hmem x).mpr ⟨hx, .inr ⟨hplace, hfield⟩⟩) ?_
            rw [show x.devicePK = none by rw [hplace]]
            rfl

/-- A place without a row has no value. -/
theorem Represents.eq_none (h : Represents A fleet m s) {p : Place} (hnot : ∀ r ∈ s.secrets, r.toPlace ≠ p) :
    m p = none := by
  cases hp : m p with
  | none => rfl
  | some value =>
      obtain ⟨r, hr, hplace⟩ := h.complete p value hp
      exact absurd hplace (hnot r hr)

/-- What `Resolve` answers to a service with this root key. -/
theorem Represents.resolve (h : Represents A fleet m s) (hfield : validSecretField f = true) :
    Secrets.resolve A fleet (some kek) draw s t d f = match m.effective t d f with
      | none => .ok (([], .unset), s)
      | some r => if wrappedUnder A s.tenantDEK t kek then .ok (r, s) else .error .unwrap := by
  have hrow := effectiveRow_cases s t d f
  unfold Secrets.resolve Values.effective
  simp only [hfield, Bool.true_eq_false, if_false]
  generalize hfound : s.effectiveRow t d f = found at hrow
  cases hrow with
  | override r hr hplace =>
      obtain ⟨value, dek, nonce, hvalue, hdek, hciphertext⟩ := h.sound r hr
      have htenant : r.tenantID = t := by rw [hplace]
      rw [htenant] at hdek
      rw [hplace] at hvalue
      have hdecrypt : decryptSecret A dek r.ciphertext (secretAAD t d f) = some value := by
        rw [hciphertext, hplace]
        exact A.decrypt_encrypt ..
      simp only [hvalue, tenantDEK_eq hdek, show r.devicePK = some d by rw [hplace], Option.isSome_some, if_true]
      split
      · simp only [Except.bind, hdecrypt]
      · rfl
  | tenant r hnot hlegacy hr hplace =>
      obtain ⟨value, dek, nonce, hvalue, hdek, hciphertext⟩ := h.sound r hr
      have htenant : r.tenantID = t := by rw [hplace]
      rw [htenant] at hdek
      rw [hplace] at hvalue
      have hdecrypt : decryptSecret A dek r.ciphertext (tenantSecretAAD t f) = some value := by
        rw [hciphertext, hplace]
        exact A.decrypt_encrypt ..
      simp only [h.eq_none hnot, hlegacy, if_false, hvalue, Option.map_some, tenantDEK_eq hdek,
        show r.devicePK = none by rw [hplace], Option.isSome_none, Bool.false_eq_true]
      split
      · simp only [Except.bind, hdecrypt]
      · rfl
  | unset hnot hnone =>
      rw [h.eq_none hnot]
      rcases hnone with hlegacy | hnone
      · simp only [hlegacy, if_true]
      · simp only [h.eq_none hnone, Option.map_none, ite_self]

/-- The map after all rows, whatever their order. -/
theorem originStatus_eq (rows : List (SecretRow β)) (f : String) : originStatus rows f =
    if rows.any fun r => r.field = f && r.devicePK.isSome then some .override
    else if rows.any fun r => r.field = f then some .tenant
    else if f ∈ scalarSecretFields then some .unset else none := by
  induction rows using List.reverseRecOn with
  | nil => rfl
  | append_singleton rows r ih =>
      have hlast : originStatus (rows ++ [r]) = scanOrigin (originStatus rows) r := by
        rw [originStatus, List.foldl_append]
        rfl
      rw [hlast, scanOrigin]
      simp only [List.any_append, List.any_cons, List.any_nil, Bool.or_false]
      by_cases hown : r.field = f
      · subst hown
        cases hdevice : r.devicePK with
        | some d => simp
        | none =>
            by_cases hover : (rows.any fun x => x.field = r.field && x.devicePK.isSome) = true
            · rw [if_pos hover] at ih
              simp [ih, hover]
            · rw [if_neg hover] at ih
              have hne : originStatus rows r.field ≠ some .override := by
                rw [ih]
                split
                · decide
                · split
                  · decide
                  · exact (Option.some_ne_none _).symm
              simp [hne, hover]
      · have hother : ∀ o, Function.update (originStatus rows) r.field o f = originStatus rows f :=
          fun o => Function.update_of_ne (Ne.symm hown) _ _
        rw [apply_ite (fun out : String → Option SecretOrigin => out f),
          apply_ite (fun out : String → Option SecretOrigin => out f), hother, hother, ite_self, ite_self, ih]
        simp [hown]

/-- The origin that the page shows is the one of the value that is pushed. -/
theorem Represents.originStatus (h : Represents A fleet m s) {rows : List (SecretRow β)}
    (hrows : rows.Perm (s.originRows t d)) :
    (Secrets.originStatus rows f).getD .unset = (m.effective t d f).elim .unset Prod.snd := by
  have hmem : ∀ r, r ∈ rows ↔ r ∈ s.secrets ∧ r.tenantID = t ∧ (r.devicePK = some d ∨ r.devicePK = none) := by
    intro r
    rw [hrows.mem_iff, Store.originRows, List.mem_filter, mem_visible, and_assoc]
    simp only [Bool.or_eq_true, decide_eq_true_eq]
  have hplaceOf : ∀ {r : SecretRow β} {d' : Option UUID}, r.toPlace = ⟨t, d', f⟩ →
      r.tenantID = t ∧ r.devicePK = d' ∧ r.field = f := by
    intro r d' hplace
    exact Place.mk.inj hplace
  rw [originStatus_eq]
  have hrow := effectiveRow_cases s t d f
  unfold Values.effective
  generalize s.effectiveRow t d f = found at hrow
  cases hrow with
  | override r hr hplace =>
      obtain ⟨value, -, -, hvalue, -, -⟩ := h.sound r hr
      obtain ⟨htenant, hdevice, hown⟩ := hplaceOf hplace
      rw [hplace] at hvalue
      have hany : (rows.any fun r => r.field = f && r.devicePK.isSome) = true := by
        refine List.any_eq_true.mpr ⟨r, (hmem r).mpr ⟨hr, htenant, .inl hdevice⟩, ?_⟩
        simp [hdevice, hown]
      rw [if_pos hany, hvalue]
      rfl
  | tenant r hnot hlegacy hr hplace =>
      obtain ⟨value, -, -, hvalue, -, -⟩ := h.sound r hr
      obtain ⟨htenant, hdevice, hown⟩ := hplaceOf hplace
      rw [hplace] at hvalue
      have hnone : ¬ (rows.any fun r => r.field = f && r.devicePK.isSome) = true := by
        intro hany
        obtain ⟨x, hx, hxrow⟩ := List.any_eq_true.mp hany
        obtain ⟨hstored, hxtenant, hxdevice | hxdevice⟩ := (hmem x).mp hx
        · refine hnot x hstored ?_
          rw [← hxtenant, ← hxdevice, ← of_decide_eq_true (Bool.and_eq_true_iff.mp hxrow).1]
        · rw [hxdevice] at hxrow
          exact absurd (Bool.and_eq_true_iff.mp hxrow).2 (by decide)
      have hany : (rows.any fun r => r.field = f) = true :=
        List.any_eq_true.mpr ⟨r, (hmem r).mpr ⟨hr, htenant, .inr hdevice⟩, decide_eq_true hown⟩
      rw [if_neg hnone, if_pos hany, h.eq_none hnot]
      simp [hlegacy, hvalue]
  | unset hnot hnone =>
      have hno : ¬ (rows.any fun r => r.field = f) = true := by
        intro hany
        obtain ⟨x, hx, hxfield⟩ := List.any_eq_true.mp hany
        obtain ⟨hstored, hxtenant, hxdevice | hxdevice⟩ := (hmem x).mp hx
        · refine hnot x hstored ?_
          rw [← hxtenant, ← hxdevice, ← of_decide_eq_true hxfield]
        · rcases hnone with hlegacy | hnone
          · exact h.named x hstored hxdevice ((of_decide_eq_true hxfield).trans hlegacy)
          · refine hnone x hstored ?_
            rw [← hxtenant, ← hxdevice, ← of_decide_eq_true hxfield]
      have hno' : ¬ (rows.any fun r => r.field = f && r.devicePK.isSome) = true := by
        intro hany
        obtain ⟨x, hx, hxrow⟩ := List.any_eq_true.mp hany
        exact hno (List.any_eq_true.mpr ⟨x, hx, (Bool.and_eq_true_iff.mp hxrow).1⟩)
      rw [if_neg hno', if_neg hno, h.eq_none hnot]
      have heffective : (if f = legacyWifiPassword then none
          else (m ⟨t, none, f⟩).map fun value => (value, SecretOrigin.tenant)) = none := by
        rcases hnone with hlegacy | hnone
        · exact if_pos hlegacy
        · rw [h.eq_none hnone, Option.map_none, ite_self]
      simp only [heffective, Option.elim_none]
      split
      · rfl
      · rfl

/-- A ciphertext does not decrypt at another place, under any key. -/
theorem Represents.relocated (h : Represents A fleet m s) {r : SecretRow β} (hr : r ∈ s.secrets) {p : Place}
    (hne : p ≠ r.toPlace) (dek : Key) : decryptSecret A dek r.ciphertext p.aad = none := by
  obtain ⟨value, dek', nonce, -, -, hciphertext⟩ := h.sound r hr
  rw [hciphertext, decryptSecret, encryptSecret]
  exact Aead.decrypt_of_ad_ne fun haad => hne (Place.aad_injective haad)

/-- A value is held under a DEK. -/
theorem Represents.hasDEK (h : Represents A fleet m s) {r : List UInt8 × SecretOrigin}
    (heffective : m.effective t d f = some r) : ∃ dek, s.HasDEK A t dek := by
  have hplace : ∃ p value, m p = some value ∧ p.tenantID = t := by
    unfold Values.effective at heffective
    split at heffective
    · next value hvalue => exact ⟨_, value, hvalue, rfl⟩
    · split at heffective
      · cases heffective
      · obtain ⟨value, hvalue, -⟩ := Option.map_eq_some_iff.mp heffective
        exact ⟨_, value, hvalue, rfl⟩
  obtain ⟨p, value, hvalue, rfl⟩ := hplace
  obtain ⟨x, hx, rfl⟩ := h.complete p value hvalue
  obtain ⟨-, dek, -, -, hdek, -⟩ := h.sound x hx
  exact ⟨dek, hdek⟩

end reads

section history

variable {ν β : Type} {A : Gcm ν β} {fleet : Fleet} {s s' : Store β} {log : List (Event ν)} {a : Action ν} {p : Place}
  {t : Slug} {kek newKEK : Key} {draw : Draw ν}

theorem writeSecret_find {value : List UInt8} (hwrite : writeSecret A fleet kek draw s p value = .ok s')
    {row : DekRow β} (hrow : s.tenantDEK.find t = some row) : s'.tenantDEK.find t = some row := by
  obtain ⟨⟨dek, s₁⟩, hdek, hupsert⟩ := bind_eq_ok hwrite
  obtain ⟨s₂, hensure, hdek⟩ := bind_eq_ok hdek
  have hsame : s₁ = s₂ := by
    split at hdek
    · cases hdek
    · split at hdek
      · cases hdek
      · exact (Prod.mk.inj (Except.ok.inj hdek)).2.symm
  simp only [upsertSecret] at hupsert
  split at hupsert
  · cases hupsert
  · split at hupsert
    · cases hupsert
    · obtain rfl := Except.ok.inj hupsert
      rw [hsame]
      exact ensureTenantDEKTx_find hensure hrow

/-- Only a rotation changes the key that a DEK is wrapped under. -/
theorem Action.run_find (hrotation : a.isRotation = false) (hrun : a.run A fleet s = .ok s') {row : DekRow β}
    (hrow : s.tenantDEK.find t = some row) : s'.tenantDEK.find t = some row := by
  cases Action.run_outcome hrun with
  | wrote _ _ hwrite => exact writeSecret_find hwrite hrow
  | cleared _ hdelete =>
      rw [hdelete]
      exact hrow
  | ensured _ hensure => exact ensureTenantDEKTx_find hensure hrow
  | rotated _ hrotated _ => cases hrotation.symm.trans hrotated

/-- The call does not write the place. -/
def Action.Spares (a : Action ν) (p : Place) : Prop := ∀ value, a.writes ≠ some (p, value)

theorem Values.after_spares {m : Values} (hspares : a.Spares p) : m.after (.done a) p = m p := by
  simp only [after]
  cases hwrites : a.writes with
  | none => rfl
  | some w =>
      obtain ⟨q, value⟩ := w
      exact Function.update_of_ne (fun hpq => hspares value (by rw [hwrites, hpq])) _ _

theorem Values.effective_spares {m : Values} {d : UUID} {f : String} (hdevice : a.Spares ⟨t, some d, f⟩)
    (htenant : a.Spares ⟨t, none, f⟩) : (m.after (.done a)).effective t d f = m.effective t d f := by
  rw [effective, effective, after_spares hdevice, after_spares htenant]

/-- After a history: what `Resolve` and `OriginStatus` answer, what other calls leave of it, and what becomes of a
ciphertext that is copied. -/
structure SecretsHold (A : Gcm ν β) (fleet : Fleet) (log : List (Event ν)) (s : Store β) : Prop where
  resolve : ∀ kek draw t d f, validSecretField f = true → Secrets.resolve A fleet (some kek) draw s t d f =
    match (latest log).effective t d f with
    | none => .ok (([], .unset), s)
    | some r => if wrappedUnder A s.tenantDEK t kek then .ok (r, s) else .error .unwrap
  origin : ∀ t d f rows, rows.Perm (s.originRows t d) →
    (originStatus rows f).getD .unset = ((latest log).effective t d f).elim .unset Prod.snd
  others : ∀ (a : Action ν) s', a.run A fleet s = .ok s' → a.isRotation = false → ∀ t d f, a.Spares ⟨t, some d, f⟩ →
    a.Spares ⟨t, none, f⟩ → validSecretField f = true → ∀ kek draw,
      (Secrets.resolve A fleet (some kek) draw s' t d f).map Prod.fst =
        (Secrets.resolve A fleet (some kek) draw s t d f).map Prod.fst
  rotated : ∀ keyring newKEK nonce res s', rotateRootKEK A keyring (some newKEK) nonce s = .ok (res, s') →
    ∀ t d f, validSecretField f = true → ∀ draw, Secrets.resolve A fleet (some newKEK) draw s' t d f =
      .ok (((latest log).effective t d f).getD ([], .unset), s')
  relocated : ∀ r ∈ s.secrets, ∀ p, p ≠ r.toPlace → ∀ dek, decryptSecret A dek r.ciphertext p.aad = none

theorem Represents.others {m : Values} (h : Represents A fleet m s) (hrun : a.run A fleet s = .ok s')
    (hrotation : a.isRotation = false) {d : UUID} {f : String} (hdevice : a.Spares ⟨t, some d, f⟩)
    (htenant : a.Spares ⟨t, none, f⟩) (hfield : validSecretField f = true) :
    (Secrets.resolve A fleet (some kek) draw s' t d f).map Prod.fst =
      (Secrets.resolve A fleet (some kek) draw s t d f).map Prod.fst := by
  rw [(h.run hrun).resolve hfield, h.resolve hfield, Values.effective_spares hdevice htenant]
  cases heffective : m.effective t d f with
  | none => rfl
  | some r =>
      obtain ⟨dek, row, hrow, -⟩ := h.hasDEK heffective
      have hsame : wrappedUnder A s'.tenantDEK t kek = wrappedUnder A s.tenantDEK t kek := by
        rw [wrappedUnder, wrappedUnder, Action.run_find hrotation hrun hrow, hrow]
      dsimp only
      rw [hsame]
      split
      · rfl
      · rfl

theorem Represents.rotated {m : Values} (h : Represents A fleet m s) {keyring : Option Key} {nonce : Slug → ν}
    {res : RotationResult} (hrotate : rotateRootKEK A keyring (some newKEK) nonce s = .ok (res, s')) {d : UUID}
    {f : String} (hfield : validSecretField f = true) : Secrets.resolve A fleet (some newKEK) draw s' t d f =
      .ok ((m.effective t d f).getD ([], .unset), s') := by
  rw [(h.keeps (rotateRootKEK_spec hrotate)).resolve hfield]
  cases heffective : m.effective t d f with
  | none => rfl
  | some r =>
      obtain ⟨dek, row, hrow, -⟩ := h.hasDEK heffective
      have hnew : wrappedUnder A s'.tenantDEK t newKEK = true := by
        unfold rotateRootKEK at hrotate
        split at hrotate
        · cases hrotate
        · next hnone => cases hnone
        · next hsome =>
            obtain rfl := Option.some.inj hsome
            obtain ⟨acc', hloop, heq⟩ := map_eq_ok hrotate
            obtain ⟨-, rfl⟩ := Prod.mk.inj heq
            refine rotateLoop_wrapped s.tenantDEK.nodup (fun row hrow => KeyedTable.find_of_mem hrow) hloop t (.inr ?_)
            rw [← KeyedTable.find_key hrow]
            exact List.mem_map_of_mem (KeyedTable.find_mem hrow)
      dsimp only
      rw [if_pos hnew]
      rfl

/-- After every history: a service that holds the root key of the tenant resolves to the value that was written last,
the device's own before the tenant's; with another root key it gets an error, and no value. -/
theorem secrets_hold (hrun : (system A fleet).Run emptyStore log s) : SecretsHold A fleet log s := by
  have h := represents_of_run hrun
  exact ⟨fun _ _ _ _ _ hfield => h.resolve hfield, fun _ _ _ _ hrows => h.originStatus hrows,
    fun _ _ hrun hrotation _ _ _ hdevice htenant hfield _ _ => h.others hrun hrotation hdevice htenant hfield,
    fun _ _ _ _ _ hrotate _ _ _ hfield _ => h.rotated hrotate hfield, fun _ hr _ hne => h.relocated hr hne⟩

end history

/-- A tenant with one device. -/
def oneFleet : Fleet := ⟨[acme], fun d => if d = 7 then some acme else none⟩

/-- A default, the override of a device, and a rotation of the root key. -/
def overridden : List (Action Unit) :=
  [.setTenantSecret (some oldKEK) firstDraw acme "mqtt.password" [1],
    .setSecret (some oldKEK) firstDraw acme 7 "mqtt.password" [2],
    .rotateRootKEK (some oldKEK) (some newKEK) fun _ => ()]

theorem cleared_runs : ((system symbolicGcm oneFleet).execIf (fun _ _ _ => True) [] emptyStore
    (overridden ++ [.clearDeviceSecret acme 7 "mqtt.password"])).any
      (fun r => (latest r.1).effective acme 7 "mqtt.password" = some ([1], .tenant)) = true := by
  decide +kernel

theorem cleared_hold : ∃ log s, (system symbolicGcm oneFleet).Run emptyStore log s ∧
    (latest log).effective acme 7 "mqtt.password" = some ([1], .tenant) ∧ SecretsHold symbolicGcm oneFleet log s := by
  obtain ⟨log, s, hrun, htest⟩ := Machine.exists_runIf_of_any cleared_runs
  exact ⟨log, s, hrun, of_decide_eq_true htest, secrets_hold hrun⟩

theorem overridden_runs : ((system symbolicGcm oneFleet).execIf (fun _ _ _ => True) [] emptyStore overridden).any
    (fun r => (latest r.1).effective acme 7 "mqtt.password" = some ([2], .override) &&
      !wrappedUnder symbolicGcm r.2.tenantDEK acme oldKEK) = true := by
  decide +kernel

/-- The service that has rotated goes on with the old key, and does not resolve the override. -/
theorem overridden_unresolved : ∃ log s, (system symbolicGcm oneFleet).Run emptyStore log s ∧
    (latest log).effective acme 7 "mqtt.password" = some ([2], .override) ∧
    ∀ draw, resolve symbolicGcm oneFleet (some oldKEK) draw s acme 7 "mqtt.password" = .error .unwrap := by
  obtain ⟨log, s, hrun, htest⟩ := Machine.exists_runIf_of_any overridden_runs
  obtain ⟨heffective, hwrapped⟩ := Bool.and_eq_true_iff.mp htest
  have heffective := of_decide_eq_true heffective
  rw [Bool.not_eq_true'] at hwrapped
  refine ⟨log, s, hrun, heffective, fun draw => ?_⟩
  rw [(represents_of_run hrun).resolve (by decide), heffective]
  exact if_neg (Bool.eq_false_iff.mp hwrapped)

end ThesadaApp.Secrets
