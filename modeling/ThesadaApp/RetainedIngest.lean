import ThesadaApp.MachineRun
import ThesadaApp.MqttHandlers

/-!
Retained messages are what the broker still holds, and say nothing of whether a device is alive. They leave the stored
state as it is but for the columns a status or an info message reports. A deleted device comes back only if its
tombstone cannot be looked up, for then the message goes on to its handler.
-/

namespace ThesadaApp.Ingest

open ConfigSecrets

inductive Action where
  | message (m : Message) (a : Answers)
  /-- The rest of the app writes the tables. -/
  | change (s : Store)

inductive Event where
  | delivered (m : Message) (a : Answers) (before after : Store)
  | changed

def step (cfg : Config) (s : Store) : Action → Option (Store × Event)
  | .message m a => some (onMessage cfg s a m, .delivered m a s (onMessage cfg s a m))
  | .change s' => some (s', .changed)

def machine (cfg : Config) : Machine Store Action Event := ⟨step cfg⟩

/-- What a message that is not live leaves of the stored state. -/
structure Kept (s s' : Store) : Prop where
  device : ∀ k d, s.devices.find k = some d →
    ∃ d', s'.devices.find k = some d' ∧ d'.id = d.id ∧ d'.lastSeenAt = d.lastSeenAt
  unseen : ∀ k d', s.devices.find k = none → s'.devices.find k = some d' → d'.lastSeenAt = none
  deleted : ∀ tenant device, s.isTombstoned tenant device = true → s.devices.find (tenant, device) = none →
    s'.devices.find (tenant, device) = none
  tombstones : s'.tombstones = s.tombstones
  alerts : s'.alerts = s.alerts
  telemetry : s'.telemetry = s.telemetry
  files : s'.files = s.files

/-- The tenant of the topic is not known, or the device is paired and not with it. -/
def Unattributed (s : Store) (a : Answers) (m : Message) : Prop :=
  ∃ p, parseTopic m.topic = some p ∧
    (a.existsBySlug p.tenant = false ∨
      s.activePairingTenants p.device ≠ [] ∧ p.tenant ∉ s.activePairingTenants p.device)

/-- What is to hold of each message. -/
def Event.Inert : Event → Prop
  | .delivered m a s s' => (m.retained = true → Kept s s') ∧ (Unattributed s a m → s' = s)
  | .changed => True

/-- The message has the form of a status or an info message with a map. -/
def reports (cfg : Config) (p : ParsedTopic) (payload : List UInt8) : Bool :=
  p.sub = "" && (p.kind = .info || p.kind = .status && presence payload = none) && (payloadMap cfg.F payload).isSome

/-- The upsert of a key is not refused. -/
def upsertAllowed (cfg : Config) (s : Store) (a : Answers) (tenant device : String) : Bool :=
  !a.deviceFails && s.quotaAllowDevice tenant device cfg.quotaDevices && (s.upsertTarget a.fresh tenant device).isSome

/-- A retained status or info message of a deleted device, whose tombstone cannot be looked up. -/
def resurrects (cfg : Config) (s : Store) (a : Answers) (m : Message) : Bool :=
  m.retained && a.tombstoneFails && (admitted (s.lookups a) m).any fun p =>
    s.isTombstoned p.tenant p.device && (s.devices.find (p.tenant, p.device)).isNone && reports cfg p m.payload &&
      upsertAllowed cfg s a p.tenant p.device

/-- No message resurrects a device. -/
def TombstoneSeen (cfg : Config) (_log : List Event) (s : Store) : Action → Prop
  | .message m a => resurrects cfg s a m = false
  | .change _ => True

instance (cfg : Config) (log : List Event) (s : Store) (x : Action) : Decidable (TombstoneSeen cfg log s x) := by
  cases x with
  | message m a => exact inferInstanceAs (Decidable (resurrects cfg s a m = false))
  | change s' => exact inferInstanceAs (Decidable True)

section messages

variable {cfg : Config} {s s' s'' : Store} {a : Answers} {m : Message} {p : ParsedTopic} {d : DeviceRow}
  {tenant device : String} {r : Reported} {payload : List UInt8}

theorem Kept.refl (s : Store) : Kept s s where
  device _ d h := ⟨d, h, rfl, rfl⟩
  unseen _ _ hnone hsome := by
    rw [hnone] at hsome
    cases hsome
  deleted _ _ _ h := h
  tombstones := rfl
  alerts := rfl
  telemetry := rfl
  files := rfl

theorem Kept.trans (h : Kept s s') (h' : Kept s' s'') : Kept s s'' where
  device k d hd := by
    obtain ⟨d', hd', hid, hseen⟩ := h.device k d hd
    obtain ⟨d'', hd'', hid', hseen'⟩ := h'.device k d' hd'
    exact ⟨d'', hd'', hid'.trans hid, hseen'.trans hseen⟩
  unseen k d'' hnone hsome := by
    cases hmid : s'.devices.find k with
    | none => exact h'.unseen k d'' hmid hsome
    | some d' =>
        obtain ⟨x, hx, -, hseen⟩ := h'.device k d' hmid
        obtain rfl : x = d'' := Option.some.inj (hx.symm.trans hsome)
        exact hseen.trans (h.unseen k d' hnone hmid)
  deleted tenant device htomb hnone := by
    refine h'.deleted tenant device ?_ (h.deleted tenant device htomb hnone)
    unfold Store.isTombstoned
    rw [h.tombstones]
    exact htomb
  tombstones := h'.tombstones.trans h.tombstones
  alerts := h'.alerts.trans h.alerts
  telemetry := h'.telemetry.trans h.telemetry
  files := h'.files.trans h.files

theorem upsertTarget_key {fresh : UUID} (h : s.upsertTarget fresh tenant device = some d) :
    d.key = (tenant, device) := by
  unfold Store.upsertTarget at h
  split at h
  · next old hold =>
      obtain rfl := Option.some.inj h
      exact KeyedTable.find_key hold
  · split at h
    · cases h
    · obtain ⟨t, ht, rfl⟩ := Option.map_eq_some_iff.mp h
      have hval : t.val = tenant := by simpa using List.find?_some ht
      simp [DeviceRow.key, newDevice, hval]

/-- A row that is inserted has not been seen. -/
theorem upsertTarget_unseen {fresh : UUID} (h : s.upsertTarget fresh tenant device = some d)
    (hnone : s.devices.find (tenant, device) = none) : d.lastSeenAt = none := by
  unfold Store.upsertTarget at h
  rw [hnone] at h
  dsimp only at h
  split at h
  · cases h
  · obtain ⟨t, -, rfl⟩ := Option.map_eq_some_iff.mp h
    rfl

/-- The tables after `UpsertSeen`. -/
def Store.report (s : Store) (d : DeviceRow) (r : Reported) : Store :=
  { s with devices := s.devices.upsert (d.report r) (fun old => old.report r) fun old => old.report_key r }

theorem upsertDevice_retained : s.upsertDevice cfg a tenant device r true =
    if upsertAllowed cfg s a tenant device then (s.upsertTarget a.fresh tenant device).map fun d => (s.report d r, d)
    else none := by
  unfold Store.upsertDevice Store.upsertCore upsertAllowed
  cases a.deviceFails with
  | true => simp
  | false =>
      cases s.quotaAllowDevice tenant device cfg.quotaDevices with
      | false => simp
      | true =>
          cases s.upsertTarget a.fresh tenant device with
          | none => rfl
          | some d => rfl

theorem find_report (k : String × String) : (s.report d r).devices.find k =
    if k = d.key then some (((s.devices.find k).elim d id).report r) else s.devices.find k := by
  have hfind := KeyedTable.find_upsert (t := s.devices) (r := d.report r) (fun old => old.report_key r) k
  rw [d.report_key r] at hfind
  refine hfind.trans ?_
  cases s.devices.find k <;> rfl

/-- `UpsertSeen` keeps the state unless it inserts the row of a deleted device. -/
theorem report_kept_iff {fresh : UUID} (h : s.upsertTarget fresh tenant device = some d) :
    Kept s (s.report d r) ↔ ¬ (s.isTombstoned tenant device = true ∧ s.devices.find (tenant, device) = none) := by
  have hkey := upsertTarget_key h
  constructor
  · rintro hkept ⟨htomb, hnone⟩
    have hafter := hkept.deleted tenant device htomb hnone
    rw [find_report, if_pos hkey.symm] at hafter
    cases hafter
  · intro hlive
    refine ⟨fun k old hold => ?_, fun k d' hnone hsome => ?_, fun t v htomb hnone => ?_, rfl, rfl, rfl, rfl⟩
    · rw [find_report, hold]
      split
      · exact ⟨old.report r, rfl, rfl, rfl⟩
      · exact ⟨old, rfl, rfl, rfl⟩
    · rw [find_report, hnone] at hsome
      split at hsome
      · next hk =>
          have hunseen : d.lastSeenAt = none := upsertTarget_unseen h (by rw [← hkey, ← hk]; exact hnone)
          obtain rfl := Option.some.inj hsome
          exact hunseen
      · cases hsome
    · rw [find_report, if_neg]
      · exact hnone
      · intro hk
        rw [hkey] at hk
        obtain ⟨rfl, rfl⟩ := Prod.mk.inj hk
        exact hlive ⟨htomb, hnone⟩

/-- What a retained message does behind the gates. -/
def replay (cfg : Config) (s : Store) (a : Answers) (p : ParsedTopic) (payload : List UInt8) : Store :=
  if reports cfg p payload then
    (s.upsertDevice cfg a p.tenant p.device (reported p.topicPrefix ((payloadMap cfg.F payload).getD .null)) true).elim s
      Prod.fst
  else s

theorem handleStatus_retained (hkind : p.kind = .status) (hsub : p.sub = "") :
    handleStatus cfg s a p.tenant p.device p.topicPrefix payload true = replay cfg s a p payload := by
  unfold handleStatus replay reports
  cases hpresence : presence payload with
  | some x => cases x <;> simp [hkind]
  | none =>
      cases payloadMap cfg.F payload with
      | none => simp
      | some status => simp [hkind, hsub]

theorem handleInfo_retained (hkind : p.kind = .info) (hsub : p.sub = "") :
    handleInfo cfg s a p.tenant p.device p.topicPrefix payload true = replay cfg s a p payload := by
  unfold handleInfo replay reports
  cases payloadMap cfg.F payload with
  | none => simp
  | some info =>
      simp only [hkind, hsub, Option.getD_some, Option.isSome_some, decide_true, Bool.true_or, Bool.and_true, if_true]
      cases s.upsertDevice cfg a p.tenant p.device (reported p.topicPrefix info) true with
      | none => rfl
      | some x => rfl

theorem handle_retained (h : m.retained = true) :
    handle cfg s a m (routeKind p m.retained) = replay cfg s a p m.payload := by
  have hother : p.kind ≠ .status → p.kind ≠ .info → replay cfg s a p m.payload = s := by
    intro hstatus hinfo
    simp [replay, reports, hstatus, hinfo]
  have hnested : p.sub ≠ "" → replay cfg s a p m.payload = s := by
    intro hsub
    simp [replay, reports, hsub]
  unfold routeKind
  cases hkind : p.kind with
  | status =>
      dsimp only
      split
      · next hsub => exact (congrArg _ h).trans (handleStatus_retained hkind hsub)
      · next hsub => exact (hnested hsub).symm
  | info =>
      dsimp only
      split
      · next hsub => exact (congrArg _ h).trans (handleInfo_retained hkind hsub)
      · next hsub =>
          rw [hnested hsub]
          split <;> rfl
  | alert =>
      rw [hother (by simp [hkind]) (by simp [hkind])]
      dsimp only
      split
      · simp [handle, handleAlert, h]
      · rfl
  | sensor =>
      rw [hother (by simp [hkind]) (by simp [hkind])]
      dsimp only
      split
      · simp [handle, handleSensor, h]
      · rfl

theorem onMessage_unadmitted (h : admitted (s.lookups a) m = none) : onMessage cfg s a m = s := by
  unfold onMessage Store.clearTombstone
  rw [route_eq, h]
  rfl

theorem onMessage_retained (h : m.retained = true) (hp : admitted (s.lookups a) m = some p) :
    onMessage cfg s a m =
      if (s.lookups a).isTombstoned p.tenant p.device = some true then s else replay cfg s a p m.payload := by
  have hkeep : s.clearTombstone a m = s := by simp [Store.clearTombstone, hp, h]
  unfold onMessage
  rw [hkeep, route_eq, hp]
  dsimp only
  split
  · next htomb => rw [if_pos htomb.1]; rfl
  · next htomb =>
      have hlive : (s.lookups a).isTombstoned p.tenant p.device ≠ some true := fun hx => htomb ⟨hx, h⟩
      rw [if_neg hlive, handle_retained h]

theorem lookups_isTombstoned : (s.lookups a).isTombstoned tenant device = some true ↔
    a.tombstoneFails = false ∧ s.isTombstoned tenant device = true := by
  cases hfails : a.tombstoneFails <;> simp [Store.lookups, hfails]

theorem replay_kept_iff : Kept s (replay cfg s a p payload) ↔
    ¬ (s.isTombstoned p.tenant p.device = true ∧ s.devices.find (p.tenant, p.device) = none ∧
      reports cfg p payload = true ∧ upsertAllowed cfg s a p.tenant p.device = true) := by
  unfold replay
  split
  · next hreports =>
      rw [upsertDevice_retained]
      split
      · next hallowed =>
          obtain ⟨d, hd⟩ : ∃ d, s.upsertTarget a.fresh p.tenant p.device = some d :=
            Option.isSome_iff_exists.mp (Bool.and_eq_true_iff.mp hallowed).2
          simp only [hd, Option.map_some, Option.elim_some, report_kept_iff hd, hreports, hallowed, and_true]
      · next hrefused => simp [Kept.refl, hrefused]
  · next hreports => simp [Kept.refl, hreports]

/-- A retained message keeps the state unless it resurrects a device. -/
theorem onMessage_kept_iff (h : m.retained = true) :
    Kept s (onMessage cfg s a m) ↔ resurrects cfg s a m = false := by
  unfold resurrects
  cases hp : admitted (s.lookups a) m with
  | none => simp [onMessage_unadmitted hp, Kept.refl]
  | some p =>
      rw [onMessage_retained h hp]
      split
      · next htomb =>
          obtain ⟨hseen, -⟩ := lookups_isTombstoned.mp htomb
          simp [Kept.refl, hseen]
      · next htomb =>
          rw [replay_kept_iff]
          rw [lookups_isTombstoned] at htomb
          have hfails : s.isTombstoned p.tenant p.device = true → a.tombstoneFails = true := by
            intro hx
            by_contra hne
            exact htomb ⟨by simpa using hne, hx⟩
          rw [← Bool.not_eq_true, not_iff_not]
          simp only [h, Option.any_some, Bool.true_and, Bool.and_eq_true, Option.isNone_iff_eq_none]
          constructor
          · rintro ⟨hdeleted, hnone, hreports, hallowed⟩
            exact ⟨hfails hdeleted, ⟨⟨hdeleted, hnone⟩, hreports⟩, hallowed⟩
          · rintro ⟨-, ⟨⟨hdeleted, hnone⟩, hreports⟩, hallowed⟩
            exact ⟨hdeleted, hnone, hreports, hallowed⟩

theorem onMessage_unattributed (h : Unattributed s a m) : onMessage cfg s a m = s := by
  obtain ⟨p, hparse, hout⟩ := h
  refine onMessage_unadmitted ?_
  unfold admitted
  rw [hparse, Option.filter_some, if_neg]
  unfold passes Store.lookups
  rcases hout with hunknown | ⟨hpaired, hother⟩
  · simp [hunknown]
  · cases a.pairingFails <;> simp [hpaired, hother]

end messages

/-- A plain float64 format, no caps, and payloads stored as null. -/
def testConfig : Config := ⟨oneDigit, 0, 0, fun _ => "", fun text => (Json.formOf text).map Json.Form.value⟩

/-- Device dev-1 of acme has been deleted. -/
def deletedStore : Store := ⟨[acme], ∅, [], [(acme, "dev-1")], [], [], DeviceFiles.noFiles⟩

/-- Only the tombstone look-up may fail. -/
def answers (tombstoneFails : Bool) : Answers where
  existsBySlug slug := slug = "acme"
  pairingFails := false
  tombstoneFails := tombstoneFails
  removalFails := false
  deviceFails := false
  storeFails := false
  getByIDFails := false
  latestSHAFails := false
  seenAt := 0
  storedAt := 0
  fresh := 7
  pulled := []

/-- The info message the broker has kept of it, with an empty map. -/
def keptInfo : Message := ⟨"thesada/acme/dev-1/info", [0x7B, 0x7D], true⟩

section runs

variable {cfg : Config} {s₀ s : Store} {log : List Event}

/-- Of a run in which no message resurrects a device, every message is inert as it is to be. -/
theorem inert_of_runIf (hrun : (machine cfg).RunIf (TombstoneSeen cfg) s₀ log s) : ∀ e ∈ log, e.Inert := by
  refine hrun.invariant (fun log _ => ∀ e ∈ log, e.Inert) (by simp) ?_
  intro log s x s' e ih hok hstep y hy
  rcases List.mem_append.mp hy with hold | hnew
  · exact ih y hold
  · obtain rfl := List.mem_singleton.mp hnew
    cases x with
    | message m a =>
        obtain ⟨-, rfl⟩ := Prod.mk.inj (Option.some.inj hstep)
        exact ⟨fun hretained => (onMessage_kept_iff hretained).mpr hok, onMessage_unattributed⟩
    | change s' =>
        obtain ⟨-, rfl⟩ := Prod.mk.inj (Option.some.inj hstep)
        trivial

/-- A reconnect: every message is one the broker has retained. -/
def Replay (cfg : Config) (log : List Event) (s : Store) (x : Action) : Prop :=
  TombstoneSeen cfg log s x ∧ ∃ m a, x = .message m a ∧ m.retained = true

theorem kept_of_replay (hrun : (machine cfg).RunIf (Replay cfg) s₀ log s) : Kept s₀ s := by
  refine hrun.invariant (fun _ s => Kept s₀ s) (Kept.refl s₀) ?_
  rintro log s x s' e ih ⟨hok, m, a, rfl, hretained⟩ hstep
  obtain ⟨rfl, -⟩ := Prod.mk.inj (Option.some.inj hstep)
  exact ih.trans ((onMessage_kept_iff hretained).mpr hok)

end runs

theorem reconnect_kept : ∃ log s, (machine testConfig).RunIf (TombstoneSeen testConfig) deletedStore log s ∧
    log.length = 2 ∧ ∀ e ∈ log, e.Inert := by
  have hexec : ((machine testConfig).execIf (TombstoneSeen testConfig) [] deletedStore
      [.message keptInfo (answers false), .message { keptInfo with retained := false } (answers true)]).any
      (fun x => x.1.length = 2) = true := by decide
  obtain ⟨log, s, hrun, hlength⟩ := Machine.exists_runIf_of_any hexec
  exact ⟨log, s, hrun, by simpa using hlength, inert_of_runIf hrun⟩

/-- The look-up of the tombstone fails, and the kept message inserts the device again. -/
theorem tombstoneFails_resurrects : ¬ ∀ (cfg : Config) (s₀ s : Store) (log : List Event),
    (machine cfg).Run s₀ log s → ∀ e ∈ log, e.Inert := by
  intro hall
  have hinert := hall _ _ _ _ (Machine.Run.one (M := machine testConfig) (s := deletedStore)
    (a := .message keptInfo (answers true)) rfl) _ (List.mem_singleton_self _)
  have hkept : resurrects testConfig deletedStore (answers true) keptInfo = false :=
    (onMessage_kept_iff rfl).mp (hinert.1 rfl)
  have hresurrects : resurrects testConfig deletedStore (answers true) keptInfo = true := by decide
  rw [hresurrects] at hkept
  cases hkept

end ThesadaApp.Ingest
