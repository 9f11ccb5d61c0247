import ThesadaApp.AlertStore
import ThesadaApp.FileHistory
import ThesadaApp.MqttIngest
import ThesadaApp.Utf8Lossy

/-!
What an inbound MQTT message does to the stored state: the gates of `onMessage` and the handlers behind them, each call
of another service with the failure it can have.
-/

namespace ThesadaApp.Ingest

open ConfigSecrets Json LoggedUpsert

section payload

/-- A byte that continues a character. -/
def continues (b : UInt8) : Bool := 0x80 ≤ b && b ≤ 0xBF

/-- The second byte of a character of three or four. -/
def continuesAfter (first b : UInt8) : Bool :=
  (if first = 0xE0 then 0xA0 else if first = 0xF0 then 0x90 else 0x80) ≤ b &&
    b ≤ (if first = 0xED then 0x9F else if first = 0xF4 then 0x8F else 0xBF)

/-- The number the low bits of a first byte and those that continue it make. -/
def codePoint (first : Nat) (rest : List UInt8) : Char :=
  Char.ofNat (rest.foldl (fun n b => n * 64 + b.toNat % 64) first)

/-- The characters of a payload. A byte that is no part of one is read as the replacement character. -/
def runes : List UInt8 → List Char
  | [] => []
  | b :: bs =>
      if b < 0x80 then Char.ofNat b.toNat :: runes bs
      else
        match bs with
        | [] => [Char.ofNat 0xFFFD]
        | c :: cs =>
            if 0xC2 ≤ b ∧ b ≤ 0xDF ∧ continues c then codePoint (b.toNat % 32) [c] :: runes cs
            else
              match cs with
              | [] => Char.ofNat 0xFFFD :: runes [c]
              | d :: ds =>
                  if 0xE0 ≤ b ∧ b ≤ 0xEF ∧ continuesAfter b c ∧ continues d then
                    codePoint (b.toNat % 16) [c, d] :: runes ds
                  else
                    match ds with
                    | [] => Char.ofNat 0xFFFD :: runes [c, d]
                    | e :: es =>
                        if 0xF0 ≤ b ∧ b ≤ 0xF4 ∧ continuesAfter b c ∧ continues d ∧ continues e then
                          codePoint (b.toNat % 8) [c, d, e] :: runes es
                        else Char.ofNat 0xFFFD :: runes (c :: d :: e :: es)

/-- `json.Unmarshal` into a map. -/
def payloadMap (F : FloatFormat) (payload : List UInt8) : Option Json := unmarshalMap F (runes payload)

inductive Presence where
  | online
  | offline
  deriving DecidableEq

/-- A bare presence, quoted or not. -/
def presence (payload : List UInt8) : Option Presence :=
  let trimmed := String.ofList (trimSpace (runes payload))
  if trimmed = "online" ∨ trimmed = "\"online\"" then some .online
  else if trimmed = "offline" ∨ trimmed = "\"offline\"" then some .offline
  else none

/-- What a sensor has sent: a number, unless it is a text, and the text. -/
structure Reading where
  valueNum : Option Rat
  valueText : String
  deriving DecidableEq

def parseSensorPayload (F : FloatFormat) (payload : List UInt8) : Option Reading :=
  match unmarshal F (runes payload) with
  -- null leaves the float64 as it is declared
  | some .null => some ⟨some 0, ""⟩
  | some (.number x) => some ⟨some x, ""⟩
  | some (.string text) => some ⟨none, text⟩
  | other =>
      match other.filter Json.isMap with
      | some obj =>
          let value := match obj.get "value" with
            | some (.number x) => some x
            | _ => none
          some ⟨value, obj.getString "text"⟩
      | none =>
          let trimmed := trimSpace (runes payload)
          if trimmed = [] then none else some ⟨none, String.ofList trimmed⟩

end payload

/-- The columns of `devices` that messages read and write. -/
structure DeviceRow where
  id : UUID
  tenantID : Slug
  deviceID : String
  displayName : Option String
  firmwareVersion : Option String
  hardwareType : Option String
  mqttTopicPrefix : Option String
  lastSeenAt : Option Time
  pairedAt : Option Time
  deriving DecidableEq

def DeviceRow.key (d : DeviceRow) : String × String := (d.tenantID.val, d.deviceID)

/-- The columns of `device_certificates` that the pairing check reads. -/
structure Certificate where
  devicePK : UUID
  revoked : Bool
  status : String
  deriving DecidableEq

structure TelemetryRow where
  devicePK : UUID
  receivedAt : Time
  metric : String
  reading : Reading
  raw : Json
  deriving DecidableEq

/-- The tables. A tombstone is a tenant and a device id. -/
structure Store where
  tenants : List Slug
  devices : KeyedTable DeviceRow.key
  certificates : List Certificate
  tombstones : List (Slug × String)
  alerts : List AlertRow
  telemetry : List TelemetryRow
  files : Tables (UUID × String) DeviceFiles.FileRow String

/-- The caps, the numbers and the hash, and what PostgreSQL stores for a text in a jsonb column. It refuses some texts that
are JSON: with the escape of a NUL or of half a pair, or with a number too long for numeric. -/
structure Config where
  F : FloatFormat
  quotaDevices : Int
  quotaEventsPerDay : Int
  sha256Hex : String → String
  jsonb : List Char → Option Json

/-- No byte is read as the replacement character. -/
def validUTF8 (payload : List UInt8) : Bool := Utf8.encode (runes payload) = payload

/-- `json.Valid`. -/
def validJSON (payload : List UInt8) : Bool := (formOf (runes payload)).any fun t => t.depth ≤ maxNestingDepth

/-- What a jsonb column gets of a payload that is sent as it is. -/
def Config.storedJSON (cfg : Config) (payload : List UInt8) : Option Json :=
  if validUTF8 payload then cfg.jsonb (runes payload) else none

/-- What `RecordTelemetry` gets into the jsonb column: the payload, or the JSON string of one that is no JSON, whose bytes
go into the text column as they are. A NUL in the text is one in the JSON too. -/
def Config.rawJSON (cfg : Config) (payload : List UInt8) : Option Json :=
  if validJSON payload then cfg.storedJSON payload
  else if validUTF8 payload then cfg.jsonb (quote (String.ofList (runes payload)))
  else none

/-- What happens outside the tables while one message is handled: the slugs in memory, the calls that fail, `now()` of
the first and of the second transaction, the id of a new row, and what a drift pull brings back. -/
structure Answers where
  existsBySlug : String → Bool
  pairingFails : Bool
  tombstoneFails : Bool
  removalFails : Bool
  deviceFails : Bool
  storeFails : Bool
  getByIDFails : Bool
  latestSHAFails : Bool
  seenAt : Time
  storedAt : Time
  fresh : UUID
  /-- The paths and contents read from the device, valid, with the hash it has reported, and stored without a failure. -/
  pulled : List (String × String)

namespace Store

def deviceByID (s : Store) (id : UUID) : Option DeviceRow := s.devices.rows.find? fun d => d.id = id

def tenantOf (s : Store) (id : UUID) : Option Slug := (s.deviceByID id).map DeviceRow.tenantID

/-- `ActivePairingTenants`. -/
def activePairingTenants (s : Store) (deviceID : String) : List String :=
  ((s.certificates.filterMap fun c =>
    (s.deviceByID c.devicePK).bind fun d =>
      if d.deviceID = deviceID ∧ c.revoked = false ∧ c.status = "active" then some d.tenantID.val else none)).dedup

/-- `IsTombstoned`. -/
def isTombstoned (s : Store) (tenant device : String) : Bool :=
  s.tombstones.any fun t => t.1.val = tenant && t.2 = device

/-- `RemoveTombstone`. -/
def removeTombstone (s : Store) (tenant device : String) : Store :=
  { s with tombstones := s.tombstones.filter fun t => !(t.1.val = tenant && t.2 = device) }

/-- What the services answer the gates. -/
def lookups (s : Store) (a : Answers) : Lookups where
  tenantExists := a.existsBySlug
  activePairingTenants device := if a.pairingFails then none else some (s.activePairingTenants device)
  isTombstoned tenant device := if a.tombstoneFails then none else some (s.isTombstoned tenant device)

/-- A device id the tenant already has is never refused. -/
def quotaAllowDevice (s : Store) (tenant device : String) (max : Int) : Bool :=
  if max ≤ 0 then true
  else if (s.devices.find (tenant, device)).isSome then true
  else !quotaFull (s.devices.rows.countP fun d => d.tenantID.val = tenant) max

/-- The device has been seen: `last_seen_at` is written, and its absence cleared. -/
def bump (s : Store) (d : DeviceRow) (now : Time) : Store :=
  { s with
    devices := s.devices.updateWhere (fun r => r.key = d.key) (fun r => { r with lastSeenAt := some now }) fun _ => rfl
    alerts := clearOpenAbsence s.alerts d.id now }

/-- `BumpSeenIfExists`: the row it has found. -/
def bumpSeenIfExists (s : Store) (a : Answers) (tenant device : String) : Store × Option DeviceRow :=
  if a.deviceFails then (s, none)
  else
    match s.devices.find (tenant, device) with
    | none => (s, none)
    | some d => (s.bump d a.seenAt, some d)

end Store

/-- COALESCE(NULLIF(new, ''), old) -/
def coalesce (new : String) (old : Option String) : Option String := if new = "" then old else some new

/-- The columns that a status or an info message reports. -/
structure Reported where
  firmwareVersion : String
  hardwareType : String
  mqttTopicPrefix : String
  deriving DecidableEq

def DeviceRow.report (d : DeviceRow) (r : Reported) : DeviceRow :=
  { d with
    firmwareVersion := coalesce r.firmwareVersion d.firmwareVersion
    hardwareType := coalesce r.hardwareType d.hardwareType
    mqttTopicPrefix := coalesce r.mqttTopicPrefix d.mqttTopicPrefix }

theorem DeviceRow.report_key (d : DeviceRow) (r : Reported) : (d.report r).key = d.key := rfl

/-- The row an upsert inserts, before what is reported. -/
def newDevice (tenant : Slug) (device : String) (fresh : UUID) : DeviceRow :=
  ⟨fresh, tenant, device, none, none, none, none, none, none⟩

/-- The row that an upsert writes, if nothing refuses it. A key that is new needs a tenant and a free id. -/
def Store.upsertTarget (s : Store) (fresh : UUID) (tenant device : String) : Option DeviceRow :=
  match s.devices.find (tenant, device) with
  | some old => some old
  | none =>
      if (s.deviceByID fresh).isSome then none
      else (s.tenants.find? fun t => t.val = tenant).map fun t => newDevice t device fresh

/-- `upsertCore` without a display name: as `Upsert` it bumps the row, as `UpsertSeen` it does not. -/
def Store.upsertCore (cfg : Config) (s : Store) (a : Answers) (tenant device : String) (r : Reported)
    (bumpSeen : Bool) : Option (Store × DeviceRow) :=
  if a.deviceFails ∨ s.quotaAllowDevice tenant device cfg.quotaDevices = false then none
  else
    (s.upsertTarget a.fresh tenant device).map fun d =>
      let written := { s with
        devices := s.devices.upsert (d.report r) (fun old => old.report r) fun old => old.report_key r }
      (if bumpSeen then written.bump d a.seenAt else written, d)

/-- `upsertDevice`: a retained message does not bump. -/
def Store.upsertDevice (cfg : Config) (s : Store) (a : Answers) (tenant device : String) (r : Reported)
    (retained : Bool) : Option (Store × DeviceRow) :=
  s.upsertCore cfg a tenant device r (!retained)

section handlers

variable (cfg : Config) (s : Store) (a : Answers) (tenant device topicPrefix : String) (payload : List UInt8)
  (retained : Bool)

/-- What the map of a status or an info message reports. -/
def reported (m : Json) : Reported := ⟨m.getString "firmware_version", m.getString "hardware_type", topicPrefix⟩

def handleStatus : Store :=
  match presence payload with
  | some .online => if retained then s else (s.bumpSeenIfExists a tenant device).1
  | some .offline => s
  | none =>
      match payloadMap cfg.F payload with
      | none => s
      | some status =>
          (s.upsertDevice cfg a tenant device (reported topicPrefix status) retained).elim s Prod.fst

/-- The files with hashes in an info message, each with the member that holds it. -/
def hashMembers : List (String × String) :=
  [("config.json", "config_hash"), ("/scripts/main.lua", "scripts_main_hash"), ("/scripts/rules.lua", "scripts_rules_hash")]

/-- `LatestSHA`; an error is taken for no file. -/
def latestSHA (devicePK : UUID) (path : String) : String :=
  if a.latestSHAFails then "" else ((s.files.row (devicePK, path)).map DeviceFiles.FileRow.sha256).getD ""

/-- `driftPaths`. -/
def driftPaths (info : Json) (devicePK : UUID) : List String :=
  (hashMembers.filter fun m =>
    info.getString m.2 ≠ "" && latestSHA s a devicePK m.1 ≠ info.getString m.2).map Prod.fst

/-- The transaction of `DeviceFilesService.Upsert`, with no other beside it. -/
def storeFile (files : Tables (UUID × String) DeviceFiles.FileRow String) (call : DeviceFiles.UpsertCall) :
    Tables (UUID × String) DeviceFiles.FileRow String :=
  let P := DeviceFiles.upsert cfg.F s.tenantOf
  match P.prepare call with
  | none => files
  | some r =>
      let prev := (files.row r.key).map P.fingerprint
      if r.sees then files.commit r prev (P.logs prev r.row) else files

/-- What `pullDrift` stores. -/
def pullDrift (d : DeviceRow) : Store :=
  { s with files := a.pulled.foldl (fun files f =>
      storeFile cfg s files ⟨d.tenantID, d.id, f.1, f.2, cfg.sha256Hex f.2, "drift", none⟩) s.files }

def handleInfo : Store :=
  match payloadMap cfg.F payload with
  | none => s
  | some info =>
      match s.upsertDevice cfg a tenant device (reported topicPrefix info) retained with
      | none => s
      | some (s', d) =>
          if retained then s'
          -- devicePaired
          else if a.getByIDFails ∨ ((s'.deviceByID d.id).bind DeviceRow.pairedAt).isNone then s'
          else if driftPaths s' a info d.id = [] then s'
          else pullDrift cfg s' a d

/-- `handleAlert`, and its retries with it. -/
def handleAlert : Store :=
  if retained then s
  else
    match parseAlert (unmarshal cfg.F (runes payload)) with
    | .error _ => s
    | .ok (severity, code, message) =>
        match s.bumpSeenIfExists a tenant device with
        | (s', none) => s'
        | (s', some d) =>
            match if a.storeFails then none else cfg.storedJSON payload with
            | none => s'
            | some raw =>
                let new : StoredAlert := ⟨d.id, a.storedAt, severity, code, message, some raw⟩
                match insertAlert cfg.quotaEventsPerDay s'.tenantOf (s'.alerts.map AlertRow.alert) d.tenantID new with
                | .error _ => s'
                | .ok _ => { s' with alerts := s'.alerts ++ [⟨new, none⟩] }

def handleSensor (metric : String) : Store :=
  if retained then s
  else
    match parseSensorPayload cfg.F payload with
    | none => s
    | some reading =>
        match s.bumpSeenIfExists a tenant device with
        | (s', none) => s'
        | (s', some d) =>
            match if a.storeFails then none else cfg.rawJSON payload with
            | none => s'
            | some raw => { s' with telemetry := s'.telemetry ++ [⟨d.id, a.storedAt, metric, reading, raw⟩] }

end handlers

/-- The handler of a route. The manifest is kept in memory. -/
def handle (cfg : Config) (s : Store) (a : Answers) (m : Message) : Route → Store
  | .status tenant device topicPrefix => handleStatus cfg s a tenant device topicPrefix m.payload m.retained
  | .info tenant device topicPrefix => handleInfo cfg s a tenant device topicPrefix m.payload m.retained
  | .alert tenant device => handleAlert cfg s a tenant device m.payload m.retained
  | .sensor tenant device metric => handleSensor cfg s a tenant device m.payload m.retained metric
  | .dropped | .clearReplay _ | .manifest _ => s

/-- The tombstone of a device that sends again is dropped. -/
def Store.clearTombstone (s : Store) (a : Answers) (m : Message) : Store :=
  match admitted (s.lookups a) m with
  | none => s
  | some p =>
      if (s.lookups a).isTombstoned p.tenant p.device = some true ∧ m.retained = false ∧ a.removalFails = false then
        s.removeTombstone p.tenant p.device
      else s

def onMessage (cfg : Config) (s : Store) (a : Answers) (m : Message) : Store :=
  handle cfg (s.clearTombstone a m) a m (route (s.lookups a) m)

end ThesadaApp.Ingest
