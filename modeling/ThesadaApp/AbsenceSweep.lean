import ThesadaApp.AlertStore
import ThesadaApp.KeyedTable
import ThesadaApp.MachineRun

/-!
The absence sweep beside the ingest of what devices send. A sweep scans once and then raises its batch, with a
transaction for each device; the process runs its sweeps one after another.
-/

namespace ThesadaApp.Absence

/-- The zero `time.Time`, in year 1. -/
def zeroTime : Time := -62135596800000000

/-- A time a device was seen, which is `now()` of a transaction. -/
structure Sighting where
  time : Time
  ne_zero : time ≠ zeroTime
  deriving DecidableEq

/-- The columns of `devices` the sweep and the ingest go by. -/
structure DeviceRow where
  id : UUID
  tenantID : Slug
  pairedAt : Option Time
  lastSeenAt : Option Sighting
  deriving DecidableEq

def absenceWindow : Time := seconds 900

def absenceBatchLimit : Nat := 100

/-- The cap, and how a time is written in a payload and in a message. -/
structure Config where
  quotaEventsPerDay : Int
  rfc3339Nano : Time → String
  rfc3339 : Time → String

/-- `absenceCandidate`, without the device id, which is for the log. -/
structure Candidate where
  tenantID : Slug
  devicePK : UUID
  lastSeen : Sighting
  lastAbsence : Option Time
  deriving DecidableEq

/-- A sweep in progress: `time.Now()` after its scan, and what is left of its batch. -/
structure Sweep where
  now : Time
  batch : List Candidate
  deriving DecidableEq

/-- `clock` is `now()` of the last transaction. -/
structure State where
  devices : KeyedTable DeviceRow.id
  alerts : List StoredAlert
  clock : Time
  sweep : Option Sweep

def State.tenantOf (s : State) (devicePK : UUID) : Option Slug := (s.devices.find devicePK).map DeviceRow.tenantID

/-- The NOT EXISTS of the scan, negated. -/
def absentSince (alerts : List StoredAlert) (devicePK : UUID) (t : Time) : Bool :=
  alerts.any fun a => a.devicePK = devicePK && a.code = "absence" && t ≤ a.receivedAt

def lastAbsence (alerts : List StoredAlert) (devicePK : UUID) : Option Time :=
  ((alerts.filter fun a => a.devicePK = devicePK && a.code = "absence").map StoredAlert.receivedAt).max?

/-- The row of the scan for a device. -/
def candidate (alerts : List StoredAlert) (now : Time) (d : DeviceRow) : Option Candidate :=
  d.lastSeenAt.bind fun lastSeen =>
    if d.pairedAt ≠ none ∧ lastSeen.time ≤ now - absenceWindow ∧ absentSince alerts d.id lastSeen.time = false then
      some ⟨d.tenantID, d.id, lastSeen, lastAbsence alerts d.id⟩
    else none

def State.candidates (s : State) (now : Time) : List Candidate := s.devices.rows.filterMap (candidate s.alerts now)

/-- `AbsenceDue`. -/
def absenceDue (lastSeen now window : Time) : Bool :=
  if lastSeen = zeroTime ∨ window ≤ 0 then false else window ≤ now - lastSeen

/-- `AbsenceEpisodeOpen`. -/
def absenceEpisodeOpen (lastSeen now window lastAbsence : Time) : Bool :=
  if absenceDue lastSeen now window = false then false
  else if lastAbsence = zeroTime then true
  else lastAbsence < lastSeen

def Config.absencePayload (cfg : Config) (lastSeen : Time) : Json :=
  .field "kind" (.string "absence") (.field "last_seen" (.string (cfg.rfc3339Nano lastSeen)) .empty)

def Config.absenceAlert (cfg : Config) (c : Candidate) (now : Time) : StoredAlert :=
  ⟨c.devicePK, now, .warn, "absence", "no contact since " ++ cfg.rfc3339 c.lastSeen.time,
    some (cfg.absencePayload c.lastSeen.time)⟩

inductive Action where
  /-- A live message of the device, as `BumpSeenIfExists` and `Upsert` record it. -/
  | sight (devicePK : UUID) (now : Sighting)
  /-- What `handleAlert` does once it has found and bumped the device, and each retry again. -/
  | ingest (devicePK : UUID) (now : Time) (tenantID : Slug) (payload : Option Json)
  /-- The scan, with its rows in the order of `last_seen_at`. -/
  | scan (now appNow : Time) (order : List Candidate)
  | scanFails
  /-- The next of the batch; its transaction may fail. -/
  | raise (now : Time) (fails : Bool)
  | finish

inductive Event where
  | sighted
  | ingested
  | dropped
  | scanned
  | scanFailed
  | skipped
  | raised (devicePK : UUID)
  | insertFailed
  | refused (err : InsertAlertError)
  | finished
  deriving DecidableEq

def State.sight (s : State) (devicePK : UUID) (now : Sighting) : State :=
  { s with
    devices := s.devices.updateWhere (fun d => d.id = devicePK) (fun d => { d with lastSeenAt := some now }) fun _ => rfl
    clock := now.time }

def State.ingest (cfg : Config) (s : State) (devicePK : UUID) (now : Time) (tenantID : Slug) (payload : Option Json) :
    State × Event :=
  match parseAlert payload with
  | .error _ => (s, .dropped)
  | .ok (severity, code, message) =>
      match insertAlert cfg.quotaEventsPerDay s.tenantOf s.alerts tenantID
        ⟨devicePK, now, severity, code, message, payload⟩ with
      | .error err => ({ s with clock := now }, .refused err)
      | .ok alerts => ({ s with alerts, clock := now }, .ingested)

/-- One turn of the loop of `RaiseAbsencesAny`. -/
def State.raise (cfg : Config) (s : State) (appNow : Time) (c : Candidate) (now : Time) (fails : Bool) :
    State × Event :=
  if absenceEpisodeOpen c.lastSeen.time appNow absenceWindow (c.lastAbsence.getD zeroTime) = false then (s, .skipped)
  else if fails then (s, .insertFailed)
  else
    match insertAlert cfg.quotaEventsPerDay s.tenantOf s.alerts c.tenantID (cfg.absenceAlert c now) with
    | .error err => (s, .refused err)
    | .ok alerts => ({ s with alerts }, .raised c.devicePK)

def step (cfg : Config) (s : State) : Action → Option (State × Event)
  | .sight devicePK now => if s.clock ≤ now.time then some (s.sight devicePK now, .sighted) else none
  | .ingest devicePK now tenantID payload =>
      if s.clock ≤ now then some (s.ingest cfg devicePK now tenantID payload) else none
  | .scan now appNow order =>
      if s.sweep = none ∧ s.clock ≤ now ∧ order.Perm (s.candidates now) ∧
          order.Pairwise fun c c' => c.lastSeen.time ≤ c'.lastSeen.time then
        some ({ s with clock := now, sweep := some ⟨appNow, order.take absenceBatchLimit⟩ }, .scanned)
      else none
  | .scanFails => if s.sweep = none then some (s, .scanFailed) else none
  | .raise now fails =>
      match s.sweep with
      | some ⟨appNow, c :: rest⟩ =>
          if s.clock ≤ now then
            some (State.raise cfg { s with clock := now, sweep := some ⟨appNow, rest⟩ } appNow c now fails)
          else none
      | _ => none
  | .finish =>
      match s.sweep with
      | some ⟨_, []⟩ => some ({ s with sweep := none }, .finished)
      | _ => none

def system (cfg : Config) : Machine State Action Event where
  step := step cfg

end ThesadaApp.Absence
