import ThesadaApp.AbsenceNoticed

/-!
The absence sweep beside the sightings of devices, statement by statement under READ COMMITTED. A sighting writes
`last_seen_at`, which locks the row of its device, then clears the absence alerts it sees, and commits both. The sweep
scans, decides by what it has scanned, and inserts each alert in a transaction of its own, which locks no device.
-/

namespace ThesadaApp.Episodes

open Absence (DeviceRow Sighting Candidate Config absenceWindow absenceBatchLimit absenceEpisodeOpen zeroTime candidate
  absentSince)

/-- Where the transaction of a sighting is. -/
inductive Point where
  | started
  /-- `last_seen_at` is written. -/
  | bumped
  /-- `clearOpenAbsence` has run on the alerts that were committed, which were so many. -/
  | cleared (alerts : Nat)
  deriving DecidableEq

/-- A live message that updates the row of a device that exists, by `BumpSeenIfExists` or by `Upsert`. -/
structure SightingTx where
  id : Nat
  devicePK : UUID
  /-- `now()`. -/
  now : Sighting
  point : Point
  deriving DecidableEq

/-- The transaction of an `InsertAlert` in progress. -/
structure Insert where
  candidate : Candidate
  receivedAt : Time
  deriving DecidableEq

/-- A sweep in progress: `time.Now()` after its scan, the insert it is at, and what is left of its batch. -/
structure Sweep where
  now : Time
  inserting : Option Insert
  batch : List Candidate
  deriving DecidableEq

/-- What is committed, `now()` of the last transaction, and what is in progress. -/
structure State where
  devices : KeyedTable DeviceRow.id
  alerts : List AlertRow
  clock : Time
  sightings : KeyedTable SightingTx.id
  sweep : Option Sweep

/-- Nothing is in progress. -/
def start (devices : KeyedTable DeviceRow.id) (alerts : List AlertRow) (clock : Time) : State :=
  ⟨devices, alerts, clock, ∅, none⟩

def State.tenantOf (s : State) (devicePK : UUID) : Option Slug := (s.devices.find devicePK).map DeviceRow.tenantID

def State.lastSeenAt (s : State) (devicePK : UUID) : Option Sighting :=
  (s.devices.find devicePK).bind DeviceRow.lastSeenAt

/-- The alerts without what clears them. -/
def State.stored (s : State) : List StoredAlert := s.alerts.map AlertRow.alert

def State.candidates (s : State) (now : Time) : List Candidate := s.devices.rows.filterMap (candidate s.stored now)

inductive Action where
  | sight (id : Nat) (devicePK : UUID) (now : Sighting)
  | next (id : Nat)
  | rollback (id : Nat)
  /-- The scan, with its rows in the order of `last_seen_at`. -/
  | scan (now appNow : Time) (order : List Candidate)
  | scanFails
  /-- The next of the batch: the decision, and the begin of the insert. -/
  | raise (now : Time)
  /-- The end of the insert, which may fail. -/
  | insert (fails : Bool)
  | finish

inductive Event where
  | began
  | statement
  | rolledBack
  | seen (devicePK : UUID)
  | scanned
  | scanFailed
  | skipped
  | inserting
  /-- An absence alert is committed, with `received_at` and `last_seen_at` of the device as committed then. -/
  | raised (devicePK : UUID) (receivedAt : Time) (lastSeenAt : Option Sighting)
  | insertFailed
  | refused (err : InsertAlertError)
  | finished
  deriving DecidableEq

/-- No other sighting of the device has written its row. -/
def State.mayBump (s : State) (t : SightingTx) : Bool :=
  s.sightings.rows.all fun x => x.id = t.id || x.devicePK ≠ t.devicePK || x.point = .started

def State.setPoint (s : State) (t : SightingTx) (point : Point) : State :=
  { s with sightings := s.sightings.updateWhere (fun x => x.id = t.id) (fun x => { x with point }) fun _ => rfl }

/-- The commit of a sighting whose clearing has seen `n` alerts. -/
def State.see (s : State) (t : SightingTx) (n : Nat) : State :=
  { s with
    devices := s.devices.updateWhere (fun d => d.id = t.devicePK) (fun d => { d with lastSeenAt := some t.now })
      fun _ => rfl
    alerts := clearOpenAbsence (s.alerts.take n) t.devicePK t.now.time ++ s.alerts.drop n
    sightings := s.sightings.deleteWhere fun x => x.id = t.id }

def stepSighting (s : State) (t : SightingTx) : Option (State × Event) :=
  match t.point with
  | .started => if s.mayBump t then some (s.setPoint t .bumped, .statement) else none
  | .bumped => some (s.setPoint t (.cleared s.alerts.length), .statement)
  | .cleared n => some (s.see t n, .seen t.devicePK)

/-- The sweep comes to a candidate. -/
def State.raise (s : State) (w : Sweep) (c : Candidate) (batch : List Candidate) (now : Time) : State × Event :=
  if absenceEpisodeOpen c.lastSeen.time w.now absenceWindow (c.lastAbsence.getD zeroTime) = false then
    ({ s with sweep := some { w with batch } }, .skipped)
  else ({ s with clock := now, sweep := some ⟨w.now, some ⟨c, now⟩, batch⟩ }, .inserting)

/-- The end of an `InsertAlert`. -/
def State.insert (cfg : Config) (s : State) (w : Sweep) (i : Insert) (fails : Bool) : State × Event :=
  let s' := { s with sweep := some { w with inserting := none } }
  if fails then (s', .insertFailed)
  else
    match insertAlert cfg.quotaEventsPerDay s.tenantOf s.stored i.candidate.tenantID
      (cfg.absenceAlert i.candidate i.receivedAt) with
    | .error err => (s', .refused err)
    | .ok _ =>
        ({ s' with alerts := s.alerts ++ [⟨cfg.absenceAlert i.candidate i.receivedAt, none⟩] },
          .raised i.candidate.devicePK i.receivedAt (s.lastSeenAt i.candidate.devicePK))

def step (cfg : Config) (s : State) : Action → Option (State × Event)
  | .sight id devicePK now =>
      if hid : s.sightings.find id = none then
        if s.clock ≤ now.time ∧ (s.devices.find devicePK).isSome then
          some ({ s with clock := now.time, sightings := s.sightings.insert ⟨id, devicePK, now, .started⟩ hid }, .began)
        else none
      else none
  | .next id => (s.sightings.find id).bind (stepSighting s)
  | .rollback id =>
      if (s.sightings.find id).isSome then
        some ({ s with sightings := s.sightings.deleteWhere fun x => x.id = id }, .rolledBack)
      else none
  | .scan now appNow order =>
      if s.sweep = none ∧ s.clock ≤ now ∧ order.Perm (s.candidates now) ∧
          order.Pairwise fun c c' => c.lastSeen.time ≤ c'.lastSeen.time then
        some ({ s with clock := now, sweep := some ⟨appNow, none, order.take absenceBatchLimit⟩ }, .scanned)
      else none
  | .scanFails => if s.sweep = none then some (s, .scanFailed) else none
  | .raise now =>
      match s.sweep with
      | some ⟨appNow, none, c :: batch⟩ =>
          if s.clock ≤ now then some (s.raise ⟨appNow, none, c :: batch⟩ c batch now) else none
      | _ => none
  | .insert fails =>
      match s.sweep with
      | some ⟨appNow, some i, batch⟩ => some (s.insert cfg ⟨appNow, some i, batch⟩ i fails)
      | _ => none
  | .finish =>
      match s.sweep with
      | some ⟨_, none, []⟩ => some ({ s with sweep := none }, .finished)
      | _ => none

def machine (cfg : Config) : Machine State Action Event := ⟨step cfg⟩

end ThesadaApp.Episodes
