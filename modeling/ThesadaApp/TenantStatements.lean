import ThesadaApp.AlertStore
import ThesadaApp.KeyedTable
import ThesadaApp.MachineRun
import ThesadaApp.RowLocks

/-!
The calls that a tenant's caps are about, statement by statement under READ COMMITTED: those that create users, devices
and alerts, the move of a device into another tenant, and the deletions. A statement sees what was committed when it
began, and a transaction writes in its last one. A lock of `lockTenantQuota` is held until its transaction ends. Of the
other locks only that on a waitlist entry is kept: without them there are more runs. A statement that fails, and a call
that is refused for another reason than a cap, is a rollback, which may come at any time.
-/

namespace ThesadaApp.TenantRows

structure UserRow where
  id : UUID
  tenantID : Slug
  isSuperAdmin : Bool
  deriving DecidableEq

structure DeviceRow where
  id : UUID
  tenantID : Slug
  deviceID : String
  deriving DecidableEq

/-- A row of `waitlist`, without its id. -/
structure WaitlistRow where
  tenantID : Slug
  convertedUserID : Option UUID
  deriving DecidableEq

/-- What is committed. -/
structure Tables where
  users : KeyedTable UserRow.id
  devices : KeyedTable DeviceRow.id
  alerts : List StoredAlert
  waitlist : UUID → Option WaitlistRow
  /-- The foreign key of `device_alerts`. -/
  alertDevice : ∀ a ∈ alerts, (devices.find a.devicePK).isSome = true

/-- The caps, and `hashtextextended` of a tenant. -/
structure Config where
  quotaUsers : Int
  quotaDevices : Int
  quotaEventsPerDay : Int
  hash : Slug → Int

namespace Tables

def tenantOf (d : Tables) (devicePK : UUID) : Option Slug := (d.devices.find devicePK).map DeviceRow.tenantID

def userCount (d : Tables) (tenantID : Slug) : Nat := d.users.rows.countP fun u => u.tenantID = tenantID

def deviceCount (d : Tables) (tenantID : Slug) : Nat := d.devices.rows.countP fun x => x.tenantID = tenantID

def eventCount (d : Tables) (now : Time) (tenantID : Slug) : Nat :=
  ThesadaApp.eventCount d.tenantOf d.alerts now tenantID

/-- The tenant has the device id. -/
def hasDevice (d : Tables) (tenantID : Slug) (deviceID : String) : Bool :=
  d.devices.rows.any fun x => x.tenantID = tenantID && x.deviceID = deviceID

end Tables

inductive Call where
  | createUser (tenantID : Slug)
  /-- Without a target the user is made in the tenant of the entry. -/
  | convertWaitlistEntry (entry : UUID) (targetTenant : Option Slug)
  | upsert (tenantID : Slug) (deviceID : String)
  /-- Of an enrollment that may be claimed. -/
  | claimInto (tenantID : Slug) (deviceID : String)
  | reassign (id : UUID) (targetTenant : Slug)
  | insertAlert (tenantID : Slug) (devicePK : UUID) (severity : Alerts.Severity) (code message : String)
      (raw : Option Json)
  | deleteUser (tenantID : Slug) (id : UUID)
  | deleteDevice (tenantID : Slug) (id : UUID)
  /-- It holds the row of the tenant, which the rows of the tenant wait for. -/
  | deleteTenant (tenantID : Slug)
  deriving DecidableEq

/-- The write of a call that is subject to a cap. -/
inductive Work where
  | user (tenantID : Slug) (entry : Option UUID)
  | device (tenantID : Slug) (deviceID : String)
  | move (id : UUID) (targetTenant : Slug) (deviceID : String)
  | alert (tenantID : Slug) (new : StoredAlert)
  deriving DecidableEq

def Work.tenantID : Work → Slug
  | .user tenantID _ | .device tenantID _ | .move _ tenantID _ | .alert tenantID _ => tenantID

def Work.max (cfg : Config) : Work → Int
  | .user .. => cfg.quotaUsers
  | .device .. | .move .. => cfg.quotaDevices
  | .alert .. => cfg.quotaEventsPerDay

/-- The device id of `quotaAllowDevice`. -/
def Work.deviceID : Work → Option String
  | .device _ deviceID | .move _ _ deviceID => some deviceID
  | _ => none

/-- The rows that count against the cap. -/
def Work.used (d : Tables) (now : Time) (w : Work) : Nat :=
  match w with
  | .user tenantID _ => d.userCount tenantID
  | .device tenantID _ | .move _ tenantID _ => d.deviceCount tenantID
  | .alert tenantID _ => d.eventCount now tenantID

namespace Tables

def insertUser (d : Tables) (u : UserRow) (h : d.users.find u.id = none) : Tables :=
  { d with users := d.users.insert u h }

def insertDevice (d : Tables) (x : DeviceRow) (h : d.devices.find x.id = none) : Tables :=
  { d with
    devices := d.devices.insert x h
    alertDevice := fun a ha => by
      rw [KeyedTable.find_insert]
      split
      · rfl
      · exact d.alertDevice a ha }

/-- UPDATE devices SET tenant_id. -/
def moveDevice (d : Tables) (id : UUID) (targetTenant : Slug) : Tables :=
  { d with
    devices := d.devices.updateWhere (fun x => x.id = id) (fun x => { x with tenantID := targetTenant }) fun _ => rfl
    alertDevice := fun a ha => by
      rw [KeyedTable.find_updateWhere, Option.isSome_map]
      exact d.alertDevice a ha }

def insertAlert (d : Tables) (new : StoredAlert) (h : (d.tenantOf new.devicePK).isSome = true) : Tables :=
  { d with
    alerts := d.alerts ++ [new]
    alertDevice := fun a ha => by
      rcases List.mem_append.mp ha with ha | ha
      · exact d.alertDevice a ha
      · rw [List.mem_singleton.mp ha]
        rwa [tenantOf, Option.isSome_map] at h }

/-- The entry has been converted to the user. -/
def convert (d : Tables) (entry user : UUID) : Tables :=
  { d with waitlist := Function.update d.waitlist entry ((d.waitlist entry).map fun r =>
      { r with convertedUserID := some user }) }

/-- DELETE of users; an entry that was converted to one of them is pending again. -/
def deleteUsers (d : Tables) (p : UserRow → Bool) : Tables :=
  { d with
    users := d.users.deleteWhere p
    waitlist := fun e => (d.waitlist e).map fun r =>
      { r with convertedUserID := r.convertedUserID.filter fun u => (d.users.find u).all fun x => !p x } }

/-- DELETE of devices, with their alerts. -/
def deleteDevices (d : Tables) (p : DeviceRow → Bool) : Tables :=
  { d with
    devices := d.devices.deleteWhere p
    alerts := d.alerts.filter fun a => (d.devices.find a.devicePK).any fun x => !p x
    alertDevice := fun a ha => by
      rw [KeyedTable.find_deleteWhere, Option.isSome_filter]
      exact (List.mem_filter.mp ha).2 }

section tenantOf

variable {d : Tables} {devicePK id : UUID} {targetTenant : Slug}

theorem tenantOf_insertDevice {x : DeviceRow} (h : d.devices.find x.id = none) :
    (d.insertDevice x h).tenantOf devicePK = if devicePK = x.id then some x.tenantID else d.tenantOf devicePK := by
  show ((d.devices.insert x h).find devicePK).map _ = _
  rw [KeyedTable.find_insert]
  split
  · rfl
  · rfl

theorem tenantOf_moveDevice : (d.moveDevice id targetTenant).tenantOf devicePK =
    if devicePK = id then (d.tenantOf devicePK).map fun _ => targetTenant else d.tenantOf devicePK := by
  unfold tenantOf moveDevice
  rw [KeyedTable.find_updateWhere]
  cases hfound : d.devices.find devicePK with
  | none => simp
  | some x =>
      have hid : x.id = devicePK := KeyedTable.find_key hfound
      by_cases hown : devicePK = id
      · simp [hid, hown]
      · simp [hid, hown]

theorem tenantOf_deleteDevices {p : DeviceRow → Bool} {tenantID : Slug}
    (h : (d.deleteDevices p).tenantOf devicePK = some tenantID) : d.tenantOf devicePK = some tenantID := by
  obtain ⟨x, hx, rfl⟩ := Option.map_eq_some_iff.mp h
  have hfound : (d.devices.deleteWhere p).find devicePK = some x := hx
  rw [KeyedTable.find_deleteWhere] at hfound
  rw [tenantOf, (Option.filter_eq_some_iff.mp hfound).1, Option.map_some]

/-- A device id that is free has no alerts. -/
theorem ne_devicePK_of_find_none (h : d.devices.find id = none) {a : StoredAlert} (ha : a ∈ d.alerts) :
    a.devicePK ≠ id := by
  intro heq
  have hsome := d.alertDevice a ha
  rw [heq, h] at hsome
  cases hsome

end tenantOf

end Tables

/-- The write; `fresh` is the id of a row it inserts. -/
def Work.apply (d : Tables) (fresh : UUID) : Work → Option Tables
  | .user tenantID entry =>
      if h : d.users.find fresh = none then
        let inserted := d.insertUser ⟨fresh, tenantID, false⟩ h
        some (entry.elim inserted fun e => inserted.convert e fresh)
      else none
  | .device tenantID deviceID =>
      if d.hasDevice tenantID deviceID then some d
      else if h : d.devices.find fresh = none then some (d.insertDevice ⟨fresh, tenantID, deviceID⟩ h)
      else none
  | .move id targetTenant deviceID =>
      if d.devices.rows.any fun x => x.id ≠ id && x.tenantID = targetTenant && x.deviceID = deviceID then none
      else some (d.moveDevice id targetTenant)
  | .alert tenantID new =>
      if h : d.tenantOf new.devicePK = some tenantID then some (d.insertAlert new (by rw [h]; rfl)) else none

/-- What a write does that succeeds. -/
inductive Written (d : Tables) (fresh : UUID) : Work → Tables → Prop
  | user (tenantID : Slug) (entry : Option UUID) (hfree : d.users.find fresh = none)
      (waitlist : UUID → Option WaitlistRow) :
      Written d fresh (.user tenantID entry) { d.insertUser ⟨fresh, tenantID, false⟩ hfree with waitlist }
  | has (tenantID : Slug) (deviceID : String) (hhas : d.hasDevice tenantID deviceID = true) :
      Written d fresh (.device tenantID deviceID) d
  | device (tenantID : Slug) (deviceID : String) (hnot : d.hasDevice tenantID deviceID = false)
      (hfree : d.devices.find fresh = none) :
      Written d fresh (.device tenantID deviceID) (d.insertDevice ⟨fresh, tenantID, deviceID⟩ hfree)
  | move (id : UUID) (targetTenant : Slug) (deviceID : String)
      (hfree : (d.devices.rows.any fun x => x.id ≠ id && x.tenantID = targetTenant && x.deviceID = deviceID) = false) :
      Written d fresh (.move id targetTenant deviceID) (d.moveDevice id targetTenant)
  | alert (tenantID : Slug) (new : StoredAlert) (hown : d.tenantOf new.devicePK = some tenantID)
      (hdevice : (d.tenantOf new.devicePK).isSome = true) :
      Written d fresh (.alert tenantID new) (d.insertAlert new hdevice)

theorem Work.written {d d' : Tables} {w : Work} {fresh : UUID} (happly : w.apply d fresh = some d') :
    Written d fresh w d' := by
  cases w with
  | user tenantID entry =>
      simp only [Work.apply] at happly
      split at happly
      · next hfree =>
          obtain rfl := Option.some.inj happly
          cases entry with
          | none => exact .user tenantID none hfree d.waitlist
          | some e => exact .user tenantID (some e) hfree _
      · cases happly
  | device tenantID deviceID =>
      simp only [Work.apply] at happly
      split at happly
      · next hhas =>
          obtain rfl := Option.some.inj happly
          exact .has tenantID deviceID hhas
      · next hnot =>
          split at happly
          · next hfree =>
              obtain rfl := Option.some.inj happly
              exact .device tenantID deviceID (Bool.eq_false_iff.mpr hnot) hfree
          · cases happly
  | move id targetTenant deviceID =>
      simp only [Work.apply] at happly
      split at happly
      · cases happly
      · next hfree =>
          obtain rfl := Option.some.inj happly
          exact .move id targetTenant deviceID (Bool.eq_false_iff.mpr hfree)
  | alert tenantID new =>
      simp only [Work.apply] at happly
      split at happly
      · next hown =>
          obtain rfl := Option.some.inj happly
          exact .alert tenantID new hown _
      · cases happly

/-- The statement a transaction is at. -/
inductive Point where
  | start
  | lockQuota (w : Work)
  | deviceExists (w : Work)
  | count (w : Work)
  | write (w : Work)
  deriving DecidableEq

def Point.work : Point → Option Work
  | .start => none
  | .lockQuota w | .deviceExists w | .count w | .write w => some w

inductive Lock where
  | quota (hash : Int)
  | waitlist (entry : UUID)
  deriving DecidableEq

structure Txn where
  call : Call
  now : Time
  point : Point
  deriving DecidableEq

/-- `clock` is when the last transaction began. -/
structure State where
  tables : Tables
  clock : Time
  txns : Txns Lock Txn

def start (d : Tables) (clock : Time) : State := ⟨d, clock, .idle⟩

inductive Action where
  | begin (tx : Nat) (now : Time) (call : Call)
  | next (tx : Nat) (fresh : UUID)
  | rollback (tx : Nat)

inductive Event where
  | statement
  /-- `InsertAlert` has found no duplicate of the row it is to store. -/
  | checked (tx : Nat) (new : StoredAlert)
  | duplicate
  /-- A cap refuses the write. -/
  | refused (w : Work)
  | committed (w : Work)
  | deleted
  | failed
  deriving DecidableEq

def State.put (s : State) (tx : Nat) (t : Txn) : State := { s with txns := s.txns.put tx t }

def State.lock (s : State) (tx : Nat) (k : Lock) : State := { s with txns := s.txns.lock tx k }

def State.close (s : State) (tx : Nat) : State := { s with txns := s.txns.close tx }

/-- `quotaAllowUser`, `quotaAllowDevice` or `quotaAllowEvent`: nothing is locked for a cap that is off. -/
def Work.quota (cfg : Config) (w : Work) : Point := if w.max cfg ≤ 0 then .write w else .lockQuota w

theorem Work.quota_work {cfg : Config} {w : Work} : (w.quota cfg).work = some w := by
  unfold Work.quota
  split
  · rfl
  · rfl

/-- A deletion, which is one statement or as good as one. -/
def stepDelete (d : Tables) : Call → Option Tables
  | .deleteUser tenantID id =>
      some (d.deleteUsers fun u => u.id = id && u.tenantID = tenantID && !u.isSuperAdmin)
  | .deleteDevice tenantID id => some (d.deleteDevices fun x => x.id = id && x.tenantID = tenantID)
  | .deleteTenant tenantID =>
      if d.devices.rows.any fun x => x.tenantID = tenantID then none
      else if d.users.rows.any fun u => u.tenantID = tenantID && u.isSuperAdmin then none
      else
        let deleted := d.deleteUsers fun u => u.tenantID = tenantID
        some { deleted with waitlist := fun e => (deleted.waitlist e).filter fun r => r.tenantID ≠ tenantID }
  | _ => none

/-- The first statement of a call, or the first of its cap. -/
def stepStart (cfg : Config) (s : State) (tx : Nat) (t : Txn) : Option (State × Event) :=
  let goTo (w : Work) (e : Event) : State × Event := (s.put tx { t with point := w.quota cfg }, e)
  match t.call with
  | .createUser tenantID => some (goTo (.user tenantID none) .statement)
  | .convertWaitlistEntry entry targetTenant =>
      if s.txns.mayLock tx (.waitlist entry) then
        some (match (s.tables.waitlist entry).filter fun r => r.convertedUserID = none with
        | none => (s.close tx, .failed)
        | some r =>
            ((s.lock tx (.waitlist entry)).put tx
              { t with point := (Work.user (targetTenant.getD r.tenantID) (some entry)).quota cfg }, .statement))
      else none
  | .upsert tenantID deviceID | .claimInto tenantID deviceID => some (goTo (.device tenantID deviceID) .statement)
  | .reassign id targetTenant =>
      some (match s.tables.devices.find id with
        | none => (s.close tx, .failed)
        | some x => goTo (.move id targetTenant x.deviceID) .statement)
  | .insertAlert tenantID devicePK severity code message raw =>
      let new : StoredAlert := ⟨devicePK, t.now, severity, code, message, raw⟩
      some (if s.tables.tenantOf devicePK = some tenantID ∧ s.tables.alerts.any (·.duplicates new) then
        (s.close tx, .duplicate)
      else goTo (.alert tenantID new) (.checked tx new))
  | .deleteUser .. | .deleteDevice .. | .deleteTenant _ =>
      some (match stepDelete s.tables t.call with
        | none => (s.close tx, .failed)
        | some tables => ({ s.close tx with tables }, .deleted))

def stepTxn (cfg : Config) (s : State) (tx : Nat) (t : Txn) (fresh : UUID) : Option (State × Event) :=
  match t.point with
  | .start => stepStart cfg s tx t
  | .lockQuota w =>
      if s.txns.mayLock tx (.quota (cfg.hash w.tenantID)) then
        some ((s.lock tx (.quota (cfg.hash w.tenantID))).put tx
          { t with point := if w.deviceID = none then .count w else .deviceExists w }, .statement)
      else none
  | .deviceExists w =>
      some (s.put tx
        { t with point := if w.deviceID.any (s.tables.hasDevice w.tenantID) then .write w else .count w }, .statement)
  | .count w =>
      some (if quotaFull (w.used s.tables t.now) (w.max cfg) then (s.close tx, .refused w)
        else (s.put tx { t with point := .write w }, .statement))
  | .write w =>
      some (match w.apply s.tables fresh with
        | none => (s.close tx, .failed)
        | some tables => ({ s.close tx with tables }, .committed w))

def step (cfg : Config) (s : State) : Action → Option (State × Event)
  | .begin tx now call =>
      if (s.txns.txn tx).isSome ∨ now < s.clock then none
      else some ({ s with clock := now, txns := s.txns.put tx ⟨call, now, .start⟩ }, .statement)
  | .next tx fresh => (s.txns.txn tx).bind fun t => stepTxn cfg s tx t fresh
  | .rollback tx => if (s.txns.txn tx).isNone then none else some (s.close tx, .failed)

def system (cfg : Config) : Machine State Action Event where
  step := step cfg

/-- What a transaction does that goes on: its next point, the lock it takes, and the event. -/
inductive Next (cfg : Config) (s : State) (tx : Nat) (t : Txn) : Point → Option Lock → Event → Prop
  | begun (w : Work) (k : Option Lock) (hpoint : t.point = .start) (hw : ∀ tenantID new, w ≠ .alert tenantID new)
      (hk : ∀ l ∈ k, ∃ entry, l = .waitlist entry) : Next cfg s tx t (w.quota cfg) k .statement
  | checked (tenantID : Slug) (new : StoredAlert) (hpoint : t.point = .start) (hnow : new.receivedAt = t.now)
      (hdup : s.tables.tenantOf new.devicePK = some tenantID → ∀ a ∈ s.tables.alerts, a.duplicates new = false) :
      Next cfg s tx t ((Work.alert tenantID new).quota cfg) none (.checked tx new)
  | locked (w : Work) (hpoint : t.point = .lockQuota w) :
      Next cfg s tx t (if w.deviceID = none then .count w else .deviceExists w)
        (some (.quota (cfg.hash w.tenantID))) .statement
  | has (w : Work) (deviceID : String) (hpoint : t.point = .deviceExists w) (hdevice : w.deviceID = some deviceID)
      (hhas : s.tables.hasDevice w.tenantID deviceID = true) : Next cfg s tx t (.write w) none .statement
  | hasNot (w : Work) (hpoint : t.point = .deviceExists w)
      (hnot : ∀ deviceID ∈ w.deviceID, s.tables.hasDevice w.tenantID deviceID = false) :
      Next cfg s tx t (.count w) none .statement
  | counted (w : Work) (hpoint : t.point = .count w)
      (hfree : quotaFull (w.used s.tables t.now) (w.max cfg) = false) : Next cfg s tx t (.write w) none .statement

/-- All that a statement of a transaction can do. -/
inductive Change (cfg : Config) (s : State) (tx : Nat) (t : Txn) : State → Event → Prop
  | ended (e : Event) (he : e = .failed ∨ e = .duplicate) : Change cfg s tx t (s.close tx) e
  | refused (w : Work) (hpoint : t.point = .count w) (hfull : quotaFull (w.used s.tables t.now) (w.max cfg) = true) :
      Change cfg s tx t (s.close tx) (.refused w)
  | goesOn (p : Point) (k : Option Lock) (e : Event) (hfree : ∀ l ∈ k, s.txns.mayLock tx l = true)
      (hnext : Next cfg s tx t p k e) :
      Change cfg s tx t ((k.elim s (s.lock tx)).put tx { t with point := p }) e
  | deleted (tables : Tables) (hpoint : t.point = .start) (hdelete : stepDelete s.tables t.call = some tables) :
      Change cfg s tx t { s.close tx with tables } .deleted
  | wrote (w : Work) (fresh : UUID) (tables : Tables) (hpoint : t.point = .write w)
      (happly : w.apply s.tables fresh = some tables) : Change cfg s tx t { s.close tx with tables } (.committed w)

section change

variable {cfg : Config} {s s' : State} {tx : Nat} {t : Txn} {e : Event} {fresh : UUID} {r : State × Event}

theorem Change.begin (w : Work) (hpoint : t.point = .start) (hw : ∀ tenantID new, w ≠ .alert tenantID new) :
    Change cfg s tx t (s.put tx { t with point := w.quota cfg }) .statement :=
  .goesOn _ none _ (fun _ hl => by cases hl) (.begun w none hpoint hw fun _ hl => by cases hl)

theorem stepStart_change (hpoint : t.point = .start) (hstep : stepStart cfg s tx t = some r) :
    Change cfg s tx t r.1 r.2 := by
  unfold stepStart at hstep
  dsimp only at hstep
  split at hstep
  · obtain rfl := Option.some.inj hstep
    exact .begin _ hpoint fun _ _ h => by cases h
  · next entry targetTenant _ =>
      split at hstep
      · next hfree =>
          obtain rfl := Option.some.inj hstep
          split
          · exact .ended _ (.inl rfl)
          · refine .goesOn _ (some (.waitlist entry)) _ ?_ (.begun (.user _ _) _ hpoint (fun _ _ h => by cases h) ?_)
            · rintro l ⟨⟩
              exact hfree
            · rintro l ⟨⟩
              exact ⟨entry, rfl⟩
      · cases hstep
  · obtain rfl := Option.some.inj hstep
    exact .begin _ hpoint fun _ _ h => by cases h
  · obtain rfl := Option.some.inj hstep
    exact .begin _ hpoint fun _ _ h => by cases h
  · obtain rfl := Option.some.inj hstep
    split
    · exact .ended _ (.inl rfl)
    · exact .begin _ hpoint fun _ _ h => by cases h
  · next tenantID devicePK severity code message raw _ =>
      obtain rfl := Option.some.inj hstep
      split
      · exact .ended _ (.inr rfl)
      · next hdup =>
          refine .goesOn _ none _ (fun _ hl => by cases hl) (.checked tenantID _ hpoint rfl fun hown a ha => ?_)
          by_contra htrue
          exact hdup ⟨hown, List.any_eq_true.mpr ⟨a, ha, Bool.not_eq_false _ ▸ htrue⟩⟩
  all_goals
    obtain rfl := Option.some.inj hstep
    split
    · exact .ended _ (.inl rfl)
    · next tables hdelete => exact .deleted tables hpoint hdelete

theorem stepTxn_change (hstep : stepTxn cfg s tx t fresh = some r) : Change cfg s tx t r.1 r.2 := by
  unfold stepTxn at hstep
  split at hstep
  · next hpoint => exact stepStart_change hpoint hstep
  · next w hpoint =>
      split at hstep
      · next hfree =>
          obtain rfl := Option.some.inj hstep
          refine .goesOn _ (some (.quota (cfg.hash w.tenantID))) _ ?_ (.locked w hpoint)
          rintro l ⟨⟩
          exact hfree
      · cases hstep
  · next w hpoint =>
      obtain rfl := Option.some.inj hstep
      refine .goesOn _ none _ (fun _ hl => by cases hl) ?_
      split
      · next hhas =>
          obtain ⟨deviceID, hdevice, hhas⟩ := (Option.any_eq_true _ _).mp hhas
          exact .has w deviceID hpoint hdevice hhas
      · next hnot =>
          refine .hasNot w hpoint fun deviceID hdevice => ?_
          by_contra hhas
          exact hnot ((Option.any_eq_true _ _).mpr ⟨deviceID, hdevice, Bool.not_eq_false _ ▸ hhas⟩)
  · next w hpoint =>
      obtain rfl := Option.some.inj hstep
      split
      · next hfull => exact .refused w hpoint hfull
      · next hfree => exact .goesOn _ none _ (fun _ hl => by cases hl) (.counted w hpoint (Bool.eq_false_iff.mpr hfree))
  · next w hpoint =>
      obtain rfl := Option.some.inj hstep
      split
      · exact .ended _ (.inl rfl)
      · next tables happly => exact .wrote w fresh tables hpoint happly

theorem step_cases {a : Action} (hstep : step cfg s a = some (s', e)) :
    (∃ tx now call, a = .begin tx now call ∧ s.txns.txn tx = none ∧ s.clock ≤ now ∧
      s' = { s with clock := now, txns := s.txns.put tx ⟨call, now, .start⟩ } ∧ e = .statement) ∨
    (∃ tx fresh t, a = .next tx fresh ∧ s.txns.txn tx = some t ∧ Change cfg s tx t s' e) ∨
    (∃ tx, a = .rollback tx ∧ s' = s.close tx ∧ e = .failed) := by
  cases a with
  | begin tx now call =>
      simp only [step] at hstep
      split at hstep
      · cases hstep
      · next hbegins =>
          obtain ⟨rfl, rfl⟩ := Prod.mk.inj (Option.some.inj hstep)
          obtain ⟨hnone, hclock⟩ := not_or.mp hbegins
          exact .inl ⟨tx, now, call, rfl, by simpa using hnone, Int.not_lt.mp hclock, rfl, rfl⟩
  | next tx fresh =>
      obtain ⟨t, ht, hstep⟩ := Option.bind_eq_some_iff.mp hstep
      exact .inr (.inl ⟨tx, fresh, t, rfl, ht, stepTxn_change hstep⟩)
  | rollback tx =>
      simp only [step] at hstep
      split at hstep
      · cases hstep
      · obtain ⟨rfl, rfl⟩ := Prod.mk.inj (Option.some.inj hstep)
        exact .inr (.inr ⟨tx, rfl, rfl, rfl⟩)

end change

end ThesadaApp.TenantRows
