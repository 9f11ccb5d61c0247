import Mathlib.Data.List.Sort
import ThesadaApp.DeviceTable
import ThesadaApp.EnrollPolicy
import ThesadaApp.KeyedTable
import ThesadaApp.MachineRun

/-!
The enrollment service: every call that touches `device_enrollments`, one definition for each database
transaction. A transaction is atomic; one that fails leaves the tables as they were, except the claim
lookup, which commits the failure count it refuses with. `Verify` is two transactions, the burn and the
verified update. Clocks, nonces and generated ids come with the call.
-/

namespace ThesadaApp

/-- A row of `device_enrollments`. -/
structure Enrollment where
  deviceID : String
  pubkeyHex : String
  claimTokenHash : String
  claimFailures : Nat
  challenge : Option String
  challengeExpiresAt : Option Time
  verifiedAt : Option Time
  claimedByTenant : Option Slug
  claimedAt : Option Time
  certDeliveredAt : Option Time
  firstSeenAt : Time
  lastSeenAt : Time
  deriving DecidableEq

/-- The primary key: the device id and the public key. -/
abbrev EnrollKey := String × String

def Enrollment.key (e : Enrollment) : EnrollKey := (e.deviceID, e.pubkeyHex)

theorem Enrollment.key_eq {e : Enrollment} {d k : String} : e.key = (d, k) ↔ e.deviceID = d ∧ e.pubkeyHex = k := by
  simp [Enrollment.key]

/-- The columns of `device_certificates` the orphan test reads. -/
structure DeviceCertificate where
  devicePk : UUID
  pubkeyHex : Option String
  revoked : Bool
  deriving DecidableEq

structure Db where
  enrollments : KeyedTable Enrollment.key
  devices : DeviceTable
  certificates : List DeviceCertificate
  tenants : List Slug

/-- The state after a transaction that writes only `device_enrollments`. -/
def Db.setEnrollments (db : Db) (t : KeyedTable Enrollment.key) : Db := { db with enrollments := t }

@[simp] theorem Db.setEnrollments_enrollments (db : Db) (t : KeyedTable Enrollment.key) :
    (db.setEnrollments t).enrollments = t := rfl

inductive EnrollError where
  | notFound
  | sealed
  | keyChange
  | notReady
  | badProof
  | noOwner
  | ambiguous
  | claimLocked
  | claimedElsewhere
  | poolSeesOneTenant
  | badPublicKey
  | quotaDevices
  | brokerIdentityTaken
  /-- A constraint of the database refused the statement. -/
  | constraint
  deriving DecidableEq, Repr

structure EnrollConfig where
  crypto : Crypto
  /-- `ClaimHashKey`; empty keeps plain SHA-256. -/
  claimHashKey : String
  quotaDevices : Int
  /-- Whether the admin pool's role bypasses row-level security. -/
  adminSeesAllTenants : Bool

namespace Enroll

variable (cfg : EnrollConfig)

def accepts (token storedHash : String) : Bool := claimTokenAccepts cfg.crypto cfg.claimHashKey token storedHash

def digest (token : String) : String := claimTokenDigest cfg.crypto cfg.claimHashKey token

structure AnnounceCall where
  deviceID : String
  pubkeyHex : String
  claimToken : String

def AnnounceCall.key (a : AnnounceCall) : EnrollKey := (a.deviceID, a.pubkeyHex)

/-- The row an announce inserts. -/
def newRow (clock : Clock) (nonce : String) (a : AnnounceCall) : Enrollment where
  deviceID := a.deviceID
  pubkeyHex := a.pubkeyHex
  claimTokenHash := digest cfg a.claimToken
  claimFailures := 0
  challenge := some nonce
  challengeExpiresAt := some (clock.app + challengeTTL)
  verifiedAt := none
  claimedByTenant := none
  claimedAt := none
  certDeliveredAt := none
  firstSeenAt := clock.db
  lastSeenAt := clock.db

/-- What an announce writes to a row that exists: a fresh challenge, and the token while it may rotate. -/
def reannounce (clock : Clock) (nonce : String) (a : AnnounceCall) (e : Enrollment) : Enrollment :=
  { e with
    claimTokenHash := if claimTokenFrozen e.verifiedAt then e.claimTokenHash else digest cfg a.claimToken
    challenge := some nonce
    challengeExpiresAt := some (clock.app + challengeTTL)
    lastSeenAt := clock.db }

theorem reannounce_key (clock : Clock) (nonce : String) (a : AnnounceCall) (e : Enrollment) :
    (reannounce cfg clock nonce a e).key = e.key := rfl

/-- Another verified row of the device id sorts before (verified_at, pubkey). -/
def olderVerified (rows : KeyedTable Enrollment.key) (deviceID pubkeyHex : String) (verifiedAt : Time) : Bool :=
  rows.rows.any fun r => r.deviceID = deviceID && r.pubkeyHex ≠ pubkeyHex &&
    (match r.verifiedAt with
      | none => false
      | some otherAt => claimLockOlder verifiedAt otherAt pubkeyHex r.pubkeyHex)

def clearRow (e : Enrollment) : Enrollment := { e with claimFailures := 0 }

theorem clearRow_key (e : Enrollment) : (clearRow e).key = e.key := rfl

/-- An announce of a row that exists: the row rotated. -/
def rotate (db : Db) (clock : Clock) (nonce : String) (a : AnnounceCall) : KeyedTable Enrollment.key :=
  db.enrollments.updateWhere (fun e => e.key = a.key) (reannounce cfg clock nonce a)
    (reannounce_key cfg clock nonce a)

/-- Whether an announce of the row `existing` clears the device id's lock, the older rows being read
after the rotation. -/
def announceClears (rotated : KeyedTable Enrollment.key) (a : AnnounceCall) (existing : Enrollment) : Bool :=
  let ownsCode := accepts cfg a.claimToken existing.claimTokenHash
  let older :=
    match existing.verifiedAt with
    | some verifiedAt => ownsCode && olderVerified rotated a.deviceID a.pubkeyHex verifiedAt
    | none => false
  claimLockClears ownsCode existing.verifiedAt older

/-- `Announce`. `raced` is a first announce whose SELECT missed a row that another one has inserted by
the time of the INSERT, which then takes its ON CONFLICT branch. -/
def announce (db : Db) (clock : Clock) (nonce : String) (raced : Bool) (a : AnnounceCall) :
    Except EnrollError Db :=
  if validDeviceID a.deviceID = false then .error .notFound
  else if parseDevicePublicKey a.pubkeyHex = false then .error .badPublicKey
  else
    match if raced then none else db.enrollments.find a.key with
    | none =>
        .ok (db.setEnrollments (db.enrollments.upsert (newRow cfg clock nonce a) (reannounce cfg clock nonce a)
          (reannounce_key cfg clock nonce a)))
    | some existing =>
        if pubkeyStable existing.pubkeyHex a.pubkeyHex = false then .error .keyChange
        else
          let rotated := rotate cfg db clock nonce a
          if announceClears cfg rotated a existing then
            .ok (db.setEnrollments
              (rotated.updateWhere (fun e => e.deviceID = a.deviceID) clearRow clearRow_key))
          else .ok (db.setEnrollments rotated)

/-- What the burn hands to the rest of `Verify`: the challenge to judge and the token hash it read. -/
structure Burned where
  challenge : String
  tokenHash : String
  deriving DecidableEq, Repr

def burnRow (clock : Clock) (e : Enrollment) : Enrollment :=
  { e with challenge := none, challengeExpiresAt := none, lastSeenAt := clock.db }

theorem burnRow_key (clock : Clock) (e : Enrollment) : (burnRow clock e).key = e.key := rfl

/-- The first transaction of `Verify`. -/
def verifyBurn (db : Db) (clock : Clock) (deviceID pubkeyHex : String) : Except EnrollError (Db × Burned) :=
  if validDeviceID deviceID = false then .error .badProof
  else if parseDevicePublicKey pubkeyHex = false then .error .badProof
  else
    match db.enrollments.find (deviceID, pubkeyHex) with
    | none => .error .badProof
    | some e =>
        if proofAllowed e.certDeliveredAt = false then .error .sealed
        else
          let challenge := e.challenge.getD ""
          if challengeUsable challenge e.challengeExpiresAt clock.app = false then .error .badProof
          else
            .ok (db.setEnrollments (db.enrollments.updateWhere (fun e => e.key = (deviceID, pubkeyHex))
              (burnRow clock) (burnRow_key clock)), ⟨challenge, e.claimTokenHash⟩)

/-- The rows the second transaction of `Verify` updates: the row as the burn left it. -/
def verifyMatches (deviceID pubkeyHex tokenHash : String) (e : Enrollment) : Bool :=
  e.key = (deviceID, pubkeyHex) && e.claimTokenHash = tokenHash && e.challenge.isNone

def verifyRow (clock : Clock) (e : Enrollment) : Enrollment := { e with verifiedAt := some clock.db }

theorem verifyRow_key (clock : Clock) (e : Enrollment) : (verifyRow clock e).key = e.key := rfl

/-- The second transaction of `Verify`. -/
def verifyMark (db : Db) (clock : Clock) (deviceID pubkeyHex tokenHash : String) : Except EnrollError Db :=
  if db.enrollments.rows.any (verifyMatches deviceID pubkeyHex tokenHash) then
    .ok (db.setEnrollments (db.enrollments.updateWhere (verifyMatches deviceID pubkeyHex tokenHash)
      (verifyRow clock) (verifyRow_key clock)))
  else .error .badProof

/-- The rows of a device id in the order of their keys. -/
def candidates (db : Db) (deviceID : String) : List Enrollment :=
  (db.enrollments.rows.filter fun e => e.deviceID = deviceID).insertionSort fun a b => a.pubkeyHex ≤ b.pubkeyHex

theorem mem_candidates {db : Db} {d : String} {r : Enrollment} :
    r ∈ candidates db d ↔ r ∈ db.enrollments ∧ r.deviceID = d := by
  simp [candidates, KeyedTable.mem_rows]

/-- The largest failure count among rows. -/
def worstFailures (rows : List Enrollment) : Nat := rows.foldl (fun worst e => max worst e.claimFailures) 0

def missRow (e : Enrollment) : Enrollment := { e with claimFailures := e.claimFailures + 1 }

theorem missRow_key (e : Enrollment) : (missRow e).key = e.key := rfl

/-- What a presented code is worth against the rows of a device id. -/
inductive Judgement where
  | unknown
  | locked
  | wrong
  | found (e : Enrollment)
  | ambiguous
  deriving DecidableEq

/-- The claim lookup's judgement. Several rows with the code are narrowed to the claimable ones, and
anything but one is refused. -/
def judgeClaim (rows : List Enrollment) (claimToken : String) : Judgement :=
  if rows = [] then .unknown
  else if claimFailuresExhausted (worstFailures rows) then .locked
  else
    match rows.filter fun e => accepts cfg claimToken e.claimTokenHash with
    | [] => .wrong
    | [e] => .found e
    | several =>
        match several.filter fun e => claimAllowed e.verifiedAt e.claimedAt with
        | [e] => .found e
        | _ => .ambiguous

/-- A wrong code counted on every row of the device id. -/
def bumpFailures (db : Db) (deviceID : String) : Db :=
  db.setEnrollments (db.enrollments.updateWhere (fun e => e.deviceID = deviceID) missRow missRow_key)

/-- `FindForClaim`. -/
def findForClaim (db : Db) (deviceID claimToken : String) : Db × Except EnrollError Enrollment :=
  if validDeviceID deviceID = false ∨ claimToken = "" then (db, .error .notFound)
  else
    match judgeClaim cfg (candidates db deviceID) claimToken with
    | .unknown => (db, .error .notFound)
    | .locked => (db, .error .claimLocked)
    | .wrong =>
        let bumped := bumpFailures db deviceID
        let next := worstFailures (candidates bumped deviceID)
        (bumped, .error (if claimFailuresExhausted next then .claimLocked else .notFound))
    | .found e => (db, .ok e)
    | .ambiguous => (db, .error .ambiguous)

def deliverRow (clock : Clock) (e : Enrollment) : Enrollment :=
  { e with certDeliveredAt := some clock.db, lastSeenAt := clock.db }

theorem deliverRow_key (clock : Clock) (e : Enrollment) : (deliverRow clock e).key = e.key := rfl

/-- `MarkDelivered`: the device's acknowledgement seals its row. -/
def markDelivered (db : Db) (clock : Clock) (deviceID pubkeyHex claimToken : String) :
    Except EnrollError (Db × Slug) :=
  match db.enrollments.find (deviceID, pubkeyHex) with
  | none => .error .notFound
  | some e =>
      if accepts cfg claimToken e.claimTokenHash = false then .error .notFound
      else if deliverAllowed e.verifiedAt e.claimedAt e.certDeliveredAt = false then .error .notReady
      else
        match e.claimedByTenant with
        | none => .error .notReady
        | some tenant =>
            .ok (db.setEnrollments (db.enrollments.updateWhere (fun e => e.key = (deviceID, pubkeyHex))
              (deliverRow clock) (deliverRow_key clock)), tenant)

structure ClaimCall where
  deviceID : String
  pubkeyHex : String
  tenantID : Slug
  ownerUserID : UUID
  topicPrefix : String
  deriving DecidableEq

def ClaimCall.key (c : ClaimCall) : EnrollKey := (c.deviceID, c.pubkeyHex)

/-- Another tenant's row holds this tenant's broker identity for the device id. -/
def identityTaken (devices : DeviceTable) (c : ClaimCall) : Bool :=
  devices.rows.any fun d => d.deviceID = c.deviceID && d.tenantID ≠ c.tenantID &&
    (d.brokerTenantID = some c.tenantID || d.brokerStaleTenants.contains c.tenantID)

/-- The columns the claim writes to the devices row. -/
def claimDevice (c : ClaimCall) (d : Device) : Device :=
  { d with ownerUserID := some c.ownerUserID, mqttTopicPrefix := some c.topicPrefix }

def claimRow (clock : Clock) (c : ClaimCall) (e : Enrollment) : Enrollment :=
  { e with claimedByTenant := some c.tenantID, claimedAt := some clock.db }

theorem claimRow_key (clock : Clock) (c : ClaimCall) (e : Enrollment) : (claimRow clock c e).key = e.key := rfl

/-- `ClaimInto`. `fresh` is the id a new devices row would get. -/
def claimInto (db : Db) (clock : Clock) (fresh : UUID) (c : ClaimCall) : Except EnrollError (Db × UUID) :=
  if c.ownerUserID = UUID.nil then .error .noOwner
  else
    match db.enrollments.find c.key with
    | none => .error .notFound
    | some e =>
        if claimRetryAllowed e.claimedAt e.claimedByTenant c.tenantID then
          match db.devices.rows.find? fun d =>
              d.tenantID = c.tenantID ∧ d.deviceID = c.deviceID ∧ d.ownerUserID = some c.ownerUserID with
          | none => .error .notReady
          | some d => .ok (db, d.id)
        else if claimAllowed e.verifiedAt e.claimedAt = false then .error .notReady
        else if quotaAllowDevice db.devices c.tenantID c.deviceID cfg.quotaDevices = false then
          .error .quotaDevices
        else if identityTaken db.devices c then .error .brokerIdentityTaken
        else if c.tenantID ∉ db.tenants then .error .constraint
        else
          match db.devices.upsertRow c.tenantID c.deviceID fresh (claimDevice c) with
          | none => .error .constraint
          | some (devices, pk) =>
              .ok ({ db.setEnrollments (db.enrollments.updateWhere (fun e => e.key = c.key)
                  (claimRow clock c) (claimRow_key clock c)) with devices }, pk)

/-- A claim its tenant no longer backs: pending without a devices row there, or sealed without one that
holds a certificate for its key. -/
def orphanClaim (db : Db) (e : Enrollment) : Bool :=
  match e.claimedByTenant with
  | none => false
  | some t =>
      !db.devices.rows.any fun d => d.tenantID = t && d.deviceID = e.deviceID &&
        (e.certDeliveredAt.isNone ||
          db.certificates.any fun c => c.devicePk = d.id &&
            (c.pubkeyHex = some e.pubkeyHex || (c.pubkeyHex.isNone && !c.revoked)))

/-- The rows of a device id nobody or `tenantID` has claimed. -/
def ownOrUnclaimed (deviceID : String) (tenantID : Slug) (e : Enrollment) : Bool :=
  e.deviceID = deviceID && (e.claimedByTenant.isNone || e.claimedByTenant = some tenantID)

def deleteRows (db : Db) (p : Enrollment → Bool) : Db := db.setEnrollments (db.enrollments.deleteWhere p)

/-- `Reset`: the device id's unclaimed rows, the tenant's own, and orphan claims. -/
def reset (db : Db) (deviceID : String) (tenantID : Slug) : Db :=
  let db₁ :=
    if cfg.adminSeesAllTenants then
      deleteRows db fun e => e.deviceID = deviceID && e.claimedByTenant ≠ some tenantID && orphanClaim db e
    else db
  deleteRows db₁ (ownOrUnclaimed deviceID tenantID)

/-- `ResetForTenant`: the same rows, refused while another tenant holds a claim. -/
def resetForTenant (db : Db) (deviceID : String) (tenantID : Slug) : Except EnrollError Db :=
  if db.enrollments.rows.any fun e => e.deviceID = deviceID && e.claimedByTenant.isSome &&
      e.claimedByTenant ≠ some tenantID then .error .claimedElsewhere
  else .ok (deleteRows db (ownOrUnclaimed deviceID tenantID))

def sweepOrphanClaims (db : Db) : Except EnrollError Db :=
  if cfg.adminSeesAllTenants then .ok (deleteRows db (orphanClaim db)) else .error .poolSeesOneTenant

/-- `Prune`: stale unclaimed rows. -/
def prune (db : Db) (clock : Clock) : Db :=
  deleteRows db fun e => e.claimedAt.isNone && e.lastSeenAt < clock.app - enrollmentTTL

/-- The rest of the application rewrites the other tables; deleting a tenant deletes the rows it claimed. -/
def others (db : Db) (devices : DeviceTable) (certificates : List DeviceCertificate) (tenants : List Slug) : Db :=
  { deleteRows db (fun e => match e.claimedByTenant with
      | none => false
      | some t => !tenants.contains t) with devices, certificates, tenants }

/-- A transaction of the service. -/
inductive Tx where
  | announce (clock : Clock) (nonce : String) (raced : Bool) (a : AnnounceCall)
  | verifyBurn (clock : Clock) (deviceID pubkeyHex : String)
  | verifyMark (clock : Clock) (deviceID pubkeyHex tokenHash : String)
  | findForClaim (deviceID claimToken : String)
  | markDelivered (clock : Clock) (deviceID pubkeyHex claimToken : String)
  | claimInto (clock : Clock) (fresh : UUID) (c : ClaimCall)
  | reset (deviceID : String) (tenantID : Slug)
  | resetForTenant (deviceID : String) (tenantID : Slug)
  | prune (clock : Clock)
  | sweepOrphanClaims
  | others (devices : DeviceTable) (certificates : List DeviceCertificate) (tenants : List Slug)

/-- What a successful transaction answers. -/
inductive Answer where
  | announced (challenge : String)
  | burned (b : Burned)
  | verified
  | found (e : Enrollment)
  | delivered (tenant : Slug)
  | claimed (devicePk : UUID)
  | removed (rows : Nat)
  | changed
  deriving DecidableEq

/-- Commit what a transaction returns, or roll back. -/
def outcome {α : Type} (db : Db) (r : Except EnrollError α) (f : α → Db × Answer) : Db × Except EnrollError Answer :=
  match r with
  | .error e => (db, .error e)
  | .ok a => ((f a).1, .ok (f a).2)

/-- The rows a deletion removed. -/
def removedRows (db db' : Db) : Answer := .removed (db.enrollments.rows.length - db'.enrollments.rows.length)

def Tx.run (db : Db) : Tx → Db × Except EnrollError Answer
  | .announce clock nonce raced a => outcome db (Enroll.announce cfg db clock nonce raced a) (·, .announced nonce)
  | .verifyBurn clock d k => outcome db (Enroll.verifyBurn db clock d k) fun r => (r.1, .burned r.2)
  | .verifyMark clock d k h => outcome db (Enroll.verifyMark db clock d k h) (·, .verified)
  | .findForClaim d token =>
      let r := Enroll.findForClaim cfg db d token
      (r.1, r.2.map .found)
  | .markDelivered clock d k token =>
      outcome db (Enroll.markDelivered cfg db clock d k token) fun r => (r.1, .delivered r.2)
  | .claimInto clock fresh c => outcome db (Enroll.claimInto cfg db clock fresh c) fun r => (r.1, .claimed r.2)
  | .reset d t => outcome db (.ok (Enroll.reset cfg db d t)) fun db' => (db', removedRows db db')
  | .resetForTenant d t => outcome db (Enroll.resetForTenant db d t) fun db' => (db', removedRows db db')
  | .prune clock => outcome db (.ok (Enroll.prune db clock)) fun db' => (db', removedRows db db')
  | .sweepOrphanClaims => outcome db (Enroll.sweepOrphanClaims cfg db) fun db' => (db', removedRows db db')
  | .others devices certificates tenants => (Enroll.others db devices certificates tenants, .ok .changed)

/-- Any order of transactions: each one runs alone. -/
def service : Machine Db Tx (Tx × Except EnrollError Answer) where
  step db t := some ((t.run cfg db).1, t, (t.run cfg db).2)

end Enroll

end ThesadaApp
