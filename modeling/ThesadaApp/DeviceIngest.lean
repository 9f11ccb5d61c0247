import ThesadaApp.DeviceBroker
import ThesadaApp.DynsecAcl
import ThesadaApp.EnrollService
import ThesadaApp.MqttIngest

/-!
Everything that writes the topic prefix or the tenant of a devices row: the status and info messages, the
claim, the reassign and the pairing. The prefix of a message is what its topic begins with, the claim builds
its own, a reassign keeps the stored one, and a pairing grants what is stored.
-/

namespace ThesadaApp.Rights

open TopicFilter

/-- The topic root. It has no wildcard, and a root of more than two levels has no kind past the second,
where the parser looks for one. -/
structure TopicRoot where
  val : String
  plain : Plain val
  noKind : ∀ l ∈ (levels val).drop 2, kindOf l = none

structure Config where
  root : TopicRoot
  tenants : List Slug
  enroll : EnrollConfig
  /-- The payload, trimmed, is `online` or `offline`, bare or quoted. -/
  isPresence : List UInt8 → Bool
  /-- `json.Unmarshal` into a map succeeds. -/
  isObject : List UInt8 → Bool

/-- `ExistsBySlug`. -/
def Config.tenantExists (cfg : Config) (tenant : String) : Bool := cfg.tenants.any fun t => t.val = tenant

/-- `deviceTopicPrefix` of the server: the stored prefix if there is one. -/
def storedTopicPrefix (root : String) (d : Device) : String :=
  let built := root ++ "/" ++ d.tenantID.val ++ "/" ++ d.deviceID
  match d.mqttTopicPrefix with
  | none => built
  | some stored => if stored = "" then built else stored

/-- The ACLs `provisionDeviceDynsec` writes for a row. -/
def provisionedACLs (cfg : Config) (d : Device) (broadRead : Bool) : List DynsecACL :=
  dynsecDeviceACLs cfg.root.val d.tenantID.val (storedTopicPrefix cfg.root.val d) broadRead

def setPrefix (mqttTopicPrefix : String) (d : Device) : Device :=
  { d with mqttTopicPrefix := if mqttTopicPrefix = "" then d.mqttTopicPrefix else some mqttTopicPrefix }

def upsertCore (quotaDevices : Int) (devices : DeviceTable) (tenantID : Slug) (deviceID mqttTopicPrefix : String)
    (fresh : UUID) : Except DeviceError (DeviceTable × UUID) :=
  if quotaAllowDevice devices tenantID deviceID quotaDevices = false then .error .quotaDevices
  else
    match devices.upsertRow tenantID deviceID fresh (setPrefix mqttTopicPrefix) with
    | none => .error .constraint
    | some r => .ok r

inductive Action where
  /-- A message arrives. The pairing and tombstone answers come with it; `fresh` is the id of a new row. -/
  | message (m : Message) (l : Lookups) (fresh : UUID)
  /-- A claim, with the enrollments as they are at that time. -/
  | claim (enrollments : KeyedTable Enrollment.key) (clock : Clock) (fresh : UUID) (deviceID pubkeyHex : String)
      (tenantID : Slug) (ownerUserID : UUID)
  | reassign (id : UUID) (targetTenant : Slug)
  | pair (id : UUID)

inductive Event where
  | ignored
  | refused
  /-- The topic prefix of a row was written while the row was in a tenant. -/
  | stored (id : UUID) (tenantID : Slug)
  | claimReplayed (id : UUID)
  | reassigned (id : UUID)
  | paired (id : UUID)
  deriving DecidableEq

/-- The upsert `handleStatus` or `handleInfo` makes of a message: tenant, device id and prefix. A presence
makes none. -/
def upsertOf (cfg : Config) (payload : List UInt8) : Route → Option (String × String × String)
  | .status tenant device topicPrefix =>
      if cfg.isPresence payload = false ∧ cfg.isObject payload then some (tenant, device, topicPrefix) else none
  | .info tenant device topicPrefix => if cfg.isObject payload then some (tenant, device, topicPrefix) else none
  | _ => none

/-- The upsert of a message under its gates. -/
def messageUpsert (cfg : Config) (m : Message) (l : Lookups) : Option (String × String × String) :=
  upsertOf cfg m.payload (route { l with tenantExists := cfg.tenantExists } m)

def storeMessage (cfg : Config) (devices : DeviceTable) (fresh : UUID) (tenant device topicPrefix : String) :
    DeviceTable × Event :=
  match cfg.tenants.find? fun t => t.val = tenant with
  | none => (devices, .refused)
  | some tenantID =>
      match upsertCore cfg.enroll.quotaDevices devices tenantID device topicPrefix fresh with
      | .error _ => (devices, .refused)
      | .ok (devices', id) => (devices', .stored id tenantID)

/-- The claim handlers from `FindForClaim`'s check of the device id on. -/
def claim (cfg : Config) (devices : DeviceTable) (enrollments : KeyedTable Enrollment.key) (clock : Clock) (fresh : UUID)
    (deviceID pubkeyHex : String) (tenantID : Slug) (ownerUserID : UUID) : DeviceTable × Event :=
  if validDeviceID deviceID = false then (devices, .refused)
  else
    let topicPrefix := deviceTopicPrefix cfg.root.val tenantID.val deviceID
    match Enroll.claimInto cfg.enroll ⟨enrollments, devices, [], cfg.tenants⟩ clock fresh
        ⟨deviceID, pubkeyHex, tenantID, ownerUserID, topicPrefix⟩ with
    | .error _ => (devices, .refused)
    | .ok (db, id) =>
        let replayed := (enrollments.find (deviceID, pubkeyHex)).any fun e =>
          claimRetryAllowed e.claimedAt e.claimedByTenant tenantID
        (db.devices, if replayed then .claimReplayed id else .stored id tenantID)

def step (cfg : Config) (devices : DeviceTable) : Action → Option (DeviceTable × Event)
  | .message m l fresh =>
      -- A topic that is published on has no wildcard.
      if Plain m.topic then
        match messageUpsert cfg m l with
        | none => some (devices, .ignored)
        | some (tenant, device, topicPrefix) => some (storeMessage cfg devices fresh tenant device topicPrefix)
      else none
  | .claim enrollments clock fresh deviceID pubkeyHex tenantID ownerUserID =>
      some (claim cfg devices enrollments clock fresh deviceID pubkeyHex tenantID ownerUserID)
  | .reassign id targetTenant =>
      match ThesadaApp.reassign cfg.enroll.quotaDevices cfg.tenants devices id targetTenant with
      | .error _ => some (devices, .refused)
      | .ok devices' => some (devices', .reassigned id)
  | .pair id =>
      match devices.get id with
      | none => some (devices, .refused)
      | some d =>
          match reserveBrokerIdentity devices d.tenantID d.deviceID with
          | .error _ => some (devices, .refused)
          | .ok (devices', _) => some (devices', .paired id)

def system (cfg : Config) : Machine DeviceTable Action Event where
  step := step cfg

end ThesadaApp.Rights
