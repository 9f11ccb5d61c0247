import ThesadaApp.KeyedTable
import ThesadaApp.SecretEnvelope

/-!
`SecretService`: the secrets of the devices and the defaults of the tenants in one table, under row-level security, and
the calls that write and read them, each a transaction of its own. An error is a rollback.
-/

namespace ThesadaApp.Secrets

def wifiPasswordPrefix : String := "wifi.password:"

def legacyWifiPassword : String := "wifi.password"

def scalarSecretFields : List String := ["mqtt.password", "telegram.bot_token", "web.password", "wifi.ap_password"]

def isWifiPasswordField (field : String) : Bool :=
  field = legacyWifiPassword ||
    (wifiPasswordPrefix.toList.isPrefixOf field.toList && wifiPasswordPrefix.length < field.length)

def validSecretField (field : String) : Bool := scalarSecretFields.contains field || isWifiPasswordField field

inductive SecretError where
  | disabled
  | unknownField (field : String)
  | noDevice
  | deviceLevelOnly
  | noNewKeyring
  /-- A foreign key or the policy of a table refuses a row. -/
  | database
  | unwrap
  | decrypt (field : String)
  | neitherKey (tenantID : Slug)
  deriving DecidableEq

/-- Where a secret is stored: for a device, or as the default of the tenant. -/
structure Place where
  tenantID : Slug
  devicePK : Option UUID
  field : String
  deriving DecidableEq

/-- The keys of the two partial unique indexes. -/
inductive Slot where
  | device (devicePK : UUID) (field : String)
  | tenant (tenantID : Slug) (field : String)
  deriving DecidableEq

def Place.slot (p : Place) : Slot :=
  match p.devicePK with
  | some devicePK => .device devicePK p.field
  | none => .tenant p.tenantID p.field

/-- What the ciphertext of the place is bound to. -/
def Place.aad (p : Place) : String :=
  match p.devicePK with
  | some devicePK => secretAAD p.tenantID devicePK p.field
  | none => tenantSecretAAD p.tenantID p.field

/-- A row of `tenant_dek`. -/
structure DekRow (β : Type) where
  tenantID : Slug
  wrappedDEK : β
  kekVersion : Nat

/-- A row of `device_config_secrets`. -/
structure SecretRow (β : Type) extends Place where
  ciphertext : β

abbrev DekTable (β : Type) := KeyedTable fun row : DekRow β => row.tenantID

structure Store (β : Type) where
  tenantDEK : DekTable β
  secrets : KeyedTable fun r : SecretRow β => r.slot

/-- The tenants, and the tenant of each device. -/
structure Fleet where
  tenants : List Slug
  tenantOf : UUID → Option Slug

/-- What a call draws: a DEK, in case it mints one, and its nonces. -/
structure Draw (ν : Type) where
  dek : Key
  dekNonce : ν
  nonce : ν

/-- A draw of the runs on fixed inputs. -/
def firstDraw : Draw Unit := ⟨⟨List.replicate 32 2, by decide⟩, (), ()⟩

inductive SecretOrigin where
  | unset
  | override
  | tenant
  deriving DecidableEq

structure RotationResult where
  rotated : Nat
  alreadyNew : Nat
  deriving DecidableEq

section calls

variable {ν β : Type} (A : Gcm ν β) (fleet : Fleet)

def ensureTenantDEKTx (kek : Key) (draw : Draw ν) (s : Store β) (tenantID : Slug) : Except SecretError (Store β) :=
  if h : s.tenantDEK.find tenantID = none then
    if tenantID ∈ fleet.tenants then
      .ok { s with
        tenantDEK := s.tenantDEK.insert ⟨tenantID, wrapDEK A kek draw.dekNonce draw.dek (dekAAD tenantID), 1⟩ h }
    else .error .database
  else .ok s

/-- `tenantDEK`: the DEK of the tenant, minted on first use. -/
def tenantDEK (kek : Key) (draw : Draw ν) (s : Store β) (tenantID : Slug) : Except SecretError (Key × Store β) :=
  (ensureTenantDEKTx A fleet kek draw s tenantID).bind fun s =>
    match s.tenantDEK.find tenantID with
    | none => .error .database
    | some row =>
        match unwrapDEK A kek row.wrappedDEK (dekAAD tenantID) with
        | none => .error .unwrap
        | some dek => .ok (dek, s)

/-- INSERT … ON CONFLICT DO UPDATE SET ciphertext. A device that is not of the tenant fails the policy, and so does a
row of the device in another tenant. -/
def upsertSecret (s : Store β) (p : Place) (ciphertext : β) : Except SecretError (Store β) :=
  if p.devicePK.any fun devicePK => fleet.tenantOf devicePK ≠ some p.tenantID then .error .database
  else if (s.secrets.find p.slot).any fun r => r.tenantID ≠ p.tenantID then .error .database
  else .ok { s with secrets := s.secrets.upsert ⟨p, ciphertext⟩ (fun r => { r with ciphertext }) fun _ => rfl }

/-- The transaction of `SetSecret` and `SetTenantSecret`. -/
def writeSecret (kek : Key) (draw : Draw ν) (s : Store β) (p : Place) (value : List UInt8) :
    Except SecretError (Store β) :=
  (tenantDEK A fleet kek draw s p.tenantID).bind fun r =>
    upsertSecret fleet r.2 p (encryptSecret A r.1 draw.nonce value p.aad)

def setSecret (keyring : Option Key) (draw : Draw ν) (s : Store β) (tenantID : Slug) (devicePK : UUID) (field : String)
    (value : List UInt8) : Except SecretError (Store β) :=
  match keyring with
  | none => .error .disabled
  | some kek =>
      if validSecretField field = false then .error (.unknownField field)
      else if devicePK = UUID.nil then .error .noDevice
      else writeSecret A fleet kek draw s ⟨tenantID, some devicePK, field⟩ value

def setTenantSecret (keyring : Option Key) (draw : Draw ν) (s : Store β) (tenantID : Slug) (field : String)
    (value : List UInt8) : Except SecretError (Store β) :=
  match keyring with
  | none => .error .disabled
  | some kek =>
      if validSecretField field = false then .error (.unknownField field)
      else if field = legacyWifiPassword then .error .deviceLevelOnly
      else writeSecret A fleet kek draw s ⟨tenantID, none, field⟩ value

/-- DELETE of the row of the place, which the policy shows to its tenant only. -/
def deleteSecret (s : Store β) (p : Place) : Bool × Store β :=
  (s.secrets.rows.any fun r => r.toPlace = p, { s with secrets := s.secrets.deleteWhere fun r => r.toPlace = p })

def clearDeviceSecret (s : Store β) (tenantID : Slug) (devicePK : UUID) (field : String) :
    Except SecretError (Bool × Store β) :=
  if devicePK = UUID.nil then .error .noDevice
  else if validSecretField field = false then .error (.unknownField field)
  else .ok (deleteSecret s ⟨tenantID, some devicePK, field⟩)

def clearTenantSecret (s : Store β) (tenantID : Slug) (field : String) : Except SecretError (Bool × Store β) :=
  if validSecretField field = false then .error (.unknownField field)
  else .ok (deleteSecret s ⟨tenantID, none, field⟩)

def ensureTenantDEK (keyring : Option Key) (draw : Draw ν) (s : Store β) (tenantID : Slug) :
    Except SecretError (Store β) :=
  match keyring with
  | none => .error .disabled
  | some kek => ensureTenantDEKTx A fleet kek draw s tenantID

/-- The rows that the policy shows to the tenant. -/
def Store.visible (s : Store β) (tenantID : Slug) : List (SecretRow β) :=
  s.secrets.rows.filter fun r => r.tenantID = tenantID

/-- The query of `Resolve`: ORDER BY device_pk IS NULL LIMIT 1. -/
def Store.effectiveRow (s : Store β) (tenantID : Slug) (devicePK : UUID) (field : String) : Option (SecretRow β) :=
  let deviceOnly := decide (field = legacyWifiPassword)
  let rows := (s.visible tenantID).filter fun r =>
    r.field = field && (r.devicePK = some devicePK || r.devicePK = none && !deviceOnly)
  (rows.filter (fun r => r.devicePK.isSome) ++ rows.filter fun r => r.devicePK.isNone).head?

def resolve (keyring : Option Key) (draw : Draw ν) (s : Store β) (tenantID : Slug) (devicePK : UUID) (field : String) :
    Except SecretError ((List UInt8 × SecretOrigin) × Store β) :=
  match keyring with
  | none => .error .disabled
  | some kek =>
      if validSecretField field = false then .error (.unknownField field)
      else
        match s.effectiveRow tenantID devicePK field with
        | none => .ok (([], .unset), s)
        | some r =>
            (tenantDEK A fleet kek draw s tenantID).bind fun found =>
              let aad := if r.devicePK.isSome then secretAAD tenantID devicePK field else tenantSecretAAD tenantID field
              match decryptSecret A found.1 r.ciphertext aad with
              | none => .error (.decrypt field)
              | some value => .ok ((value, if r.devicePK.isSome then .override else .tenant), found.2)

/-- A row of the query of `OriginStatus` goes into the map: a device row wins whatever order the rows arrive in. -/
def scanOrigin (out : String → Option SecretOrigin) (r : SecretRow β) : String → Option SecretOrigin :=
  if r.devicePK.isSome then Function.update out r.field (some .override)
  else if out r.field ≠ some .override then Function.update out r.field (some .tenant)
  else out

/-- `OriginStatus`, of the rows as they arrive. -/
def originStatus (rows : List (SecretRow β)) : String → Option SecretOrigin :=
  rows.foldl scanOrigin fun field => if field ∈ scalarSecretFields then some .unset else none

/-- The rows of its query. -/
def Store.originRows (s : Store β) (tenantID : Slug) (devicePK : UUID) : List (SecretRow β) :=
  (s.visible tenantID).filter fun r => r.devicePK = some devicePK || r.devicePK = none

/-- UPDATE tenant_dek SET wrapped_dek. -/
def rewrap (rows : DekTable β) (tenantID : Slug) (rewrapped : β) : DekTable β :=
  rows.updateWhere (fun row => row.tenantID = tenantID)
    (fun row => { row with wrappedDEK := rewrapped, kekVersion := row.kekVersion + 1 }) fun _ => rfl

/-- A row in the loop of `RotateRootKEK`. -/
def rotateRow (kek newKEK : Key) (nonce : Slug → ν) (acc : RotationResult × DekTable β) (row : DekRow β) :
    Except SecretError (RotationResult × DekTable β) :=
  match unwrapDEK A kek row.wrappedDEK (dekAAD row.tenantID) with
  | none =>
      if (unwrapDEK A newKEK row.wrappedDEK (dekAAD row.tenantID)).isSome then
        .ok ({ acc.1 with alreadyNew := acc.1.alreadyNew + 1 }, acc.2)
      else .error (.neitherKey row.tenantID)
  | some dek =>
      .ok ({ acc.1 with rotated := acc.1.rotated + 1 },
        rewrap acc.2 row.tenantID (wrapDEK A newKEK (nonce row.tenantID) dek (dekAAD row.tenantID)))

def rotateRootKEK (keyring newKeyring : Option Key) (nonce : Slug → ν) (s : Store β) :
    Except SecretError (RotationResult × Store β) :=
  match keyring, newKeyring with
  | none, _ => .error .disabled
  | some _, none => .error .noNewKeyring
  | some kek, some newKEK =>
      (s.tenantDEK.rows.foldlM (rotateRow A kek newKEK nonce) (⟨0, 0⟩, s.tenantDEK)).map fun r =>
        (r.1, { s with tenantDEK := r.2 })

end calls

end ThesadaApp.Secrets
