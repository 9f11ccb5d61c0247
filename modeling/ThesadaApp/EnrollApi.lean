import ThesadaApp.CertStore

/-!
The device-facing enrollment endpoints: announce, verify, cert and ack, with the rate limits in front of them and
the service calls behind. Every refusal is one answer. Signing and the broker endpoint are parameters; a
call that fails in the database for want of a connection is left out.
-/

namespace ThesadaApp

/-- A sliding-window limiter: the times of the recent hits of each key. -/
structure Limiter where
  window : Time
  max : Nat
  hits : String → List Time

/-- `Allow`: the hit is recorded if the key is under the cap. -/
def Limiter.allow (l : Limiter) (now : Time) (key : String) : Limiter × Bool :=
  let kept := (l.hits key).filter fun t => now - l.window < t
  if l.max ≤ kept.length then ({ l with hits := Function.update l.hits key kept }, false)
  else ({ l with hits := Function.update l.hits key (kept ++ [now]) }, true)

namespace Enroll

/-- `FindByDeviceKey`. -/
def findByDeviceKey (cfg : EnrollConfig) (db : Db) (deviceID pubkeyHex claimToken : String) :
    Except EnrollError Enrollment :=
  if validDeviceID deviceID = false ∨ claimToken = "" then .error .notFound
  else if parseDevicePublicKey pubkeyHex = false then .error .notFound
  else
    match db.enrollments.find (deviceID, pubkeyHex) with
    | none => .error .notFound
    | some e => if accepts cfg claimToken e.claimTokenHash then .ok e else .error .notFound

/-- `Verify`: the burn commits before the signature is judged, and a good proof marks the row as the burn left it. -/
def verify (cfg : EnrollConfig) (db : Db) (clock markClock : Clock) (deviceID pubkeyHex : String) (sig : List UInt8) :
    Db × Except EnrollError Unit :=
  match verifyBurn db clock deviceID pubkeyHex with
  | .error e => (db, .error e)
  | .ok (db₁, burned) =>
      match verifyDeviceProof cfg.crypto deviceID pubkeyHex burned.challenge sig with
      | .error _ => (db₁, .error .badProof)
      | .ok () =>
          match verifyMark db₁ markClock deviceID pubkeyHex burned.tokenHash with
          | .error e => (db₁, .error e)
          | .ok db₂ => (db₂, .ok ())

end Enroll

namespace EnrollApi

inductive JsonValue where
  | str (s : String)
  | int (n : Int)
  deriving DecidableEq, Repr

/-- An answer: the status code and the fields of its JSON body, none when there is no body. -/
structure Response where
  code : Nat
  body : List (String × JsonValue)
  deriving DecidableEq, Repr

/-- `enrollReject`. -/
def enrollReject : Response := ⟨403, [("error", .str "enrollment refused")]⟩

def errorResponse (text : String) : Response := ⟨500, [("error", .str text)]⟩

structure SignedCert where
  certPEM : String
  keyPEM : String
  serialHex : String

structure Config where
  enroll : EnrollConfig
  /-- `SignDeviceCert` of the CA, by common name; there may be no CA. -/
  ca : Option (String → Option SignedCert)
  /-- `enrollBrokerEndpoint`. -/
  brokerHost : String
  mtlsPort : Int
  topicRoot : String

/-- The tables behind the endpoints. -/
structure Backend where
  enrollments : KeyedTable Enrollment.key
  store : Certs.Store
  tenants : List Slug

/-- The tables as the enrollment service sees them. -/
def Backend.db (b : Backend) : Db where
  enrollments := b.enrollments
  devices := b.store.devices
  certificates := b.store.certs.rows.map fun c => ⟨c.devicePk, c.pubkeyHex, c.revoked⟩
  tenants := b.tenants

def Backend.setEnrollments (b : Backend) (db : Db) : Backend := { b with enrollments := db.enrollments }

structure Limiters where
  byIP : Limiter
  byPair : Limiter
  byID : Limiter

def newEnrollLimiters : Limiters where
  byIP := ⟨seconds 3600, 60, fun _ => []⟩
  byPair := ⟨seconds 3600, 30, fun _ => []⟩
  byID := ⟨seconds 3600, 30, fun _ => []⟩

structure Server where
  limiters : Limiters
  backend : Backend

def enrollPairKey (deviceID pubkeyHex : String) : String := deviceID ++ "|" ++ pubkeyHex

/-- `enrollGate`: the IP budget is spent first, before the body fields are used as keys. -/
def enrollGate (l : Limiters) (now : Time) (clientIP deviceID pubkeyHex : String) : Limiters × Bool :=
  let ip := l.byIP.allow now clientIP
  let l := { l with byIP := ip.1 }
  if ip.2 = false then (l, false)
  else if validDeviceID deviceID = false then (l, false)
  else if parseDevicePublicKey pubkeyHex = false then (l, false)
  else
    let pair := l.byPair.allow now (enrollPairKey deviceID pubkeyHex)
    ({ l with byPair := pair.1 }, pair.2)

def enrollAnnounceGate (l : Limiters) (now : Time) (clientIP deviceID pubkeyHex : String) : Limiters × Bool :=
  let gate := enrollGate l now clientIP deviceID pubkeyHex
  if gate.2 = false then gate
  else
    let id := gate.1.byID.allow now deviceID
    ({ gate.1 with byID := id.1 }, id.2)

structure EnrollAnnounceReq where
  deviceID : String
  pubkey : String
  claimToken : String

structure EnrollVerifyReq where
  deviceID : String
  pubkey : String
  signature : String

structure EnrollCertReq where
  deviceID : String
  pubkey : String
  claimToken : String

/-- A request: who sent it, when, and its body, which may not decode. -/
structure Request (α : Type) where
  clientIP : String
  clock : Clock
  body : Option α

def challengeResponse (challenge : String) : Response :=
  ⟨200, [("challenge", .str challenge), ("expires_in", .int (challengeTTL / seconds 1))]⟩

/-- `raced` is a first announce that another one has overtaken, and `nonce` the challenge it draws. -/
def handleEnrollAnnounce (cfg : Config) (s : Server) (nonce : String) (raced : Bool) (r : Request EnrollAnnounceReq) :
    Server × Response :=
  match r.body with
  | none => (s, enrollReject)
  | some req =>
      let gate := enrollAnnounceGate s.limiters r.clock.app r.clientIP req.deviceID req.pubkey
      if gate.2 = false then (⟨gate.1, s.backend⟩, enrollReject)
      else
        match Enroll.announce cfg.enroll s.backend.db r.clock nonce raced ⟨req.deviceID, req.pubkey, req.claimToken⟩ with
        | .error _ => (⟨gate.1, s.backend⟩, enrollReject)
        | .ok db => (⟨gate.1, s.backend.setEnrollments db⟩, challengeResponse nonce)

def hexDigit (c : Char) : Option Nat :=
  if '0' ≤ c ∧ c ≤ '9' then some (c.toNat - '0'.toNat)
  else if 'a' ≤ c ∧ c ≤ 'f' then some (c.toNat - 'a'.toNat + 10)
  else if 'A' ≤ c ∧ c ≤ 'F' then some (c.toNat - 'A'.toNat + 10)
  else none

/-- `hex.DecodeString`. -/
def hexDecode : List Char → Option (List UInt8)
  | [] => some []
  | [_] => none
  | high :: low :: rest => do
      let h ← hexDigit high
      let l ← hexDigit low
      let bytes ← hexDecode rest
      some ((16 * h + l).toUInt8 :: bytes)

def handleEnrollVerify (cfg : Config) (s : Server) (markClock : Clock) (r : Request EnrollVerifyReq) :
    Server × Response :=
  match r.body with
  | none => (s, enrollReject)
  | some req =>
      let gate := enrollGate s.limiters r.clock.app r.clientIP req.deviceID req.pubkey
      if gate.2 = false then (⟨gate.1, s.backend⟩, enrollReject)
      else
        match hexDecode req.signature.toList with
        | none => (⟨gate.1, s.backend⟩, enrollReject)
        | some sig =>
            let verified := Enroll.verify cfg.enroll s.backend.db r.clock markClock req.deviceID req.pubkey sig
            let after : Server := ⟨gate.1, s.backend.setEnrollments verified.1⟩
            match verified.2 with
            | .error _ => (after, enrollReject)
            | .ok () => (after, ⟨200, [("status", .str "verified")]⟩)

/-- What a device is handed with its certificate. -/
def certResponse (cfg : Config) (tenant : Slug) (deviceID : String) (c : SignedCert) : Response :=
  ⟨200, [("cert_pem", .str c.certPEM), ("key_pem", .str c.keyPEM), ("tenant", .str tenant.val),
    ("device_id", .str deviceID), ("topic_prefix", .str (deviceTopicPrefix cfg.topicRoot tenant.val deviceID)),
    ("mqtt_host", .str cfg.brokerHost), ("mqtt_port", .int cfg.mtlsPort)]⟩

/-- What the state of an enrollment alone answers to a poll, or the tenant to issue under. -/
def pollAnswer (e : Enrollment) : Except Response Slug :=
  if e.verifiedAt.isNone then .error enrollReject
  else
    match e.claimedAt, e.claimedByTenant with
    | some _, some tenant => if e.certDeliveredAt.isSome then .error enrollReject else .ok tenant
    | _, _ => .error ⟨204, []⟩

/-- The enrollment a cert request names and the tenant to issue under, if its state lets a certificate be issued. -/
def certEnrollment (cfg : Config) (db : Db) (req : EnrollCertReq) : Except Response (Enrollment × Slug) :=
  match Enroll.findByDeviceKey cfg.enroll db req.deviceID req.pubkey req.claimToken with
  | .error _ => .error enrollReject
  | .ok e => (pollAnswer e).map fun tenant => (e, tenant)

/-- The signature and the insert; `certID` is the id of the row the certificate gets. -/
def issueCert (signDeviceCert : String → Option SignedCert) (store : Certs.Store) (tenant : Slug) (device : Device)
    (clock : Clock) (certID : Nat) (pubkey : String) : Except Response (Certs.Store × SignedCert) :=
  let cn := deviceCertCN tenant.val device.deviceID
  match signDeviceCert cn with
  | none => .error (errorResponse "sign failed")
  | some c =>
      match Certs.issueWithIdentity store tenant device.id clock.db ⟨certID, c.serialHex, cn⟩ pubkey with
      | .error _ => .error (errorResponse "persist failed")
      | .ok (store', _) => .ok (store', c)

def handleEnrollCert (cfg : Config) (s : Server) (certID : Nat) (r : Request EnrollCertReq) : Server × Response :=
  match r.body with
  | none => (s, enrollReject)
  | some req =>
      let gate := enrollGate s.limiters r.clock.app r.clientIP req.deviceID req.pubkey
      let refused : Server := ⟨gate.1, s.backend⟩
      if gate.2 = false then (refused, enrollReject)
      else
        match cfg.ca with
        | none => (refused, enrollReject)
        | some signDeviceCert =>
            match certEnrollment cfg s.backend.db req with
            | .error answer => (refused, answer)
            | .ok (_, tenant) =>
                match s.backend.store.devices.find tenant req.deviceID with
                | none => (refused, enrollReject)
                | some device =>
                    match issueCert signDeviceCert s.backend.store tenant device r.clock certID req.pubkey with
                    | .error answer => (refused, answer)
                    | .ok (store, c) =>
                        let issued : Server := ⟨gate.1, { s.backend with store }⟩
                        if cfg.brokerHost = "" then (issued, errorResponse "broker unconfigured")
                        else (issued, certResponse cfg tenant device.deviceID c)

def handleEnrollAck (cfg : Config) (s : Server) (r : Request EnrollCertReq) : Server × Response :=
  match r.body with
  | none => (s, enrollReject)
  | some req =>
      let gate := enrollGate s.limiters r.clock.app r.clientIP req.deviceID req.pubkey
      let refused : Server := ⟨gate.1, s.backend⟩
      if gate.2 = false then (refused, enrollReject)
      else
        match Enroll.markDelivered cfg.enroll s.backend.db r.clock req.deviceID req.pubkey req.claimToken with
        | .error .notFound => (refused, enrollReject)
        | .error .notReady => (refused, ⟨200, [("status", .str "sealed")]⟩)
        | .error _ => (refused, errorResponse "seal failed")
        | .ok (db, _) => (⟨gate.1, s.backend.setEnrollments db⟩, ⟨200, [("status", .str "sealed")]⟩)

end EnrollApi

end ThesadaApp
