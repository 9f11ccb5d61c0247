import ThesadaApp.EnrollApi

/-!
Certificate requests, acknowledgements and the owner's revoke, interleaved at their database calls: a cert request
judges its enrollment, looks the device up and inserts the certificate in three transactions, an acknowledgement is
one, and a revoke resets the enrollments and then revokes the certificates. Any number of each may be under way.
-/

namespace ThesadaApp.Delivery

open EnrollApi

/-- What a request does next, with what it has read. -/
inductive Phase where
  | certFind (req : EnrollCertReq)
  | certDevice (req : EnrollCertReq) (e : Enrollment) (tenant : Slug)
  | certIssue (req : EnrollCertReq) (e : Enrollment) (tenant : Slug) (device : Device)
  | ackMark (req : EnrollCertReq)
  | revokeReset (device : Device)
  | revokeCerts (device : Device)
  | done

/-- A request is named by its position. -/
structure State where
  server : Server
  requests : List Phase

inductive Action where
  | cert (r : Request EnrollCertReq)
  | ack (r : Request EnrollCertReq)
  /-- A revoke of the device that has passed the page's checks. -/
  | ownerRevoke (id : UUID)
  /-- The next transaction of a request; `certID` is the id of a row it inserts, and `signDeviceCert` what the CA
  answers this time, for each call draws a key and a serial. -/
  | next (i : Nat) (clock : Clock) (certID : Nat) (signDeviceCert : String → Option SignedCert)

inductive Event where
  | quiet
  /-- A cert request found the row of the key fit to deliver. -/
  | judged (i : Nat) (key : EnrollKey)
  /-- It inserted a certificate while its enrollment row was as given. -/
  | inserted (i : Nat) (key : EnrollKey) (tenant : Slug) (devicePk : UUID) (row : Option Enrollment)
  | sealed (key : EnrollKey)
  | reset (deviceID : String)
  | revoked (devicePk : UUID)
  deriving DecidableEq

def State.backend (s : State) : Backend := s.server.backend

def start (server : Server) : State := ⟨server, []⟩

/-- A request arrives and spends from its limits; one that is refused there goes no further. -/
def arrive (s : State) (r : Request EnrollCertReq) (phase : EnrollCertReq → Phase) : State × Event :=
  match r.body with
  | none => (s, .quiet)
  | some req =>
      let gate := enrollGate s.server.limiters r.clock.app r.clientIP req.deviceID req.pubkey
      (⟨⟨gate.1, s.backend⟩, s.requests ++ [if gate.2 then phase req else .done]⟩, .quiet)

def State.goOn (s : State) (i : Nat) (phase : Phase) (e : Event) : State × Event :=
  ({ s with requests := s.requests.set i phase }, e)

def State.setBackend (s : State) (backend : Backend) : State := { s with server := { s.server with backend } }

def stepRequest (cfg : Config) (s : State) (i : Nat) (clock : Clock) (certID : Nat)
    (signDeviceCert : String → Option SignedCert) : Phase → Option (State × Event)
  | .certFind req =>
      some (match cfg.ca, certEnrollment cfg s.backend.db req with
        | some _, .ok (e, tenant) => s.goOn i (.certDevice req e tenant) (.judged i e.key)
        | _, _ => s.goOn i .done .quiet)
  | .certDevice req e tenant =>
      some (match s.backend.store.devices.find tenant req.deviceID with
        | none => s.goOn i .done .quiet
        | some device => s.goOn i (.certIssue req e tenant device) .quiet)
  | .certIssue req e tenant device =>
      some (match issueCert signDeviceCert s.backend.store tenant device clock certID req.pubkey with
        | .error _ => s.goOn i .done .quiet
        | .ok (store, _) =>
            (s.setBackend { s.backend with store }).goOn i .done
              (.inserted i e.key tenant device.id (s.backend.enrollments.find e.key)))
  | .ackMark req =>
      some (match Enroll.markDelivered cfg.enroll s.backend.db clock req.deviceID req.pubkey req.claimToken with
        | .error _ => s.goOn i .done .quiet
        | .ok (db, _) => (s.setBackend (s.backend.setEnrollments db)).goOn i .done (.sealed (req.deviceID, req.pubkey)))
  | .revokeReset device =>
      some (match Enroll.resetForTenant s.backend.db device.deviceID device.tenantID with
        | .error _ => s.goOn i .done .quiet
        | .ok db => (s.setBackend (s.backend.setEnrollments db)).goOn i (.revokeCerts device) (.reset device.deviceID))
  | .revokeCerts device =>
      some (match Certs.revoke s.backend.store device.tenantID device.id clock.db with
        | .error _ => s.goOn i .done .quiet
        | .ok store => (s.setBackend { s.backend with store }).goOn i .done (.revoked device.id))
  | .done => none

def step (cfg : Config) (s : State) : Action → Option (State × Event)
  | .cert r => some (arrive s r .certFind)
  | .ack r => some (arrive s r .ackMark)
  | .ownerRevoke id =>
      (s.backend.store.devices.get id).map fun device => ({ s with requests := s.requests ++ [.revokeReset device] }, .quiet)
  | .next i clock certID signDeviceCert => (s.requests[i]?).bind (stepRequest cfg s i clock certID signDeviceCert)

def system (cfg : Config) : Machine State Action Event where
  step := step cfg

end ThesadaApp.Delivery
