import ThesadaApp.CertRevocation
import ThesadaApp.DeleteCascade
import ThesadaApp.EnrollApi
import ThesadaApp.SecretProvision

/-!
The operator's pairing of a device: a certificate is signed and stored as pending, it, its key, the port and the
secrets are pushed to the device, the broker is set up, and only then the row becomes active. Several such requests
and every other call on the certificates interleave, database call by database call and command by command; how the
device, the broker and the database answer comes with the action. A transaction may take effect and its answer be lost.
-/

namespace ThesadaApp.PairIssue

open Certs (Store NewCert)
open EnrollApi (SignedCert)

structure Config where
  certs : Certs.Config
  mqttTopicRoot : String
  mqttDeviceMTLSPort : Nat
  secretsEnabled : Bool

/-- The outcomes shown on the pairing page. -/
inductive Flash where
  | paired
  | caMissing
  | signFailed
  | persistFailed
  | pushCertFailed
  | pushKeyFailed
  | portFailed
  | secretDecrypt
  | secretRejected
  | secretUnreachable
  | dynsecFailed
  | activateFailed
  deriving DecidableEq, Repr

/-- A command to the device. -/
inductive Command where
  | certSet (partType pem : String)
  | configSet (text : String)
  | secretSet (fwField : String) (value : List UInt8)
  | restart
  deriving DecidableEq

def Command.name : Command → String
  | .certSet _ _ => "cert.set"
  | .configSet _ => "config.set"
  | .secretSet _ _ => "secret.set"
  | .restart => "restart"

/-- What is sent: the type of the part, or the field, on a line of its own. -/
def Command.payload : Command → List UInt8
  | .certSet partType pem => (partType ++ "\n" ++ pem).toUTF8.toList
  | .configSet text => text.toUTF8.toList
  | .secretSet fwField value => (fwField ++ "\n").toUTF8.toList ++ value
  | .restart => "{}".toUTF8.toList

/-- How a command ends for its sender. -/
inductive Reply where
  | ok
  | rejected
  | unreachable
  deriving DecidableEq, Repr

/-- How a transaction ends for its caller: with its answer, with an error that has undone it, or with an error although
it has taken effect. -/
inductive Commit where
  | answered
  | undone
  | lost
  deriving DecidableEq, Repr

/-- `deviceTopicPrefix` -/
def deviceTopicPrefix (cfg : Config) (device : Device) : String :=
  match device.mqttTopicPrefix with
  | some p => if p = "" then cfg.mqttTopicRoot ++ "/" ++ device.tenantID.val ++ "/" ++ device.deviceID else p
  | none => cfg.mqttTopicRoot ++ "/" ++ device.tenantID.val ++ "/" ++ device.deviceID

/-- Where `handleAdminDevicePairIssue` is. -/
inductive Point where
  | persist
  | clientCert
  | clientKey
  | port
  | secrets (primarySSID : String) (fields : List String)
  | dynsec
  | activate
  | restart
  /-- `failPairIssue` before `MarkFailed` -/
  | failing (stage : String) (flash : Flash)
  | audit (status stage : String) (flash : Flash)
  | answered
  deriving DecidableEq

/-- A request that has read its device and signed a certificate. -/
structure Attempt where
  device : Device
  signed : SignedCert
  /-- The id of the row, once it is stored. -/
  certID : Nat
  point : Point

def Attempt.cn (att : Attempt) : String := deviceCertCN att.device.tenantID.val att.device.deviceID

structure State where
  store : Store
  attempts : List Attempt

def boot : State := ⟨Certs.init, []⟩

/-- What a request does next. -/
inductive Step where
  /-- `IssuePending` -/
  | persist (commit : Commit) (id : Nat) (now : Time)
  /-- a command and its reply; the networks are those `deviceWifiSSIDs` finds -/
  | push (reply : Reply) (ssids : List String)
  /-- a secret field: what `Resolve` gives, none when it fails, and the reply if it is pushed -/
  | secret (revealed : Option (Option (List UInt8))) (reply : Reply)
  /-- `provisionDeviceDynsec`: the step that failed, if one did -/
  | dynsec (failed : Option String)
  | activate (commit : Commit) (now : Time)
  /-- the restart, which nothing answers, and whether it was published -/
  | restart (published : Bool)
  | markFailed (commit : Commit)
  | audit (commit : Commit)

inductive Action where
  /-- the request up to the signature: none is a CA that is missing, or fails -/
  | post (devicePk : UUID) (caReady : Bool) (signed : Option SignedCert)
  | next (k : Nat) (a : Step)
  /-- any other call on the devices and certificates -/
  | certs (a : Certs.Action)

inductive Event where
  | began (k : Nat) (serialHex : String)
  | refused (flash : Option Flash)
  | persisted (k : Nat) (e : Certs.Event) (answered : Bool)
  | pushed (k : Nat) (topic : String) (c : Command) (reply : Reply)
  | skipped (k : Nat)
  | provisioned (k : Nat) (failed : Option String)
  | activated (k : Nat) (e : Certs.Event) (answered : Bool)
  | restarted (k : Nat) (topic : String) (c : Command) (published : Bool)
  | markedFailed (k : Nat) (e : Certs.Event) (answered : Bool)
  | down (k : Nat)
  | audited (k : Nat) (status stage : String) (flash : Flash)
  | unaudited (k : Nat)
  | certs (e : Certs.Event)
  deriving DecidableEq

/-- The step of a push: its stage when it fails, and where it goes on. -/
def pushStep (cfg : Config) (att : Attempt) (ssids : List String) :
    Point → Option (Command × (String × Flash) × Point)
  | .clientCert =>
      some (.certSet "client_cert" att.signed.certPEM, ("push_client_cert", .pushCertFailed), .clientKey)
  | .clientKey => some (.certSet "client_key" att.signed.keyPEM, ("push_client_key", .pushKeyFailed), .port)
  | .port =>
      let r := Secrets.secretProvisionFields ssids
      some (.configSet ("mqtt.port " ++ toString cfg.mqttDeviceMTLSPort), ("config_set_port", .portFailed),
        if cfg.secretsEnabled then .secrets r.2 r.1 else .dynsec)
  | _ => none

/-- After a secret field. -/
def afterSecret (primarySSID : String) (fields : List String) : Point :=
  if fields = [] then .dynsec else .secrets primarySSID fields

/-- `secretAbortFlash` of the text a failed `pushSecret` gives. -/
def secretFlash : Reply → Flash
  | .unreachable => .secretUnreachable
  | .rejected | .ok => .secretRejected

/-- What `failPairIssue` writes into the audit row, by how `MarkFailed` ended. -/
def failedStatus (e : Certs.Event) (answered : Bool) : String :=
  if e = .changed then (if answered then "failed" else "flip_failed")
  else if e = .failed .notPending ∧ answered then "superseded"
  else "flip_failed"

def Attempt.to (att : Attempt) (point : Point) : Attempt := { att with point }

def State.put (s : State) (k : Nat) (att : Attempt) : State := { s with attempts := s.attempts.set k att }

/-- A call of the store by a request: the store afterwards and how it ended. -/
def call (cfg : Config) (s : Store) (a : Certs.Action) : Option (Store × Certs.Event) := Certs.step cfg.certs s a

def stepAttempt (cfg : Config) (s : State) (k : Nat) (att : Attempt) : Step → Option (State × Event)
  | .persist commit id now =>
      if att.point = .persist then
        if commit = .undone then some (s.put k (att.to .answered), .down k)
        else
          let n : NewCert := ⟨id, att.signed.serialHex, att.cn⟩
          let answered : Bool := commit = .answered
          (call cfg s.store (.issuePending att.device.tenantID att.device.id now n)).map fun r =>
            match r.2 with
            | .issued _ _ =>
                ({ s with store := r.1 }.put k
                  { att with certID := id, point := if answered then .clientCert else .answered }, .persisted k r.2 answered)
            | _ => ({ s with store := r.1 }.put k (att.to .answered), .persisted k r.2 answered)
      else none
  | .push reply ssids =>
      (pushStep cfg att ssids att.point).map fun r =>
        (s.put k (att.to (if reply = .ok then r.2.2 else .failing r.2.1.1 r.2.1.2)),
          .pushed k (Cascade.cliCommandTopic (deviceTopicPrefix cfg att.device) r.1.name) r.1 reply)
  | .secret revealed reply =>
      match att.point with
      | .secrets primarySSID (field :: fields) =>
          match revealed with
          | none => some (s.put k (att.to (.failing "secret_provision" .secretDecrypt)), .skipped k)
          | some none => some (s.put k (att.to (afterSecret primarySSID fields)), .skipped k)
          | some (some value) =>
              match Secrets.firmwareSecretField field primarySSID with
              | none => some (s.put k (att.to (afterSecret primarySSID fields)), .skipped k)
              | some fwField =>
                  let c := Command.secretSet fwField value
                  some (s.put k (att.to (if reply = .ok then afterSecret primarySSID fields
                      else .failing "secret_provision" (secretFlash reply))),
                    .pushed k (Cascade.cliCommandTopic (deviceTopicPrefix cfg att.device) c.name) c reply)
      | _ => none
  | .dynsec failed =>
      if att.point = .dynsec then
        some (s.put k (att.to (failed.elim .activate fun step => .failing step .dynsecFailed)), .provisioned k failed)
      else none
  | .activate commit now =>
      if att.point = .activate then
        if commit = .undone then some (s.put k (att.to (.failing "activate" .activateFailed)), .down k)
        else
          let answered : Bool := commit = .answered
          (call cfg s.store (.activate att.device.tenantID att.certID att.device.id now)).map fun r =>
            ({ s with store := r.1 }.put k (att.to
              (if r.2 = Certs.Event.changed ∧ answered then .restart else .failing "activate" .activateFailed)),
                .activated k r.2 answered)
      else none
  | .restart published =>
      if att.point = .restart then
        some (s.put k (att.to (.audit "active" "" .paired)), .restarted k
          (Cascade.cliCommandTopic (deviceTopicPrefix cfg att.device) Command.restart.name) .restart published)
      else none
  | .markFailed commit =>
      match att.point with
      | .failing stage flash =>
          if commit = .undone then some (s.put k (att.to (.audit "flip_failed" stage flash)), .down k)
          else
            let answered : Bool := commit = .answered
            (call cfg s.store (.markFailed att.device.tenantID att.certID)).map fun r =>
              ({ s with store := r.1 }.put k (att.to (.audit (failedStatus r.2 answered) stage flash)),
                .markedFailed k r.2 answered)
      | _ => none
  | .audit commit =>
      match att.point with
      | .audit status stage flash =>
          some (s.put k (att.to .answered), if commit = .undone then .unaudited k else .audited k status stage flash)
      | _ => none

/-- `Activate` and `MarkFailed` have no other caller. -/
def foreign : Certs.Action → Bool
  | .activate .. | .markFailed .. => false
  | _ => true

def step (cfg : Config) (s : State) : Action → Option (State × Event)
  | .post devicePk caReady signed =>
      match s.store.devices.get devicePk with
      | none => some (s, .refused none)
      | some device =>
          if caReady then
            match signed with
            | none => some (s, .refused (some .signFailed))
            | some signed => some ({ s with attempts := s.attempts ++ [⟨device, signed, 0, .persist⟩] },
                .began s.attempts.length signed.serialHex)
          else some (s, .refused (some .caMissing))
  | .next k a => s.attempts[k]?.bind fun att => stepAttempt cfg s k att a
  | .certs a =>
      if foreign a then (call cfg s.store a).map fun r => ({ s with store := r.1 }, .certs r.2) else none

def system (cfg : Config) : Machine State Action Event := ⟨step cfg⟩

end ThesadaApp.PairIssue
