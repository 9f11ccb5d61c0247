import ThesadaApp.DeviceBroker
import ThesadaApp.DynsecAcl
import ThesadaApp.EnrollPolicy
import ThesadaApp.KeyedTable
import ThesadaApp.RecordLedger

/-!
Provisioning and tearing down the broker side of one device id. Both are cut at every database call, each
one transaction, and at every broker command, so that any number of them interleave with each other and
with reassigns. A call may fail whether or not it took effect.

The record is kept in the devices rows and the clients on the broker. An identity is recorded before its
client is made; that its record goes only after its client holds as long as no provisioning of the same
identity has come in between the delete and the forget.
-/

namespace ThesadaApp.Broker

/-- The dynamic-security state of the broker: clients with their roles, and roles with their ACLs. -/
structure Dynsec where
  clients : KeyedTable (Prod.fst : String × List String → String)
  roles : KeyedTable (Prod.fst : String × List DynsecACL → String)

namespace Dynsec

def hasClient (b : Dynsec) (username : String) : Bool := (b.clients.find username).isSome

def hasRole (b : Dynsec) (name : String) : Bool := (b.roles.find name).isSome

/-- A role or client that exists is left as it is, and the broker answers "already exists". -/
def createRole (b : Dynsec) (name : String) (acls : List DynsecACL) : Dynsec :=
  { b with roles := b.roles.upsert (name, acls) id fun _ => rfl }

def setRoleACLs (b : Dynsec) (name : String) (acls : List DynsecACL) : Dynsec :=
  { b with roles := b.roles.updateWhere (fun e => e.1 = name) (fun e => (e.1, acls)) fun _ => rfl }

def createClient (b : Dynsec) (username : String) (roles : List String) : Dynsec :=
  { b with clients := b.clients.upsert (username, roles) id fun _ => rfl }

def deleteClient (b : Dynsec) (username : String) : Dynsec :=
  { b with clients := b.clients.deleteWhere fun e => e.1 = username }

def deleteRole (b : Dynsec) (name : String) : Dynsec :=
  { b with roles := b.roles.deleteWhere fun e => e.1 = name }

section hasClient

variable {b : Dynsec} {username other name : String} {roles : List String} {acls : List DynsecACL}

theorem hasClient_createClient (h : (b.createClient username roles).hasClient other = true) :
    other = username ∨ b.hasClient other = true := by
  simp only [hasClient, createClient, KeyedTable.find_upsert] at h
  split_ifs at h with heq
  · exact .inl heq
  · exact .inr h

theorem hasClient_deleteClient (h : (b.deleteClient username).hasClient other = true) :
    b.hasClient other = true := by
  obtain ⟨e, he⟩ := Option.isSome_iff_exists.mp h
  rw [deleteClient, KeyedTable.find_deleteWhere, Option.filter_eq_some_iff] at he
  exact Option.isSome_iff_exists.mpr ⟨e, he.1⟩

end hasClient

end Dynsec

/-- How a call ends: it runs and its answer arrives, it fails whether or not it ran, or its context has
ended and it is not sent. -/
inductive Reply where
  | answered
  | failed (ran : Bool)
  | ctxEnded
  deriving DecidableEq, Repr

/-- The call took effect. -/
def Reply.ran : Reply → Bool
  | .answered => true
  | .failed ran => ran
  | .ctxEnded => false

/-- The next call of a request. `stale` and `todo` are the identities still to be deleted. -/
inductive Phase where
  | createRole (stale : List Slug)
  | setRoleACLs (stale : List Slug)
  | createClient (stale : List Slug)
  | deleteClient (attempt : Nat) (identity : Slug) (todo : List Slug)
  | deleteRole (attempt : Nat) (clientGone : Bool) (identity : Slug) (todo : List Slug)
  | forget (identity : Slug) (todo : List Slug)
  | returned
  deriving DecidableEq

/-- The identity is reserved and its client not yet made. -/
def Phase.provisioning : Phase → Bool
  | .createRole _ | .setRoleACLs _ | .createClient _ => true
  | _ => false

/-- A running `provisionDeviceDynsec` or `teardownDeviceDynsec`: the row as it read it, the ACLs it writes,
and whether every identity so far went. -/
structure Request where
  tenantID : Slug
  devicePk : UUID
  acls : List DynsecACL
  clean : Bool
  phase : Phase
  deriving DecidableEq

structure State where
  devices : DeviceTable
  dynsec : Dynsec
  requests : List Request

structure Config where
  /-- The one device id. -/
  deviceID : String
  root : String
  quotaDevices : Int
  tenants : List Slug

inductive Action where
  | provision (tenantID : Slug) (topicPrefix : String) (broadRead : Bool) (reply : Reply)
  /-- The row as the caller read it, which a reassign may have moved since. -/
  | teardown (devicePk : UUID) (tenantID : Slug) (reply : Reply)
  | next (i : Nat) (reply : Reply)
  | reassign (id : UUID) (targetTenant : Slug) (reply : Reply)

inductive Event where
  | started
  | refused (step : String)
  | went (i : Nat)
  | failed (i : Nat) (step : String)
  | returned (i : Nat) (clean : Bool)
  | reassigned
  deriving DecidableEq, Repr

def dynsecTeardownAttempts : Nat := 3

def Config.cn (cfg : Config) (identity : Slug) : String := deviceCertCN identity.val cfg.deviceID

def Config.roleName (cfg : Config) (identity : Slug) : String := dynsecDeviceRoleName identity.val cfg.deviceID

def State.setRequest (s : State) (i : Nat) (r : Request) : State := { s with requests := s.requests.set i r }

/-- The next turn of `deleteStaleIdentities`. -/
def nextIdentity : List Slug → Phase
  | [] => .returned
  | t :: todo => .deleteClient 0 t todo

/-- Request `i` goes on to a phase. -/
def goOn (s : State) (i : Nat) (r : Request) (phase : Phase) : State × Event :=
  (s.setRequest i { r with phase }, if phase = .returned then .returned i r.clean else .went i)

/-- A provisioning ends with the name of the step that failed. -/
def fail (s : State) (i : Nat) (r : Request) (step : String) : State × Event :=
  (s.setRequest i { r with phase := .returned }, .failed i step)

/-- A broker command, if it runs. -/
def State.command (s : State) (reply : Reply) (run : Dynsec → Dynsec) : State :=
  if reply.ran then { s with dynsec := run s.dynsec } else s

/-- A try of `RetryDynsecDelete` is followed by another. -/
def retries (attempt : Nat) : Reply → Bool
  | .failed _ => attempt + 1 ≠ dynsecTeardownAttempts
  | _ => false

/-- The next call of request `i`. -/
def stepRequest (cfg : Config) (s : State) (i : Nat) (r : Request) (reply : Reply) : Option (State × Event) :=
  match r.phase with
  | .createRole stale =>
      let s' := s.command reply (·.createRole (cfg.roleName r.tenantID) r.acls)
      if reply = .answered then
        if s.dynsec.hasRole (cfg.roleName r.tenantID) then some (goOn s' i r (.setRoleACLs stale))
        else some (goOn s' i r (.createClient stale))
      else some (fail s' i r "dynsec_role_create")
  | .setRoleACLs stale =>
      let s' := s.command reply (·.setRoleACLs (cfg.roleName r.tenantID) r.acls)
      if reply = .answered ∧ s.dynsec.hasRole (cfg.roleName r.tenantID) then
        some (goOn s' i r (.createClient stale))
      else some (fail s' i r "dynsec_role_create")
  | .createClient stale =>
      let s' := s.command reply (·.createClient (cfg.cn r.tenantID) [cfg.roleName r.tenantID])
      if reply = .answered then some (goOn s' i r (nextIdentity stale))
      else some (fail s' i r "dynsec_client_create")
  | .deleteClient attempt identity todo =>
      let s' := s.command reply (·.deleteClient (cfg.cn identity))
      if retries attempt reply then some (goOn s' i r (.deleteClient (attempt + 1) identity todo))
      else some (goOn s' i r (.deleteRole 0 (reply = .answered) identity todo))
  | .deleteRole attempt clientGone identity todo =>
      let s' := s.command reply (·.deleteRole (cfg.roleName identity))
      if retries attempt reply then some (goOn s' i r (.deleteRole (attempt + 1) clientGone identity todo))
      else if clientGone then some (goOn s' i r (.forget identity todo))
      else some (goOn s' i { r with clean := false } (nextIdentity todo))
  | .forget identity todo =>
      -- The error of a forget is only logged.
      match forgetBrokerIdentity s.devices r.tenantID r.devicePk identity with
      | .error _ => some (goOn s i r (nextIdentity todo))
      | .ok devices =>
          if reply.ran then some (goOn { s with devices } i r (nextIdentity todo))
          else some (goOn s i r (nextIdentity todo))
  | .returned => none

def step (cfg : Config) (s : State) : Action → Option (State × Event)
  | .provision tenantID topicPrefix broadRead reply =>
      match reserveBrokerIdentity s.devices tenantID cfg.deviceID with
      | .error _ => some (s, .refused "broker_identity_reserve")
      | .ok (devices, id) =>
          let s' := if reply.ran then { s with devices } else s
          if reply = .answered then
            some ({ s' with
              requests := s'.requests ++ [⟨tenantID, id.devicePk,
                dynsecDeviceACLs cfg.root tenantID.val topicPrefix broadRead, true, .createRole id.stale⟩] }, .started)
          else some (s', .refused "broker_identity_reserve")
  | .teardown devicePk tenantID reply =>
      match brokerIdentityOf s.devices devicePk tenantID with
      | .error _ => some (s, .refused "identity_lookup")
      | .ok id =>
          if reply = .answered then
            some ({ s with requests := s.requests ++ [⟨tenantID, devicePk, [], true, nextIdentity id.tenants⟩] },
              .started)
          else some (s, .refused "identity_lookup")
  | .next i reply => s.requests[i]?.bind fun r => stepRequest cfg s i r reply
  | .reassign id targetTenant reply =>
      match reassign cfg.quotaDevices cfg.tenants s.devices id targetTenant with
      | .error _ => some (s, .refused "reassign")
      | .ok devices =>
          some (if reply.ran then { s with devices } else s,
            if reply = .answered then .reassigned else .refused "reassign")

def system (cfg : Config) : Machine State Action Event where
  step := step cfg

end ThesadaApp.Broker
