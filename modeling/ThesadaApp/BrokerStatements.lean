import ThesadaApp.DeviceIngest
import ThesadaApp.RowLocks

/-!
The calls that write the devices rows, statement by statement under READ COMMITTED. A reservation locks its row and
then reads and writes in further statements; every other call writes in its last statement, which waits for the
locks on its rows. What was read before may be old by then. A transaction may roll back at any time.
-/

namespace ThesadaApp.BrokerRows

open Enroll (ClaimCall claimDevice identityTaken)
open Rights (setPrefix)

structure Config where
  quotaDevices : Int
  tenants : List Slug

inductive Call where
  | upsert (tenantID : Slug) (deviceID mqttTopicPrefix : String)
  /-- With the enrollment its first statement locks. -/
  | claimInto (c : ClaimCall) (row : Option Enrollment)
  | reserve (tenantID : Slug) (deviceID : String)
  | forget (tenantID : Slug) (devicePk : UUID) (identity : Slug)
  | reassign (id : UUID) (targetTenant : Slug)
  | delete (tenantID : Slug) (id : UUID)

/-- The statement a transaction runs next, with what the ones before it read. -/
inductive Txn where
  | upsertInsert (tenantID : Slug) (deviceID mqttTopicPrefix : String)
  | claimQuota (c : ClaimCall)
  | claimTaken (c : ClaimCall)
  | claimInsert (c : ClaimCall)
  | reserveCheck (tenantID : Slug) (deviceID : String) (d : Device)
  | reserveUpdate (tenantID : Slug) (d : Device)
  | reassignQuota (id : UUID) (targetTenant : Slug) (deviceID : String)
  | reassignUpdate (id : UUID) (targetTenant : Slug)

structure State where
  devices : DeviceTable
  txns : Txns UUID Txn

def start (devices : DeviceTable) : State := ⟨devices, .idle⟩

inductive Action where
  | begin (tx : Nat) (call : Call)
  /-- `fresh` is the id of a row the statement inserts. -/
  | next (tx : Nat) (fresh : UUID)
  | rollback (tx : Nat)

inductive Event where
  | statement
  | forgot (devicePk : UUID) (identity : Slug)
  | deleted (devicePk : UUID)
  deriving DecidableEq

/-- A statement that writes these rows waits for another transaction. -/
def State.waits (s : State) (tx : Nat) (p : Device → Bool) : Bool :=
  s.devices.rows.any fun d => p d && !s.txns.mayLock tx d.id

def State.fail (s : State) (tx : Nat) : State × Event := (⟨s.devices, s.txns.close tx⟩, .statement)

def State.goOn (s : State) (tx : Nat) (x : Txn) : State × Event := (⟨s.devices, s.txns.put tx x⟩, .statement)

/-- The last statement, which commits the rows or fails. -/
def State.commit (s : State) (tx : Nat) (devices : Option DeviceTable) (e : Event) : State × Event :=
  match devices with
  | none => s.fail tx
  | some devices => (⟨devices, s.txns.close tx⟩, e)

/-- INSERT INTO devices … ON CONFLICT (tenant_id, device_id) DO UPDATE. -/
def insertDevice (cfg : Config) (s : State) (tx : Nat) (tenantID : Slug) (deviceID : String) (fresh : UUID)
    (set : Device → Device) : Option (State × Event) :=
  if s.waits tx fun d => d.tenantID = tenantID && d.deviceID = deviceID then none
  else if tenantID ∉ cfg.tenants then some (s.fail tx)
  else some (s.commit tx ((s.devices.upsertRow tenantID deviceID fresh set).map Prod.fst) .statement)

def stepBegin (s : State) (tx : Nat) (cfg : Config) : Call → Option (State × Event)
  | .upsert tenantID deviceID mqttTopicPrefix =>
      some (if quotaAllowDevice s.devices tenantID deviceID cfg.quotaDevices then
        s.goOn tx (.upsertInsert tenantID deviceID mqttTopicPrefix) else s.fail tx)
  | .claimInto c row =>
      some (match row with
        | none => s.fail tx
        | some e =>
            -- a replay writes nothing
            if c.ownerUserID = UUID.nil ∨ claimRetryAllowed e.claimedAt e.claimedByTenant c.tenantID ∨
                claimAllowed e.verifiedAt e.claimedAt = false then s.fail tx
            else s.goOn tx (.claimQuota c))
  | .reserve tenantID deviceID =>
      match s.devices.find tenantID deviceID with
      | none => some (s.fail tx)
      | some d =>
          if s.txns.mayLock tx d.id then
            some (⟨s.devices, (s.txns.lock tx d.id).put tx (.reserveCheck tenantID deviceID d)⟩, .statement)
          else none
  | .forget tenantID devicePk identity =>
      if s.waits tx fun d => d.id = devicePk && d.tenantID = tenantID then none
      else some (s.commit tx (forgetBrokerIdentity s.devices tenantID devicePk identity).toOption (.forgot devicePk identity))
  | .reassign id targetTenant =>
      some (match s.devices.get id with
        | none => s.fail tx
        | some d => s.goOn tx (.reassignQuota id targetTenant d.deviceID))
  | .delete tenantID id =>
      if s.waits tx fun d => d.id = id && d.tenantID = tenantID then none
      else if (s.devices.get id).any fun d => d.tenantID = tenantID then
        some (s.commit tx (some (s.devices.delete id)) (.deleted id))
      else some (s.fail tx)

def stepNext (cfg : Config) (s : State) (tx : Nat) (fresh : UUID) : Txn → Option (State × Event)
  | .upsertInsert tenantID deviceID mqttTopicPrefix =>
      insertDevice cfg s tx tenantID deviceID fresh (setPrefix mqttTopicPrefix)
  | .claimQuota c =>
      some (if quotaAllowDevice s.devices c.tenantID c.deviceID cfg.quotaDevices then s.goOn tx (.claimTaken c)
        else s.fail tx)
  | .claimTaken c => some (if identityTaken s.devices c then s.fail tx else s.goOn tx (.claimInsert c))
  | .claimInsert c => insertDevice cfg s tx c.tenantID c.deviceID fresh (claimDevice c)
  | .reserveCheck tenantID deviceID d =>
      some (if identityHeldElsewhere s.devices tenantID deviceID d.id then s.fail tx
        else s.goOn tx (.reserveUpdate tenantID d))
  | .reserveUpdate tenantID d =>
      some (s.commit tx (s.devices.updateRows (fun o => o.id = d.id)
        (·.setBroker (some tenantID) (staleAfterReserve d tenantID))) .statement)
  | .reassignQuota id targetTenant deviceID =>
      some (if quotaAllowDevice s.devices targetTenant deviceID cfg.quotaDevices then
        s.goOn tx (.reassignUpdate id targetTenant) else s.fail tx)
  | .reassignUpdate id targetTenant =>
      if s.waits tx fun o => o.id = id then none
      else if targetTenant ∉ cfg.tenants then some (s.fail tx)
      else some (s.commit tx (s.devices.updateRows (fun o => o.id = id) fun o => { o with tenantID := targetTenant })
        .statement)

def step (cfg : Config) (s : State) : Action → Option (State × Event)
  | .begin tx call => if (s.txns.txn tx).isNone then stepBegin s tx cfg call else none
  | .next tx fresh => (s.txns.txn tx).bind (stepNext cfg s tx fresh)
  | .rollback tx => if (s.txns.txn tx).isNone then none else some (s.fail tx)

def system (cfg : Config) : Machine State Action Event where
  step := step cfg

end ThesadaApp.BrokerRows
