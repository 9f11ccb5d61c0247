import ThesadaApp.CertStore
import ThesadaApp.RowLocks

/-!
The calls that write the certificates of one device and its `paired_at`, statement by statement under READ COMMITTED.
A statement sees what was committed when it began. An update takes its rows one after the other, waits for a row that
another transaction has written and looks at it again as committed; what a transaction writes is its own until it
commits. A statement that fails, by a constraint or a deadlock, is a rollback, which may come at any time.
-/

namespace ThesadaApp.CertRows

open Certs (CertStatus)

/-- A row of `device_certificates` of the device, without its id. -/
structure Row where
  serialHex : String
  cn : String
  pubkeyHex : Option String
  status : CertStatus
  revoked : Bool
  revokedAt : Option Time
  deriving DecidableEq

def Row.live (r : Row) : Bool := !r.revoked && r.status = .active

/-- What is committed: the rows by id, the next id of the sequence, and `devices.paired_at`. -/
@[ext] structure Tables where
  certs : Nat → Option Row
  nextID : Nat
  pairedAt : Option Time

/-- The ids of the unrevoked active rows. -/
def Tables.live (d : Tables) : List Nat := (List.range d.nextID).filter fun id => (d.certs id).any Row.live

inductive Call where
  | issue (serialHex cn : String)
  | issueWithIdentity (serialHex cn pubkeyHex : String)
  | issuePending (serialHex cn : String)
  | activate (certID : Nat)
  | markFailed (certID : Nat)
  | revoke
  deriving DecidableEq

/-- Refused before a transaction begins. -/
def Call.refused : Call → Bool
  | .issueWithIdentity _ _ pubkeyHex => pubkeyHex = ""
  | _ => false

/-- The row `issueTx` inserts, for the calls that run it. -/
def Call.newRow : Call → Option Row
  | .issue serialHex cn => some ⟨serialHex, cn, none, .active, false, none⟩
  | .issueWithIdentity serialHex cn pubkeyHex => some ⟨serialHex, cn, some pubkeyHex, .active, false, none⟩
  | .issuePending serialHex cn => some ⟨serialHex, cn, none, .pending, false, none⟩
  | .activate _ | .markFailed _ | .revoke => none

/-- The WHERE of the call's UPDATE of the certificates. -/
def Call.selects (id : Nat) (r : Row) : Call → Bool
  | .activate certID | .markFailed certID => id = certID && r.status = .pending && !r.revoked
  | _ => !r.revoked

/-- Its SET. -/
def Call.set (now : Time) (r : Row) : Call → Row
  | .activate _ => { r with status := .active }
  | .markFailed _ => { r with status := .failed }
  | _ => { r with revoked := true, revokedAt := some now }

/-- What the UPDATE of the device sets. -/
def Call.pairedAt (now : Time) : Call → Option Time
  | .issue .. | .issueWithIdentity .. | .activate _ => some now
  | _ => none

/-- The statement a transaction is at. -/
inductive Point where
  /-- SELECT of the device FOR UPDATE -/
  | lockDevice
  /-- UPDATE of the certificates: its snapshot, and the rows it has yet to take -/
  | update
  | rows (todo : List Nat) (affected : Nat)
  | insert
  /-- UPDATE of the device -/
  | paired
  | commit
  deriving DecidableEq

def Call.first : Call → Point
  | .issue .. | .issueWithIdentity .. | .issuePending .. => .lockDevice
  | .activate _ | .markFailed _ | .revoke => .update

/-- Where a call goes on after its UPDATE of the certificates, unless that fails it. -/
def Call.afterUpdate (affected : Nat) : Call → Option Point
  | .issue .. | .issueWithIdentity .. | .issuePending .. => some .insert
  | .activate _ => if affected = 0 then none else some .paired
  | .markFailed _ => if affected = 0 then none else some .commit
  | .revoke => some .paired

inductive Lock where
  | device
  | cert (id : Nat)
  deriving DecidableEq

structure Txn where
  call : Call
  /-- NOW() in all its statements -/
  now : Time
  point : Point
  /-- The versions of rows it has written. -/
  writes : Nat → Option Row
  /-- The id its insert has returned. -/
  inserted : Option Nat
  pairedAt : Option (Option Time)

structure State where
  /-- The tenant of the device, to whose calls alone row-level security shows it. -/
  tenantID : Slug
  tables : Tables
  txns : Txns Lock Txn

/-- The rows by id; an id that was never used here has none. -/
def start (tenantID : Slug) (rows : List (Option Row)) (pairedAt : Option Time) : State :=
  ⟨tenantID, ⟨fun id => rows[id]?.join, rows.length, pairedAt⟩, .idle⟩

inductive Action where
  | begin (tx : Nat) (tenantID : Slug) (now : Time) (call : Call)
  | next (tx : Nat)
  | rollback (tx : Nat)

inductive Event where
  | statement
  | committed (call : Call)
  | rolledBack
  deriving DecidableEq

def Txn.start (call : Call) (now : Time) : Txn := ⟨call, now, call.first, fun _ => none, none, none⟩

def Txn.write (t : Txn) (id : Nat) (r : Row) : Txn := { t with writes := Function.update t.writes id (some r) }

/-- The tables with what the transaction has written. -/
def Txn.apply (t : Txn) (d : Tables) : Tables :=
  ⟨fun id => (t.writes id).or (d.certs id), d.nextID, t.pairedAt.getD d.pairedAt⟩

/-- The rows an UPDATE finds when it begins. -/
def Tables.targets (d : Tables) (call : Call) : List Nat :=
  (List.range d.nextID).filter fun id => (d.certs id).any fun r => call.selects id r

def State.put (s : State) (tx : Nat) (t : Txn) : State × Event := ({ s with txns := s.txns.put tx t }, .statement)

def State.lock (s : State) (tx : Nat) (k : Lock) : State := { s with txns := s.txns.lock tx k }

def State.fail (s : State) (tx : Nat) : State × Event := ({ s with txns := s.txns.close tx }, .rolledBack)

/-- The UPDATE takes a row it has found, once no other transaction has written it: it writes the row if that is
still one of its rows. -/
def takeRow (s : State) (tx : Nat) (t : Txn) (id : Nat) (todo : List Nat) (affected : Nat) : State × Event :=
  match (s.tables.certs id).filter fun r => t.call.selects id r with
  | none => s.put tx { t with point := .rows todo affected }
  | some r => (s.lock tx (.cert id)).put tx { t.write id (t.call.set t.now r) with point := .rows todo (affected + 1) }

def stepTxn (s : State) (tx : Nat) (t : Txn) : Option (State × Event) :=
  match t.point with
  | .lockDevice =>
      if s.txns.mayLock tx .device then some ((s.lock tx .device).put tx { t with point := .update }) else none
  | .update => some (s.put tx { t with point := .rows (s.tables.targets t.call) 0 })
  | .rows [] affected =>
      some (match t.call.afterUpdate affected with
        | none => s.fail tx
        | some p => s.put tx { t with point := p })
  | .rows (id :: todo) affected =>
      if s.txns.mayLock tx (.cert id) then some (takeRow s tx t id todo affected) else none
  | .insert =>
      t.call.newRow.map fun r =>
        let id := s.tables.nextID
        -- the sequence does not go back when a transaction does
        let s : State := { s with tables := { s.tables with nextID := id + 1 } }
        s.put tx { t.write id r with point := .paired, inserted := some id }
  | .paired =>
      if s.txns.mayLock tx .device then
        some ((s.lock tx .device).put tx { t with point := .commit, pairedAt := some (t.call.pairedAt t.now) })
      else none
  | .commit => some ({ s with tables := t.apply s.tables, txns := s.txns.close tx }, .committed t.call)

def step (s : State) : Action → Option (State × Event)
  | .begin tx tenantID now call =>
      if (s.txns.txn tx).isSome then none
      -- a call of another tenant finds no row in any statement
      else if tenantID ≠ s.tenantID ∨ call.refused then some (s, .statement)
      else some (s.put tx (.start call now))
  | .next tx => (s.txns.txn tx).bind (stepTxn s tx)
  | .rollback tx => if (s.txns.txn tx).isNone then none else some (s.fail tx)

def system : Machine State Action Event where
  step := step

end ThesadaApp.CertRows
