import ThesadaApp.Basic
import ThesadaApp.MachineRun
import ThesadaApp.ModeLocks

/-!
The deletion of a tenant among the calls that write rows of tenants, statement by statement under READ COMMITTED. A
statement sees what was committed when it began; it waits for a row that another transaction has written or locked, and
looks at it again as committed. An inserted or changed reference takes a key-share lock on the tenant's row in a check
of its own. The cascade takes the referring rows one by one. A statement that fails is a rollback, which may come at any
time. No tenant is created here.
-/

namespace ThesadaApp.TenantDelete

section tables

/-- What happens to a row when its tenant goes. -/
inductive OnDelete where
  | cascade
  | setNull
  deriving DecidableEq

/-- The tables that refer to `tenants`. Users and devices go with their tenant. -/
inductive Table where
  | users
  | devices
  | other (onDelete : OnDelete)
  deriving DecidableEq

structure Row where
  table : Table
  tenantID : Option Slug
  isSuperAdmin : Bool
  deriving DecidableEq

/-- What is committed. Ids come from a counter, for a uuid that is not in use. -/
structure Tables where
  tenants : List Slug
  rows : Nat → Option Row
  nextID : Nat

def Tables.referring (d : Tables) (t : Slug) : List Nat :=
  (List.range d.nextID).filter fun id => (d.rows id).any fun r => r.tenantID = some t

def Tables.usersOf (d : Tables) (t : Slug) : List Nat :=
  (List.range d.nextID).filter fun id => (d.rows id).any fun r => r.table = .users && r.tenantID = some t

def Tables.hasDevices (d : Tables) (t : Slug) : Bool :=
  (List.range d.nextID).any fun id => (d.rows id).any fun r => r.table = .devices && r.tenantID = some t

def Tables.giveID (d : Tables) : Tables := { d with nextID := d.nextID + 1 }

/-- What the cascade makes of a row. -/
def Row.orphaned (r : Row) : Option Row :=
  match r.table with
  | .other .setNull => some { r with tenantID := none }
  | _ => none

end tables

section transactions

/-- The statement a transaction is at. -/
inductive Point where
  /-- Of a call that writes rows: its next statement, or COMMIT -/
  | write
  /-- The check of a reference it has written -/
  | check (t : Slug)
  /-- `TenantService.Delete`: SELECT of the tenant FOR UPDATE -/
  | lockTenant (t : Slug)
  | hasDevices (t : Slug)
  /-- SELECT of the users FOR UPDATE: its snapshot, and the rows it has yet to take -/
  | lockUsers (t : Slug)
  | users (t : Slug) (todo : List Nat) (hasSuper : Bool)
  /-- DELETE of the tenant, and of what refers to it -/
  | erase (t : Slug)
  | cascade (t : Slug) (todo : List Nat)
  | commit (t : Slug) (erased : Bool)
  deriving DecidableEq

structure Txn where
  /-- The versions of rows it has written; `some none` is a row it has deleted. -/
  staged : Nat → Option (Option Row)
  point : Point

inductive Lock where
  | tenant (t : Slug)
  | row (id : Nat)
  deriving DecidableEq

inductive Mode where
  | keyShare
  | update
  deriving DecidableEq

def Mode.compatible : Mode → Mode → Bool
  | .keyShare, .keyShare => true
  | _, _ => false

structure State where
  tables : Tables
  txns : ModeTxns Lock Mode Txn

def start (d : Tables) : State := ⟨d, .idle⟩

/-- A statement of a call: user inserts, device upserts and other inserts; `PromoteSuperAdmin`; `Reassign`, and the
claim of an enrollment; `DeleteUser`, and the deletion of another row. -/
inductive Op where
  | insert (table : Table) (t : Slug) (isSuperAdmin : Bool)
  | promote (id : Nat)
  | reassign (id : Nat) (t : Slug)
  | deleteUser (id : Nat)
  | deleteRow (id : Nat)
  deriving DecidableEq

inductive Action where
  | call (tx : Nat)
  | write (tx : Nat) (op : Op)
  | delete (tx : Nat) (t : Slug) (callerTenantIDs : List Slug)
  | next (tx : Nat)
  | rollback (tx : Nat)

inductive Event where
  | statement
  | committed
  | deleted (t : Slug)
  | refused (t : Slug)
  | rolledBack
  deriving DecidableEq

def Txn.begin (point : Point) : Txn := ⟨fun _ => none, point⟩

def Txn.stage (x : Txn) (id : Nat) (v : Option Row) : Txn := { x with staged := Function.update x.staged id (some v) }

def Txn.at (x : Txn) (point : Point) : Txn := { x with point := point }

/-- The row as the transaction sees it. -/
def Txn.view (x : Txn) (d : Tables) (id : Nat) : Option Row := (x.staged id).getD (d.rows id)

/-- The tables with what it has written. -/
def Txn.apply (x : Txn) (d : Tables) : Tables := { d with rows := x.view d }

def State.put (s : State) (tx : Nat) (x : Txn) : State × Event := ({ s with txns := s.txns.put tx x }, .statement)

def State.mayLock (s : State) (tx : Nat) (k : Lock) (m : Mode) : Bool := s.txns.mayLock Mode.compatible tx k m

/-- It takes a lock and goes on, or waits. -/
def State.lockPut (s : State) (tx : Nat) (k : Lock) (m : Mode) (x : Txn) : Option (State × Event) :=
  if s.mayLock tx k m then some ({ s with txns := (s.txns.lock tx k m).put tx x }, .statement) else none

def State.close (s : State) (tx : Nat) (e : Event) : State × Event := ({ s with txns := s.txns.close tx }, e)

/-- It ends, and these are the tables. -/
def State.commit (s : State) (tx : Nat) (d : Tables) (e : Event) : State × Event := (⟨d, s.txns.close tx⟩, e)

end transactions

section step

/-- An UPDATE or DELETE of the row, if it sees one that it selects. -/
def writeRow (s : State) (tx : Nat) (x : Txn) (id : Nat) (selects : Row → Bool) (new : Row → Option Row)
    (point : Row → Point) :
    Option (State × Event) :=
  match (x.view s.tables id).filter selects with
  | none => some (s.put tx x)
  | some r => s.lockPut tx (.row id) .update ((x.stage id (new r)).at (point r))

def stepWrite (s : State) (tx : Nat) (x : Txn) : Op → Option (State × Event)
  | .insert table t isSuperAdmin =>
      let id := s.tables.nextID
      State.lockPut ⟨s.tables.giveID, s.txns⟩ tx (.row id) .update
        ((x.stage id (some ⟨table, some t, isSuperAdmin⟩)).at (.check t))
  | .promote id =>
      writeRow s tx x id (fun r => r.table = .users) (fun r => some { r with isSuperAdmin := true }) fun _ => .write
  | .reassign id t =>
      writeRow s tx x id (fun r => r.table ≠ .users) (fun r => some { r with tenantID := some t })
        fun r => if r.tenantID = some t then .write else .check t
  | .deleteUser id =>
      writeRow s tx x id (fun r => r.table = .users && !r.isSuperAdmin) (fun _ => none) fun _ => .write
  | .deleteRow id => writeRow s tx x id (fun r => r.table ≠ .users) (fun _ => none) fun _ => .write

/-- The row, if it is still a user of the tenant: its lock, and whether it is a super-admin. -/
def takeUser (s : State) (tx : Nat) (x : Txn) (t : Slug) (id : Nat) (todo : List Nat) (hasSuper : Bool) :
    Option (State × Event) :=
  match (s.tables.rows id).filter fun r => r.table = .users && r.tenantID = some t with
  | none => some (s.put tx (x.at (.users t todo hasSuper)))
  | some r => s.lockPut tx (.row id) .update (x.at (.users t todo (hasSuper || r.isSuperAdmin)))

/-- The row, if it still refers to the tenant, goes or is orphaned. -/
def takeReferring (s : State) (tx : Nat) (x : Txn) (t : Slug) (id : Nat) (todo : List Nat) : Option (State × Event) :=
  match (s.tables.rows id).filter fun r => r.tenantID = some t with
  | none => some (s.put tx (x.at (.cascade t todo)))
  | some r => s.lockPut tx (.row id) .update ((x.stage id r.orphaned).at (.cascade t todo))

def stepPoint (s : State) (tx : Nat) (x : Txn) : Point → Option (State × Event)
  | .write => some (s.commit tx (x.apply s.tables) .committed)
  | .check t =>
      if t ∈ s.tables.tenants then s.lockPut tx (.tenant t) .keyShare (x.at .write)
      else some (s.close tx .rolledBack)
  | .lockTenant t =>
      if t ∈ s.tables.tenants then s.lockPut tx (.tenant t) .update (x.at (.hasDevices t))
      else some (s.put tx (x.at (.hasDevices t)))
  | .hasDevices t =>
      some (if s.tables.hasDevices t then s.close tx (.refused t) else s.put tx (x.at (.lockUsers t)))
  | .lockUsers t => some (s.put tx (x.at (.users t (s.tables.usersOf t) false)))
  | .users t (id :: todo) hasSuper => takeUser s tx x t id todo hasSuper
  | .users t [] hasSuper => some (if hasSuper then s.close tx (.refused t) else s.put tx (x.at (.erase t)))
  | .erase t =>
      if t ∈ s.tables.tenants then s.lockPut tx (.tenant t) .update (x.at (.cascade t (s.tables.referring t)))
      else some (s.put tx (x.at (.commit t false)))
  | .cascade t (id :: todo) => takeReferring s tx x t id todo
  | .cascade t [] => some (s.put tx (x.at (.commit t true)))
  | .commit t erased =>
      let d := x.apply s.tables
      some (s.commit tx (if erased then { d with tenants := d.tenants.filter fun t' => t' ≠ t } else d) (.deleted t))

/-- `DeleteAllowed` -/
def deleteAllowed (t : Slug) (callerTenantIDs : List Slug) : Bool := t ≠ defaultTenant && t ∉ callerTenantIDs

def step (s : State) : Action → Option (State × Event)
  | .call tx => if (s.txns.txn tx).isSome then none else some (s.put tx (.begin .write))
  | .write tx op => (s.txns.txn tx).bind fun x => if x.point = .write then stepWrite s tx x op else none
  | .delete tx t callerTenantIDs =>
      if (s.txns.txn tx).isSome then none
      else if deleteAllowed t callerTenantIDs then some (s.put tx (.begin (.lockTenant t)))
      else some (s, .refused t)
  | .next tx => (s.txns.txn tx).bind fun x => stepPoint s tx x x.point
  | .rollback tx => (s.txns.txn tx).map fun _ => s.close tx .rolledBack

def system : Machine State Action Event where
  step := step

end step

end ThesadaApp.TenantDelete
