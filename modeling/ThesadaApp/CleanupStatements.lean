import ThesadaApp.EnrollService

/-!
The cleanups of `device_enrollments` beside the other transactions, statement by statement under READ COMMITTED. A
statement selects its rows on a snapshot of its own, then comes to them one by one. It waits for the transaction that
holds a row, and judges the row as it has become, with the other tables still as in the snapshot. A row selected for
update or deleted is held until the end of the transaction. The other transactions of the service are its own calls,
and any rewrite of devices, certificates and tenants.
-/

namespace ThesadaApp.Cleanups

open Enroll (orphanClaim ownOrUnclaimed deleteRows Tx Answer)

inductive Call where
  | reset (deviceID : String) (tenantID : Slug)
  | resetForTenant (deviceID : String) (tenantID : Slug)
  | sweepOrphanClaims
  deriving DecidableEq

/-- The tenant a call acts for. -/
def Call.tenantID : Call → Option Slug
  | .reset _ tenantID => some tenantID
  | .resetForTenant _ tenantID => some tenantID
  | .sweepOrphanClaims => none

inductive Statement where
  /-- `SELECT … FOR UPDATE` of a device id. With a tenant, a returned row that another one claims ends the call. -/
  | lock (deviceID : String) (sole : Option Slug)
  /-- The DELETE of orphan claims: those of a device id that are not the tenant's, or all. -/
  | deleteOrphans (scope : Option (String × Slug))
  /-- The DELETE of the unclaimed rows of a device id and of those its tenant claims. -/
  | deleteOwn (deviceID : String) (tenantID : Slug)
  deriving DecidableEq

/-- The WHERE clause of a statement. -/
def Statement.selects (snapshot : Db) : Statement → Enrollment → Bool
  | .lock deviceID _, e => e.deviceID = deviceID
  | .deleteOrphans none, e => orphanClaim snapshot e
  | .deleteOrphans (some (deviceID, tenantID)), e =>
      e.deviceID = deviceID && e.claimedByTenant ≠ some tenantID && orphanClaim snapshot e
  | .deleteOwn deviceID tenantID, e => ownOrUnclaimed deviceID tenantID e

variable (cfg : EnrollConfig)

/-- The statements of a call. `Reset` skips the orphans, and `SweepOrphanClaims` is refused, unless the role sees all
tenants. -/
def Call.statements : Call → List Statement
  | .reset deviceID tenantID =>
      [.lock deviceID none] ++ (if cfg.adminSeesAllTenants then [.deleteOrphans (some (deviceID, tenantID))] else []) ++
        [.deleteOwn deviceID tenantID]
  | .resetForTenant deviceID tenantID => [.lock deviceID (some tenantID), .deleteOwn deviceID tenantID]
  | .sweepOrphanClaims => if cfg.adminSeesAllTenants then [.deleteOrphans none] else []

/-- A cleanup in progress: the statement it is at with its snapshot and the rows it has yet to come to, the statements
after it, and what it holds. -/
structure Cleanup where
  id : Nat
  call : Call
  statement : Statement
  snapshot : Db
  todo : List EnrollKey
  rest : List Statement
  /-- The rows selected for update. -/
  locked : List EnrollKey
  /-- The rows the DELETE of orphan claims has deleted. -/
  orphans : List EnrollKey
  /-- The rows the DELETE of the tenant's own rows has deleted. -/
  own : List EnrollKey

def Cleanup.deleted (c : Cleanup) : List EnrollKey := c.orphans ++ c.own

def Cleanup.held (c : Cleanup) : List EnrollKey := c.locked ++ c.deleted

/-- The tables as the transaction leaves them. -/
def Cleanup.view (c : Cleanup) (db : Db) : Db := deleteRows db fun e => c.deleted.contains e.key

/-- What a role sees. Row-level security hides every device and certificate, as no tenant is set. -/
def visible (db : Db) : Db := if cfg.adminSeesAllTenants then db else { db with devices := ∅, certificates := [] }

/-- A statement takes its snapshot and selects its rows. -/
def Cleanup.execute (db : Db) (statement : Statement) (rest : List Statement) (c : Cleanup) : Cleanup :=
  let snapshot := visible cfg (c.view db)
  { c with
    statement, snapshot, rest
    todo := (snapshot.enrollments.rows.filter (statement.selects snapshot)).map Enrollment.key }

def Cleanup.start (db : Db) (id : Nat) (call : Call) (statement : Statement) (rest : List Statement) : Cleanup :=
  Cleanup.execute cfg db statement rest ⟨id, call, statement, db, [], rest, [], [], []⟩

def Cleanup.skip (k : EnrollKey) (c : Cleanup) : Cleanup := { c with todo := c.todo.erase k }

def Cleanup.take (k : EnrollKey) (c : Cleanup) : Cleanup :=
  match c.statement with
  | .lock _ _ => { c.skip k with locked := k :: c.locked }
  | .deleteOrphans _ => { c.skip k with orphans := k :: c.orphans }
  | .deleteOwn _ _ => { c.skip k with own := k :: c.own }

/-- The statement comes to a row: its WHERE clause on the row as it is now. -/
def Cleanup.visit (db : Db) (k : EnrollKey) (c : Cleanup) : Cleanup :=
  match db.enrollments.find k with
  | none => c.skip k
  | some e => if c.statement.selects c.snapshot e then c.take k else c.skip k

/-- A row that is gone is not come to, nor is one that is inserted under its key later. -/
def Cleanup.forget (db : Db) (c : Cleanup) : Cleanup :=
  { c with todo := c.todo.filter fun k => (db.enrollments.find k).isSome }

/-- `ErrEnrollClaimedElsewhere`. -/
def Cleanup.refuses (db : Db) (c : Cleanup) : Bool :=
  match c.statement with
  | .lock _ (some tenantID) => c.locked.any fun k => (db.enrollments.find k).any fun e =>
      e.claimedByTenant.isSome && e.claimedByTenant ≠ some tenantID
  | _ => false

theorem Cleanup.visit_id (db : Db) (k : EnrollKey) (c : Cleanup) : (c.visit db k).id = c.id := by
  unfold visit take
  split
  · rfl
  · split
    · split <;> rfl
    · rfl

/-- What is committed, and the cleanups in progress. -/
structure State where
  db : Db
  cleanups : KeyedTable Cleanup.id

def start (db : Db) : State := ⟨db, ∅⟩

def State.update (s : State) (id : Nat) (f : Cleanup → Cleanup) (hf : ∀ c, (f c).id = c.id) : State :=
  { s with cleanups := s.cleanups.updateWhere (fun c => c.id = id) f hf }

def State.close (s : State) (id : Nat) : State := { s with cleanups := s.cleanups.deleteWhere fun c => c.id = id }

/-- A transaction commits. -/
def State.commit (s : State) (db : Db) : State :=
  ⟨db, s.cleanups.updateWhere (fun _ => true) (Cleanup.forget db) fun _ => rfl⟩

/-- No other cleanup holds the row. -/
def State.mayTake (s : State) (id : Nat) (k : EnrollKey) : Bool :=
  s.cleanups.rows.all fun c => c.id = id || !c.held.contains k

/-- A transaction that leads to `db` has written no row that a cleanup holds. -/
def State.mayCommit (s : State) (db : Db) : Bool :=
  s.cleanups.rows.all fun c => c.held.all fun k => db.enrollments.find k = s.db.enrollments.find k

/-- The transactions that run statement by statement here. -/
def cleansUp : Tx → Bool
  | .reset _ _ => true
  | .resetForTenant _ _ => true
  | .sweepOrphanClaims => true
  | _ => false

inductive Action where
  | begin (id : Nat) (call : Call)
  | visit (id : Nat) (k : EnrollKey)
  /-- The end of a statement: the refusal, the next statement, or the commit. -/
  | next (id : Nat)
  /-- A statement fails: a timeout, a deadlock, a lost connection. -/
  | rollback (id : Nat)
  | transaction (t : Tx)

inductive Event where
  | began
  | visited
  | executed
  | rolledBack
  /-- The call is refused, with the rows it had deleted, and the tables before and after. -/
  | refused (call : Call) (deleted : List EnrollKey) (before after : Db)
  | committed (call : Call) (before after : Db)
  | transaction (r : Except EnrollError Answer)

def State.next (s : State) (c : Cleanup) : State × Event :=
  if c.refuses s.db then (s.close c.id, .refused c.call c.deleted s.db (s.close c.id).db)
  else
    match c.rest with
    | [] => ((s.close c.id).commit (c.view s.db), .committed c.call s.db (c.view s.db))
    | statement :: rest => (s.update c.id (Cleanup.execute cfg s.db statement rest) fun _ => rfl, .executed)

def step (s : State) : Action → Option (State × Event)
  | .begin id call =>
      if hid : s.cleanups.find id = none then
        match call.statements cfg with
        | [] => some (s, .refused call [] s.db s.db)
        | statement :: rest =>
            some ({ s with cleanups := s.cleanups.insert (Cleanup.start cfg s.db id call statement rest) hid }, .began)
      else none
  | .visit id k =>
      (s.cleanups.find id).bind fun c =>
        if c.todo.contains k && s.mayTake id k then
          some (s.update id (Cleanup.visit s.db k) (Cleanup.visit_id s.db k), .visited)
        else none
  | .next id => (s.cleanups.find id).bind fun c => if c.todo = [] then some (s.next cfg c) else none
  | .rollback id => if (s.cleanups.find id).isSome then some (s.close id, .rolledBack) else none
  | .transaction t =>
      if cleansUp t then none
      else if s.mayCommit (t.run cfg s.db).1 then
        some (s.commit (t.run cfg s.db).1, .transaction (t.run cfg s.db).2)
      else none

def machine : Machine State Action Event := ⟨step cfg⟩

end ThesadaApp.Cleanups
