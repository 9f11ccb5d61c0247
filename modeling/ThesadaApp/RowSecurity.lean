import ThesadaApp.KeyedTable

/-!
The tenant schema of the migrations and the transactions of db.WithTenant. The tables are those with
row level security: their primary keys, unique indexes and foreign keys, the policy of each, and the
triggers that copy the tenant onto a history row. A transaction is a callback that runs statements
one after the other and sees what each returns; it runs as one tenant, its policies are evaluated for
that tenant, and an error rolls everything back.

The checks of keys and references look at every row, whoever owns it, and a foreign key's action
changes rows the tenant cannot see. Transactions are taken one after the other. Of the tables without a
policy there is `tenants`, whose ids the rows refer to: no statement here writes it, since deleting a
tenant there would take every row of the tenant along, whoever runs the statement. The program writes
it in transactions of the admin role only.
-/

namespace ThesadaApp.RowSecurity

inductive Tbl
  | settings | users | userSessions | magicLinkTokens | waitlist | devices | deviceAlerts
  | alertSubscriptions | deviceCertificates | oauthProviders | userOauthIdentities
  | oauthAuthRequests | deviceFiles | deviceFileHistory | deviceFileObservations
  | deletedDeviceTombstones | apiTokens | tenantDek | deviceConfigSecrets | adminAudit
  | deviceRuleWorkspaces | deviceRuleWorkspaceHistory | totpChallenges | ruleTemplates
  | alertWebhookDeliveries
  deriving DecidableEq, Repr

/-- The columns that a key, an index, a reference or a policy names. -/
inductive Column
  | id | tenantId | userId | devicePk | providerId | alertId | subscriptionId | ownerUserId
  | convertedUserId | linkingUserId | impersonatedTenantId | updatedBy | createdBy | key | email
  | tokenHash | deviceId | brokerTenantId | serialHex | cn | revoked | slug | subject | state | path | field | slot | name
  deriving DecidableEq, Repr

/-- A row: the columns above, null where a table lacks one, and whatever else it holds. -/
structure Row (δ : Type) where
  table : Tbl
  col : Column → Option String
  rest : δ

/-- What the schema asks of values beyond keys and references between these tables: how citext compares,
the column types, NOT NULL and CHECK constraints, which look at the written row only, and the ids in
`tenants`. -/
class Catalog (δ : Type) where
  citext : String → String
  checked : Row δ → Bool
  tenants : List String

def primaryKey : Tbl → List Column
  | .settings => [.tenantId, .key]
  | .oauthAuthRequests => [.state]
  | .deviceFiles => [.devicePk, .path]
  | .tenantDek => [.tenantId]
  | .deviceRuleWorkspaces => [.devicePk, .slot]
  | .totpChallenges => [.tokenHash]
  | .alertWebhookDeliveries => [.alertId, .subscriptionId]
  | _ => [.id]

variable {δ ρ : Type}

abbrev Key := Tbl × List (Option String)

def key (r : Row δ) : Key := (r.table, (primaryKey r.table).map r.col)

/-- The rows of every table. -/
abbrev Db (δ : Type) := KeyedTable (key (δ := δ))

inductive OnDelete
  | cascade | setNull | noAction
  deriving DecidableEq

structure ForeignKey where
  column : Column
  target : Tbl
  onDelete : OnDelete

def foreignKeys : Tbl → List ForeignKey
  | .userSessions | .magicLinkTokens | .apiTokens | .totpChallenges => [⟨.userId, .users, .cascade⟩]
  | .waitlist => [⟨.convertedUserId, .users, .setNull⟩]
  | .devices => [⟨.ownerUserId, .users, .setNull⟩]
  | .deviceAlerts | .deviceCertificates | .deviceFileObservations | .deviceConfigSecrets =>
      [⟨.devicePk, .devices, .cascade⟩]
  | .alertSubscriptions => [⟨.userId, .users, .cascade⟩, ⟨.devicePk, .devices, .cascade⟩]
  | .userOauthIdentities => [⟨.userId, .users, .cascade⟩, ⟨.providerId, .oauthProviders, .cascade⟩]
  | .oauthAuthRequests =>
      [⟨.providerId, .oauthProviders, .cascade⟩, ⟨.linkingUserId, .users, .cascade⟩]
  | .deviceFiles | .deviceRuleWorkspaces =>
      [⟨.devicePk, .devices, .cascade⟩, ⟨.updatedBy, .users, .noAction⟩]
  | .deviceFileHistory | .deviceRuleWorkspaceHistory =>
      [⟨.devicePk, .devices, .cascade⟩, ⟨.createdBy, .users, .noAction⟩]
  | .alertWebhookDeliveries =>
      [⟨.alertId, .deviceAlerts, .cascade⟩, ⟨.subscriptionId, .alertSubscriptions, .cascade⟩]
  | .settings | .users | .oauthProviders | .deletedDeviceTombstones | .tenantDek | .adminAudit
  | .ruleTemplates => []

/-- The columns that reference `tenants`. -/
def tenantColumns : Tbl → List Column
  | .settings | .users | .waitlist | .devices | .oauthProviders | .deviceFileHistory | .tenantDek
  | .deviceConfigSecrets | .deviceRuleWorkspaceHistory | .ruleTemplates => [.tenantId]
  | .userSessions => [.impersonatedTenantId]
  | .magicLinkTokens | .deviceAlerts | .alertSubscriptions | .deviceCertificates | .userOauthIdentities
  | .oauthAuthRequests | .deviceFiles | .deviceFileObservations | .deletedDeviceTombstones | .apiTokens
  | .adminAudit | .deviceRuleWorkspaces | .totpChallenges | .alertWebhookDeliveries => []

/-- The row of `tb` that column `c` of `r` names by its id. -/
def parent (db : Db δ) (c : Column) (tb : Tbl) (r : Row δ) : Option (Row δ) :=
  (r.col c).bind fun v => db.find (tb, [some v])

/-- A unique index: its columns, the rows it covers, and what COALESCE puts for a null. -/
structure Index (δ : Type) where
  columns : List Column
  covers : Row δ → Bool := fun _ => true
  coalesce : Column → Option String := fun _ => none

def uniqueIndexes : Tbl → List (Index δ)
  | .users | .waitlist => [{ columns := [.tenantId, .email] }]
  | .userSessions | .magicLinkTokens | .apiTokens => [{ columns := [.tokenHash] }]
  | .devices => [{ columns := [.tenantId, .deviceId] }, { columns := [.brokerTenantId, .deviceId] }]
  | .deviceCertificates =>
      [{ columns := [.serialHex] },
       { columns := [.cn], covers := fun r => r.col .revoked ≠ some "true" }]
  | .oauthProviders =>
      [{ columns := [.tenantId, .slug],
         coalesce := fun c => if c = .tenantId then some "" else none }]
  | .userOauthIdentities => [{ columns := [.providerId, .subject] }]
  | .deletedDeviceTombstones => [{ columns := [.tenantId, .deviceId] }]
  | .deviceConfigSecrets =>
      [{ columns := [.devicePk, .field] },
       { columns := [.tenantId, .field], covers := fun r => r.col .devicePk = none }]
  | .ruleTemplates => [{ columns := [.tenantId, .name] }]
  | _ => []

def indexes (tb : Tbl) : List (Index δ) := { columns := primaryKey tb } :: uniqueIndexes tb

/-- How a policy finds the tenant of a row: the references it follows before it reads tenant_id.
admin_audit has no policy, which denies every row. -/
def policyPath : Tbl → Option (List (Column × Tbl))
  | .adminAudit => none
  | .deviceAlerts | .deviceCertificates | .deviceFiles | .deviceFileObservations
  | .deviceRuleWorkspaces => some [(.devicePk, .devices)]
  | .alertSubscriptions | .userSessions | .magicLinkTokens | .userOauthIdentities | .apiTokens
  | .totpChallenges => some [(.userId, .users)]
  | .oauthAuthRequests => some [(.providerId, .oauthProviders)]
  | .alertWebhookDeliveries => some [(.alertId, .deviceAlerts), (.devicePk, .devices)]
  | _ => some []

def follow (db : Db δ) : List (Column × Tbl) → Row δ → Option (Row δ)
  | [], r => some r
  | (c, tb) :: rest, r => (parent db c tb r).bind (follow db rest)

/-- The tenant a row belongs to. -/
def home (db : Db δ) (r : Row δ) : Option String :=
  (policyPath r.table).bind fun path => (follow db path r).bind fun q => q.col .tenantId

/-- The rest of the policy of alert_webhook_deliveries: the subscription is one of the same tenant's
users, and covers the device of the alert. -/
def subscribed (t : String) (db : Db δ) (r : Row δ) : Bool :=
  (parent db .alertId .deviceAlerts r).any fun a =>
    (parent db .subscriptionId .alertSubscriptions r).any fun s =>
      (parent db .userId .users s).any (fun u => u.col .tenantId = some t) &&
        (s.col .devicePk = none || s.col .devicePk = a.col .devicePk)

/-- USING: the rows a tenant's statements see. -/
def admits (t : String) (db : Db δ) (r : Row δ) : Bool :=
  home db r = some t && (r.table ≠ .alertWebhookDeliveries || subscribed t db r)

/-- WITH CHECK: the rows a tenant's statements may write. Only device_config_secrets asks for more
than its USING. -/
def accepts (t : String) (db : Db δ) (r : Row δ) : Bool :=
  admits t db r &&
    (r.table ≠ .deviceConfigSecrets || r.col .devicePk = none ||
      (parent db .devicePk .devices r).any fun d => d.col .tenantId = some t)

/-- device_file_history_set_tenant and device_rule_workspace_history_set_tenant: the row gets the
tenant of its device, and a device the transaction cannot see raises. -/
def setTenant (t : String) (db : Db δ) (r : Row δ) : Option (Row δ) :=
  if r.table = .deviceFileHistory ∨ r.table = .deviceRuleWorkspaceHistory then
    (((parent db .devicePk .devices r).filter fun d => admits t db d).bind fun d =>
      d.col .tenantId).map fun v =>
        { r with col := fun c => if c = .tenantId then some v else r.col c }
  else some r

def parentsExist (db : Db δ) (r : Row δ) : Bool :=
  (foreignKeys r.table).all fun fk =>
    r.col fk.column = none || (parent db fk.column fk.target r).isSome

def referencesExist [Catalog δ] (db : Db δ) (r : Row δ) : Bool :=
  parentsExist db r && (tenantColumns r.table).all fun c => (r.col c).all (· ∈ Catalog.tenants δ)

/-- The new version of an updated row; no statement of the program assigns to a primary key. -/
def assign (set : Row δ → Row δ) (r : Row δ) : Row δ :=
  { table := r.table
    col := fun c => if c ∈ primaryKey r.table then r.col c else (set r).col c
    rest := (set r).rest }

theorem key_assign (set : Row δ → Row δ) (r : Row δ) : key (assign set r) = key r := by
  unfold key assign
  refine Prod.ext rfl (List.map_congr_left ?_)
  intro c hc
  exact if_pos hc

/-- Whether a DELETE of the picked rows takes `r` with it, through at most `n` references. -/
def doomed (db : Db δ) (picked : Row δ → Bool) : Nat → Row δ → Bool
  | 0, r => picked r
  | n + 1, r => picked r || (foreignKeys r.table).any fun fk =>
      fk.onDelete = .cascade && (parent db fk.column fk.target r).any (doomed db picked n)

/-- A remaining row's NO ACTION reference to a row that goes away. -/
def blocked (db : Db δ) (gone : Row δ → Bool) (r : Row δ) : Bool :=
  !gone r && (foreignKeys r.table).any fun fk =>
    fk.onDelete = .noAction && (parent db fk.column fk.target r).any gone

/-- ON DELETE SET NULL, on one row. -/
def unlink (db : Db δ) (gone : Row δ → Bool) (r : Row δ) : Row δ :=
  { r with col := fun c =>
      if (foreignKeys r.table).any fun fk => fk.column = c && fk.onDelete = .setNull &&
          (parent db fk.column fk.target r).any gone
      then none else r.col c }

theorem key_unlink (db : Db δ) (gone : Row δ → Bool) (r : Row δ) : key (unlink db gone r) = key r := by
  have hfree : ∀ tb : Tbl, ∀ fk ∈ foreignKeys tb, fk.onDelete = .setNull → fk.column ∉ primaryKey tb := by
    intro tb
    cases tb <;> simp [foreignKeys, primaryKey]
  unfold key unlink
  refine Prod.ext rfl (List.map_congr_left ?_)
  intro c hc
  refine if_neg ?_
  simp only [List.any_eq_true, Bool.and_eq_true, decide_eq_true_eq, not_exists, not_and]
  rintro fk hfk ⟨rfl, hnull⟩
  exact absurd hc (hfree _ fk hfk hnull)

inductive SqlError
  | raised | rowSecurity | check | unique | foreignKey
  deriving DecidableEq

/-- What an INSERT does when the row is there already, by the columns of the index it names. -/
inductive OnConflict (δ : Type)
  | raise
  | nothing (target : List Column)
  | update (target : List Column) (set : Row δ → Row δ)

inductive Stmt (δ : Type)
  | select (tb : Tbl) (p : Row δ → Bool)
  | insert (r : Row δ) (onConflict : OnConflict δ)
  | update (tb : Tbl) (p : Row δ → Bool) (set : Row δ → Row δ)
  | delete (tb : Tbl) (p : Row δ → Bool)

def visible (t : String) (db : Db δ) (tb : Tbl) (p : Row δ → Bool) (r : Row δ) : Bool :=
  r.table = tb && p r && admits t db r

/-- DELETE of the picked rows, with the actions of the foreign keys. -/
def deleteRows (db : Db δ) (picked : Row δ → Bool) : Except SqlError (List (Row δ) × Db δ) :=
  let gone := doomed db picked 2
  if db.rows.any (blocked db gone) then .error .foreignKey
  else .ok (db.rows.filter picked,
    (db.deleteWhere gone).updateWhere (fun _ => true) (unlink db gone) (key_unlink db gone))

section statements

variable [Catalog δ]

/-- The entry of a row in an index; a null keeps the row out of it. -/
def Index.entry (ix : Index δ) (r : Row δ) : Option (List String) :=
  if ix.covers r then
    ix.columns.mapM fun c =>
      ((r.col c).map fun v => if c = .email then Catalog.citext δ v else v) <|> ix.coalesce c
  else none

def clashOn (ix : Index δ) (r x : Row δ) : Bool :=
  r.table = x.table && (ix.entry r).isSome && ix.entry r = ix.entry x

/-- Two rows that the primary key or a unique index does not allow side by side. -/
def clash (r x : Row δ) : Bool := key r = key x || (indexes r.table).any fun ix => clashOn ix r x

def arbitrates (r : Row δ) (c : OnConflict δ) (x : Row δ) : Bool :=
  match c with
  | .raise => false
  | .nothing target | .update target _ =>
      (indexes r.table).any fun ix => ix.columns = target && clashOn ix r x

/-- UPDATE of the rows that satisfy `touched`. -/
def updateRows (t : String) (db : Db δ) (touched : Row δ → Bool) (set : Row δ → Row δ) :
    Except SqlError (List (Row δ) × Db δ) :=
  let now := fun x => if touched x then assign set x else x
  if db.rows.any fun r => touched r && !accepts t db (assign set r) then .error .rowSecurity
  else if db.rows.any fun r => touched r && !Catalog.checked (assign set r) then .error .check
  else if db.rows.any fun r => touched r &&
      db.rows.any fun x => key x ≠ key r && clash (assign set r) (now x) then .error .unique
  else if db.rows.any fun r => touched r && !referencesExist db (assign set r) then
    .error .foreignKey
  else .ok ((db.rows.filter touched).map (assign set),
    db.updateWhere touched (assign set) (key_assign set))

def insertRow (t : String) (db : Db δ) (r : Row δ) (c : OnConflict δ) :
    Except SqlError (List (Row δ) × Db δ) :=
  if !accepts t db r then .error .rowSecurity
  else if !Catalog.checked r then .error .check
  else match db.rows.find? (arbitrates r c) with
    | some old =>
        match c with
        | .update _ set =>
            if admits t db old then updateRows t db (fun x => key x = key old) set
            else .error .rowSecurity
        | _ => .ok ([], db)
    | none =>
        if db.rows.any (clash r) then .error .unique
        else if !referencesExist db r then .error .foreignKey
        else if h : db.find (key r) = none then .ok ([r], db.insert r h) else .error .unique

/-- One statement of a transaction that runs as `t`: the rows it returns and what it leaves. -/
def runStmt (t : String) (db : Db δ) : Stmt δ → Except SqlError (List (Row δ) × Db δ)
  | .select tb p => .ok (db.rows.filter (visible t db tb p), db)
  | .insert r c =>
      match setTenant t db r with
      | none => .error .raised
      | some r => insertRow t db r c
  | .update tb p set => updateRows t db (visible t db tb p) set
  | .delete tb p => deleteRows db (visible t db tb p)

/-- The callback of a transaction: it ends with or without an error, or runs a statement and goes
on with the rows that come back. -/
inductive Callback (δ ρ : Type)
  | done (out : ρ)
  | fail (out : ρ)
  | stmt (s : Stmt δ) (next : List (Row δ) → Callback δ ρ)

inductive TxError (ρ : Type)
  | noTenant | begin | setConfig | sql (e : SqlError) | callback (out : ρ) | commit

/-- Run the statements. A failed one ends the transaction: what follows it on the connection fails
too, and a commit rolls back. -/
def runCallback (t : String) : Db δ → Callback δ ρ → Except (TxError ρ) (ρ × Db δ)
  | db, .done out => .ok (out, db)
  | _, .fail out => .error (.callback out)
  | db, .stmt s next =>
      match runStmt t db s with
      | .error e => .error (.sql e)
      | .ok (rows, db') => runCallback t db' (next rows)

/-- Where the connection fails, if it does; an error of COMMIT leaves open whether it took effect. -/
inductive Fault
  | begin | setConfig | commitUndone | commitLost
  deriving DecidableEq

/-- WithTenant: what it returns and what the database holds afterwards. -/
def withTenant (t : String) (fn : Callback δ ρ) (fault : Option Fault) (db : Db δ) :
    Except (TxError ρ) ρ × Db δ :=
  if t = "" then (.error .noTenant, db)
  else if fault = some .begin then (.error .begin, db)
  else if fault = some .setConfig then (.error .setConfig, db)
  else match runCallback t db fn with
    | .error e => (.error e, db)
    | .ok (out, db') =>
        if fault = some .commitUndone then (.error .commit, db)
        else if fault = some .commitLost then (.error .commit, db')
        else (.ok out, db')

end statements

end ThesadaApp.RowSecurity
