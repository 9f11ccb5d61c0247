import ThesadaApp.AuthSessions
import ThesadaApp.MachineRun
import ThesadaApp.RowLocks

/-!
The calls over an emailed link, statement by statement under READ COMMITTED. Login links and reset links are rows of
one table. A statement sees what was committed when it began; an UPDATE that has found its row waits for a transaction
that has written it, and looks at the row again as committed. `now()` is the time a transaction began. A statement
that fails is a rollback, which may come at any time.
-/

namespace ThesadaApp.Links

inductive Purpose where
  | login
  | reset
  deriving DecidableEq

inductive LinkError where
  | notFound
  | expired
  | passwordTooShort
  /-- Of bcrypt, or of the database. -/
  | other
  deriving DecidableEq

/-- A row of `magic_link_tokens`, without its token hash. -/
structure Link where
  userID : UUID
  expiresAt : Time
  consumedAt : Option Time
  purpose : Purpose
  deriving DecidableEq

/-- A row of `users`, without its id: what the calls read and write of it. -/
structure UserRow where
  tenantID : Slug
  email : String
  passwordHash : Option String
  lastLoginAt : Option Time
  deriving DecidableEq

/-- What is committed. -/
@[ext] structure Tables where
  links : String → Option Link
  users : UUID → Option UserRow
  sessions : SessionTable

def minPasswordLen : Nat := 10

inductive Call where
  | consumeMagicLink (token : String)
  /-- With the hash of the password, unless bcrypt fails. -/
  | resetPassword (token password : String) (hash : Option String)
  | consumeResetLink (token : String)
  /-- What `ConsumeMagicLink` goes on with once it has committed. -/
  | touchLastLogin (tenantID : Slug) (userID : UUID)
  deriving DecidableEq

/-- Refused before a transaction begins. -/
def Call.refused : Call → Option LinkError
  | .resetPassword _ password hash =>
      if password.utf8ByteSize < minPasswordLen then some .passwordTooShort
      else if hash = none then some .other
      else none
  | _ => none

/-- `expectedPurpose`. -/
def Call.purpose : Call → Purpose
  | .resetPassword .. | .consumeResetLink _ => .reset
  | _ => .login

def Call.token : Call → String
  | .consumeMagicLink token | .resetPassword token _ _ | .consumeResetLink token => token
  | .touchLastLogin .. => ""

/-- The SET of the call's UPDATE of `users`. -/
def Call.set (now : Time) (u : UserRow) : Call → UserRow
  | .resetPassword _ _ hash => { u with passwordHash := hash }
  | .touchLastLogin .. => { u with lastLoginAt := some now }
  | _ => u

/-- The users row-level security shows the call: all but the last run on the admin pool. -/
def Call.sees (u : UserRow) : Call → Bool
  | .touchLastLogin tenantID _ => u.tenantID = tenantID
  | _ => true

/-- What a transaction that commits has done. -/
inductive Outcome where
  /-- The link is consumed, by a call for that purpose which began at that time. -/
  | consumed (tokenHash : String) (user : UUID) (purpose : Purpose) (now : Time)
  | peeked (user : UUID)
  | refused (err : LinkError)
  | touched
  deriving DecidableEq

/-- The statement a transaction is at. An UPDATE that has found its row takes it next. -/
inductive Point where
  | start
  | consumeRow
  /-- SELECT of the link an UPDATE has not found -/
  | classify
  | updateUser (user : UUID) (then' : Outcome)
  | updateUserRow (user : UUID) (then' : Outcome)
  | commit (outcome : Outcome)
  deriving DecidableEq

inductive Lock where
  | link (tokenHash : String)
  | user (id : UUID)
  deriving DecidableEq

structure Txn where
  call : Call
  now : Time
  point : Point
  /-- The version of the link it has written. -/
  link : Option (String × Link)
  /-- The version of the user it has written. -/
  user : Option (UUID × UserRow)

structure State where
  tables : Tables
  txns : Txns Lock Txn

def start (d : Tables) : State := ⟨d, .idle⟩

inductive Action where
  | begin (tx : Nat) (now : Time) (call : Call)
  /-- The next statement; `appNow` is `time.Now()` if the call reads it. -/
  | next (tx : Nat) (appNow : Time)
  | rollback (tx : Nat)

inductive Event where
  | statement
  | ended (outcome : Outcome)
  | failed (err : LinkError)
  deriving DecidableEq

def Txn.start (call : Call) (now : Time) : Txn := ⟨call, now, .start, none, none⟩

/-- The tables with what the transaction has written. -/
def Txn.apply (t : Txn) (d : Tables) : Tables where
  links := t.link.elim d.links fun w => Function.update d.links w.1 (some w.2)
  users := t.user.elim d.users fun w => Function.update d.users w.1 (some w.2)
  sessions := d.sessions

def State.put (s : State) (tx : Nat) (t : Txn) : State × Event := ({ s with txns := s.txns.put tx t }, .statement)

def State.lock (s : State) (tx : Nat) (k : Lock) : State := { s with txns := s.txns.lock tx k }

def State.fail (s : State) (tx : Nat) (err : LinkError) : State × Event :=
  ({ s with txns := s.txns.close tx }, .failed err)

/-- The WHERE of `consumeQuery`, for the row of the token's hash. -/
def Call.consumes (c : Call) (now : Time) (l : Link) : Bool :=
  l.consumedAt = none && now < l.expiresAt && l.purpose = c.purpose

/-- Where a call goes on that has consumed its link. -/
def Call.consumed (c : Call) (user : UUID) (outcome : Outcome) : Point :=
  match c with
  | .resetPassword .. => .updateUser user outcome
  | _ => .commit outcome

/-- `ConsumeResetLink`, and the SELECT after an UPDATE that matched no row: the row, or why it cannot be used. -/
def checkLink (d : Tables) (tokenHash : String) (purpose : Purpose) (appNow : Time) : Except LinkError Link :=
  match d.links tokenHash with
  | none => .error .notFound
  | some l =>
      if l.purpose ≠ purpose ∨ l.consumedAt ≠ none then .error .notFound
      else if l.expiresAt < appNow then .error .expired
      else .ok l

/-- The first statement of a call. -/
def stepStart (sha256 : String → String) (s : State) (tx : Nat) (t : Txn) (appNow : Time) : State × Event :=
  match t.call with
  | .consumeMagicLink token | .resetPassword token _ _ =>
      if (s.tables.links (sha256 token)).any fun l => t.call.consumes t.now l && (s.tables.users l.userID).isSome then
        s.put tx { t with point := .consumeRow }
      else s.put tx { t with point := .classify }
  | .consumeResetLink token =>
      -- the JOIN finds no row if there is no user
      match (s.tables.links (sha256 token)).filter fun l => (s.tables.users l.userID).isSome with
      | none => s.fail tx .notFound
      | some _ =>
          s.put tx { t with point := .commit (match checkLink s.tables (sha256 token) .reset appNow with
            | .error err => .refused err
            | .ok l => .peeked l.userID) }
  | .touchLastLogin _ user => s.put tx { t with point := .updateUser user .touched }

/-- The UPDATE found no user: only `touchLastLogin` does not ask. -/
def updatedNone (s : State) (tx : Nat) (t : Txn) (then' : Outcome) : State × Event :=
  if then' = .touched then s.put tx { t with point := .commit .touched } else s.fail tx .notFound

/-- What a call goes on with that has committed; the tenant of a user does not change. -/
def afterCommit (s : State) (tx : Nat) (t : Txn) (outcome : Outcome) (appNow : Time) : Txns Lock Txn :=
  match t.call, outcome with
  | .consumeMagicLink _, .consumed _ user _ _ =>
      match s.tables.users user with
      | none => s.txns.close tx
      | some u => (s.txns.close tx).put tx (.start (.touchLastLogin u.tenantID user) appNow)
  | _, _ => s.txns.close tx

def stepTxn (sha256 : String → String) (s : State) (tx : Nat) (t : Txn) (appNow : Time) : Option (State × Event) :=
  let tokenHash := sha256 t.call.token
  match t.point with
  | .start => some (stepStart sha256 s tx t appNow)
  | .consumeRow =>
      if s.txns.mayLock tx (.link tokenHash) then
        some (match (s.tables.links tokenHash).filter (t.call.consumes t.now) with
        | none => s.put tx { t with point := .classify }
        | some l =>
            (s.lock tx (.link tokenHash)).put tx { t with
              link := some (tokenHash, { l with consumedAt := some t.now })
              point := t.call.consumed l.userID (.consumed tokenHash l.userID t.call.purpose t.now) })
      else none
  | .classify =>
      some (s.put tx { t with point := .commit (.refused (match checkLink s.tables tokenHash t.call.purpose appNow with
        | .error err => err
        | .ok _ => .notFound)) })
  | .updateUser user then' =>
      some (if (s.tables.users user).any t.call.sees then s.put tx { t with point := .updateUserRow user then' }
        else updatedNone s tx t then')
  | .updateUserRow user then' =>
      if s.txns.mayLock tx (.user user) then
        some (match (s.tables.users user).filter t.call.sees with
        | none => updatedNone s tx t then'
        | some u =>
            (s.lock tx (.user user)).put tx
              { t with user := some (user, t.call.set t.now u), point := .commit then' })
      else none
  | .commit outcome => some (⟨t.apply s.tables, afterCommit s tx t outcome appNow⟩, .ended outcome)

def step (sha256 : String → String) (s : State) : Action → Option (State × Event)
  | .begin tx now call =>
      if (s.txns.txn tx).isSome then none
      else match call.refused with
        | some err => some (s, .failed err)
        | none => some (s.put tx (.start call now))
  | .next tx appNow => (s.txns.txn tx).bind fun t => stepTxn sha256 s tx t appNow
  | .rollback tx => if (s.txns.txn tx).isNone then none else some (s.fail tx .other)

def system (sha256 : String → String) : Machine State Action Event where
  step := step sha256

end ThesadaApp.Links
