import ThesadaApp.LoginFlow
import ThesadaApp.RowLocks

/-!
The two calls that accept a TOTP code, statement by statement under READ COMMITTED. A statement sees what was committed
when it began; an UPDATE or DELETE that has found its row waits for a transaction that has written it, and looks at the
row again as committed. What a transaction writes is its own until it commits. A statement that fails is a rollback,
which may come at any time.
-/

namespace ThesadaApp.TotpRows

open Login (totpMaxWrongCodes)

structure Config where
  sha256 : String → String
  totp : Totp

/-- A row of `users`, without its id: what the two calls read and write of it. -/
structure UserRow where
  tenantID : Slug
  totpSecret : Option String
  totpLastStep : Option Int
  deriving DecidableEq

/-- A row of `totp_challenges`, without its token hash. -/
structure Challenge where
  userID : UUID
  expiresAt : Time
  method : String
  attempts : Nat
  deriving DecidableEq

/-- What is committed. -/
@[ext] structure Tables where
  users : UUID → Option UserRow
  challenges : String → Option Challenge

inductive Call where
  | finishTOTPLoginAny (token code : String)
  | acceptTOTPLogin (tenantID : Slug) (userID : UUID) (secret code : String)
  deriving DecidableEq

/-- What a transaction that commits has done. -/
inductive Outcome where
  /-- The challenge is spent, and its caller opens a session. -/
  | opened (challenge : String) (user : UUID) (step : Int)
  /-- The code of a login that carries its own. -/
  | accepted (user : UUID) (step : Int)
  /-- A wrong code is counted against the challenge. -/
  | counted (challenge : String)
  | rejected
  deriving DecidableEq

/-- The statement a transaction is at. An UPDATE or DELETE that has found its row takes it next. -/
inductive Point where
  | start
  | recordStep (user : UUID) (step : Int)
  | recordStepRow (user : UUID) (step : Int)
  | noteWrong (challenge : String)
  | noteWrongRow (challenge : String)
  /-- DELETE of the challenge it has just counted the last code against -/
  | deleteAtCap (challenge : String)
  | delete (challenge : String) (then' : Outcome)
  | deleteRow (challenge : String) (then' : Outcome)
  | commit (outcome : Outcome)
  deriving DecidableEq

inductive Lock where
  | user (id : UUID)
  | challenge (tokenHash : String)
  deriving DecidableEq

structure Txn where
  call : Call
  /-- now() in all its statements -/
  now : Time
  point : Point
  /-- The version of the user it has written. -/
  step : Option (UUID × Int)
  /-- The version of the challenge it has written; `none` is its deletion. -/
  challenge : Option (String × Option Challenge)

structure State where
  tables : Tables
  txns : Txns Lock Txn

def start (d : Tables) : State := ⟨d, .idle⟩

inductive Action where
  | begin (tx : Nat) (now : Time) (call : Call)
  /-- The next statement; `appNow` is `time.Now()` if the call reads it. -/
  | next (tx : Nat) (appNow : Time)
  | rollback (tx : Nat)

inductive Event where
  | statement
  | ended (outcome : Outcome)
  | failed
  deriving DecidableEq

def Txn.start (call : Call) (now : Time) : Txn := ⟨call, now, .start, none, none⟩

/-- The tables with what the transaction has written. -/
def Txn.apply (t : Txn) (d : Tables) : Tables where
  users id :=
    match t.step with
    | none => d.users id
    | some (u, n) => if id = u then (d.users id).map fun r => { r with totpLastStep := some n } else d.users id
  challenges h :=
    match t.challenge with
    | none => d.challenges h
    | some (h', w) => if h = h' then w else d.challenges h

def State.put (s : State) (tx : Nat) (t : Txn) : State × Event := ({ s with txns := s.txns.put tx t }, .statement)

def State.lock (s : State) (tx : Nat) (k : Lock) : State := { s with txns := s.txns.lock tx k }

def State.fail (s : State) (tx : Nat) : State × Event := ({ s with txns := s.txns.close tx }, .failed)

/-- The users row-level security shows the call: a finish runs on the admin pool. -/
def Call.sees (u : UserRow) : Call → Bool
  | .finishTOTPLoginAny .. => true
  | .acceptTOTPLogin tenantID .. => u.tenantID = tenantID

/-- The WHERE of the guarded UPDATE of `acceptTOTPCode`. -/
def Call.records (c : Call) (step : Int) (u : UserRow) : Bool :=
  c.sees u && u.totpLastStep.all fun last => last < step

/-- Where a call goes on whose code is not accepted. -/
def Call.reject (cfg : Config) : Call → Point
  | .finishTOTPLoginAny token _ => .noteWrong (cfg.sha256 token)
  | .acceptTOTPLogin .. => .commit .rejected

/-- Where a call goes on that has recorded its time step. -/
def Call.accept (cfg : Config) (user : UUID) (step : Int) : Call → Point
  | .finishTOTPLoginAny token _ => .delete (cfg.sha256 token) (.opened (cfg.sha256 token) user step)
  | .acceptTOTPLogin .. => .commit (.accepted user step)

/-- `acceptTOTPCode` up to its UPDATE. -/
def acceptTOTPCode (cfg : Config) (s : State) (tx : Nat) (t : Txn) (user : UUID) (secret code : String) (appNow : Time) :
    State × Event :=
  match cfg.totp.checkStep secret code appNow with
  | .error _ => s.fail tx
  | .ok none => s.put tx { t with point := t.call.reject cfg }
  | .ok (some step) => s.put tx { t with point := .recordStep user step }

/-- The first statement: the SELECT of a finish, or the check of a code that came with its secret. -/
def stepStart (cfg : Config) (s : State) (tx : Nat) (t : Txn) (appNow : Time) : State × Event :=
  match t.call with
  | .acceptTOTPLogin _ user secret code => acceptTOTPCode cfg s tx t user secret code appNow
  | .finishTOTPLoginAny token code =>
      match (s.tables.challenges (cfg.sha256 token)).filter fun c => t.now < c.expiresAt with
      | none => s.fail tx
      | some c =>
          match s.tables.users c.userID with
          | none => s.fail tx
          | some u =>
              match u.totpSecret.filter fun secret => secret ≠ "" with
              | none => s.put tx { t with point := .delete (cfg.sha256 token) .rejected }
              | some secret => acceptTOTPCode cfg s tx t c.userID secret code appNow

/-- The DELETE found no row: only the one of a challenge whose user has no secret does not ask. -/
def deletedNone (s : State) (tx : Nat) (t : Txn) (then' : Outcome) : State × Event :=
  if then' = .rejected then s.put tx { t with point := .commit .rejected } else s.fail tx

def stepTxn (cfg : Config) (s : State) (tx : Nat) (t : Txn) (appNow : Time) : Option (State × Event) :=
  match t.point with
  | .start => some (stepStart cfg s tx t appNow)
  | .recordStep user step =>
      some (if (s.tables.users user).any (t.call.records step) then s.put tx { t with point := .recordStepRow user step }
        else s.put tx { t with point := t.call.reject cfg })
  | .recordStepRow user step =>
      if s.txns.mayLock tx (.user user) then
        some (if (s.tables.users user).any (t.call.records step) then
          (s.lock tx (.user user)).put tx { t with point := t.call.accept cfg user step, step := some (user, step) }
        else s.put tx { t with point := t.call.reject cfg })
      else none
  | .noteWrong challenge =>
      some (if (s.tables.challenges challenge).isSome then s.put tx { t with point := .noteWrongRow challenge }
        else s.fail tx)
  | .noteWrongRow challenge =>
      if s.txns.mayLock tx (.challenge challenge) then
        some (match s.tables.challenges challenge with
        | none => s.fail tx
        | some c =>
            let counted := { c with attempts := c.attempts + 1 }
            (s.lock tx (.challenge challenge)).put tx { t with
              challenge := some (challenge, some counted)
              point := if counted.attempts < totpMaxWrongCodes then .commit (.counted challenge) else .deleteAtCap challenge })
      else none
  | .deleteAtCap challenge =>
      some (s.put tx { t with challenge := some (challenge, none), point := .commit (.counted challenge) })
  | .delete challenge then' =>
      some (if (s.tables.challenges challenge).isSome then s.put tx { t with point := .deleteRow challenge then' }
        else deletedNone s tx t then')
  | .deleteRow challenge then' =>
      if s.txns.mayLock tx (.challenge challenge) then
        some (if (s.tables.challenges challenge).isSome then
          (s.lock tx (.challenge challenge)).put tx { t with challenge := some (challenge, none), point := .commit then' }
        else deletedNone s tx t then')
      else none
  | .commit outcome => some (⟨t.apply s.tables, s.txns.close tx⟩, .ended outcome)

def step (cfg : Config) (s : State) : Action → Option (State × Event)
  | .begin tx now call => if (s.txns.txn tx).isSome then none else some (s.put tx (.start call now))
  | .next tx appNow => (s.txns.txn tx).bind fun t => stepTxn cfg s tx t appNow
  | .rollback tx => if (s.txns.txn tx).isNone then none else some (s.fail tx)

def system (cfg : Config) : Machine State Action Event where
  step := step cfg

end ThesadaApp.TotpRows
