import ThesadaApp.AuthSessions
import ThesadaApp.MachineRun

/-!
The life of the sessions. A validation reads in one statement and writes in another, so any number of them can
be between the two, on the cookie of one session or of several; logins, logouts, impersonations and the
deletion of users go on meanwhile. The log says which token was drawn for which session and which was rotated
away when.
-/

namespace ThesadaApp.SessionFlow

/-- A validation after its SELECT: the token presented, the clocks of its transaction, the sessions it saw. -/
structure Call where
  token : String
  clock : Clock
  read : SessionTable

/-- What the call meets when it writes. -/
def Call.env (c : Call) (sha256 : String → String) (write : SessionTable) (fresh : Option RawToken)
    (commit : Commit) : ValidateEnv :=
  ⟨sha256, c.clock, c.read, write, fresh, commit⟩

/-- The row the SELECT returned, if its session has not expired. -/
def Call.accepted (c : Call) (sha256 : String → String) : Option UserSession :=
  (lookupSession (c.env sha256 c.read none .acked) c.token).filter fun s => ¬ s.expiresAt < c.clock.app

structure State where
  sessions : SessionTable
  calls : List Call

def init : State := ⟨∅, []⟩

inductive AuthMethod where
  | password
  | magicLink
  | oidc
  deriving DecidableEq, Repr

def cookieLifetime : AuthMethod → Time
  | .magicLink => seconds (24 * 3600)
  | _ => seconds (30 * 24 * 3600)

inductive Action where
  /-- The new row's id and token are drawn at random. -/
  | createSession (id userID : UUID) (token : RawToken) (clock : Clock) (method : AuthMethod)
  | validateRead (token : String) (clock : Clock)
  /-- The write of one of the calls in flight. -/
  | validateWrite (n : Nat) (fresh : Option RawToken) (commit : Commit)
  | revokeSession (token : String)
  | setImpersonation (id : UUID) (tenantID : Option Slug)
  /-- The sessions of a deleted user go with it. -/
  | deleteUser (userID : UUID)

inductive Event where
  | created (session : UserSession)
  | read (c : Call)
  | wrote (c : Call) (v : Validation)
  | revoked (token : String)
  | changed

def newSession (sha256 : String → String) (id userID : UUID) (token : RawToken) (clock : Clock)
    (method : AuthMethod) : UserSession :=
  ⟨id, userID, sha256 token.val, clock.app + cookieLifetime method, clock.db, none, clock.db, none, none⟩

/-- `RevokeSession`. -/
def revokeSession (sha256 : String → String) (s : State) (token : String) : State :=
  { s with sessions := s.sessions.deleteWhere fun r => r.tokenHash = sha256 token }

def setTenant (tenantID : Option Slug) (r : UserSession) : UserSession := { r with impersonatedTenantID := tenantID }

theorem setTenant_id (tenantID : Option Slug) (r : UserSession) : (setTenant tenantID r).id = r.id := rfl

def step (sha256 : String → String) (s : State) : Action → Option (State × Event)
  | .createSession id userID token clock method =>
      let row := newSession sha256 id userID token clock method
      if h : s.sessions.find row.id = none then
        if s.sessions.rows.any fun r => r.tokenHash = row.tokenHash then none
        else some ({ s with sessions := s.sessions.insert row h }, .created row)
      else none
  | .validateRead token clock =>
      let c : Call := ⟨token, clock, s.sessions⟩
      some ({ s with calls := s.calls ++ [c] }, .read c)
  | .validateWrite n fresh commit =>
      match s.calls[n]? with
      | none => none
      | some c =>
          let v := validateSession (c.env sha256 s.sessions fresh commit) c.token
          some (⟨v.sessions, s.calls.eraseIdx n⟩, .wrote c v)
  | .revokeSession token => some (revokeSession sha256 s token, .revoked token)
  | .setImpersonation id tenantID =>
      some ({ s with sessions := s.sessions.updateWhere (fun r => r.id = id) (setTenant tenantID) (setTenant_id tenantID) },
        .changed)
  | .deleteUser userID => some ({ s with sessions := s.sessions.deleteWhere fun r => r.userID = userID }, .changed)

def system (sha256 : String → String) : Machine State Action Event where
  step := step sha256

/-- A token hash that was given to a session. -/
structure Issue where
  hash : String
  id : UUID
  userID : UUID
  deriving DecidableEq

/-- A token hash that a rotation replaced, and the time it was stamped with. -/
structure Rotation where
  hash : String
  at_ : Time
  deriving DecidableEq

def Event.issues (sha256 : String → String) : Event → List Issue
  | .created r => [⟨r.tokenHash, r.id, r.userID⟩]
  | .wrote c v =>
      match v.rotated, c.accepted sha256 with
      | some tok, some r => [⟨sha256 tok.val, r.id, r.userID⟩]
      | _, _ => []
  | _ => []

def Event.rotations (sha256 : String → String) : Event → List Rotation
  | .wrote c v => if v.rotated.isSome then [⟨sha256 c.token, c.clock.db⟩] else []
  | _ => []

def issues (sha256 : String → String) (log : List Event) : List Issue := log.flatMap (Event.issues sha256)

def rotations (sha256 : String → String) (log : List Event) : List Rotation := log.flatMap (Event.rotations sha256)

/-- A token is 32 random bytes and an id is a random uuid: neither was drawn before. -/
def Fresh (sha256 : String → String) (log : List Event) (_ : State) : Action → Prop
  | .createSession id _ token _ _ =>
      (∀ i ∈ issues sha256 log, i.id ≠ id) ∧ ∀ i ∈ issues sha256 log, i.hash ≠ sha256 token.val
  | .validateWrite _ (some fresh) _ => ∀ i ∈ issues sha256 log, i.hash ≠ sha256 fresh.val
  | _ => True

instance (sha256 : String → String) (log : List Event) (s : State) (a : Action) : Decidable (Fresh sha256 log s a) :=
  match a with
  | .createSession .. => inferInstanceAs (Decidable (_ ∧ _))
  | .validateWrite _ (some _) _ => inferInstanceAs (Decidable (∀ i ∈ issues sha256 log, _))
  | .validateWrite _ none _ => isTrue trivial
  | .validateRead .. => isTrue trivial
  | .revokeSession _ => isTrue trivial
  | .setImpersonation .. => isTrue trivial
  | .deleteUser _ => isTrue trivial

end ThesadaApp.SessionFlow
