import Mathlib.Data.List.Sort
import Mathlib.Logic.Function.Basic
import ThesadaApp.AuthSessions
import ThesadaApp.MachineRun
import ThesadaApp.Totp

/-!
The login handlers of the web and the JSON surface: password login, magic-link verify and the TOTP finish of
each. A handler is cut at every database call, so any number of requests interleave, and a call may fail
whether or not it took effect. What a login does not write (emails, password hashes, TOTP secrets) other
handlers may rewrite at any time.
-/

namespace ThesadaApp.Login

/-- The columns of a users row that no login writes. -/
structure User where
  id : UUID
  tenantID : Slug
  email : String
  passwordHash : Option String
  totpSecret : Option String
  createdAt : Time
  deriving DecidableEq

structure TotpChallenge where
  tokenHash : String
  userID : UUID
  expiresAt : Time
  method : String
  attempts : Nat
  deriving DecidableEq

structure MagicLink where
  tokenHash : String
  userID : UUID
  expiresAt : Time
  consumedAt : Option Time
  purpose : String
  deriving DecidableEq

structure Config where
  sha256 : String → String
  totp : Totp
  /-- `CompareHashAndPassword` succeeds. -/
  bcrypt : String → String → Bool
  /-- The equality of the email column, which ignores case. -/
  sameEmail : String → String → Bool

/-- A login request and what its client sends. The fields a handler trims come trimmed. -/
inductive Input where
  | webLogin (email password : String)
  | webMagicLinkVerify (token : String)
  | webTotpSubmit (challenge code : String)
  | apiLogin (email password code : String)
  | apiMagicLinkVerify (token code : String)
  | apiTotp (challenge code : String)
  deriving DecidableEq, Repr

/-- The code the request itself carries. -/
def Input.code : Input → String
  | .webLogin .. | .webMagicLinkVerify .. => ""
  | .webTotpSubmit _ code | .apiLogin _ _ code | .apiMagicLinkVerify _ code | .apiTotp _ code => code

/-- The JSON surface, which hands out a bearer token after the session. -/
def Input.isApi : Input → Bool
  | .webLogin .. | .webMagicLinkVerify .. | .webTotpSubmit .. => false
  | .apiLogin .. | .apiMagicLinkVerify .. | .apiTotp .. => true

/-- The answer to a wrong password, link or code: the web renders its form again. -/
def Input.rejectedStatus (input : Input) : Nat := if input.isApi then 401 else 200

/-- The answer when the challenge to finish is gone or has expired. -/
def Input.expiredStatus : Input → Nat
  | .webTotpSubmit .. => 302
  | .apiMagicLinkVerify .. => 500
  | _ => 401

/-- The next call of a request. -/
inductive Pc where
  | start
  | enrolledTOTP (user : UUID) (method : String)
  | beginTOTPLogin (user : UUID) (method : String)
  | acceptTOTPLogin (user : UUID) (secret : String)
  | finishRead (challenge : String)
  | finishWrite (challenge : String) (user : UUID) (secret : Option String) (method : String)
  | createSession (user : UUID) (method : String)
  | issueToken (user : UUID) (method : String)
  | answered (status : Nat)
  deriving DecidableEq, Repr

structure Request where
  input : Input
  pc : Pc
  deriving DecidableEq, Repr

structure State where
  users : KeyedTable User.id
  totpLastStep : UUID → Option Int
  challenges : KeyedTable TotpChallenge.tokenHash
  magicLinks : KeyedTable MagicLink.tokenHash
  requests : List Request

/-- What one call meets: the clocks, the rate limiter's answer, the random token if there is one, and how
its transaction ends. -/
structure CallEnv where
  clock : Clock
  allowed : Bool
  fresh : Option RawToken
  commit : Commit

/-- The transaction took effect. -/
def CallEnv.ran (env : CallEnv) : Bool := env.commit ≠ .refused

inductive Action where
  | arrive (input : Input)
  | next (i : Nat) (env : CallEnv)
  /-- A login or reset link is mailed. -/
  | sendLink (link : MagicLink)
  /-- Another handler rewrites the users: a signup, a profile, a password, a secret, a deletion. -/
  | writeUsers (users : KeyedTable User.id)

inductive FirstFactor where
  | password
  | magicLink
  deriving DecidableEq, Repr

inductive Event where
  | went
  /-- A request has shown a user's password, or consumed a magic link of the user. -/
  | firstFactor (req : Nat) (user : UUID) (kind : FirstFactor)
  | challengeIssued (req : Nat) (tokenHash : String) (user : UUID)
  /-- A request's code was accepted for a user at a time step, carried by a challenge or by the request. -/
  | codeAccepted (req : Nat) (user : UUID) (step : Int) (carrier : Option String)
  | sessionCreated (req : Nat) (user : UUID) (method : String)
  | tokenIssued (req : Nat) (user : UUID)
  deriving DecidableEq, Repr

def totpChallengeLifetime : Time := seconds (5 * 60)

def totpMaxWrongCodes : Nat := 5

def maxLoginCandidates : Nat := 5

/-- `VerifyPasswordAnyTenant` past its rate limit: the oldest accounts of the email, the first that matches. -/
def verifyPasswordAnyTenant (cfg : Config) (s : State) (email password : String) : Option User :=
  let candidates := (s.users.rows.filter fun u => cfg.sameEmail u.email email && u.passwordHash.isSome).insertionSort
    fun a b => a.createdAt < b.createdAt ∨ (a.createdAt = b.createdAt ∧ a.tenantID.val ≤ b.tenantID.val)
  (candidates.take maxLoginCandidates).find? fun u =>
    u.passwordHash.any fun hash => hash ≠ "" && cfg.bcrypt hash password

def consumeRow (clock : Clock) (l : MagicLink) : MagicLink := { l with consumedAt := some clock.db }

theorem consumeRow_tokenHash (clock : Clock) (l : MagicLink) : (consumeRow clock l).tokenHash = l.tokenHash := rfl

/-- `ConsumeMagicLink`: the user of an open login link, and the links with it consumed. -/
def consumeMagicLink (cfg : Config) (s : State) (clock : Clock) (token : String) :
    Option (KeyedTable MagicLink.tokenHash × UUID) :=
  match s.magicLinks.find (cfg.sha256 token) with
  | none => none
  | some l =>
      if l.consumedAt = none ∧ clock.db < l.expiresAt ∧ l.purpose = "login" ∧ (s.users.find l.userID).isSome then
        some (s.magicLinks.updateWhere (fun r => r.tokenHash = cfg.sha256 token) (consumeRow clock) (consumeRow_tokenHash clock),
          l.userID)
      else none

/-- `EnrolledTOTP` on a lookup that did not fail: the secret, if it must be challenged; `none` without a row. -/
def enrolledTOTP (s : State) (user : UUID) : Option (Option String) :=
  (s.users.find user).map fun u => u.totpSecret.filter fun secret => secret ≠ ""

/-- The guarded UPDATE of `acceptTOTPCode` finds its row. -/
def stepIsNew (s : State) (user : UUID) (step : Int) : Bool :=
  (s.users.find user).isSome && (s.totpLastStep user).all fun last => last < step

def recordStep (s : State) (user : UUID) (step : Int) : State :=
  { s with totpLastStep := Function.update s.totpLastStep user (some step) }

def deleteChallenge (cfg : Config) (s : State) (challenge : String) : State :=
  { s with challenges := s.challenges.deleteWhere fun c => c.tokenHash = cfg.sha256 challenge }

def missRow (c : TotpChallenge) : TotpChallenge := { c with attempts := c.attempts + 1 }

theorem missRow_tokenHash (c : TotpChallenge) : (missRow c).tokenHash = c.tokenHash := rfl

/-- `noteWrongTOTP`: one more wrong code, and the challenge goes at the cap. -/
def noteWrongTOTP (cfg : Config) (s : State) (challenge : String) : State :=
  let counted := s.challenges.updateWhere (fun c => c.tokenHash = cfg.sha256 challenge) missRow missRow_tokenHash
  if (counted.find (cfg.sha256 challenge)).any fun c => totpMaxWrongCodes ≤ c.attempts then
    deleteChallenge cfg { s with challenges := counted } challenge
  else { s with challenges := counted }

def State.setPc (s : State) (i : Nat) (r : Request) (pc : Pc) : State :=
  { s with requests := s.requests.set i { r with pc } }

/-- A request goes on, without an event of its own. -/
def goOn (s : State) (i : Nat) (r : Request) (pc : Pc) : State × Event := (s.setPc i r pc, .went)

/-- The status of an answer, or 500 when the transaction before it did not come back. -/
def CallEnv.status (env : CallEnv) (status : Nat) : Nat := if env.commit = .acked then status else 500

/-- Apply a transaction's effect if it took effect. -/
def CallEnv.apply (env : CallEnv) (s s' : State) : State := if env.ran then s' else s

/-- The event of a transaction that took effect. -/
def CallEnv.event (env : CallEnv) (e : Event) : Event := if env.ran then e else .went

/-- `VerifyPasswordAnyTenant` in a handler: past the rate limit and the lookup, a match is the first factor. -/
def stepVerifyPassword (cfg : Config) (s : State) (i : Nat) (r : Request) (env : CallEnv) (email password : String) :
    State × Event :=
  if env.allowed = false then goOn s i r (.answered 429)
  else if env.commit ≠ .acked then goOn s i r (.answered 500)
  else
    match verifyPasswordAnyTenant cfg s email password with
    | none => goOn s i r (.answered r.input.rejectedStatus)
    | some u => (s.setPc i r (.enrolledTOTP u.id "password"), .firstFactor i u.id .password)

/-- `ConsumeMagicLink` in a handler. -/
def stepConsumeMagicLink (cfg : Config) (s : State) (i : Nat) (r : Request) (env : CallEnv) (token : String) :
    State × Event :=
  match consumeMagicLink cfg s env.clock token with
  | none => goOn s i r (.answered (env.status r.input.rejectedStatus))
  | some (magicLinks, user) =>
      if env.commit = .acked then
        ({ s with magicLinks }.setPc i r (.enrolledTOTP user "magic_link"), .firstFactor i user .magicLink)
      else goOn (env.apply s { s with magicLinks }) i r (.answered 500)

/-- The first call of a request: the first factor, or the checks before a challenge is finished. -/
def stepStart (cfg : Config) (s : State) (i : Nat) (r : Request) (env : CallEnv) : State × Event :=
  match r.input with
  | .webLogin email password =>
      -- Without a password the handler mails a link.
      if email = "" ∨ password = "" then goOn s i r (.answered 200)
      else stepVerifyPassword cfg s i r env email password
  | .webMagicLinkVerify token =>
      if token = "" then goOn s i r (.answered 200) else stepConsumeMagicLink cfg s i r env token
  | .webTotpSubmit challenge _ =>
      if env.allowed = false then goOn s i r (.answered 429)
      else if challenge = "" then goOn s i r (.answered 302)
      else goOn s i r (.finishRead challenge)
  | .apiLogin email password _ =>
      if email = "" ∨ password = "" then goOn s i r (.answered 400)
      else stepVerifyPassword cfg s i r env email password
  | .apiMagicLinkVerify token _ =>
      if token = "" then goOn s i r (.answered 400) else stepConsumeMagicLink cfg s i r env token
  | .apiTotp challenge code =>
      if challenge = "" ∨ code = "" then goOn s i r (.answered 400)
      else if env.allowed = false then goOn s i r (.answered 429)
      else goOn s i r (.finishRead challenge)

/-- Where a login goes on that must be challenged: `continueLocalLogin`, `handleAuthLogin` and
`handleAuthMagicLinkVerify`. -/
def challenged (r : Request) (user : UUID) (method secret : String) : Pc :=
  match r.input with
  | .apiLogin _ _ code => if code = "" then .answered 401 else .acceptTOTPLogin user secret
  | _ => .beginTOTPLogin user method

/-- `EnrolledTOTP`: a lookup error is a 500, never an account without the factor. -/
def stepEnrolledTOTP (s : State) (i : Nat) (r : Request) (env : CallEnv) (user : UUID)
    (method : String) : State × Event :=
  if env.commit ≠ .acked then goOn s i r (.answered 500)
  else
    match enrolledTOTP s user with
    | none => goOn s i r (.answered 500)
    | some none => goOn s i r (.createSession user method)
    | some (some secret) => goOn s i r (challenged r user method secret)

/-- Where a request goes on whose challenge is stored: the web sets the cookie, the JSON verify answers or
finishes with its own code. -/
def challengeStored (r : Request) (challenge : String) : Pc :=
  match r.input with
  | .apiMagicLinkVerify _ code => if code = "" then .answered 401 else .finishRead challenge
  | _ => .answered 302

def stepBeginTOTPLogin (cfg : Config) (s : State) (i : Nat) (r : Request) (env : CallEnv) (user : UUID)
    (method : String) : State × Event :=
  match env.fresh with
  | none => goOn s i r (.answered 500)
  | some token =>
      let row : TotpChallenge := ⟨cfg.sha256 token.val, user, env.clock.app + totpChallengeLifetime, method, 0⟩
      if method = "" then goOn s i r (.answered 500)
      else if (s.users.find user).isNone then goOn s i r (.answered 500)
      else if h : s.challenges.find row.tokenHash = none then
        let s' := env.apply s { s with challenges := s.challenges.insert row h }
        (s'.setPc i r (if env.commit = .acked then challengeStored r token.val else .answered 500),
          env.event (.challengeIssued i row.tokenHash user))
      else goOn s i r (.answered 500)

/-- `AcceptTOTPLogin` with the code of the request. -/
def stepAcceptTOTPLogin (cfg : Config) (s : State) (i : Nat) (r : Request) (env : CallEnv) (user : UUID)
    (secret : String) : State × Event :=
  match cfg.totp.checkStep secret r.input.code env.clock.app with
  | .error _ => goOn s i r (.answered 500)
  | .ok none => goOn s i r (.answered 401)
  | .ok (some step) =>
      if stepIsNew s user step then
        ((env.apply s (recordStep s user step)).setPc i r
            (if env.commit = .acked then .createSession user "password" else .answered 500),
          env.event (.codeAccepted i user step none))
      else goOn s i r (.answered (env.status 401))

/-- The SELECT of `FinishTOTPLoginAny`. -/
def stepFinishRead (cfg : Config) (s : State) (i : Nat) (r : Request) (env : CallEnv) (challenge : String) :
    State × Event :=
  if env.commit ≠ .acked then goOn s i r (.answered 500)
  else
    match s.challenges.find (cfg.sha256 challenge) with
    | none => goOn s i r (.answered r.input.expiredStatus)
    | some c =>
        if env.clock.db < c.expiresAt then
          match s.users.find c.userID with
          | none => goOn s i r (.answered r.input.expiredStatus)
          | some u => goOn s i r (.finishWrite challenge c.userID u.totpSecret c.method)
        else goOn s i r (.answered r.input.expiredStatus)

/-- A rejected code; the count of it must find the challenge still there. -/
def rejectCode (cfg : Config) (s : State) (i : Nat) (r : Request) (env : CallEnv) (challenge : String) : State × Event :=
  if (s.challenges.find (cfg.sha256 challenge)).isNone then goOn s i r (.answered r.input.expiredStatus)
  else goOn (env.apply s (noteWrongTOTP cfg s challenge)) i r (.answered (env.status r.input.rejectedStatus))

/-- The writes of `FinishTOTPLoginAny`: the challenge is deleted by the one finish that records the step. -/
def stepFinishWrite (cfg : Config) (s : State) (i : Nat) (r : Request) (env : CallEnv) (challenge : String)
    (user : UUID) (secret : Option String) (method : String) : State × Event :=
  match secret.filter fun secret => secret ≠ "" with
  | none =>
      goOn (env.apply s (deleteChallenge cfg s challenge)) i r (.answered (env.status r.input.rejectedStatus))
  | some secret =>
      match cfg.totp.checkStep secret r.input.code env.clock.app with
      | .error _ => goOn s i r (.answered 500)
      | .ok none => rejectCode cfg s i r env challenge
      | .ok (some step) =>
          if stepIsNew s user step = false then rejectCode cfg s i r env challenge
          else if (s.challenges.find (cfg.sha256 challenge)).isNone then goOn s i r (.answered r.input.expiredStatus)
          else
            ((env.apply s (deleteChallenge cfg (recordStep s user step) challenge)).setPc i r
                (if env.commit = .acked then .createSession user method else .answered 500),
              env.event (.codeAccepted i user step (some (cfg.sha256 challenge))))

/-- `CreateSession` under `startSession` or `finishAPILogin`. -/
def stepCreateSession (s : State) (i : Nat) (r : Request) (env : CallEnv) (user : UUID) (method : String) :
    State × Event :=
  if env.fresh = none ∨ (s.users.find user).isNone then goOn s i r (.answered (if r.input.isApi then 500 else 302))
  else
      (s.setPc i r
          (if r.input.isApi = false then .answered 302
          else if env.commit = .acked then .issueToken user method
          else .answered 500),
        env.event (.sessionCreated i user method))

def stepIssueToken (s : State) (i : Nat) (r : Request) (env : CallEnv) (user : UUID) : State × Event :=
  if env.fresh = none ∨ (s.users.find user).isNone then goOn s i r (.answered 500)
  else
      (s.setPc i r (.answered (if env.commit = .acked then 200 else 500)), env.event (.tokenIssued i user))

/-- The next call of request `i`. -/
def stepRequest (cfg : Config) (s : State) (i : Nat) (r : Request) (env : CallEnv) : Option (State × Event) :=
  match r.pc with
  | .start => some (stepStart cfg s i r env)
  | .enrolledTOTP user method => some (stepEnrolledTOTP s i r env user method)
  | .beginTOTPLogin user method => some (stepBeginTOTPLogin cfg s i r env user method)
  | .acceptTOTPLogin user secret => some (stepAcceptTOTPLogin cfg s i r env user secret)
  | .finishRead challenge => some (stepFinishRead cfg s i r env challenge)
  | .finishWrite challenge user secret method => some (stepFinishWrite cfg s i r env challenge user secret method)
  | .createSession user method => some (stepCreateSession s i r env user method)
  | .issueToken user _ => some (stepIssueToken s i r env user)
  | .answered _ => none

def step (cfg : Config) (s : State) : Action → Option (State × Event)
  | .arrive input => some ({ s with requests := s.requests ++ [⟨input, .start⟩] }, .went)
  | .next i env => s.requests[i]?.bind fun r => stepRequest cfg s i r env
  | .sendLink link =>
      if h : s.magicLinks.find link.tokenHash = none then
        some ({ s with magicLinks := s.magicLinks.insert link h }, .went)
      else none
  | .writeUsers users =>
      -- A deletion takes the challenges and links of the user with it.
      some ({ s with
        users
        challenges := s.challenges.deleteWhere fun c => (users.find c.userID).isNone
        magicLinks := s.magicLinks.deleteWhere fun l => (users.find l.userID).isNone }, .went)

def system (cfg : Config) : Machine State Action Event where
  step := step cfg

end ThesadaApp.Login
