import ThesadaApp.Base64
import ThesadaApp.KeyedTable
import ThesadaApp.OAuthIdentities
import ThesadaApp.ReturnPath

/-!
The authorize flow between browsers, the app and the providers. A start draws the state, the nonce and
the PKCE verifier, keeps them in `oauth_auth_requests` and answers with the state cookie; whoever is
at the authorize URL signs in at the provider, which binds a code to the nonce and the challenge of
that URL; a callback with any code and any state, from any browser, checks the cookie, takes the
request out of the table and exchanges the code. Answers are on their way for as long as they like,
so the cookies of a browser's parallel requests arrive in any order, and handlers of several callbacks
run between each other.
-/

namespace ThesadaApp.OidcFlow

open OAuth (Provider User Config Claims loadProviderBySlug loadProviderByID authRequestTTL)

/-- `base64.RawURLEncoding` -/
def rawURLEncode (bs : List UInt8) : String :=
  String.ofList (((Base64.encode bs).filter fun c => c ≠ '=').map fun c =>
    if c = '+' then '-' else if c = '/' then '_' else c)

/-- `pkceChallenge`, under the hash. -/
def pkceChallenge (sha256 : List UInt8 → List UInt8) (verifier : String) : String :=
  rawURLEncode (sha256 verifier.toUTF8.toList)

/-- A row of `oauth_auth_requests`. -/
structure AuthRow where
  state : String
  providerID : UUID
  nonce : String
  pkceVerifier : String
  returnTo : List UInt8
  linkingUserID : Option UUID
  expiresAt : Time
  deriving DecidableEq

/-- What a provider has bound to a code it gave out: who signed in, and the parameters of the
authorize URL. -/
structure Code where
  issuerURL : String
  code : String
  nonce : String
  challenge : String
  claims : Claims

/-- A callback that has taken its request out of the table. -/
structure Handler where
  browser : Nat
  row : AuthRow
  p : Provider
  code : String

structure Sys where
  rows : KeyedTable AuthRow.state
  /-- The state cookie of each browser, and the user its session belongs to. -/
  jar : Nat → Option String
  user : Nat → Option User
  /-- Set-Cookie headers on their way; `none` clears. -/
  answers : List (Nat × Option String)
  codes : List Code
  handlers : List Handler
  now : Time

def boot : Sys := ⟨∅, fun _ => none, fun _ => none, [], [], [], 0⟩

/-- The random bytes of a start. -/
structure Draw where
  state : List UInt8
  nonce : List UInt8
  verifier : List UInt8

inductive Action where
  | session (b : Nat) (u : Option User)
  /-- `handleOIDCStart`; the provider may be out of reach -/
  | start (b : Nat) (slug : String) (linking : Bool) (rt : List UInt8) (draw : Draw) (reachable : Bool)
  /-- A Set-Cookie header arrives at its browser. -/
  | deliver (i : Nat)
  /-- A browser loses the cookie, by its age or otherwise. -/
  | forget (b : Nat)
  /-- A sign-in at a provider, from anybody's authorize URL. -/
  | authorize (c : Code)
  /-- `handleOIDCCallback` up to the exchange -/
  | callback (b : Nat) (slug code state : String) (reachable : Bool)
  /-- `Exchange` of a handler -/
  | exchange (i : Nat)
  | tick (d : Nat)

inductive Event where
  | started (b : Nat) (u : Option User) (slug : String) (linking : Bool) (t : Time) (row : AuthRow)
  | stored (b : Nat) (cookie : Option String)
  | authorized (c : Code)
  | consumed (b : Nat) (row : AuthRow) (t : Time)
  /-- The claims of a code go on to a link or a sign-in in this browser. -/
  | accepted (b : Nat) (row : AuthRow) (p : Provider) (c : Code)
  | other
  deriving Inhabited

section handlers

variable (w : Config)

/-- The request `Start` stores. -/
def newRow (p : Provider) (u : Option User) (linking : Bool) (rt : List UInt8) (draw : Draw) (now : Time) :
    AuthRow where
  state := rawURLEncode draw.state
  providerID := p.id
  nonce := rawURLEncode draw.nonce
  pkceVerifier := rawURLEncode draw.verifier
  returnTo := ReturnTo.startReturnTo rt
  linkingUserID := if linking then u.map User.id else none
  expiresAt := now + authRequestTTL

def handleOIDCStart (s : Sys) (b : Nat) (slug : String) (linking : Bool) (rt : List UInt8) (draw : Draw)
    (reachable : Bool) : Sys × Event :=
  if slug = "" then (s, .other)
  else match loadProviderBySlug w slug ((s.user b).map User.tenantID) with
    | none => (s, .other)
    | some p =>
        if p.kind ≠ .oidc ∨ reachable = false then (s, .other)
        else if linking ∧ s.user b = none then (s, .other)
        else
          -- the sweep, then the INSERT, which a state in the table refuses
          let swept := s.rows.deleteWhere fun r => r.expiresAt < s.now
          let row := newRow p (s.user b) linking rt draw s.now
          if h : swept.find row.state = none then
            ({ s with rows := swept.insert row h, answers := s.answers ++ [(b, some row.state)] },
              .started b (s.user b) slug linking s.now row)
          else ({ s with rows := swept }, .other)

/-- `oidcStateMatches` -/
def oidcStateMatches (s : Sys) (b : Nat) (state : String) : Bool :=
  (s.jar b).any fun v => v ≠ "" && v = state

/-- The callback: the cookie, then the request, which is deleted whether it has expired or not. -/
def handleOIDCCallback (s : Sys) (b : Nat) (slug code state : String) (reachable : Bool) : Sys × Event :=
  if slug = "" ∨ code = "" ∨ state = "" then (s, .other)
  else if oidcStateMatches s b state = false then (s, .other)
  else
    let s := { s with answers := s.answers ++ [(b, none)] }
    match s.rows.find state with
    | none => (s, .other)
    | some row =>
        let s := { s with rows := s.rows.deleteWhere fun r => r.state = state }
        if row.expiresAt < s.now then (s, .other)
        else match loadProviderByID w row.providerID with
          | none => (s, .consumed b row s.now)
          | some p =>
              if p.kind ≠ .oidc ∨ reachable = false then (s, .consumed b row s.now)
              else ({ s with handlers := s.handlers ++ [⟨b, row, p, code⟩] }, .consumed b row s.now)

/-- `Exchange`: the provider gives the claims of a code once, to who knows the verifier of its
challenge, and the nonce of the id_token is compared with the stored one. -/
def exchange (sha256 : List UInt8 → List UInt8) (s : Sys) (h : Handler) : Sys × Event :=
  match s.codes.find? fun c => c.issuerURL = h.p.issuerURL && c.code = h.code with
  | none => (s, .other)
  | some c =>
      let s := { s with codes := s.codes.filter fun x => !(x.issuerURL = c.issuerURL && x.code = c.code) }
      if c.challenge ≠ pkceChallenge sha256 h.row.pkceVerifier then (s, .other)
      else if c.nonce ≠ h.row.nonce then (s, .other)
      else (s, .accepted h.browser h.row h.p c)

end handlers

/-- The browsers, the app and the providers; a provider does not give one code out twice. -/
def system (w : Config) (sha256 : List UInt8 → List UInt8) :
    Machine Sys Action Event where
  step s
    | .session b u => some ({ s with user := Function.update s.user b u }, .other)
    | .start b slug linking rt draw reachable =>
        some (handleOIDCStart w s b slug linking rt draw reachable)
    | .deliver i => s.answers[i]?.map fun (b, cookie) =>
        ({ s with answers := s.answers.eraseIdx i, jar := Function.update s.jar b cookie },
          .stored b cookie)
    | .forget b => some ({ s with jar := Function.update s.jar b none }, .other)
    | .authorize c =>
        if s.codes.any fun x => x.issuerURL = c.issuerURL && x.code = c.code then none
        else some ({ s with codes := s.codes ++ [c] }, .authorized c)
    | .callback b slug code state reachable =>
        some (handleOIDCCallback w s b slug code state reachable)
    | .exchange i => s.handlers[i]?.map fun h =>
        exchange sha256 { s with handlers := s.handlers.eraseIdx i } h
    | .tick d => some ({ s with now := s.now + d }, .other)

end ThesadaApp.OidcFlow
