import ThesadaApp.AuthSessions

/-!
The two middlewares that resolve a session cookie, and the response of a request that passes through one of
them. A token that `ValidateSession` has rotated is of use only if the response carries the new one, so
every way a request can end is asked whether it does.
-/

namespace ThesadaApp.SessionCookie

def cookieName : String := "thesada_session"

structure SetCookie where
  name : String
  value : String
  path : String
  expires : Option Time
  maxAge : Option Int
  httpOnly : Bool
  secure : Bool
  sameSite : String
  deriving DecidableEq, Repr

def setSessionCookie (token : String) (expires : Option Time) (secure : Bool) : SetCookie where
  name := cookieName
  value := token
  path := "/"
  expires := expires
  maxAge := none
  httpOnly := true
  secure := secure
  sameSite := "Lax"

def clearSessionCookie (secure : Bool) : SetCookie where
  name := cookieName
  value := ""
  path := "/"
  expires := none
  maxAge := some (-1)
  httpOnly := true
  secure := secure
  sameSite := "Lax"

inductive Method where
  | get
  | head
  | options
  | post
  | put
  | patch
  | delete
  deriving DecidableEq, Repr

def isUnsafeMethod : Method → Bool
  | .post | .put | .patch | .delete => true
  | _ => false

structure Request where
  method : Method
  /-- `BearerToken`, empty without one. -/
  bearer : String
  sessionCookie : Option String
  /-- `SameOriginUnsafe` accepts its Fetch-Metadata or Origin header. -/
  sameOrigin : Bool
  /-- It carries a valid double-submit token. -/
  csrfToken : Bool
  /-- `RequestIsSecure`. -/
  isSecure : Bool
  deriving DecidableEq, Repr

def allowCookieUnsafe (r : Request) : Bool := r.sameOrigin || r.csrfToken

/-- How a handler answers: through the response writer, adding cookies to those already set on it, or by an
upgrade, which sends its handshake and the header it is given and nothing of the writer's. -/
inductive Answer where
  | response (status : Nat) (added : List SetCookie)
  | upgrade (header : List SetCookie)
  deriving DecidableEq, Repr

/-- An answer, and whether the request is the logout of its session. -/
structure Handled where
  answer : Answer
  loggedOut : Bool
  deriving DecidableEq, Repr

abbrev Handler := Request → Option Session → Handled

/-- The response that is sent. -/
structure Response where
  status : Nat
  cookies : List SetCookie
  loggedOut : Bool
  deriving DecidableEq, Repr

/-- Send a handler's answer under the cookies the middleware has set on the writer. -/
def send (set : List SetCookie) (h : Handled) : Response :=
  match h.answer with
  | .response status added => ⟨status, set ++ added, h.loggedOut⟩
  | .upgrade header => ⟨101, header, h.loggedOut⟩

/-- The cookie of a rotation, set before the handler runs. -/
def rotatedCookie (r : Request) (s : Session) : List SetCookie :=
  if s.newToken ≠ "" then [setSessionCookie s.newToken s.newExpires r.isSecure] else []

def middleware (validate : String → Validation) (next : Handler) (r : Request) : Response :=
  match r.sessionCookie with
  | none => send [] (next r none)
  | some c =>
      if c = "" then send [] (next r none)
      else
        match (validate c).session with
        | .error _ => send [] (next r none)
        | .ok s => send (rotatedCookie r s) (next r (some s))

/-- The session of a bearer token has no row and no impersonation. -/
def bearerSession (user : UUID) : Session := ⟨UUID.nil, user, none, "", none⟩

/-- A cookie-authed unsafe method without any proof of same-origin intent. -/
def csrfRefuses (r : Request) : Bool := isUnsafeMethod r.method && !allowCookieUnsafe r

def apiMiddleware (validate : String → Validation) (validateToken : String → Option UUID) (next : Handler)
    (r : Request) : Response :=
  match if r.bearer = "" then none else validateToken r.bearer with
  | some user => send [] (next r (some (bearerSession user)))
  | none =>
      match r.sessionCookie with
      | none => send [] (next r none)
      | some c =>
          if c = "" then send [] (next r none)
          else
            match (validate c).session with
            | .error _ => send [] (next r none)
            | .ok s =>
                if csrfRefuses r then ⟨403, [], false⟩
                else send (rotatedCookie r s) (next r (some s))

inductive Surface where
  | web
  | api (validateToken : String → Option UUID)

def serve : Surface → (String → Validation) → Handler → Request → Response
  | .web => middleware
  | .api validateToken => fun validate => apiMiddleware validate validateToken

/-- The cookie value a request has `ValidateSession` called with, if any. -/
def validatedCookie (surface : Surface) (r : Request) : Option String :=
  let cookie := r.sessionCookie.filter fun c => c ≠ ""
  match surface with
  | .web => cookie
  | .api validateToken =>
      match if r.bearer = "" then none else validateToken r.bearer with
      | some _ => none
      | none => cookie

/-- The session cookie that a browser keeps of a response: the last one. -/
def keptCookie (cookies : List SetCookie) : Option String :=
  ((cookies.filter fun c => c.name = cookieName && c.path = "/").getLast?).map SetCookie.value

/-- The response sets the session cookie to the token, and to nothing else after it. -/
def SetsTo (cookies : List SetCookie) (tok : RawToken) : Prop := keptCookie cookies = some tok.val

/-- How the WebSocket handshake of an authenticated request ends. -/
inductive Handshake where
  | refused (status : Nat)
  | upgraded
  deriving DecidableEq, Repr

/-- `Hub.ServeHTTP` behind `RequireAuth`; the upgrader's header argument is nil. -/
def hubServeHTTP (handshake : Handshake) : Handler := fun _ session =>
  match session with
  | none => ⟨.response 302 [], false⟩
  | some _ =>
      match handshake with
      | .refused status => ⟨.response status [], false⟩
      | .upgraded => ⟨.upgrade [], false⟩

/-- `handleAdminMqttWS` behind `RequireSuperAdmin`. -/
def handleAdminMqttWS (isSuperAdmin : UUID → Bool) (mqttConfigured : Bool) (handshake : Handshake) : Handler :=
  fun _ session =>
    match session with
    | none => ⟨.response 302 [], false⟩
    | some s =>
        if isSuperAdmin s.userID = false then ⟨.response 404 [], false⟩
        else if mqttConfigured = false then ⟨.response 503 [], false⟩
        else
          match handshake with
          | .refused status => ⟨.response status [], false⟩
          | .upgraded => ⟨.upgrade [], false⟩

/-- A handler that ends in `startSession`: the cookie of the session it creates, or none when the insert failed. -/
def startSession (created : Option (String × Option Time)) : Handler := fun r _ =>
  ⟨.response 302 (created.map fun (token, expires) => setSessionCookie token expires r.isSecure).toList, false⟩

/-- `handleLogout` calls `RevokeSession` with the cookie, and clears the cookie whatever the call answers. -/
def handleLogout : Handler := fun r _ =>
  ⟨.response 302 [clearSessionCookie r.isSecure], r.sessionCookie.any fun c => c ≠ ""⟩

/-- Whether the refusal of `APIMiddleware` stands between a valid cookie and the handler. -/
def refused : Surface → Request → Bool
  | .web, _ => false
  | .api _, r => csrfRefuses r

/-- What it takes for a rotated token to reach the browser. The session is handed on if the commit was
answered; then the request must not be refused, a handler that answers must set no other session cookie after the
rotation's, and one that upgrades must put the cookie in its header itself. Without an answer only a cookie of the
handler's own would help. -/
def Delivers (surface : Surface) (env : ValidateEnv) (next : Handler) (r : Request) (c : String) (tok : RawToken) : Prop :=
  match (validateSession env c).session with
  | .ok s =>
      refused surface r = false ∧
        match (next r (some s)).answer with
        | .response _ added => keptCookie added = none ∨ SetsTo added tok
        | .upgrade header => SetsTo header tok
  | .error _ =>
      match (next r none).answer with
      | .response _ added => SetsTo added tok
      | .upgrade header => SetsTo header tok

section rotation

variable {surface : Surface} {env : ValidateEnv} {next : Handler} {r : Request} {c : String} {tok : RawToken}

/-- A request that validates a cookie goes on by what the validation answers. -/
theorem serve_validated (validate : String → Validation) (hcookie : validatedCookie surface r = some c) :
    serve surface validate next r =
      match (validate c).session with
      | .error _ => send [] (next r none)
      | .ok s => if refused surface r then ⟨403, [], false⟩ else send (rotatedCookie r s) (next r (some s)) := by
  have hfilter : ∀ o : Option String, (o.filter fun c => c ≠ "") = some c → o = some c ∧ c ≠ "" := by
    intro o ho
    simpa [Option.filter_eq_some_iff] using ho
  cases surface with
  | web =>
      obtain ⟨hsome, hne⟩ := hfilter _ hcookie
      simp only [serve, middleware, hsome, if_neg hne]
      rfl
  | api validateToken =>
      simp only [validatedCookie] at hcookie
      split at hcookie
      · cases hcookie
      · next hbearer =>
          obtain ⟨hsome, hne⟩ := hfilter _ hcookie
          simp only [serve, apiMiddleware, hbearer, hsome, if_neg hne]
          rfl

theorem keptCookie_append (set added : List SetCookie) :
    keptCookie (set ++ added) = (keptCookie added).or (keptCookie set) := by
  rw [keptCookie, List.filter_append, List.getLast?_append]
  cases h : (added.filter fun c => c.name = cookieName && c.path = "/").getLast? <;> simp [keptCookie, h]

theorem setsTo_rotatedCookie {s : Session} (hs : s.newToken = tok.val) (added : List SetCookie) :
    SetsTo (rotatedCookie r s ++ added) tok ↔ keptCookie added = none ∨ SetsTo added tok := by
  have hset : keptCookie (rotatedCookie r s) = some tok.val := by
    rw [rotatedCookie, if_pos (by rw [hs]; exact tok.ne_empty), ← hs]
    rfl
  unfold SetsTo
  rw [keptCookie_append, hset]
  cases keptCookie added <;> simp

/-- A handler's own cookies are what is sent when the middleware sets none. -/
theorem cookies_send_nil (h : Handled) : (send [] h).cookies =
    match h.answer with
    | .response _ added => added
    | .upgrade header => header := by
  unfold send
  split <;> rfl

theorem setsTo_serve_iff (hcookie : validatedCookie surface r = some c)
    (hrotated : (validateSession env c).rotated = some tok) :
    SetsTo (serve surface (validateSession env) next r).cookies tok ↔ Delivers surface env next r c tok := by
  obtain ⟨-, hreturned⟩ := validateSession_rotated hrotated
  rw [serve_validated _ hcookie]
  unfold Delivers
  rcases hreturned with ⟨-, s, hsession, hnew⟩ | ⟨-, hsession⟩
  · rw [hsession]
    cases hrefused : refused surface r with
    | true =>
        simp only [if_true]
        exact ⟨nofun, fun h => absurd h.1 (by simp)⟩
    | false =>
        simp only [Bool.false_eq_true, if_false, true_and]
        unfold send
        cases hanswer : (next r (some s)).answer with
        | response status added => exact setsTo_rotatedCookie hnew added
        | upgrade header => rfl
  · rw [hsession]
    dsimp only
    rw [cookies_send_nil]
    split <;> rfl

/-- A rotation that is in the database reaches the browser, the logout of the session aside, exactly if
`Delivers` says so. -/
theorem rotation_delivered_iff (hcookie : validatedCookie surface r = some c)
    (hrotated : (validateSession env c).rotated = some tok) :
    ((serve surface (validateSession env) next r).loggedOut = false →
        SetsTo (serve surface (validateSession env) next r).cookies tok) ↔
      ((serve surface (validateSession env) next r).loggedOut = true ∨ Delivers surface env next r c tok) := by
  rw [setsTo_serve_iff hcookie hrotated]
  cases (serve surface (validateSession env) next r).loggedOut <;> simp

/-- An upgrade with an empty header loses every rotation. -/
theorem not_delivers_upgrade {s : Session} (hsession : (validateSession env c).session = .ok s)
    (hupgrade : (next r (some s)).answer = .upgrade []) : ¬ Delivers surface env next r c tok := by
  unfold Delivers
  rw [hsession]
  dsimp only
  rw [hupgrade]
  exact fun h => nomatch h.2

/-- So does a handler whose own session cookie goes out after the rotation's. -/
theorem not_delivers_later {s : Session} {status : Nat} {added : List SetCookie} {value : String}
    (hsession : (validateSession env c).session = .ok s) (hanswer : (next r (some s)).answer = .response status added)
    (hkept : keptCookie added = some value) (hother : value ≠ tok.val) : ¬ Delivers surface env next r c tok := by
  unfold Delivers
  rw [hsession]
  dsimp only
  rw [hanswer]
  rintro ⟨-, hnone | hsets⟩
  · cases hkept.symm.trans hnone
  · exact hother (Option.some.inj (hkept.symm.trans hsets))

/-- Both WebSocket routes upgrade with an empty header. -/
theorem hubServeHTTP_loses {s : Session} (hsession : (validateSession env c).session = .ok s) :
    ¬ Delivers surface env (hubServeHTTP .upgraded) r c tok :=
  not_delivers_upgrade hsession rfl

theorem handleAdminMqttWS_loses {s : Session} {isSuperAdmin : UUID → Bool} (hadmin : isSuperAdmin s.userID = true)
    (hsession : (validateSession env c).session = .ok s) :
    ¬ Delivers surface env (handleAdminMqttWS isSuperAdmin true .upgraded) r c tok :=
  not_delivers_upgrade hsession (by simp [handleAdminMqttWS, hadmin])

/-- Signing in with a cookie that is due for rotation sets the cookie of the new session last. -/
theorem startSession_loses {s : Session} {token : String} {expires : Option Time} (hother : token ≠ tok.val)
    (hsession : (validateSession env c).session = .ok s) :
    ¬ Delivers surface env (startSession (some (token, expires))) r c tok :=
  not_delivers_later hsession rfl rfl hother

/-- A logout clears the cookie after the rotation has set it, which is why it is excepted. -/
theorem handleLogout_loses {s : Session} (hsession : (validateSession env c).session = .ok s) :
    ¬ Delivers surface env handleLogout r c tok :=
  not_delivers_later hsession rfl rfl tok.ne_empty.symm

end rotation

/-- A cookie token. -/
def oldToken : String := "AAAAAAAAAAAAAAAAAAAAAAAAAAAAAAAAAAAAAAAAAAA"

/-- One session, last rotated at 0 and validated five hours later. -/
def dueEnv : ValidateEnv where
  sha256 token :=
    if token = oldToken then "0f007385b6f9d4b7eeb2748605afe1a984a0a3bfa3f014d09e2a784ce9e5cd1a"
    else if token = freshToken.val then "56d5fa7333f6d747db42c239407e5da4c32f4c79f35d092b134fd35a402d9c5c"
    else ""
  clock := ⟨seconds (5 * 3600), seconds (5 * 3600)⟩
  read := ⟨[⟨1, 7, "0f007385b6f9d4b7eeb2748605afe1a984a0a3bfa3f014d09e2a784ce9e5cd1a", seconds (30 * 24 * 3600), 0,
    none, 0, none, none⟩], by decide⟩
  write := ⟨[⟨1, 7, "0f007385b6f9d4b7eeb2748605afe1a984a0a3bfa3f014d09e2a784ce9e5cd1a", seconds (30 * 24 * 3600), 0,
    none, 0, none, none⟩], by decide⟩
  fresh := some freshToken
  commit := .acked

/-- A handler that answers through the writer. -/
def plainHandler : Handler := fun _ _ => ⟨.response 200 [], false⟩

def request (method : Method) : Request := ⟨method, "", some oldToken, false, false, true⟩

theorem dueEnv_rotates : (validateSession dueEnv oldToken).rotated = some freshToken := by decide +kernel

theorem page_delivered :
    SetsTo (serve .web (validateSession dueEnv) plainHandler (request .get)).cookies freshToken := by
  refine (rotation_delivered_iff (by decide) dueEnv_rotates).mpr (.inr ?_) (by decide +kernel)
  obtain ⟨-, ⟨-, s, hsession, -⟩ | ⟨hcommit, -⟩⟩ := validateSession_rotated dueEnv_rotates
  · unfold Delivers
    rw [hsession]
    exact ⟨rfl, .inl rfl⟩
  · cases hcommit

/-- An API call by cookie without a proof of origin is refused, and the rotated token with it. -/
theorem refusedPost_not_delivered :
    validatedCookie (.api fun _ => none) (request .post) = some oldToken ∧
      (validateSession dueEnv oldToken).rotated = some freshToken ∧
      (serve (.api fun _ => none) (validateSession dueEnv) plainHandler (request .post)).loggedOut = false ∧
      ¬ SetsTo (serve (.api fun _ => none) (validateSession dueEnv) plainHandler (request .post)).cookies freshToken := by
  refine ⟨by decide, dueEnv_rotates, by decide +kernel, ?_⟩
  have hcookies : (serve (.api fun _ => none) (validateSession dueEnv) plainHandler (request .post)).cookies = [] := by
    decide +kernel
  rw [hcookies]
  exact nofun

end ThesadaApp.SessionCookie
