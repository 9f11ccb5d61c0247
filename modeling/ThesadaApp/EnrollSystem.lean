import ThesadaApp.EnrollLifecycle

/-!
The enrollment service under its requests. A verify request is the burn, then the judgement of the
signature and the guarded update; a claim request is the lookup of the submitted code, then the claim of
the row it found, on the web form and on the JSON surface alike. Requests interleave at their
transactions with each other and with the calls that deliver, reset, prune and sweep rows.
-/

namespace ThesadaApp.Enroll

/-- White space as `strings.TrimSpace` cuts it. -/
def isSpace (c : Char) : Bool :=
  c ∈ ['\t', '\n', '\x0b', '\x0c', '\r', ' ', '\u0085', '\u00a0', '\u1680', '\u2028', '\u2029', '\u202f',
    '\u205f', '\u3000'] || ('\u2000' ≤ c && c ≤ '\u200a')

def trimSpace (s : String) : String :=
  String.ofList ((((s.toList.dropWhile isSpace).reverse).dropWhile isSpace).reverse)

/-- The surface a claim arrives on. -/
inductive Surface where
  | form
  | json
  deriving DecidableEq, Repr

/-- A claim as submitted: the signed-in user, the session's effective tenant, the two fields, and
whether the user's limiter has room. -/
structure ClaimSubmit where
  surface : Surface
  user : Option UUID
  tenantID : Option Slug
  deviceID : String
  claimToken : String
  allowed : Bool

/-- The refusal of a claim: the form re-renders with 400, the JSON surface has a code for each. -/
def claimRefusal (surface : Surface) (jsonCode : Nat) (text : String) : HttpError :=
  ⟨match surface with | .form => 400 | .json => jsonCode, text⟩

/-- The answer to a claim lookup that found no row to claim. -/
def findRefusal (surface : Surface) : EnrollError → HttpError
  | .claimLocked => claimRefusal surface 400
      "too many wrong codes for that device. Restart the unit that finished announcing first, then retry"
  | .ambiguous => claimRefusal surface 400
      ("more than one device is waiting with that id and code, so this claim was not made. " ++
        "Ask an operator to clear the duplicates")
  | _ => claimRefusal surface 400 "no device is waiting with that id and token"

def notAnnounced (surface : Surface) : HttpError :=
  claimRefusal surface 400 "device has not finished announcing itself yet, try again shortly"

/-- The answer to a failed `ClaimInto`. -/
def claimIntoRefusal (surface : Surface) : EnrollError → HttpError
  | .quotaDevices => claimRefusal surface 409 "this tenant is at its device cap"
  | .notReady => claimRefusal surface 409 "that device has already been claimed"
  | .brokerIdentityTaken => claimRefusal surface 409 "that device is still registered to another tenant"
  | _ => claimRefusal surface 500 "claim failed"

/-- The checks of a claim handler before the lookup: the user, the tenant, and the two trimmed fields. -/
def ClaimSubmit.check (r : ClaimSubmit) : Except HttpError (UUID × Slug × String × String) :=
  match r.user with
  | none => .error ⟨302, "/login"⟩
  | some user =>
      match r.tenantID with
      | none => .error (claimRefusal r.surface 400 "no tenant on this session")
      | some tenantID =>
          let deviceID := trimSpace r.deviceID
          let claimToken := trimSpace r.claimToken
          if deviceID = "" ∨ claimToken = "" then
            .error (claimRefusal r.surface 400 "device id and claim token are both required")
          else if r.allowed = false then
            .error (claimRefusal r.surface 429 "too many claim attempts, try again later")
          else .ok (user, tenantID, deviceID, claimToken)

/-- A verify request between its two transactions. -/
structure VerifyRequest where
  deviceID : String
  pubkeyHex : String
  sig : List UInt8
  burned : Burned
  finished : Bool
  deriving DecidableEq

def VerifyRequest.key (v : VerifyRequest) : EnrollKey := (v.deviceID, v.pubkeyHex)

/-- A claim request between its two transactions. `rowKept` records, for the statements only, that the
row found has not been deleted since. -/
structure ClaimRequest where
  surface : Surface
  claimToken : String
  call : ClaimCall
  rowKept : Bool
  finished : Bool
  deriving DecidableEq

structure System where
  db : Db
  verifies : List VerifyRequest
  claims : List ClaimRequest

def System.initial (db : Db) : System := ⟨db, [], []⟩

/-- The tables after a transaction. -/
def System.withDb (s : System) (db : Db) : System :=
  { s with
    db
    claims := s.claims.map fun r => { r with rowKept := r.rowKept && (db.enrollments.find r.call.key).isSome } }

def System.addVerify (s : System) (v : VerifyRequest) : System := { s with verifies := s.verifies ++ [v] }

def System.finishVerify (s : System) (i : Nat) (v : VerifyRequest) : System :=
  { s with verifies := s.verifies.set i { v with finished := true } }

def System.finishClaim (s : System) (i : Nat) (r : ClaimRequest) : System :=
  { s with claims := s.claims.set i { r with finished := true } }

/-- The request that goes on to claim the row found. -/
def claimRequest (topicRoot : String) (surface : Surface) (user : UUID) (tenantID : Slug)
    (deviceID claimToken : String) (e : Enrollment) : ClaimRequest where
  surface
  claimToken
  call := ⟨deviceID, e.pubkeyHex, tenantID, user, deviceTopicPrefix topicRoot tenantID.val deviceID⟩
  rowKept := true
  finished := false

def System.addClaim (s : System) (r : ClaimRequest) : System := { s with claims := s.claims ++ [r] }

inductive Action where
  /-- An announce, made by the holder of the private key or by anyone else. -/
  | announce (clock : Clock) (nonce : String) (raced : Bool) (a : AnnounceCall) (byHolder : Bool)
  /-- The holder of a key signs a challenge. -/
  | sign (key : EnrollKey) (nonce : String)
  | verify (clock : Clock) (deviceID pubkeyHex : String) (sig : List UInt8)
  /-- A verify request judges its signature and runs its second transaction. -/
  | mark (clock : Clock) (request : Nat)
  | submit (r : ClaimSubmit)
  /-- A claim request runs `ClaimInto` on the row it found. -/
  | bind (clock : Clock) (fresh : UUID) (request : Nat)
  | markDelivered (clock : Clock) (deviceID pubkeyHex claimToken : String)
  | reset (deviceID : String) (tenantID : Slug)
  | resetForTenant (deviceID : String) (tenantID : Slug)
  | prune (clock : Clock)
  | sweepOrphanClaims
  | others (devices : DeviceTable) (certificates : List DeviceCertificate) (tenants : List Slug)

inductive Event where
  /-- `owned`: the announce carried the token stored on its own row. -/
  | announced (key : EnrollKey) (claimToken nonce : String) (byHolder owned : Bool)
  | signed (key : EnrollKey) (nonce : String)
  | burned (key : EnrollKey) (challenge : String)
  | verified (key : EnrollKey)
  /-- The lookup of a claim; `reply` is the answer unless the request goes on to its claim. -/
  | judged (deviceID claimToken : String) (j : Judgement) (reply : Option HttpError)
  | claimed (key : EnrollKey) (devicePk : UUID)
  | answered (e : HttpError)
  | refused (e : EnrollError)
  | ran
  deriving DecidableEq

variable (cfg : EnrollConfig) (topicRoot : String)

/-- The announce carries the token stored on its own row. -/
def owned (db : Db) (a : AnnounceCall) : Bool :=
  match db.enrollments.find a.key with
  | none => false
  | some e => accepts cfg a.claimToken e.claimTokenHash

/-- Commit a transaction of a single-transaction call, or answer its error. -/
def System.commit (s : System) : Except EnrollError Db → System × Event
  | .error e => (s, .refused e)
  | .ok db => (s.withDb db, .ran)

def step (s : System) : Action → Option (System × Event)
  | .announce clock nonce raced a byHolder =>
      match announce cfg s.db clock nonce raced a with
      | .error e => some (s, .refused e)
      | .ok db => some (s.withDb db, .announced a.key a.claimToken nonce byHolder (owned cfg s.db a))
  | .sign key nonce => some (s, .signed key nonce)
  | .verify clock d k sig =>
      match verifyBurn s.db clock d k with
      | .error e => some (s, .refused e)
      | .ok (db, b) =>
          some ((s.withDb db).addVerify ⟨d, k, sig, b, false⟩, .burned (d, k) b.challenge)
  | .mark clock i =>
      match s.verifies[i]? with
      | none => none
      | some v =>
          if v.finished then none
          else
            let s' := s.finishVerify i v
            match verifyDeviceProof cfg.crypto v.deviceID v.pubkeyHex v.burned.challenge v.sig with
            | .error _ => some (s', .refused .badProof)
            | .ok () =>
                match verifyMark s.db clock v.deviceID v.pubkeyHex v.burned.tokenHash with
                | .error e => some (s', .refused e)
                | .ok db => some (s'.withDb db, .verified v.key)
  | .submit r =>
      match r.check with
      | .error e => some (s, .answered e)
      | .ok (user, tenantID, deviceID, claimToken) =>
          match findForClaim cfg s.db deviceID claimToken with
          | (db, .error e) =>
              some (s.withDb db, if validDeviceID deviceID then
                .judged deviceID claimToken (judgeClaim cfg (candidates s.db deviceID) claimToken)
                  (some (findRefusal r.surface e))
                else .answered (findRefusal r.surface e))
          | (db, .ok e) =>
              if e.verifiedAt.isNone then
                some (s.withDb db, .judged deviceID claimToken (.found e) (some (notAnnounced r.surface)))
              else
                some ((s.withDb db).addClaim (claimRequest topicRoot r.surface user tenantID deviceID claimToken e),
                  .judged deviceID claimToken (.found e) none)
  | .bind clock fresh i =>
      match s.claims[i]? with
      | none => none
      | some r =>
          if r.finished then none
          else
            let s' := s.finishClaim i r
            match claimInto cfg s.db clock fresh r.call with
            | .error e => some (s', .answered (claimIntoRefusal r.surface e))
            | .ok (db, pk) => some (s'.withDb db, .claimed r.call.key pk)
  | .markDelivered clock d k token => some (s.commit ((markDelivered cfg s.db clock d k token).map Prod.fst))
  | .reset d t => some (s.commit (.ok (reset cfg s.db d t)))
  | .resetForTenant d t => some (s.commit (resetForTenant s.db d t))
  | .prune clock => some (s.commit (.ok (prune s.db clock)))
  | .sweepOrphanClaims => some (s.commit (sweepOrphanClaims cfg s.db))
  | .others devices certificates tenants => some (s.commit (.ok (others s.db devices certificates tenants)))

def system : Machine System Action Event where
  step := step cfg topicRoot

/-- The transaction of an action that is one transaction of the service and nothing else. -/
def Action.plainTx : Action → Option Tx
  | .markDelivered clock d k token => some (.markDelivered clock d k token)
  | .reset d t => some (.reset d t)
  | .resetForTenant d t => some (.resetForTenant d t)
  | .prune clock => some (.prune clock)
  | .sweepOrphanClaims => some .sweepOrphanClaims
  | .others devices certificates tenants => some (.others devices certificates tenants)
  | _ => none

/-- What a step can do. -/
inductive Effect (s : System) (a : Action) : System → Event → Prop
  | answered (e : HttpError) : Effect s a s (.answered e)
  | refused (e : EnrollError) : Effect s a s (.refused e)
  | announced (clock : Clock) (nonce : String) (raced : Bool) (c : AnnounceCall) (byHolder : Bool) (db : Db)
      (ha : a = .announce clock nonce raced c byHolder) (hdb : announce cfg s.db clock nonce raced c = .ok db) :
      Effect s a (s.withDb db) (.announced c.key c.claimToken nonce byHolder (owned cfg s.db c))
  | signed (key : EnrollKey) (nonce : String) (ha : a = .sign key nonce) : Effect s a s (.signed key nonce)
  | burned (clock : Clock) (d k : String) (sig : List UInt8) (db : Db) (b : Burned)
      (ha : a = .verify clock d k sig) (hdb : verifyBurn s.db clock d k = .ok (db, b)) :
      Effect s a ((s.withDb db).addVerify ⟨d, k, sig, b, false⟩) (.burned (d, k) b.challenge)
  | unproved (clock : Clock) (i : Nat) (v : VerifyRequest) (e : EnrollError) (ha : a = .mark clock i)
      (hv : s.verifies[i]? = some v) : Effect s a (s.finishVerify i v) (.refused e)
  | marked (clock : Clock) (i : Nat) (v : VerifyRequest) (db : Db) (ha : a = .mark clock i)
      (hv : s.verifies[i]? = some v) (hopen : v.finished = false)
      (hproof : verifyDeviceProof cfg.crypto v.deviceID v.pubkeyHex v.burned.challenge v.sig = .ok ())
      (hdb : verifyMark s.db clock v.deviceID v.pubkeyHex v.burned.tokenHash = .ok db) :
      Effect s a ((s.finishVerify i v).withDb db) (.verified v.key)
  | notShaped (r : ClaimSubmit) (e : EnrollError) : Effect s a (s.withDb s.db) (.answered (findRefusal r.surface e))
  | judged (r : ClaimSubmit) (d token : String) (reply : Option HttpError) (ha : a = .submit r)
      (hvalid : validDeviceID d = true) (htoken : token ≠ "") :
      Effect s a (s.withDb (findForClaim cfg s.db d token).1)
        (.judged d token (judgeClaim cfg (candidates s.db d) token) reply)
  | claiming (r : ClaimSubmit) (user : UUID) (tenantID : Slug) (d token : String) (e : Enrollment)
      (ha : a = .submit r) (hvalid : validDeviceID d = true) (htoken : token ≠ "")
      (hfound : judgeClaim cfg (candidates s.db d) token = .found e) (hverified : e.verifiedAt ≠ none) :
      Effect s a ((s.withDb s.db).addClaim (claimRequest topicRoot r.surface user tenantID d token e))
        (.judged d token (.found e) none)
  | unbound (clock : Clock) (fresh : UUID) (i : Nat) (r : ClaimRequest) (e : EnrollError)
      (ha : a = .bind clock fresh i) (hr : s.claims[i]? = some r) :
      Effect s a (s.finishClaim i r) (.answered (claimIntoRefusal r.surface e))
  | bound (clock : Clock) (fresh : UUID) (i : Nat) (r : ClaimRequest) (db : Db) (pk : UUID)
      (ha : a = .bind clock fresh i) (hr : s.claims[i]? = some r) (hopen : r.finished = false)
      (hdb : claimInto cfg s.db clock fresh r.call = .ok (db, pk)) :
      Effect s a ((s.finishClaim i r).withDb db) (.claimed r.call.key pk)
  | ran (t : Tx) (ha : a.plainTx = some t) : Effect s a (s.withDb (t.run cfg s.db).1) .ran

theorem findForClaim_eq (db : Db) {d token : String} (hvalid : validDeviceID d = true) (htoken : token ≠ "") :
    findForClaim cfg db d token =
      match judgeClaim cfg (candidates db d) token with
      | .unknown => (db, .error .notFound)
      | .locked => (db, .error .claimLocked)
      | .wrong => (bumpFailures db d, .error (if claimFailuresExhausted
          (worstFailures (candidates (bumpFailures db d) d)) then .claimLocked else .notFound))
      | .found e => (db, .ok e)
      | .ambiguous => (db, .error .ambiguous) := by
  unfold findForClaim
  exact if_neg (by simp [hvalid, htoken])

variable {cfg topicRoot}

theorem commit_effect {s : System} {a : Action} {t : Tx} {r : Except EnrollError Db} (ha : a.plainTx = some t)
    (hrun : ∀ db, r = .ok db → (t.run cfg s.db).1 = db) :
    Effect cfg topicRoot s a (s.commit r).1 (s.commit r).2 := by
  cases r with
  | error e => exact .refused e
  | ok db =>
      have heff : Effect cfg topicRoot s a (s.withDb (t.run cfg s.db).1) .ran := .ran t ha
      rw [hrun db rfl] at heff
      exact heff

theorem ClaimSubmit.token_ne_empty {r : ClaimSubmit} {user : UUID} {tenantID : Slug} {d token : String}
    (hcheck : r.check = .ok (user, tenantID, d, token)) : token ≠ "" := by
  unfold check at hcheck
  split at hcheck
  · cases hcheck
  split at hcheck
  · cases hcheck
  dsimp only at hcheck
  split at hcheck
  · cases hcheck
  · next hfields =>
      split at hcheck
      · cases hcheck
      · obtain ⟨-, -, -, rfl⟩ := by simpa using Except.ok.inj hcheck
        exact fun hempty => hfields (.inr hempty)

theorem submit_effect {s s' : System} {r : ClaimSubmit} {e : Event}
    (hstep : step cfg topicRoot s (.submit r) = some (s', e)) : Effect cfg topicRoot s (.submit r) s' e := by
  simp only [step] at hstep
  split at hstep
  · obtain ⟨rfl, rfl⟩ := Prod.mk.inj (Option.some.inj hstep)
    exact .answered _
  · next user tenantID d token hcheck =>
      have htoken := ClaimSubmit.token_ne_empty hcheck
      cases hvalid : validDeviceID d with
      | false =>
          have hfind : findForClaim cfg s.db d token = (s.db, .error .notFound) := by
            rw [findForClaim, if_pos (.inl hvalid)]
          simp only [hfind, hvalid, Bool.false_eq_true, if_false] at hstep
          obtain ⟨rfl, rfl⟩ := Prod.mk.inj (Option.some.inj hstep)
          exact .notShaped r _
      | true =>
          have hfind := findForClaim_eq cfg s.db hvalid htoken
          have heff : ∀ reply, Effect cfg topicRoot s (.submit r) (s.withDb (findForClaim cfg s.db d token).1)
              (.judged d token (judgeClaim cfg (candidates s.db d) token) reply) :=
            fun reply => .judged r d token reply rfl hvalid htoken
          cases hjudge : judgeClaim cfg (candidates s.db d) token with
          | unknown | locked | ambiguous | wrong =>
              rw [hjudge] at hfind heff
              simp only [hfind, hvalid, if_true] at hstep heff
              rw [hjudge] at hstep
              obtain ⟨rfl, rfl⟩ := Prod.mk.inj (Option.some.inj hstep)
              exact heff _
          | found e =>
              rw [hjudge] at hfind heff
              simp only [hfind] at hstep heff
              split at hstep
              · obtain ⟨rfl, rfl⟩ := Prod.mk.inj (Option.some.inj hstep)
                exact heff _
              · next hverified =>
                  obtain ⟨rfl, rfl⟩ := Prod.mk.inj (Option.some.inj hstep)
                  exact .claiming r user tenantID d token e rfl hvalid htoken hjudge (by simpa using hverified)

theorem step_effect {s s' : System} {a : Action} {e : Event} (hstep : step cfg topicRoot s a = some (s', e)) :
    Effect cfg topicRoot s a s' e := by
  cases a with
  | announce clock nonce raced c byHolder =>
      simp only [step] at hstep
      split at hstep
      · obtain ⟨rfl, rfl⟩ := Prod.mk.inj (Option.some.inj hstep)
        exact .refused _
      · next db hdb =>
          obtain ⟨rfl, rfl⟩ := Prod.mk.inj (Option.some.inj hstep)
          exact .announced clock nonce raced c byHolder db rfl hdb
  | sign key nonce =>
      obtain ⟨rfl, rfl⟩ := Prod.mk.inj (Option.some.inj hstep)
      exact .signed key nonce rfl
  | verify clock d k sig =>
      simp only [step] at hstep
      split at hstep
      · obtain ⟨rfl, rfl⟩ := Prod.mk.inj (Option.some.inj hstep)
        exact .refused _
      · next db b hdb =>
          obtain ⟨rfl, rfl⟩ := Prod.mk.inj (Option.some.inj hstep)
          exact .burned clock d k sig db b rfl hdb
  | mark clock i =>
      simp only [step] at hstep
      split at hstep
      · cases hstep
      · next v hv =>
          split at hstep
          · cases hstep
          · next hopen =>
              split at hstep
              · obtain ⟨rfl, rfl⟩ := Prod.mk.inj (Option.some.inj hstep)
                exact .unproved clock i v _ rfl hv
              · next hproof =>
                  split at hstep
                  · obtain ⟨rfl, rfl⟩ := Prod.mk.inj (Option.some.inj hstep)
                    exact .unproved clock i v _ rfl hv
                  · next db hdb =>
                      obtain ⟨rfl, rfl⟩ := Prod.mk.inj (Option.some.inj hstep)
                      exact .marked clock i v db rfl hv (by simpa using hopen) hproof hdb
  | submit r => exact submit_effect hstep
  | bind clock fresh i =>
      simp only [step] at hstep
      split at hstep
      · cases hstep
      · next r hr =>
          split at hstep
          · cases hstep
          · next hopen =>
              split at hstep
              · obtain ⟨rfl, rfl⟩ := Prod.mk.inj (Option.some.inj hstep)
                exact .unbound clock fresh i r _ rfl hr
              · next db pk hdb =>
                  obtain ⟨rfl, rfl⟩ := Prod.mk.inj (Option.some.inj hstep)
                  exact .bound clock fresh i r db pk rfl hr (by simpa using hopen) hdb
  | markDelivered clock d k token =>
      obtain ⟨rfl, rfl⟩ := Prod.mk.inj (Option.some.inj hstep)
      refine commit_effect (t := .markDelivered clock d k token) rfl fun db hdb => ?_
      cases hr : markDelivered cfg s.db clock d k token with
      | error e =>
          rw [hr] at hdb
          cases hdb
      | ok r =>
          rw [hr] at hdb
          obtain rfl := Except.ok.inj hdb
          simp [Tx.run, hr, outcome]
  | reset d t =>
      obtain ⟨rfl, rfl⟩ := Prod.mk.inj (Option.some.inj hstep)
      exact commit_effect (t := .reset d t) rfl fun db hdb => Except.ok.inj hdb
  | resetForTenant d t =>
      obtain ⟨rfl, rfl⟩ := Prod.mk.inj (Option.some.inj hstep)
      exact commit_effect (t := .resetForTenant d t) rfl fun db hdb => by simp [Tx.run, hdb, outcome]
  | prune clock =>
      obtain ⟨rfl, rfl⟩ := Prod.mk.inj (Option.some.inj hstep)
      exact commit_effect (t := .prune clock) rfl fun db hdb => Except.ok.inj hdb
  | sweepOrphanClaims =>
      obtain ⟨rfl, rfl⟩ := Prod.mk.inj (Option.some.inj hstep)
      exact commit_effect (t := .sweepOrphanClaims) rfl fun db hdb => by simp [Tx.run, hdb, outcome]
  | others devices certificates tenants =>
      obtain ⟨rfl, rfl⟩ := Prod.mk.inj (Option.some.inj hstep)
      exact commit_effect (t := .others devices certificates tenants) rfl fun db hdb => Except.ok.inj hdb

/-- The transaction an action runs when it runs one. -/
def Action.Runs (s : System) (a : Action) (t : Tx) : Prop :=
  match a with
  | .announce clock nonce raced c _ => t = .announce clock nonce raced c
  | .verify clock d k _ => t = .verifyBurn clock d k
  | .mark clock i => ∃ v, s.verifies[i]? = some v ∧
      t = .verifyMark clock v.deviceID v.pubkeyHex v.burned.tokenHash
  | .submit _ => ∃ d token, t = .findForClaim d token
  | .bind clock fresh i => ∃ r, s.claims[i]? = some r ∧ t = .claimInto clock fresh r.call
  | a => a.plainTx = some t

theorem Action.runs_of_plainTx {s : System} {a : Action} {t : Tx} (ha : a.plainTx = some t) : a.Runs s t := by
  cases a <;> first | exact ha | cases ha

/-- Every step leaves a row as it is or changes it as its transaction does. -/
theorem Effect.row {s s' : System} {a : Action} {e : Event} (heff : Effect cfg topicRoot s a s' e)
    (k : EnrollKey) : s'.db.enrollments.find k = s.db.enrollments.find k ∨
      ∃ t, a.Runs s t ∧ RowChange cfg t (s.db.enrollments.find k) (s'.db.enrollments.find k) := by
  cases heff with
  | answered | refused | signed | unproved | notShaped | claiming | unbound => exact .inl rfl
  | announced clock nonce raced c byHolder db ha hdb =>
      subst ha
      exact .inr ⟨_, rfl, announce_row hdb k⟩
  | burned clock d k' sig db b ha hdb =>
      subst ha
      exact .inr ⟨_, rfl, verifyBurn_row hdb k⟩
  | marked clock i v db ha hv hopen hproof hdb =>
      subst ha
      exact .inr ⟨_, ⟨v, hv, rfl⟩, verifyMark_row cfg hdb k⟩
  | judged r d token reply ha =>
      subst ha
      exact .inr ⟨_, ⟨d, token, rfl⟩, findForClaim_row cfg d token s.db k⟩
  | bound clock fresh i r db pk ha hr hopen hdb =>
      subst ha
      exact .inr ⟨_, ⟨r, hr, rfl⟩, claimInto_row hdb k⟩
  | ran t ha => exact .inr ⟨t, Action.runs_of_plainTx ha, run_row cfg t s.db k⟩

/-- A row that is verified and survives a step stays verified, with its token hash. -/
theorem Effect.verified_kept {s s' : System} {a : Action} {e : Event} (heff : Effect cfg topicRoot s a s' e)
    {k : EnrollKey} {r r' : Enrollment} (hr : s.db.enrollments.find k = some r)
    (hr' : s'.db.enrollments.find k = some r') (hverified : r.verifiedAt ≠ none) :
    r'.verifiedAt ≠ none ∧ r'.claimTokenHash = r.claimTokenHash := by
  rcases heff.row k with hsame | ⟨t, -, hchange⟩
  · rw [hr, hr'] at hsame
    obtain rfl := Option.some.inj hsame
    exact ⟨hverified, rfl⟩
  · rw [hr, hr'] at hchange
    exact ⟨hchange.verified_kept hverified, hchange.tokenHash hverified⟩

end ThesadaApp.Enroll
