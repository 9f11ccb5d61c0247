import ThesadaApp.Basic
import ThesadaApp.KeyedTable

/-!
The browser sessions: a row holds the hash of the token in the cookie and, for a while after a rotation,
that of the token before it. Validating a cookie rotates the token when it is due.
-/

namespace ThesadaApp

/-- A row of `user_sessions`. -/
structure UserSession where
  id : UUID
  userID : UUID
  tokenHash : String
  expiresAt : Time
  lastSeenAt : Time
  impersonatedTenantID : Option Slug
  rotatedAt : Time
  previousTokenHash : Option String
  previousTokenHashExpiresAt : Option Time
  deriving DecidableEq

abbrev SessionTable := KeyedTable UserSession.id

/-- A token of `randomToken`: the encoding of 32 bytes. -/
structure RawToken where
  val : String
  ne_empty : val ≠ ""
  deriving DecidableEq

/-- Thirty-two equal bytes. -/
def freshToken : RawToken := ⟨"AQEBAQEBAQEBAQEBAQEBAQEBAQEBAQEBAQEBAQEBAQE", by decide⟩

inductive AuthError where
  | notFound
  | expired
  | internal
  deriving DecidableEq, Repr

/-- A resolved session. `newToken` is empty unless this request rotated it. -/
structure Session where
  id : UUID
  userID : UUID
  impersonatedTenantID : Option Slug
  newToken : String
  newExpires : Option Time
  deriving DecidableEq

def sessionRotationInterval : Time := seconds (4 * 3600)

def sessionRotationGrace : Time := seconds 60

/-- How a transaction ends: committed and answered, rolled back, or committed with the answer lost. -/
inductive Commit where
  | acked
  | refused
  | unacked
  deriving DecidableEq, Repr

/-- What one call of `ValidateSession` meets: the hash, the clocks, the sessions as its SELECT and as its
UPDATE see them, the random token if there is one, and how the transaction ends. -/
structure ValidateEnv where
  sha256 : String → String
  clock : Clock
  read : SessionTable
  write : SessionTable
  fresh : Option RawToken
  commit : Commit

/-- What the call leaves and returns; `rotated` is the token of a rotation that is in the database. -/
structure Validation where
  sessions : SessionTable
  rotated : Option RawToken
  session : Except AuthError Session

/-- The row a token resolves to, by its current hash or by the previous one while that lasts. -/
def lookupSession (env : ValidateEnv) (token : String) : Option UserSession :=
  env.read.rows.find? fun s => s.tokenHash = env.sha256 token ||
    (s.previousTokenHash = some (env.sha256 token) && s.previousTokenHashExpiresAt.any fun t => env.clock.db < t)

def rotateRow (env : ValidateEnv) (hash : String) (fresh : RawToken) (s : UserSession) : UserSession :=
  { s with
    tokenHash := env.sha256 fresh.val
    previousTokenHash := some hash
    previousTokenHashExpiresAt := some (env.clock.db + sessionRotationGrace)
    rotatedAt := env.clock.db
    lastSeenAt := env.clock.db }

theorem rotateRow_id (env : ValidateEnv) (hash : String) (fresh : RawToken) (s : UserSession) :
    (rotateRow env hash fresh s).id = s.id := rfl

/-- `rotateSession`: the swap, unless another request has swapped first; `none` is a failure. -/
def rotateSession (env : ValidateEnv) (id : UUID) (hash : String) : Option (SessionTable × Option RawToken) :=
  match env.fresh with
  | none => none
  | some fresh =>
      if env.write.rows.any fun s => s.id = id && s.tokenHash = hash then
        some (env.write.updateWhere (fun s => s.id = id && s.tokenHash = hash) (rotateRow env hash fresh)
          (rotateRow_id env hash fresh), some fresh)
      else some (env.write, none)

def touchRow (env : ValidateEnv) (s : UserSession) : UserSession := { s with lastSeenAt := env.clock.db }

theorem touchRow_id (env : ValidateEnv) (s : UserSession) : (touchRow env s).id = s.id := rfl

/-- End the transaction of a validation. -/
def closeValidation (env : ValidateEnv) (sessions : SessionTable) (rotated : Option RawToken) (session : Session) :
    Validation :=
  match env.commit with
  | .acked => ⟨sessions, rotated, .ok session⟩
  | .unacked => ⟨sessions, rotated, .error .internal⟩
  | .refused => ⟨env.write, none, .error .internal⟩

/-- `ValidateSession`. -/
def validateSession (env : ValidateEnv) (token : String) : Validation :=
  match lookupSession env token with
  | none => ⟨env.write, none, .error .notFound⟩
  | some s =>
      if s.expiresAt < env.clock.app then ⟨env.write, none, .error .expired⟩
      else
        let session : Session := ⟨s.id, s.userID, s.impersonatedTenantID, "", none⟩
        let touched := env.write.updateWhere (fun r => r.id = s.id) (touchRow env) (touchRow_id env)
        if s.tokenHash = env.sha256 token ∧ sessionRotationInterval ≤ env.clock.app - s.rotatedAt then
          match rotateSession env s.id (env.sha256 token) with
          | none => ⟨env.write, none, .error .internal⟩
          | some (rotatedSessions, some fresh) =>
              closeValidation env rotatedSessions (some fresh)
                { session with newToken := fresh.val, newExpires := some s.expiresAt }
          | some (_, none) => closeValidation env touched none session
        else closeValidation env touched none session

section specs

variable {env : ValidateEnv} {token : String} {tok : RawToken}

/-- A refused commit leaves the table it began with; any other keeps what the transaction wrote, and the caller
is answered exactly if the commit was. -/
theorem closeValidation_cases (env : ValidateEnv) (sessions : SessionTable) (rotated : Option RawToken)
    (session : Session) :
    ((closeValidation env sessions rotated session).rotated = none ∧
      (closeValidation env sessions rotated session).sessions = env.write) ∨
    ((closeValidation env sessions rotated session).rotated = rotated ∧
      (closeValidation env sessions rotated session).sessions = sessions ∧
      ((env.commit = .acked ∧ (closeValidation env sessions rotated session).session = .ok session) ∨
        (env.commit = .unacked ∧ (closeValidation env sessions rotated session).session = .error .internal))) := by
  unfold closeValidation
  split
  · next hacked => exact .inr ⟨rfl, rfl, .inl ⟨hacked, rfl⟩⟩
  · next hunacked => exact .inr ⟨rfl, rfl, .inr ⟨hunacked, rfl⟩⟩
  · exact .inl ⟨rfl, rfl⟩

/-- The swap that won: the row still had the presented hash. -/
theorem rotateSession_spec {id : UUID} {hash : String} {sessions : SessionTable}
    (h : rotateSession env id hash = some (sessions, some tok)) :
    env.fresh = some tok ∧ (∃ old ∈ env.write, old.id = id ∧ old.tokenHash = hash) ∧
      sessions = env.write.updateWhere (fun s => s.id = id && s.tokenHash = hash) (rotateRow env hash tok)
        (rotateRow_id env hash tok) := by
  unfold rotateSession at h
  split at h
  · cases h
  · next fresh hfresh =>
      split at h
      · next hwon =>
          obtain ⟨rfl, htok⟩ := Prod.mk.inj (Option.some.inj h)
          obtain rfl := Option.some.inj htok
          obtain ⟨old, hold, hmatch⟩ := List.any_eq_true.mp hwon
          have hboth : old.id = id ∧ old.tokenHash = hash := by simpa using hmatch
          exact ⟨hfresh, ⟨old, hold, hboth⟩, rfl⟩
      · cases h

/-- The token is the row's current one, or the one before it and still in its grace. -/
def UserSession.Matches (s : UserSession) (hash : String) (now : Time) : Prop :=
  s.tokenHash = hash ∨
    s.previousTokenHash = some hash ∧ ∃ expires, s.previousTokenHashExpiresAt = some expires ∧ now < expires

theorem matches_iff {s : UserSession} {hash : String} {now : Time} : s.Matches hash now ↔
    (s.tokenHash = hash || (s.previousTokenHash = some hash && s.previousTokenHashExpiresAt.any fun t => now < t)) =
      true := by
  constructor
  · rintro (hcurrent | ⟨hprevious, expires, hexpires, hnow⟩)
    · simp [hcurrent]
    · simp [hprevious, hexpires, hnow]
  · intro h
    simp only [Bool.or_eq_true, Bool.and_eq_true, decide_eq_true_eq, Option.any_eq_true] at h
    rcases h with hcurrent | ⟨hprevious, expires, hexpires, hnow⟩
    · exact .inl hcurrent
    · exact .inr ⟨hprevious, expires, hexpires, by simpa using hnow⟩

theorem lookupSession_eq_some {s : UserSession} (h : lookupSession env token = some s) :
    s ∈ env.read ∧ s.Matches (env.sha256 token) env.clock.db :=
  ⟨List.mem_of_find?_eq_some h, matches_iff.mpr (by simpa using List.find?_some h)⟩

theorem lookupSession_isSome (env : ValidateEnv) {s : UserSession} (hs : s ∈ env.read)
    (hmatches : s.Matches (env.sha256 token) env.clock.db) : ∃ r, lookupSession env token = some r := by
  rw [← Option.isSome_iff_exists, lookupSession, List.find?_isSome]
  exact ⟨s, hs, matches_iff.mp hmatches⟩

/-- A session that is answered is that of the row looked up, which has not expired. -/
theorem validateSession_ok {session : Session} (h : (validateSession env token).session = .ok session) :
    ∃ s, lookupSession env token = some s ∧ ¬ s.expiresAt < env.clock.app ∧
      session.id = s.id ∧ session.userID = s.userID := by
  have hclose : ∀ {sessions rotated s}, (closeValidation env sessions rotated s).session = .ok session →
      s = session := by
    intro sessions rotated s hs
    unfold closeValidation at hs
    split at hs <;> cases hs
    rfl
  unfold validateSession at h
  split at h
  · cases h
  · next s hs =>
      split at h
      · cases h
      · next hlive =>
          refine ⟨s, hs, hlive, ?_⟩
          dsimp only at h
          split at h
          · split at h
            · cases h
            · obtain rfl := hclose h
              exact ⟨rfl, rfl⟩
            · obtain rfl := hclose h
              exact ⟨rfl, rfl⟩
          · obtain rfl := hclose h
            exact ⟨rfl, rfl⟩

/-- What a validation leaves: the sessions as they were or one of them touched, or a rotation of the looked-up
row from the presented token, which the row still had. A rotation is answered exactly if its commit was. -/
theorem validateSession_cases (env : ValidateEnv) (token : String) :
    ((validateSession env token).rotated = none ∧
      ∀ r ∈ (validateSession env token).sessions, ∃ old ∈ env.write, r = old ∨ r = touchRow env old) ∨
    ∃ s tok, lookupSession env token = some s ∧ ¬ s.expiresAt < env.clock.app ∧ env.fresh = some tok ∧
      (validateSession env token).rotated = some tok ∧
      (∃ old ∈ env.write, old.id = s.id ∧ old.tokenHash = env.sha256 token) ∧
      (validateSession env token).sessions =
        env.write.updateWhere (fun r => r.id = s.id && r.tokenHash = env.sha256 token)
          (rotateRow env (env.sha256 token) tok) (rotateRow_id env (env.sha256 token) tok) ∧
      ((env.commit = .acked ∧ ∃ session, (validateSession env token).session = .ok session ∧
          session.newToken = tok.val) ∨
        (env.commit = .unacked ∧ (validateSession env token).session = .error .internal)) := by
  have hkeep : ∀ r ∈ env.write, ∃ old ∈ env.write, r = old ∨ r = touchRow env old := fun r hr => ⟨r, hr, .inl rfl⟩
  have htouched : ∀ (p : UserSession → Bool) (session : Session),
      (closeValidation env (env.write.updateWhere p (touchRow env) (touchRow_id env)) none session).rotated = none ∧
      ∀ r ∈ (closeValidation env (env.write.updateWhere p (touchRow env) (touchRow_id env)) none session).sessions,
        ∃ old ∈ env.write, r = old ∨ r = touchRow env old := by
    intro p session
    rcases closeValidation_cases env (env.write.updateWhere p (touchRow env) (touchRow_id env)) none session with
      ⟨hnone, hsessions⟩ | ⟨hnone, hsessions, -⟩
    · refine ⟨hnone, ?_⟩
      rw [hsessions]
      exact hkeep
    · refine ⟨hnone, fun r hr => ?_⟩
      rw [hsessions] at hr
      obtain ⟨old, hold, rfl⟩ := (KeyedTable.mem_updateWhere _).mp hr
      split
      · exact ⟨old, hold, .inr rfl⟩
      · exact ⟨old, hold, .inl rfl⟩
  unfold validateSession
  split
  · exact .inl ⟨rfl, hkeep⟩
  · next s hs =>
      split
      · exact .inl ⟨rfl, hkeep⟩
      · next hlive =>
          dsimp only
          split
          · split
            · exact .inl ⟨rfl, hkeep⟩
            · next sessions tok hrotate =>
                obtain ⟨hfresh, hwon, rfl⟩ := rotateSession_spec hrotate
                rcases closeValidation_cases env _ (some tok)
                    ⟨s.id, s.userID, s.impersonatedTenantID, tok.val, some s.expiresAt⟩ with
                  ⟨hnone, hsessions⟩ | ⟨hrotated, hsessions, hreturned⟩
                · refine .inl ⟨hnone, ?_⟩
                  rw [hsessions]
                  exact hkeep
                · exact .inr ⟨s, tok, hs, hlive, hfresh, hrotated, hwon, hsessions,
                    hreturned.imp_left fun hacked => ⟨hacked.1, _, hacked.2, rfl⟩⟩
            · exact .inl (htouched _ _)
          · exact .inl (htouched _ _)

/-- A rotation that is in the database has swapped the hash of the presented token for that of the new one,
and the caller is handed the new token exactly if the commit was answered. -/
theorem validateSession_rotated (h : (validateSession env token).rotated = some tok) :
    (∃ s ∈ env.write, s.tokenHash = env.sha256 token ∧
      rotateRow env (env.sha256 token) tok s ∈ (validateSession env token).sessions) ∧
      ((env.commit = .acked ∧ ∃ session, (validateSession env token).session = .ok session ∧
          session.newToken = tok.val) ∨
        (env.commit = .unacked ∧ (validateSession env token).session = .error .internal)) := by
  rcases validateSession_cases env token with
    ⟨hnone, -⟩ | ⟨s, fresh, -, -, -, hrotated, ⟨old, hold, hid, hhash⟩, hsessions, hreturned⟩
  · rw [hnone] at h
    cases h
  · obtain rfl := Option.some.inj (hrotated.symm.trans h)
    refine ⟨⟨old, hold, hhash, ?_⟩, hreturned⟩
    rw [hsessions]
    exact (KeyedTable.mem_updateWhere _).mpr ⟨old, hold, if_pos (by simp [hid, hhash])⟩

end specs

end ThesadaApp
