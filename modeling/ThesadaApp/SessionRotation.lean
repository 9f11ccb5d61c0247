import ThesadaApp.SessionCookie
import ThesadaApp.SessionFlow

/-!
The rotation of session tokens over whole runs. Every token hash is given to one session once, a rotation takes
the hash of the row's present token, and that hash is never anyone's present token again. What a row remembers
of its previous token is that rotation and its stamp.
-/

namespace ThesadaApp.SessionFlow

open SessionCookie (dueEnv oldToken)

variable {sha256 : String → String} {log : List Event} {s s' : State} {a : Action} {e : Event}

/-- What everything but a rotation keeps of a row. -/
structure Kept (old r : UserSession) : Prop where
  id : r.id = old.id
  userID : r.userID = old.userID
  expiresAt : r.expiresAt = old.expiresAt
  tokenHash : r.tokenHash = old.tokenHash
  previousTokenHash : r.previousTokenHash = old.previousTokenHash
  previousExpires : r.previousTokenHashExpiresAt = old.previousTokenHashExpiresAt

theorem Kept.refl (r : UserSession) : Kept r r := ⟨rfl, rfl, rfl, rfl, rfl, rfl⟩

/-- What a rotation at a time from one hash to another makes of a row. -/
structure Rotated (hash new : String) (at_ : Time) (old r : UserSession) : Prop where
  id : r.id = old.id
  userID : r.userID = old.userID
  expiresAt : r.expiresAt = old.expiresAt
  tokenHash : r.tokenHash = new
  previousTokenHash : r.previousTokenHash = some hash
  previousExpires : r.previousTokenHashExpiresAt = some (at_ + sessionRotationGrace)

/-- What a step can do to the sessions, with what the event records of it. -/
inductive Effect (sha256 : String → String) (log : List Event) (s s' : State) : Event → Prop
  | create {row : UserSession} (hid : ∀ i ∈ issues sha256 log, i.id ≠ row.id)
      (hhash : ∀ i ∈ issues sha256 log, i.hash ≠ row.tokenHash) (hprevious : row.previousTokenHash = none)
      (hrows : ∀ r ∈ s'.sessions, r ∈ s.sessions ∨ r = row) (hcalls : s'.calls = s.calls) :
      Effect sha256 log s s' (.created row)
  | read {c : Call} (hread : c.read = s.sessions) (hrows : s'.sessions = s.sessions)
      (hcalls : s'.calls = s.calls ++ [c]) : Effect sha256 log s s' (.read c)
  | rotate {c : Call} {v : Validation} {tok : RawToken} {row : UserSession} (hc : c ∈ s.calls)
      (hrotated : v.rotated = some tok) (haccepted : c.accepted sha256 = some row)
      (hfresh : ∀ i ∈ issues sha256 log, i.hash ≠ sha256 tok.val)
      (hwon : ∃ old ∈ s.sessions, old.id = row.id ∧ old.tokenHash = sha256 c.token)
      (hrows : ∀ r ∈ s'.sessions, (r ∈ s.sessions ∧ (r.id = row.id → r.tokenHash ≠ sha256 c.token)) ∨
        ∃ old ∈ s.sessions, old.id = row.id ∧ old.tokenHash = sha256 c.token ∧
          Rotated (sha256 c.token) (sha256 tok.val) c.clock.db old r)
      (hcalls : ∀ c' ∈ s'.calls, c' ∈ s.calls) : Effect sha256 log s s' (.wrote c v)
  | quiet {e : Event} (hcreated : ∀ row, e ≠ .created row) (hread : ∀ c, e ≠ .read c)
      (hwrote : ∀ c v, e = .wrote c v → c ∈ s.calls ∧ v.rotated = none)
      (hrows : ∀ r ∈ s'.sessions, ∃ old ∈ s.sessions, Kept old r) (hcalls : ∀ c' ∈ s'.calls, c' ∈ s.calls) :
      Effect sha256 log s s' e

/-- A step that neither makes a session nor belongs to a validation. -/
theorem Effect.other (hevent : e = .changed ∨ ∃ token, e = .revoked token)
    (hrows : ∀ r ∈ s'.sessions, ∃ old ∈ s.sessions, Kept old r) (hcalls : ∀ c' ∈ s'.calls, c' ∈ s.calls) :
    Effect sha256 log s s' e := by
  rcases hevent with rfl | ⟨token, rfl⟩
  · exact .quiet (fun _ h => by cases h) (fun _ h => by cases h) (fun _ _ h => by cases h) hrows hcalls
  · exact .quiet (fun _ h => by cases h) (fun _ h => by cases h) (fun _ _ h => by cases h) hrows hcalls

theorem accepted_eq_some {c : Call} {row : UserSession} : c.accepted sha256 = some row ↔
    lookupSession (c.env sha256 c.read none .acked) c.token = some row ∧ ¬ row.expiresAt < c.clock.app := by
  simp [Call.accepted, Option.filter_eq_some_iff]

theorem step_effect (hfresh : Fresh sha256 log s a) (h : step sha256 s a = some (s', e)) :
    Effect sha256 log s s' e := by
  cases a with
  | createSession id userID token clock method =>
      simp only [step] at h
      split at h
      · next hfree =>
        split at h
        · cases h
        · obtain ⟨rfl, rfl⟩ := Prod.mk.inj (Option.some.inj h)
          exact .create hfresh.1 hfresh.2 rfl (fun r hr => (KeyedTable.mem_insert hfree).mp hr) rfl
      · cases h
  | validateRead token clock =>
      obtain ⟨rfl, rfl⟩ := Prod.mk.inj (Option.some.inj h)
      exact .read rfl rfl rfl
  | validateWrite n fresh commit =>
      simp only [step] at h
      split at h
      · cases h
      · next c hc =>
          obtain ⟨rfl, rfl⟩ := Prod.mk.inj (Option.some.inj h)
          have hmem : c ∈ s.calls := List.mem_of_getElem? hc
          have hcalls : ∀ c' ∈ s.calls.eraseIdx n, c' ∈ s.calls := fun c' hc' => List.mem_of_mem_eraseIdx hc'
          rcases validateSession_cases (c.env sha256 s.sessions fresh commit) c.token with
            ⟨hnone, hrows⟩ | ⟨row, tok, hlookup, hlive, htok, hrotated, hwon, hsessions, -⟩
          · refine .quiet (fun _ h => by cases h) (fun _ h => by cases h) ?_ ?_ hcalls
            · rintro c' v' hev
              obtain ⟨rfl, rfl⟩ := Event.wrote.inj hev
              exact ⟨hmem, hnone⟩
            · intro r hr
              obtain ⟨old, hold, rfl | rfl⟩ := hrows r hr
              · exact ⟨r, hold, .refl r⟩
              · exact ⟨old, hold, ⟨rfl, rfl, rfl, rfl, rfl, rfl⟩⟩
          · obtain rfl : fresh = some tok := htok
            refine .rotate hmem hrotated (accepted_eq_some.mpr ⟨hlookup, hlive⟩) hfresh hwon ?_ hcalls
            intro r hr
            simp only [hsessions] at hr
            obtain ⟨old, hold, rfl⟩ := (KeyedTable.mem_updateWhere _).mp hr
            split
            · next hmatch =>
                obtain ⟨hid, hhash⟩ := Bool.and_eq_true_iff.mp hmatch
                exact .inr ⟨old, hold, of_decide_eq_true hid, of_decide_eq_true hhash, ⟨rfl, rfl, rfl, rfl, rfl, rfl⟩⟩
            · next hmatch => exact .inl ⟨hold, fun hid hhash => hmatch (by simp [hid, hhash, Call.env])⟩
  | revokeSession token =>
      obtain ⟨rfl, rfl⟩ := Prod.mk.inj (Option.some.inj h)
      exact .other (Or.inr ⟨token, rfl⟩) (fun r hr => ⟨r, (KeyedTable.mem_deleteWhere.mp hr).1, .refl r⟩) fun _ hc => hc
  | setImpersonation id tenantID =>
      obtain ⟨rfl, rfl⟩ := Prod.mk.inj (Option.some.inj h)
      refine .other (Or.inl rfl) ?_ fun _ hc => hc
      intro r hr
      obtain ⟨old, hold, rfl⟩ := (KeyedTable.mem_updateWhere (setTenant_id tenantID)).mp hr
      split
      · exact ⟨old, hold, ⟨rfl, rfl, rfl, rfl, rfl, rfl⟩⟩
      · exact ⟨old, hold, .refl old⟩
  | deleteUser userID =>
      obtain ⟨rfl, rfl⟩ := Prod.mk.inj (Option.some.inj h)
      exact .other (Or.inl rfl) (fun r hr => ⟨r, (KeyedTable.mem_deleteWhere.mp hr).1, .refl r⟩) fun _ hc => hc

theorem Effect.read_sessions {c : Call} (h : Effect sha256 log s s' (.read c)) : c.read = s.sessions := by
  cases h with
  | read hread _ _ => exact hread
  | quiet _ hread _ _ _ => exact absurd rfl (hread c)

@[simp] theorem issues_snoc : issues sha256 (log ++ [e]) = issues sha256 log ++ e.issues sha256 := by
  simp [issues]

@[simp] theorem rotations_snoc : rotations sha256 (log ++ [e]) = rotations sha256 log ++ e.rotations sha256 := by
  simp [rotations]

/-- A session was created with the id, the user and the expiry of the row. -/
def CreatedAs (log : List Event) (r : UserSession) : Prop :=
  ∃ r₀, .created r₀ ∈ log ∧ r₀.id = r.id ∧ r₀.userID = r.userID ∧ r₀.expiresAt = r.expiresAt

theorem CreatedAs.snoc {r : UserSession} (h : CreatedAs log r) (e : Event) : CreatedAs (log ++ [e]) r := by
  obtain ⟨r₀, hmem, hsame⟩ := h
  exact ⟨r₀, List.mem_append_left _ hmem, hsame⟩

theorem Kept.createdAs {old r : UserSession} (hkept : Kept old r) (h : CreatedAs log old) : CreatedAs log r := by
  obtain ⟨r₀, hmem, hid, huser, hexpires⟩ := h
  exact ⟨r₀, hmem, by rw [hkept.id, hid], by rw [hkept.userID, huser], by rw [hkept.expiresAt, hexpires]⟩

/-- What a row in the table owes to the log: it was created as it stands, its hashes are issued to it, the
present one was never rotated away, and the previous one was rotated away at the stamp its grace runs from. -/
structure RowInv (sha256 : String → String) (log : List Event) (r : UserSession) : Prop where
  created : CreatedAs log r
  currentIssued : ⟨r.tokenHash, r.id, r.userID⟩ ∈ issues sha256 log
  current : ∀ ρ ∈ rotations sha256 log, ρ.hash ≠ r.tokenHash
  previous : ∀ hash, r.previousTokenHash = some hash → ⟨hash, r.id, r.userID⟩ ∈ issues sha256 log ∧
    ∃ ρ ∈ rotations sha256 log, ρ.hash = hash ∧ r.previousTokenHashExpiresAt = some (ρ.at_ + sessionRotationGrace)

structure Inv (sha256 : String → String) (log : List Event) (s : State) : Prop where
  row : ∀ r ∈ s.sessions, RowInv sha256 log r
  issueUnique : ∀ i ∈ issues sha256 log, ∀ j ∈ issues sha256 log, i.hash = j.hash → i = j
  rotationIssued : ∀ ρ ∈ rotations sha256 log, ∃ i ∈ issues sha256 log, i.hash = ρ.hash
  rotationOnce : ((rotations sha256 log).map Rotation.hash).Nodup
  callRead : ∀ c ∈ s.calls, .read c ∈ log
  readIssued : ∀ c row, .read c ∈ log → c.accepted sha256 = some row →
    CreatedAs log row ∧ ⟨sha256 c.token, row.id, row.userID⟩ ∈ issues sha256 log

theorem Kept.rowInv {old r : UserSession} (hkept : Kept old r) (h : RowInv sha256 log old) : RowInv sha256 log r where
  created := hkept.createdAs h.created
  currentIssued := by
    rw [hkept.tokenHash, hkept.id, hkept.userID]
    exact h.currentIssued
  current := by
    rw [hkept.tokenHash]
    exact h.current
  previous := by
    rw [hkept.previousTokenHash, hkept.previousExpires, hkept.id, hkept.userID]
    exact h.previous

/-- A row keeps its debts as long as its present hash is not the one rotated away. -/
theorem RowInv.snoc {r : UserSession} (h : RowInv sha256 log r)
    (hcurrent : ∀ ρ ∈ e.rotations sha256, ρ.hash ≠ r.tokenHash) : RowInv sha256 (log ++ [e]) r where
  created := h.created.snoc e
  currentIssued := by
    rw [issues_snoc]
    exact List.mem_append_left _ h.currentIssued
  current := by
    intro ρ hρ
    rw [rotations_snoc] at hρ
    exact (List.mem_append.mp hρ).elim (h.current ρ) (hcurrent ρ)
  previous := by
    intro hash hhash
    obtain ⟨hissued, ρ, hρ, hstamp⟩ := h.previous hash hhash
    rw [issues_snoc, rotations_snoc]
    exact ⟨List.mem_append_left _ hissued, ρ, List.mem_append_left _ hρ, hstamp⟩

/-- The row a read accepts was found by a hash issued to it. -/
theorem accepted_row {c : Call} {row : UserSession} (haccepted : c.accepted sha256 = some row) :
    row ∈ c.read ∧ row.Matches (sha256 c.token) c.clock.db :=
  lookupSession_eq_some (accepted_eq_some.mp haccepted).1

theorem RowInv.matches_issued {r : UserSession} {hash : String} {now : Time} (h : RowInv sha256 log r)
    (hmatches : r.Matches hash now) : ⟨hash, r.id, r.userID⟩ ∈ issues sha256 log := by
  rcases hmatches with rfl | ⟨hprevious, -⟩
  · exact h.currentIssued
  · exact (h.previous hash hprevious).1

theorem inv_init : Inv sha256 [] init := by
  constructor
  · intro r hr
    exact absurd hr List.not_mem_nil
  all_goals simp [init, issues, rotations]

theorem issues_wrote {c : Call} {v : Validation} {tok : RawToken} {row : UserSession} (hrotated : v.rotated = some tok)
    (haccepted : c.accepted sha256 = some row) :
    (Event.wrote c v).issues sha256 = [⟨sha256 tok.val, row.id, row.userID⟩] := by
  simp [Event.issues, hrotated, haccepted]

theorem rotations_wrote {c : Call} {v : Validation} {tok : RawToken} (hrotated : v.rotated = some tok) :
    (Event.wrote c v).rotations sha256 = [⟨sha256 c.token, c.clock.db⟩] := by
  simp [Event.rotations, hrotated]

/-- Issuing a hash that no one has had keeps the issues unique. -/
theorem issueUnique_snoc {i₀ : Issue} (h : ∀ i ∈ issues sha256 log, ∀ j ∈ issues sha256 log, i.hash = j.hash → i = j)
    (hfresh : ∀ i ∈ issues sha256 log, i.hash ≠ i₀.hash) :
    ∀ i ∈ issues sha256 log ++ [i₀], ∀ j ∈ issues sha256 log ++ [i₀], i.hash = j.hash → i = j := by
  intro i hi j hj hhash
  rcases List.mem_append.mp hi with hi | hi
  · rcases List.mem_append.mp hj with hj | hj
    · exact h i hi j hj hhash
    · rw [List.mem_singleton.mp hj] at hhash
      exact absurd hhash (hfresh i hi)
  · rw [List.mem_singleton.mp hi] at hhash ⊢
    rcases List.mem_append.mp hj with hj | hj
    · exact absurd hhash.symm (hfresh j hj)
    · exact (List.mem_singleton.mp hj).symm

/-- A read that accepts a row of the table owes to the log what the row does. -/
theorem readIssued_snoc (hinv : Inv sha256 log s) (hread : ∀ c row, e = .read c → c.accepted sha256 = some row →
      row ∈ s.sessions ∧ row.Matches (sha256 c.token) c.clock.db) (c : Call) (row : UserSession)
    (hmem : .read c ∈ log ++ [e]) (haccepted : c.accepted sha256 = some row) :
    CreatedAs (log ++ [e]) row ∧ ⟨sha256 c.token, row.id, row.userID⟩ ∈ issues sha256 (log ++ [e]) := by
  have howed : CreatedAs log row ∧ ⟨sha256 c.token, row.id, row.userID⟩ ∈ issues sha256 log := by
    rcases List.mem_append.mp hmem with hmem | hmem
    · exact hinv.readIssued c row hmem haccepted
    · obtain ⟨hrow, hmatches⟩ := hread c row (List.mem_singleton.mp hmem).symm haccepted
      exact ⟨(hinv.row row hrow).created, (hinv.row row hrow).matches_issued hmatches⟩
  rw [issues_snoc]
  exact ⟨howed.1.snoc e, List.mem_append_left _ howed.2⟩

/-- An event that issues nothing and rotates nothing keeps the invariant. -/
theorem inv_unissued (hinv : Inv sha256 log s) (hnone : e.issues sha256 = [] ∧ e.rotations sha256 = [])
    (hread : ∀ c row, e = .read c → c.accepted sha256 = some row →
      row ∈ s.sessions ∧ row.Matches (sha256 c.token) c.clock.db)
    (hrows : ∀ r ∈ s'.sessions, ∃ old ∈ s.sessions, Kept old r) (hcalls : ∀ c ∈ s'.calls, .read c ∈ log ++ [e]) :
    Inv sha256 (log ++ [e]) s' := by
  have hissues : issues sha256 (log ++ [e]) = issues sha256 log := by rw [issues_snoc, hnone.1, List.append_nil]
  have hrotations : rotations sha256 (log ++ [e]) = rotations sha256 log := by
    rw [rotations_snoc, hnone.2, List.append_nil]
  constructor
  case row =>
    intro r hr
    obtain ⟨old, hold, hkept⟩ := hrows r hr
    exact (hkept.rowInv (hinv.row old hold)).snoc (by simp [hnone.2])
  case issueUnique =>
    rw [hissues]
    exact hinv.issueUnique
  case rotationIssued =>
    rw [hissues, hrotations]
    exact hinv.rotationIssued
  case rotationOnce =>
    rw [hrotations]
    exact hinv.rotationOnce
  case callRead => exact hcalls
  case readIssued => exact readIssued_snoc hinv hread

theorem inv_create {row : UserSession} (hinv : Inv sha256 log s)
    (hhash : ∀ i ∈ issues sha256 log, i.hash ≠ row.tokenHash) (hprevious : row.previousTokenHash = none)
    (hrows : ∀ r ∈ s'.sessions, r ∈ s.sessions ∨ r = row) (hcalls : s'.calls = s.calls) :
    Inv sha256 (log ++ [.created row]) s' := by
  have hissues : (Event.created row).issues sha256 = [⟨row.tokenHash, row.id, row.userID⟩] := rfl
  have hrotations : (Event.created row).rotations sha256 = [] := rfl
  constructor
  case row =>
    intro r hr
    rcases hrows r hr with hr | rfl
    · exact (hinv.row r hr).snoc (by simp [hrotations])
    · refine ⟨⟨r, by simp, rfl, rfl, rfl⟩, by simp [hissues], ?_, by simp [hprevious]⟩
      intro ρ hρ heq
      rw [rotations_snoc, hrotations, List.append_nil] at hρ
      obtain ⟨i, hi, hihash⟩ := hinv.rotationIssued ρ hρ
      exact hhash i hi (hihash.trans heq)
  case issueUnique =>
    rw [issues_snoc, hissues]
    exact issueUnique_snoc hinv.issueUnique hhash
  case rotationIssued =>
    intro ρ hρ
    rw [rotations_snoc, hrotations, List.append_nil] at hρ
    obtain ⟨i, hi, hihash⟩ := hinv.rotationIssued ρ hρ
    exact ⟨i, by rw [issues_snoc]; exact List.mem_append_left _ hi, hihash⟩
  case rotationOnce =>
    rw [rotations_snoc, hrotations, List.append_nil]
    exact hinv.rotationOnce
  case callRead =>
    intro c hc
    rw [hcalls] at hc
    exact List.mem_append_left _ (hinv.callRead c hc)
  case readIssued => exact readIssued_snoc hinv nofun

theorem inv_read {c : Call} (hinv : Inv sha256 log s) (hread : c.read = s.sessions) (hrows : s'.sessions = s.sessions)
    (hcalls : s'.calls = s.calls ++ [c]) : Inv sha256 (log ++ [.read c]) s' := by
  refine inv_unissued hinv ⟨rfl, rfl⟩ ?_ (fun r hr => ⟨r, hrows ▸ hr, .refl r⟩) fun c' hc' => ?_
  · rintro _ row ⟨⟩ haccepted
    rw [← hread]
    exact accepted_row haccepted
  · rw [hcalls] at hc'
    rcases List.mem_append.mp hc' with hc' | hc'
    · exact List.mem_append_left _ (hinv.callRead c' hc')
    · rw [List.mem_singleton.mp hc']
      exact List.mem_append_right _ (List.mem_singleton_self _)

theorem inv_rotate {c : Call} {v : Validation} {tok : RawToken} {row : UserSession} (hinv : Inv sha256 log s)
    (hc : c ∈ s.calls) (hrotated : v.rotated = some tok) (haccepted : c.accepted sha256 = some row)
    (hfresh : ∀ i ∈ issues sha256 log, i.hash ≠ sha256 tok.val)
    (hwon : ∃ old ∈ s.sessions, old.id = row.id ∧ old.tokenHash = sha256 c.token)
    (hrows : ∀ r ∈ s'.sessions, (r ∈ s.sessions ∧ (r.id = row.id → r.tokenHash ≠ sha256 c.token)) ∨
      ∃ old ∈ s.sessions, old.id = row.id ∧ old.tokenHash = sha256 c.token ∧
        Rotated (sha256 c.token) (sha256 tok.val) c.clock.db old r)
    (hcalls : ∀ c' ∈ s'.calls, c' ∈ s.calls) : Inv sha256 (log ++ [.wrote c v]) s' := by
  have hissues := issues_wrote hrotated haccepted
  have hrotations : (Event.wrote c v).rotations sha256 = [⟨sha256 c.token, c.clock.db⟩] := rotations_wrote hrotated
  have hpresented : ⟨sha256 c.token, row.id, row.userID⟩ ∈ issues sha256 log :=
    (hinv.readIssued c row (hinv.callRead c hc) haccepted).2
  have hholder : ∀ r ∈ s.sessions, r.tokenHash = sha256 c.token → r.id = row.id ∧ r.userID = row.userID := by
    intro r hr hhash
    have hsame := hinv.issueUnique _ (hinv.row r hr).currentIssued _ hpresented hhash
    exact ⟨congrArg Issue.id hsame, congrArg Issue.userID hsame⟩
  have hmono : ∀ i ∈ issues sha256 log, i ∈ issues sha256 (log ++ [.wrote c v]) := by
    intro i hi
    rw [issues_snoc]
    exact List.mem_append_left _ hi
  constructor
  case row =>
    intro r hr
    rcases hrows r hr with ⟨hr, hother⟩ | ⟨old, hold, hid, hhash, hnew⟩
    · refine (hinv.row r hr).snoc ?_
      intro ρ hρ heq
      rw [hrotations, List.mem_singleton] at hρ
      subst hρ
      exact hother (hholder r hr heq.symm).1 heq.symm
    · refine ⟨?_, ?_, ?_, ?_⟩
      · obtain ⟨r₀, hmem, hid₀, huser₀, hexpires₀⟩ := (hinv.row old hold).created.snoc (.wrote c v)
        exact ⟨r₀, hmem, by rw [hnew.id, hid₀], by rw [hnew.userID, huser₀], by rw [hnew.expiresAt, hexpires₀]⟩
      · rw [issues_snoc, hissues, hnew.tokenHash, hnew.id, hnew.userID, (hholder old hold hhash).2, hid]
        exact List.mem_append_right _ (List.mem_singleton_self _)
      · intro ρ hρ heq
        rw [hnew.tokenHash] at heq
        rw [rotations_snoc, hrotations, List.mem_append, List.mem_singleton] at hρ
        rcases hρ with hρ | rfl
        · obtain ⟨i, hi, hihash⟩ := hinv.rotationIssued ρ hρ
          exact hfresh i hi (hihash.trans heq)
        · exact hfresh _ hpresented heq
      · intro hash hprev
        rw [hnew.previousTokenHash] at hprev
        obtain rfl := Option.some.inj hprev
        rw [hnew.id, hnew.userID, (hholder old hold hhash).2, hid, hnew.previousExpires]
        refine ⟨hmono _ hpresented, ⟨sha256 c.token, c.clock.db⟩, ?_, rfl, rfl⟩
        rw [rotations_snoc, hrotations]
        exact List.mem_append_right _ (List.mem_singleton_self _)
  case issueUnique =>
    rw [issues_snoc, hissues]
    exact issueUnique_snoc hinv.issueUnique hfresh
  case rotationIssued =>
    intro ρ hρ
    rw [rotations_snoc, hrotations, List.mem_append, List.mem_singleton] at hρ
    rcases hρ with hρ | rfl
    · obtain ⟨i, hi, hihash⟩ := hinv.rotationIssued ρ hρ
      exact ⟨i, hmono i hi, hihash⟩
    · exact ⟨_, hmono _ hpresented, rfl⟩
  case rotationOnce =>
    obtain ⟨old, hold, -, hhash⟩ := hwon
    rw [rotations_snoc, hrotations, List.map_append, List.nodup_append]
    refine ⟨hinv.rotationOnce, List.nodup_singleton _, ?_⟩
    intro h₁ hh₁ h₂ hh₂ heq
    obtain ⟨ρ, hρ, rfl⟩ := List.mem_map.mp hh₁
    rw [List.map_singleton, List.mem_singleton] at hh₂
    exact (hinv.row old hold).current ρ hρ (by rw [heq, hh₂, hhash])
  case callRead =>
    intro c' hc'
    exact List.mem_append_left _ (hinv.callRead c' (hcalls c' hc'))
  case readIssued => exact readIssued_snoc hinv nofun

theorem inv_quiet (hinv : Inv sha256 log s) (hcreated : ∀ row, e ≠ .created row) (hread : ∀ c, e ≠ .read c)
    (hwrote : ∀ c v, e = .wrote c v → c ∈ s.calls ∧ v.rotated = none)
    (hrows : ∀ r ∈ s'.sessions, ∃ old ∈ s.sessions, Kept old r) (hcalls : ∀ c' ∈ s'.calls, c' ∈ s.calls) :
    Inv sha256 (log ++ [e]) s' := by
  have hnone : e.issues sha256 = [] ∧ e.rotations sha256 = [] := by
    cases e with
    | created row => exact absurd rfl (hcreated row)
    | read c => exact absurd rfl (hread c)
    | wrote c v => simp [Event.issues, Event.rotations, (hwrote c v rfl).2]
    | revoked token => exact ⟨rfl, rfl⟩
    | changed => exact ⟨rfl, rfl⟩
  refine inv_unissued hinv hnone (fun c _ heq => absurd heq (hread c)) hrows fun c hc => ?_
  exact List.mem_append_left _ (hinv.callRead c (hcalls c hc))

theorem inv_step (hinv : Inv sha256 log s) (heffect : Effect sha256 log s s' e) : Inv sha256 (log ++ [e]) s' := by
  cases heffect with
  | create hid hhash hprevious hrows hcalls => exact inv_create hinv hhash hprevious hrows hcalls
  | read hread hrows hcalls => exact inv_read hinv hread hrows hcalls
  | rotate hc hrotated haccepted hfresh hwon hrows hcalls =>
      exact inv_rotate hinv hc hrotated haccepted hfresh hwon hrows hcalls
  | quiet hcreated hread hwrote hrows hcalls => exact inv_quiet hinv hcreated hread hwrote hrows hcalls

theorem inv_run (hrun : (system sha256).RunIf (Fresh sha256) init log s) : Inv sha256 log s :=
  hrun.invariant (Inv sha256) inv_init fun _ _ _ _ _ hinv hfresh hstep => inv_step hinv (step_effect hfresh hstep)

/-- A session id was created once. -/
theorem created_unique (hrun : (system sha256).RunIf (Fresh sha256) init log s) {r₀ r₁ : UserSession}
    (h₀ : .created r₀ ∈ log) (h₁ : .created r₁ ∈ log) (hid : r₀.id = r₁.id) : r₀ = r₁ := by
  revert r₀ r₁
  refine hrun.invariant (fun log _ => ∀ {r₀ r₁}, .created r₀ ∈ log → .created r₁ ∈ log → r₀.id = r₁.id → r₀ = r₁)
    (fun h => absurd h List.not_mem_nil) ?_
  intro log s a s' e hunique hfresh hstep r₀ r₁ h₀ h₁ hid
  have hissued : ∀ r, .created r ∈ log → ∃ i ∈ issues sha256 log, i.id = r.id := fun r hr =>
    ⟨⟨r.tokenHash, r.id, r.userID⟩, List.mem_flatMap.mpr ⟨_, hr, List.mem_singleton_self _⟩, rfl⟩
  have hnew : ∀ r, e = .created r → ∀ i ∈ issues sha256 log, i.id ≠ r.id := by
    intro r he
    cases step_effect hfresh hstep with
    | create hid _ _ _ _ => exact Event.created.inj he ▸ hid
    | read _ _ _ => cases he
    | rotate _ _ _ _ _ _ _ => cases he
    | quiet hcreated _ _ _ _ => exact absurd he (hcreated r)
  rcases List.mem_append.mp h₀ with h₀ | h₀ <;> rcases List.mem_append.mp h₁ with h₁ | h₁
  · exact hunique h₀ h₁ hid
  · obtain ⟨i, hi, hiid⟩ := hissued r₀ h₀
    exact absurd (hiid.trans hid) (hnew r₁ (List.mem_singleton.mp h₁).symm i hi)
  · obtain ⟨i, hi, hiid⟩ := hissued r₁ h₁
    exact absurd (hiid.trans hid.symm) (hnew r₀ (List.mem_singleton.mp h₀).symm i hi)
  · exact Event.created.inj ((List.mem_singleton.mp h₀).trans (List.mem_singleton.mp h₁).symm)

/-- A call that writes is in flight, and what it leaves is what the validation computes from its read. -/
theorem step_wrote {c : Call} {v : Validation} (h : step sha256 s a = some (s', .wrote c v)) :
    c ∈ s.calls ∧ ∃ fresh commit, v = validateSession (c.env sha256 s.sessions fresh commit) c.token := by
  cases a with
  | validateWrite n fresh commit =>
      simp only [step] at h
      split at h
      · cases h
      · next c₀ hc₀ =>
          obtain ⟨-, he⟩ := Prod.mk.inj (Option.some.inj h)
          obtain ⟨rfl, rfl⟩ := Event.wrote.inj he
          exact ⟨List.mem_of_getElem? hc₀, fresh, commit, rfl⟩
  | createSession id userID token clock method =>
      simp only [step] at h
      split at h
      · split at h <;> cases h
      · cases h
  | validateRead | revokeSession | setImpersonation | deleteUser => cases h

/-- A rotated-away token is accepted later only while the grace of its rotation lasts. -/
theorem accepted_after_rotation {c : Call} {row : UserSession} {ρ : Rotation} (hinv : Inv sha256 log s)
    (hread : c.read = s.sessions) (haccepted : c.accepted sha256 = some row) (hρ : ρ ∈ rotations sha256 log)
    (hhash : ρ.hash = sha256 c.token) : c.clock.db < ρ.at_ + sessionRotationGrace := by
  obtain ⟨hrow, hmatches⟩ := accepted_row haccepted
  rw [hread] at hrow
  have howes := hinv.row row hrow
  rcases hmatches with hcurrent | ⟨hprevious, expires, hexpires, hnow⟩
  · exact absurd (hhash.trans hcurrent.symm) (howes.current ρ hρ)
  · obtain ⟨-, ρ', hρ', hhash', hstamp⟩ := howes.previous _ hprevious
    obtain rfl : ρ = ρ' := List.inj_on_of_nodup_map hinv.rotationOnce hρ hρ' (hhash.trans hhash'.symm)
    rw [hexpires] at hstamp
    rw [← Option.some.inj hstamp]
    exact hnow

/-- What the claims on rotation come to, over a run that has left a log and a state. -/
structure SingleWinner (sha256 : String → String) (log : List Event) (s : State) : Prop where
  /-- Of two writes that present one token, the later has not rotated it if the earlier has. -/
  rotatedOnce : ∀ pre mid post c v c' v', log = pre ++ .wrote c v :: (mid ++ .wrote c' v' :: post) →
    v.rotated ≠ none → sha256 c'.token = sha256 c.token → v'.rotated = none
  /-- A row expires when its creation said, and so it is for a row that a read accepts. -/
  expiryKept : ∀ r, (r ∈ s.sessions ∨ ∃ c, .read c ∈ log ∧ c.accepted sha256 = some r) →
    ∃ r₀, .created r₀ ∈ log ∧ r₀.id = r.id ∧ r.expiresAt = r₀.expiresAt ∧
      ∀ r₁, .created r₁ ∈ log → r₁.id = r.id → r₁ = r₀
  /-- A read that accepts a token after it was rotated away is within the grace of that rotation. -/
  graceBounded : ∀ pre mid post c v c' row, log = pre ++ .wrote c v :: (mid ++ .read c' :: post) →
    v.rotated ≠ none → sha256 c'.token = sha256 c.token → c'.accepted sha256 = some row →
    c'.clock.db < c.clock.db + sessionRotationGrace
  /-- An accepted token was issued, and every issue of it names the row and the user it resolves to. -/
  resolves : ∀ c row, .read c ∈ log → c.accepted sha256 = some row →
    (∃ i ∈ issues sha256 log, i.hash = sha256 c.token) ∧
      ∀ i ∈ issues sha256 log, i.hash = sha256 c.token → row.id = i.id ∧ row.userID = i.userID
  /-- A session that is answered is that of the row its read accepted. -/
  answered : ∀ c v session, .wrote c v ∈ log → v.session = .ok session →
    .read c ∈ log ∧ ∃ row, c.accepted sha256 = some row ∧ session.id = row.id ∧ session.userID = row.userID

theorem mem_rotations {pre post : List Event} {c : Call} {v : Validation} (hrotated : v.rotated ≠ none) :
    ⟨sha256 c.token, c.clock.db⟩ ∈ rotations sha256 (pre ++ .wrote c v :: post) := by
  obtain ⟨tok, htok⟩ := Option.ne_none_iff_exists'.mp hrotated
  refine List.mem_flatMap.mpr ⟨.wrote c v, by simp, ?_⟩
  rw [rotations_wrote htok]
  exact List.mem_singleton_self _

/-- However validations interleave, each token is rotated away at most once, no session outlives the expiry it
was created with, a rotated-away token is accepted within its grace only, and an accepted token is that of one
session and user. -/
theorem rotation_singleWinner (hrun : (system sha256).RunIf (Fresh sha256) init log s) : SingleWinner sha256 log s := by
  have hinv := inv_run hrun
  constructor
  case rotatedOnce =>
    rintro pre mid post c v c' v' rfl hrotated hsame
    by_contra hagain
    have hnodup := hinv.rotationOnce
    have hsplit : pre ++ .wrote c v :: (mid ++ .wrote c' v' :: post) =
        (pre ++ .wrote c v :: mid) ++ .wrote c' v' :: post := by simp
    obtain ⟨tok', htok'⟩ := Option.ne_none_iff_exists'.mp hagain
    rw [hsplit, rotations, List.flatMap_append, List.flatMap_cons, rotations_wrote htok', List.map_append,
      List.nodup_append] at hnodup
    refine hnodup.2.2 _ (List.mem_map_of_mem (mem_rotations hrotated)) (sha256 c.token) ?_ rfl
    simp [hsame]
  case expiryKept =>
    have hcreated : ∀ r, CreatedAs log r → ∃ r₀, .created r₀ ∈ log ∧ r₀.id = r.id ∧ r.expiresAt = r₀.expiresAt ∧
        ∀ r₁, .created r₁ ∈ log → r₁.id = r.id → r₁ = r₀ := by
      rintro r ⟨r₀, hmem, hid, -, hexpires⟩
      exact ⟨r₀, hmem, hid, hexpires.symm, fun r₁ h₁ hid₁ => created_unique hrun h₁ hmem (hid₁.trans hid.symm)⟩
    rintro r (hr | ⟨c, hc, haccepted⟩)
    · exact hcreated r (hinv.row r hr).created
    · exact hcreated r (hinv.readIssued c r hc haccepted).1
  case graceBounded =>
    rintro pre mid post c v c' row rfl hrotated hsame haccepted
    have hsplit : pre ++ .wrote c v :: (mid ++ .read c' :: post) = (pre ++ .wrote c v :: mid) ++ .read c' :: post := by
      simp
    rw [hsplit] at hrun
    obtain ⟨s₁, a, s₂, hbefore, hfresh, hstep, -⟩ := hrun.at_event
    exact accepted_after_rotation (inv_run hbefore) (step_effect hfresh hstep).read_sessions haccepted (mem_rotations hrotated) hsame.symm
  case resolves =>
    intro c row hc haccepted
    obtain ⟨-, hissued⟩ := hinv.readIssued c row hc haccepted
    refine ⟨⟨_, hissued, rfl⟩, ?_⟩
    rintro i hi hhash
    have hsame := hinv.issueUnique _ hissued i hi hhash.symm
    exact ⟨congrArg Issue.id hsame, congrArg Issue.userID hsame⟩
  case answered =>
    intro c v session hmem hok
    obtain ⟨pre, post, rfl⟩ := List.append_of_mem hmem
    obtain ⟨s₁, a, s₂, hbefore, -, hstep, -⟩ := hrun.at_event
    obtain ⟨hc, fresh, commit, rfl⟩ := step_wrote hstep
    obtain ⟨row, hlookup, hlive, hid, huser⟩ := validateSession_ok hok
    exact ⟨List.mem_append_left _ ((inv_run hbefore).callRead c hc), row, accepted_eq_some.mpr ⟨hlookup, hlive⟩, hid, huser⟩

/-- The token of the first cookie, as it was drawn. -/
def firstToken : RawToken := ⟨oldToken, by decide⟩

/-- The token of the request that loses the race. -/
def lostToken : RawToken := ⟨"AgICAgICAgICAgICAgICAgICAgICAgICAgICAgICAgI", by decide⟩

def raceSha256 (token : String) : String :=
  if token = lostToken.val then "6c1d63bbdab437c54368cbbd8886a886a79ad977297e265eebf1f5f5f01533b9"
  else dueEnv.sha256 token

/-- At five hours both of two requests on one cookie read, the first rotates and the second loses. -/
def raced : List Action :=
  [.createSession 1 7 firstToken ⟨0, 0⟩ .password,
    .validateRead oldToken ⟨seconds 18000, seconds 18000⟩, .validateRead oldToken ⟨seconds 18001, seconds 18001⟩,
    .validateWrite 0 (some freshToken) .acked, .validateWrite 0 (some lostToken) .acked,
    .validateRead oldToken ⟨seconds 18030, seconds 18030⟩, .validateRead oldToken ⟨seconds 18060, seconds 18060⟩]

theorem raced_runs : ((system raceSha256).execIf (Fresh raceSha256) [] init raced).any (fun r =>
    decide (rotations raceSha256 r.1 = [⟨raceSha256 oldToken, seconds 18000⟩]) &&
      decide (r.2.calls.map (fun c => (c.clock.db, (c.accepted raceSha256).map UserSession.id)) =
        [(seconds 18030, some 1), (seconds 18060, none)])) = true := by
  decide +kernel

theorem raced_singleWinner : ∃ log s, (system raceSha256).RunIf (Fresh raceSha256) init log s ∧
    rotations raceSha256 log = [⟨raceSha256 oldToken, seconds 18000⟩] ∧ SingleWinner raceSha256 log s := by
  obtain ⟨log, s, hrun, htest⟩ := Machine.exists_runIf_of_any raced_runs
  exact ⟨log, s, hrun, of_decide_eq_true (Bool.and_eq_true_iff.mp htest).1, rotation_singleWinner hrun⟩

end ThesadaApp.SessionFlow
