import ThesadaApp.SessionRotation

/-!
What a logout ends. It deletes the row whose present token it is given, and for a cookie that has just been
rotated away that is no row: the session goes on under the new token, and for the rest of the grace under the
one that logged out.
-/

namespace ThesadaApp.SessionFlow

open SessionCookie (oldToken)

variable {sha256 : String → String} {log : List Event} {s s' : State} {r : UserSession} {token : String} {clock : Clock}

/-- One hash finds one row. -/
theorem matches_unique {r' : UserSession} {hash : String} {now now' : Time} (hinv : Inv sha256 log s)
    (hr : r ∈ s.sessions) (hr' : r' ∈ s.sessions) (h : r.Matches hash now) (h' : r'.Matches hash now') : r = r' := by
  have hsame := hinv.issueUnique _ ((hinv.row r hr).matches_issued h) _ ((hinv.row r' hr').matches_issued h') rfl
  exact KeyedTable.eq_of_key hr hr' (congrArg Issue.id hsame)

/-- No token, present or previous, of the row is accepted in the events, nor is the row by any other. -/
def Ended (sha256 : String → String) (r : UserSession) (post : List Event) : Prop :=
  ∀ c row, .read c ∈ post → c.accepted sha256 = some row →
    row.id ≠ r.id ∧ sha256 c.token ≠ r.tokenHash ∧ r.previousTokenHash ≠ some (sha256 c.token)

/-- The ways the system can go on after the logout of a token. -/
def RunAfterLogout (sha256 : String → String) (log : List Event) (s : State) (token : String) :
    List Event → State → Prop :=
  (system sha256).RunIf (fun post => Fresh sha256 (log ++ [.revoked token] ++ post)) (revokeSession sha256 s token)

theorem run_of_afterLogout {post : List Event} (hrun : (system sha256).RunIf (Fresh sha256) init log s)
    (hafter : RunAfterLogout sha256 log s token post s') :
    (system sha256).RunIf (Fresh sha256) init (log ++ [.revoked token] ++ post) s' :=
  have hlogout : (system sha256).step s (.revokeSession token) =
      some (revokeSession sha256 s token, .revoked token) := rfl
  (hrun.snoc (by exact trivial) hlogout).append hafter

/-- Once the row is deleted no row has its id again. -/
theorem gone_afterLogout {post : List Event} (hinv : Inv sha256 log s) (hr : r ∈ s.sessions)
    (hcurrent : r.tokenHash = sha256 token) (hafter : RunAfterLogout sha256 log s token post s') :
    ∀ row ∈ s'.sessions, row.id ≠ r.id := by
  refine hafter.invariant (fun _ s' => ∀ row ∈ s'.sessions, row.id ≠ r.id) ?_ ?_
  · intro row hrow hid
    obtain ⟨hrow, hkept⟩ := KeyedTable.mem_deleteWhere.mp hrow
    obtain rfl := KeyedTable.eq_of_key hrow hr hid
    simp [hcurrent] at hkept
  · intro post s₁ a s₂ e hgone hfresh hstep row hrow
    cases step_effect hfresh hstep with
    | create hid _ _ hrows _ =>
        rcases hrows row hrow with hrow | rfl
        · exact hgone row hrow
        · have hissued : ⟨r.tokenHash, r.id, r.userID⟩ ∈ issues sha256 (log ++ [.revoked token] ++ post) := by
            rw [List.append_assoc, issues, List.flatMap_append]
            exact List.mem_append_left _ (hinv.row r hr).currentIssued
          exact (hid _ hissued).symm
    | read _ hrows _ =>
        rw [hrows] at hrow
        exact hgone row hrow
    | rotate _ _ _ _ _ hrows _ =>
        rcases hrows row hrow with ⟨hrow, -⟩ | ⟨old, hold, -, -, hnew⟩
        · exact hgone row hrow
        · rw [hnew.id]
          exact hgone old hold
    | quiet _ _ _ hrows _ =>
        obtain ⟨old, hold, hkept⟩ := hrows row hrow
        rw [hkept.id]
        exact hgone old hold

/-- The logout of the present token ends the session. -/
theorem ended_of_current {post : List Event} (hrun : (system sha256).RunIf (Fresh sha256) init log s)
    (hr : r ∈ s.sessions) (hcurrent : r.tokenHash = sha256 token) (hafter : RunAfterLogout sha256 log s token post s') :
    Ended sha256 r post := by
  intro c row hmem haccepted
  obtain ⟨pre, rest, rfl⟩ := List.append_of_mem hmem
  obtain ⟨s₁, a, s₂, hbefore, hfresh, hstep, -⟩ := Machine.RunIf.at_event hafter
  have hinv := inv_run (run_of_afterLogout hrun hbefore)
  obtain ⟨hrow, hmatches⟩ := accepted_row haccepted
  rw [(step_effect hfresh hstep).read_sessions] at hrow
  have hother := gone_afterLogout (inv_run hrun) hr hcurrent hbefore row hrow
  have hissued := (hinv.row row hrow).matches_issued hmatches
  -- both hashes of the row were issued to it, so they find no other
  have hfound : ∀ hash, ⟨hash, r.id, r.userID⟩ ∈ issues sha256 log → sha256 c.token ≠ hash := by
    rintro hash hmine rfl
    have hmine' : ⟨sha256 c.token, r.id, r.userID⟩ ∈ issues sha256 (log ++ [.revoked token] ++ pre) := by
      rw [List.append_assoc, issues, List.flatMap_append]
      exact List.mem_append_left _ hmine
    exact hother (congrArg Issue.id (hinv.issueUnique _ hissued _ hmine' rfl))
  have howes := (inv_run hrun).row r hr
  exact ⟨hother, hfound _ howes.currentIssued, fun hprevious => hfound _ (howes.previous _ hprevious).1 rfl⟩

/-- After the logout of a token that is not the row's present one, that very token is accepted again. -/
theorem not_ended_of_previous (hrun : (system sha256).RunIf (Fresh sha256) init log s)
    (haccepted : (Call.mk token clock s.sessions).accepted sha256 = some r) (hprevious : r.tokenHash ≠ sha256 token) :
    ∃ post s', RunAfterLogout sha256 log s token post s' ∧ ¬ Ended sha256 r post := by
  let c : Call := ⟨token, clock, (revokeSession sha256 s token).sessions⟩
  obtain ⟨hr, hmatches⟩ := accepted_row haccepted
  have hlive := (accepted_eq_some.mp haccepted).2
  have hstays : r ∈ c.read := KeyedTable.mem_deleteWhere.mpr ⟨hr, by simpa using hprevious⟩
  obtain ⟨row, hlookup⟩ := lookupSession_isSome (c.env sha256 c.read none .acked) hstays hmatches
  obtain ⟨hrow, hrowMatches⟩ := lookupSession_eq_some hlookup
  obtain rfl := matches_unique (inv_run hrun) hr (KeyedTable.mem_deleteWhere.mp hrow).1 hmatches hrowMatches
  have hagain : (system sha256).step (revokeSession sha256 s token) (.validateRead token clock) =
      some ({ revokeSession sha256 s token with calls := s.calls ++ [c] }, .read c) := rfl
  refine ⟨[] ++ [.read c], _, .snoc .nil (by exact trivial) hagain, fun hended => ?_⟩
  exact (hended c r (by simp) (accepted_eq_some.mpr ⟨hlookup, hlive⟩)).1 rfl

/-- In every reachable state and for every token that is accepted there: its logout ends the session exactly if
it is the row's present token. -/
theorem logout_ends_session_iff (hrun : (system sha256).RunIf (Fresh sha256) init log s)
    (haccepted : (Call.mk token clock s.sessions).accepted sha256 = some r) :
    (∀ post s', RunAfterLogout sha256 log s token post s' → Ended sha256 r post) ↔ r.tokenHash = sha256 token := by
  constructor
  · intro hended
    by_contra hprevious
    obtain ⟨post, s', hafter, hnot⟩ := not_ended_of_previous hrun haccepted hprevious
    exact hnot (hended post s' hafter)
  · intro hcurrent post s' hafter
    exact ended_of_current hrun (accepted_row haccepted).1 hcurrent hafter

/-- The row of a session on its first token, and the row after its rotation at five hours. -/
def firstRow : UserSession :=
  ⟨1, 7, raceSha256 oldToken, seconds (30 * 24 * 3600), 0, none, 0, none, none⟩

def rotatedRow : UserSession :=
  ⟨1, 7, raceSha256 freshToken.val, seconds (30 * 24 * 3600), seconds 18000, none, seconds 18000,
    some (raceSha256 oldToken), some (seconds 18060)⟩

theorem loggedIn_runs : ((system raceSha256).execIf (Fresh raceSha256) [] init
    [.createSession 1 7 firstToken ⟨0, 0⟩ .password]).any (fun r =>
      decide ((Call.mk oldToken ⟨seconds 60, seconds 60⟩ r.2.sessions).accepted raceSha256 = some firstRow)) = true := by
  decide +kernel

theorem loggedIn_logout_ends : ∃ log s, (system raceSha256).RunIf (Fresh raceSha256) init log s ∧
    ∀ post s', RunAfterLogout raceSha256 log s oldToken post s' → Ended raceSha256 firstRow post := by
  obtain ⟨log, s, hrun, htest⟩ := Machine.exists_runIf_of_any loggedIn_runs
  exact ⟨log, s, hrun, (logout_ends_session_iff hrun (of_decide_eq_true htest)).mpr rfl⟩

theorem rotated_runs : ((system raceSha256).execIf (Fresh raceSha256) [] init
    [.createSession 1 7 firstToken ⟨0, 0⟩ .password, .validateRead oldToken ⟨seconds 18000, seconds 18000⟩,
      .validateWrite 0 (some freshToken) .acked]).any (fun r =>
      decide ((Call.mk oldToken ⟨seconds 18001, seconds 18001⟩ r.2.sessions).accepted raceSha256 =
        some rotatedRow)) = true := by
  decide +kernel

/-- The request that logs out has rotated its own cookie: the session stays. -/
theorem rotated_logout_not_ends : ∃ log s, (system raceSha256).RunIf (Fresh raceSha256) init log s ∧
    (Call.mk oldToken ⟨seconds 18001, seconds 18001⟩ s.sessions).accepted raceSha256 = some rotatedRow ∧
    ∃ post s', RunAfterLogout raceSha256 log s oldToken post s' ∧ ¬ Ended raceSha256 rotatedRow post := by
  obtain ⟨log, s, hrun, htest⟩ := Machine.exists_runIf_of_any rotated_runs
  have haccepted := of_decide_eq_true htest
  exact ⟨log, s, hrun, haccepted, not_ended_of_previous hrun haccepted (by decide +kernel)⟩

end ThesadaApp.SessionFlow
