import ThesadaApp.OAuthIdentities

/-!
The check that keeps a user's last credential. A request counts the identities in one transaction and deletes one in a
later one, so the count may be out of date by then. As long as the check has the same verdict on the identities that are
linked at the DELETE, a user without a password keeps one.
-/

namespace ThesadaApp.OAuth

variable {w : Config}

def HasIdentity (t : Identities w) (u : User) : Prop := ∃ r ∈ t.rows, r.userID = u.id

/-- A DELETE of an identity of the user: the check would have the same verdict now. -/
def Stage.UpToDate (t : Identities w) (u : User) : Stage → Prop
  | .delete v id identities => v = u → (∃ r ∈ t.rows, r.id = id ∧ r.userID = u.id) →
      lastCredential u (listIdentitiesForUser t u) = lastCredential u identities
  | _ => True

def UpToDate (u : User) (s : State w) : Action → Prop
  | .next k => ∀ stage ∈ s.handlers k, stage.UpToDate s.identities u
  | _ => True

instance (t : Identities w) (u : User) : DecidablePred (Stage.UpToDate t u)
  | .delete v id identities => inferInstanceAs (Decidable (v = u → (∃ r ∈ t.rows, r.id = id ∧ r.userID = u.id) →
      lastCredential u (listIdentitiesForUser t u) = lastCredential u identities))
  | .exchange .. | .link .. | .find .. | .email .. | .list .. | .password .. | .done _ => isTrue trivial

instance (u : User) (s : State w) : DecidablePred (UpToDate u s)
  | .next k => inferInstanceAs (Decidable (∀ stage ∈ s.handlers k, stage.UpToDate s.identities u))
  | .start .. | .callback .. | .exchange .. | .find .. | .unlink .. | .fail _ => isTrue trivial

section step

variable {t t' : Identities w} {u : User} {id : Nat}

/-- Of more than one identity another is left. -/
theorem exists_other (hmany : 1 < (listIdentitiesForUser t u).length) : ∃ r ∈ t.rows, r.userID = u.id ∧ r.id ≠ id := by
  by_contra hnone
  have hall : ∀ r ∈ listIdentitiesForUser t u, r.id = id := by
    intro r hr
    have hfilter := List.mem_filter.mp hr
    simp only [Bool.and_eq_true, decide_eq_true_eq] at hfilter
    by_contra hne
    exact hnone ⟨r, hfilter.1, hfilter.2.1, hne⟩
  have hnodup : ((listIdentitiesForUser t u).map Identity.id).Nodup := t.ids.sublist (List.filter_sublist.map _)
  have hconst : (listIdentitiesForUser t u).map Identity.id = List.replicate (listIdentitiesForUser t u).length id :=
    List.eq_replicate_iff.mpr ⟨List.length_map _, fun i hi => by
      obtain ⟨r, hr, rfl⟩ := List.mem_map.mp hi
      exact hall r hr⟩
  rw [hconst, List.nodup_replicate] at hnodup
  omega

/-- The check passes for a user without a password who has more than one identity. -/
theorem lastCredential_eq_false (hpassword : hasPassword u = false) {identities : List Identity} :
    lastCredential u identities = false ↔ 1 < identities.length := by
  simp [lastCredential, hpassword]

/-- A DELETE leaves an identity, if the check passes at that time or the user has not the one it names. -/
theorem hasIdentity_delete {v : User} (hv : v ∈ w.users) (hu : u ∈ w.users) (hpassword : hasPassword u = false)
    (hcheck : v = u → (∃ r ∈ t.rows, r.id = id ∧ r.userID = u.id) →
      lastCredential u (listIdentitiesForUser t u) = false)
    (h : HasIdentity t u) : HasIdentity (deleteIdentity t v.id id) u := by
  have hkeep : ∀ r ∈ t.rows, ¬ (r.id = id ∧ r.userID = v.id) → r ∈ (deleteIdentity t v.id id).rows := by
    intro r hr hne
    rw [not_and_or] at hne
    exact List.mem_filter.mpr ⟨hr, by simpa using hne⟩
  obtain ⟨r, hr, huser⟩ := h
  by_cases hhit : ∃ r ∈ t.rows, r.id = id ∧ r.userID = v.id
  · by_cases hsame : v = u
    · rw [hsame] at hhit hkeep ⊢
      have hmany := (lastCredential_eq_false hpassword).mp (hcheck hsame hhit)
      obtain ⟨r', hr', huser', hne⟩ : ∃ r ∈ t.rows, r.userID = u.id ∧ r.id ≠ id := exists_other hmany
      exact ⟨r', hkeep r' hr' fun heq => hne heq.1, huser'⟩
    · refine ⟨r, hkeep r hr fun heq => hsame ?_, huser⟩
      exact users_inj hv hu (heq.2.symm.trans huser)
  · exact ⟨r, hkeep r hr fun heq => hhit ⟨r, hr, heq⟩, huser⟩

end step

section runs

variable {s s' : State w} {t : Identities w} {a : Action} {u : User} {log : List Unit}

theorem hasIdentity_step (hu : u ∈ w.users) (hpassword : hasPassword u = false)
    (hok : ∀ k stage, s.handlers k = some stage → stage.Ok w) (hdate : UpToDate u s a) (h : HasIdentity s.identities u)
    (hstep : step s a = some s') : HasIdentity s'.identities u := by
  rcases step_identities hstep with hsame | ⟨k, p, claims, user, auto, -, -, hlink⟩ | ⟨k, v, id, listed, rfl, hstage,
    hdelete⟩
  · rw [hsame]
    exact h
  · obtain ⟨r, hr, huser⟩ := h
    refine ⟨r, ?_, huser⟩
    rw [linkIdentity_rows hlink]
    exact List.mem_append_left _ hr
  · obtain ⟨hv, hpassed⟩ := hok k _ hstage
    rw [hdelete]
    refine hasIdentity_delete hv hu hpassword (fun hsame hhit => ?_) h
    rw [hsame] at hpassed
    rw [hdate _ hstage hsame hhit]
    exact hpassed

/-- In every run in which no check of the user is out of date. -/
theorem hasIdentity_run (hu : u ∈ w.users) (hpassword : hasPassword u = false) (h : HasIdentity t u)
    (hrun : (system w).RunIf (fun _ => UpToDate u) (start t) log s) : HasIdentity s.identities u := by
  refine hrun.invariant_along (fun _ s => HasIdentity s.identities u) h fun log s a s' e hsofar h hdate hstep => ?_
  exact hasIdentity_step hu hpassword (stages_ok hsofar) hdate h (step_of_system hstep)

end runs

section twice

def bob : User := ⟨20, acme, "bob@acme.test", none⟩

/-- A tenant with two providers. -/
def twoProviders : Config where
  providers := [⟨1, some acme, "sso", .oidc, "https://idp.acme.test", "s1", true⟩,
    ⟨2, some acme, "hub", .oidc, "https://hub.test", "s2", true⟩]
  users := [bob]
  fold := id
  providers_sorted := by simp
  slug_unique := by decide
  users_unique := by decide

/-- Bob is linked at both. -/
def bothLinked : Identities twoProviders where
  rows := [⟨0, 20, 1, "7", none⟩, ⟨1, 20, 2, "bob", none⟩]
  nextID := 2
  ids := by decide
  fresh := by decide
  unique := by decide
  user_ref := by decide
  provider_ref := by decide

def unlinkAll (k id : Nat) : List Action := [.unlink k 20 id, .next k, .next k, .next k]

/-- Two requests at once, one for each identity. -/
theorem not_hasIdentity_twice : hasPassword bob = false ∧ HasIdentity bothLinked bob ∧
    ∃ log s, (system twoProviders).Run (start bothLinked) log s ∧ ¬ HasIdentity s.identities bob := by
  refine ⟨rfl, ⟨_, List.mem_cons_self, rfl⟩, ?_⟩
  have hexec : ((system twoProviders).execIf (fun _ _ _ => True) [] (start bothLinked)
      [.unlink 0 20 0, .unlink 1 20 1, .next 0, .next 1, .next 0, .next 1, .next 0, .next 1]).any
      (fun out => out.2.identities.rows = []) = true := by decide +kernel
  obtain ⟨log, s, hrun, hrows⟩ := Machine.exists_runIf_of_any hexec
  refine ⟨log, s, hrun, fun ⟨r, hr, _⟩ => ?_⟩
  rw [of_decide_eq_true hrows] at hr
  exact List.not_mem_nil hr

/-- One after the other, the second is refused. -/
theorem hasIdentity_inTurn : ∃ log s, (system twoProviders).RunIf (fun _ => UpToDate bob) (start bothLinked) log s ∧
    s.identities.rows = [⟨1, 20, 2, "bob", none⟩] ∧ HasIdentity s.identities bob := by
  have hexec : ((system twoProviders).execIf (fun _ => UpToDate bob) [] (start bothLinked)
      (unlinkAll 0 0 ++ [.unlink 1 20 1, .next 1, .next 1])).any
      (fun out => out.2.identities.rows = [⟨1, 20, 2, "bob", none⟩]) = true := by decide +kernel
  obtain ⟨log, s, hrun, hrows⟩ := Machine.exists_runIf_of_any hexec
  exact ⟨log, s, hrun, of_decide_eq_true hrows,
    hasIdentity_run List.mem_cons_self rfl ⟨_, List.mem_cons_self, rfl⟩ hrun⟩

end twice

end ThesadaApp.OAuth
