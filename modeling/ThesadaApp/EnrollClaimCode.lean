import ThesadaApp.EnrollSystem

/-!
The code behind a claim. The lookup judges the submitted code and the claim binds the row by its key in
a later transaction, without the token. A verified row's token hash is frozen while the row exists, so
the claim is made with the row's own code as long as the row found is not deleted in between; a row
deleted and announced afresh is bound with a code nobody submitted for it.
-/

namespace ThesadaApp.Enroll

/-- A claim request that is about to bind an unclaimed row binds the one its lookup found, not one
announced after that was deleted. -/
def BindsKeptRow (_log : List Event) (s : System) (a : Action) : Prop :=
  (match a with
    | .bind _ _ i => (s.claims[i]?).all fun r =>
        (s.db.enrollments.find r.call.key).all fun e => e.claimedAt.isSome || r.rowKept
    | _ => true) = true

instance (log : List Event) (s : System) (a : Action) : Decidable (BindsKeptRow log s a) :=
  inferInstanceAs (Decidable (_ = true))

/-- A step that binds a row to a tenant for the first time is the claim of a request, the row is verified,
and its token hash accepts the code that request submitted. -/
def BindsOwnCode (cfg : EnrollConfig) (s : System) (a : Action) (s' : System) : Prop :=
  ∀ key e e', s.db.enrollments.find key = some e → s'.db.enrollments.find key = some e' →
    e.claimedByTenant = none → e'.claimedByTenant ≠ none →
    ∃ clock fresh i r, a = .bind clock fresh i ∧ s.claims[i]? = some r ∧ r.call.key = key ∧
      e'.verifiedAt ≠ none ∧ accepts cfg r.claimToken e'.claimTokenHash = true

variable {cfg : EnrollConfig} {topicRoot : String} {log : List Event} {s s' : System} {a : Action} {e : Event}

/-- The row a judgement finds is among the rows judged and accepts the code. -/
theorem judgeClaim_found {rows : List Enrollment} {token : String} {r : Enrollment}
    (h : judgeClaim cfg rows token = .found r) : r ∈ rows ∧ accepts cfg token r.claimTokenHash = true := by
  simp only [judgeClaim] at h
  split at h
  · cases h
  split at h
  · cases h
  split at h
  · cases h
  · next single hfilter =>
      obtain rfl := Judgement.found.inj h
      have hmem : single ∈ rows.filter fun e => accepts cfg token e.claimTokenHash := by simp [hfilter]
      exact List.mem_filter.mp hmem
  · split at h
    · next single hfilter =>
        obtain rfl := Judgement.found.inj h
        have hmem : single ∈ (rows.filter fun e => accepts cfg token e.claimTokenHash).filter
            fun e => claimAllowed e.verifiedAt e.claimedAt := by simp [hfilter]
        exact List.mem_filter.mp (List.mem_filter.mp hmem).1
    · cases h

/-- The row of a claim request is still there, verified, and accepts the request's code. -/
def HoldsRow (cfg : EnrollConfig) (db : Db) (r : ClaimRequest) : Prop :=
  ∃ e, db.enrollments.find r.call.key = some e ∧ e.verifiedAt ≠ none ∧
    accepts cfg r.claimToken e.claimTokenHash = true

/-- Where the claim requests after a step come from: one before it whose row is still there, or a lookup
that found a verified row. -/
theorem Effect.claim_origin (heff : Effect cfg topicRoot s a s' e) {r' : ClaimRequest} (hr' : r' ∈ s'.claims)
    (hkept : r'.rowKept = true) :
    (∃ r ∈ s.claims, r.rowKept = true ∧ r.call = r'.call ∧ r.claimToken = r'.claimToken ∧
      (s'.db = s.db ∨ s'.db.enrollments.find r'.call.key ≠ none)) ∨ HoldsRow cfg s'.db r' := by
  have hwith : ∀ (s₁ : System) (db : Db), (∀ r ∈ s₁.claims, ∃ r₀ ∈ s.claims, r₀.rowKept = r.rowKept ∧
      r₀.call = r.call ∧ r₀.claimToken = r.claimToken) → r' ∈ (s₁.withDb db).claims →
      ∃ r ∈ s.claims, r.rowKept = true ∧ r.call = r'.call ∧ r.claimToken = r'.claimToken ∧
        db.enrollments.find r'.call.key ≠ none := by
    intro s₁ db hclaims hmem
    obtain ⟨r₁, hr₁, rfl⟩ := List.mem_map.mp hmem
    obtain ⟨r₀, hr₀, hkept₀, hcall, htoken⟩ := hclaims r₁ hr₁
    simp only [Bool.and_eq_true] at hkept
    exact ⟨r₀, hr₀, hkept₀.trans hkept.1, hcall, htoken, by simpa [Option.isSome_iff_ne_none] using hkept.2⟩
  have hself : ∀ r ∈ s.claims, ∃ r₀ ∈ s.claims, r₀.rowKept = r.rowKept ∧ r₀.call = r.call ∧
      r₀.claimToken = r.claimToken := fun r hr => ⟨r, hr, rfl, rfl, rfl⟩
  have hset : ∀ {i : Nat} {r : ClaimRequest}, s.claims[i]? = some r → ∀ x ∈ (s.finishClaim i r).claims,
      ∃ r₀ ∈ s.claims, r₀.rowKept = x.rowKept ∧ r₀.call = x.call ∧ r₀.claimToken = x.claimToken := by
    intro i r hr x hx
    rcases List.mem_or_eq_of_mem_set hx with hx | rfl
    · exact hself x hx
    · exact ⟨r, List.mem_of_getElem? hr, rfl, rfl, rfl⟩
  cases heff with
  | answered | refused | signed | unproved => exact .inl ⟨r', hr', hkept, rfl, rfl, .inl rfl⟩
  | announced clock nonce raced c byHolder db =>
      obtain ⟨r, hr, hk, hcall, htoken, hfind⟩ := hwith s db hself hr'
      exact .inl ⟨r, hr, hk, hcall, htoken, .inr hfind⟩
  | burned clock d k sig db b =>
      obtain ⟨r, hr, hk, hcall, htoken, hfind⟩ := hwith s db hself hr'
      exact .inl ⟨r, hr, hk, hcall, htoken, .inr hfind⟩
  | marked clock i v db =>
      obtain ⟨r, hr, hk, hcall, htoken, hfind⟩ := hwith (s.finishVerify i v) db hself hr'
      exact .inl ⟨r, hr, hk, hcall, htoken, .inr hfind⟩
  | notShaped =>
      obtain ⟨r, hr, hk, hcall, htoken, hfind⟩ := hwith s s.db hself hr'
      exact .inl ⟨r, hr, hk, hcall, htoken, .inr hfind⟩
  | judged r₁ d token =>
      obtain ⟨r, hr, hk, hcall, htoken, hfind⟩ := hwith s _ hself hr'
      exact .inl ⟨r, hr, hk, hcall, htoken, .inr hfind⟩
  | claiming r₁ user tenantID d token found ha hvalid htoken hfound hverified =>
      rcases List.mem_append.mp hr' with hold | hnew
      · obtain ⟨r, hr, hk, hcall, htoken, hfind⟩ := hwith s s.db hself hold
        exact .inl ⟨r, hr, hk, hcall, htoken, .inr hfind⟩
      · obtain rfl := List.mem_singleton.mp hnew
        obtain ⟨hmem, haccepts⟩ := judgeClaim_found hfound
        obtain ⟨hrow, rfl⟩ := mem_candidates.mp hmem
        exact .inr ⟨found, KeyedTable.find_of_mem hrow, hverified, haccepts⟩
  | unbound clock fresh i r err ha hr =>
      obtain ⟨r₀, hr₀, hk, hcall, htoken⟩ := hset hr r' hr'
      exact .inl ⟨r₀, hr₀, hk.trans hkept, hcall, htoken, .inl rfl⟩
  | bound clock fresh i r db pk ha hr =>
      obtain ⟨r, hr, hk, hcall, htoken, hfind⟩ := hwith _ db (hset hr) hr'
      exact .inl ⟨r, hr, hk, hcall, htoken, .inr hfind⟩
  | ran t =>
      obtain ⟨r, hr, hk, hcall, htoken, hfind⟩ := hwith s _ hself hr'
      exact .inl ⟨r, hr, hk, hcall, htoken, .inr hfind⟩

/-- A request whose row has not been deleted since the lookup still holds it. -/
theorem holdsRow_of_run {db₀ : Db} (hrun : (system cfg topicRoot).Run (.initial db₀) log s) :
    ∀ r ∈ s.claims, r.rowKept = true → HoldsRow cfg s.db r := by
  refine Machine.RunIf.invariant (fun _ s => ∀ r ∈ s.claims, r.rowKept = true → HoldsRow cfg s.db r) ?_ ?_ hrun
  · simp [System.initial]
  · intro log s a s' e ih _ hstep r' hr' hkept
    have heff := step_effect hstep
    rcases heff.claim_origin hr' hkept with ⟨r, hr, hk, hcall, htoken, hrow⟩ | hholds
    · obtain ⟨e₀, he₀, hverified, haccepts⟩ := ih r hr hk
      rw [hcall] at he₀
      rw [htoken] at haccepts
      rcases hrow with hsame | hsome
      · rw [← hsame] at he₀
        exact ⟨e₀, he₀, hverified, haccepts⟩
      · obtain ⟨e₁, he₁⟩ := Option.ne_none_iff_exists'.mp hsome
        obtain ⟨hverified₁, hhash⟩ := heff.verified_kept he₀ he₁ hverified
        exact ⟨e₁, he₁, hverified₁, by rw [hhash, haccepts]⟩
    · exact hholds

/-- Only a claim binds a row to a tenant. -/
theorem Effect.bind_of_claimed (heff : Effect cfg topicRoot s a s' e) {key : EnrollKey} {r r' : Enrollment}
    (hr : s.db.enrollments.find key = some r) (hr' : s'.db.enrollments.find key = some r')
    (hfree : r.claimedByTenant = none) (hbound : r'.claimedByTenant ≠ none) :
    ∃ clock fresh i req, a = .bind clock fresh i ∧ s.claims[i]? = some req ∧ req.call.key = key ∧
      claimAllowed r.verifiedAt r.claimedAt = true := by
  have hkey := KeyedTable.find_key hr
  rcases heff.row key with hsame | ⟨t, hruns, hchange⟩
  · rw [hr, hr'] at hsame
    obtain rfl := Option.some.inj hsame
    exact absurd hfree hbound
  · rw [hr, hr'] at hchange
    generalize ho : some r = o at hchange
    generalize ho' : some r' = o' at hchange
    cases hchange with
    | same =>
        rw [Option.some.inj (ho'.trans ho.symm)] at hbound
        exact absurd hfree hbound
    | deleted => cases ho'
    | inserted => cases ho
    | announced | announcedClear | cleared | burned | verified | missed | delivered =>
        cases ho
        cases ho'
        exact absurd hfree hbound
    | claimed clock fresh c _ ht hckey hallowed =>
        cases ho
        cases ho'
        subst ht
        cases a with
        | bind clock' fresh' i =>
            obtain ⟨req, hreq, heq⟩ := hruns
            cases heq
            exact ⟨clock, fresh, i, req, rfl, hreq, hckey.symm.trans hkey, hallowed⟩
        | mark | submit =>
            obtain ⟨_, _, heq⟩ := hruns
            cases heq
        | announce | sign | verify | markDelivered | reset | resetForTenant | prune | sweepOrphanClaims
        | others => cases hruns

/-- In every run whose claims bind only rows kept since their lookups, each row that is bound for the
first time is verified and accepts the code its own request submitted. -/
theorem claim_binds_own_code {db₀ : Db}
    (hrun : (system cfg topicRoot).RunIf BindsKeptRow (.initial db₀) log s) :
    ∀ a s' e, BindsKeptRow log s a → (system cfg topicRoot).step s a = some (s', e) →
      BindsOwnCode cfg s a s' := by
  intro a s' e hok hstep key r r' hr hr' hfree hbound
  have heff := step_effect hstep
  obtain ⟨clock, fresh, i, req, rfl, hreq, rfl, hallowed⟩ := heff.bind_of_claimed hr hr' hfree hbound
  have hkept : req.rowKept = true := by
    simpa [BindsKeptRow, hreq, hr, (claimAllowed_iff.mp hallowed).2] using hok
  obtain ⟨r₁, hr₁, hverified, haccepts⟩ := holdsRow_of_run hrun.run req (List.mem_of_getElem? hreq) hkept
  rw [hr] at hr₁
  obtain rfl := Option.some.inj hr₁
  obtain ⟨hverified', hhash⟩ := heff.verified_kept hr hr' hverified
  exact ⟨clock, fresh, i, req, rfl, hreq, rfl, hverified', by rw [hhash, haccepts]⟩

/-- The unit announces, proves its key and is looked up with the code on its label. -/
def lookedUp : List Action :=
  [.announce ⟨0, 0⟩ unitNonce false ⟨unitID, unitKey, unitCode⟩ true, .sign (unitID, unitKey) unitNonce,
    .verify ⟨1, 1⟩ unitID unitKey unitSig, .mark ⟨2, 2⟩ 0,
    .submit ⟨.form, some 1, some acme, unitID, unitCode, true⟩]

/-- The claim of the first request. -/
def bindFirst (t : Time) : Action := .bind ⟨t, t⟩ 7 0

theorem lookedUp_runs : ((system unitConfig "").execIf BindsKeptRow [] (.initial emptyDb) lookedUp).any
    (fun r => decide (BindsKeptRow r.1 r.2 (bindFirst 3)) && ((system unitConfig "").step r.2 (bindFirst 3)).any
      fun r' => r'.2 = .claimed (unitID, unitKey) 7) = true := by
  decide +kernel

theorem lookedUp_binds_own_code : ∃ s s', (system unitConfig "").step s (bindFirst 3) =
    some (s', .claimed (unitID, unitKey) 7) ∧ BindsOwnCode unitConfig s (bindFirst 3) s' := by
  obtain ⟨log, s, hrun, htest⟩ := Machine.exists_runIf_of_any lookedUp_runs
  obtain ⟨hok, hbinds⟩ := Bool.and_eq_true_iff.mp htest
  obtain ⟨⟨s', e⟩, hstep, he⟩ := (Option.any_eq_true _ _).mp hbinds
  obtain rfl := of_decide_eq_true he
  exact ⟨s, s', hstep, claim_binds_own_code hrun _ _ _ (of_decide_eq_true hok) hstep⟩

/-- Before the claim is made a reset clears the row; the unit starts over with another code and proves
its key again. -/
def startedOver : List Action := lookedUp ++
  [.reset unitID acme, .announce ⟨3, 3⟩ unitNonce₂ false ⟨unitID, unitKey, otherCode⟩ true,
    .sign (unitID, unitKey) unitNonce₂, .verify ⟨4, 4⟩ unitID unitKey unitSig₂, .mark ⟨5, 5⟩ 1]

/-- A row goes from unclaimed to claimed by a request whose code it does not accept. -/
def bindsOtherCode (s s' : System) : Bool :=
  ((s.db.enrollments.find (unitID, unitKey)).any fun r => r.claimedByTenant.isNone) &&
    ((s'.db.enrollments.find (unitID, unitKey)).any fun r' => r'.claimedByTenant.isSome &&
      s.claims.all fun c => !accepts unitConfig c.claimToken r'.claimTokenHash)

theorem startedOver_runs : ((system unitConfig "").execIf (fun _ _ _ => True) [] (.initial emptyDb) startedOver).any
    (fun r => ((system unitConfig "").step r.2 (bindFirst 6)).any fun r' => bindsOtherCode r.2 r'.1) = true := by
  decide +kernel

/-- The claim made with the old code then binds the row that carries the other one. -/
theorem startedOver_not_own_code : ∃ log s a s' e, (system unitConfig "").Run (.initial emptyDb) log s ∧
    (system unitConfig "").step s a = some (s', e) ∧ ¬ BindsOwnCode unitConfig s a s' := by
  obtain ⟨log, s, hrun, htest⟩ := Machine.exists_runIf_of_any startedOver_runs
  obtain ⟨⟨s', e⟩, hstep, hother⟩ := (Option.any_eq_true _ _).mp htest
  refine ⟨log, s, bindFirst 6, s', e, hrun, hstep, fun hown => ?_⟩
  obtain ⟨hold, hnew⟩ := Bool.and_eq_true_iff.mp hother
  obtain ⟨r, hr, hfree⟩ := (Option.any_eq_true _ _).mp hold
  obtain ⟨r', hr', hbound⟩ := (Option.any_eq_true _ _).mp hnew
  obtain ⟨hclaimed, hrefused⟩ := Bool.and_eq_true_iff.mp hbound
  obtain ⟨clock, fresh, i, c, -, hc, -, -, haccepts⟩ := hown _ r r' hr hr' (Option.isNone_iff_eq_none.mp hfree)
    (Option.isSome_iff_ne_none.mp hclaimed)
  have hnot := List.all_eq_true.mp hrefused c (List.mem_of_getElem? hc)
  rw [haccepts] at hnot
  cases hnot

end ThesadaApp.Enroll
