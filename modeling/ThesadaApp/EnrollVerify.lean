import ThesadaApp.EnrollSystem

/-!
Verification binds the proved token. Nonces do not repeat and a key holder signs only the challenges
returned to its own announces, so whatever strangers announce in between, the token hash a row is first
verified with is the one that was stored with a challenge the holder signed, and a challenge is judged
at most once.
-/

namespace ThesadaApp.Enroll

/-- An announce of `key` that carried `claimToken` was answered with `nonce`. -/
def Issued (log : List Event) (key : EnrollKey) (claimToken nonce : String) (byHolder : Bool) : Prop :=
  ∃ owned, Event.announced key claimToken nonce byHolder owned ∈ log

/-- The hash is the digest of a token that an announce carried whose challenge the key holder signed. -/
def Proven (cfg : EnrollConfig) (log : List Event) (key : EnrollKey) (tokenHash : String) : Prop :=
  ∃ claimToken nonce, Issued log key claimToken nonce true ∧ Event.signed key nonce ∈ log ∧
    tokenHash = digest cfg claimToken

def Event.issuedNonce : Event → Option String
  | .announced _ _ nonce _ _ => some nonce
  | _ => none

def Event.holderChallenge : Event → Option (EnrollKey × String)
  | .announced key _ nonce true _ => some (key, nonce)
  | _ => none

/-- Nonces never repeat, a holder signs what was returned to its own announce, and a signature that
verifies was made. -/
def HonestProofs (cfg : EnrollConfig) (log : List Event) (s : System) : Action → Prop
  | .announce _ nonce _ _ _ => nonce ∉ log.filterMap Event.issuedNonce
  | .sign key nonce => (key, nonce) ∈ log.filterMap Event.holderChallenge
  | .mark _ i =>
      match s.verifies[i]? with
      | none => True
      | some v => verifyDeviceProof cfg.crypto v.deviceID v.pubkeyHex v.burned.challenge v.sig = .ok () →
          Event.signed v.key v.burned.challenge ∈ log
  | _ => True

instance (cfg : EnrollConfig) (log : List Event) (s : System) (a : Action) : Decidable (HonestProofs cfg log s a) :=
  match a with
  | .announce _ nonce _ _ _ => inferInstanceAs (Decidable (nonce ∉ log.filterMap Event.issuedNonce))
  | .sign key nonce => inferInstanceAs (Decidable ((key, nonce) ∈ log.filterMap Event.holderChallenge))
  | .mark _ i =>
      match hv : s.verifies[i]? with
      | none => isTrue (by simp [HonestProofs, hv])
      | some v =>
          decidable_of_iff (verifyDeviceProof cfg.crypto v.deviceID v.pubkeyHex v.burned.challenge v.sig = .ok () →
            Event.signed v.key v.burned.challenge ∈ log) (by simp [HonestProofs, hv])
  | .verify _ _ _ _ | .submit _ | .bind _ _ _ | .markDelivered _ _ _ _ | .reset _ _ | .resetForTenant _ _
  | .prune _ | .sweepOrphanClaims | .others _ _ _ => isTrue trivial

def Event.burnedChallenge : Event → Option String
  | .burned _ challenge => some challenge
  | _ => none

/-- The challenges accepted for proof checking, in order. -/
def burnedChallenges (log : List Event) : List String := log.filterMap Event.burnedChallenge

/-- The columns a proof is about. -/
structure SameProof (e e' : Enrollment) : Prop where
  tokenHash : e'.claimTokenHash = e.claimTokenHash
  challenge : e'.challenge = e.challenge
  verifiedAt : e'.verifiedAt = e.verifiedAt

/-- The transactions that write those columns. -/
def Tx.WritesProof : Tx → Prop
  | .announce _ _ _ _ | .verifyBurn _ _ _ | .verifyMark _ _ _ _ => True
  | _ => False

/-- What holds of the log and the state along every honest run. -/
structure ProofInvariant (cfg : EnrollConfig) (log : List Event) (s : System) : Prop where
  nonce_unique {key key' : EnrollKey} {claimToken claimToken' nonce : String} {byHolder byHolder' : Bool}
    (h : Issued log key claimToken nonce byHolder) (h' : Issued log key' claimToken' nonce byHolder') :
    key = key' ∧ claimToken = claimToken' ∧ byHolder = byHolder'
  signed_issued {key : EnrollKey} {nonce : String} (h : Event.signed key nonce ∈ log) :
    ∃ claimToken, Issued log key claimToken nonce true
  burned_issued {challenge : String} (h : challenge ∈ burnedChallenges log) :
    ∃ key claimToken byHolder, Issued log key claimToken challenge byHolder
  burned_nodup : (burnedChallenges log).Nodup
  row_issued {key : EnrollKey} {e : Enrollment} {challenge : String} (h : s.db.enrollments.find key = some e)
    (hchallenge : e.challenge = some challenge) : challenge ∉ burnedChallenges log ∧
      ∃ claimToken byHolder, Issued log key claimToken challenge byHolder ∧
        (e.verifiedAt = none → e.claimTokenHash = digest cfg claimToken)
  row_proven {key : EnrollKey} {e : Enrollment} (h : s.db.enrollments.find key = some e)
    (hverified : e.verifiedAt ≠ none) : Proven cfg log key e.claimTokenHash
  request_issued {v : VerifyRequest} (h : v ∈ s.verifies) :
    ∃ claimToken byHolder, Issued log v.key claimToken v.burned.challenge byHolder ∧
      (v.burned.tokenHash = digest cfg claimToken ∨ Proven cfg log v.key v.burned.tokenHash)

variable {cfg : EnrollConfig} {topicRoot : String} {log : List Event} {s s' : System} {a : Action} {e : Event}

theorem Issued.mono {key : EnrollKey} {claimToken nonce : String} {byHolder : Bool}
    (h : Issued log key claimToken nonce byHolder) (e : Event) :
    Issued (log ++ [e]) key claimToken nonce byHolder := by
  obtain ⟨owned, hmem⟩ := h
  exact ⟨owned, List.mem_append_left _ hmem⟩

theorem Proven.mono {key : EnrollKey} {tokenHash : String} (h : Proven cfg log key tokenHash) (e : Event) :
    Proven cfg (log ++ [e]) key tokenHash := by
  obtain ⟨claimToken, nonce, hissued, hsigned, hhash⟩ := h
  exact ⟨claimToken, nonce, hissued.mono e, List.mem_append_left _ hsigned, hhash⟩

theorem Issued.nonce_mem {key : EnrollKey} {claimToken nonce : String} {byHolder : Bool}
    (h : Issued log key claimToken nonce byHolder) : nonce ∈ log.filterMap Event.issuedNonce := by
  obtain ⟨owned, hmem⟩ := h
  exact List.mem_filterMap.mpr ⟨_, hmem, rfl⟩

theorem issued_of_holderChallenge {key : EnrollKey} {nonce : String}
    (h : (key, nonce) ∈ log.filterMap Event.holderChallenge) : ∃ claimToken, Issued log key claimToken nonce true := by
  obtain ⟨e, hmem, he⟩ := List.mem_filterMap.mp h
  unfold Event.holderChallenge at he
  split at he
  · next key' claimToken nonce' owned =>
      obtain ⟨rfl, rfl⟩ := Prod.mk.inj (Option.some.inj he)
      exact ⟨claimToken, owned, hmem⟩
  · cases he

/-- A request whose signature verifies under the assumption was signed. -/
theorem HonestProofs.signed {clock : Clock} {i : Nat} {v : VerifyRequest}
    (h : HonestProofs cfg log s (.mark clock i)) (hv : s.verifies[i]? = some v)
    (hproof : verifyDeviceProof cfg.crypto v.deviceID v.pubkeyHex v.burned.challenge v.sig = .ok ()) :
    Event.signed v.key v.burned.challenge ∈ log := by
  simp only [HonestProofs, hv] at h
  exact h hproof

theorem issued_snoc {key : EnrollKey} {claimToken nonce : String} {byHolder : Bool}
    (h : Issued (log ++ [e]) key claimToken nonce byHolder) :
    Issued log key claimToken nonce byHolder ∨ ∃ owned, e = .announced key claimToken nonce byHolder owned := by
  obtain ⟨owned, hmem⟩ := h
  rcases List.mem_append.mp hmem with hmem | hmem
  · exact .inl ⟨owned, hmem⟩
  · exact .inr ⟨owned, (List.mem_singleton.mp hmem).symm⟩

theorem burnedChallenges_snoc (he : e.burnedChallenge = none) :
    burnedChallenges (log ++ [e]) = burnedChallenges log := by
  simp [burnedChallenges, he]

/-- Any other transaction leaves the proof columns of a row alone. -/
theorem RowChange.sameProof {t : Tx} {o : Option Enrollment} {e' : Enrollment}
    (hchange : RowChange cfg t o (some e')) (ht : ¬ t.WritesProof) : ∃ e, o = some e ∧ SameProof e e' := by
  generalize ho' : some e' = o' at hchange
  cases hchange with
  | same => exact ⟨e', ho'.symm, ⟨rfl, rfl, rfl⟩⟩
  | deleted => cases ho'
  | inserted _ _ _ _ h | announced _ _ _ _ _ h | announcedClear _ _ _ _ _ h | cleared _ _ _ _ _ h =>
      exact absurd (h ▸ trivial) ht
  | burned _ _ h | verified _ _ h => exact absurd (h ▸ trivial) ht
  | missed _ e | delivered _ _ e | claimed _ _ _ e =>
      cases ho'
      exact ⟨e, rfl, ⟨rfl, rfl, rfl⟩⟩

theorem plainTx_not_writesProof {t : Tx} (ha : a.plainTx = some t) : ¬ t.WritesProof := by
  cases a <;> simp only [Action.plainTx, Option.some.injEq, reduceCtorEq] at ha <;> subst ha <;> exact id

/-- The events that matter to a proof. -/
def Event.OfProof : Event → Prop
  | .announced _ _ _ _ _ | .signed _ _ | .burned _ _ | .verified _ => True
  | _ => False

/-- Every other step leaves the proof columns and the burned challenges in flight alone. -/
theorem Effect.sameProof (heff : Effect cfg topicRoot s a s' e) (he : ¬ e.OfProof) :
    (∀ key r', s'.db.enrollments.find key = some r' →
      ∃ r, s.db.enrollments.find key = some r ∧ SameProof r r') ∧
    (∀ v' ∈ s'.verifies, ∃ v ∈ s.verifies, v.key = v'.key ∧ v.burned = v'.burned) := by
  have hrows : ∀ key r', s.db.enrollments.find key = some r' →
      ∃ r, s.db.enrollments.find key = some r ∧ SameProof r r' := fun key r' h => ⟨r', h, ⟨rfl, rfl, rfl⟩⟩
  have hverifies : ∀ v' ∈ s.verifies, ∃ v ∈ s.verifies, v.key = v'.key ∧ v.burned = v'.burned :=
    fun v' h => ⟨v', h, rfl, rfl⟩
  cases heff with
  | announced | signed | burned | marked => exact absurd trivial he
  | answered | refused | notShaped | claiming | unbound => exact ⟨hrows, hverifies⟩
  | unproved clock i v _ _ hv =>
      refine ⟨hrows, fun v' hmem => ?_⟩
      rcases List.mem_or_eq_of_mem_set hmem with hmem | rfl
      · exact hverifies v' hmem
      · exact ⟨v, List.mem_of_getElem? hv, rfl, rfl⟩
  | judged r d token =>
      refine ⟨fun key r' h => ?_, hverifies⟩
      have hchange := findForClaim_row cfg d token s.db key
      rw [show (findForClaim cfg s.db d token).1.enrollments.find key = some r' from h] at hchange
      exact hchange.sameProof id
  | bound clock fresh i r db pk _ _ _ hdb =>
      refine ⟨fun key r' h => ?_, hverifies⟩
      have hchange := claimInto_row hdb key
      rw [show db.enrollments.find key = some r' from h] at hchange
      exact hchange.sameProof id
  | ran t ha =>
      refine ⟨fun key r' h => ?_, hverifies⟩
      have hchange := run_row cfg t s.db key
      rw [show (t.run cfg s.db).1.enrollments.find key = some r' from h] at hchange
      exact hchange.sameProof (plainTx_not_writesProof ha)

theorem issued_snoc_of_not {key : EnrollKey} {claimToken nonce : String} {byHolder : Bool}
    (he : ∀ key claimToken nonce byHolder owned, e ≠ .announced key claimToken nonce byHolder owned)
    (h : Issued (log ++ [e]) key claimToken nonce byHolder) : Issued log key claimToken nonce byHolder := by
  rcases issued_snoc h with h | ⟨owned, rfl⟩
  · exact h
  · exact absurd rfl (he _ _ _ _ _)

/-- The invariant survives a step that issues and burns no challenge and after which each row has the
proof columns of a row before it, or no challenge and a proven token hash. -/
theorem ProofInvariant.of_rows (h : ProofInvariant cfg log s)
    (hrows : ∀ key r', s'.db.enrollments.find key = some r' →
      (∃ r, s.db.enrollments.find key = some r ∧ SameProof r r') ∨
        (r'.challenge = none ∧ Proven cfg log key r'.claimTokenHash))
    (hverifies : ∀ v' ∈ s'.verifies, ∃ v ∈ s.verifies, v.key = v'.key ∧ v.burned = v'.burned)
    (hannounced : ∀ key claimToken nonce byHolder owned, e ≠ .announced key claimToken nonce byHolder owned)
    (hburned : e.burnedChallenge = none)
    (hsigned : ∀ key nonce, e = .signed key nonce → ∃ claimToken, Issued log key claimToken nonce true) :
    ProofInvariant cfg (log ++ [e]) s' where
  nonce_unique h₁ h₂ := h.nonce_unique (issued_snoc_of_not hannounced h₁) (issued_snoc_of_not hannounced h₂)
  signed_issued {key nonce} hmem := by
    have hissued : ∃ claimToken, Issued log key claimToken nonce true := by
      rcases List.mem_append.mp hmem with hmem | hmem
      · exact h.signed_issued hmem
      · exact hsigned key nonce (List.mem_singleton.mp hmem).symm
    exact hissued.imp fun _ hissued => hissued.mono e
  burned_issued hmem := by
    rw [burnedChallenges_snoc hburned] at hmem
    obtain ⟨key, claimToken, byHolder, hissued⟩ := h.burned_issued hmem
    exact ⟨key, claimToken, byHolder, hissued.mono e⟩
  burned_nodup := by
    rw [burnedChallenges_snoc hburned]
    exact h.burned_nodup
  row_issued {key r' challenge} hrow hchallenge := by
    rcases hrows key r' hrow with ⟨r, hr, hsame⟩ | ⟨hnone, -⟩
    · rw [hsame.challenge] at hchallenge
      obtain ⟨hfresh, claimToken, byHolder, hissued, hhash⟩ := h.row_issued hr hchallenge
      rw [burnedChallenges_snoc hburned, hsame.verifiedAt, hsame.tokenHash]
      exact ⟨hfresh, claimToken, byHolder, hissued.mono e, hhash⟩
    · rw [hnone] at hchallenge
      cases hchallenge
  row_proven {key r'} hrow hverified := by
    rcases hrows key r' hrow with ⟨r, hr, hsame⟩ | ⟨-, hproven⟩
    · rw [hsame.verifiedAt] at hverified
      rw [hsame.tokenHash]
      exact (h.row_proven hr hverified).mono e
    · exact hproven.mono e
  request_issued {v'} hmem := by
    obtain ⟨v, hv, hkey, hburned⟩ := hverifies v' hmem
    obtain ⟨claimToken, byHolder, hissued, hhash⟩ := h.request_issued hv
    rw [← hkey, ← hburned]
    exact ⟨claimToken, byHolder, hissued.mono e, hhash.imp_right fun hproven => hproven.mono e⟩

/-- What the announced row becomes; every other row keeps its proof columns. -/
theorem announce_proof {db db' : Db} {clock : Clock} {nonce : String} {raced : Bool} {c : AnnounceCall}
    (hdb : announce cfg db clock nonce raced c = .ok db') {key : EnrollKey} {r' : Enrollment}
    (hrow : db'.enrollments.find key = some r') :
    (∃ r, db.enrollments.find key = some r ∧ SameProof r r') ∨
      (key = c.key ∧ r'.challenge = some nonce ∧
        ((r'.verifiedAt = none ∧ r'.claimTokenHash = digest cfg c.claimToken) ∨
          ∃ r, db.enrollments.find key = some r ∧ r.verifiedAt ≠ none ∧ r'.verifiedAt = r.verifiedAt ∧
            r'.claimTokenHash = r.claimTokenHash)) := by
  have hchange := announce_row hdb key
  have hkeyr := KeyedTable.find_key hrow
  rw [hrow] at hchange
  generalize ho : db.enrollments.find key = o at hchange
  generalize ho' : some r' = o' at hchange
  have hre : ∀ r, (some r = o) → (r'.challenge = some nonce ∧ r'.verifiedAt = r.verifiedAt ∧ r'.claimTokenHash =
      if claimTokenFrozen r.verifiedAt then r.claimTokenHash else digest cfg c.claimToken) → key = c.key →
      key = c.key ∧ r'.challenge = some nonce ∧
        ((r'.verifiedAt = none ∧ r'.claimTokenHash = digest cfg c.claimToken) ∨
          ∃ r, o = some r ∧ r.verifiedAt ≠ none ∧ r'.verifiedAt = r.verifiedAt ∧
            r'.claimTokenHash = r.claimTokenHash) := by
    rintro r rfl ⟨hchallenge, hverified, hhash⟩ hkey
    refine ⟨hkey, hchallenge, ?_⟩
    by_cases hv : r.verifiedAt = none
    · exact .inl ⟨hverified.trans hv, by simpa [claimTokenFrozen, hv] using hhash⟩
    · refine .inr ⟨r, rfl, hv, hverified, ?_⟩
      simpa [claimTokenFrozen, Option.isSome_iff_ne_none, hv] using hhash
  cases hchange with
  | same => exact .inl ⟨r', ho'.symm, ⟨rfl, rfl, rfl⟩⟩
  | deleted => cases ho'
  | inserted clock nonce raced a ht =>
      cases ho'
      cases ht
      exact .inr ⟨hkeyr.symm, rfl, .inl ⟨rfl, rfl⟩⟩
  | announced clock nonce raced a r ht hkey =>
      cases ho'
      cases ht
      exact .inr (hre r rfl ⟨rfl, rfl, rfl⟩ (hkeyr.symm.trans hkey))
  | announcedClear clock nonce raced a r ht hkey =>
      cases ho'
      cases ht
      exact .inr (hre r rfl ⟨rfl, rfl, rfl⟩ (hkeyr.symm.trans hkey))
  | cleared clock nonce raced a r =>
      cases ho'
      exact .inl ⟨r, rfl, ⟨rfl, rfl, rfl⟩⟩
  | burned _ _ ht | verified _ _ ht | missed _ _ ht | delivered _ _ _ ht | claimed _ _ _ _ ht => cases ht

/-- A fresh nonce keeps the invariant: the announced row carries its token and challenge together. -/
theorem ProofInvariant.announced (h : ProofInvariant cfg log s) {clock : Clock} {nonce : String} {raced byHolder : Bool}
    {c : AnnounceCall} {db : Db} (hdb : announce cfg s.db clock nonce raced c = .ok db)
    (hnonce : nonce ∉ log.filterMap Event.issuedNonce) (own : Bool) :
    ProofInvariant cfg (log ++ [.announced c.key c.claimToken nonce byHolder own]) (s.withDb db) := by
  have hfresh : ∀ key claimToken byHolder, ¬ Issued log key claimToken nonce byHolder :=
    fun _ _ _ hissued => hnonce hissued.nonce_mem
  have hnew : Issued (log ++ [.announced c.key c.claimToken nonce byHolder own]) c.key c.claimToken nonce byHolder :=
    ⟨own, by simp⟩
  have hunburned : nonce ∉ burnedChallenges log := fun hmem => by
    obtain ⟨key, claimToken, byHolder, hissued⟩ := h.burned_issued hmem
    exact hfresh key claimToken byHolder hissued
  constructor
  · intro key key' claimToken claimToken' nonce' b b' h₁ h₂
    rcases issued_snoc h₁ with h₁ | ⟨o₁, h₁⟩ <;> rcases issued_snoc h₂ with h₂ | ⟨o₂, h₂⟩
    · exact h.nonce_unique h₁ h₂
    · cases h₂
      exact absurd h₁ (hfresh _ _ _)
    · cases h₁
      exact absurd h₂ (hfresh _ _ _)
    · cases h₁
      cases h₂
      exact ⟨rfl, rfl, rfl⟩
  · intro key nonce' hmem
    obtain ⟨claimToken, hissued⟩ := h.signed_issued (by simpa using hmem)
    exact ⟨claimToken, hissued.mono _⟩
  · intro challenge hmem
    rw [burnedChallenges_snoc rfl] at hmem
    obtain ⟨key, claimToken, byHolder, hissued⟩ := h.burned_issued hmem
    exact ⟨key, claimToken, byHolder, hissued.mono _⟩
  · rw [burnedChallenges_snoc rfl]
    exact h.burned_nodup
  · intro key r' challenge hrow hchallenge
    rw [burnedChallenges_snoc rfl]
    rcases announce_proof hdb hrow with ⟨r, hr, hsame⟩ | ⟨rfl, hr', hcase⟩
    · rw [hsame.challenge] at hchallenge
      obtain ⟨hfreshRow, claimToken, byHolder, hissued, hhash⟩ := h.row_issued hr hchallenge
      rw [hsame.verifiedAt, hsame.tokenHash]
      exact ⟨hfreshRow, claimToken, byHolder, hissued.mono _, hhash⟩
    · obtain rfl : challenge = nonce := Option.some.inj (hchallenge.symm.trans hr')
      refine ⟨hunburned, c.claimToken, byHolder, hnew, fun hunverified => ?_⟩
      rcases hcase with ⟨-, hhash⟩ | ⟨r, -, hverified, heq, -⟩
      · exact hhash
      · exact absurd (heq.symm.trans hunverified) hverified
  · intro key r' hrow hverified
    rcases announce_proof hdb hrow with ⟨r, hr, hsame⟩ | ⟨rfl, -, ⟨hunverified, -⟩ | ⟨r, hr, hrv, -, hhash⟩⟩
    · rw [hsame.verifiedAt] at hverified
      rw [hsame.tokenHash]
      exact (h.row_proven hr hverified).mono _
    · exact absurd hunverified hverified
    · rw [hhash]
      exact (h.row_proven hr hrv).mono _
  · intro v hv
    obtain ⟨claimToken, byHolder, hissued, hhash⟩ := h.request_issued hv
    exact ⟨claimToken, byHolder, hissued.mono _, hhash.imp_right fun hproven => hproven.mono _⟩

/-- What the burn takes: a row with an open challenge, whose token hash it reads. -/
theorem verifyBurn_ok {db db' : Db} {clock : Clock} {d k : String} {b : Burned}
    (h : verifyBurn db clock d k = .ok (db', b)) :
    ∃ r, db.enrollments.find (d, k) = some r ∧ r.challenge = some b.challenge ∧ b.tokenHash = r.claimTokenHash ∧
      ∀ key r', db'.enrollments.find key = some r' →
        (key = (d, k) ∧ r' = burnRow clock r) ∨ (key ≠ (d, k) ∧ db.enrollments.find key = some r') := by
  simp only [verifyBurn] at h
  split at h
  · cases h
  split at h
  · cases h
  split at h
  · cases h
  · next r hfound =>
      split at h
      · cases h
      split at h
      · cases h
      · next husable =>
          obtain ⟨rfl, rfl⟩ := Prod.mk.inj (Except.ok.inj h)
          refine ⟨r, hfound, ?_, rfl, ?_⟩
          · have hne := challengeUsable_ne_empty (by simpa using husable)
            cases hchallenge : r.challenge with
            | none => simp [hchallenge] at hne
            | some challenge => rfl
          · intro key r' hrow
            rw [Db.setEnrollments_enrollments, KeyedTable.find_updateWhere, Option.map_eq_some_iff] at hrow
            obtain ⟨r₁, hr₁, rfl⟩ := hrow
            by_cases hkey : key = (d, k)
            · subst hkey
              rw [hfound] at hr₁
              obtain rfl := Option.some.inj hr₁
              simp [KeyedTable.find_key hfound]
            · have hkey' : r₁.key ≠ (d, k) := by
                rw [KeyedTable.find_key hr₁]
                exact hkey
              simp [hkey, hkey', hr₁]

/-- The burn keeps the invariant: the challenge it takes was on one row and had not been burned. -/
theorem ProofInvariant.burned (h : ProofInvariant cfg log s) {clock : Clock} {d k : String} {sig : List UInt8}
    {db : Db} {b : Burned} (hdb : verifyBurn s.db clock d k = .ok (db, b)) :
    ProofInvariant cfg (log ++ [.burned (d, k) b.challenge]) ((s.withDb db).addVerify ⟨d, k, sig, b, false⟩) := by
  obtain ⟨r, hr, hchallenge, hhash, hrows⟩ := verifyBurn_ok hdb
  obtain ⟨hfresh, claimToken, byHolder, hissued, hdigest⟩ := h.row_issued hr hchallenge
  have hannounced : ∀ key claimToken nonce byHolder owned,
      Event.burned (d, k) b.challenge ≠ .announced key claimToken nonce byHolder owned := by simp
  have hburned : burnedChallenges (log ++ [.burned (d, k) b.challenge]) = burnedChallenges log ++ [b.challenge] := by
    simp [burnedChallenges, Event.burnedChallenge]
  constructor
  · intro key key' claimToken claimToken' nonce b₁ b₂ h₁ h₂
    exact h.nonce_unique (issued_snoc_of_not hannounced h₁) (issued_snoc_of_not hannounced h₂)
  · intro key nonce hmem
    obtain ⟨claimToken, hissued⟩ := h.signed_issued (by simpa using hmem)
    exact ⟨claimToken, hissued.mono _⟩
  · intro challenge hmem
    rw [hburned, List.mem_append, List.mem_singleton] at hmem
    rcases hmem with hmem | rfl
    · obtain ⟨key, claimToken, byHolder, hissued⟩ := h.burned_issued hmem
      exact ⟨key, claimToken, byHolder, hissued.mono _⟩
    · exact ⟨(d, k), claimToken, byHolder, hissued.mono _⟩
  · rw [hburned, List.nodup_append]
    refine ⟨h.burned_nodup, List.nodup_singleton _, ?_⟩
    rintro challenge hmem _ hsingle rfl
    rw [List.mem_singleton] at hsingle
    exact hfresh (hsingle ▸ hmem)
  · intro key r' challenge hrow hchallenge'
    rcases hrows key r' hrow with ⟨-, rfl⟩ | ⟨hkey, hold⟩
    · simp [burnRow] at hchallenge'
    · obtain ⟨hfresh', claimToken', byHolder', hissued', hdigest'⟩ := h.row_issued hold hchallenge'
      refine ⟨?_, claimToken', byHolder', hissued'.mono _, hdigest'⟩
      rw [hburned, List.mem_append, List.mem_singleton]
      rintro (hmem | rfl)
      · exact hfresh' hmem
      · exact hkey (h.nonce_unique hissued' hissued).1
  · intro key r' hrow hverified
    rcases hrows key r' hrow with ⟨rfl, rfl⟩ | ⟨-, hold⟩
    · exact (h.row_proven hr hverified).mono _
    · exact (h.row_proven hold hverified).mono _
  · intro v hv
    rcases List.mem_append.mp hv with hv | hv
    · obtain ⟨claimToken, byHolder, hissued, hhash⟩ := h.request_issued hv
      exact ⟨claimToken, byHolder, hissued.mono _, hhash.imp_right fun hproven => hproven.mono _⟩
    · obtain rfl := List.mem_singleton.mp hv
      refine ⟨claimToken, byHolder, hissued.mono _, ?_⟩
      by_cases hverified : r.verifiedAt = none
      · exact .inl (hhash.trans (hdigest hverified))
      · refine .inr ?_
        show Proven cfg _ (d, k) b.tokenHash
        rw [hhash]
        exact (h.row_proven hr hverified).mono _

/-- The rows a verified update writes carry the token hash the request burned; the others stay. -/
theorem verifyMark_proof {db db' : Db} {clock : Clock} {d k tokenHash : String}
    (h : verifyMark db clock d k tokenHash = .ok db') {key : EnrollKey} {r' : Enrollment}
    (hrow : db'.enrollments.find key = some r') :
    db.enrollments.find key = some r' ∨
      (key = (d, k) ∧ r'.claimTokenHash = tokenHash ∧ r'.challenge = none) := by
  have hkey' := KeyedTable.find_key hrow
  have hchange := verifyMark_row ⟨⟨id, fun _ => id, fun _ _ _ => true⟩, "", 0, true⟩ h key
  rw [hrow] at hchange
  generalize ho : db.enrollments.find key = o at hchange
  generalize ho' : some r' = o' at hchange
  cases hchange with
  | same => exact .inl rfl
  | deleted => cases ho'
  | verified clock r ht hburned =>
      cases ho'
      cases ht
      exact .inr ⟨hkey'.symm, rfl, hburned⟩
  | inserted _ _ _ _ ht | announced _ _ _ _ _ ht | announcedClear _ _ _ _ _ ht | cleared _ _ _ _ _ ht
  | burned _ _ ht | missed _ _ ht | delivered _ _ _ ht | claimed _ _ _ _ ht => cases ht

/-- A request whose signature verifies carries a proven token hash. -/
theorem ProofInvariant.request_proven (h : ProofInvariant cfg log s) {v : VerifyRequest} (hv : v ∈ s.verifies)
    (hsigned : Event.signed v.key v.burned.challenge ∈ log) : Proven cfg log v.key v.burned.tokenHash := by
  obtain ⟨claimToken, byHolder, hissued, hdigest | hproven⟩ := h.request_issued hv
  · obtain ⟨claimToken', hissued'⟩ := h.signed_issued hsigned
    obtain ⟨-, rfl, rfl⟩ := h.nonce_unique hissued hissued'
    exact ⟨claimToken, v.burned.challenge, hissued, hsigned, hdigest⟩
  · exact hproven

/-- A verified update keeps the invariant: what it freezes is proven. -/
theorem ProofInvariant.marked (h : ProofInvariant cfg log s) {clock : Clock} {i : Nat} {v : VerifyRequest} {db : Db}
    (hv : s.verifies[i]? = some v) (hsigned : Event.signed v.key v.burned.challenge ∈ log)
    (hdb : verifyMark s.db clock v.deviceID v.pubkeyHex v.burned.tokenHash = .ok db) :
    ProofInvariant cfg (log ++ [.verified v.key]) ((s.finishVerify i v).withDb db) := by
  have hproven := h.request_proven (List.mem_of_getElem? hv) hsigned
  refine h.of_rows ?_ ?_ (by simp) rfl (by simp)
  · intro key r' hrow
    rcases verifyMark_proof hdb hrow with hold | ⟨rfl, hhash, hnone⟩
    · exact .inl ⟨r', hold, ⟨rfl, rfl, rfl⟩⟩
    · rw [hhash]
      exact .inr ⟨hnone, hproven⟩
  · intro v' hmem
    rcases List.mem_or_eq_of_mem_set hmem with hmem | rfl
    · exact ⟨v', hmem, rfl, rfl⟩
    · exact ⟨v, List.mem_of_getElem? hv, rfl, rfl⟩

theorem ProofInvariant.step (h : ProofInvariant cfg log s) (hok : HonestProofs cfg log s a)
    (heff : Effect cfg topicRoot s a s' e) : ProofInvariant cfg (log ++ [e]) s' := by
  by_cases he : e.OfProof
  · cases heff with
    | announced clock nonce raced c byHolder db ha hdb =>
        subst ha
        exact h.announced hdb hok _
    | burned clock d k sig db b ha hdb => exact h.burned hdb
    | signed key nonce ha =>
        subst ha
        refine h.of_rows (fun _ r' hrow => .inl ⟨r', hrow, ⟨rfl, rfl, rfl⟩⟩) (fun v hv => ⟨v, hv, rfl, rfl⟩)
          (by simp) rfl ?_
        rintro key' nonce' heq
        obtain ⟨rfl, rfl⟩ := Event.signed.inj heq
        exact issued_of_holderChallenge hok
    | marked clock i v db ha hv hopen hproof hdb =>
        subst ha
        exact h.marked hv (hok.signed hv hproof) hdb
    | answered | refused | unproved | notShaped | judged | claiming | unbound | bound | ran => exact absurd he id
  · obtain ⟨hrows, hverifies⟩ := heff.sameProof he
    refine h.of_rows (fun key r' hrow => .inl (hrows key r' hrow)) hverifies ?_ ?_ ?_
    · rintro key claimToken nonce byHolder owned rfl
      exact he trivial
    · cases e <;> first | rfl | exact absurd trivial he
    · rintro key nonce rfl
      exact absurd trivial he

theorem proofInvariant_of_run {db₀ : Db} (hempty : db₀.enrollments = ∅)
    (hrun : (system cfg topicRoot).RunIf (HonestProofs cfg) (.initial db₀) log s) : ProofInvariant cfg log s := by
  refine Machine.RunIf.invariant (fun log s => ProofInvariant cfg log s) ?_ ?_ hrun
  · exact {
      nonce_unique := by simp [Issued]
      signed_issued := by simp
      burned_issued := by simp [burnedChallenges]
      burned_nodup := List.nodup_nil
      row_issued := by simp [System.initial, hempty]
      row_proven := by simp [System.initial, hempty]
      request_issued := by simp [System.initial] }
  · intro log s a s' e ih hok hstep
    exact ih.step hok (step_effect hstep)

/-- A row becomes verified only when a request's signature has verified, and then with the token hash
that request burned. -/
theorem Effect.first_verified (heff : Effect cfg topicRoot s a s' e) {key : EnrollKey} {r' : Enrollment}
    (hrow : s'.db.enrollments.find key = some r') (hverified : r'.verifiedAt ≠ none)
    (hfirst : ∀ r, s.db.enrollments.find key = some r → r.verifiedAt = none) :
    ∃ clock i v, a = .mark clock i ∧ s.verifies[i]? = some v ∧
      verifyDeviceProof cfg.crypto v.deviceID v.pubkeyHex v.burned.challenge v.sig = .ok () ∧
      key = v.key ∧ r'.claimTokenHash = v.burned.tokenHash := by
  by_cases he : e.OfProof
  · cases heff with
    | announced clock nonce raced c byHolder db ha hdb =>
        rcases announce_proof hdb hrow with ⟨r, hr, hsame⟩ | ⟨-, -, ⟨hnone, -⟩ | ⟨r, hr, hrv, -, -⟩⟩
        · exact absurd (hsame.verifiedAt.trans (hfirst r hr)) hverified
        · exact absurd hnone hverified
        · exact absurd (hfirst r hr) hrv
    | burned clock d k sig db b ha hdb =>
        obtain ⟨r, hr, -, -, hrows⟩ := verifyBurn_ok hdb
        rcases hrows key r' hrow with ⟨rfl, rfl⟩ | ⟨-, hold⟩
        · exact absurd (hfirst r hr) hverified
        · exact absurd (hfirst r' hold) hverified
    | signed => exact absurd (hfirst r' hrow) hverified
    | marked clock i v db ha hv hopen hproof hdb =>
        rcases verifyMark_proof hdb hrow with hold | ⟨hkey, hhash, -⟩
        · exact absurd (hfirst r' hold) hverified
        · exact ⟨clock, i, v, ha, hv, hproof, hkey, hhash⟩
    | answered | refused | unproved | notShaped | judged | claiming | unbound | bound | ran => exact absurd he id
  · obtain ⟨r, hr, hsame⟩ := (heff.sameProof he).1 key r' hrow
    exact absurd (hsame.verifiedAt.trans (hfirst r hr)) hverified

/-- Verification binds the proved token. In every honest run a row is first verified with the digest of
a token whose challenge the key holder signed, its token hash then stays while the row does, and no
challenge is accepted for proof checking twice. -/
theorem verify_binds_proved_token {db₀ : Db} (hempty : db₀.enrollments = ∅)
    (hrun : (system cfg topicRoot).RunIf (HonestProofs cfg) (.initial db₀) log s) :
    (∀ a s' e, HonestProofs cfg log s a → (system cfg topicRoot).step s a = some (s', e) →
      ∀ key r', s'.db.enrollments.find key = some r' → r'.verifiedAt ≠ none →
        (∀ r, s.db.enrollments.find key = some r → r.verifiedAt = none) → Proven cfg log key r'.claimTokenHash) ∧
    (∀ a s' e, (system cfg topicRoot).step s a = some (s', e) →
      ∀ key r r', s.db.enrollments.find key = some r → s'.db.enrollments.find key = some r' →
        r.verifiedAt ≠ none → r'.verifiedAt ≠ none ∧ r'.claimTokenHash = r.claimTokenHash) ∧
    (burnedChallenges log).Nodup := by
  have hinv := proofInvariant_of_run hempty hrun
  refine ⟨?_, ?_, hinv.burned_nodup⟩
  · intro a s' e hok hstep key r' hrow hverified hfirst
    obtain ⟨clock, i, v, rfl, hv, hproof, rfl, hhash⟩ := (step_effect hstep).first_verified hrow hverified hfirst
    rw [hhash]
    exact hinv.request_proven (List.mem_of_getElem? hv) (hok.signed hv hproof)
  · intro a s' e hstep key r r' hr hr' hverified
    exact (step_effect hstep).verified_kept hr hr' hverified

/-- A stranger announces the unit's key with its own token and cannot answer; the unit announces, signs
and is verified. -/
def strangerThenUnit : List Action :=
  [.announce ⟨0, 0⟩ "strange" false ⟨unitID, unitKey, otherCode⟩ false, .verify ⟨1, 1⟩ unitID unitKey [],
    .mark ⟨2, 2⟩ 0, .announce ⟨3, 3⟩ unitNonce false ⟨unitID, unitKey, unitCode⟩ true,
    .sign (unitID, unitKey) unitNonce, .verify ⟨4, 4⟩ unitID unitKey unitSig]

/-- The verified update of the unit's request meets the assumptions and stamps its row for the first time. -/
def marksFirst (r : List Event × System) : Bool :=
  decide (HonestProofs unitConfig r.1 r.2 (.mark ⟨5, 5⟩ 1)) &&
    ((r.2.db.enrollments.find (unitID, unitKey)).all fun e => e.verifiedAt.isNone) &&
    ((system unitConfig "").step r.2 (.mark ⟨5, 5⟩ 1)).any fun r' =>
      (r'.1.db.enrollments.find (unitID, unitKey)).any fun e => e.verifiedAt.isSome

theorem strangerThenUnit_runs : ((system unitConfig "").execIf (HonestProofs unitConfig) [] (.initial emptyDb)
    strangerThenUnit).any marksFirst = true := by
  decide +kernel

/-- It freezes the digest of the unit's own code. -/
theorem strangerThenUnit_proven : ∃ log s s' e r', (system unitConfig "").step s (.mark ⟨5, 5⟩ 1) = some (s', e) ∧
    s'.db.enrollments.find (unitID, unitKey) = some r' ∧ Proven unitConfig log (unitID, unitKey) r'.claimTokenHash := by
  obtain ⟨log, s, hrun, htest⟩ := Machine.exists_runIf_of_any strangerThenUnit_runs
  simp only [marksFirst, Bool.and_eq_true] at htest
  obtain ⟨⟨hok, hunverified⟩, hmarks⟩ := htest
  obtain ⟨⟨s', e⟩, hstep, hrow⟩ := (Option.any_eq_true _ _).mp hmarks
  obtain ⟨r', hr', hverified⟩ := (Option.any_eq_true _ _).mp hrow
  refine ⟨log, s, s', e, r', hstep, hr', ?_⟩
  refine (verify_binds_proved_token rfl hrun).1 _ s' e (of_decide_eq_true hok) hstep _ r' hr'
    (Option.isSome_iff_ne_none.mp hverified) fun r hr => ?_
  rw [hr] at hunverified
  exact Option.isNone_iff_eq_none.mp hunverified

end ThesadaApp.Enroll
