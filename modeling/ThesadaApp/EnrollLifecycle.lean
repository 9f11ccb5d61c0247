import ThesadaApp.EnrollRows

/-!
The lifecycle of an enrollment row. A row is announced, verified, claimed and delivered in that order,
whatever the order of the transactions, and the first claim decides which tenant holds it.
-/

namespace ThesadaApp.Enroll

/-- A delivered row is claimed, a claimed one verified, and the two claim columns are set together. -/
structure Lifecycle (e : Enrollment) : Prop where
  delivered : e.certDeliveredAt ≠ none → e.claimedAt ≠ none
  claimed : e.claimedAt ≠ none → e.verifiedAt ≠ none
  claimedAt_iff : e.claimedAt ≠ none ↔ e.claimedByTenant ≠ none

/-- What stays as it is from `e` to `e'`: the claim once it is set, the token hash once it is verified. -/
structure Kept (e e' : Enrollment) : Prop where
  claimedByTenant : e.claimedByTenant ≠ none → e'.claimedByTenant = e.claimedByTenant
  claimedAt : e.claimedAt ≠ none → e'.claimedAt = e.claimedAt
  tokenHash : e.verifiedAt ≠ none → e'.claimTokenHash = e.claimTokenHash

variable {cfg : EnrollConfig} {db db₀ : Db} {t : Tx}

theorem newRow_lifecycle (clock : Clock) (nonce : String) (a : AnnounceCall) :
    Lifecycle (newRow cfg clock nonce a) :=
  ⟨by simp [newRow], by simp [newRow], by simp [newRow]⟩

/-- A transaction keeps the chain of a row it keeps. -/
theorem RowChange.lifecycle {o : Option Enrollment} {e' : Enrollment} (hchange : RowChange cfg t o (some e'))
    (ho : ∀ e, o = some e → Lifecycle e) : Lifecycle e' := by
  generalize ho' : some e' = o' at hchange
  cases hchange with
  | same => exact ho e' ho'.symm
  | deleted => cases ho'
  | inserted clock nonce raced a => cases ho'; exact newRow_lifecycle clock nonce a
  | announced clock nonce raced a e => cases ho'; exact ⟨(ho e rfl).1, (ho e rfl).2, (ho e rfl).3⟩
  | announcedClear clock nonce raced a e => cases ho'; exact ⟨(ho e rfl).1, (ho e rfl).2, (ho e rfl).3⟩
  | cleared clock nonce raced a e => cases ho'; exact ⟨(ho e rfl).1, (ho e rfl).2, (ho e rfl).3⟩
  | burned clock e => cases ho'; exact ⟨(ho e rfl).1, (ho e rfl).2, (ho e rfl).3⟩
  | missed token e => cases ho'; exact ⟨(ho e rfl).1, (ho e rfl).2, (ho e rfl).3⟩
  | verified clock e => cases ho'; exact ⟨(ho e rfl).1, fun _ => Option.some_ne_none _, (ho e rfl).3⟩
  | delivered clock token e _ hallowed =>
      cases ho'
      exact ⟨fun _ => (deliverAllowed_iff.mp hallowed).2.1, (ho e rfl).2, (ho e rfl).3⟩
  | claimed clock fresh c e _ _ hallowed =>
      cases ho'
      exact ⟨fun _ => Option.some_ne_none _, fun _ => (claimAllowed_iff.mp hallowed).1, by simp [claimRow]⟩

/-- A transaction that keeps a verified row keeps its token hash. -/
theorem RowChange.tokenHash {e e' : Enrollment} (hchange : RowChange cfg t (some e) (some e'))
    (hverified : e.verifiedAt ≠ none) : e'.claimTokenHash = e.claimTokenHash := by
  generalize ho : some e = o at hchange
  generalize ho' : some e' = o' at hchange
  cases hchange with
  | same => rw [Option.some.inj (ho'.trans ho.symm)]
  | deleted => cases ho'
  | inserted => cases ho
  | announced clock nonce raced a =>
      cases ho
      cases ho'
      simp [reannounce, claimTokenFrozen, Option.isSome_iff_ne_none, hverified]
  | announcedClear clock nonce raced a =>
      cases ho
      cases ho'
      simp [clearRow, reannounce, claimTokenFrozen, Option.isSome_iff_ne_none, hverified]
  | cleared | burned | missed | verified | delivered | claimed =>
      cases ho
      cases ho'
      rfl

/-- A transaction that keeps a verified row keeps it verified. -/
theorem RowChange.verified_kept {e e' : Enrollment} (hchange : RowChange cfg t (some e) (some e'))
    (hverified : e.verifiedAt ≠ none) : e'.verifiedAt ≠ none := by
  generalize ho : some e = o at hchange
  generalize ho' : some e' = o' at hchange
  cases hchange with
  | same => rwa [Option.some.inj (ho'.trans ho.symm)]
  | deleted => cases ho'
  | inserted => cases ho
  | verified =>
      cases ho'
      exact Option.some_ne_none _
  | announced | announcedClear | cleared | burned | missed | delivered | claimed =>
      cases ho
      cases ho'
      exact hverified

/-- A transaction keeps the frozen columns of a row it keeps. -/
theorem RowChange.kept {e e' : Enrollment} (hchange : RowChange cfg t (some e) (some e'))
    (he : Lifecycle e) : Kept e e' := by
  suffices hclaim : (e.claimedByTenant ≠ none → e'.claimedByTenant = e.claimedByTenant) ∧
      (e.claimedAt ≠ none → e'.claimedAt = e.claimedAt) from ⟨hclaim.1, hclaim.2, hchange.tokenHash⟩
  generalize ho : some e = o at hchange
  generalize ho' : some e' = o' at hchange
  cases hchange with
  | same =>
      rw [Option.some.inj (ho'.trans ho.symm)]
      exact ⟨fun _ => rfl, fun _ => rfl⟩
  | deleted => cases ho'
  | inserted => cases ho
  | announced | announcedClear | cleared | burned | missed | verified | delivered =>
      cases ho
      cases ho'
      exact ⟨fun _ => rfl, fun _ => rfl⟩
  | claimed clock fresh c _ _ _ hallowed =>
      cases ho
      cases ho'
      have hnone := (claimAllowed_iff.mp hallowed).2
      exact ⟨fun h => absurd hnone (he.claimedAt_iff.mpr h), fun h => absurd hnone h⟩

/-- The chain holds of every row in every reachable state. -/
theorem lifecycle_of_run {log : List (Tx × Except EnrollError Answer)} (hempty : db₀.enrollments = ∅)
    (hrun : (service cfg).Run db₀ log db) : ∀ k e, db.enrollments.find k = some e → Lifecycle e := by
  refine Machine.RunIf.invariant (fun _ db => ∀ k e, db.enrollments.find k = some e → Lifecycle e) ?_ ?_ hrun
  · intro k e he
    simp [hempty] at he
  · intro log db t db' event ih _ hstep k e' he'
    obtain ⟨rfl, rfl⟩ := Prod.mk.inj (Option.some.inj hstep)
    have hchange := run_row cfg t db k
    rw [he'] at hchange
    exact hchange.lifecycle fun e he => ih k e he

/-- A claim that succeeds: either the replay of one that is already there, or the first one. -/
theorem claimInto_ok {clock : Clock} {fresh pk : UUID} {c : ClaimCall} {db' : Db}
    (h : claimInto cfg db clock fresh c = .ok (db', pk)) :
    ∃ e, db.enrollments.find c.key = some e ∧
      ((claimRetryAllowed e.claimedAt e.claimedByTenant c.tenantID = true ∧ db' = db ∧
          ∃ d ∈ db.devices, d.id = pk ∧ d.tenantID = c.tenantID ∧ d.deviceID = c.deviceID ∧
            d.ownerUserID = some c.ownerUserID) ∨
        (claimAllowed e.verifiedAt e.claimedAt = true ∧
          db.devices.upsertRow c.tenantID c.deviceID fresh (claimDevice c) = some (db'.devices, pk))) := by
  obtain ⟨e, hfound, ⟨hretry, d, hd, heq⟩ | ⟨hallowed, devices, pk', hupsert, heq⟩⟩ := claimInto_cases h
  · obtain ⟨rfl, rfl⟩ := Prod.mk.inj heq
    refine ⟨e, hfound, .inl ⟨hretry, rfl, d, List.mem_of_find?_eq_some hd, rfl, ?_⟩⟩
    simpa using List.find?_some hd
  · obtain ⟨rfl, rfl⟩ := Prod.mk.inj heq
    exact ⟨e, hfound, .inr ⟨hallowed, hupsert⟩⟩

/-- A successful claim leaves the devices row it answers with. -/
theorem claimInto_leaves_device {clock : Clock} {fresh pk : UUID} {c : ClaimCall} {db' : Db}
    (h : claimInto cfg db clock fresh c = .ok (db', pk)) :
    ∃ d ∈ db'.devices, d.id = pk ∧ d.tenantID = c.tenantID ∧ d.deviceID = c.deviceID ∧
      d.ownerUserID = some c.ownerUserID := by
  obtain ⟨e, -, ⟨-, rfl, hdevice⟩ | ⟨-, hupsert⟩⟩ := claimInto_ok h
  · exact hdevice
  · obtain ⟨old, rfl, htenant, hdeviceID, hmem, -, -⟩ := DeviceTable.upsertRow_spec hupsert
    exact ⟨claimDevice c old, hmem, rfl, htenant, hdeviceID, rfl⟩

/-- The owner of a claimed row's devices row gets that row's id again, and nothing changes. -/
theorem claimInto_replay (cfg : EnrollConfig) (clock : Clock) (fresh : UUID) {c : ClaimCall} {e : Enrollment} {d : Device}
    (howner : c.ownerUserID ≠ UUID.nil) (hfound : db.enrollments.find c.key = some e)
    (hclaimed : e.claimedAt ≠ none) (htenant : e.claimedByTenant = some c.tenantID) (hd : d ∈ db.devices)
    (hdtenant : d.tenantID = c.tenantID) (hdevice : d.deviceID = c.deviceID)
    (hdowner : d.ownerUserID = some c.ownerUserID) : claimInto cfg db clock fresh c = .ok (db, d.id) := by
  have hretry : claimRetryAllowed e.claimedAt e.claimedByTenant c.tenantID = true :=
    claimRetryAllowed_iff.mpr ⟨hclaimed, htenant⟩
  simp only [claimInto, if_neg howner, hfound, hretry, if_true]
  cases hfind : db.devices.rows.find? fun d =>
      d.tenantID = c.tenantID ∧ d.deviceID = c.deviceID ∧ d.ownerUserID = some c.ownerUserID with
  | none => exact absurd (List.find?_eq_none.mp hfind d hd) (by simp [hdtenant, hdevice, hdowner])
  | some d' =>
      have hd' : d'.tenantID = c.tenantID ∧ d'.deviceID = c.deviceID ∧ d'.ownerUserID = some c.ownerUserID := by
        simpa using List.find?_some hfind
      have heq : d' = d := DeviceTable.eq_of_tenant_device (List.mem_of_find?_eq_some hfind) hd
        (by rw [hd'.1, hdtenant]) (by rw [hd'.2.1, hdevice])
      rw [heq]

/-- Nobody else claims a claimed row: neither another tenant, nor a user who does not own the devices
row. -/
theorem claimInto_refused (cfg : EnrollConfig) (clock : Clock) (fresh : UUID) {c : ClaimCall} {e : Enrollment}
    (hfound : db.enrollments.find c.key = some e) (hclaimed : e.claimedAt ≠ none)
    (hother : e.claimedByTenant ≠ some c.tenantID ∨
      ∀ d ∈ db.devices, d.tenantID = c.tenantID → d.deviceID = c.deviceID → d.ownerUserID ≠ some c.ownerUserID) :
    ∃ err, claimInto cfg db clock fresh c = .error err := by
  cases hresult : claimInto cfg db clock fresh c with
  | error err => exact ⟨err, rfl⟩
  | ok r =>
      obtain ⟨db', pk⟩ := r
      obtain ⟨e', hfound', hcase⟩ := claimInto_ok hresult
      obtain rfl : e = e' := Option.some.inj (hfound.symm.trans hfound')
      rcases hcase with ⟨hretry, -, d, hd, -, hdtenant, hdevice, howner⟩ | ⟨hallowed, -⟩
      · rcases hother with hother | hother
        · exact absurd (claimRetryAllowed_iff.mp hretry).2 hother
        · exact absurd howner (hother d hd hdtenant hdevice)
      · exact absurd (claimAllowed_iff.mp hallowed).2 hclaimed

theorem run_claimInto_ok {clock : Clock} {fresh pk : UUID} {c : ClaimCall} {db' : Db}
    (h : (Tx.claimInto clock fresh c).run cfg db = (db', .ok (.claimed pk))) :
    claimInto cfg db clock fresh c = .ok (db', pk) := by
  simp only [Tx.run, outcome] at h
  split at h
  · cases h
  · next r hr =>
      obtain ⟨rfl, hpk⟩ := Prod.mk.inj h
      rw [hr, ← Answer.claimed.inj (Except.ok.inj hpk)]

/-- A claim in the log was made by a user. -/
theorem owner_ne_nil {log : List (Tx × Except EnrollError Answer)} {clock : Clock} {fresh pk : UUID}
    {c : ClaimCall} (hrun : (service cfg).Run db₀ log db)
    (hlog : (Tx.claimInto clock fresh c, .ok (.claimed pk)) ∈ log) : c.ownerUserID ≠ UUID.nil := by
  obtain ⟨pre, post, rfl⟩ := List.append_of_mem hlog
  obtain ⟨db₁, tx, db₂, -, -, hstep, -⟩ := hrun.at_event
  obtain ⟨-, hevent⟩ := Prod.mk.inj (Option.some.inj hstep)
  obtain ⟨rfl, hanswer⟩ := Prod.mk.inj hevent
  intro hnil
  simp [Tx.run, claimInto, hnil, outcome] at hanswer

/-- Whatever the order of the transactions: in every reachable state each row respects the chain, every transaction keeps
a kept row's claim and frozen token, a successful claim leaves its devices row, and a claim is answered again with the
same id to the tenant and the user that made it while they hold the row and its devices row. -/
theorem lifecycle_kept {log : List (Tx × Except EnrollError Answer)}
    (hempty : db₀.enrollments = ∅) (hrun : (service cfg).Run db₀ log db) :
    (∀ e ∈ db.enrollments, Lifecycle e) ∧
    (∀ (t : Tx) k e e', db.enrollments.find k = some e → (t.run cfg db).1.enrollments.find k = some e' →
      Kept e e') ∧
    (∀ clock fresh c pk db', (Tx.claimInto clock fresh c).run cfg db = (db', .ok (.claimed pk)) →
      ∃ d ∈ db'.devices, d.id = pk ∧ d.tenantID = c.tenantID ∧ d.deviceID = c.deviceID ∧
        d.ownerUserID = some c.ownerUserID) ∧
    (∀ clock fresh (c : ClaimCall) pk e, (Tx.claimInto clock fresh c, .ok (.claimed pk)) ∈ log →
      db.enrollments.find c.key = some e → e.claimedByTenant = some c.tenantID →
      (∃ d ∈ db.devices, d.id = pk ∧ d.tenantID = c.tenantID ∧ d.deviceID = c.deviceID ∧
        d.ownerUserID = some c.ownerUserID) →
      ∀ clock' fresh' prefix', (Tx.claimInto clock' fresh' { c with topicPrefix := prefix' }).run cfg db =
        (db, .ok (.claimed pk))) := by
  have hlifecycle := lifecycle_of_run hempty hrun
  refine ⟨fun e he => hlifecycle e.key e (KeyedTable.find_of_mem he), ?_, ?_, ?_⟩
  · intro t k e e' he he'
    have hchange := run_row cfg t db k
    rw [he, he'] at hchange
    exact hchange.kept (hlifecycle k e he)
  · intro clock fresh c pk db' h
    exact claimInto_leaves_device (run_claimInto_ok h)
  · rintro clock fresh c pk e hlog hfound htenant ⟨d, hd, rfl, hdtenant, hdevice, howner⟩ clock' fresh' prefix'
    have hclaimed : e.claimedAt ≠ none := (hlifecycle _ e hfound).claimedAt_iff.mpr (by simp [htenant])
    have hnil := owner_ne_nil hrun hlog
    have hreplay := claimInto_replay cfg clock' fresh' (c := { c with topicPrefix := prefix' }) hnil hfound hclaimed htenant
      hd hdtenant hdevice howner
    simp [Tx.run, hreplay, outcome]

/-- A unit's device id, its public key, and the code on its label. -/
def unitID : String := "thesada-0123456789ab"

def unitKey : String := "8a88e3dd7409f195fd52db2d3cba5d72ca6709bf1d94121bf3748801b40f6f5c"

def unitCode : String := "12345678"

/-- A second code, which the unit shows after it restarts its portal. -/
def otherCode : String := "87654321"

def unitNonce : String := "aaaaaaaaaaaaaaaaaaaaaaaaaaaaaaaaaaaaaaaaaaaaaaaaaaaaaaaaaaaaaaaa"

/-- The signature over `unitNonce` by the unit's key. -/
def unitSig : List UInt8 :=
  [32, 176, 54, 176, 16, 66, 1, 230, 112, 91, 152, 50, 61, 158, 85, 218, 79, 244, 112, 95, 191, 210, 30, 119,
    89, 151, 66, 238, 204, 213, 49, 209, 72, 28, 220, 49, 35, 150, 69, 180, 240, 122, 53, 100, 1, 78, 236, 141,
    43, 22, 139, 58, 122, 92, 54, 79, 145, 156, 152, 229, 187, 32, 182, 13]

def unitNonce₂ : String := "bbbbbbbbbbbbbbbbbbbbbbbbbbbbbbbbbbbbbbbbbbbbbbbbbbbbbbbbbbbbbbbb"

/-- The signature over `unitNonce₂` by the unit's key. -/
def unitSig₂ : List UInt8 :=
  [234, 3, 190, 126, 16, 36, 252, 190, 253, 12, 225, 124, 65, 82, 14, 128, 227, 211, 24, 34, 98, 34, 93, 52,
    229, 129, 24, 28, 133, 226, 194, 115, 3, 160, 83, 22, 88, 79, 18, 216, 230, 255, 175, 125, 107, 199, 157,
    127, 213, 199, 63, 215, 135, 11, 229, 41, 109, 138, 101, 41, 207, 248, 107, 5]

/-- SHA-256 on the two codes and Ed25519 on the unit's two signatures. -/
def unitCrypto : Crypto where
  sha256Hex token :=
    if token = unitCode then "ef797c8118f02dfb649607dd5d3f8c7623048c9c063d532cc95c5ed7a898a64f"
    else if token = otherCode then "e24df920078c3dd4e7e8d2442f00e5c9ab2a231bb3918d65cc50906e49ecaef4"
    else ""
  hmacHex _ _ := ""
  ed25519Verify pub challenge sig :=
    pub = unitKey && ((challenge = unitNonce && sig = unitSig) || (challenge = unitNonce₂ && sig = unitSig₂))

def unitConfig : EnrollConfig := ⟨unitCrypto, "", 0, true⟩

def emptyDb : Db := ⟨∅, ∅, [], [defaultTenant, acme]⟩

/-- Announce, verify, claim into acme, claim again and deliver. -/
def delivery : List Tx :=
  [.announce ⟨0, 0⟩ unitNonce false ⟨unitID, unitKey, unitCode⟩, .verifyBurn ⟨1, 1⟩ unitID unitKey,
    .verifyMark ⟨2, 2⟩ unitID unitKey (unitCrypto.sha256Hex unitCode), .findForClaim unitID unitCode,
    .claimInto ⟨3, 3⟩ 7 ⟨unitID, unitKey, acme, 1, "thesada/acme/thesada-0123456789ab"⟩,
    .claimInto ⟨4, 4⟩ 8 ⟨unitID, unitKey, acme, 1, "thesada/acme/thesada-0123456789ab"⟩,
    .markDelivered ⟨5, 5⟩ unitID unitKey unitCode]

end ThesadaApp.Enroll
