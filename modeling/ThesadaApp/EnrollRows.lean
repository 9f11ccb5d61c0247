import ThesadaApp.EnrollService

/-!
What a transaction can do to one row of `device_enrollments`. Every invariant of the table is derived
from this one list.
-/

namespace ThesadaApp.Enroll

/-- The transactions that delete rows. -/
def Tx.Deletes : Tx → Prop
  | .reset _ _ | .resetForTenant _ _ | .prune _ | .sweepOrphanClaims | .others _ _ _ => True
  | _ => False

/-- The change of the row of one key under transaction `t`. -/
inductive RowChange (cfg : EnrollConfig) (t : Tx) : Option Enrollment → Option Enrollment → Prop
  | same (o : Option Enrollment) : RowChange cfg t o o
  | deleted (e : Enrollment) (ht : t.Deletes) : RowChange cfg t (some e) none
  | inserted (clock : Clock) (nonce : String) (raced : Bool) (a : AnnounceCall)
      (ht : t = .announce clock nonce raced a) : RowChange cfg t none (some (newRow cfg clock nonce a))
  | announced (clock : Clock) (nonce : String) (raced : Bool) (a : AnnounceCall) (e : Enrollment)
      (ht : t = .announce clock nonce raced a) (hkey : e.key = a.key) :
      RowChange cfg t (some e) (some (reannounce cfg clock nonce a e))
  | announcedClear (clock : Clock) (nonce : String) (raced : Bool) (a : AnnounceCall) (e : Enrollment)
      (ht : t = .announce clock nonce raced a) (hkey : e.key = a.key) :
      RowChange cfg t (some e) (some (clearRow (reannounce cfg clock nonce a e)))
  | cleared (clock : Clock) (nonce : String) (raced : Bool) (a : AnnounceCall) (e : Enrollment)
      (ht : t = .announce clock nonce raced a) : RowChange cfg t (some e) (some (clearRow e))
  | burned (clock : Clock) (e : Enrollment) (ht : t = .verifyBurn clock e.deviceID e.pubkeyHex)
      (hopen : e.certDeliveredAt = none) : RowChange cfg t (some e) (some (burnRow clock e))
  | verified (clock : Clock) (e : Enrollment)
      (ht : t = .verifyMark clock e.deviceID e.pubkeyHex e.claimTokenHash) (hburned : e.challenge = none) :
      RowChange cfg t (some e) (some (verifyRow clock e))
  | missed (token : String) (e : Enrollment) (ht : t = .findForClaim e.deviceID token) :
      RowChange cfg t (some e) (some (missRow e))
  | delivered (clock : Clock) (token : String) (e : Enrollment)
      (ht : t = .markDelivered clock e.deviceID e.pubkeyHex token)
      (hallowed : deliverAllowed e.verifiedAt e.claimedAt e.certDeliveredAt = true) :
      RowChange cfg t (some e) (some (deliverRow clock e))
  | claimed (clock : Clock) (fresh : UUID) (c : ClaimCall) (e : Enrollment)
      (ht : t = .claimInto clock fresh c) (hkey : e.key = c.key)
      (hallowed : claimAllowed e.verifiedAt e.claimedAt = true) :
      RowChange cfg t (some e) (some (claimRow clock c e))

variable {cfg : EnrollConfig} {db db' : Db} {k : EnrollKey} {clock : Clock}

theorem announce_row {nonce : String} {raced : Bool} {a : AnnounceCall}
    (h : announce cfg db clock nonce raced a = .ok db') (k : EnrollKey) :
    RowChange cfg (.announce clock nonce raced a) (db.enrollments.find k) (db'.enrollments.find k) := by
  simp only [announce] at h
  split at h
  · cases h
  split at h
  · cases h
  split at h
  · obtain rfl := Except.ok.inj h
    rw [Db.setEnrollments_enrollments, KeyedTable.find_upsert]
    split_ifs with hk
    · subst hk
      cases hfound : db.enrollments.find (newRow cfg clock nonce a).key with
      | none => exact .inserted clock nonce raced a rfl
      | some e => exact .announced clock nonce raced a e rfl (KeyedTable.find_key hfound)
    · exact .same _
  · split at h
    · cases h
    split at h
    · obtain rfl := Except.ok.inj h
      rw [Db.setEnrollments_enrollments, rotate, KeyedTable.find_updateWhere, KeyedTable.find_updateWhere]
      cases hfound : db.enrollments.find k with
      | none => exact .same _
      | some e =>
          by_cases hkey : e.key = a.key
          · have hdevice : (reannounce cfg clock nonce a e).deviceID = a.deviceID := congrArg Prod.fst hkey
            simp only [Option.map_some, hkey, decide_true, if_true, hdevice]
            exact .announcedClear clock nonce raced a e rfl hkey
          · by_cases hdevice : e.deviceID = a.deviceID
            · simp only [Option.map_some, hkey, decide_false, Bool.false_eq_true, if_false, hdevice,
                decide_true, if_true]
              exact .cleared clock nonce raced a e rfl
            · simp only [Option.map_some, hkey, decide_false, Bool.false_eq_true, if_false, hdevice]
              exact .same _
    · obtain rfl := Except.ok.inj h
      rw [Db.setEnrollments_enrollments, rotate, KeyedTable.find_updateWhere]
      cases hfound : db.enrollments.find k with
      | none => exact .same _
      | some e =>
          by_cases hkey : e.key = a.key
          · simp only [Option.map_some, hkey, decide_true, if_true]
            exact .announced clock nonce raced a e rfl hkey
          · simp only [Option.map_some, hkey, decide_false, Bool.false_eq_true, if_false]
            exact .same _

/-- An update of the rows of one key changes that row or none. -/
theorem RowChange.of_update {t : Tx} {p : Enrollment → Bool} {f : Enrollment → Enrollment}
    (hf : ∀ r, (f r).key = r.key) (k : EnrollKey)
    (hchange : ∀ e, db.enrollments.find k = some e → p e = true → RowChange cfg t (some e) (some (f e))) :
    RowChange cfg t (db.enrollments.find k) ((db.enrollments.updateWhere p f hf).find k) := by
  rw [KeyedTable.find_updateWhere]
  cases hfound : db.enrollments.find k with
  | none => exact .same _
  | some e =>
      rw [Option.map_some]
      split
      · next hp => exact hchange e hfound hp
      · exact .same _

/-- An update of the row of the key `k₀`, which is there, changes no other row. -/
theorem RowChange.of_found {t : Tx} {p : Enrollment → Bool} {f : Enrollment → Enrollment} {e : Enrollment}
    {k₀ : EnrollKey} (hf : ∀ r, (f r).key = r.key) (k : EnrollKey) (hfound : db.enrollments.find k₀ = some e)
    (hkey : ∀ r, p r = true → r.key = k₀) (hchange : RowChange cfg t (some e) (some (f e))) :
    RowChange cfg t (db.enrollments.find k) ((db.enrollments.updateWhere p f hf).find k) := by
  refine .of_update hf k fun e' hfound' hmatch => ?_
  obtain rfl : k = k₀ := by rw [← KeyedTable.find_key hfound', hkey e' hmatch]
  rw [hfound] at hfound'
  obtain rfl := Option.some.inj hfound'
  exact hchange

/-- Deleting rows keeps or removes each one. -/
theorem deleteRows_row (db : Db) (p : Enrollment → Bool) (k : EnrollKey) :
    (deleteRows db p).enrollments.find k = db.enrollments.find k ∨ (deleteRows db p).enrollments.find k = none := by
  rw [deleteRows, Db.setEnrollments_enrollments, KeyedTable.find_deleteWhere]
  cases db.enrollments.find k with
  | none => exact .inl rfl
  | some e =>
      rw [Option.filter_some]
      split
      · exact .inl rfl
      · exact .inr rfl

theorem reset_row (db : Db) (d : String) (tenant : Slug) (k : EnrollKey) :
    (reset cfg db d tenant).enrollments.find k = db.enrollments.find k ∨
      (reset cfg db d tenant).enrollments.find k = none := by
  simp only [reset]
  split
  · rcases deleteRows_row (deleteRows db _) (ownOrUnclaimed d tenant) k with hsecond | hsecond
    · rw [hsecond]
      exact deleteRows_row db _ k
    · exact .inr hsecond
  · exact deleteRows_row db _ k

theorem RowChange.of_delete {t : Tx} (ht : t.Deletes) {o o' : Option Enrollment} (h : o' = o ∨ o' = none) :
    RowChange cfg t o o' := by
  rcases h with rfl | rfl
  · exact .same _
  · cases o with
    | none => exact .same _
    | some e => exact .deleted e ht

theorem verifyBurn_row {d key : String} {r : Db × Burned} (h : verifyBurn db clock d key = .ok r) (k : EnrollKey) :
    RowChange cfg (.verifyBurn clock d key) (db.enrollments.find k) (r.1.enrollments.find k) := by
  simp only [verifyBurn] at h
  split at h
  · cases h
  split at h
  · cases h
  split at h
  · cases h
  · next e hfound =>
      split at h
      · cases h
      · next hopen =>
          split at h
          · cases h
          · obtain rfl := Except.ok.inj h
            refine .of_found (burnRow_key clock) k hfound (fun r hkey => by simpa using hkey) ?_
            obtain ⟨rfl, rfl⟩ := Enrollment.key_eq.mp (KeyedTable.find_key hfound)
            refine .burned clock e rfl ?_
            simpa [proofAllowed] using hopen

theorem verifyMark_row (cfg : EnrollConfig) {d key hash : String} (h : verifyMark db clock d key hash = .ok db') (k : EnrollKey) :
    RowChange cfg (.verifyMark clock d key hash) (db.enrollments.find k) (db'.enrollments.find k) := by
  simp only [verifyMark] at h
  split at h
  · obtain rfl := Except.ok.inj h
    refine .of_update (verifyRow_key clock) k fun e hfound hmatch => ?_
    simp only [verifyMatches, Bool.and_eq_true, decide_eq_true_eq, Option.isNone_iff_eq_none] at hmatch
    obtain ⟨⟨hkey, rfl⟩, hburned⟩ := hmatch
    obtain ⟨rfl, rfl⟩ := Enrollment.key_eq.mp hkey
    exact .verified clock e rfl hburned
  · cases h

theorem findForClaim_row (cfg : EnrollConfig) (d token : String) (db : Db) (k : EnrollKey) :
    RowChange cfg (.findForClaim d token) (db.enrollments.find k)
      ((findForClaim cfg db d token).1.enrollments.find k) := by
  simp only [findForClaim]
  split
  · exact .same _
  · cases judgeClaim cfg (candidates db d) token with
    | unknown | locked | found e | ambiguous => exact .same _
    | wrong =>
        refine .of_update missRow_key k fun e hfound hdevice => ?_
        obtain rfl : e.deviceID = d := by simpa using hdevice
        exact .missed token e rfl

theorem markDelivered_row {d key token : String} {r : Db × Slug}
    (h : markDelivered cfg db clock d key token = .ok r) (k : EnrollKey) :
    RowChange cfg (.markDelivered clock d key token) (db.enrollments.find k) (r.1.enrollments.find k) := by
  simp only [markDelivered] at h
  split at h
  · cases h
  · next e hfound =>
      split at h
      · cases h
      split at h
      · cases h
      · next hallowed =>
          split at h
          · cases h
          · obtain rfl := Except.ok.inj h
            refine .of_found (deliverRow_key clock) k hfound (fun r hkey => by simpa using hkey) ?_
            obtain ⟨rfl, rfl⟩ := Enrollment.key_eq.mp (KeyedTable.find_key hfound)
            exact .delivered clock token e rfl (by simpa using hallowed)

/-- What a claim that succeeds does: an earlier claim of the same owner is answered again, or the row is claimed. -/
theorem claimInto_cases {fresh : UUID} {c : ClaimCall} {r : Db × UUID}
    (h : claimInto cfg db clock fresh c = .ok r) :
    ∃ e, db.enrollments.find c.key = some e ∧
      ((claimRetryAllowed e.claimedAt e.claimedByTenant c.tenantID = true ∧
          ∃ d, (db.devices.rows.find? fun d =>
              d.tenantID = c.tenantID ∧ d.deviceID = c.deviceID ∧ d.ownerUserID = some c.ownerUserID) = some d ∧
            r = (db, d.id)) ∨
        (claimAllowed e.verifiedAt e.claimedAt = true ∧
          ∃ devices pk, db.devices.upsertRow c.tenantID c.deviceID fresh (claimDevice c) = some (devices, pk) ∧
            r = ({ db.setEnrollments (db.enrollments.updateWhere (fun e => e.key = c.key)
              (claimRow clock c) (claimRow_key clock c)) with devices }, pk))) := by
  simp only [claimInto] at h
  split at h
  · cases h
  split at h
  · cases h
  · next e hfound =>
      refine ⟨e, hfound, ?_⟩
      split at h
      · next hretry =>
          split at h
          · cases h
          · next d hd => exact .inl ⟨hretry, d, hd, (Except.ok.inj h).symm⟩
      split at h
      · cases h
      · next hallowed =>
          split at h
          · cases h
          split at h
          · cases h
          split at h
          · cases h
          split at h
          · cases h
          · next devices pk hupsert =>
              exact .inr ⟨by simpa using hallowed, devices, pk, hupsert, (Except.ok.inj h).symm⟩

theorem claimInto_row {fresh : UUID} {c : ClaimCall} {r : Db × UUID}
    (h : claimInto cfg db clock fresh c = .ok r) (k : EnrollKey) :
    RowChange cfg (.claimInto clock fresh c) (db.enrollments.find k) (r.1.enrollments.find k) := by
  obtain ⟨e, hfound, ⟨-, d, -, rfl⟩ | ⟨hallowed, devices, pk, -, rfl⟩⟩ := claimInto_cases h
  · exact .same _
  · refine .of_found (claimRow_key clock c) k hfound (fun r hkey => by simpa using hkey) ?_
    exact .claimed clock fresh c e rfl (KeyedTable.find_key hfound) hallowed

/-- A transaction that fails changes no row. -/
theorem RowChange.of_outcome {α : Type} {t : Tx} {r : Except EnrollError α} {f : α → Db × Answer} (k : EnrollKey)
    (hok : ∀ a, r = .ok a → RowChange cfg t (db.enrollments.find k) ((f a).1.enrollments.find k)) :
    RowChange cfg t (db.enrollments.find k) ((outcome db r f).1.enrollments.find k) := by
  cases hr : r with
  | error e => exact .same _
  | ok a => exact hok a hr

theorem run_row (cfg : EnrollConfig) (t : Tx) (db : Db) (k : EnrollKey) :
    RowChange cfg t (db.enrollments.find k) ((t.run cfg db).1.enrollments.find k) := by
  cases t with
  | announce clock nonce raced a => exact .of_outcome k fun _ h => announce_row h k
  | verifyBurn clock d key => exact .of_outcome k fun _ h => verifyBurn_row h k
  | verifyMark clock d key hash => exact .of_outcome k fun _ h => verifyMark_row cfg h k
  | findForClaim d token => exact findForClaim_row cfg d token db k
  | markDelivered clock d key token => exact .of_outcome k fun _ h => markDelivered_row h k
  | claimInto clock fresh c => exact .of_outcome k fun _ h => claimInto_row h k
  | reset d tenant => exact .of_delete (by trivial) (reset_row db d tenant k)
  | resetForTenant d tenant =>
      refine .of_outcome k fun db' h => ?_
      simp only [resetForTenant] at h
      split at h
      · cases h
      · obtain rfl := Except.ok.inj h
        exact .of_delete (by trivial) (deleteRows_row db _ k)
  | prune clock => exact .of_delete (by trivial) (deleteRows_row db _ k)
  | sweepOrphanClaims =>
      refine .of_outcome k fun db' h => ?_
      simp only [sweepOrphanClaims] at h
      split at h
      · obtain rfl := Except.ok.inj h
        exact .of_delete (by trivial) (deleteRows_row db _ k)
      · cases h
  | others devices certificates tenants => exact .of_delete (by trivial) (deleteRows_row db _ k)

end ThesadaApp.Enroll
