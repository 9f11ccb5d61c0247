import ThesadaApp.EnrollLifecycle

/-!
First claim wins, and for which user. A claimed row does not record who claimed it: `ClaimInto` answers a replay to the
owner of the devices row of the tenant and the device id. So the runs are watched together with the user of each
row's first claim.
-/

namespace ThesadaApp.Enroll

variable {cfg : EnrollConfig}

/-- Whether a claim takes a row that nobody holds yet. -/
def takes (db : Db) (c : ClaimCall) : Bool :=
  (db.enrollments.find c.key).any fun e => claimAllowed e.verifiedAt e.claimedAt

/-- The tables, and beside them the user whose `ClaimInto` took the row of a key. -/
structure Watched where
  db : Db
  claimer : EnrollKey → Option UUID

def Watched.after (w : Watched) (t : Tx) (r : Except EnrollError Answer) : EnrollKey → Option UUID :=
  match t, r with
  | .claimInto _ _ c, .ok _ =>
      if takes w.db c then Function.update w.claimer c.key (some c.ownerUserID) else w.claimer
  | _, _ => w.claimer

/-- The service with the claimers. -/
def watched (cfg : EnrollConfig) : Machine Watched Tx (Tx × Except EnrollError Answer) where
  step w t := some (⟨(t.run cfg w.db).1, w.after t (t.run cfg w.db).2⟩, t, (t.run cfg w.db).2)

def Watched.start (db : Db) : Watched := ⟨db, fun _ => none⟩

/-- A transaction that gives the devices row of a claimed row to no other user than the claimer: a claim takes a row only
where the user also claimed the other rows of the tenant and the device id, and whatever else writes `devices` moves or
leaves no other user's row there. -/
def KeepsOwner (w : Watched) : Tx → Prop
  | .claimInto _ _ c => takes w.db c = true → ∀ e ∈ w.db.enrollments.rows, e.key ≠ c.key → e.deviceID = c.deviceID →
      e.claimedByTenant = some c.tenantID → w.claimer e.key = some c.ownerUserID
  | .others devices _ _ => ∀ e ∈ w.db.enrollments.rows, ∀ d ∈ devices.rows, e.claimedByTenant = some d.tenantID →
      d.deviceID = e.deviceID → d.ownerUserID = none ∨ d.ownerUserID = w.claimer e.key
  | _ => True

instance (w : Watched) (t : Tx) : Decidable (KeepsOwner w t) := by
  cases t <;> unfold KeepsOwner <;> infer_instance

/-- A claimed row is lost to everybody else: a claim by another tenant, or by another user than the one who claimed it
first, fails and changes nothing. -/
def FirstClaimWins (cfg : EnrollConfig) (w : Watched) : Prop :=
  ∀ clock fresh (c : ClaimCall) e, w.db.enrollments.find c.key = some e → e.claimedAt ≠ none →
    (e.claimedByTenant ≠ some c.tenantID ∨ w.claimer c.key ≠ some c.ownerUserID) →
    ∃ err, (Tx.claimInto clock fresh c).run cfg w.db = (w.db, .error err)

/-- A claimed row has its claimer, who owns the devices row unless nobody does. -/
structure Owned (w : Watched) : Prop where
  claimed : ∀ e ∈ w.db.enrollments, e.claimedByTenant ≠ none → w.claimer e.key ≠ none
  owner : ∀ e ∈ w.db.enrollments, ∀ d ∈ w.db.devices, e.claimedByTenant = some d.tenantID → d.deviceID = e.deviceID →
    d.ownerUserID = none ∨ d.ownerUserID = w.claimer e.key

variable {w w' : Watched} {t : Tx}

/-- Only a claim sets the tenant of a row. -/
theorem RowChange.claimedByTenant_eq {o : Option Enrollment} {e' : Enrollment} (hchange : RowChange cfg t o (some e'))
    (ht : ∀ clock fresh c, t ≠ .claimInto clock fresh c) (hclaimed : e'.claimedByTenant ≠ none) :
    ∃ e, o = some e ∧ e.claimedByTenant = e'.claimedByTenant := by
  generalize ho' : some e' = o' at hchange
  cases hchange with
  | same => exact ⟨e', ho'.symm, rfl⟩
  | deleted => cases ho'
  | inserted =>
      cases ho'
      exact absurd rfl hclaimed
  | claimed clock fresh c _ heq => exact absurd heq (ht clock fresh c)
  | announced clock nonce raced a e | announcedClear clock nonce raced a e | cleared clock nonce raced a e
  | burned clock e | verified clock e | missed token e | delivered clock token e =>
      cases ho'
      exact ⟨e, rfl, rfl⟩

/-- A claimed row that is there after a transaction other than a claim was there before, held by the same tenant. -/
theorem claimed_before {db : Db} {e' : Enrollment} (ht : ∀ clock fresh c, t ≠ .claimInto clock fresh c)
    (he' : e' ∈ (t.run cfg db).1.enrollments) (hclaimed : e'.claimedByTenant ≠ none) :
    ∃ e ∈ db.enrollments, e.key = e'.key ∧ e.claimedByTenant = e'.claimedByTenant := by
  have hchange := run_row cfg t db e'.key
  rw [KeyedTable.find_of_mem he'] at hchange
  obtain ⟨e, hfound, heq⟩ := hchange.claimedByTenant_eq ht hclaimed
  exact ⟨e, KeyedTable.find_mem hfound, KeyedTable.find_key hfound, heq⟩

theorem outcome_devices {α : Type} {db : Db} {r : Except EnrollError α} {f : α → Db × Answer}
    (h : ∀ a, r = .ok a → (f a).1.devices = db.devices) : (outcome db r f).1.devices = db.devices := by
  cases hr : r with
  | error e => rfl
  | ok a => exact h a hr

theorem deleteRows_devices (db : Db) (p : Enrollment → Bool) : (deleteRows db p).devices = db.devices := rfl

/-- The transactions that write only `device_enrollments`. -/
theorem run_devices (db : Db) (ht : ∀ clock fresh c, t ≠ .claimInto clock fresh c)
    (ht' : ∀ devices certificates tenants, t ≠ .others devices certificates tenants) :
    (t.run cfg db).1.devices = db.devices := by
  cases t with
  | claimInto clock fresh c => exact absurd rfl (ht clock fresh c)
  | others devices certificates tenants => exact absurd rfl (ht' devices certificates tenants)
  | announce clock nonce raced a =>
      refine outcome_devices fun db' h => ?_
      simp only [announce] at h
      grind [Db.setEnrollments]
  | verifyBurn clock d k =>
      refine outcome_devices fun r h => ?_
      simp only [verifyBurn] at h
      grind [Db.setEnrollments]
  | verifyMark clock d k hash =>
      refine outcome_devices fun db' h => ?_
      simp only [verifyMark] at h
      grind [Db.setEnrollments]
  | findForClaim d token =>
      simp only [Tx.run, findForClaim, bumpFailures]
      grind [Db.setEnrollments]
  | markDelivered clock d k token =>
      refine outcome_devices fun r h => ?_
      simp only [markDelivered] at h
      grind [Db.setEnrollments]
  | reset d tenant =>
      simp only [Tx.run, outcome, reset]
      split <;> rfl
  | resetForTenant d tenant =>
      refine outcome_devices fun db' h => ?_
      simp only [resetForTenant] at h
      grind [deleteRows_devices]
  | prune clock => rfl
  | sweepOrphanClaims =>
      refine outcome_devices fun db' h => ?_
      simp only [sweepOrphanClaims] at h
      grind [deleteRows_devices]

theorem after_of_ne (ht : ∀ clock fresh c, t ≠ .claimInto clock fresh c) (r : Except EnrollError Answer) :
    w.after t r = w.claimer := by
  cases t with
  | claimInto clock fresh c => exact absurd rfl (ht clock fresh c)
  | _ => rfl

/-- A claim that takes its row: the row is the tenant's, its claimer the user, who owns the devices row. -/
theorem Owned.claimed_step {clock : Clock} {fresh pk : UUID} {c : ClaimCall} {devices : DeviceTable} (h : Owned w)
    (htakes : takes w.db c = true) (hkeeps : KeepsOwner w (.claimInto clock fresh c))
    (hupsert : w.db.devices.upsertRow c.tenantID c.deviceID fresh (claimDevice c) = some (devices, pk)) :
    Owned ⟨{ w.db.setEnrollments (w.db.enrollments.updateWhere (fun e => e.key = c.key) (claimRow clock c)
      (claimRow_key clock c)) with devices }, Function.update w.claimer c.key (some c.ownerUserID)⟩ := by
  obtain ⟨old, -, holdtenant, holddevice, hnew, -, hrows⟩ := DeviceTable.upsertRow_spec hupsert
  have howner : ∀ d ∈ devices, d.tenantID = c.tenantID → d.deviceID = c.deviceID →
      d.ownerUserID = some c.ownerUserID := by
    intro d hd htenant hdevice
    rw [DeviceTable.eq_of_tenant_device hd hnew (htenant.trans holdtenant.symm) (hdevice.trans holddevice.symm)]
    rfl
  constructor
  · intro e' he' hclaimed
    obtain ⟨e, he, rfl⟩ := (KeyedTable.mem_updateWhere (claimRow_key clock c)).mp he'
    by_cases hkey : e.key = c.key
    · simp [hkey, claimRow_key]
    · simp only [hkey, decide_false, Bool.false_eq_true, if_false] at hclaimed ⊢
      rw [Function.update_of_ne hkey]
      exact h.claimed e he hclaimed
  · intro e' he' d hd htenant hdevice
    obtain ⟨e, he, rfl⟩ := (KeyedTable.mem_updateWhere (claimRow_key clock c)).mp he'
    by_cases hkey : e.key = c.key
    · simp only [hkey, decide_true, if_true, claimRow_key, Function.update_self] at htenant hdevice ⊢
      exact .inr (howner d hd (Option.some.inj htenant).symm (hdevice.trans (congrArg Prod.fst hkey)))
    · simp only [hkey, decide_false, Bool.false_eq_true, if_false] at htenant hdevice ⊢
      rw [Function.update_of_ne hkey]
      by_cases hsame : d.tenantID = c.tenantID ∧ d.deviceID = c.deviceID
      · -- the devices row goes to the user, who has claimed the other rows of the device id too
        rw [howner d hd hsame.1 hsame.2]
        exact .inr (hkeeps htakes e he hkey (hdevice.symm.trans hsame.2) (htenant.trans (congrArg some hsame.1))).symm
      · obtain rfl | ⟨hd, -⟩ := (hrows d).mp hd
        · exact absurd ⟨holdtenant, holddevice⟩ hsame
        · exact h.owner e he d hd htenant hdevice

/-- A claim that succeeds: the replay of one that is there, which changes nothing, or one that takes its row. -/
theorem Owned.claimInto {clock : Clock} {fresh : UUID} {c : ClaimCall} (h : Owned w)
    (hkeeps : KeepsOwner w (.claimInto clock fresh c)) :
    Owned ⟨((Tx.claimInto clock fresh c).run cfg w.db).1,
      w.after (.claimInto clock fresh c) ((Tx.claimInto clock fresh c).run cfg w.db).2⟩ := by
  cases hresult : Enroll.claimInto cfg w.db clock fresh c with
  | error err => simpa only [Tx.run, outcome, hresult, Watched.after] using h
  | ok r =>
      obtain ⟨e, hfound, ⟨hretry, d, -, rfl⟩ | ⟨hallowed, devices, pk, hupsert, rfl⟩⟩ := claimInto_cases hresult
      · have htakes : takes w.db c = false := by
          rw [takes, hfound, Option.any_some, Bool.eq_false_iff]
          exact fun hallowed => (claimRetryAllowed_iff.mp hretry).1 (claimAllowed_iff.mp hallowed).2
        simpa only [Tx.run, outcome, hresult, Watched.after, htakes, Bool.false_eq_true, if_false] using h
      · have htakes : takes w.db c = true := by rw [takes, hfound, Option.any_some, hallowed]
        simpa only [Tx.run, outcome, hresult, Watched.after, htakes, if_true] using
          h.claimed_step htakes hkeeps hupsert

theorem Owned.step {r : Tx × Except EnrollError Answer} (h : Owned w) (hkeeps : KeepsOwner w t)
    (hstep : (watched cfg).step w t = some (w', r)) : Owned w' := by
  obtain ⟨rfl, -⟩ := Prod.mk.inj (Option.some.inj hstep)
  by_cases hclaim : ∃ clock fresh c, t = .claimInto clock fresh c
  · obtain ⟨clock, fresh, c, rfl⟩ := hclaim
    exact h.claimInto hkeeps
  have ht : ∀ clock fresh c, t ≠ .claimInto clock fresh c := fun clock fresh c heq => hclaim ⟨clock, fresh, c, heq⟩
  rw [after_of_ne ht]
  constructor
  · intro e' he' hclaimed
    obtain ⟨e, he, hkey, heq⟩ := claimed_before ht he' hclaimed
    rw [← hkey]
    exact h.claimed e he (heq ▸ hclaimed)
  · intro e' he' d hd htenant hdevice
    obtain ⟨e, he, hkey, heq⟩ := claimed_before ht he' (htenant ▸ Option.some_ne_none _)
    have hdevice' : d.deviceID = e.deviceID := hdevice.trans (congrArg Prod.fst hkey).symm
    rw [← hkey]
    by_cases hothers : ∃ devices certificates tenants, t = .others devices certificates tenants
    · obtain ⟨devices, certificates, tenants, rfl⟩ := hothers
      exact hkeeps e he d hd (heq.trans htenant) hdevice'
    · have hdevices : (t.run cfg w.db).1.devices = w.db.devices :=
        run_devices w.db ht fun devices certificates tenants heq => hothers ⟨devices, certificates, tenants, heq⟩
      rw [hdevices] at hd
      exact h.owner e he d hd (heq.trans htenant) hdevice'

/-- Where the owners agree with the claimers, the first claim wins. -/
theorem Owned.firstClaimWins (h : Owned w) (hlifecycle : ∀ k e, w.db.enrollments.find k = some e → Lifecycle e) :
    FirstClaimWins cfg w := by
  intro clock fresh c e hfound hclaimed hother
  have hnone := (hlifecycle c.key e hfound).claimedAt_iff.mp hclaimed
  obtain ⟨err, herr⟩ := claimInto_refused cfg clock fresh hfound hclaimed <| by
    by_cases htenant : e.claimedByTenant = some c.tenantID
    · refine .inr fun d hd hdtenant hdevice howner => ?_
      have hkey := KeyedTable.find_key hfound
      obtain hno | heq := h.owner e (KeyedTable.find_mem hfound) d hd (htenant.trans (congrArg some hdtenant.symm))
        (hdevice.trans (congrArg Prod.fst hkey).symm)
      · rw [hno] at howner
        cases howner
      · rw [hkey, howner] at heq
        exact hother.elim (absurd htenant) (absurd heq.symm)
    · exact .inl htenant
  exact ⟨err, by simp [Tx.run, herr, outcome]⟩

variable {w₀ : Watched} {log : List (Tx × Except EnrollError Answer)}

theorem watched_run {ok : List (Tx × Except EnrollError Answer) → Watched → Tx → Prop}
    (hrun : (watched cfg).RunIf ok w₀ log w) : (service cfg).Run w₀.db log w.db := by
  induction hrun with
  | nil => exact .nil
  | snoc _ _ hstep ih =>
      obtain ⟨rfl, rfl⟩ := Prod.mk.inj (Option.some.inj hstep)
      exact ih.snoc trivial rfl

/-- First claim wins, in every run whose steps give the devices row of a claimed row to no other user than its claimer. In
every state reached each row respects the chain, every transaction keeps a kept row's claim and frozen token, a successful
claim leaves its devices row, and a later claim of a claimed row answers the same id to the tenant and the user that hold
it, and is refused to any other tenant and to any other user than the one who claimed it first. -/
theorem lifecycle_firstClaimWins (hempty : w₀.db.enrollments = ∅)
    (hrun : (watched cfg).RunIf (fun _ w t => KeepsOwner w t) w₀ log w) :
    (∀ e ∈ w.db.enrollments, Lifecycle e) ∧
    (∀ (t : Tx) k e e', w.db.enrollments.find k = some e → (t.run cfg w.db).1.enrollments.find k = some e' →
      Kept e e') ∧
    (∀ clock fresh c pk db', (Tx.claimInto clock fresh c).run cfg w.db = (db', .ok (.claimed pk)) →
      ∃ d ∈ db'.devices, d.id = pk ∧ d.tenantID = c.tenantID ∧ d.deviceID = c.deviceID ∧
        d.ownerUserID = some c.ownerUserID) ∧
    (∀ clock fresh (c : ClaimCall) pk e, (Tx.claimInto clock fresh c, .ok (.claimed pk)) ∈ log →
      w.db.enrollments.find c.key = some e → e.claimedByTenant = some c.tenantID →
      (∃ d ∈ w.db.devices, d.id = pk ∧ d.tenantID = c.tenantID ∧ d.deviceID = c.deviceID ∧
        d.ownerUserID = some c.ownerUserID) →
      ∀ clock' fresh' prefix', (Tx.claimInto clock' fresh' { c with topicPrefix := prefix' }).run cfg w.db =
        (w.db, .ok (.claimed pk))) ∧
    (∀ e ∈ w.db.enrollments, e.claimedAt ≠ none → w.claimer e.key ≠ none) ∧
    FirstClaimWins cfg w := by
  have hservice := watched_run hrun
  have hlifecycle := lifecycle_of_run hempty hservice
  have howned : Owned w := by
    refine hrun.invariant (fun _ w => Owned w) ⟨?_, ?_⟩ fun _ _ _ _ _ h hkeeps hstep => h.step hkeeps hstep
    · exact fun e he => absurd (hempty ▸ he) List.not_mem_nil
    · exact fun e he => absurd (hempty ▸ he) List.not_mem_nil
  obtain ⟨hchain, hkept, hleaves, hreplay⟩ := lifecycle_kept hempty hservice
  refine ⟨hchain, hkept, hleaves, hreplay, fun e he hclaimed => ?_, howned.firstClaimWins hlifecycle⟩
  exact howned.claimed e he ((hchain e he).claimedAt_iff.mp hclaimed)

theorem delivery_lifecycle :
    ∃ log w, (watched unitConfig).RunIf (fun _ w t => KeepsOwner w t) (.start emptyDb) log w ∧
      FirstClaimWins unitConfig w ∧
      w.db.enrollments.rows.map (fun e => (e.verifiedAt, e.claimedByTenant, e.certDeliveredAt)) =
        [(some 2, some acme, some 5)] := by
  have hexec : ((watched unitConfig).execIf (fun _ w t => KeepsOwner w t) [] (.start emptyDb) delivery).any (fun out =>
      out.2.db.enrollments.rows.map (fun e => (e.verifiedAt, e.claimedByTenant, e.certDeliveredAt)) =
        [(some 2, some acme, some 5)]) = true := by decide +kernel
  obtain ⟨log, w, hrun, hrows⟩ := Machine.exists_runIf_of_any hexec
  obtain ⟨-, -, -, -, -, hwins⟩ := lifecycle_firstClaimWins rfl hrun
  exact ⟨log, w, hrun, hwins, of_decide_eq_true hrows⟩

/-- The public key of the same unit after its flash was erased. -/
def erasedKey : String := "3b6a27bcceb6a42d62a3a8d02a6f0d73653215771de243a63ac048a18b59da29"

/-- Two keys of one device id are verified. User 1 claims the first, user 2 of the same tenant the second, which makes
user 2 the owner of the devices row. -/
def twoKeys : List Tx :=
  [.announce ⟨0, 0⟩ unitNonce false ⟨unitID, unitKey, unitCode⟩, .verifyBurn ⟨1, 1⟩ unitID unitKey,
    .verifyMark ⟨2, 2⟩ unitID unitKey (unitCrypto.sha256Hex unitCode),
    .announce ⟨3, 3⟩ unitNonce₂ false ⟨unitID, erasedKey, otherCode⟩, .verifyBurn ⟨4, 4⟩ unitID erasedKey,
    .verifyMark ⟨5, 5⟩ unitID erasedKey (unitCrypto.sha256Hex otherCode),
    .claimInto ⟨6, 6⟩ 7 ⟨unitID, unitKey, acme, 1, "thesada/acme/thesada-0123456789ab"⟩,
    .claimInto ⟨7, 7⟩ 8 ⟨unitID, erasedKey, acme, 2, "thesada/acme/thesada-0123456789ab"⟩]

/-- User 2's claim of the first key, which user 1 has claimed. -/
def secondUser : Tx := .claimInto ⟨8, 8⟩ 9 ⟨unitID, unitKey, acme, 2, "thesada/acme/thesada-0123456789ab"⟩

/-- The second user is answered with the devices row. -/
theorem twoKeys_notFirstClaimWins :
    ∃ log w, (watched unitConfig).Run (.start emptyDb) log w ∧ w.claimer (unitID, unitKey) = some 1 ∧
      (secondUser.run unitConfig w.db).2 = .ok (.claimed 7) ∧ ¬ FirstClaimWins unitConfig w := by
  have hexec : ((watched unitConfig).exec (.start emptyDb) twoKeys).any (fun out =>
      (out.2.db.enrollments.find (unitID, unitKey)).any (fun e => e.claimedAt.isSome) &&
        decide (out.2.claimer (unitID, unitKey) = some 1) &&
        decide ((secondUser.run unitConfig out.2.db).2 = .ok (.claimed 7))) = true := by decide +kernel
  obtain ⟨log, w, hrun, htest⟩ := Machine.exists_runIf_of_any hexec
  obtain ⟨htest, hanswer⟩ := Bool.and_eq_true_iff.mp htest
  obtain ⟨hfound, hclaimer⟩ := Bool.and_eq_true_iff.mp htest
  have hclaimer := of_decide_eq_true hclaimer
  have hanswer := of_decide_eq_true hanswer
  refine ⟨log, w, hrun, hclaimer, hanswer, fun hwins => ?_⟩
  obtain ⟨e, hfind, hclaimed⟩ := (Option.any_eq_true _ _).mp hfound
  obtain ⟨err, herr⟩ := hwins ⟨8, 8⟩ 9 ⟨unitID, unitKey, acme, 2, "thesada/acme/thesada-0123456789ab"⟩ e hfind
    (Option.isSome_iff_ne_none.mp hclaimed) (.inr (hclaimer ▸ by decide))
  rw [secondUser, herr] at hanswer
  cases hanswer

end ThesadaApp.Enroll
