import ThesadaApp.CertRevocation
import ThesadaApp.EnrollDelivery
import ThesadaApp.EnrollLifecycle

/-!
What a certificate is minted for. The insert of a cert request is two transactions after its judgement, so the
enrollment it judged may be sealed or gone by then. It is exactly the requests that nothing overtakes whose
certificates are for a live enrollment; and if all are, nothing is minted after a seal or a revoke.
-/

namespace ThesadaApp.Delivery

open EnrollApi

/-- The row is there, verified, claimed by the tenant and not delivered. -/
def LiveRow (tenant : Slug) (row : Option Enrollment) : Prop :=
  ∃ e, row = some e ∧ e.verifiedAt ≠ none ∧ e.claimedAt ≠ none ∧ e.claimedByTenant = some tenant ∧ e.certDeliveredAt = none

/-- Every certificate was inserted while its enrollment was live. -/
def MintsLive (log : List Event) : Prop :=
  ∀ i key tenant devicePk row, Event.inserted i key tenant devicePk row ∈ log → LiveRow tenant row

/-- Between a request's judgement and its insert its row was not sealed and its device id not reset. -/
def Undisturbed (log : List Event) : Prop :=
  ∀ pre mid post i key tenant devicePk row,
    log = pre ++ Event.judged i key :: mid ++ Event.inserted i key tenant devicePk row :: post →
    Event.sealed key ∉ mid ∧ Event.reset key.1 ∉ mid

/-- Nothing is inserted for an enrollment after its seal, nor for a device after it was revoked, nor under its
device id from the reset on that comes before the revoke. -/
structure NoneAfter (log : List Event) : Prop where
  afterSeal : ∀ pre post key, log = pre ++ Event.sealed key :: post → ∀ i tenant devicePk row,
    Event.inserted i key tenant devicePk row ∉ post
  afterReset : ∀ pre post deviceID, log = pre ++ Event.reset deviceID :: post → ∀ i pubkey tenant devicePk row,
    Event.inserted i (deviceID, pubkey) tenant devicePk row ∉ post
  afterRevoke : ∀ pre post devicePk, log = pre ++ Event.revoked devicePk :: post → ∀ i key tenant row,
    Event.inserted i key tenant devicePk row ∉ post

def State.find (s : State) (key : EnrollKey) : Option Enrollment := s.backend.enrollments.find key

def State.devices (s : State) : DeviceTable := s.backend.store.devices

section calls

variable {cfg : Config} {db db' : Db}

theorem pollAnswer_live {e : Enrollment} {tenant : Slug} (h : pollAnswer e = .ok tenant) : LiveRow tenant (some e) := by
  unfold pollAnswer at h
  split at h
  · cases h
  · next hverified =>
      split at h
      · next claimed tenant' hclaimed htenant =>
          split at h
          · cases h
          · next hdelivered =>
              obtain rfl := Except.ok.inj h
              exact ⟨e, rfl, fun hnone => hverified (by rw [hnone]; rfl), by rw [hclaimed]; exact Option.some_ne_none _, htenant,
                Option.not_isSome_iff_eq_none.mp hdelivered⟩
      · cases h

theorem certEnrollment_live {req : EnrollCertReq} {e : Enrollment} {tenant : Slug}
    (h : certEnrollment cfg db req = .ok (e, tenant)) :
    db.enrollments.find (req.deviceID, req.pubkey) = some e ∧ LiveRow tenant (some e) := by
  unfold certEnrollment at h
  split at h
  · cases h
  · next e' hfind =>
      cases hpoll : pollAnswer e' with
      | error answer =>
          rw [hpoll] at h
          cases h
      | ok tenant' =>
          rw [hpoll] at h
          obtain ⟨rfl, rfl⟩ := Prod.mk.inj (Except.ok.inj h)
          refine ⟨?_, pollAnswer_live hpoll⟩
          unfold Enroll.findByDeviceKey at hfind
          split at hfind
          · cases hfind
          · split at hfind
            · cases hfind
            · split at hfind
              · cases hfind
              · next hrow =>
                  split at hfind
                  · rw [← Except.ok.inj hfind]
                    exact hrow
                  · cases hfind

/-- A seal marks its row and no other, and brings none back. -/
theorem markDelivered_row {clock : Clock} {deviceID pubkeyHex claimToken : String} {tenant : Slug}
    (h : Enroll.markDelivered cfg.enroll db clock deviceID pubkeyHex claimToken = .ok (db', tenant)) (key : EnrollKey) :
    (db.enrollments.find key = none → db'.enrollments.find key = none) ∧
      if key = (deviceID, pubkeyHex) then ∀ r, db'.enrollments.find key = some r → r.certDeliveredAt ≠ none
      else db'.enrollments.find key = db.enrollments.find key := by
  unfold Enroll.markDelivered at h
  split at h
  · cases h
  · split at h
    · cases h
    · split at h
      · cases h
      · split at h
        · cases h
        · obtain ⟨rfl, -⟩ := Prod.mk.inj (Except.ok.inj h)
          rw [Db.setEnrollments_enrollments, KeyedTable.find_updateWhere]
          refine ⟨fun hnone => by rw [hnone]; rfl, ?_⟩
          split
          · next hkey =>
              intro r hr
              obtain ⟨old, hold, rfl⟩ := Option.map_eq_some_iff.mp hr
              have hsame : old.key = (deviceID, pubkeyHex) := (KeyedTable.find_key hold).trans hkey
              rw [if_pos (decide_eq_true hsame)]
              exact Option.some_ne_none _
          · next hkey =>
              cases hfind : db.enrollments.find key with
              | none => rfl
              | some old =>
                  have hother : old.key ≠ (deviceID, pubkeyHex) := by
                    rw [KeyedTable.find_key hfind]
                    exact hkey
                  rw [Option.map_some, if_neg (by rw [decide_eq_true_eq]; exact hother)]

/-- A reset that is not refused leaves no row of its device id, and the others as they were. -/
theorem resetForTenant_row {deviceID : String} {tenantID : Slug}
    (h : Enroll.resetForTenant db deviceID tenantID = .ok db') (key : EnrollKey) :
    db'.enrollments.find key = if key.1 = deviceID then none else db.enrollments.find key := by
  unfold Enroll.resetForTenant at h
  split at h
  · cases h
  · next helsewhere =>
      obtain rfl := Except.ok.inj h
      rw [Enroll.deleteRows, Db.setEnrollments_enrollments, KeyedTable.find_deleteWhere]
      cases hfind : db.enrollments.find key with
      | none => exact (ite_self none).symm
      | some r =>
          have hkey := KeyedTable.find_key hfind
          have hdevice : r.deviceID = key.1 := congrArg Prod.fst hkey
          split
          · next hsame =>
              rw [Option.filter_some, if_neg]
              have hmine : ¬ (r.claimedByTenant.isSome = true ∧ r.claimedByTenant ≠ some tenantID) := by
                rintro ⟨hsome, hne⟩
                exact helsewhere (List.any_eq_true.mpr ⟨r, KeyedTable.find_mem hfind, by simp [hdevice, hsame, hsome, hne]⟩)
              cases hclaimed : r.claimedByTenant with
              | none => simp [Enroll.ownOrUnclaimed, hclaimed, hdevice, hsame]
              | some t =>
                  have ht : t = tenantID := by
                    by_contra hne
                    exact hmine ⟨by rw [hclaimed]; rfl, by rw [hclaimed]; exact fun heq => hne (Option.some.inj heq)⟩
                  simp [Enroll.ownOrUnclaimed, hclaimed, hdevice, hsame, ht]
          · next hother =>
              rw [Option.filter_some, if_pos]
              simp [Enroll.ownOrUnclaimed, hdevice, hother]

theorem issueCert_devices {sign : String → Option SignedCert} {store store' : Certs.Store} {tenant : Slug}
    {device : Device} {clock : Clock} {certID : Nat} {pubkey : String} {c : SignedCert}
    (h : issueCert sign store tenant device clock certID pubkey = .ok (store', c)) : store'.devices = store.devices := by
  unfold issueCert at h
  dsimp only at h
  split at h
  · cases h
  · split at h
    · cases h
    · next hissue =>
        obtain ⟨rfl, -⟩ := Prod.mk.inj (Except.ok.inj h)
        unfold Certs.issueWithIdentity at hissue
        split at hissue
        · cases hissue
        · obtain ⟨⟨store₁, row⟩, htx, heq⟩ := map_eq_ok hissue
          obtain ⟨-, -, hdevices, -⟩ := Certs.issueTx_effect htx
          rw [← (Prod.mk.inj heq).1]
          exact hdevices

end calls

/-- A cert request that goes on has judged a live row, which is still there as it was, or was overtaken since. -/
structure Judged (log : List Event) (s : State) (i : Nat) (req : EnrollCertReq) (e : Enrollment) (tenant : Slug) :
    Prop where
  live : LiveRow tenant (some e)
  key : e.key = (req.deviceID, req.pubkey)
  kept : ∃ pre mid, log = pre ++ Event.judged i e.key :: mid ∧
    (s.find e.key = some e ∨ Event.sealed e.key ∈ mid ∨ Event.reset e.key.1 ∈ mid)

def PhaseInv (log : List Event) (s : State) (i : Nat) : Phase → Prop
  | .certDevice req e tenant => Judged log s i req e tenant
  | .certIssue req e tenant device => Judged log s i req e tenant ∧ device ∈ s.devices ∧ device.deviceID = e.key.1
  | .revokeReset device => device ∈ s.devices
  | .revokeCerts device => device ∈ s.devices ∧ Event.reset device.deviceID ∈ log
  | _ => True

structure Inv (log : List Event) (s : State) : Prop where
  sealed : ∀ key, Event.sealed key ∈ log → ∀ r, s.find key = some r → r.certDeliveredAt ≠ none
  reset : ∀ deviceID, Event.reset deviceID ∈ log → ∀ pubkey, s.find (deviceID, pubkey) = none
  revoked : ∀ devicePk, Event.revoked devicePk ∈ log →
    ∃ d ∈ s.devices, d.id = devicePk ∧ Event.reset d.deviceID ∈ log
  phase : ∀ i phase, s.requests[i]? = some phase → PhaseInv log s i phase

/-- What a step does to the enrollments and the devices, with the event that tells of it. -/
structure StepSpec (s s' : State) (e : Event) : Prop where
  devices : s'.devices = s.devices
  gone : ∀ key, s.find key = none → s'.find key = none
  row : ∀ key, s'.find key = s.find key ∨ e = .sealed key ∨ e = .reset key.1
  sealed : ∀ key, e = .sealed key → ∀ r, s'.find key = some r → r.certDeliveredAt ≠ none
  reset : ∀ deviceID, e = .reset deviceID → ∀ pubkey, s'.find (deviceID, pubkey) = none

section steps

variable {cfg : Config} {log : List Event} {s s' : State} {e : Event}

/-- A step that keeps the enrollments and the devices. -/
theorem StepSpec.keep (hdevices : s'.devices = s.devices) (hfind : ∀ key, s'.find key = s.find key)
    (hsealed : ∀ key, e ≠ .sealed key) (hreset : ∀ deviceID, e ≠ .reset deviceID) : StepSpec s s' e where
  devices := hdevices
  gone key hnone := (hfind key).trans hnone
  row key := Or.inl (hfind key)
  sealed key h := absurd h (hsealed key)
  reset deviceID h := absurd h (hreset deviceID)

theorem markDelivered_spec {clock : Clock} {req : EnrollCertReq} {db : Db} {tenant : Slug}
    (h : Enroll.markDelivered cfg.enroll s.backend.db clock req.deviceID req.pubkey req.claimToken = .ok (db, tenant))
    (hbackend : s'.backend = s.backend.setEnrollments db) : StepSpec s s' (.sealed (req.deviceID, req.pubkey)) := by
  have hfind : ∀ key, s'.find key = db.enrollments.find key := fun key => by
    rw [State.find, hbackend]
    rfl
  refine ⟨by rw [State.devices, hbackend]; rfl, fun key hnone => ?_, fun key => ?_, fun key hkey => ?_, nofun⟩
  · rw [hfind]
    exact (markDelivered_row h key).1 hnone
  · have hrow := (markDelivered_row h key).2
    rw [hfind]
    split at hrow
    · next heq => exact Or.inr (Or.inl (by rw [heq]))
    · exact Or.inl hrow
  · have hrow := (markDelivered_row h key).2
    rw [if_pos (Event.sealed.inj hkey).symm] at hrow
    rw [hfind]
    exact hrow

theorem resetForTenant_spec {db : Db} {deviceID : String} {tenantID : Slug}
    (h : Enroll.resetForTenant s.backend.db deviceID tenantID = .ok db)
    (hbackend : s'.backend = s.backend.setEnrollments db) : StepSpec s s' (.reset deviceID) := by
  have hfind : ∀ key, s'.find key = if key.1 = deviceID then none else s.find key := fun key => by
    rw [State.find, hbackend]
    exact resetForTenant_row h key
  refine ⟨by rw [State.devices, hbackend]; rfl, fun key hnone => ?_, fun key => ?_, nofun, fun deviceID' heq pubkey => ?_⟩
  · rw [hfind, hnone, ite_self]
  · rw [hfind]
    split
    · next hsame => exact Or.inr (Or.inr (by rw [hsame]))
    · exact Or.inl rfl
  · rw [hfind, if_pos (Event.reset.inj heq).symm]

theorem Judged.step (hspec : StepSpec s s' e) {i : Nat} {req : EnrollCertReq} {row : Enrollment} {tenant : Slug}
    (h : Judged log s i req row tenant) : Judged (log ++ [e]) s' i req row tenant := by
  obtain ⟨hlive, hkey, pre, mid, hlog, hkept⟩ := h
  refine ⟨hlive, hkey, pre, mid ++ [e], by rw [hlog, List.append_assoc, List.cons_append], ?_⟩
  rcases hkept with hsame | hsealed | hreset
  · rcases hspec.row row.key with hrow | rfl | rfl
    · exact Or.inl (hrow.trans hsame)
    · exact Or.inr (Or.inl (List.mem_append_right _ (List.mem_singleton_self _)))
    · exact Or.inr (Or.inr (List.mem_append_right _ (List.mem_singleton_self _)))
  · exact Or.inr (Or.inl (List.mem_append_left _ hsealed))
  · exact Or.inr (Or.inr (List.mem_append_left _ hreset))

theorem PhaseInv.step (hspec : StepSpec s s' e) {i : Nat} {x : Phase} (h : PhaseInv log s i x) :
    PhaseInv (log ++ [e]) s' i x := by
  cases x with
  | certFind req => trivial
  | certDevice req row tenant => exact Judged.step hspec h
  | certIssue req row tenant device => exact ⟨h.1.step hspec, hspec.devices ▸ h.2.1, h.2.2⟩
  | ackMark req => trivial
  | revokeReset device =>
      have hdevice : device ∈ s.devices := h
      rw [← hspec.devices] at hdevice
      exact hdevice
  | revokeCerts device => exact ⟨hspec.devices ▸ h.1, List.mem_append_left _ h.2⟩
  | done => trivial

theorem Inv.step (hinv : Inv log s) (hspec : StepSpec s s' e)
    (hphase : ∀ i x, s'.requests[i]? = some x → s.requests[i]? = some x ∨ PhaseInv (log ++ [e]) s' i x)
    (hrevoked : ∀ devicePk, e = .revoked devicePk → ∃ d ∈ s.devices, d.id = devicePk ∧ Event.reset d.deviceID ∈ log) :
    Inv (log ++ [e]) s' := by
  constructor
  · intro key hkey r hr
    rcases List.mem_append.mp hkey with hold | hnew
    · rcases hspec.row key with hrow | hsealed | hreset
      · exact hinv.sealed key hold r (hrow.symm.trans hr)
      · exact hspec.sealed key hsealed r hr
      · rw [hspec.reset key.1 hreset key.2] at hr
        cases hr
    · exact hspec.sealed key (List.mem_singleton.mp hnew).symm r hr
  · intro deviceID hmem pubkey
    rcases List.mem_append.mp hmem with hold | hnew
    · exact hspec.gone _ (hinv.reset deviceID hold pubkey)
    · exact hspec.reset deviceID (List.mem_singleton.mp hnew).symm pubkey
  · intro devicePk hmem
    obtain ⟨d, hd, hid, hreset⟩ : ∃ d ∈ s.devices, d.id = devicePk ∧ Event.reset d.deviceID ∈ log := by
      rcases List.mem_append.mp hmem with hold | hnew
      · exact hinv.revoked devicePk hold
      · exact hrevoked devicePk (List.mem_singleton.mp hnew).symm
    exact ⟨d, hspec.devices ▸ hd, hid, List.mem_append_left _ hreset⟩
  · intro i x hx
    rcases hphase i x hx with hold | hnew
    · exact (hinv.phase i x hold).step hspec
    · exact hnew

/-- What the invariant needs of a step, and what an insert tells of the request that made it. -/
structure StepFacts (log : List Event) (s s' : State) (e : Event) : Prop where
  spec : StepSpec s s' e
  phase : ∀ j x, s'.requests[j]? = some x → s.requests[j]? = some x ∨ PhaseInv (log ++ [e]) s' j x
  revoked : ∀ devicePk, e = .revoked devicePk → ∃ d ∈ s.devices, d.id = devicePk ∧ Event.reset d.deviceID ∈ log
  inserted : ∀ i key tenant devicePk row, e = .inserted i key tenant devicePk row → row = s.find key ∧
    ∃ req judged device, s.requests[i]? = some (.certIssue req judged tenant device) ∧ judged.key = key ∧
      device.id = devicePk

/-- A step that goes on from a request. -/
theorem StepFacts.set {i : Nat} {x : Phase} (hrequests : s'.requests = s.requests.set i x) (hspec : StepSpec s s' e)
    (hphase : PhaseInv (log ++ [e]) s' i x)
    (hrevoked : ∀ devicePk, e = .revoked devicePk → ∃ d ∈ s.devices, d.id = devicePk ∧ Event.reset d.deviceID ∈ log)
    (hinserted : ∀ i key tenant devicePk row, e = .inserted i key tenant devicePk row → row = s.find key ∧
      ∃ req judged device, s.requests[i]? = some (.certIssue req judged tenant device) ∧ judged.key = key ∧
        device.id = devicePk) : StepFacts log s s' e := by
  refine ⟨hspec, fun j y hy => ?_, hrevoked, hinserted⟩
  rw [hrequests] at hy
  rcases Machine.getElem?_set_cases hy with ⟨rfl, rfl⟩ | ⟨-, hold⟩
  · exact Or.inr hphase
  · exact Or.inl hold

theorem StepSpec.quiet (hbackend : s'.backend = s.backend) : StepSpec s s' .quiet :=
  StepSpec.keep (by rw [State.devices, hbackend]; rfl) (fun _ => by rw [State.find, hbackend]; rfl) nofun nofun

theorem StepFacts.quiet {i : Nat} {x : Phase} (hrequests : s'.requests = s.requests.set i x)
    (hbackend : s'.backend = s.backend) (hphase : PhaseInv (log ++ [.quiet]) s' i x) : StepFacts log s s' .quiet :=
  StepFacts.set hrequests (StepSpec.quiet hbackend) hphase nofun fun _ _ _ _ _ hins => nomatch hins

theorem StepFacts.done (s : State) (i : Nat) : StepFacts log s (s.goOn i .done .quiet).1 .quiet :=
  StepFacts.quiet (x := .done) rfl rfl trivial

theorem arrive_facts {r : Request EnrollCertReq} {phase : EnrollCertReq → Phase}
    (hphase : ∀ req log s i, PhaseInv log s i (phase req)) :
    StepFacts log s (arrive s r phase).1 (arrive s r phase).2 := by
  unfold arrive
  split
  · exact ⟨StepSpec.keep rfl (fun _ => rfl) nofun nofun, fun _ _ hx => Or.inl hx, nofun,
      fun _ _ _ _ _ hins => nomatch hins⟩
  · next req _ =>
      refine ⟨StepSpec.keep rfl (fun _ => rfl) nofun nofun, fun j x hx => ?_, nofun,
        fun _ _ _ _ _ hins => nomatch hins⟩
      rcases Machine.getElem?_concat_cases hx with hold | ⟨-, rfl⟩
      · exact Or.inl hold
      · refine Or.inr ?_
        split
        · exact hphase req _ _ _
        · trivial

theorem stepRequest_facts (hinv : Inv log s) {i : Nat} {x : Phase} (hx : s.requests[i]? = some x) {clock : Clock}
    {certID : Nat} {sign : String → Option SignedCert} (h : stepRequest cfg s i clock certID sign x = some (s', e)) :
    StepFacts log s s' e := by
  have hown := hinv.phase i x hx
  cases x with
  | certFind req =>
      simp only [stepRequest, Option.some.injEq] at h
      split at h <;> obtain ⟨rfl, rfl⟩ := Prod.mk.inj h
      · next row tenant _ hjudge =>
          obtain ⟨hfind, hlive⟩ := certEnrollment_live hjudge
          have hkey : row.key = (req.deviceID, req.pubkey) := KeyedTable.find_key hfind
          rw [← hkey] at hfind
          have hspec : StepSpec s (s.goOn i (.certDevice req row tenant) (.judged i row.key)).1 (.judged i row.key) :=
            StepSpec.keep rfl (fun _ => rfl) (fun _ h => by cases h) fun _ h => by cases h
          exact StepFacts.set rfl hspec ⟨hlive, hkey, log, [], rfl, Or.inl hfind⟩ (fun _ h => by cases h)
            fun _ _ _ _ _ h => by cases h
      · exact StepFacts.done s i
  | certDevice req row tenant =>
      simp only [stepRequest, Option.some.injEq] at h
      split at h <;> obtain ⟨rfl, rfl⟩ := Prod.mk.inj h
      · exact StepFacts.done s i
      · next device hdevice =>
          have hspec : StepSpec s (s.goOn i (.certIssue req row tenant device) .quiet).1 .quiet := StepSpec.quiet rfl
          obtain ⟨hmem, -, hid⟩ := DeviceTable.find_eq_some.mp hdevice
          have hjudged : Judged log s i req row tenant := hown
          refine StepFacts.quiet rfl rfl ⟨hjudged.step hspec, hmem, ?_⟩
          rw [hid, hjudged.key]
  | certIssue req row tenant device =>
      simp only [stepRequest, Option.some.injEq] at h
      split at h <;> obtain ⟨rfl, rfl⟩ := Prod.mk.inj h
      · exact StepFacts.done s i
      · next store _ hissue =>
          refine StepFacts.set (x := .done) rfl
            (StepSpec.keep (issueCert_devices hissue) (fun _ => rfl) (fun _ h => by cases h) fun _ h => by cases h) trivial
            (fun _ h => by cases h) ?_
          intro j key tenant' devicePk row' heq
          obtain ⟨rfl, rfl, rfl, rfl, rfl⟩ := Event.inserted.inj heq
          exact ⟨rfl, req, row, device, hx, rfl, rfl⟩
  | ackMark req =>
      simp only [stepRequest, Option.some.injEq] at h
      split at h <;> obtain ⟨rfl, rfl⟩ := Prod.mk.inj h
      · exact StepFacts.done s i
      · next hmark =>
          exact StepFacts.set (x := .done) rfl (markDelivered_spec hmark rfl) trivial (fun _ h => by cases h)
            fun _ _ _ _ _ h => by cases h
  | revokeReset device =>
      simp only [stepRequest, Option.some.injEq] at h
      split at h <;> obtain ⟨rfl, rfl⟩ := Prod.mk.inj h
      · exact StepFacts.done s i
      · next hreset =>
          have hdevice : device ∈ s.devices := hown
          exact StepFacts.set (x := .revokeCerts device) rfl (resetForTenant_spec hreset rfl)
            ⟨hdevice, List.mem_append_right _ (List.mem_singleton_self _)⟩ (fun _ h => by cases h) fun _ _ _ _ _ h => by cases h
  | revokeCerts device =>
      simp only [stepRequest, Option.some.injEq] at h
      split at h <;> obtain ⟨rfl, rfl⟩ := Prod.mk.inj h
      · exact StepFacts.done s i
      · next store hrevoke =>
          have hdevices : store.devices = s.devices := (Certs.revoke_rowsKept hrevoke).1
          obtain ⟨hmem, hreset⟩ : device ∈ s.devices ∧ Event.reset device.deviceID ∈ log := hown
          have hspec : StepSpec s ((s.setBackend { s.backend with store }).goOn i .done (.revoked device.id)).1
              (.revoked device.id) := StepSpec.keep hdevices (fun _ => rfl) (fun _ h => by cases h) fun _ h => by cases h
          refine StepFacts.set (x := .done) rfl hspec trivial (fun devicePk heq => ?_) fun _ _ _ _ _ h => by cases h
          exact ⟨device, hmem, Event.revoked.inj heq, hreset⟩
  | done => cases h

theorem step_facts (hinv : Inv log s) {a : Action} (h : step cfg s a = some (s', e)) : StepFacts log s s' e := by
  cases a with
  | cert r =>
      have hfacts : StepFacts log s (arrive s r .certFind).1 (arrive s r .certFind).2 :=
        arrive_facts fun _ _ _ _ => trivial
      rwa [Option.some.inj h] at hfacts
  | ack r =>
      have hfacts : StepFacts log s (arrive s r .ackMark).1 (arrive s r .ackMark).2 :=
        arrive_facts fun _ _ _ _ => trivial
      rwa [Option.some.inj h] at hfacts
  | ownerRevoke id =>
      obtain ⟨device, hget, heq⟩ := Option.map_eq_some_iff.mp h
      obtain ⟨rfl, rfl⟩ := Prod.mk.inj heq
      refine ⟨StepSpec.quiet rfl, fun j x hx => ?_, nofun, fun _ _ _ _ _ hins => nomatch hins⟩
      rcases Machine.getElem?_concat_cases hx with hold | ⟨-, rfl⟩
      · exact Or.inl hold
      · exact Or.inr (DeviceTable.get_eq_some.mp hget).1
  | next i clock certID sign =>
      obtain ⟨x, hx, hnext⟩ := Option.bind_eq_some_iff.mp h
      exact stepRequest_facts hinv hx hnext

theorem Inv.next (hinv : Inv log s) (hfacts : StepFacts log s s' e) : Inv (log ++ [e]) s' :=
  hinv.step hfacts.spec hfacts.phase hfacts.revoked

theorem inv_start (server : Server) : Inv [] (start server) := by
  refine ⟨nofun, nofun, nofun, fun i x hx => ?_⟩
  cases hx

theorem Run.inv {server : Server} (hrun : (system cfg).Run (start server) log s) : Inv log s :=
  hrun.invariant Inv (inv_start server) fun _ _ _ _ _ hinv _ hstep => hinv.next (step_facts hinv hstep)

/-- An insert of a run: what its request had judged, and the row at that moment. -/
theorem Run.insert {server : Server} {pre post : List Event} {i : Nat} {key : EnrollKey} {tenant : Slug} {devicePk : UUID}
    {row : Option Enrollment}
    (hrun : (system cfg).Run (start server) (pre ++ Event.inserted i key tenant devicePk row :: post) s) :
    ∃ s₁ req judged device, Inv pre s₁ ∧ row = s₁.find key ∧ judged.key = key ∧ device.id = devicePk ∧
      Judged pre s₁ i req judged tenant ∧ device ∈ s₁.devices ∧ device.deviceID = key.1 := by
  obtain ⟨s₁, a, s₂, hpre, -, hstep, -⟩ := hrun.at_event
  have hinv := Run.inv hpre.run
  obtain ⟨hrow, req, judged, device, hrequest, rfl, hid⟩ := (step_facts hinv hstep).inserted _ _ _ _ _ rfl
  obtain ⟨hjudged, hmem, hdevice⟩ := hinv.phase i _ hrequest
  exact ⟨s₁, req, judged, device, hinv, hrow, rfl, hid, hjudged, hmem, hdevice⟩

/-- Before an insert for a live enrollment, its row was not sealed, its device id not reset and its device not
revoked. -/
theorem Run.insert_live {server : Server} {pre post : List Event} {i : Nat} {key : EnrollKey} {tenant : Slug}
    {devicePk : UUID} {row : Option Enrollment}
    (hrun : (system cfg).Run (start server) (pre ++ Event.inserted i key tenant devicePk row :: post) s)
    (hlive : LiveRow tenant row) : Event.sealed key ∉ pre ∧ Event.reset key.1 ∉ pre ∧ Event.revoked devicePk ∉ pre := by
  obtain ⟨s₁, req, judged, device, hinv, rfl, -, hid, -, hmem, hdevice⟩ := Run.insert hrun
  obtain ⟨r, hr, -, -, -, hdelivered⟩ := hlive
  have hreset : Event.reset key.1 ∉ pre := fun hreset => by
    have hgone := hinv.reset key.1 hreset key.2
    rw [Prod.mk.eta, hr] at hgone
    cases hgone
  refine ⟨fun hsealed => hinv.sealed key hsealed r hr hdelivered, hreset, fun hrevoked => ?_⟩
  obtain ⟨d, hd, hdid, hdreset⟩ := hinv.revoked devicePk hrevoked
  obtain rfl := DeviceTable.eq_of_id hd hmem (hdid.trans hid.symm)
  rw [hdevice] at hdreset
  exact hreset hdreset

theorem mintsLive_of_undisturbed {server : Server} (hrun : (system cfg).Run (start server) log s)
    (hundisturbed : Undisturbed log) : MintsLive log := by
  intro i key tenant devicePk row hmem
  obtain ⟨pre, post, rfl⟩ := List.append_of_mem hmem
  obtain ⟨s₁, req, judged, device, -, rfl, rfl, -, ⟨hlive, -, pre', mid, rfl, hkept⟩, -, -⟩ := Run.insert hrun
  obtain ⟨hsealed, hreset⟩ := hundisturbed pre' mid post i _ tenant devicePk _ rfl
  rcases hkept with hsame | hwas | hwas
  · rw [hsame]
    exact hlive
  · exact absurd hwas hsealed
  · exact absurd hwas hreset

theorem undisturbed_of_mintsLive {server : Server} (hrun : (system cfg).Run (start server) log s)
    (hlive : MintsLive log) : Undisturbed log := by
  rintro pre mid post i key tenant devicePk row rfl
  have hrow : LiveRow tenant row := hlive i key tenant devicePk row (List.mem_append_right _ List.mem_cons_self)
  obtain ⟨hsealed, hreset, -⟩ := Run.insert_live hrun hrow
  have hmid : ∀ e ∈ mid, e ∈ pre ++ Event.judged i key :: mid := fun e he =>
    List.mem_append_right _ (List.mem_cons_of_mem _ he)
  exact ⟨fun h => hsealed (hmid _ h), fun h => hreset (hmid _ h)⟩

theorem noneAfter_of_mintsLive {server : Server} (hrun : (system cfg).Run (start server) log s)
    (hlive : MintsLive log) : NoneAfter log := by
  have hbefore : ∀ pre e post i key tenant devicePk row, log = pre ++ e :: post →
      Event.inserted i key tenant devicePk row ∈ post → ∃ mid post', e ∈ mid ∧ LiveRow tenant row ∧
        log = mid ++ Event.inserted i key tenant devicePk row :: post' := by
    rintro pre e post i key tenant devicePk row rfl hmem
    obtain ⟨mid, post', rfl⟩ := List.append_of_mem hmem
    refine ⟨pre ++ e :: mid, post', List.mem_append_right _ List.mem_cons_self, ?_, by simp⟩
    exact hlive i key tenant devicePk row (List.mem_append_right _ (List.mem_cons_of_mem _ hmem))
  constructor
  · intro pre post key hlog i tenant devicePk row hmem
    obtain ⟨mid, post', he, hrow, rfl⟩ := hbefore pre _ post i key tenant devicePk row hlog hmem
    exact (Run.insert_live hrun hrow).1 he
  · intro pre post deviceID hlog i pubkey tenant devicePk row hmem
    obtain ⟨mid, post', he, hrow, rfl⟩ := hbefore pre _ post i (deviceID, pubkey) tenant devicePk row hlog hmem
    exact (Run.insert_live hrun hrow).2.1 he
  · intro pre post devicePk hlog i key tenant row hmem
    obtain ⟨mid, post', he, hrow, rfl⟩ := hbefore pre _ post i key tenant devicePk row hlog hmem
    exact (Run.insert_live hrun hrow).2.2 he

/-- The certificates of a run are all inserted for live enrollments exactly if nothing overtakes a request between
its judgement and its insert, and then none is inserted after a seal or a revoke. -/
theorem certificates_minted_live {server : Server} (hrun : (system cfg).Run (start server) log s) :
    (MintsLive log ↔ Undisturbed log) ∧ (MintsLive log → NoneAfter log) :=
  ⟨⟨undisturbed_of_mintsLive hrun, mintsLive_of_undisturbed hrun⟩, noneAfter_of_mintsLive hrun⟩

end steps

/-! A unit of acme, claimed and polling. -/

def deliveryConfig : Config := ⟨Enroll.unitConfig, some fun _ => none, "broker.example", 8883, ""⟩

def claimedRow : Enrollment :=
  ⟨Enroll.unitID, Enroll.unitKey, Enroll.unitCrypto.sha256Hex Enroll.unitCode, 0, none, none, some 2, some acme, some 3, none,
    0, 3⟩

def claimedServer : Server where
  limiters := newEnrollLimiters
  backend :=
    { enrollments := ⟨[claimedRow], List.nodup_singleton _⟩
      store :=
        { devices := ⟨[⟨1, acme, Enroll.unitID, some 1, none, some acme, []⟩], by decide⟩
          pairedAt := fun _ => none
          certs := ∅
          tombstones := ∅ }
      tenants := [defaultTenant, acme] }

def poll (now : Time) : Request EnrollCertReq :=
  ⟨"192.0.2.7", ⟨now, now⟩, some ⟨Enroll.unitID, Enroll.unitKey, Enroll.unitCode⟩⟩

/-- The CA draws the serial. -/
def drawn (serialHex : String) (_cn : String) : Option SignedCert := some ⟨"cert", "key", serialHex⟩

def advance (i : Nat) (now : Time) (certID : Nat) : Action := .next i ⟨now, now⟩ certID (drawn (toString certID))

/-- A poll is served, and the unit acknowledges. -/
def served : List Action :=
  [.cert (poll 4), advance 0 4 1, advance 0 5 1, advance 0 6 1, .ack (poll 7), advance 1 7 0]

def servedLog : List Event :=
  [.quiet, .judged 0 claimedRow.key, .quiet, .inserted 0 claimedRow.key acme 1 (some claimedRow), .quiet,
    .sealed claimedRow.key]

theorem served_runs : ((system deliveryConfig).execIf (fun _ _ _ => True) [] (start claimedServer) served).any
    (fun r => decide (r.1 = servedLog)) = true := by
  decide +kernel

theorem served_minted_live : ∃ s, (system deliveryConfig).Run (start claimedServer) servedLog s ∧
    Undisturbed servedLog ∧ NoneAfter servedLog := by
  obtain ⟨log, s, hrun, htest⟩ := Machine.exists_runIf_of_any served_runs
  obtain rfl := of_decide_eq_true htest
  obtain ⟨hiff, hnone⟩ := certificates_minted_live hrun
  have hlive : MintsLive servedLog := by
    intro i key tenant devicePk row hmem
    simp only [servedLog, List.mem_cons, reduceCtorEq, List.not_mem_nil, or_false, false_or] at hmem
    obtain ⟨rfl, rfl, rfl, rfl, rfl⟩ := Event.inserted.inj hmem
    exact ⟨claimedRow, rfl, by decide, by decide, rfl, rfl⟩
  exact ⟨s, hrun, hiff.mp hlive, hnone hlive⟩

/-- Two polls are judged and one is served; the unit acknowledges what it got, and then the other is served. -/
def overtaken : List Action :=
  [.cert (poll 4), .cert (poll 4), advance 0 4 1, advance 1 4 2, advance 0 5 1, advance 1 5 2, advance 0 6 1, .ack (poll 7),
    advance 2 7 0, advance 1 8 2]

def sealedRow : Enrollment := { claimedRow with certDeliveredAt := some 7, lastSeenAt := 7 }

/-- The certificate the unit stores has been revoked, and the live one is lost with the answer to the second poll. -/
theorem overtaken_runs : ((system deliveryConfig).execIf (fun _ _ _ => True) [] (start claimedServer) overtaken).any
    (fun r => decide (r.1 = [.quiet, .quiet, .judged 0 claimedRow.key, .judged 1 claimedRow.key, .quiet, .quiet,
        .inserted 0 claimedRow.key acme 1 (some claimedRow), .quiet, .sealed claimedRow.key,
        .inserted 1 claimedRow.key acme 1 (some sealedRow)]) &&
      decide (r.2.backend.store.certs.rows.map (fun c => (c.serialHex, c.revoked)) = [("1", true), ("2", false)])) =
      true := by
  decide +kernel

theorem overtaken_not_live : ∃ log s, (system deliveryConfig).Run (start claimedServer) log s ∧
    ¬ MintsLive log ∧ ¬ NoneAfter log := by
  obtain ⟨log, s, hrun, htest⟩ := Machine.exists_runIf_of_any overtaken_runs
  obtain rfl := of_decide_eq_true (Bool.and_eq_true_iff.mp htest).1
  refine ⟨_, s, hrun, fun hlive => ?_, fun hnone => ?_⟩
  · obtain ⟨e, he, -, -, -, hdelivered⟩ := hlive 1 claimedRow.key acme 1 (some sealedRow) (by simp)
    obtain rfl := Option.some.inj he
    cases hdelivered
  · exact hnone.afterSeal [.quiet, .quiet, .judged 0 claimedRow.key, .judged 1 claimedRow.key, .quiet, .quiet,
      .inserted 0 claimedRow.key acme 1 (some claimedRow), .quiet] _ claimedRow.key rfl 1 acme 1 (some sealedRow)
      (List.mem_singleton_self _)

end ThesadaApp.Delivery
