import ThesadaApp.CertRevocation

/-!
What a call leaves of the rows of the certificates, row by row: a row keeps its id, its serial and its device, is not
unrevoked, and changes its status only from pending, by the call that names it.
-/

namespace ThesadaApp.Certs

/-- The id of the row a call would insert. -/
def Action.rowID : Action → Option Nat
  | .issue _ _ _ n | .issueWithIdentity _ _ _ n _ | .issuePending _ _ _ n => some n.id
  | _ => none

/-- The status that a call gives to a row. -/
def Action.sets : Action → Certificate → CertStatus → Prop
  | .activate _ certID _ _, old, status => old.id = certID ∧ old.status = .pending ∧ status = .active
  | .markFailed _ certID, old, status => old.id = certID ∧ old.status = .pending ∧ status = .failed
  | _, _, _ => False

/-- A row before and after a call. -/
structure Moved (a : Action) (old c : Certificate) : Prop where
  kept : Kept old c
  id : c.id = old.id
  cn : c.cn = old.cn
  status : c.status = old.status ∨ a.sets old c.status

variable {s s' : Store} {a : Action} {tenantID : Slug} {devicePk : UUID} {now : Time} {certID : Nat}

theorem Moved.refl (a : Action) (c : Certificate) : Moved a c c := ⟨.refl c, rfl, rfl, .inl rfl⟩

theorem moved_revokeRow (a : Action) (now : Time) (devicePk : UUID) (c : Certificate) :
    Moved a c (revokeRow now devicePk c) := by
  unfold revokeRow
  split
  · exact ⟨⟨rfl, rfl, rfl, fun _ => rfl⟩, rfl, rfl, .inl rfl⟩
  · exact .refl a c

theorem moved_setStatus {p : Certificate → Bool} {status : CertStatus} {c : Certificate}
    (h : p c = true → a.sets c status) : Moved a c (if p c then { c with status := status } else c) := by
  split
  · next hp => exact ⟨⟨rfl, rfl, rfl, id⟩, rfl, rfl, .inr (h hp)⟩
  · exact .refl a c

/-- The rows after a call come from rows before, but for one that it issued. -/
def Rows (a : Action) (t t' : CertTable) (new : Option Certificate) : Prop :=
  ∀ c ∈ t', (∃ old ∈ t, Moved a old c) ∨ new = some c

theorem rows_refl (a : Action) (t : CertTable) : Rows a t t none := fun c hc => .inl ⟨c, hc, .refl a c⟩

theorem rows_commit {t t' : CertTable} {f : Certificate → Certificate} (new : Option Certificate)
    (hf : ∀ c, Moved a c (f c)) (h : CertTable.commit (t.rows.map f ++ new.toList) = some t') : Rows a t t' new := by
  intro c hc
  rw [← CertTable.mem_rows, CertTable.commit_eq_some h, List.mem_append, List.mem_map, Option.mem_toList] at hc
  obtain ⟨old, hold, rfl⟩ | hnew := hc
  · exact .inl ⟨old, hold, hf old⟩
  · exact .inr hnew

theorem rows_setCerts {f : Certificate → Certificate} (hf : ∀ c, Moved a c (f c)) (h : setCerts s f = .ok s') :
    Rows a s.certs s'.certs none := by
  unfold setCerts at h
  split at h
  · cases h
  · next certs hcommit =>
      obtain rfl := Except.ok.inj h
      exact rows_commit none hf (by simpa using hcommit)

theorem rows_setStatus {p : Certificate → Bool} {status : CertStatus} (hp : ∀ c, p c = true → a.sets c status)
    (h : setCerts s (fun c => if p c then { c with status := status } else c) = .ok s') :
    Rows a s.certs s'.certs none := rows_setCerts (fun c => moved_setStatus (hp c)) h

/-- What the calls that issue insert. -/
structure Issued (status : CertStatus) (devicePk : UUID) (n : NewCert) (c : Certificate) : Prop where
  id : c.id = n.id
  serialHex : c.serialHex = n.serialHex
  cn : c.cn = n.cn
  devicePk : c.devicePk = devicePk
  status : c.status = status

theorem issueTx_rows {n : NewCert} {status : CertStatus} {pubkeyHex : String} {c : Certificate} (a : Action)
    (h : issueTx s tenantID devicePk now n status pubkeyHex = .ok (s', c)) :
    Rows a s.certs s'.certs (some c) ∧ Issued status devicePk n c := by
  unfold issueTx at h
  split at h
  · cases h
  · dsimp only at h
    split at h
    · next certs hcommit =>
        obtain ⟨rfl, rfl⟩ := Prod.mk.inj (Except.ok.inj h)
        exact ⟨rows_commit (some _) (moved_revokeRow a now devicePk) hcommit, ⟨rfl, rfl, rfl, rfl, rfl⟩⟩
    · cases h

/-- The new row that an event tells of. -/
def Event.newRow : Event → Option Certificate
  | .issued c _ => some c
  | _ => none

theorem issueOutcome_rows {n : NewCert} {status : CertStatus} {pubkeyHex : String} (a : Action) (pairedAt : Option Time)
    {r : Except CertError (Store × Certificate)}
    (hr : r = (issueTx s tenantID devicePk now n status pubkeyHex).map fun r =>
      (r.1.setPairedAt devicePk pairedAt, r.2)) :
    Rows a s.certs (issueOutcome s r).1.certs (issueOutcome s r).2.newRow ∧
      ∀ c ∈ (issueOutcome s r).2.newRow, Issued status devicePk n c := by
  subst hr
  cases hissue : issueTx s tenantID devicePk now n status pubkeyHex with
  | error err => exact ⟨rows_refl a _, fun c hc => by cases hc⟩
  | ok r =>
      obtain ⟨s₁, c⟩ := r
      obtain ⟨hrows, hissued⟩ := issueTx_rows a hissue
      refine ⟨hrows, fun c' hc' => ?_⟩
      cases hc'
      exact hissued

theorem changeOutcome_rows {r : Except CertError Store}
    (h : ∀ s', r = .ok s' → Rows a s.certs s'.certs none) :
    Rows a s.certs (changeOutcome s r).1.certs (changeOutcome s r).2.newRow := by
  cases r with
  | error err => exact rows_refl a _
  | ok s' => exact h s' rfl

/-- What `Activate` or `MarkFailed` found and left. -/
structure Flipped (s s' : Store) (certID : Nat) (status : CertStatus) : Prop where
  pending : ∃ c ∈ s.certs, c.id = certID ∧ c.status = .pending ∧ c.revoked = false
  flipped : ∀ c ∈ s'.certs, c.id = certID → c.status = status

theorem setCerts_flipped {p : Certificate → Bool} {status : CertStatus}
    (hp : ∀ c, p c = true → c.id = certID ∧ c.status = .pending ∧ c.revoked = false) (hany : s.certs.rows.any p = true)
    (h : setCerts s (fun c => if p c then { c with status := status } else c) = .ok s') :
    Flipped s s' certID status := by
  obtain ⟨c, hc, hpc⟩ := List.any_eq_true.mp hany
  refine ⟨⟨c, hc, hp c hpc⟩, ?_⟩
  unfold setCerts at h
  split at h
  · cases h
  · next certs hcommit =>
      obtain rfl := Except.ok.inj h
      intro c' hc' hid
      rw [← CertTable.mem_rows, CertTable.commit_eq_some hcommit, List.mem_map] at hc'
      obtain ⟨old, hold, rfl⟩ := hc'
      by_cases hpold : p old = true
      · rw [if_pos hpold]
      · rw [if_neg hpold] at hid ⊢
        -- the primary key: the row found is this one
        have hsame : old = c := List.inj_on_of_nodup_map s.certs.constraints.pk hold hc (hid.trans (hp c hpc).1.symm)
        exact absurd (hsame ▸ hpc) hpold

theorem activate_flipped (h : activate s tenantID certID devicePk now = .ok s') : Flipped s s' certID .active := by
  unfold activate at h
  dsimp only at h
  split at h
  · cases h
  · next hany =>
      obtain ⟨s₁, hset, rfl⟩ := map_eq_ok h
      have hflip : Flipped s s₁ certID .active := setCerts_flipped (fun c hc => by
        simp only [Bool.and_eq_true, decide_eq_true_eq, Bool.not_eq_true'] at hc
        exact ⟨hc.1.1.1.1, hc.1.1.2, hc.1.2⟩) (Bool.not_eq_false _ ▸ hany) hset
      exact ⟨hflip.pending, hflip.flipped⟩

theorem markFailed_flipped (h : markFailed s tenantID certID = .ok s') : Flipped s s' certID .failed := by
  unfold markFailed at h
  dsimp only at h
  split at h
  · cases h
  · next hany =>
      exact setCerts_flipped (fun c hc => by
        simp only [Bool.and_eq_true, decide_eq_true_eq, Bool.not_eq_true'] at hc
        exact ⟨hc.1.1.1, hc.1.1.2, hc.1.2⟩) (Bool.not_eq_false _ ▸ hany) h

theorem activate_rows (h : activate s tenantID certID devicePk now = .ok s') :
    Rows (.activate tenantID certID devicePk now) s.certs s'.certs none := by
  unfold activate at h
  dsimp only at h
  split at h
  · cases h
  · obtain ⟨s₁, hset, rfl⟩ := map_eq_ok h
    have hrows : Rows (.activate tenantID certID devicePk now) s.certs s₁.certs none :=
      rows_setStatus (fun c hc => by
        simp only [Bool.and_eq_true, decide_eq_true_eq] at hc
        exact ⟨hc.1.1.1.1, hc.1.1.2, rfl⟩) hset
    exact hrows

theorem markFailed_rows (h : markFailed s tenantID certID = .ok s') :
    Rows (.markFailed tenantID certID) s.certs s'.certs none := by
  unfold markFailed at h
  dsimp only at h
  split at h
  · cases h
  · refine rows_setStatus (fun c hc => ?_) h
    simp only [Bool.and_eq_true, decide_eq_true_eq] at hc
    exact ⟨hc.1.1.1, hc.1.1.2, rfl⟩

theorem revoke_rows (a : Action) (h : revoke s tenantID devicePk now = .ok s') : Rows a s.certs s'.certs none := by
  unfold revoke at h
  split at h
  · obtain ⟨s₁, hset, rfl⟩ := map_eq_ok h
    have hrows : Rows a s.certs s₁.certs none := rows_setCerts (moved_revokeRow a now devicePk) hset
    exact hrows
  · obtain rfl := Except.ok.inj h
    exact rows_refl a _

theorem deleteByID_subset {id : UUID} {gone : Bool} (h : deleteByID s tenantID id = .ok (s', gone)) {c : Certificate}
    (hc : c ∈ s'.certs) : c ∈ s.certs := by
  unfold deleteByID at h
  split at h
  · obtain ⟨rfl, rfl⟩ := Prod.mk.inj (Except.ok.inj h)
    exact hc
  · split at h
    · obtain ⟨rfl, rfl⟩ := Prod.mk.inj (Except.ok.inj h)
      exact hc
    · split at h
      · cases h
      · obtain ⟨rfl, rfl⟩ := Prod.mk.inj (Except.ok.inj h)
        exact (CertTable.mem_deleteDevice.mp hc).1

theorem step_rows {cfg : Config} {e : Event} (h : step cfg s a = some (s', e)) :
    Rows a s.certs s'.certs e.newRow ∧ ∀ c ∈ e.newRow, a.rowID = some c.id ∧ a.serial = some c.serialHex := by
  cases a with
  | issue tenantID devicePk now n =>
      obtain ⟨rfl, rfl⟩ := Prod.mk.inj (Option.some.inj h)
      obtain ⟨hrows, hnew⟩ := issueOutcome_rows (.issue tenantID devicePk now n) (some now)
        (r := issue s tenantID devicePk now n) rfl
      exact ⟨hrows, fun c hc => ⟨congrArg some (hnew c hc).id.symm, congrArg some (hnew c hc).serialHex.symm⟩⟩
  | issueWithIdentity tenantID devicePk now n pubkeyHex =>
      obtain ⟨rfl, rfl⟩ := Prod.mk.inj (Option.some.inj h)
      by_cases hempty : pubkeyHex = ""
      · simp only [issueWithIdentity, if_pos hempty]
        exact ⟨rows_refl _ _, fun c hc => by cases hc⟩
      · obtain ⟨hrows, hnew⟩ := issueOutcome_rows (.issueWithIdentity tenantID devicePk now n pubkeyHex) (some now)
          (r := issueWithIdentity s tenantID devicePk now n pubkeyHex) (if_neg hempty)
        exact ⟨hrows, fun c hc => ⟨congrArg some (hnew c hc).id.symm, congrArg some (hnew c hc).serialHex.symm⟩⟩
  | issuePending tenantID devicePk now n =>
      obtain ⟨rfl, rfl⟩ := Prod.mk.inj (Option.some.inj h)
      obtain ⟨hrows, hnew⟩ := issueOutcome_rows (.issuePending tenantID devicePk now n) none
        (r := issuePending s tenantID devicePk now n) rfl
      exact ⟨hrows, fun c hc => ⟨congrArg some (hnew c hc).id.symm, congrArg some (hnew c hc).serialHex.symm⟩⟩
  | activate tenantID certID devicePk now =>
      obtain ⟨rfl, rfl⟩ := Prod.mk.inj (Option.some.inj h)
      refine ⟨changeOutcome_rows fun s' => activate_rows, fun c hc => ?_⟩
      cases hr : activate s tenantID certID devicePk now <;> (rw [hr] at hc; cases hc)
  | markFailed tenantID certID =>
      obtain ⟨rfl, rfl⟩ := Prod.mk.inj (Option.some.inj h)
      refine ⟨changeOutcome_rows fun s' => markFailed_rows, fun c hc => ?_⟩
      cases hr : markFailed s tenantID certID <;> (rw [hr] at hc; cases hc)
  | revoke tenantID devicePk now =>
      obtain ⟨rfl, rfl⟩ := Prod.mk.inj (Option.some.inj h)
      refine ⟨changeOutcome_rows fun s' => revoke_rows _, fun c hc => ?_⟩
      cases hr : revoke s tenantID devicePk now <;> (rw [hr] at hc; cases hc)
  | deleteByID tenantID id =>
      simp only [step] at h
      split at h
      · obtain ⟨rfl, rfl⟩ := Prod.mk.inj (Option.some.inj h)
        exact ⟨rows_refl _ _, fun c hc => by cases hc⟩
      · next s₁ gone hdelete =>
          obtain ⟨rfl, rfl⟩ := Prod.mk.inj (Option.some.inj h)
          have hnew : (if gone then Event.deleted id else .changed).newRow = none := by
            cases gone <;> rfl
          rw [hnew]
          exact ⟨fun c hc => .inl ⟨c, deleteByID_subset hdelete hc, .refl _ c⟩, fun c hc => by cases hc⟩
  | reassign id targetTenant =>
      simp only [step] at h
      split at h
      · obtain ⟨rfl, rfl⟩ := Prod.mk.inj (Option.some.inj h)
        exact ⟨rows_refl _ _, fun c hc => by cases hc⟩
      · obtain ⟨rfl, rfl⟩ := Prod.mk.inj (Option.some.inj h)
        exact ⟨rows_refl _ _, fun c hc => by cases hc⟩
  | upsert tenantID deviceID mqttTopicPrefix fresh =>
      simp only [step] at h
      split at h
      · obtain ⟨rfl, rfl⟩ := Prod.mk.inj (Option.some.inj h)
        exact ⟨rows_refl _ _, fun c hc => by cases hc⟩
      · obtain ⟨rfl, rfl⟩ := Prod.mk.inj (Option.some.inj h)
        exact ⟨rows_refl _ _, fun c hc => by cases hc⟩

variable {cfg : Config} {e : Event}

theorem issuePending_issued {n : NewCert} {c : Certificate} {deviceID : String}
    (h : step cfg s (.issuePending tenantID devicePk now n) = some (s', .issued c deviceID)) :
    Issued .pending devicePk n c := by
  have he : (issueOutcome s (issuePending s tenantID devicePk now n)).2 = .issued c deviceID :=
    congrArg Prod.snd (Option.some.inj h)
  refine (issueOutcome_rows (.issuePending tenantID devicePk now n) none
    (r := issuePending s tenantID devicePk now n) rfl).2 c ?_
  rw [he]
  rfl

/-- A call on the rows that changes something, or fails and changes nothing. -/
theorem changeOutcome_cases {r : Except CertError Store} (h : some (changeOutcome s r) = some (s', e)) :
    (r = .ok s' ∧ e = .changed) ∨ (s' = s ∧ ∃ err, r = .error err ∧ e = .failed err) := by
  obtain ⟨rfl, rfl⟩ := Prod.mk.inj (Option.some.inj h)
  cases r with
  | ok s' => exact .inl ⟨rfl, rfl⟩
  | error err => exact .inr ⟨rfl, err, rfl, rfl⟩

/-- A row stays as long as its device does. -/
theorem issued_kept {ok : List Event → Store → Action → Prop} {log : List Event} {c : Certificate} {deviceID : String}
    (hrun : (system cfg).RunIf ok init log s) (hissued : .issued c deviceID ∈ log) :
    (∃ c' ∈ s.certs, Kept c c') ∨ .deleted c.devicePk ∈ log := by
  refine hrun.invariant (fun log s => ∀ c deviceID, .issued c deviceID ∈ log →
    (∃ c' ∈ s.certs, Kept c c') ∨ .deleted c.devicePk ∈ log) (fun c deviceID h => absurd h List.not_mem_nil) ?_
    c deviceID hissued
  rintro log s a s' e ih - hstep c deviceID hmem
  have hold : .issued c deviceID ∈ log → (∀ c' ∈ s.certs, Kept c c' → (∃ c'' ∈ s'.certs, Kept c' c'') ∨
      e = .deleted c.devicePk) → (∃ c' ∈ s'.certs, Kept c c') ∨ .deleted c.devicePk ∈ log ++ [e] := by
    intro hmem hrows
    obtain ⟨c', hc', hkept⟩ | hdeleted := ih c deviceID hmem
    · obtain ⟨c'', hc'', hkept'⟩ | rfl := hrows c' hc' hkept
      · exact .inl ⟨c'', hc'', hkept.trans hkept'⟩
      · exact .inr (List.mem_append_right _ List.mem_cons_self)
    · exact .inr (List.mem_append_left _ hdeleted)
  have heffect := step_effect hstep
  obtain hpast | hnow := List.mem_append.mp hmem
  · refine hold hpast fun c' hc' hkept => ?_
    cases heffect with
    | issued hd hpk hdevices htombstones hrows hnew hserial => exact .inl (hrows.forward c' hc')
    | @deleted d hd hdevices hcerts htombstones =>
        by_cases hmine : c'.devicePk = d.id
        · exact .inr (by rw [← hmine, hkept.devicePk])
        · exact .inl ⟨c', by rw [hcerts, CertTable.mem_deleteDevice]; exact ⟨hc', hmine⟩, .refl c'⟩
    | kept hissued hdeleted hdevices htombstones hrows => exact .inl (hrows.forward c' hc')
  · obtain rfl := List.mem_singleton.mp hnow
    cases heffect with
    | issued hd hpk hdevices htombstones hrows hnew hserial => exact .inl ⟨c, hnew, .refl c⟩
    | kept hissued hdeleted hdevices htombstones hrows => exact absurd rfl (hissued c deviceID)

/-- A row has the id and the serial it was issued with. -/
theorem issued_of_row {ok : List Event → Store → Action → Prop} {log : List Event} {c : Certificate}
    (hrun : (system cfg).RunIf ok init log s) (hc : c ∈ s.certs) :
    ∃ row deviceID, .issued row deviceID ∈ log ∧ row.id = c.id ∧ row.serialHex = c.serialHex := by
  refine hrun.invariant (fun log s => ∀ c ∈ s.certs, ∃ row deviceID, .issued row deviceID ∈ log ∧ row.id = c.id ∧
    row.serialHex = c.serialHex) (fun c hc => absurd hc List.not_mem_nil) ?_ c hc
  rintro log s a s' e ih - hstep c hc
  obtain ⟨old, hold, hmoved⟩ | hnew := (step_rows hstep).1 c hc
  · obtain ⟨row, deviceID, hmem, hid, hserial⟩ := ih old hold
    exact ⟨row, deviceID, List.mem_append_left _ hmem, hid.trans hmoved.id.symm, hserial.trans hmoved.kept.serialHex.symm⟩
  · cases e with
    | issued row deviceID =>
        obtain rfl := Option.some.inj hnew
        exact ⟨row, deviceID, List.mem_append_right _ List.mem_cons_self, rfl, rfl⟩
    | deleted | changed | failed => cases hnew

end ThesadaApp.Certs
