import ThesadaApp.BrokerStatements

/-!
Two rows of one device id never answer to the same broker identity, and an identity on record stays there until it
is forgotten. A reservation holds its row, hence the row's tenant and device id, from its check to its write; and
no other statement puts an identity on record.
-/

namespace ThesadaApp.BrokerRows

/-- No identity is on record at two rows of one device id. -/
def DisjointRecords (devices : DeviceTable) : Prop :=
  ∀ d ∈ devices, ∀ d' ∈ devices, d.deviceID = d'.deviceID → ∀ t, d.Records t → d'.Records t → d = d'

/-- What a statement may do to the rows: `grown` is the one identity it may put on record, and at which row, and
`others` are the rows other transactions hold. -/
structure Wrote (devices : DeviceTable) (others : UUID → Prop) (grown : Option (UUID × Slug)) (e : Event)
    (devices' : DeviceTable) : Prop where
  back : ∀ d' ∈ devices', (∀ t, ¬ d'.Records t) ∨ ∃ d ∈ devices, d.id = d'.id ∧ d.deviceID = d'.deviceID ∧
    ∀ t, d'.Records t → d.Records t ∨ grown = some (d.id, t)
  forth : ∀ d ∈ devices, e = .deleted d.id ∨ ∃ d' ∈ devices', d'.id = d.id ∧ d'.deviceID = d.deviceID ∧
    ∀ t, d.Records t → e = .forgot d.id t ∨ d'.Records t
  others : ∀ d ∈ devices, others d.id → d ∈ devices'

section wrote

variable {devices devices' : DeviceTable} {others : UUID → Prop} {grown : Option (UUID × Slug)} {e : Event}

theorem Wrote.refl (devices : DeviceTable) : Wrote devices others grown e devices :=
  ⟨fun d hd => Or.inr ⟨d, hd, rfl, rfl, fun _ ht => Or.inl ht⟩,
    fun d hd => Or.inr ⟨d, hd, rfl, rfl, fun _ ht => Or.inr ht⟩, fun _ hd _ => hd⟩

theorem Wrote.updateRows {p : Device → Bool} {f : Device → Device} (h : devices.updateRows p f = some devices')
    (hkey : ∀ d, (f d).id = d.id ∧ (f d).deviceID = d.deviceID)
    (hback : ∀ d ∈ devices, p d = true → ∀ t, (f d).Records t → d.Records t ∨ grown = some (d.id, t))
    (hforth : ∀ d ∈ devices, p d = true → ∀ t, d.Records t → e = .forgot d.id t ∨ (f d).Records t)
    (hothers : ∀ d ∈ devices, p d = true → ¬ others d.id) : Wrote devices others grown e devices' := by
  refine ⟨fun d' hd' => ?_, fun d hd => Or.inr ?_, fun d hd hother => ?_⟩
  · obtain ⟨d, hd, rfl⟩ := (DeviceTable.mem_updateRows h).mp hd'
    refine Or.inr ⟨d, hd, ?_⟩
    split
    · next hp => exact ⟨(hkey d).1.symm, (hkey d).2.symm, hback d hd hp⟩
    · exact ⟨rfl, rfl, fun _ ht => Or.inl ht⟩
  · refine ⟨_, (DeviceTable.mem_updateRows h).mpr ⟨d, hd, rfl⟩, ?_⟩
    split
    · next hp => exact ⟨(hkey d).1, (hkey d).2, hforth d hd hp⟩
    · exact ⟨rfl, rfl, fun _ ht => Or.inr ht⟩
  · refine (DeviceTable.mem_updateRows h).mpr ⟨d, hd, ?_⟩
    split
    · next hp => exact absurd hother (hothers d hd hp)
    · rfl

theorem Wrote.upsertRow {tenantID : Slug} {deviceID : String} {fresh id : UUID} {set : Device → Device}
    (h : devices.upsertRow tenantID deviceID fresh set = some (devices', id))
    (hset : ∀ d, (set d).id = d.id ∧ (set d).deviceID = d.deviceID ∧ ∀ t, (set d).Records t ↔ d.Records t)
    (hothers : ∀ d ∈ devices, d.tenantID = tenantID → d.deviceID = deviceID → ¬ others d.id) :
    Wrote devices others grown e devices' := by
  obtain ⟨old, -, htenant, hdevice, hmem, hold, hiff⟩ := DeviceTable.upsertRow_spec h
  refine ⟨fun d' hd' => ?_, fun d hd => Or.inr ?_, fun d hd hother => (hiff d).mpr (Or.inr ⟨hd, ?_⟩)⟩
  · rcases (hiff d').mp hd' with rfl | ⟨hd, -⟩
    · rcases hold with hthere | rfl
      · exact Or.inr ⟨old, hthere, (hset old).1.symm, (hset old).2.1.symm, fun t ht => Or.inl (((hset old).2.2 t).mp ht)⟩
      · refine Or.inl fun t ht => ?_
        rcases ((hset _).2.2 t).mp ht with hcurrent | hstale
        · cases hcurrent
        · cases hstale
    · exact Or.inr ⟨d', hd, rfl, rfl, fun _ ht => Or.inl ht⟩
  · by_cases heq : d = old
    · rw [heq]
      exact ⟨set old, hmem, (hset old).1, (hset old).2.1, fun t ht => Or.inr (((hset old).2.2 t).mpr ht)⟩
    · exact ⟨d, (hiff d).mpr (Or.inr ⟨hd, heq⟩), rfl, rfl, fun _ ht => Or.inr ht⟩
  · rintro rfl
    exact hothers d hd htenant hdevice hother

theorem Wrote.delete (id : UUID) (hothers : ∀ d ∈ devices, d.id = id → ¬ others d.id) :
    Wrote devices others grown (.deleted id) (devices.delete id) := by
  refine ⟨fun d' hd' => ?_, fun d hd => ?_, fun d hd hother => ?_⟩
  · exact Or.inr ⟨d', (DeviceTable.mem_delete.mp hd').1, rfl, rfl, fun _ ht => Or.inl ht⟩
  · by_cases hid : d.id = id
    · exact Or.inl (by rw [hid])
    · exact Or.inr ⟨d, DeviceTable.mem_delete.mpr ⟨hd, hid⟩, rfl, rfl, fun _ ht => Or.inr ht⟩
  · exact DeviceTable.mem_delete.mpr ⟨hd, fun hid => hothers d hd hid hother⟩

end wrote

theorem records_of_staleAfterReserve {d : Device} {tenantID t : Slug} (h : t ∈ staleAfterReserve d tenantID) :
    d.Records t := by
  unfold staleAfterReserve at h
  have hstale := List.mem_of_mem_filter h
  split at hstale
  · exact Or.inr hstale
  · next prev hprev =>
      split at hstale
      · rcases List.mem_append.mp hstale with hold | hnew
        · exact Or.inr hold
        · exact Or.inl (by rw [hprev, List.mem_singleton.mp hnew])
      · exact Or.inr hstale

/-- A reservation holds the row it read, and once checked its identity is on record at no other. -/
def TxnInv (devices : DeviceTable) (held : UUID → Prop) : Txn → Prop
  | .reserveCheck tenantID deviceID d => held d.id ∧ d ∈ devices ∧ d.tenantID = tenantID ∧ d.deviceID = deviceID
  | .reserveUpdate tenantID d => held d.id ∧ d ∈ devices ∧ d.tenantID = tenantID ∧
      ∀ o ∈ devices, o.deviceID = d.deviceID → o.id ≠ d.id → ¬ o.Records tenantID
  | _ => True

structure Inv (s : State) : Prop where
  disjoint : DisjointRecords s.devices
  each : Txns.Each TxnInv s.devices s.txns

/-- The rows the other transactions hold. -/
def State.others (s : State) (tx : Nat) (pk : UUID) : Prop := ∃ j, j ≠ tx ∧ s.txns.Held j pk

/-- What a step of a transaction does. -/
structure StepSpec (s s' : State) (tx : Nat) (grown : Option (UUID × Slug)) (e : Event) : Prop where
  isLocal : Txns.Local tx s.txns s'.txns
  wrote : Wrote s.devices (s.others tx) grown e s'.devices
  grown : ∀ pk t, grown = some (pk, t) → ∃ d, s.txns.txn tx = some (.reserveUpdate t d) ∧ d.id = pk
  own : ∀ x, s'.txns.txn tx = some x → TxnInv s'.devices (s'.txns.Held tx) x

section steps

variable {cfg : Config} {s s' : State} {tx : Nat} {e : Event} {grown : Option (UUID × Slug)}

theorem State.not_others_of_waits {p : Device → Bool} (h : s.waits tx p = false) {d : Device} (hd : d ∈ s.devices)
    (hp : p d = true) : ¬ s.others tx d.id := by
  rintro ⟨j, hj, hheld⟩
  have hfree := List.any_eq_false.mp h d hd
  rw [hp, Bool.true_and, Bool.not_eq_true', Bool.not_eq_false, Txns.mayLock, Bool.or_eq_true, decide_eq_true_eq,
    decide_eq_true_eq] at hfree
  rcases hfree with hnone | hown
  · exact absurd (hnone.symm.trans hheld) (Option.some_ne_none j).symm
  · exact hj (Txns.Held.unique hheld hown)

theorem StepSpec.fail (s : State) (tx : Nat) : StepSpec s (s.fail tx).1 tx none (s.fail tx).2 :=
  ⟨Txns.Local.close s.txns tx, Wrote.refl _, nofun, fun x hx => by
    have hclosed : (s.txns.close tx).txn tx = some x := hx
    rw [Txns.close_txn] at hclosed
    cases hclosed⟩

theorem StepSpec.goOn {x : Txn} (hx : TxnInv s.devices (s.txns.Held tx) x) :
    StepSpec s (s.goOn tx x).1 tx none (s.goOn tx x).2 :=
  ⟨Txns.Local.put s.txns tx x, Wrote.refl _, nofun, fun y hy => by
    have hput : (s.txns.put tx x).txn tx = some y := hy
    rw [Txns.put_txn] at hput
    obtain rfl := Option.some.inj hput
    exact hx⟩

theorem StepSpec.commit (grown : Option (UUID × Slug)) {devices : Option DeviceTable}
    (hwrote : ∀ devices', devices = some devices' → Wrote s.devices (s.others tx) grown e devices')
    (hgrown : ∀ pk t, grown = some (pk, t) → ∃ d, s.txns.txn tx = some (.reserveUpdate t d) ∧ d.id = pk) :
    ∃ grown', StepSpec s (s.commit tx devices e).1 tx grown' (s.commit tx devices e).2 := by
  cases hdevices : devices with
  | none => exact ⟨none, StepSpec.fail s tx⟩
  | some devices' =>
      refine ⟨grown, Txns.Local.close s.txns tx, hwrote devices' hdevices, hgrown, fun x hx => ?_⟩
      have hclosed : (s.txns.close tx).txn tx = some x := hx
      rw [Txns.close_txn] at hclosed
      cases hclosed

theorem insertDevice_spec {tenantID : Slug} {deviceID : String} {fresh : UUID} {set : Device → Device}
    {r : State × Event}
    (hset : ∀ d, (set d).id = d.id ∧ (set d).deviceID = d.deviceID ∧ ∀ t, (set d).Records t ↔ d.Records t)
    (h : insertDevice cfg s tx tenantID deviceID fresh set = some r) : ∃ grown, StepSpec s r.1 tx grown r.2 := by
  unfold insertDevice at h
  split at h
  · cases h
  · next hwaits =>
      split at h
      · obtain rfl := Option.some.inj h
        exact ⟨none, StepSpec.fail s tx⟩
      · obtain rfl := Option.some.inj h
        refine StepSpec.commit none (fun devices' hdevices' => ?_) nofun
        obtain ⟨⟨_, id⟩, hupsert, rfl⟩ := Option.map_eq_some_iff.mp hdevices'
        refine Wrote.upsertRow hupsert hset fun d hd htenant hdevice => ?_
        exact State.not_others_of_waits (Bool.eq_false_iff.mpr hwaits) hd (by simp [htenant, hdevice])

/-- A first statement takes no lock but that of the row it reads. -/
theorem stepBegin_spec {call : Call} {r : State × Event} (h : stepBegin s tx cfg call = some r) :
    ∃ grown, StepSpec s r.1 tx grown r.2 := by
  cases call with
  | upsert tenantID deviceID mqttTopicPrefix =>
      obtain rfl := Option.some.inj h
      split
      · exact ⟨none, StepSpec.goOn trivial⟩
      · exact ⟨none, StepSpec.fail s tx⟩
  | claimInto c row =>
      obtain rfl := Option.some.inj h
      split
      · exact ⟨none, StepSpec.fail s tx⟩
      · split
        · exact ⟨none, StepSpec.fail s tx⟩
        · exact ⟨none, StepSpec.goOn trivial⟩
  | reserve tenantID deviceID =>
      simp only [stepBegin] at h
      split at h
      · obtain rfl := Option.some.inj h
        exact ⟨none, StepSpec.fail s tx⟩
      · next d hd =>
          split at h
          · next hfree =>
              obtain rfl := Option.some.inj h
              obtain ⟨hmem, htenant, hdevice⟩ := DeviceTable.find_eq_some.mp hd
              refine ⟨none, (Txns.Local.lock hfree).trans (Txns.Local.put _ tx _), Wrote.refl _, nofun, fun x hx => ?_⟩
              dsimp only at hx
              rw [Txns.put_txn] at hx
              obtain rfl := Option.some.inj hx
              exact ⟨Txns.held_lock, hmem, htenant, hdevice⟩
          · cases h
  | forget tenantID devicePk identity =>
      simp only [stepBegin] at h
      split at h
      · cases h
      · next hwaits =>
          obtain rfl := Option.some.inj h
          refine StepSpec.commit none (fun devices' hdevices' => ?_) nofun
          cases hforget : forgetBrokerIdentity s.devices tenantID devicePk identity with
          | error refusal =>
              rw [hforget] at hdevices'
              cases hdevices'
          | ok written =>
              rw [hforget] at hdevices'
              obtain rfl := Option.some.inj hdevices'
              refine Wrote.updateRows (forgetBrokerIdentity_spec hforget) (fun _ => ⟨rfl, rfl⟩) (fun d _ _ t ht => ?_) (fun d _ hp t ht => ?_)
                fun d hd hp => State.not_others_of_waits (Bool.eq_false_iff.mpr hwaits) hd hp
              · exact Or.inl (Device.records_forget.mp ht).1
              · by_cases heq : t = identity
                · have hid : d.id = devicePk := by simpa using (Bool.and_eq_true_iff.mp hp).1
                  exact Or.inl (by rw [heq, hid])
                · exact Or.inr (Device.records_forget.mpr ⟨ht, heq⟩)
  | reassign id targetTenant =>
      obtain rfl := Option.some.inj h
      split
      · exact ⟨none, StepSpec.fail s tx⟩
      · exact ⟨none, StepSpec.goOn trivial⟩
  | delete tenantID id =>
      simp only [stepBegin] at h
      split at h
      · cases h
      · next hwaits =>
          split at h
          · next hvisible =>
              obtain rfl := Option.some.inj h
              refine StepSpec.commit none (fun devices' hdevices' => ?_) nofun
              obtain rfl := Option.some.inj hdevices'
              refine Wrote.delete id fun d hd hid => ?_
              rw [DeviceTable.get_eq_some.mpr ⟨hd, hid⟩, Option.any_some] at hvisible
              exact State.not_others_of_waits (Bool.eq_false_iff.mpr hwaits) hd (by simpa [hid] using hvisible)
          · obtain rfl := Option.some.inj h
            exact ⟨none, StepSpec.fail s tx⟩

/-- A later statement; the identity a reservation puts on record was found at no other row. -/
theorem stepNext_spec (hinv : Inv s) {x : Txn} (hx : s.txns.txn tx = some x) {fresh : UUID} {r : State × Event}
    (h : stepNext cfg s tx fresh x = some r) : ∃ grown, StepSpec s r.1 tx grown r.2 := by
  have hown := hinv.each tx x hx
  cases x with
  | upsertInsert tenantID deviceID mqttTopicPrefix =>
      refine insertDevice_spec ?_ h
      exact fun _ => ⟨rfl, rfl, fun _ => Iff.rfl⟩
  | claimQuota c =>
      obtain rfl := Option.some.inj h
      split
      · exact ⟨none, StepSpec.goOn trivial⟩
      · exact ⟨none, StepSpec.fail s tx⟩
  | claimTaken c =>
      obtain rfl := Option.some.inj h
      split
      · exact ⟨none, StepSpec.fail s tx⟩
      · exact ⟨none, StepSpec.goOn trivial⟩
  | claimInsert c =>
      refine insertDevice_spec ?_ h
      exact fun _ => ⟨rfl, rfl, fun _ => Iff.rfl⟩
  | reserveCheck tenantID deviceID d =>
      obtain rfl := Option.some.inj h
      obtain ⟨hheld, hmem, htenant, hdevice⟩ := hown
      split
      · exact ⟨none, StepSpec.fail s tx⟩
      · next helsewhere =>
          refine ⟨none, StepSpec.goOn ⟨hheld, hmem, htenant, fun o ho hsame hne hrecords => helsewhere ?_⟩⟩
          exact List.any_eq_true.mpr ⟨o, ho, by simp [hsame, hdevice, hne, hrecords]⟩
  | reserveUpdate tenantID d =>
      obtain rfl := Option.some.inj h
      obtain ⟨hheld, hmem, htenant, -⟩ := hown
      refine StepSpec.commit (some (d.id, tenantID)) (fun devices' hdevices' => ?_) fun pk t heq => ?_
      · refine Wrote.updateRows hdevices' (fun _ => ⟨rfl, rfl⟩) (fun o ho hp t ht => ?_) (fun o ho hp t ht => ?_)
          fun o ho hp => ?_
        all_goals obtain rfl := DeviceTable.eq_of_id ho hmem (of_decide_eq_true hp)
        · rcases Device.records_setBroker.mp ht with hcurrent | hstale
          · exact Or.inr (by rw [Option.some.inj hcurrent])
          · exact Or.inl (records_of_staleAfterReserve hstale)
        · exact Or.inr (Device.Records.reserve ht)
        · rintro ⟨j, hj, hother⟩
          exact hj (Txns.Held.unique hother hheld)
      · obtain ⟨rfl, rfl⟩ := Prod.mk.inj (Option.some.inj heq)
        exact ⟨d, hx, rfl⟩
  | reassignQuota id targetTenant deviceID =>
      obtain rfl := Option.some.inj h
      split
      · exact ⟨none, StepSpec.goOn trivial⟩
      · exact ⟨none, StepSpec.fail s tx⟩
  | reassignUpdate id targetTenant =>
      simp only [stepNext] at h
      split at h
      · cases h
      · next hwaits =>
          split at h
          · obtain rfl := Option.some.inj h
            exact ⟨none, StepSpec.fail s tx⟩
          · obtain rfl := Option.some.inj h
            refine StepSpec.commit none (fun devices' hdevices' => ?_) nofun
            exact Wrote.updateRows hdevices' (fun _ => ⟨rfl, rfl⟩) (fun _ _ _ _ ht => Or.inl ht)
              (fun _ _ _ _ ht => Or.inr ht)
              fun d hd hp => State.not_others_of_waits (Bool.eq_false_iff.mpr hwaits) hd hp

theorem step_spec (hinv : Inv s) {a : Action} (h : step cfg s a = some (s', e)) :
    ∃ tx grown, StepSpec s s' tx grown e := by
  cases a with
  | begin tx call =>
      simp only [step] at h
      split at h
      · exact ⟨tx, stepBegin_spec h⟩
      · cases h
  | next tx fresh =>
      obtain ⟨x, hx, hnext⟩ := Option.bind_eq_some_iff.mp h
      exact ⟨tx, stepNext_spec hinv hx hnext⟩
  | rollback tx =>
      simp only [step] at h
      split at h
      · cases h
      · obtain ⟨rfl, rfl⟩ := Prod.mk.inj (Option.some.inj h)
        exact ⟨tx, none, StepSpec.fail s tx⟩

end steps

section runs

variable {cfg : Config} {s s' : State} {tx : Nat} {e : Event} {grown : Option (UUID × Slug)}

/-- A row with an identity on record comes from a row that had it, or that just got it. -/
theorem Wrote.source {devices devices' : DeviceTable} {others : UUID → Prop} {d' : Device} {t : Slug}
    (h : Wrote devices others grown e devices') (hd' : d' ∈ devices') (ht : d'.Records t) :
    ∃ d ∈ devices, d.id = d'.id ∧ d.deviceID = d'.deviceID ∧ (d.Records t ∨ grown = some (d.id, t)) := by
  rcases h.back d' hd' with hnone | ⟨d, hd, hid, hdevice, hrecords⟩
  · exact absurd ht (hnone t)
  · exact ⟨d, hd, hid, hdevice, hrecords t ht⟩

/-- An identity checked against the other rows is not at them after the step either, whichever transaction took it. -/
theorem StepSpec.stays_free (hspec : StepSpec s s' tx grown e) (hinv : Inv s) {tenantID : Slug} {d : Device}
    (hmem : d ∈ s.devices) (htenant : d.tenantID = tenantID)
    (hfree : ∀ o ∈ s.devices, o.deviceID = d.deviceID → o.id ≠ d.id → ¬ o.Records tenantID) :
    ∀ o ∈ s'.devices, o.deviceID = d.deviceID → o.id ≠ d.id → ¬ o.Records tenantID := by
  intro o' ho' hsame hne ht
  obtain ⟨o, ho, hid, hdevice, hrecords | hgrown⟩ := hspec.wrote.source ho' ht
  · exact hfree o ho (hdevice.trans hsame) (fun heq => hne (hid.symm.trans heq)) hrecords
  · -- the row that got it is in the same tenant, hence the same row
    obtain ⟨x, hx, hxid⟩ := hspec.grown _ _ hgrown
    obtain ⟨-, hxmem, hxtenant, -⟩ := hinv.each tx _ hx
    have hxo := DeviceTable.eq_of_id hxmem ho hxid
    rw [hxo] at hxtenant
    have heq := DeviceTable.eq_of_tenant_device ho hmem (hxtenant.trans htenant.symm) (hdevice.trans hsame)
    exact hne (hid.symm.trans (congrArg Device.id heq))

theorem StepSpec.inv (hspec : StepSpec s s' tx grown e) (hinv : Inv s) : Inv s' := by
  refine ⟨fun d₁' hd₁' d₂' hd₂' hsame t ht₁ ht₂ => ?_, hinv.each.step hspec.isLocal (fun j x hj hx hown => ?_) hspec.own⟩
  · obtain ⟨d₁, hd₁, hid₁, hdevice₁, hrecords₁⟩ := hspec.wrote.source hd₁' ht₁
    obtain ⟨d₂, hd₂, hid₂, hdevice₂, hrecords₂⟩ := hspec.wrote.source hd₂' ht₂
    have hdevices : d₁.deviceID = d₂.deviceID := by rw [hdevice₁, hdevice₂, hsame]
    refine DeviceTable.eq_of_id hd₁' hd₂' ?_
    rw [← hid₁, ← hid₂]
    -- the row that got the identity was checked against the other
    have hchecked : ∀ o ∈ s.devices, ∀ o' ∈ s.devices, o.deviceID = o'.deviceID → grown = some (o.id, t) →
        o'.Records t → o.id = o'.id := by
      intro o ho o' ho' hdev hgrown hrecords
      obtain ⟨x, hx, hxid⟩ := hspec.grown _ _ hgrown
      obtain ⟨-, hxmem, -, hfree⟩ := hinv.each tx _ hx
      obtain rfl := DeviceTable.eq_of_id hxmem ho hxid
      by_contra hne
      exact hfree o' ho' hdev.symm (fun heq => hne heq.symm) hrecords
    rcases hrecords₁ with hold₁ | hnew₁ <;> rcases hrecords₂ with hold₂ | hnew₂
    · exact congrArg Device.id (hinv.disjoint d₁ hd₁ d₂ hd₂ hdevices t hold₁ hold₂)
    · exact (hchecked d₂ hd₂ d₁ hd₁ hdevices.symm hnew₂ hold₁).symm
    · exact hchecked d₁ hd₁ d₂ hd₂ hdevices hnew₁ hold₂
    · rw [hnew₁] at hnew₂
      exact (Prod.mk.inj (Option.some.inj hnew₂)).1
  · cases x with
    | reserveCheck tenantID deviceID d =>
        obtain ⟨hheld, hmem, hrest⟩ := hown
        exact ⟨hheld, hspec.wrote.others d hmem ⟨j, hj, hheld⟩, hrest⟩
    | reserveUpdate tenantID d =>
        obtain ⟨hheld, hmem, htenant, hfree⟩ := hown
        exact ⟨hheld, hspec.wrote.others d hmem ⟨j, hj, hheld⟩, htenant, hspec.stays_free hinv hmem htenant hfree⟩
    | upsertInsert => trivial
    | claimQuota => trivial
    | claimTaken => trivial
    | claimInsert => trivial
    | reassignQuota => trivial
    | reassignUpdate => trivial

theorem inv_start {devices : DeviceTable} (h : DisjointRecords devices) : Inv (start devices) := ⟨h, Txns.Each.idle⟩

theorem Run.inv {devices : DeviceTable} (hstart : DisjointRecords devices) {log : List Event}
    (hrun : (system cfg).Run (start devices) log s) : Inv s :=
  hrun.invariant (fun _ s => Inv s) (inv_start hstart) fun _ _ _ _ _ hinv _ hstep =>
    let ⟨_, _, hspec⟩ := step_spec hinv hstep
    hspec.inv hinv

/-- An identity on record is on record after any run that neither forgets it there nor deletes the row. -/
theorem Inv.recorded_stays (hinv : Inv s) {pk : UUID} {t : Slug} (hrow : ∃ d ∈ s.devices, d.id = pk ∧ d.Records t)
    {log : List Event} (hrun : (system cfg).Run s log s') (hforgot : Event.forgot pk t ∉ log)
    (hdeleted : Event.deleted pk ∉ log) : Inv s' ∧ ∃ d ∈ s'.devices, d.id = pk ∧ d.Records t := by
  refine hrun.invariant (fun log s' => Event.forgot pk t ∉ log → Event.deleted pk ∉ log →
    Inv s' ∧ ∃ d ∈ s'.devices, d.id = pk ∧ d.Records t) (fun _ _ => ⟨hinv, hrow⟩) ?_ hforgot hdeleted
  intro log s₁ a s₂ e ih _ hstep hforgot hdeleted
  obtain ⟨hinv₁, d, hd, rfl, ht⟩ := ih (fun h => hforgot (List.mem_append_left _ h))
    fun h => hdeleted (List.mem_append_left _ h)
  obtain ⟨tx, grown, hspec⟩ := step_spec hinv₁ hstep
  refine ⟨hspec.inv hinv₁, ?_⟩
  rcases hspec.wrote.forth d hd with rfl | ⟨d', hd', hid, -, hrecords⟩
  · exact absurd (List.mem_append_right _ (List.mem_singleton_self _)) hdeleted
  · rcases hrecords t ht with rfl | hstays
    · exact absurd (List.mem_append_right _ (List.mem_singleton_self _)) hforgot
    · exact ⟨d', hd', hid, hstays⟩

theorem brokerIdentityOf_isOk {devices : DeviceTable} {d : Device} (hd : d ∈ devices) :
    ∃ b, brokerIdentityOf devices d.id d.tenantID = .ok b := by
  unfold brokerIdentityOf
  rw [DeviceTable.get_eq_some.mpr ⟨hd, rfl⟩]
  dsimp only
  split
  · exact ⟨_, rfl⟩
  · exact ⟨_, rfl⟩

/-- What a row answers to is on its record, or the tenant it is in when no other row of its device id records that. -/
theorem mem_tenants_brokerIdentityOf {devices : DeviceTable} {d : Device} (hd : d ∈ devices) {b : BrokerIdentity}
    (hb : brokerIdentityOf devices d.id d.tenantID = .ok b) {t : Slug} (ht : t ∈ b.tenants) :
    d.Records t ∨ t = d.tenantID ∧ ∀ o ∈ devices, o.deviceID = d.deviceID → o.id ≠ d.id → ¬ o.Records t := by
  unfold brokerIdentityOf at hb
  rw [DeviceTable.get_eq_some.mpr ⟨hd, rfl⟩] at hb
  dsimp only at hb
  split at hb
  · next recorded hrecorded =>
      obtain rfl := Except.ok.inj hb
      rcases BrokerIdentity.mem_tenants.mp ht with hcurrent | hstale
      · exact Or.inl (Or.inl (hrecorded.trans hcurrent))
      · exact Or.inl (Or.inr hstale)
  · obtain rfl := Except.ok.inj hb
    rcases BrokerIdentity.mem_tenants.mp ht with hcurrent | hstale
    · dsimp only at hcurrent
      split at hcurrent
      · cases hcurrent
      · next helsewhere =>
          obtain rfl := Option.some.inj hcurrent
          refine Or.inr ⟨rfl, fun o ho hsame hne hrecords => helsewhere ?_⟩
          exact List.any_eq_true.mpr ⟨o, ho, by simp [hsame, hne, hrecords]⟩
    · exact Or.inl (Or.inr hstale)

theorem brokerIdentityOf_disjoint {devices : DeviceTable} (h : DisjointRecords devices) {d d' : Device}
    (hd : d ∈ devices) (hd' : d' ∈ devices) (hne : d ≠ d') (hsame : d.deviceID = d'.deviceID) {b b' : BrokerIdentity}
    (hb : brokerIdentityOf devices d.id d.tenantID = .ok b) (hb' : brokerIdentityOf devices d'.id d'.tenantID = .ok b') :
    List.Disjoint b.tenants b'.tenants := by
  intro t ht ht'
  have hids : d.id ≠ d'.id := fun heq => hne (DeviceTable.eq_of_id hd hd' heq)
  rcases mem_tenants_brokerIdentityOf hd hb ht with hrecords | ⟨htenant, hfree⟩ <;>
    rcases mem_tenants_brokerIdentityOf hd' hb' ht' with hrecords' | ⟨htenant', hfree'⟩
  · exact hne (h d hd d' hd' hsame t hrecords hrecords')
  · exact hfree' d hd hsame hids hrecords
  · exact hfree d' hd' hsame.symm (Ne.symm hids) hrecords'
  · exact hne (DeviceTable.eq_of_tenant_device hd hd' (htenant.symm.trans htenant') hsame)

/-- In every reachable state the rows of one device id answer to disjoint identities; and what is on record at a row
is among its identities in every later state, until it is forgotten there or the row is deleted. -/
theorem broker_identity_exclusive {devices : DeviceTable} (hstart : DisjointRecords devices) {log : List Event}
    (hrun : (system cfg).Run (start devices) log s) :
    (∀ d ∈ s.devices, ∀ d' ∈ s.devices, d ≠ d' → d.deviceID = d'.deviceID →
      ∃ b b', brokerIdentityOf s.devices d.id d.tenantID = .ok b ∧ brokerIdentityOf s.devices d'.id d'.tenantID = .ok b' ∧
        List.Disjoint b.tenants b'.tenants) ∧
    ∀ d ∈ s.devices, ∀ t, d.Records t → ∀ log' s', (system cfg).Run s log' s' → Event.forgot d.id t ∉ log' →
      Event.deleted d.id ∉ log' → ∃ d' ∈ s'.devices, d'.id = d.id ∧ d'.Records t ∧
        ∃ b, brokerIdentityOf s'.devices d'.id d'.tenantID = .ok b ∧ t ∈ b.tenants := by
  have hinv := Run.inv hstart hrun
  constructor
  · intro d hd d' hd' hne hsame
    obtain ⟨b, hb⟩ := brokerIdentityOf_isOk hd
    obtain ⟨b', hb'⟩ := brokerIdentityOf_isOk hd'
    exact ⟨b, b', hb, hb', brokerIdentityOf_disjoint hinv.disjoint hd hd' hne hsame hb hb'⟩
  · intro d hd t ht log' s' hrun' hforgot hdeleted
    obtain ⟨-, d', hd', hid, ht'⟩ := hinv.recorded_stays ⟨d, hd, rfl, ht⟩ hrun' hforgot hdeleted
    exact ⟨d', hd', hid, ht', brokerIdentityOf_records hd' ht'⟩

end runs

section alone

variable {cfg : Config} {devices devices' : DeviceTable} {tenantID : Slug} {deviceID : String}

/-- Without another transaction the statements of a reservation are `reserveBrokerIdentity`. -/
theorem reserve_alone {id : BrokerIdentity} (h : reserveBrokerIdentity devices tenantID deviceID = .ok (devices', id)) :
    ∃ log s, (system cfg).Run (start devices) log s ∧ s.devices = devices' ∧ s.txns.Quiet := by
  obtain ⟨d, hmem, htenant, hdevice, helsewhere, hupdate, -⟩ := reserveBrokerIdentity_spec h
  have hd : devices.find tenantID deviceID = some d := DeviceTable.find_eq_some.mpr ⟨hmem, htenant, hdevice⟩
  let s₁ : State := ⟨devices, (Txns.idle.lock 0 d.id).put 0 (.reserveCheck tenantID deviceID d)⟩
  let s₂ : State := ⟨devices, s₁.txns.put 0 (.reserveUpdate tenantID d)⟩
  have hbegin : (system cfg).step (start devices) (.begin 0 (.reserve tenantID deviceID)) = some (s₁, .statement) := by
    simp [system, step, stepBegin, start, hd, Txns.mayLock, Txns.idle, s₁]
  have hcheck : (system cfg).step s₁ (.next 0 0) = some (s₂, .statement) := by
    simp only [system, step, s₁, s₂, Txns.put_txn, Option.bind_some, stepNext, if_neg helsewhere, State.goOn]
  have hwrite : (system cfg).step s₂ (.next 0 0) = some (⟨devices', s₂.txns.close 0⟩, .statement) := by
    simp only [system, step, s₂, Txns.put_txn, Option.bind_some, stepNext, hupdate, State.commit]
  refine ⟨_, _, ((Machine.Run.one hbegin).snoc trivial hcheck).snoc trivial hwrite, rfl, fun tx => ?_⟩
  by_cases htx : tx = 0
  · rw [htx, Txns.close_txn]
  · rw [(Txns.Local.close _ 0).other htx, (Txns.Local.put _ 0 _).other htx, (Txns.Local.put _ 0 _).other htx]
    rfl

end alone

def twoTenants : Config := ⟨0, [acme, beta]⟩

/-- A unit that was moved to another tenant after its identity was reserved. -/
def movedUnit : Device := ⟨1, beta, "pump", none, none, some acme, []⟩

/-- A unit of the same device id that was set up in the tenant the other left. -/
def nextUnit : Device := ⟨2, acme, "pump", none, none, none, []⟩

/-- The reassign starts while the reservation holds the row, and waits. -/
def movedActions : List Action :=
  [.begin 0 (.upsert acme "pump" ""), .next 0 1, .begin 1 (.reserve acme "pump"), .begin 2 (.reassign 1 beta), .next 2 0,
    .next 1 0, .next 1 0, .next 2 0, .begin 3 (.upsert acme "pump" ""), .next 3 2, .begin 4 (.reserve acme "pump"),
    .next 4 0]

theorem moved_runs : ((system twoTenants).execIf (fun _ _ _ => True) [] (start ∅) movedActions).any
    (fun r => decide (r.2.devices.rows = [movedUnit, nextUnit])) = true := by
  decide +kernel

theorem disjointRecords_empty : DisjointRecords ∅ := fun _ hd => absurd hd List.not_mem_nil

theorem moved_exclusive : ∃ log s, (system twoTenants).Run (start ∅) log s ∧ movedUnit ∈ s.devices ∧
    nextUnit ∈ s.devices ∧
    (∃ b b', brokerIdentityOf s.devices 1 beta = .ok b ∧ brokerIdentityOf s.devices 2 acme = .ok b' ∧
      List.Disjoint b.tenants b'.tenants) ∧
    ∃ d ∈ s.devices, d.id = 1 ∧ d.Records acme ∧
      ∃ b, brokerIdentityOf s.devices d.id d.tenantID = .ok b ∧ acme ∈ b.tenants := by
  obtain ⟨log, s, hrun, htest⟩ := Machine.exists_runIf_of_any moved_runs
  have hrows := of_decide_eq_true htest
  have hmoved : movedUnit ∈ s.devices := DeviceTable.mem_rows.mp (hrows ▸ List.mem_cons_self)
  have hnext : nextUnit ∈ s.devices :=
    DeviceTable.mem_rows.mp (hrows ▸ List.mem_cons_of_mem _ (List.mem_singleton_self _))
  obtain ⟨hdisjoint, hstays⟩ := broker_identity_exclusive disjointRecords_empty hrun.run
  exact ⟨log, s, hrun.run, hmoved, hnext, hdisjoint movedUnit hmoved nextUnit hnext (by decide) rfl,
    hstays movedUnit hmoved acme (Or.inl rfl) [] s .nil List.not_mem_nil List.not_mem_nil⟩

end ThesadaApp.BrokerRows
