import ThesadaApp.CertStatements
import ThesadaApp.MachineRun

/-!
The live certificate of a device and its `paired_at`. An issue holds the device from its first statement to its
end, so it knows every unrevoked row when it commits. A revoke takes the device in its second statement only: what was
committed since its first began stays live, and `paired_at` is cleared over it. Where that does not happen the two
agree.
-/

namespace ThesadaApp.CertRows

/-- At most one certificate is live, and the device is paired exactly if there is one. -/
structure Agree (d : Tables) : Prop where
  single : ∀ id ∈ d.live, ∀ id' ∈ d.live, id = id'
  paired : d.pairedAt ≠ none ↔ d.live ≠ []

/-- A revoke that clears `paired_at` has itself revoked every certificate that is live. -/
def RevokesAll (d : Tables) (t : Txn) : Prop :=
  t.point = .paired → t.call = .revoke → ∀ id ∈ d.live, (t.writes id).isSome = true

instance (d : Tables) (t : Txn) : Decidable (RevokesAll d t) :=
  inferInstanceAs (Decidable (t.point = .paired → t.call = .revoke → ∀ id ∈ d.live, (t.writes id).isSome = true))

def Call.isActivate : Call → Bool
  | .activate _ => true
  | _ => false

/-- An activate that sets `paired_at` finds no certificate live. -/
def ActivatesAlone (d : Tables) (t : Txn) : Prop := t.point = .paired → t.call.isActivate = true → d.live = []

instance (d : Tables) (t : Txn) : Decidable (ActivatesAlone d t) :=
  inferInstanceAs (Decidable (t.point = .paired → t.call.isActivate = true → d.live = []))

/-- The transaction that steps meets a condition on the committed rows. -/
def Stepping (p : Tables → Txn → Prop) (_log : List Event) (s : State) : Action → Prop
  | .next tx => ∀ t ∈ s.txns.txn tx, p s.tables t
  | _ => True

instance (p : Tables → Txn → Prop) [∀ d t, Decidable (p d t)] (log : List Event) (s : State) (a : Action) :
    Decidable (Stepping p log s a) := by
  cases a with
  | begin => exact inferInstanceAs (Decidable True)
  | next tx => exact inferInstanceAs (Decidable (∀ t ∈ s.txns.txn tx, p s.tables t))
  | rollback => exact inferInstanceAs (Decidable True)

/-- Both conditions on a write of `paired_at`. -/
def PairsKnown (d : Tables) (t : Txn) : Prop := RevokesAll d t ∧ ActivatesAlone d t

instance (d : Tables) (t : Txn) : Decidable (PairsKnown d t) :=
  inferInstanceAs (Decidable (RevokesAll d t ∧ ActivatesAlone d t))

def Tables.Unrevoked (d : Tables) (id : Nat) : Prop := ∃ r, d.certs id = some r ∧ r.revoked = false

def Tables.Live (d : Tables) (id : Nat) : Prop := ∃ r, d.certs id = some r ∧ r.live = true

/-- The ids in use come from the sequence. -/
def Tables.Below (d : Tables) : Prop := ∀ id r, d.certs id = some r → id < d.nextID

/-- At most one row is unrevoked. -/
def OneUnrevoked (d : Tables) : Prop := ∀ id id', d.Unrevoked id → d.Unrevoked id' → id = id'

/-- The calls that run `issueTx`. -/
def Call.Issues (c : Call) : Prop := c.newRow ≠ none

section rows

variable {d : Tables} {t : Txn} {c : Call} {id : Nat} {r : Row} {now : Time}

theorem Row.unrevoked_of_live (h : r.live = true) : r.revoked = false := by
  rw [Row.live, Bool.and_eq_true, Bool.not_eq_true'] at h
  exact h.1

theorem Tables.Live.unrevoked (h : d.Live id) : d.Unrevoked id := by
  obtain ⟨r, hr, hlive⟩ := h
  exact ⟨r, hr, Row.unrevoked_of_live hlive⟩

theorem Tables.mem_live (hbelow : d.Below) : id ∈ d.live ↔ d.Live id := by
  rw [Tables.live, List.mem_filter, List.mem_range, Option.any_eq_true]
  exact ⟨fun h => h.2, fun h => ⟨h.elim fun r hr => hbelow id r hr.1, h⟩⟩

theorem Agree.of_live (hbelow : d.Below) (hsingle : ∀ id id', d.Live id → d.Live id' → id = id')
    (hpaired : d.pairedAt ≠ none ↔ ∃ id, d.Live id) : Agree d := by
  refine ⟨fun id hid id' hid' => ?_, hpaired.trans ?_⟩
  · exact hsingle id id' ((Tables.mem_live hbelow).mp hid) ((Tables.mem_live hbelow).mp hid')
  · refine ⟨fun ⟨id, hid⟩ => List.ne_nil_of_mem ((Tables.mem_live hbelow).mpr hid), fun hne => ?_⟩
    obtain ⟨id, hid⟩ := List.exists_mem_of_ne_nil _ hne
    exact ⟨id, (Tables.mem_live hbelow).mp hid⟩

theorem Call.unrevoked_of_selects (h : c.selects id r = true) : r.revoked = false := by
  cases c <;> simp_all [Call.selects]

theorem Call.set_revoked (h : c.Issues ∨ c = .revoke) : (c.set now r).revoked = true := by
  cases c with
  | issue => rfl
  | issueWithIdentity => rfl
  | issuePending => rfl
  | activate certID => simp [Call.Issues, Call.newRow] at h
  | markFailed certID => simp [Call.Issues, Call.newRow] at h
  | revoke => rfl

theorem Call.newRow_live (h : c.newRow = some r) : r.live = true ↔ c.pairedAt now ≠ none := by
  cases c with
  | issue => obtain rfl := Option.some.inj h; simp [Row.live, Call.pairedAt]
  | issueWithIdentity => obtain rfl := Option.some.inj h; simp [Row.live, Call.pairedAt]
  | issuePending => obtain rfl := Option.some.inj h; simp [Row.live, Call.pairedAt]
  | activate => cases h
  | markFailed => cases h
  | revoke => cases h

theorem Txn.write_self : (t.write id r).writes id = some r := Function.update_self _ _ _

theorem Txn.write_of_ne {id' : Nat} (h : id' ≠ id) : (t.write id r).writes id' = t.writes id' := Function.update_of_ne h _ _

theorem Txn.apply_certs : (t.apply d).certs id = (t.writes id).or (d.certs id) := rfl

theorem Txn.apply_of_write {w : Row} (h : t.writes id = some w) : (t.apply d).certs id = some w := by
  rw [Txn.apply_certs, h]
  rfl

theorem Txn.apply_of_none (h : t.writes id = none) : (t.apply d).certs id = d.certs id := by
  rw [Txn.apply_certs, h]
  rfl

end rows

/-- The unrevoked rows have been written or are yet to be taken. -/
def Covers (d : Tables) (t : Txn) (todo : List Nat) : Prop := ∀ id, d.Unrevoked id → id ∈ todo ∨ t.writes id ≠ none

/-- An issue holds the device and has written every unrevoked row. -/
def Settled (d : Tables) (held : Lock → Prop) (t : Txn) : Prop :=
  (t.call.Issues → held .device ∧ Covers d t [] ∧ t.inserted ≠ none) ∧
    ∀ certID, t.call = .activate certID → ∃ id, t.writes id ≠ none

/-- What is known of a transaction at each of its statements. -/
def PointInv (d : Tables) (held : Lock → Prop) (t : Txn) : Point → Prop
  | .lockDevice => t.call.Issues
  | .update => t.call.Issues → held .device
  | .rows todo affected => (t.call.Issues → held .device ∧ Covers d t todo) ∧ (0 < affected → ∃ id, t.writes id ≠ none)
  | .insert => t.call.Issues ∧ held .device ∧ Covers d t []
  | .paired => Settled d held t ∧ ∀ certID, t.call ≠ .markFailed certID
  | .commit => Settled d held t ∧
      ((∃ certID, t.call = .markFailed certID) ∧ t.pairedAt = none ∨
        held .device ∧ (∀ certID, t.call ≠ .markFailed certID) ∧ t.pairedAt = some (t.call.pairedAt t.now) ∧
          (t.call = .revoke → ∀ id, d.Live id → t.writes id ≠ none) ∧
          (t.call.isActivate = true → ∀ id, ¬ d.Live id))

structure TxnInv (d : Tables) (held : Lock → Prop) (t : Txn) : Prop where
  /-- It has locked the rows it has written, which are committed as it found them. -/
  wrote : ∀ id w, t.writes id = some w → t.inserted = some id ∨
    held (.cert id) ∧ ∃ r, d.certs id = some r ∧ t.call.selects id r = true ∧ w = t.call.set t.now r
  inserted : ∀ id, t.inserted = some id → held .device ∧ d.certs id = none ∧ id < d.nextID ∧
    ∃ r, t.call.newRow = some r ∧ t.writes id = some r
  early : t.point ≠ .commit → t.pairedAt = none
  unset : t.point ≠ .paired → t.point ≠ .commit → t.inserted = none
  point : PointInv d held t t.point

/-- The committed rows change without the locks `held` noticing: their rows stay, and while the device is held no row
becomes unrevoked or live. -/
structure Kept (d d' : Tables) (held : Lock → Prop) : Prop where
  row : ∀ id, held (.cert id) → ∀ r, d.certs id = some r → d'.certs id = some r
  nextID : d.nextID ≤ d'.nextID
  device : held .device → ∀ id r', d'.certs id = some r' →
    ∃ r, d.certs id = some r ∧ (r'.revoked = false → r.revoked = false) ∧ (r'.live = true → r.live = true)

section kept

variable {d d' : Tables} {held held' : Lock → Prop} {t : Txn}

theorem Kept.none (h : Kept d d' held) (hdevice : held .device) {id : Nat} (hid : d.certs id = none) :
    d'.certs id = none := by
  cases hid' : d'.certs id with
  | none => rfl
  | some r' =>
      obtain ⟨r, hr, -⟩ := h.device hdevice id r' hid'
      rw [hid] at hr
      cases hr

theorem Kept.unrevoked (h : Kept d d' held) (hdevice : held .device) {id : Nat} (hid : d'.Unrevoked id) :
    d.Unrevoked id := by
  obtain ⟨r', hr', hrevoked⟩ := hid
  obtain ⟨r, hr, hback, -⟩ := h.device hdevice id r' hr'
  exact ⟨r, hr, hback hrevoked⟩

theorem Kept.live (h : Kept d d' held) (hdevice : held .device) {id : Nat} (hid : d'.Live id) : d.Live id := by
  obtain ⟨r', hr', hlive⟩ := hid
  obtain ⟨r, hr, -, hback⟩ := h.device hdevice id r' hr'
  exact ⟨r, hr, hback hlive⟩

theorem Covers.kept (h : Kept d d' held) (hdevice : held .device) {todo : List Nat} (hcovers : Covers d t todo) :
    Covers d' t todo := fun id hid => hcovers id (h.unrevoked hdevice hid)

theorem Settled.kept (h : Kept d d' held) (hsettled : Settled d held t) : Settled d' held t := by
  refine ⟨fun hissues => ?_, hsettled.2⟩
  obtain ⟨hdevice, hcovers, hinserted⟩ := hsettled.1 hissues
  exact ⟨hdevice, hcovers.kept h hdevice, hinserted⟩

theorem PointInv.kept (h : Kept d d' held) {p : Point} (hp : PointInv d held t p) : PointInv d' held t p := by
  cases p with
  | lockDevice => exact hp
  | update => exact hp
  | rows todo affected =>
      refine ⟨fun hissues => ?_, hp.2⟩
      obtain ⟨hdevice, hcovers⟩ := hp.1 hissues
      exact ⟨hdevice, hcovers.kept h hdevice⟩
  | insert => exact ⟨hp.1, hp.2.1, hp.2.2.kept h hp.2.1⟩
  | paired => exact ⟨hp.1.kept h, hp.2⟩
  | commit =>
      refine ⟨hp.1.kept h, ?_⟩
      rcases hp.2 with hfailed | ⟨hdevice, hcall, hpaired, hrevoke, hactivate⟩
      · exact Or.inl hfailed
      · exact Or.inr ⟨hdevice, hcall, hpaired, fun hcall id hid => hrevoke hcall id (h.live hdevice hid),
          fun hcall id hid => hactivate hcall id (h.live hdevice hid)⟩

/-- What holds of a transaction stays so while the others respect its locks. -/
theorem TxnInv.kept (h : Kept d d' held) (ht : TxnInv d held t) : TxnInv d' held t := by
  refine ⟨fun id w hw => ?_, fun id hid => ?_, ht.early, ht.unset, ht.point.kept h⟩
  · rcases ht.wrote id w hw with hinserted | ⟨hheld, r, hr, hselects, hset⟩
    · exact Or.inl hinserted
    · exact Or.inr ⟨hheld, r, h.row id hheld r hr, hselects, hset⟩
  · obtain ⟨hdevice, hnone, hbelow, hrow⟩ := ht.inserted id hid
    exact ⟨hdevice, h.none hdevice hnone, Nat.lt_of_lt_of_le hbelow h.nextID, hrow⟩

end kept

section commit

variable {d : Tables} {held held' : Lock → Prop} {t : Txn}

/-- A commit respects the locks of the others: without the device it only marks rows failed. -/
theorem TxnInv.kept_apply (h : TxnInv d held t) (hcommit : t.point = .commit) (hdisjoint : ∀ k, held k → ¬ held' k) :
    Kept d (t.apply d) held' := by
  refine ⟨fun id hheld r hr => ?_, Nat.le_refl _, fun hdevice id r' hr' => ?_⟩
  · cases hw : t.writes id with
    | none => rw [Txn.apply_of_none hw, hr]
    | some w =>
        rcases h.wrote id w hw with hinserted | ⟨hown, -⟩
        · rw [(h.inserted id hinserted).2.1] at hr
          cases hr
        · exact absurd hheld (hdisjoint _ hown)
  · have hpoint := h.point
    rw [hcommit] at hpoint
    rcases hpoint.2 with ⟨⟨certID, hcall⟩, -⟩ | ⟨hown, -⟩
    · cases hw : t.writes id with
      | none =>
          rw [Txn.apply_of_none hw] at hr'
          exact ⟨r', hr', fun h => h, fun h => h⟩
      | some w =>
          rw [Txn.apply_of_write hw] at hr'
          obtain rfl := Option.some.inj hr'
          rcases h.wrote id w hw with hinserted | ⟨-, r, hr, hselects, rfl⟩
          · exact absurd hdevice (hdisjoint _ (h.inserted id hinserted).1)
          · refine ⟨r, hr, fun _ => Call.unrevoked_of_selects hselects, fun hlive => ?_⟩
            rw [hcall] at hlive
            simp [Call.set, Row.live] at hlive
    · exact absurd hdevice (hdisjoint _ hown)

theorem TxnInv.below_apply (h : TxnInv d held t) (hbelow : d.Below) : (t.apply d).Below := by
  intro id r' hr'
  cases hw : t.writes id with
  | none =>
      rw [Txn.apply_of_none hw] at hr'
      exact hbelow id r' hr'
  | some w =>
      rcases h.wrote id w hw with hinserted | ⟨-, r, hr, -⟩
      · exact (h.inserted id hinserted).2.2.1
      · exact hbelow id r hr

/-- A row that is live after the commit: one it has left alone, or written so. -/
theorem TxnInv.live_apply (h : TxnInv d held t) {id : Nat} (hlive : (t.apply d).Live id) :
    (t.writes id = none ∧ d.Live id) ∨ (∃ r, t.inserted = some id ∧ t.call.newRow = some r ∧ r.live = true) ∨
      ∃ r, d.certs id = some r ∧ t.call.selects id r = true ∧ (t.call.set t.now r).live = true := by
  obtain ⟨r', hr', hlive⟩ := hlive
  cases hw : t.writes id with
  | none =>
      rw [Txn.apply_of_none hw] at hr'
      exact Or.inl ⟨rfl, r', hr', hlive⟩
  | some w =>
      rw [Txn.apply_of_write hw] at hr'
      obtain rfl := Option.some.inj hr'
      rcases h.wrote id w hw with hinserted | ⟨-, r, hr, hselects, rfl⟩
      · obtain ⟨-, -, -, r, hrow, hwrite⟩ := h.inserted id hinserted
        rw [hw] at hwrite
        obtain rfl := Option.some.inj hwrite
        exact Or.inr (Or.inl ⟨w, hinserted, hrow, hlive⟩)
      · exact Or.inr (Or.inr ⟨r, hr, hselects, hlive⟩)

/-- After an issue only the certificate it has inserted can be live. -/
theorem TxnInv.agree_issue (h : TxnInv d held t) (hbelow : d.Below) (hissues : t.call.Issues)
    (hcovers : Covers d t []) (hinserted : t.inserted ≠ none) (hpaired : t.pairedAt = some (t.call.pairedAt t.now)) :
    Agree (t.apply d) := by
  obtain ⟨k, hk⟩ := Option.ne_none_iff_exists'.mp hinserted
  obtain ⟨-, -, -, r, hrow, hwrite⟩ := h.inserted k hk
  have hlive : ∀ id, (t.apply d).Live id → id = k ∧ r.live = true := by
    intro id hid
    rcases h.live_apply hid with ⟨hnone, hid⟩ | ⟨r', hid, hrow', hlive⟩ | ⟨r', -, -, hlive⟩
    · rcases hcovers id hid.unrevoked with hnil | hsome
      · exact absurd hnil List.not_mem_nil
      · exact absurd hnone hsome
    · rw [hrow] at hrow'
      obtain rfl := Option.some.inj hrow'
      exact ⟨(Option.some.inj (hk.symm.trans hid)).symm, hlive⟩
    · have hrevoked := Row.unrevoked_of_live hlive
      rw [Call.set_revoked (Or.inl hissues)] at hrevoked
      cases hrevoked
  have hpair : (t.apply d).pairedAt = t.call.pairedAt t.now := by
    rw [Txn.apply, hpaired]
    rfl
  refine Agree.of_live (h.below_apply hbelow) (fun id id' hid hid' => (hlive id hid).1.trans (hlive id' hid').1.symm) ?_
  rw [hpair, ← Call.newRow_live hrow]
  exact ⟨fun hr => ⟨k, r, Txn.apply_of_write hwrite, hr⟩, fun ⟨id, hid⟩ => (hlive id hid).2⟩

/-- An activate that finds none live leaves its own certificate live. -/
theorem TxnInv.agree_activate (h : TxnInv d held t) (hbelow : d.Below) {certID : Nat} (hcall : t.call = .activate certID)
    (hwrote : ∃ id, t.writes id ≠ none) (hnone : ∀ id, ¬ d.Live id)
    (hpaired : t.pairedAt = some (t.call.pairedAt t.now)) : Agree (t.apply d) := by
  have hnew : t.call.newRow = none := by rw [hcall]; rfl
  have hcert : ∀ id r, t.call.selects id r = true → id = certID := by
    intro id r hselects
    rw [hcall] at hselects
    simp only [Call.selects, Bool.and_eq_true, decide_eq_true_eq] at hselects
    exact hselects.1.1
  have hlive : ∀ id, (t.apply d).Live id → id = certID := by
    intro id hid
    rcases h.live_apply hid with ⟨-, hid⟩ | ⟨r, -, hrow, -⟩ | ⟨r, -, hselects, -⟩
    · exact absurd hid (hnone id)
    · rw [hnew] at hrow
      cases hrow
    · exact hcert id r hselects
  have hpair : (t.apply d).pairedAt ≠ none := by
    rw [Txn.apply, hpaired, hcall]
    exact Option.some_ne_none _
  refine Agree.of_live (h.below_apply hbelow) (fun id id' hid hid' => (hlive id hid).trans (hlive id' hid').symm)
    ⟨fun _ => ?_, fun _ => hpair⟩
  obtain ⟨id, hid⟩ := hwrote
  obtain ⟨w, hw⟩ := Option.ne_none_iff_exists'.mp hid
  refine ⟨id, w, Txn.apply_of_write hw, ?_⟩
  rcases h.wrote id w hw with hinserted | ⟨-, r, -, hselects, rfl⟩
  · obtain ⟨-, -, -, r, hrow, -⟩ := h.inserted id hinserted
    rw [hnew] at hrow
    cases hrow
  · have hrevoked := Call.unrevoked_of_selects hselects
    rw [hcall]
    simp [Call.set, Row.live, hrevoked]

/-- A row that is marked failed was not live before either. -/
theorem TxnInv.agree_markFailed (h : TxnInv d held t) (hagree : Agree d) {certID : Nat}
    (hcall : t.call = .markFailed certID) (hpaired : t.pairedAt = none) : Agree (t.apply d) := by
  have hlive : ∀ id, (t.apply d).Live id ↔ d.Live id := by
    intro id
    constructor
    · intro hid
      rcases h.live_apply hid with ⟨-, hid⟩ | ⟨r, -, hrow, -⟩ | ⟨r, -, -, hlive⟩
      · exact hid
      · rw [hcall] at hrow
        cases hrow
      · rw [hcall] at hlive
        simp [Call.set, Row.live] at hlive
    · rintro ⟨r, hr, hlive⟩
      cases hw : t.writes id with
      | none => exact ⟨r, (Txn.apply_of_none hw).trans hr, hlive⟩
      | some w =>
          rcases h.wrote id w hw with hinserted | ⟨-, r', hr', hselects, -⟩
          · rw [(h.inserted id hinserted).2.1] at hr
            cases hr
          · rw [hr] at hr'
            obtain rfl := Option.some.inj hr'
            rw [hcall] at hselects
            simp_all [Call.selects, Row.live]
  have hsame : (t.apply d).live = d.live := by
    refine List.filter_congr fun id _ => ?_
    rw [Bool.eq_iff_iff, Option.any_eq_true, Option.any_eq_true]
    exact hlive id
  refine ⟨by rw [hsame]; exact hagree.single, ?_⟩
  rw [hsame, Txn.apply, hpaired]
  exact hagree.paired

/-- A revoke that has revoked every live certificate leaves none. -/
theorem TxnInv.agree_revoke (h : TxnInv d held t) (hbelow : d.Below) (hcall : t.call = .revoke)
    (hwrote : ∀ id, d.Live id → t.writes id ≠ none) (hpaired : t.pairedAt = some (t.call.pairedAt t.now)) :
    Agree (t.apply d) := by
  have hlive : ∀ id, ¬ (t.apply d).Live id := by
    intro id hid
    rcases h.live_apply hid with ⟨hnone, hid⟩ | ⟨r, -, hrow, -⟩ | ⟨r, -, -, hlive⟩
    · exact hwrote id hid hnone
    · rw [hcall] at hrow
      cases hrow
    · have hrevoked := Row.unrevoked_of_live hlive
      rw [Call.set_revoked (Or.inr hcall)] at hrevoked
      cases hrevoked
  have hpair : (t.apply d).pairedAt = none := by
    rw [Txn.apply, hpaired, hcall]
    rfl
  refine Agree.of_live (h.below_apply hbelow) (fun id _ hid => absurd hid (hlive id)) ?_
  rw [hpair]
  exact ⟨fun hne => absurd rfl hne, fun ⟨id, hid⟩ => absurd hid (hlive id)⟩

theorem TxnInv.agree_apply (h : TxnInv d held t) (hcommit : t.point = .commit) (hbelow : d.Below) (hagree : Agree d) :
    Agree (t.apply d) := by
  have hpoint := h.point
  rw [hcommit] at hpoint
  obtain ⟨⟨hissue, hactivate⟩, ⟨⟨certID, hcall⟩, hpaired⟩ | ⟨-, hcall, hpaired, hrevoked, halone⟩⟩ := hpoint
  · exact h.agree_markFailed hagree hcall hpaired
  · by_cases hissues : t.call.Issues
    · obtain ⟨-, hcovers, hinserted⟩ := hissue hissues
      exact h.agree_issue hbelow hissues hcovers hinserted hpaired
    · cases hkind : t.call with
      | issue => exact absurd (by rw [hkind]; nofun) hissues
      | issueWithIdentity => exact absurd (by rw [hkind]; nofun) hissues
      | issuePending => exact absurd (by rw [hkind]; nofun) hissues
      | activate certID =>
          exact h.agree_activate hbelow hkind (hactivate certID hkind) (halone (by rw [hkind]; rfl)) hpaired
      | markFailed certID => exact absurd hkind (hcall certID)
      | revoke => exact h.agree_revoke hbelow hkind (hrevoked hkind) hpaired

/-- An issue leaves its own row unrevoked, and the other calls none that was not. -/
theorem TxnInv.unrevoked_apply (h : TxnInv d held t) (hcommit : t.point = .commit) (hone : OneUnrevoked d) :
    OneUnrevoked (t.apply d) := by
  have hpoint := h.point
  rw [hcommit] at hpoint
  by_cases hissues : t.call.Issues
  · obtain ⟨-, hcovers, -⟩ := hpoint.1.1 hissues
    have hown : ∀ id, (t.apply d).Unrevoked id → t.inserted = some id := by
      rintro id ⟨r', hr', hrevoked⟩
      cases hw : t.writes id with
      | none =>
          rw [Txn.apply_of_none hw] at hr'
          exact absurd hw ((hcovers id ⟨r', hr', hrevoked⟩).resolve_left List.not_mem_nil)
      | some w =>
          rw [Txn.apply_of_write hw] at hr'
          obtain rfl := Option.some.inj hr'
          rcases h.wrote id w hw with hinserted | ⟨-, r, -, -, rfl⟩
          · exact hinserted
          · rw [Call.set_revoked (Or.inl hissues)] at hrevoked
            cases hrevoked
    exact fun id id' hid hid' => Option.some.inj ((hown id hid).symm.trans (hown id' hid'))
  · have hback : ∀ id, (t.apply d).Unrevoked id → d.Unrevoked id := by
      rintro id ⟨r', hr', hrevoked⟩
      cases hw : t.writes id with
      | none => exact ⟨r', (Txn.apply_of_none hw).symm.trans hr', hrevoked⟩
      | some w =>
          rcases h.wrote id w hw with hinserted | ⟨-, r, hr, hselects, -⟩
          · obtain ⟨-, -, -, r, hrow, -⟩ := h.inserted id hinserted
            exact absurd (by rw [Call.Issues, hrow]; exact Option.some_ne_none r) hissues
          · exact ⟨r, hr, Call.unrevoked_of_selects hselects⟩
    exact fun id id' hid hid' => hone id id' (hback id hid) (hback id' hid')

/-- The certificate an activate has found is the only unrevoked one, and pending. -/
theorem TxnInv.activatesAlone (h : TxnInv d held t) (hbelow : d.Below) (hone : OneUnrevoked d) : ActivatesAlone d t := by
  intro hpaired hactivate
  have hpoint := h.point
  rw [hpaired] at hpoint
  cases hkind : t.call with
  | activate certID =>
      obtain ⟨id, hid⟩ := hpoint.1.2 certID hkind
      obtain ⟨w, hw⟩ := Option.ne_none_iff_exists'.mp hid
      rcases h.wrote id w hw with hinserted | ⟨-, r, hr, hselects, -⟩
      · obtain ⟨-, -, -, row, hrow, -⟩ := h.inserted id hinserted
        rw [hkind] at hrow
        cases hrow
      · refine List.eq_nil_iff_forall_not_mem.mpr fun id' hid' => ?_
        have hlive := (Tables.mem_live hbelow).mp hid'
        obtain rfl := hone id' id hlive.unrevoked ⟨r, hr, Call.unrevoked_of_selects hselects⟩
        obtain ⟨r', hr', hstatus⟩ := hlive
        rw [hr] at hr'
        obtain rfl := Option.some.inj hr'
        rw [hkind] at hselects
        simp_all [Call.selects, Row.live]
  | issue => rw [hkind] at hactivate; cases hactivate
  | issueWithIdentity => rw [hkind] at hactivate; cases hactivate
  | issuePending => rw [hkind] at hactivate; cases hactivate
  | markFailed => rw [hkind] at hactivate; cases hactivate
  | revoke => rw [hkind] at hactivate; cases hactivate

end commit

section points

variable {d : Tables} {held held' : Lock → Prop} {t : Txn}

theorem Settled.mono (hheld : ∀ k, held k → held' k) (h : Settled d held t) : Settled d held' t :=
  ⟨fun hissues => ⟨hheld _ (h.1 hissues).1, (h.1 hissues).2⟩, h.2⟩

theorem PointInv.mono (hheld : ∀ k, held k → held' k) {p : Point} (h : PointInv d held t p) : PointInv d held' t p := by
  cases p with
  | lockDevice => exact h
  | update => exact fun hissues => hheld _ (h hissues)
  | rows todo affected => exact ⟨fun hissues => ⟨hheld _ (h.1 hissues).1, (h.1 hissues).2⟩, h.2⟩
  | insert => exact ⟨h.1, hheld _ h.2.1, h.2.2⟩
  | paired => exact ⟨h.1.mono hheld, h.2⟩
  | commit =>
      refine ⟨h.1.mono hheld, ?_⟩
      rcases h.2 with hfailed | ⟨hdevice, hrest⟩
      · exact Or.inl hfailed
      · exact Or.inr ⟨hheld _ hdevice, hrest⟩

theorem TxnInv.mono (hheld : ∀ k, held k → held' k) (h : TxnInv d held t) : TxnInv d held' t := by
  refine ⟨fun id w hw => ?_, fun id hid => ?_, h.early, h.unset, h.point.mono hheld⟩
  · rcases h.wrote id w hw with hinserted | ⟨hlock, hrow⟩
    · exact Or.inl hinserted
    · exact Or.inr ⟨hheld _ hlock, hrow⟩
  · exact ⟨hheld _ (h.inserted id hid).1, (h.inserted id hid).2⟩

/-- A transaction that has not inserted goes on without writing. -/
theorem TxnInv.goTo (h : TxnInv d held t) (hpaired : t.point ≠ .paired) (hcommit : t.point ≠ .commit) {p : Point}
    (hp : PointInv d held t p) : TxnInv d held { t with point := p } where
  wrote := h.wrote
  inserted := h.inserted
  early _ := h.early hcommit
  unset _ _ := h.unset hpaired hcommit
  point := hp

theorem Call.selects_of_issues {c : Call} (h : c.Issues) (id : Nat) (r : Row) : c.selects id r = !r.revoked := by
  cases c with
  | issue => rfl
  | issueWithIdentity => rfl
  | issuePending => rfl
  | activate => exact absurd rfl h
  | markFailed => exact absurd rfl h
  | revoke => rfl

/-- The snapshot of an issue holds every unrevoked row. -/
theorem covers_targets (hbelow : d.Below) (hissues : t.call.Issues) : Covers d t (d.targets t.call) := by
  rintro id ⟨r, hr, hrevoked⟩
  refine Or.inl (List.mem_filter.mpr ⟨List.mem_range.mpr (hbelow id r hr), ?_⟩)
  rw [hr, Option.any_some, Call.selects_of_issues hissues, hrevoked]
  rfl

/-- A row that no longer qualifies is none an issue has to revoke. -/
theorem Covers.skip {id : Nat} {todo : List Nat} (hissues : t.call.Issues) (h : Covers d t (id :: todo))
    (hskip : (d.certs id).filter (fun r => t.call.selects id r) = none) : Covers d t todo := by
  intro id' hid'
  rcases h id' hid' with hmem | hwrote
  · rcases List.mem_cons.mp hmem with rfl | hmem
    · obtain ⟨r, hr, hrevoked⟩ := hid'
      rw [hr, Option.filter_some, Call.selects_of_issues hissues, hrevoked] at hskip
      cases hskip
    · exact Or.inl hmem
  · exact Or.inr hwrote

theorem Covers.write {id : Nat} {todo : List Nat} (h : Covers d t (id :: todo)) (r : Row) :
    Covers d (t.write id r) todo := by
  intro id' hid'
  by_cases hsame : id' = id
  · rw [hsame, Txn.write_self]
    exact Or.inr (Option.some_ne_none _)
  · rw [Txn.write_of_ne hsame]
    rcases h id' hid' with hmem | hwrote
    · exact Or.inl ((List.mem_cons.mp hmem).resolve_left hsame)
    · exact Or.inr hwrote

theorem Txn.start_inv (call : Call) (now : Time) : TxnInv d held (.start call now) := by
  refine ⟨nofun, nofun, fun _ => rfl, fun _ _ => rfl, ?_⟩
  cases call with
  | issue => exact Option.some_ne_none _
  | issueWithIdentity => exact Option.some_ne_none _
  | issuePending => exact Option.some_ne_none _
  | activate => exact fun hissues => absurd rfl hissues
  | markFailed => exact fun hissues => absurd rfl hissues
  | revoke => exact fun hissues => absurd rfl hissues

/-- After the update of the certificates. -/
theorem TxnInv.afterUpdate (h : TxnInv d held t) {affected : Nat} (hpoint : t.point = .rows [] affected) {p : Point}
    (hp : t.call.afterUpdate affected = some p) : TxnInv d held { t with point := p } := by
  have hrows := h.point
  rw [hpoint] at hrows
  obtain ⟨hissue, hwrote⟩ := hrows
  refine h.goTo (by rw [hpoint]; nofun) (by rw [hpoint]; nofun) ?_
  have hearly : t.pairedAt = none := h.early (by rw [hpoint]; nofun)
  cases hkind : t.call with
  | issue =>
      rw [hkind] at hp
      obtain rfl := Option.some.inj hp
      have hissues : t.call.Issues := by rw [hkind]; exact Option.some_ne_none _
      exact ⟨hissues, hissue hissues⟩
  | issueWithIdentity =>
      rw [hkind] at hp
      obtain rfl := Option.some.inj hp
      have hissues : t.call.Issues := by rw [hkind]; exact Option.some_ne_none _
      exact ⟨hissues, hissue hissues⟩
  | issuePending =>
      rw [hkind] at hp
      obtain rfl := Option.some.inj hp
      have hissues : t.call.Issues := by rw [hkind]; exact Option.some_ne_none _
      exact ⟨hissues, hissue hissues⟩
  | activate certID =>
      rw [hkind, Call.afterUpdate] at hp
      split at hp
      · cases hp
      · next haffected =>
          obtain rfl := Option.some.inj hp
          refine ⟨⟨fun hissues => absurd (by rw [hkind]; rfl) hissues, fun _ _ => ?_⟩, by rw [hkind]; nofun⟩
          exact hwrote (Nat.pos_of_ne_zero haffected)
  | markFailed certID =>
      rw [hkind, Call.afterUpdate] at hp
      split at hp
      · cases hp
      · obtain rfl := Option.some.inj hp
        refine ⟨⟨fun hissues => absurd (by rw [hkind]; rfl) hissues, by rw [hkind]; nofun⟩, ?_⟩
        exact Or.inl ⟨⟨certID, hkind⟩, hearly⟩
  | revoke =>
      rw [hkind] at hp
      obtain rfl := Option.some.inj hp
      exact ⟨⟨fun hissues => absurd (by rw [hkind]; rfl) hissues, by rw [hkind]; nofun⟩, by rw [hkind]; nofun⟩

/-- The row is written and locked. -/
theorem TxnInv.takeRow (h : TxnInv d held t) {id : Nat} {todo : List Nat} {affected : Nat}
    (hpoint : t.point = .rows (id :: todo) affected) (hlock : held (.cert id)) {r : Row} (hr : d.certs id = some r)
    (hselects : t.call.selects id r = true) :
    TxnInv d held { t.write id (t.call.set t.now r) with point := .rows todo (affected + 1) } := by
  have hrows := h.point
  rw [hpoint] at hrows
  have hunset : t.inserted = none := h.unset (by rw [hpoint]; nofun) (by rw [hpoint]; nofun)
  refine ⟨fun id' w hw => ?_, fun id' hid' => ?_, fun _ => h.early (by rw [hpoint]; nofun), fun _ _ => hunset, ?_⟩
  · by_cases hsame : id' = id
    · subst hsame
      exact Or.inr ⟨hlock, r, hr, hselects, Option.some.inj (hw.symm.trans Txn.write_self)⟩
    · exact h.wrote id' w ((Txn.write_of_ne hsame).symm.trans hw)
  · cases hunset.symm.trans hid'
  · refine ⟨fun hissues => ?_, fun _ => ⟨id, ?_⟩⟩
    · exact ⟨(hrows.1 hissues).1, (hrows.1 hissues).2.write _⟩
    · exact fun hnone => Option.some_ne_none _ (Txn.write_self.symm.trans hnone)

/-- The insert takes an id nobody has. -/
theorem TxnInv.insert (h : TxnInv d held t) (hbelow : d.Below) (hpoint : t.point = .insert) {r : Row}
    (hrow : t.call.newRow = some r) : TxnInv { d with nextID := d.nextID + 1 } held
      { t.write d.nextID r with point := .paired, inserted := some d.nextID } := by
  have hinsert := h.point
  rw [hpoint] at hinsert
  obtain ⟨hissues, hdevice, hcovers⟩ := hinsert
  have hunset : t.inserted = none := h.unset (by rw [hpoint]; nofun) (by rw [hpoint]; nofun)
  have hunused : d.certs d.nextID = none := by
    cases hused : d.certs d.nextID with
    | none => rfl
    | some r' => exact absurd (hbelow _ _ hused) (Nat.lt_irrefl _)
  refine ⟨fun id' w hw => ?_, fun id' hid' => ?_, fun _ => h.early (by rw [hpoint]; nofun), fun hne => absurd rfl hne, ?_⟩
  · by_cases hsame : id' = d.nextID
    · exact Or.inl (congrArg some hsame.symm)
    · rcases h.wrote id' w ((Txn.write_of_ne hsame).symm.trans hw) with hinserted | hheld
      · cases hunset.symm.trans hinserted
      · exact Or.inr hheld
  · obtain rfl := Option.some.inj hid'
    exact ⟨hdevice, hunused, Nat.lt_succ_self _, r, hrow, Txn.write_self⟩
  · have hcovers' : Covers d (t.write d.nextID r) [] := Covers.write (fun id' hid' => Or.inr ?_) r
    · refine ⟨⟨fun _ => ⟨hdevice, hcovers', Option.some_ne_none _⟩, fun certID hcall => ?_⟩, fun certID hcall => ?_⟩
      · rw [show t.call = .activate certID from hcall] at hrow
        cases hrow
      · rw [show t.call = .markFailed certID from hcall] at hrow
        cases hrow
    · exact (hcovers id' hid').resolve_left List.not_mem_nil

end points

structure Inv (s : State) : Prop where
  below : s.tables.Below
  agree : Agree s.tables
  each : Txns.Each TxnInv s.tables s.txns

/-- What a step of a transaction does. -/
structure StepSpec (s s' : State) (tx : Nat) : Prop where
  isLocal : Txns.Local tx s.txns s'.txns
  kept : ∀ j, j ≠ tx → Kept s.tables s'.tables (s.txns.Held j)
  own : ∀ t, s'.txns.txn tx = some t → TxnInv s'.tables (s'.txns.Held tx) t
  below : s'.tables.Below
  agree : Agree s'.tables
  unrevoked : OneUnrevoked s.tables → OneUnrevoked s'.tables

/-- The transaction an action is of. -/
def Action.tx : Action → Nat
  | .begin tx _ _ _ | .next tx | .rollback tx => tx

section steps

variable {s s' : State} {tx : Nat} {t : Txn} {r : State × Event}

theorem Kept.refl (d : Tables) {held : Lock → Prop} : Kept d d held :=
  ⟨fun _ _ _ hr => hr, Nat.le_refl _, fun _ _ r hr => ⟨r, hr, fun h => h, fun h => h⟩⟩

theorem StepSpec.inv (h : StepSpec s s' tx) (hinv : Inv s) : Inv s' :=
  ⟨h.below, h.agree, hinv.each.step h.isLocal (fun j _ hj _ ht => ht.kept (h.kept j hj)) h.own⟩

theorem StepSpec.fail (hinv : Inv s) : StepSpec s (s.fail tx).1 tx :=
  ⟨Txns.Local.close s.txns tx, fun _ _ => Kept.refl _, fun _ ht => (nomatch Txns.close_txn.symm.trans ht), hinv.below,
    hinv.agree, fun h => h⟩

theorem StepSpec.put (hinv : Inv s) (ht : TxnInv s.tables (s.txns.Held tx) t) : StepSpec s (s.put tx t).1 tx := by
  refine ⟨Txns.Local.put s.txns tx t, fun _ _ => Kept.refl _, fun u hu => ?_, hinv.below, hinv.agree,
    fun h => h⟩
  obtain rfl := Option.some.inj (Txns.put_txn.symm.trans hu)
  exact ht

theorem StepSpec.lockPut (hinv : Inv s) {k : Lock} (hfree : s.txns.mayLock tx k = true)
    (ht : TxnInv s.tables ((s.txns.lock tx k).Held tx) t) : StepSpec s ((s.lock tx k).put tx t).1 tx := by
  refine ⟨(Txns.Local.lock hfree).trans (Txns.Local.put _ tx t), fun _ _ => Kept.refl _, fun u hu => ?_, hinv.below,
    hinv.agree, fun h => h⟩
  obtain rfl := Option.some.inj (Txns.put_txn.symm.trans hu)
  exact ht

theorem takeRow_spec (hinv : Inv s) (ht : TxnInv s.tables (s.txns.Held tx) t) {id : Nat} {todo : List Nat}
    {affected : Nat} (hpoint : t.point = .rows (id :: todo) affected) (hfree : s.txns.mayLock tx (.cert id) = true) :
    StepSpec s (takeRow s tx t id todo affected).1 tx := by
  unfold takeRow
  split
  · next hskip =>
      refine StepSpec.put hinv (ht.goTo (by rw [hpoint]; nofun) (by rw [hpoint]; nofun) ?_)
      have hrows := ht.point
      rw [hpoint] at hrows
      exact ⟨fun hissues => ⟨(hrows.1 hissues).1, (hrows.1 hissues).2.skip hissues hskip⟩, hrows.2⟩
  · next r hfound =>
      obtain ⟨hr, hselects⟩ := Option.filter_eq_some_iff.mp hfound
      exact StepSpec.lockPut hinv hfree
        ((ht.mono fun _ hk => hk.lock).takeRow hpoint Txns.held_lock hr hselects)

theorem insert_spec (hinv : Inv s) (ht : TxnInv s.tables (s.txns.Held tx) t) (hpoint : t.point = .insert)
    {row : Row} (hrow : t.call.newRow = some row) :
    StepSpec s (({ s with tables := { s.tables with nextID := s.tables.nextID + 1 } } : State).put tx
      { t.write s.tables.nextID row with point := .paired, inserted := some s.tables.nextID }).1 tx := by
  have hbelow : ({ s.tables with nextID := s.tables.nextID + 1 } : Tables).Below := fun id r hr =>
    Nat.lt_succ_of_lt (hinv.below id r hr)
  refine ⟨Txns.Local.put s.txns tx _, fun _ _ => ?_, fun u hu => ?_, hbelow, ?_, fun h => h⟩
  · exact ⟨fun _ _ _ hr => hr, Nat.le_succ _, fun _ _ r hr => ⟨r, hr, fun h => h, fun h => h⟩⟩
  · obtain rfl := Option.some.inj (Txns.put_txn.symm.trans hu)
    exact ht.insert hinv.below hpoint hrow
  · refine Agree.of_live hbelow (fun id id' hid hid' => ?_) (hinv.agree.paired.trans ⟨fun hne => ?_, fun ⟨id, hid⟩ => ?_⟩)
    · exact hinv.agree.single id ((Tables.mem_live hinv.below).mpr hid) id' ((Tables.mem_live hinv.below).mpr hid')
    · obtain ⟨id, hid⟩ := List.exists_mem_of_ne_nil _ hne
      exact ⟨id, (Tables.mem_live hinv.below).mp hid⟩
    · exact List.ne_nil_of_mem ((Tables.mem_live hinv.below).mpr hid)

/-- The write of `paired_at`, which meets the conditions. -/
theorem paired_spec (hinv : Inv s) (ht : TxnInv s.tables (s.txns.Held tx) t) (hpoint : t.point = .paired)
    (hknown : PairsKnown s.tables t) (hfree : s.txns.mayLock tx .device = true) :
    StepSpec s ((s.lock tx .device).put tx { t with point := .commit, pairedAt := some (t.call.pairedAt t.now) }).1 tx := by
  have hheld := ht.mono fun _ hk => hk.lock (k := .device)
  have hpaired := hheld.point
  rw [hpoint] at hpaired
  refine StepSpec.lockPut hinv hfree ⟨hheld.wrote, hheld.inserted, fun hne => absurd rfl hne, fun _ hne => absurd rfl hne,
    hpaired.1, Or.inr ⟨Txns.held_lock, hpaired.2, rfl, fun hcall id hid => ?_, fun hcall id hid => ?_⟩⟩
  · exact Option.isSome_iff_ne_none.mp (hknown.1 hpoint hcall id ((Tables.mem_live hinv.below).mpr hid))
  · have hmem := (Tables.mem_live hinv.below).mpr hid
    rw [hknown.2 hpoint hcall] at hmem
    exact absurd hmem List.not_mem_nil

theorem commit_spec (hinv : Inv s) (ht : TxnInv s.tables (s.txns.Held tx) t) (hpoint : t.point = .commit) :
    StepSpec s { s with tables := t.apply s.tables, txns := s.txns.close tx } tx := by
  refine ⟨Txns.Local.close s.txns tx, fun j hj => ?_, fun u hu => (nomatch Txns.close_txn.symm.trans hu),
    ht.below_apply hinv.below, ht.agree_apply hpoint hinv.below hinv.agree, ht.unrevoked_apply hpoint⟩
  exact ht.kept_apply hpoint fun k hk hk' => hj (Txns.Held.unique hk' hk)

theorem stepTxn_spec (hinv : Inv s) (htxn : s.txns.txn tx = some t) (hknown : PairsKnown s.tables t)
    (h : stepTxn s tx t = some r) : StepSpec s r.1 tx := by
  have ht := hinv.each tx t htxn
  unfold stepTxn at h
  split at h
  · next hpoint =>
      split at h
      · next hfree =>
          obtain rfl := Option.some.inj h
          refine StepSpec.lockPut hinv hfree ((ht.mono fun _ hk => hk.lock).goTo ?_ ?_ fun _ => Txns.held_lock)
          · rw [hpoint]; nofun
          · rw [hpoint]; nofun
      · cases h
  · next hpoint =>
      obtain rfl := Option.some.inj h
      have hupdate := ht.point
      rw [hpoint] at hupdate
      refine StepSpec.put hinv (ht.goTo (by rw [hpoint]; nofun) (by rw [hpoint]; nofun) ⟨fun hissues => ?_, nofun⟩)
      exact ⟨hupdate hissues, covers_targets hinv.below hissues⟩
  · next affected hpoint =>
      obtain rfl := Option.some.inj h
      split
      · exact StepSpec.fail hinv
      · next p hp => exact StepSpec.put hinv (ht.afterUpdate hpoint hp)
  · next id todo affected hpoint =>
      split at h
      · next hfree =>
          obtain rfl := Option.some.inj h
          exact takeRow_spec hinv ht hpoint hfree
      · cases h
  · next hpoint =>
      obtain ⟨row, hrow, rfl⟩ := Option.map_eq_some_iff.mp h
      exact insert_spec hinv ht hpoint hrow
  · next hpoint =>
      split at h
      · next hfree =>
          obtain rfl := Option.some.inj h
          exact paired_spec hinv ht hpoint hknown hfree
      · cases h
  · next hpoint =>
      obtain rfl := Option.some.inj h
      exact commit_spec hinv ht hpoint

theorem step_spec (hinv : Inv s) {log : List Event} {a : Action} (hok : Stepping PairsKnown log s a) {e : Event}
    (h : step s a = some (s', e)) : StepSpec s s' a.tx := by
  cases a with
  | begin tx tenantID now call =>
      simp only [step] at h
      split at h
      · cases h
      · next hidle =>
          split at h
          · obtain ⟨rfl, -⟩ := Prod.mk.inj (Option.some.inj h)
            refine ⟨Txns.Local.refl _, fun _ _ => Kept.refl _, fun t ht => ?_, hinv.below, hinv.agree, fun h => h⟩
            exact hinv.each tx t ht
          · obtain ⟨rfl, -⟩ := Prod.mk.inj (Option.some.inj h)
            exact StepSpec.put hinv (Txn.start_inv call now)
  | next tx =>
      obtain ⟨t, ht, hstep⟩ := Option.bind_eq_some_iff.mp h
      exact stepTxn_spec hinv ht (hok t ht) hstep
  | rollback tx =>
      simp only [step] at h
      split at h
      · cases h
      · obtain ⟨rfl, -⟩ := Prod.mk.inj (Option.some.inj h)
        exact StepSpec.fail hinv

theorem start_below (tenantID : Slug) (rows : List (Option Row)) (pairedAt : Option Time) :
    (start tenantID rows pairedAt).tables.Below := by
  intro id r hr
  exact (List.getElem?_eq_some_iff.mp (Option.join_eq_some_iff.mp hr)).1

theorem inv_start {tenantID : Slug} {rows : List (Option Row)} {pairedAt : Option Time}
    (hagree : Agree (start tenantID rows pairedAt).tables) : Inv (start tenantID rows pairedAt) :=
  ⟨start_below tenantID rows pairedAt, hagree, Txns.Each.idle⟩

end steps

section runs

variable {tenantID : Slug} {rows : List (Option Row)} {pairedAt : Option Time} {log : List Event} {s : State}

/-- Under every interleaving in which no `paired_at` is written over a live certificate the transaction does not know
of, the committed certificates and `paired_at` agree at every moment, and so when no transaction is open. -/
theorem paired_agrees (hagree : Agree (start tenantID rows pairedAt).tables)
    (hrun : system.RunIf (Stepping PairsKnown) (start tenantID rows pairedAt) log s) : Agree s.tables := by
  have hinv : Inv s := hrun.invariant (fun _ s => Inv s) (inv_start hagree) fun _ _ _ _ _ hinv hok hstep =>
    (step_spec hinv hok hstep).inv hinv
  exact hinv.agree

/-- From a start with at most one unrevoked row there is no more to ask of an activate. -/
theorem paired_agrees_of_oneUnrevoked (hagree : Agree (start tenantID rows pairedAt).tables)
    (hone : OneUnrevoked (start tenantID rows pairedAt).tables)
    (hrun : system.RunIf (Stepping RevokesAll) (start tenantID rows pairedAt) log s) :
    Agree s.tables ∧ OneUnrevoked s.tables := by
  have hinv : Inv s ∧ OneUnrevoked s.tables := by
    refine hrun.invariant (fun _ s => Inv s ∧ OneUnrevoked s.tables) ⟨inv_start hagree, hone⟩ ?_
    rintro log s a s' e ⟨hinv, hone⟩ hok hstep
    have hknown : Stepping PairsKnown log s a := by
      cases a with
      | begin => trivial
      | next tx => exact fun t ht => ⟨hok t ht, (hinv.each tx t ht).activatesAlone hinv.below hone⟩
      | rollback => trivial
    have hspec := step_spec hinv hknown hstep
    exact ⟨hspec.inv hinv, hspec.unrevoked hone⟩
  exact ⟨hinv.1.agree, hinv.2⟩

end runs

/-- Statement after statement of one transaction. -/
def statements (tx n : Nat) : List Action := List.replicate n (.next tx)

/-- A certificate is issued; a revoke and the next issue each wait for a row of the other, and the revoke is the one
rolled back; the new certificate is activated. -/
def deadlocked : List Action :=
  .begin 0 acme 1 (.issue "1f" "unit") :: statements 0 6 ++
    [.begin 1 acme 2 .revoke, .next 1, .begin 2 acme 3 (.issuePending "2e" "unit"), .next 2, .next 2, .next 1,
      .rollback 1] ++
    statements 2 5 ++ .begin 3 acme 4 (.activate 1) :: statements 3 5

theorem deadlocked_runs : (system.execIf (Stepping PairsKnown) [] (start acme [] none) deadlocked).any
    (fun r => decide (r.2.tables.live = [1]) && decide (r.2.tables.pairedAt = some 4)) = true := by
  decide +kernel

theorem agree_empty : Agree (start acme [] none).tables := ⟨nofun, fun hne => absurd rfl hne, fun hne => absurd rfl hne⟩

theorem deadlocked_agrees : ∃ log s, system.RunIf (Stepping PairsKnown) (start acme [] none) log s ∧
    Agree s.tables ∧ s.tables.live = [1] ∧ s.tables.pairedAt = some 4 := by
  obtain ⟨log, s, hrun, htest⟩ := Machine.exists_runIf_of_any deadlocked_runs
  obtain ⟨hlive, hpaired⟩ := Bool.and_eq_true_iff.mp htest
  exact ⟨log, s, hrun, paired_agrees agree_empty hrun, of_decide_eq_true hlive, of_decide_eq_true hpaired⟩

/-- A revoke finds no certificate; one is issued and committed; then the revoke clears `paired_at`. -/
def overlooked : List Action :=
  .begin 0 acme 1 .revoke :: statements 0 2 ++ .begin 1 acme 2 (.issue "1f" "unit") :: statements 1 6 ++ statements 0 2

theorem overlooked_isSome : (system.exec (start acme [] none) overlooked).isSome = true := by
  decide +kernel

theorem overlooked_disagrees : ∃ log s, system.Run (start acme [] none) log s ∧ s.txns.Quiet ∧
    Agree (start acme [] none).tables ∧ ¬ Agree s.tables := by
  refine ⟨_, _, Machine.run_of_exec (Option.some_get overlooked_isSome).symm, fun tx => ?_, agree_empty, fun hagree => ?_⟩
  · match tx with
    | 0 => rfl
    | 1 => rfl
    | _ + 2 => rfl
  · exact hagree.paired.mpr (by decide +kernel) (by decide +kernel)

end ThesadaApp.CertRows
