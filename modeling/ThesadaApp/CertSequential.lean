import ThesadaApp.CertStatements
import ThesadaApp.MachineRun

/-!
The statements of a call that no other transaction interrupts make the same of the tables as the call of the store.
-/

namespace ThesadaApp.CertRows

open Certs (CertStatus)

/-- No transaction but `tx` is in progress. -/
structure Alone (tx : Nat) (s : State) : Prop where
  others : ∀ j, j ≠ tx → s.txns.txn j = none
  locks : ∀ k, s.txns.mayLock tx k = true

/-- The versions of rows after an UPDATE has taken these. -/
def Txn.taken (t : Txn) (d : Tables) (ids : List Nat) (id : Nat) : Option Row :=
  if id ∈ ids then (((d.certs id).filter fun r => t.call.selects id r).map fun r => t.call.set t.now r).or (t.writes id)
  else t.writes id

section statements

variable {tx : Nat} {s s' : State} {t : Txn}

theorem Alone.put (h : Alone tx s) (t : Txn) : Alone tx (s.put tx t).1 :=
  ⟨fun j hj => (Function.update_of_ne hj _ _).trans (h.others j hj), h.locks⟩

theorem Alone.lock (h : Alone tx s) (k : Lock) : Alone tx (s.lock tx k) := by
  refine ⟨h.others, fun k' => ?_⟩
  by_cases hk : k' = k
  · simp [Txns.mayLock, State.lock, Txns.lock, hk]
  · simpa [Txns.mayLock, State.lock, Txns.lock, Function.update_of_ne hk] using h.locks k'

/-- An UPDATE takes its rows one after the other. -/
theorem rows_alone {todo : List Nat} {affected : Nat} (h : Alone tx s)
    (ht : s.txns.txn tx = some { t with point := .rows todo affected }) :
    ∃ log s' affected', system.Run s log s' ∧ Alone tx s' ∧ s'.tables = s.tables ∧
      s'.txns.txn tx = some { t with point := .rows [] affected', writes := t.taken s.tables todo } := by
  induction todo generalizing s t affected with
  | nil =>
      have htaken : t.taken s.tables [] = t.writes := funext fun _ => if_neg List.not_mem_nil
      exact ⟨[], s, affected, .nil, h, rfl, by rw [htaken]; exact ht⟩
  | cons id todo ih =>
      let t₀ : Txn := { t with point := .rows (id :: todo) affected }
      have hstep : system.step s (.next tx) = some (takeRow s tx t₀ id todo affected) := by
        simp only [system, step, ht, Option.bind_some, stepTxn, h.locks, if_true, t₀]
      cases hfound : (s.tables.certs id).filter fun r => t.call.selects id r with
      | none =>
          have hskip : takeRow s tx t₀ id todo affected = s.put tx { t with point := .rows todo affected } := by
            simp only [takeRow, t₀, hfound]
          rw [hskip] at hstep
          obtain ⟨log, s', affected', hrun, halone, htables, htxn⟩ :=
            ih (h.put { t with point := .rows todo affected }) Txns.put_txn
          have htaken : t.taken s.tables (id :: todo) = t.taken s.tables todo := by
            funext id'
            by_cases hsame : id' = id
            · simp [Txn.taken, hsame, hfound]
            · simp [Txn.taken, hsame]
          refine ⟨_, s', affected', (Machine.Run.one hstep).trans hrun, halone, htables, ?_⟩
          rw [htaken]
          exact htxn
      | some r =>
          let t₁ : Txn := t.write id (t.call.set t.now r)
          have htake : takeRow s tx t₀ id todo affected =
              (s.lock tx (.cert id)).put tx { t₁ with point := .rows todo (affected + 1) } := by
            simp only [takeRow, t₀, t₁, Txn.write, hfound]
          rw [htake] at hstep
          obtain ⟨log, s', affected', hrun, halone, htables, htxn⟩ :=
            ih ((h.lock (.cert id)).put { t₁ with point := .rows todo (affected + 1) }) Txns.put_txn
          have htaken : t.taken s.tables (id :: todo) = t₁.taken s.tables todo := by
            funext id'
            by_cases hsame : id' = id
            · simp [Txn.taken, hsame, t₁, Txn.write, hfound]
            · simp [Txn.taken, hsame, t₁, Txn.write]
          refine ⟨_, s', affected', (Machine.Run.one hstep).trans hrun, halone, htables, ?_⟩
          rw [htaken]
          exact htxn

theorem update_alone (h : Alone tx s) (ht : s.txns.txn tx = some { t with point := .update }) :
    ∃ log s' affected, system.Run s log s' ∧ Alone tx s' ∧ s'.tables = s.tables ∧
      s'.txns.txn tx =
        some { t with point := .rows [] affected, writes := t.taken s.tables (s.tables.targets t.call) } := by
  have hstep : system.step s (.next tx) =
      some (s.put tx { t with point := .rows (s.tables.targets t.call) 0 }) := by
    simp only [system, step, ht, Option.bind_some, stepTxn]
  obtain ⟨log, s', affected, hrun, hrest⟩ :=
    rows_alone (h.put { t with point := .rows (s.tables.targets t.call) 0 }) Txns.put_txn
  exact ⟨_, s', affected, (Machine.Run.one hstep).trans hrun, hrest⟩

/-- The last two statements. -/
theorem paired_alone (h : Alone tx s) (ht : s.txns.txn tx = some { t with point := .paired }) :
    ∃ log s', system.Run s log s' ∧ s'.txns.Quiet ∧
      s'.tables = ({ t with pairedAt := some (t.call.pairedAt t.now) } : Txn).apply s.tables := by
  let t₁ : Txn := { t with point := .commit, pairedAt := some (t.call.pairedAt t.now) }
  let s₁ : State := ((s.lock tx .device).put tx t₁).1
  let s₂ : State := { s₁ with tables := t₁.apply s.tables, txns := s₁.txns.close tx }
  have hpaired : system.step s (.next tx) = some (s₁, .statement) := by
    simp only [system, step, ht, Option.bind_some, stepTxn]
    exact if_pos (h.locks .device)
  have hcommit : system.step s₁ (.next tx) = some (s₂, .committed t.call) := by
    simp only [system, step, s₁, State.put, Txns.put_txn, Option.bind_some, stepTxn, t₁]
    rfl
  refine ⟨_, s₂, (Machine.Run.one hpaired).trans (Machine.Run.one hcommit), fun j => ?_, rfl⟩
  by_cases hj : j = tx
  · rw [hj]
    exact Txns.close_txn
  · rw [(Txns.Local.close s₁.txns tx).other hj]
    exact ((h.lock .device).put t₁).others j hj

end statements

def Row.ofCert (c : Certs.Certificate) : Row := ⟨c.serialHex, c.cn, c.pubkeyHex, c.status, c.revoked, c.revokedAt⟩

/-- The certificates of a device and its `paired_at` in the store. -/
def tablesOf (store : Certs.Store) (devicePk : UUID) (nextID : Nat) : Tables :=
  ⟨fun id => (store.certs.rows.find? fun c => c.id = id && c.devicePk = devicePk).map Row.ofCert, nextID,
    store.pairedAt devicePk⟩

theorem tablesOf_certs (store : Certs.Store) (devicePk : UUID) (nextID id : Nat) :
    (tablesOf store devicePk nextID).certs id =
      (store.certs.rows.find? fun c => c.id = id && c.devicePk = devicePk).map Row.ofCert := rfl

theorem setPairedAt_certs (store : Certs.Store) (devicePk : UUID) (pairedAt : Option Time) :
    (store.setPairedAt devicePk pairedAt).certs = store.certs := rfl

theorem setPairedAt_self (store : Certs.Store) (devicePk : UUID) (pairedAt : Option Time) :
    (store.setPairedAt devicePk pairedAt).pairedAt devicePk = pairedAt := Function.update_self _ _ _

section store

variable {store store' : Certs.Store} {tenantID : Slug} {devicePk : UUID} {now : Time} {nextID : Nat} {t : Txn}

theorem revokeRow_key (c : Certs.Certificate) :
    (Certs.revokeRow now devicePk c).id = c.id ∧ (Certs.revokeRow now devicePk c).devicePk = c.devicePk := by
  unfold Certs.revokeRow
  split
  · exact ⟨rfl, rfl⟩
  · exact ⟨rfl, rfl⟩

theorem find_revokeRow (rows : List Certs.Certificate) (id : Nat) :
    (rows.map (Certs.revokeRow now devicePk)).find? (fun c => c.id = id && c.devicePk = devicePk) =
      (rows.find? fun c => c.id = id && c.devicePk = devicePk).map (Certs.revokeRow now devicePk) := by
  rw [List.find?_map]
  congr 2
  funext c
  simp only [Function.comp_apply, (revokeRow_key c).1, (revokeRow_key c).2]

/-- The UPDATE of an issue or a revoke leaves the rows as `revokeRow` does. -/
theorem taken_revokeRow (hselects : ∀ id r, t.call.selects id r = !r.revoked)
    (hset : ∀ r, t.call.set t.now r = { r with revoked := true, revokedAt := some t.now }) (hwrites : t.writes = fun _ => none)
    (hids : ∀ c ∈ store.certs, c.id < nextID) (id : Nat) :
    (t.taken (tablesOf store devicePk nextID) ((tablesOf store devicePk nextID).targets t.call) id).or
        ((tablesOf store devicePk nextID).certs id) =
      ((store.certs.rows.find? fun c => c.id = id && c.devicePk = devicePk).map (Certs.revokeRow t.now devicePk)).map
        Row.ofCert := by
  cases hfound : store.certs.rows.find? fun c => c.id = id && c.devicePk = devicePk with
  | none => simp [Txn.taken, tablesOf, hfound, hwrites]
  | some c =>
      obtain ⟨hid, hdevice⟩ : c.id = id ∧ c.devicePk = devicePk := by simpa using List.find?_some hfound
      have hbelow : id < nextID := hid ▸ hids c (List.mem_of_find?_eq_some hfound)
      cases hrevoked : c.revoked with
      | false =>
          simp [Txn.taken, Tables.targets, tablesOf, hbelow, hfound, hselects, hset, hrevoked, hdevice, Row.ofCert,
            Certs.revokeRow, Option.filter_some]
      | true =>
          simp [Txn.taken, Tables.targets, tablesOf, hfound, hselects, hrevoked, hwrites, Row.ofCert, Certs.revokeRow]

theorem afterUpdate_alone {tx : Nat} {s : State} {affected : Nat} {p : Point} (h : Alone tx s)
    (ht : s.txns.txn tx = some { t with point := .rows [] affected }) (hp : t.call.afterUpdate affected = some p) :
    system.Run s [.statement] (s.put tx { t with point := p }).1 ∧ Alone tx (s.put tx { t with point := p }).1 := by
  refine ⟨Machine.Run.one (a := .next tx) ?_, h.put _⟩
  simp only [system, step, ht, Option.bind_some, stepTxn, hp]
  rfl

/-- Without another transaction the statements of a revoke are `revoke` of the store. -/
theorem revoke_alone (hids : ∀ c ∈ store.certs, c.id < nextID) (hvisible : store.visible tenantID devicePk = true)
    (h : Certs.revoke store tenantID devicePk now = .ok store') :
    ∃ log s, system.Run ⟨tenantID, tablesOf store devicePk nextID, .idle⟩ log s ∧ s.txns.Quiet ∧
      s.tables = tablesOf store' devicePk nextID := by
  let t : Txn := .start .revoke now
  let s₀ : State := ⟨tenantID, tablesOf store devicePk nextID, .idle⟩
  have hidle : Alone 0 s₀ := ⟨fun _ _ => rfl, fun _ => rfl⟩
  have hbegin : system.step s₀ (.begin 0 tenantID now .revoke) = some (s₀.put 0 t) := by
    simp [system, step, s₀, t, Call.refused, Txns.idle]
  obtain ⟨_, s₁, affected, hrun₁, halone₁, htables₁, htxn₁⟩ := update_alone (t := t) (hidle.put t) Txns.put_txn
  let t₁ : Txn := { t with writes := t.taken s₀.tables (s₀.tables.targets t.call) }
  obtain ⟨hrun₂, halone₂⟩ := afterUpdate_alone (t := t₁) (p := .paired) halone₁ htxn₁ rfl
  obtain ⟨_, s₃, hrun₃, hquiet, htables₃⟩ := paired_alone (t := t₁) halone₂ Txns.put_txn
  refine ⟨_, s₃, (((Machine.Run.one hbegin).trans hrun₁).trans hrun₂).trans hrun₃, hquiet, ?_⟩
  have hsame : (s₁.put 0 { t₁ with point := .paired }).1.tables = tablesOf store devicePk nextID := htables₁
  rw [htables₃, hsame]
  rw [Certs.revoke, if_pos hvisible] at h
  cases hcommit : Certs.CertTable.commit (store.certs.rows.map (Certs.revokeRow now devicePk)) with
  | none =>
      rw [Certs.setCerts, hcommit] at h
      cases h
  | some certs =>
      rw [Certs.setCerts, hcommit] at h
      obtain rfl := Except.ok.inj h
      have hrows := Certs.CertTable.commit_eq_some hcommit
      refine Tables.ext (funext fun id => ?_) rfl (setPairedAt_self _ devicePk none).symm
      rw [tablesOf_certs, setPairedAt_certs, hrows, find_revokeRow]
      exact taken_revokeRow (t := t) (fun _ _ => rfl) (fun _ => rfl) rfl hids id

/-- Without another transaction the statements of an issue are `issueTx` of the store and its write of `paired_at`. -/
theorem issue_alone {call : Call} {n : Certs.NewCert} {status : CertStatus} {pubkeyHex : String} {c : Certs.Certificate}
    (hissues : call.newRow =
      some ⟨n.serialHex, n.cn, if pubkeyHex = "" then none else some pubkeyHex, status, false, none⟩)
    (hrefused : call.refused = false) (hids : ∀ c ∈ store.certs, c.id < n.id)
    (h : Certs.issueTx store tenantID devicePk now n status pubkeyHex = .ok (store', c)) :
    ∃ log s, system.Run ⟨tenantID, tablesOf store devicePk n.id, .idle⟩ log s ∧ s.txns.Quiet ∧
      s.tables = tablesOf (store'.setPairedAt devicePk (call.pairedAt now)) devicePk (n.id + 1) := by
  let row : Row := ⟨n.serialHex, n.cn, if pubkeyHex = "" then none else some pubkeyHex, status, false, none⟩
  have hcall : call.first = .lockDevice ∧ (∀ affected, call.afterUpdate affected = some .insert) ∧
      (∀ id r, call.selects id r = !r.revoked) ∧ ∀ r, call.set now r = { r with revoked := true, revokedAt := some now } := by
    cases call with
    | issue => exact ⟨rfl, fun _ => rfl, fun _ _ => rfl, fun _ => rfl⟩
    | issueWithIdentity => exact ⟨rfl, fun _ => rfl, fun _ _ => rfl, fun _ => rfl⟩
    | issuePending => exact ⟨rfl, fun _ => rfl, fun _ _ => rfl, fun _ => rfl⟩
    | activate => cases hissues
    | markFailed => cases hissues
    | revoke => cases hissues
  obtain ⟨hfirst, hafter, hselects, hset⟩ := hcall
  let t : Txn := .start call now
  let s₀ : State := ⟨tenantID, tablesOf store devicePk n.id, .idle⟩
  let s₁ : State := (s₀.put 0 t).1
  let s₂ : State := ((s₁.lock 0 .device).put 0 { t with point := .update }).1
  have hidle : Alone 0 s₀ := ⟨fun _ _ => rfl, fun _ => rfl⟩
  have halone₂ : Alone 0 s₂ := ((hidle.put t).lock .device).put _
  have hbegin : system.step s₀ (.begin 0 tenantID now call) = some (s₁, .statement) := by
    simp [system, step, s₀, s₁, t, hrefused, Txns.idle, State.put]
  have hlock : system.step s₁ (.next 0) = some (s₂, .statement) := by
    have hpoint : t.point = .lockDevice := hfirst
    simp only [system, step, s₁, State.put, Txns.put_txn, Option.bind_some, stepTxn, hpoint]
    exact if_pos ((hidle.put t).locks .device)
  obtain ⟨_, s₃, affected, hrun₃, halone₃, htables₃, htxn₃⟩ := update_alone (t := t) halone₂ Txns.put_txn
  let t₃ : Txn := { t with writes := t.taken s₀.tables (s₀.tables.targets t.call) }
  obtain ⟨hrun₄, halone₄⟩ := afterUpdate_alone (t := t₃) (p := .insert) halone₃ htxn₃ (hafter affected)
  let s₄ : State := (s₃.put 0 { t₃ with point := .insert }).1
  let t₅ : Txn := { t₃.write n.id row with inserted := some n.id }
  let s₅ : State := (({ s₄ with tables := { s₄.tables with nextID := n.id + 1 } } : State).put 0 { t₅ with point := .paired }).1
  have hnext : s₄.tables.nextID = n.id := congrArg Tables.nextID htables₃
  have hinsert : system.step s₄ (.next 0) = some (s₅, .statement) := by
    have hnew : t₃.call.newRow = some row := hissues
    simp only [system, step, s₄, State.put, Txns.put_txn, Option.bind_some, stepTxn, hnew, Option.map_some]
    rw [show s₃.tables.nextID = n.id from hnext]
    rfl
  have halone₅ : Alone 0 s₅ := ⟨(halone₄.put { t₅ with point := .paired }).others, halone₄.locks⟩
  obtain ⟨_, s₆, hrun₆, hquiet, htables₆⟩ := paired_alone (t := t₅) halone₅ Txns.put_txn
  refine ⟨_, s₆, ((((Machine.Run.one hbegin).trans (Machine.Run.one hlock)).trans hrun₃).trans hrun₄).trans
    ((Machine.Run.one hinsert).trans hrun₆), hquiet, ?_⟩
  have hcerts : s₃.tables.certs = s₂.tables.certs := congrArg Tables.certs htables₃
  have hpaired : s₃.tables.pairedAt = s₂.tables.pairedAt := congrArg Tables.pairedAt htables₃
  have htables : s₅.tables = tablesOf store devicePk (n.id + 1) := Tables.ext hcerts rfl hpaired
  rw [htables₆, htables]
  unfold Certs.issueTx at h
  split at h
  · cases h
  · dsimp only at h
    split at h
    · next certs hcommit =>
        obtain ⟨rfl, rfl⟩ := Prod.mk.inj (Except.ok.inj h)
        have hrows := Certs.CertTable.commit_eq_some hcommit
        refine Tables.ext (funext fun id => ?_) rfl (setPairedAt_self _ devicePk _).symm
        rw [tablesOf_certs, setPairedAt_certs, hrows, List.find?_append, find_revokeRow]
        by_cases hid : id = n.id
        · have hnone : (store.certs.rows.find? fun c => c.id = n.id && c.devicePk = devicePk) = none := by
            refine List.find?_eq_none.mpr fun c hc => ?_
            have hne : c.id ≠ n.id := Nat.ne_of_lt (hids c hc)
            simp [hne]
          rw [hid, hnone]
          simp [Txn.apply, t₅, Txn.write, row, Row.ofCert]
        · have hkept : (Txn.apply { t₅ with pairedAt := some (t₅.call.pairedAt t₅.now) }
              (tablesOf store devicePk (n.id + 1))).certs id = (t₃.writes id).or ((tablesOf store devicePk n.id).certs id) := by
            simp only [Txn.apply, t₅, Txn.write, Function.update_of_ne hid]
            rfl
          rw [hkept, taken_revokeRow (t := t) hselects hset rfl hids id]
          simp [Ne.symm hid]
          rfl
    · cases h

end store

end ThesadaApp.CertRows
