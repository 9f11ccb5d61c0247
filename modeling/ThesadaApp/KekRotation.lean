import ThesadaApp.KekStatements

/-!
A rotation of the root KEK keeps every data key, whatever runs beside it. What a run has scanned of a row may be old by
the time it writes, but only by another rotation of the row, which wraps the same data key. A row that is minted while
a run goes on is left to the next run.
-/

namespace ThesadaApp.Secrets.Kek

section rows

variable {ν β : Type} {cfg : Config ν β} {rows rows' rows'' : DekTable β} {row : DekRow β} {dek : Key} {t : Slug}
  {updates : List (Slug × β)}

/-- What the row holds, unwrapped with the old key or else with the new one. -/
def dataKey (cfg : Config ν β) (row : DekRow β) : Option Key :=
  (unwrapDEK cfg.gcm cfg.kek row.wrappedDEK (dekAAD row.tenantID)).or
    (unwrapDEK cfg.gcm cfg.newKEK row.wrappedDEK (dekAAD row.tenantID))

/-- The row unwraps under the new key. -/
def OnNewKey (cfg : Config ν β) (row : DekRow β) : Prop :=
  (unwrapDEK cfg.gcm cfg.newKEK row.wrappedDEK (dekAAD row.tenantID)).isSome = true

/-- A DEK as a process wraps it: itself, once. -/
inductive WrappedOnce (cfg : Config ν β) (t : Slug) (dek : Key) : β → Prop
  | old (nonce : ν) : WrappedOnce cfg t dek (wrapDEK cfg.gcm cfg.kek nonce dek (dekAAD t))
  | new (nonce : ν) : WrappedOnce cfg t dek (wrapDEK cfg.gcm cfg.newKEK nonce dek (dekAAD t))

theorem WrappedOnce.dataKey (h : WrappedOnce cfg row.tenantID dek row.wrappedDEK) : dataKey cfg row = some dek := by
  unfold Kek.dataKey
  generalize row.wrappedDEK = b at h
  cases h with
  | old nonce => rw [unwrapDEK_wrapDEK, Option.some_or]
  | new nonce =>
      by_cases hsame : cfg.kek = cfg.newKEK
      · rw [hsame, unwrapDEK_wrapDEK, Option.some_or]
      · rw [unwrapDEK_of_key_ne hsame, unwrapDEK_wrapDEK, Option.none_or]

/-- No row has gone, none has another data key, and a row that is wrapped anew is on the new key. -/
def Steady (cfg : Config ν β) (rows rows' : DekTable β) : Prop :=
  ∀ t row, rows.find t = some row → ∃ row', rows'.find t = some row' ∧ dataKey cfg row' = dataKey cfg row ∧
    (row'.wrappedDEK = row.wrappedDEK ∨ OnNewKey cfg row')

theorem OnNewKey.of_wrapped {row' : DekRow β} (h : OnNewKey cfg row) (htenant : row'.tenantID = row.tenantID)
    (hwrapped : row'.wrappedDEK = row.wrappedDEK) : OnNewKey cfg row' := by
  unfold OnNewKey
  rw [htenant, hwrapped]
  exact h

theorem Steady.refl (rows : DekTable β) : Steady cfg rows rows := fun _ row hrow => ⟨row, hrow, rfl, .inl rfl⟩

theorem Steady.trans (h : Steady cfg rows rows') (h' : Steady cfg rows' rows'') : Steady cfg rows rows'' := by
  intro t row hrow
  obtain ⟨row', hrow', hkey, hwrapped⟩ := h t row hrow
  obtain ⟨row'', hrow'', hkey', hwrapped'⟩ := h' t row' hrow'
  refine ⟨row'', hrow'', hkey'.trans hkey, ?_⟩
  rcases hwrapped' with hsame | hnew
  · rcases hwrapped with hsame' | hnew
    · exact .inl (hsame.trans hsame')
    · exact .inr (hnew.of_wrapped ((KeyedTable.find_key hrow'').trans (KeyedTable.find_key hrow').symm) hsame)
  · exact .inr hnew

/-- The update wraps the data key that the row has. -/
def Fits (cfg : Config ν β) (rows : DekTable β) (u : Slug × β) : Prop :=
  ∃ nonce dek row, u.2 = wrapDEK cfg.gcm cfg.newKEK nonce dek (dekAAD u.1) ∧ rows.find u.1 = some row ∧
    dataKey cfg row = some dek

theorem Fits.steady {u : Slug × β} (h : Fits cfg rows u) (hsteady : Steady cfg rows rows') : Fits cfg rows' u := by
  obtain ⟨nonce, dek, row, hwrapped, hrow, hkey⟩ := h
  obtain ⟨row', hrow', hkey', -⟩ := hsteady _ row hrow
  exact ⟨nonce, dek, row', hwrapped, hrow', hkey'.trans hkey⟩

theorem Fits.rewrap {u : Slug × β} (h : Fits cfg rows u) : Steady cfg rows (rewrap rows u.1 u.2) := by
  intro t row hrow
  rw [find_rewrap, hrow]
  split
  · next hown =>
      obtain ⟨nonce, dek, row₁, hwrapped, hrow₁, hkey⟩ := h
      obtain rfl := Option.some.inj (hrow.symm.trans (hown ▸ hrow₁))
      have htenant : row.tenantID = u.1 := (KeyedTable.find_key hrow).trans hown
      refine ⟨_, rfl, ?_, .inr ?_⟩
      · rw [hkey]
        refine WrappedOnce.dataKey ?_
        dsimp only
        rw [hwrapped, htenant]
        exact .new nonce
      · unfold OnNewKey
        dsimp only
        rw [hwrapped, htenant, unwrapDEK_wrapDEK]
        rfl
  · exact ⟨row, rfl, rfl, .inl rfl⟩

theorem applyUpdates_steady (h : ∀ u ∈ updates, Fits cfg rows u) : Steady cfg rows (applyUpdates rows updates) := by
  induction updates generalizing rows with
  | nil => exact .refl rows
  | cons u updates ih =>
      have hfirst := (h u List.mem_cons_self).rewrap
      exact hfirst.trans (ih fun u' hu' => (h u' (List.mem_cons_of_mem _ hu')).steady hfirst)

theorem steady_insert (hnone : rows.find row.tenantID = none) : Steady cfg rows (rows.insert row hnone) := by
  intro t old hold
  refine ⟨old, ?_, rfl, .inl rfl⟩
  rw [KeyedTable.find_insert, if_neg]
  · exact hold
  · rintro rfl
    rw [hnone] at hold
    cases hold

/-- A row after the updates was there before, or is one of them. -/
theorem mem_applyUpdates (hrow : row ∈ applyUpdates rows updates) :
    ∃ old ∈ rows, old.tenantID = row.tenantID ∧
      (row.wrappedDEK = old.wrappedDEK ∨ (row.tenantID, row.wrappedDEK) ∈ updates) := by
  induction updates generalizing rows with
  | nil => exact ⟨row, hrow, rfl, .inl rfl⟩
  | cons u updates ih =>
      obtain ⟨x, hx, htenant, hwrapped⟩ := ih hrow
      obtain ⟨old, hold, heq⟩ := (KeyedTable.mem_updateWhere _).mp hx
      have hold_tenant : old.tenantID = row.tenantID := by
        rw [← htenant, ← heq]
        split
        · rfl
        · rfl
      refine ⟨old, hold, hold_tenant, ?_⟩
      rcases hwrapped with hwrapped | hmem
      · by_cases hown : old.tenantID = u.1
        · right
          have hsame : row.wrappedDEK = u.2 := by
            rw [hwrapped, ← heq, if_pos (decide_eq_true hown)]
          rw [← hold_tenant, hown, hsame]
          exact List.mem_cons_self
        · left
          rw [hwrapped, ← heq, if_neg (by simpa using hown)]
      · exact .inr (List.mem_cons_of_mem _ hmem)

end rows

section runs

variable {ν β : Type} {cfg : Config ν β} {rows₀ rows rows' : DekTable β} {s s' : State ν β} {log : List Event}
  {tx : Nat} {p : Point ν β} {e : Event} {a : Action ν} {held : Slug → Prop}

/-- What is known of a transaction: the rows it has scanned have kept their data keys, and these are what its updates
wrap. -/
def PointInv (cfg : Config ν β) (rows : DekTable β) (_held : Slug → Prop) : Point ν β → Prop
  | .loop rest _ updates =>
      (∀ scanned ∈ rest, ∃ row, rows.find scanned.tenantID = some row ∧ dataKey cfg row = dataKey cfg scanned) ∧
        ∀ u ∈ updates, Fits cfg rows u
  | .minted (some row) => ∃ dek, WrappedOnce cfg row.tenantID dek row.wrappedDEK
  | _ => True

theorem PointInv.steady (h : PointInv cfg rows held p) (hsteady : Steady cfg rows rows') :
    PointInv cfg rows' held p := by
  cases p with
  | loop rest res updates =>
      obtain ⟨hrest, hupdates⟩ := h
      refine ⟨fun scanned hmem => ?_, fun u hu => (hupdates u hu).steady hsteady⟩
      obtain ⟨row, hrow, hkey⟩ := hrest scanned hmem
      obtain ⟨row', hrow', hkey', -⟩ := hsteady _ row hrow
      exact ⟨row', hrow', hkey'.trans hkey⟩
  | minted row =>
      cases row with
      | none => trivial
      | some row => exact h
  | scan => trivial
  | mint t draw => trivial

/-- A row is wrapped as it was at the start, or its DEK is, once. -/
structure Inv (cfg : Config ν β) (rows₀ : DekTable β) (s : State ν β) : Prop where
  each : s.txns.Each (PointInv cfg) s.rows
  steady : Steady cfg rows₀ s.rows
  once : ∀ row ∈ s.rows, (∃ old ∈ rows₀, old.tenantID = row.tenantID ∧ row.wrappedDEK = old.wrappedDEK) ∨
    ∃ dek, WrappedOnce cfg row.tenantID dek row.wrappedDEK

/-- Rows are changed by the report of a rotation and by a mint, and by nothing else; only a mint brings a tenant. -/
structure RowsChange (cfg : Config ν β) (rows rows' : DekTable β) (e : Event) : Prop where
  steady : Steady cfg rows rows'
  same : (∀ tx res, e ≠ .reported tx res) → e.isMint = false → rows' = rows
  tenants : e.isMint = false → ∀ row' ∈ rows', ∃ row ∈ rows, row.tenantID = row'.tenantID
  once : ∀ row' ∈ rows', (∃ row ∈ rows, row.tenantID = row'.tenantID ∧ row'.wrappedDEK = row.wrappedDEK) ∨
    ∃ dek, WrappedOnce cfg row'.tenantID dek row'.wrappedDEK

theorem RowsChange.refl (rows : DekTable β) (e : Event) : RowsChange cfg rows rows e :=
  ⟨.refl rows, fun _ _ => rfl, fun _ row hrow => ⟨row, hrow, rfl⟩, fun row hrow => .inl ⟨row, hrow, rfl, rfl⟩⟩

theorem Change.rowsChange (h : s.txns.Each (PointInv cfg) s.rows) (hchange : Change cfg s tx s' e) :
    RowsChange cfg s.rows s'.rows e := by
  cases hchange with
  | reported res updates hp =>
      obtain ⟨-, hupdates⟩ := h tx _ hp
      refine ⟨applyUpdates_steady hupdates, fun hne => absurd rfl (hne tx res), fun _ row hrow => ?_,
        fun row hrow => ?_⟩
      · obtain ⟨old, hold, htenant, -⟩ := mem_applyUpdates hrow
        exact ⟨old, hold, htenant⟩
      · obtain ⟨old, hold, htenant, hwrapped | hmem⟩ := mem_applyUpdates hrow
        · exact .inl ⟨old, hold, htenant, hwrapped⟩
        · obtain ⟨nonce, dek, -, hwrapped, -, -⟩ := hupdates _ hmem
          refine .inr ⟨dek, ?_⟩
          rw [show row.wrappedDEK = _ from hwrapped]
          exact .new nonce
  | minted row hp hnone =>
      have hwrapped := h tx _ hp
      refine ⟨steady_insert hnone, fun _ hmint => (Bool.noConfusion hmint), fun hmint => (Bool.noConfusion hmint),
        fun x hx => ?_⟩
      rcases (KeyedTable.mem_insert hnone).mp hx with hold | rfl
      · exact .inl ⟨x, hold, rfl, rfl⟩
      · exact .inr hwrapped
  | _ => exact .refl _ _

theorem Inv.change (h : Inv cfg rows₀ s) (hchange : Change cfg s tx s' e) : Inv cfg rows₀ s' := by
  have hrows := hchange.rowsChange h.each
  refine ⟨?_, h.steady.trans hrows.steady, fun row' hrow' => ?_⟩
  · cases hchange with
    | begun p hp =>
        refine h.each.put ?_
        rcases hp with rfl | ⟨t, draw, rfl⟩
        · trivial
        · trivial
    | ended e he => exact h.each.close fun _ _ _ _ hj => hj
    | scanned scannedRows hp hperm =>
        refine h.each.put ⟨fun scanned hmem => ⟨scanned, KeyedTable.find_of_mem (hperm.mem_iff.mp hmem), rfl⟩,
          fun _ hu => ?_⟩
        exact absurd hu List.not_mem_nil
    | already row rest res updates hp hnew =>
        obtain ⟨hrest, hupdates⟩ := h.each tx _ hp
        exact h.each.put ⟨fun scanned hmem => hrest scanned (List.mem_cons_of_mem _ hmem), hupdates⟩
    | rewrapped row rest res updates nonce dek hp hold hfree =>
        obtain ⟨hrest, hupdates⟩ := h.each tx _ hp
        refine h.each.lockPut hfree ⟨fun scanned hmem => hrest scanned (List.mem_cons_of_mem _ hmem), fun u hu => ?_⟩
        rcases List.mem_append.mp hu with hu | hu
        · exact hupdates u hu
        · obtain ⟨current, hcurrent, hkey⟩ := hrest row List.mem_cons_self
          rw [List.mem_singleton.mp hu]
          refine ⟨nonce, dek, current, rfl, hcurrent, hkey.trans ?_⟩
          rw [dataKey, hold, Option.some_or]
    | reported res updates hp => exact h.each.close fun _ _ _ _ hj => hj.steady hrows.steady
    | inserted t draw hfree => exact h.each.lockPut hfree ⟨draw.dek, .old draw.dekNonce⟩
    | kept => exact h.each.put trivial
    | minted row hp hnone => exact h.each.close fun _ _ _ _ hj => hj.steady hrows.steady
  · rcases hrows.once row' hrow' with ⟨row, hrow, htenant, hwrapped⟩ | hwrapped
    · rcases h.once row hrow with ⟨old, hold, htenant', hwrapped'⟩ | ⟨dek, hdek⟩
      · exact .inl ⟨old, hold, htenant'.trans htenant, hwrapped.trans hwrapped'⟩
      · exact .inr ⟨dek, by rw [← htenant, hwrapped]; exact hdek⟩
    · exact .inr hwrapped

theorem inv_step (h : Inv cfg rows₀ s) (hstep : Kek.step cfg s a = some (s', e)) : Inv cfg rows₀ s' := by
  obtain ⟨tx, hchange⟩ := step_change hstep
  exact h.change hchange

theorem inv_of_run (hrun : (system cfg).Run (start rows₀) log s) : Inv cfg rows₀ s := by
  have hzero : Inv cfg rows₀ (start rows₀) :=
    ⟨Txns.Each.idle, .refl rows₀, fun row hrow => .inl ⟨row, hrow, rfl, rfl⟩⟩
  exact hrun.invariant (fun _ s => Inv cfg rows₀ s) hzero fun _ _ _ _ _ h _ hstep => inv_step h hstep

/-- What a rotation that has rotated nothing has still to look at it has scanned; the other rows are on the new key. A
row it has scanned is as it was, or is on the new key by now. -/
def OnlyScanned (cfg : Config ν β) (s : State ν β) (tx : Nat) : Prop :=
  ∀ rest res updates, s.txns.txn tx = some (.loop rest res updates) → res.rotated = 0 →
    (∀ row ∈ s.rows, OnNewKey cfg row ∨ row.tenantID ∈ rest.map DekRow.tenantID) ∧
      ∀ scanned ∈ rest, ∃ row, s.rows.find scanned.tenantID = some row ∧
        (row.wrappedDEK = scanned.wrappedDEK ∨ OnNewKey cfg row)

/-- A row stays on the new key. -/
theorem RowsChange.onNewKey (h : RowsChange cfg rows rows' e) {row row' : DekRow β} (hrow : row ∈ rows)
    (hrow' : row' ∈ rows') (htenant : row.tenantID = row'.tenantID) (hnew : OnNewKey cfg row) : OnNewKey cfg row' := by
  obtain ⟨row₁, hrow₁, -, hwrapped⟩ := h.steady _ row (KeyedTable.find_of_mem hrow)
  obtain rfl : row₁ = row' :=
    KeyedTable.eq_of_key (KeyedTable.find_mem hrow₁) hrow' ((KeyedTable.find_key hrow₁).trans htenant)
  rcases hwrapped with hsame | hnew'
  · exact hnew.of_wrapped htenant.symm hsame
  · exact hnew'

theorem RowsChange.allNew (h : RowsChange cfg rows rows' e) (hmint : e.isMint = false)
    (hall : ∀ row ∈ rows, OnNewKey cfg row) : ∀ row' ∈ rows', OnNewKey cfg row' := by
  intro row' hrow'
  obtain ⟨row, hrow, htenant⟩ := h.tenants hmint row' hrow'
  exact h.onNewKey hrow hrow' htenant (hall row hrow)

/-- A step of another transaction. -/
theorem OnlyScanned.other (h : OnlyScanned cfg s tx) (hrows : RowsChange cfg s.rows s'.rows e)
    (hmint : e.isMint = false) (htxn : s'.txns.txn tx = s.txns.txn tx) : OnlyScanned cfg s' tx := by
  intro rest res updates hp hzero
  obtain ⟨hall, hrest⟩ := h rest res updates (htxn ▸ hp) hzero
  refine ⟨fun row' hrow' => ?_, fun scanned hmem => ?_⟩
  · obtain ⟨row, hrow, htenant⟩ := hrows.tenants hmint row' hrow'
    rcases hall row hrow with hnew | hmem
    · exact .inl (hrows.onNewKey hrow hrow' htenant hnew)
    · exact .inr (htenant ▸ hmem)
  · obtain ⟨row, hrow, hwrapped⟩ := hrest scanned hmem
    obtain ⟨row', hrow', -, hwrapped'⟩ := hrows.steady _ row hrow
    have htenant : row'.tenantID = row.tenantID := (KeyedTable.find_key hrow').trans (KeyedTable.find_key hrow).symm
    refine ⟨row', hrow', ?_⟩
    rcases hwrapped' with hsame | hnew
    · rcases hwrapped with hscanned | hnew
      · exact .inl (hsame.trans hscanned)
      · exact .inr (hnew.of_wrapped htenant hsame)
    · exact .inr hnew

/-- A step of the rotation itself. -/
theorem OnlyScanned.own (h : OnlyScanned cfg s tx) (hscan : e ≠ .scanned tx) (hchange : Change cfg s tx s' e) :
    OnlyScanned cfg s' tx := by
  intro rest' res' updates' hp' hzero
  cases hchange with
  | already row rest res updates hp hnew =>
      obtain ⟨rfl, rfl, rfl⟩ := Point.loop.inj (Option.some.inj (Txns.put_txn.symm.trans hp'))
      obtain ⟨hall, hrest⟩ := h _ _ _ hp hzero
      refine ⟨fun x hx => ?_, fun scanned hmem => hrest scanned (List.mem_cons_of_mem _ hmem)⟩
      rcases hall x hx with hxnew | hmem
      · exact .inl hxnew
      · rcases List.mem_cons.mp hmem with hown | hmem
        · left
          obtain ⟨current, hcurrent, hwrapped⟩ := hrest row List.mem_cons_self
          obtain rfl : current = x :=
            KeyedTable.eq_of_key (KeyedTable.find_mem hcurrent) hx ((KeyedTable.find_key hcurrent).trans hown.symm)
          rcases hwrapped with hsame | hcurrentNew
          · exact OnNewKey.of_wrapped hnew hown hsame
          · exact hcurrentNew
        · exact .inr hmem
  | rewrapped row rest res updates nonce dek hp hold hfree =>
      obtain ⟨-, rfl, -⟩ := Point.loop.inj (Option.some.inj (Txns.put_txn.symm.trans hp'))
      exact absurd hzero (Nat.succ_ne_zero _)
  | scanned => exact absurd rfl hscan
  | begun p hp =>
      obtain rfl := Option.some.inj (Txns.put_txn.symm.trans hp')
      rcases hp with hp | ⟨t, draw, hp⟩
      · cases hp
      · cases hp
  | inserted t draw hfree => cases Option.some.inj (Txns.put_txn.symm.trans hp')
  | kept => cases Option.some.inj (Txns.put_txn.symm.trans hp')
  | _ => cases Txns.close_txn.symm.trans hp'

theorem Change.local (hchange : Change cfg s tx s' e) : Txns.Local tx s.txns s'.txns := by
  cases hchange with
  | ended | reported | minted => exact Txns.Local.close _ tx
  | rewrapped _ _ _ _ _ _ _ _ hfree => exact (Txns.Local.lock hfree).trans (Txns.Local.put _ tx _)
  | inserted _ _ hfree => exact (Txns.Local.lock hfree).trans (Txns.Local.put _ tx _)
  | _ => exact Txns.Local.put _ tx _

/-- A rotation has reported that it rotated nothing, and no DEK has been minted since its scan. -/
def Settled (log : List Event) : Prop :=
  ∃ pre tx mid n post, log = pre ++ .scanned tx :: (mid ++ .reported tx ⟨0, n⟩ :: post) ∧ Event.scanned tx ∉ mid ∧
    ∀ e ∈ mid ++ post, e.isMint = false

theorem OnlyScanned.step (h : OnlyScanned cfg s tx) (hinv : Inv cfg rows₀ s) (hscan : e ≠ .scanned tx)
    (hmint : e.isMint = false) (hstep : Kek.step cfg s a = some (s', e)) : OnlyScanned cfg s' tx := by
  obtain ⟨tx', hchange⟩ := step_change hstep
  by_cases hown : tx = tx'
  · subst hown
    exact h.own hscan hchange
  · exact h.other (hchange.rowsChange hinv.each) hmint (hchange.local.txn tx hown)

/-- The scan of a rotation. -/
theorem onlyScanned_of_scan (hstep : Kek.step cfg s a = some (s', .scanned tx)) : OnlyScanned cfg s' tx := by
  obtain ⟨tx', hchange⟩ := step_change hstep
  generalize hscan : Event.scanned tx = e at hchange
  cases hchange with
  | scanned rows hp hperm =>
      obtain rfl := Event.scanned.inj hscan
      intro rest res updates hloop _
      obtain ⟨rfl, -, -⟩ := Point.loop.inj (Option.some.inj (Txns.put_txn.symm.trans hloop))
      exact ⟨fun row hrow => .inr (List.mem_map_of_mem (hperm.mem_iff.mpr hrow)),
        fun row hrow => ⟨row, KeyedTable.find_of_mem (hperm.mem_iff.mp hrow), .inl rfl⟩⟩
  | ended e he =>
      subst hscan
      rcases he with he | he
      · cases he
      · cases he
  | _ => cases hscan

/-- The report of a rotation that has rotated nothing. -/
theorem OnlyScanned.report (h : OnlyScanned cfg s tx) (hinv : Inv cfg rows₀ s) {n : Nat}
    (hstep : Kek.step cfg s a = some (s', .reported tx ⟨0, n⟩)) : ∀ row ∈ s'.rows, OnNewKey cfg row := by
  obtain ⟨tx', hchange⟩ := step_change hstep
  have hrows := hchange.rowsChange hinv.each
  refine hrows.allNew rfl ?_
  generalize hreport : Event.reported tx ⟨0, n⟩ = e at hchange
  cases hchange with
  | reported res updates hp =>
      obtain ⟨rfl, rfl⟩ := Event.reported.inj hreport
      intro row hrow
      exact ((h _ _ _ hp rfl).1 row hrow).resolve_right List.not_mem_nil
  | ended e he =>
      subst hreport
      rcases he with he | he
      · cases he
      · cases he
  | _ => cases hreport

theorem onNewKey_of_settled (hrun : (system cfg).Run (start rows₀) log s) (hsettled : Settled log) :
    ∀ row ∈ s.rows, OnNewKey cfg row := by
  obtain ⟨pre, tx, mid, n, post, rfl, hscan, hmint⟩ := hsettled
  obtain ⟨s₁, a₁, s₂, hrun₁, -, hstep₁, hrun₂⟩ := hrun.at_event
  obtain ⟨s₃, a₃, s₄, hrun₃, -, hstep₃, hrun₄⟩ := hrun₂.at_event
  have hinv₂ : Inv cfg rows₀ s₂ := inv_step (inv_of_run hrun₁) hstep₁
  -- from the scan to the report
  have hmid := hrun₃.invariant (fun log s => Inv cfg rows₀ s ∧
      (Event.scanned tx ∉ log → (∀ e ∈ log, e.isMint = false) → OnlyScanned cfg s tx))
    ⟨hinv₂, fun _ _ => onlyScanned_of_scan hstep₁⟩ fun log s a s' e h _ hstep =>
      ⟨inv_step h.1 hstep, fun hscan hmint => by
        simp only [List.mem_append, List.mem_singleton, not_or] at hscan hmint
        exact (h.2 hscan.1 fun e he => hmint e (.inl he)).step h.1 (Ne.symm hscan.2) (hmint e (.inr rfl)) hstep⟩
  have hreport := (hmid.2 hscan fun e he => hmint e (List.mem_append_left _ he)).report hmid.1 hstep₃
  -- after the report
  have hpost := hrun₄.invariant (fun log s => Inv cfg rows₀ s ∧
      ((∀ e ∈ log, e.isMint = false) → ∀ row ∈ s.rows, OnNewKey cfg row))
    ⟨inv_step hmid.1 hstep₃, fun _ => hreport⟩ fun log s a s' e h _ hstep =>
      ⟨inv_step h.1 hstep, fun hmint => by
        simp only [List.mem_append, List.mem_singleton] at hmint
        obtain ⟨tx', hchange⟩ := step_change hstep
        exact (hchange.rowsChange h.1.each).allNew (hmint e (.inr rfl)) (h.2 fun e he => hmint e (.inl he))⟩
  exact hpost.2 fun e he => hmint e (List.mem_append_right _ he)

/-- In a state of a run: the rows of the start have their data keys, no step changes one, only a report or a mint
changes rows at all, a row that is wrapped anew holds its data key wrapped once, and a rotation that has rotated nothing
leaves all rows on the new key. -/
structure RotationHolds (cfg : Config ν β) (rows₀ : DekTable β) (log : List Event) (s : State ν β) : Prop where
  start : Steady cfg rows₀ s.rows
  steady : ∀ a s' e, Kek.step cfg s a = some (s', e) → Steady cfg s.rows s'.rows
  failed : ∀ a s' e, Kek.step cfg s a = some (s', e) → (∀ tx res, e ≠ .reported tx res) → e.isMint = false →
    s'.rows = s.rows
  once : ∀ row ∈ s.rows, (∃ old ∈ rows₀, old.tenantID = row.tenantID ∧ row.wrappedDEK = old.wrappedDEK) ∨
    ∃ dek, dataKey cfg row = some dek ∧ WrappedOnce cfg row.tenantID dek row.wrappedDEK
  settled : Settled log → ∀ row ∈ s.rows, OnNewKey cfg row

end runs

def rootKeys : Config Unit (Key × Unit × List UInt8 × String) := ⟨symbolicGcm, oldKEK, newKEK⟩

/-- The row of a tenant under a root key. -/
def oneRow (t : Slug) (kek : Key) : DekTable (Key × Unit × List UInt8 × String) :=
  ⟨[⟨t, wrapDEK symbolicGcm kek () firstDraw.dek (dekAAD t), 1⟩], List.nodup_singleton _⟩

/-- A rotation of the row, and another that finds nothing left. -/
def rotatedTwice : List (Action Unit) :=
  [.rotate 0, .scan 0 [0], .next 0 (), .next 0 (), .rotate 1, .scan 1 [0], .next 1 (), .next 1 ()]

theorem rotatedTwice_runs : ((system rootKeys).execIf (fun _ _ _ => True) [] (start (oneRow acme oldKEK))
    rotatedTwice).any (fun r => r.1 = [.statement, .scanned 0, .statement, .reported 0 ⟨1, 0⟩, .statement] ++
      .scanned 1 :: ([.statement] ++ .reported 1 ⟨0, 1⟩ :: [])) = true := by
  decide +kernel

/-- A DEK is minted between the scan of a rotation and its report. -/
def mintedDuring : List (Action Unit) :=
  [.rotate 0, .scan 0 [0], .mint 1 acme firstDraw, .next 1 (), .next 1 (), .next 0 (), .next 0 ()]

theorem mintedDuring_runs : ((system rootKeys).execIf (fun _ _ _ => True) [] (start (oneRow beta newKEK))
    mintedDuring).any (fun r => r.1.getLast? = some (.reported 0 ⟨0, 1⟩) && r.2.rows.rows.any fun row =>
      unwrapDEK symbolicGcm newKEK row.wrappedDEK (dekAAD row.tenantID) = none) = true := by
  decide +kernel

end ThesadaApp.Secrets.Kek
