import ThesadaApp.RowEffects

/-!
What row level security protects whatever the statements are. The tenant of a row does not change
under another's transaction, every reference keeps naming a row, and a row of a tenant whose
references lead to rows of the same tenant only is out of reach: no statement of another tenant
touches it, and no foreign key carries a deletion to it.
-/

namespace ThesadaApp.RowSecurity

variable {δ ρ : Type} {t u : String} {db db' : Db δ} {r q : Row δ}

/-- An update changes no row's tenant. -/
theorem home_updateWhere {touched : Row δ → Bool} {set : Row δ → Row δ}
    (hadmits : ∀ r ∈ db, touched r = true → admits t db r = true)
    (haccepts : ∀ r ∈ db, touched r = true → accepts t db (assign set r) = true) (r : Row δ) :
    home (db.updateWhere touched (assign set) (key_assign set)) r = home db r := by
  induction r using policy_induction with
  | denied r hpath => rw [home_denied hpath, home_denied hpath]
  | direct r hpath => rw [home_direct hpath, home_direct hpath]
  | through r c p rest hpath ih =>
      rw [home_through hpath, home_through hpath, parent_updateWhere]
      cases hq : parent db c p r with
      | none => rfl
      | some q =>
          rw [Option.map_some, Option.bind_some, Option.bind_some]
          by_cases htouched : touched q = true
          · rw [if_pos htouched, ih (assign set q) (show q.table = p from parent_table hq),
              home_of_accepts (haccepts q (parent_mem hq) htouched),
              home_of_admits (hadmits q (parent_mem hq) htouched)]
          · rw [if_neg htouched, ih _ (parent_table hq)]

theorem home_insert {n : Row δ} {hfree : db.find (key n) = none} (href : Referential db)
    (hr : ∀ fk ∈ foreignKeys r.table, r.col fk.column ≠ none →
      ∃ q, parent db fk.column fk.target r = some q) :
    home (db.insert n hfree) r = home db r := by
  induction r using policy_induction with
  | denied r hpath => rw [home_denied hpath, home_denied hpath]
  | direct r hpath => rw [home_direct hpath, home_direct hpath]
  | through r c p rest hpath ih =>
      rw [home_through hpath, home_through hpath, parent_insert (hr _ (policyPath_foreignKey hpath))]
      refine Option.bind_congr ?_
      intro q hq
      exact ih q (parent_table hq) (href q (parent_mem hq))

/-- The rows a deletion leaves keep their tenants. -/
theorem home_delete {picked : Row δ → Bool} (hr : doomed db picked 2 r = false) :
    home ((db.deleteWhere (doomed db picked 2)).updateWhere (fun _ => true)
      (unlink db (doomed db picked 2)) (key_unlink db _)) r = home db r := by
  induction r using policy_induction with
  | denied r hpath => rw [home_denied hpath, home_denied hpath]
  | direct r hpath => rw [home_direct hpath, home_direct hpath]
  | through r c p rest hpath ih =>
      rw [home_through hpath, home_through hpath, parent_delete]
      cases hq : parent db c p r with
      | none => rfl
      | some q =>
          have hkept : doomed db picked 2 q = false := by
            rw [Bool.eq_false_iff]
            intro hgone
            have hdoomed := doomed_of_parent (policyPath_foreignKey hpath) rfl hq hgone
            rw [hr] at hdoomed
            cases hdoomed
          rw [Option.filter_some, if_pos (by simp [hkept]), Option.map_some, Option.bind_some,
            Option.bind_some, home_unlink]
          exact ih q (parent_table hq) hkept

/-- A row as another was, but for references that ON DELETE SET NULL cleared. -/
structure Cleared (r r' : Row δ) : Prop where
  table : r'.table = r.table
  rest : r'.rest = r.rest
  col : ∀ c, r'.col c = r.col c ∨ r'.col c = none ∧
    ∃ fk ∈ foreignKeys r.table, fk.column = c ∧ fk.onDelete = .setNull

theorem Cleared.refl (r : Row δ) : Cleared r r := ⟨rfl, rfl, fun _ => .inl rfl⟩

theorem Cleared.trans {r₁ r₂ r₃ : Row δ} (h : Cleared r₁ r₂) (h' : Cleared r₂ r₃) : Cleared r₁ r₃ where
  table := h'.table.trans h.table
  rest := h'.rest.trans h.rest
  col := by
    intro c
    obtain hsame | ⟨hnone, fk, hfk, hcol⟩ := h'.col c
    · rw [hsame]
      exact h.col c
    · exact .inr ⟨hnone, fk, h.table ▸ hfk, hcol⟩

theorem cleared_unlink (gone : Row δ → Bool) (r : Row δ) : Cleared r (unlink db gone r) where
  table := rfl
  rest := rfl
  col := by
    intro c
    obtain hsame | ⟨hnone, fk, hfk, hcol, hnull, -⟩ := unlink_col_cases db gone r c
    · exact .inl hsame
    · exact .inr ⟨hnone, fk, hfk, hcol, hnull⟩

/-- A row of `u` from which references lead to rows of `u` only. -/
inductive Settled (u : String) (db : Db δ) : Row δ → Prop
  | mk {r : Row δ} (hhome : home db r = some u)
      (hrefs : ∀ fk ∈ foreignKeys r.table, ∀ q, parent db fk.column fk.target r = some q →
        Settled u db q) : Settled u db r

theorem Settled.home (h : Settled u db r) : RowSecurity.home db r = some u := by
  cases h with
  | mk hhome _ => exact hhome

theorem Settled.parent (h : Settled u db r) {fk : ForeignKey} (hfk : fk ∈ foreignKeys r.table)
    (hq : RowSecurity.parent db fk.column fk.target r = some q) : Settled u db q := by
  cases h with
  | mk _ hrefs => exact hrefs fk hfk q hq

/-- No deletion of another tenant reaches a settled row. -/
theorem Settled.not_doomed (h : Settled u db r) (hne : u ≠ t) {picked : Row δ → Bool}
    (hadmits : ∀ r, picked r = true → admits t db r = true) (n : Nat) : doomed db picked n r = false := by
  have hpick : ∀ r, Settled u db r → ¬ picked r = true := by
    intro r hr hpicked
    exact hne (Option.some.inj (hr.home.symm.trans (home_of_admits (hadmits r hpicked))))
  rw [Bool.eq_false_iff]
  induction n generalizing r with
  | zero => exact hpick r h
  | succ n ih =>
      intro hdoomed
      obtain hpicked | ⟨fk, hfk, -, q, hq, hgone⟩ := doomed_succ.mp hdoomed
      · exact hpick r h hpicked
      · exact ih (h.parent hfk hq) hgone

/-- What one statement of another tenant leaves of a settled row. -/
theorem Effect.keeps_settled (heff : Effect t db db') (hne : u ≠ t) (hr : r ∈ db)
    (h : Settled u db r) : r ∈ db' := by
  cases heff with
  | same => exact hr
  | update touched set hadmits haccepts hrefs =>
      refine (KeyedTable.mem_updateWhere _).mpr ⟨r, hr, if_neg ?_⟩
      intro htouched
      exact hne (Option.some.inj (h.home.symm.trans (home_of_admits (hadmits r hr htouched))))
  | insert n haccepts hrefs hfree => exact (KeyedTable.mem_insert hfree).mpr (.inl hr)
  | delete picked hadmits hblocked =>
      have hkept : unlink db (doomed db picked 2) r = r := by
        refine congrArg (fun col => ({ r with col := col } : Row δ)) ?_
        funext c
        obtain hsame | ⟨-, fk, hfk, -, -, q, hq, hgone⟩ :=
          unlink_col_cases db (doomed db picked 2) r c
        · exact hsame
        · rw [(h.parent hfk hq).not_doomed hne hadmits] at hgone
          cases hgone
      exact (KeyedTable.mem_updateWhere _).mpr
        ⟨r, KeyedTable.mem_deleteWhere.mpr ⟨hr, h.not_doomed hne hadmits 2⟩, hkept⟩

theorem Effect.parent_settled (heff : Effect t db db') (hne : u ≠ t) (href : Referential db)
    (hr : r ∈ db) (h : Settled u db r) {fk : ForeignKey} (hfk : fk ∈ foreignKeys r.table) :
    parent db' fk.column fk.target r = parent db fk.column fk.target r := by
  cases hcol : r.col fk.column with
  | none => simp [parent, hcol]
  | some v =>
      obtain ⟨q, hq⟩ := href r hr fk hfk (by simp [hcol])
      have hkept : q ∈ db' := heff.keeps_settled hne (parent_mem hq) (h.parent hfk hq)
      have hkey : key q = (fk.target, [some v]) := by
        refine KeyedTable.find_key (t := db) ?_
        simpa [parent, hcol] using hq
      rw [hq]
      simp only [parent, hcol, Option.bind_some]
      rw [← hkey]
      exact KeyedTable.find_of_mem hkept

theorem Effect.settled (heff : Effect t db db') (hne : u ≠ t) (href : Referential db) (hr : r ∈ db)
    (h : Settled u db r) : Settled u db' r := by
  have hhome : ∀ r, r ∈ db → Settled u db r → RowSecurity.home db' r = RowSecurity.home db r := by
    intro r
    induction r using policy_induction with
    | denied r hpath => intros; rw [home_denied hpath, home_denied hpath]
    | direct r hpath => intros; rw [home_direct hpath, home_direct hpath]
    | through r c p rest hpath ih =>
        intro hr h
        rw [home_through hpath, home_through hpath,
          heff.parent_settled hne href hr h (policyPath_foreignKey hpath)]
        refine Option.bind_congr ?_
        intro q hq
        exact ih q (parent_table hq) (parent_mem hq) (h.parent (policyPath_foreignKey hpath) hq)
  induction h with
  | @mk r hown hrefs ih =>
      have h : Settled u db r := .mk hown hrefs
      refine .mk ((hhome r hr h).trans hown) ?_
      intro fk hfk q hq
      rw [heff.parent_settled hne href hr h hfk] at hq
      exact ih fk hfk q hq (parent_mem hq)

/-- Every reference still names a row after a statement. -/
theorem Effect.referential (heff : Effect t db db') (href : Referential db) : Referential db' := by
  cases heff with
  | same => exact href
  | update touched set hadmits haccepts hrefs =>
      have hold : ∀ r : Row δ, (∀ fk ∈ foreignKeys r.table, r.col fk.column ≠ none →
          ∃ q, parent db fk.column fk.target r = some q) → ∀ fk ∈ foreignKeys r.table,
            r.col fk.column ≠ none → ∃ q, parent (db.updateWhere touched (assign set) (key_assign set))
              fk.column fk.target r = some q := by
        intro r hr fk hfk hcol
        obtain ⟨q, hq⟩ := hr fk hfk hcol
        exact ⟨_, by rw [parent_updateWhere, hq, Option.map_some]⟩
      intro r hr
      obtain ⟨old, hmem, rfl⟩ := (KeyedTable.mem_updateWhere _).mp hr
      by_cases htouched : touched old = true
      · rw [if_pos htouched]
        exact hold _ fun fk hfk hcol => exists_parent (hrefs old hmem htouched) hfk hcol
      · rw [if_neg htouched]
        exact hold _ (href old hmem)
  | insert n haccepts hrefs hfree =>
      intro r hr fk hfk hcol
      have hparents : ∀ fk ∈ foreignKeys r.table, r.col fk.column ≠ none →
          ∃ q, parent db fk.column fk.target r = some q := by
        obtain hr | rfl := (KeyedTable.mem_insert hfree).mp hr
        · exact href r hr
        · exact fun fk hfk hcol => exists_parent hrefs hfk hcol
      rw [parent_insert (hparents fk hfk)]
      exact hparents fk hfk hcol
  | delete picked hadmits hblocked =>
      intro r hr fk hfk hcol
      obtain ⟨old, hmem, rfl⟩ := (KeyedTable.mem_updateWhere _).mp hr
      obtain ⟨hmem, hkept⟩ := KeyedTable.mem_deleteWhere.mp hmem
      rw [if_pos rfl] at hfk hcol ⊢
      have hfk : fk ∈ foreignKeys old.table := hfk
      -- the reference was there before, and a deleted target would have taken or cleared it
      have hsame : (unlink db (doomed db picked 2) old).col fk.column = old.col fk.column := by
        obtain hsame | ⟨hnone, -⟩ := unlink_col_cases db (doomed db picked 2) old fk.column
        · exact hsame
        · exact absurd hnone hcol
      rw [hsame] at hcol
      obtain ⟨q, hq⟩ := href old hmem fk hfk hcol
      have hq' : doomed db picked 2 q = false := by
        rw [Bool.eq_false_iff]
        intro hgone
        cases haction : fk.onDelete with
        | cascade =>
            rw [doomed_of_parent hfk haction hq hgone] at hkept
            cases hkept
        | setNull =>
            refine hcol ?_
            rw [← hsame]
            unfold unlink
            refine if_pos (List.any_eq_true.mpr ⟨fk, hfk, ?_⟩)
            simp [haction, hq, hgone]
        | noAction =>
            have hno := hblocked old hmem
            simp only [blocked, hkept, Bool.not_false, Bool.true_and, List.any_eq_false] at hno
            refine hno fk hfk ?_
            simp [haction, hq, hgone]
      rw [parent_delete, parent_congr fk.target hsame, hq, Option.filter_some, if_pos (by simp [hq'])]
      exact ⟨_, rfl⟩

/-- A statement leaves no row of another tenant that was not there: the rows it writes are its own. -/
theorem Effect.others (heff : Effect t db db') (href : Referential db) (hne : u ≠ t) (hr : r ∈ db')
    (hhome : home db' r = some u) : ∃ old ∈ db, home db old = some u ∧ Cleared old r := by
  cases heff with
  | same => exact ⟨r, hr, hhome, Cleared.refl r⟩
  | update touched set hadmits haccepts hrefs =>
      rw [home_updateWhere hadmits haccepts] at hhome
      obtain ⟨old, hmem, rfl⟩ := (KeyedTable.mem_updateWhere _).mp hr
      by_cases htouched : touched old = true
      · rw [if_pos htouched, home_of_accepts (haccepts old hmem htouched)] at hhome
        exact absurd (Option.some.inj hhome).symm hne
      · rw [if_neg htouched] at hhome ⊢
        exact ⟨old, hmem, hhome, Cleared.refl old⟩
  | insert n haccepts hrefs hfree =>
      obtain hr | rfl := (KeyedTable.mem_insert hfree).mp hr
      · rw [home_insert href (href r hr)] at hhome
        exact ⟨r, hr, hhome, Cleared.refl r⟩
      · rw [home_insert href fun fk hfk hcol => exists_parent hrefs hfk hcol,
          home_of_accepts haccepts] at hhome
        exact absurd (Option.some.inj hhome).symm hne
  | delete picked hadmits hblocked =>
      obtain ⟨old, hmem, rfl⟩ := (KeyedTable.mem_updateWhere _).mp hr
      obtain ⟨hmem, hkept⟩ := KeyedTable.mem_deleteWhere.mp hmem
      rw [if_pos rfl] at hhome ⊢
      rw [home_unlink, home_delete hkept] at hhome
      exact ⟨old, hmem, hhome, cleared_unlink _ old⟩

theorem subscribed_settled (heff : Effect t db db') (hne : u ≠ t) (href : Referential db) (hr : r ∈ db)
    (h : Settled u db r) (htable : r.table = .alertWebhookDeliveries) (x : String) :
    subscribed x db' r = subscribed x db r := by
  have halert : ⟨.alertId, .deviceAlerts, .cascade⟩ ∈ foreignKeys r.table := by
    rw [htable]; exact List.mem_cons_self
  have hsub : ⟨.subscriptionId, .alertSubscriptions, .cascade⟩ ∈ foreignKeys r.table := by
    rw [htable]; exact List.mem_cons_of_mem _ List.mem_cons_self
  have huser : ∀ s, parent db .subscriptionId .alertSubscriptions r = some s →
      parent db' .userId .users s = parent db .userId .users s := by
    intro s hs
    have hfk : ⟨.userId, .users, .cascade⟩ ∈ foreignKeys s.table := by
      rw [parent_table hs]; exact List.mem_cons_self
    exact heff.parent_settled hne href (parent_mem hs) (h.parent hsub hs) hfk
  unfold subscribed
  rw [heff.parent_settled hne href hr h halert, heff.parent_settled hne href hr h hsub]
  congr 1
  funext a
  cases hs : parent db .subscriptionId .alertSubscriptions r with
  | none => rfl
  | some s => rw [Option.any_some, Option.any_some, huser s hs]

/-- A settled row is seen by the same tenants after another's statement. -/
theorem Effect.admits_settled (heff : Effect t db db') (hne : u ≠ t) (href : Referential db)
    (hr : r ∈ db) (h : Settled u db r) (x : String) : admits x db' r = admits x db r := by
  unfold admits
  rw [(heff.settled hne href hr h).home, h.home]
  by_cases htable : r.table = .alertWebhookDeliveries
  · rw [subscribed_settled heff hne href hr h htable]
  · simp [htable]

/-- What a run of other tenants' transactions leaves of `u`'s rows. -/
structure Untouched (u : String) (db db' : Db δ) : Prop where
  referential : Referential db'
  kept : ∀ r ∈ db, Settled u db r → r ∈ db' ∧ Settled u db' r ∧ ∀ t, admits t db' r = admits t db r
  others : ∀ r ∈ db', home db' r = some u → ∃ old ∈ db, home db old = some u ∧ Cleared old r

theorem Untouched.refl (href : Referential db) : Untouched u db db :=
  ⟨href, fun _ hr h => ⟨hr, h, fun _ => rfl⟩, fun r hr h => ⟨r, hr, h, Cleared.refl r⟩⟩

theorem Untouched.effect {db'' : Db δ} (h : Untouched u db db') (hne : u ≠ t)
    (heff : Effect t db' db'') : Untouched u db db'' where
  referential := heff.referential h.referential
  kept := by
    intro r hr hsettled
    obtain ⟨hr', hsettled', hadmits⟩ := h.kept r hr hsettled
    refine ⟨heff.keeps_settled hne hr' hsettled', heff.settled hne h.referential hr' hsettled', ?_⟩
    intro x
    rw [heff.admits_settled hne h.referential hr' hsettled', hadmits x]
  others := by
    intro r hr hhome
    obtain ⟨mid, hmid, hmidhome, hcleared⟩ := heff.others h.referential hne hr hhome
    obtain ⟨old, hold, holdhome, hcleared'⟩ := h.others mid hmid hmidhome
    exact ⟨old, hold, holdhome, hcleared'.trans hcleared⟩

section runs

variable [Catalog δ]

/-- A call of WithTenant. -/
structure Tx (δ ρ : Type) where
  tenant : String
  fn : Callback δ ρ
  fault : Option Fault

/-- Calls of WithTenant one after the other; the log keeps each with what it returned. -/
def tenants (δ ρ : Type) [Catalog δ] : Machine (Db δ) (Tx δ ρ) (Tx δ ρ × Except (TxError ρ) ρ) where
  step db a :=
    let (res, db') := withTenant a.tenant a.fn a.fault db
    some (db', (a, res))

/-- A callback's statements keep what every statement of its tenant keeps. -/
theorem runCallback_keeps {P : Db δ → Prop} {fn : Callback δ ρ} {out : ρ}
    (hkeep : ∀ db db', P db → Effect t db db' → P db') (hP : P db)
    (h : runCallback t db fn = .ok (out, db')) : P db' := by
  induction fn generalizing db with
  | done out =>
      cases h
      exact hP
  | fail out => cases h
  | stmt s next ih =>
      simp only [runCallback] at h
      split at h
      · cases h
      · next rows db₁ hstmt => exact ih rows (hkeep _ _ hP (runStmt_effect hstmt)) h

/-- A call leaves the database as it was or as its callback left it. -/
theorem withTenant_cases (t : String) (fn : Callback δ ρ) (fault : Option Fault) (db : Db δ) :
    (withTenant t fn fault db).2 = db ∨
      ∃ out, runCallback t db fn = .ok (out, (withTenant t fn fault db).2) := by
  unfold withTenant
  split
  · exact .inl rfl
  · split
    · exact .inl rfl
    · split
      · exact .inl rfl
      · split
        · exact .inl rfl
        · next out db' hrun =>
            split
            · exact .inl rfl
            · split
              · exact .inr ⟨out, hrun⟩
              · exact .inr ⟨out, hrun⟩

theorem withTenant_keeps {P : Db δ → Prop} {fn : Callback δ ρ} {fault : Option Fault}
    (hkeep : ∀ db db', P db → Effect t db db' → P db') (hP : P db) :
    P (withTenant t fn fault db).2 := by
  obtain hsame | ⟨out, hrun⟩ := withTenant_cases t fn fault db
  · rw [hsame]
    exact hP
  · exact runCallback_keeps hkeep hP hrun

theorem tenants_step_eq (a : Tx δ ρ) (db : Db δ) :
    (tenants δ ρ).step db a = some ((withTenant a.tenant a.fn a.fault db).2,
      (a, (withTenant a.tenant a.fn a.fault db).1)) := rfl

theorem tenants_step {a : Tx δ ρ} {e : Tx δ ρ × Except (TxError ρ) ρ}
    (h : (tenants δ ρ).step db a = some (db', e)) :
    e.1 = a ∧ e.2 = (withTenant a.tenant a.fn a.fault db).1 ∧
      db' = (withTenant a.tenant a.fn a.fault db).2 := by
  rw [tenants_step_eq] at h
  cases h
  exact ⟨rfl, rfl, rfl⟩

/-- Row level security on its own: whatever transactions other tenants run, a row of `u` whose
references stay within `u`'s rows is left as it was and seen by the same tenants, and any row of `u`
afterwards was one of its rows before, at most with a reference cleared. -/
theorem other_tenants_untouched {log : List (Tx δ ρ × Except (TxError ρ) ρ)} (href : Referential db)
    (hrun : (tenants δ ρ).RunIf (fun _ _ a => a.tenant ≠ u) db log db') : Untouched u db db' := by
  refine hrun.invariant (fun _ s => Untouched u db s) (Untouched.refl href) ?_
  intro log s a s' e hs hok hstep
  obtain ⟨-, -, rfl⟩ := tenants_step hstep
  exact withTenant_keeps (fun _ _ h heff => h.effect (Ne.symm hok) heff) hs

instance : Catalog Unit where
  citext := String.toLower
  checked _ := true
  tenants := ["acme", "globex"]

def row (tb : Tbl) (cols : List (Column × String)) : Row Unit :=
  { table := tb, col := fun c => cols.lookup c, rest := () }

/-- A device with an alert at one tenant, a device at another. -/
def twoTenants : Db Unit where
  rows := [row .devices [(.id, "d1"), (.tenantId, "acme"), (.deviceId, "boiler")],
    row .deviceAlerts [(.id, "1"), (.devicePk, "d1")],
    row .devices [(.id, "d2"), (.tenantId, "globex"), (.deviceId, "boiler")]]
  nodup := by decide

/-- DELETE FROM devices, without a WHERE clause. -/
def deleteDevices : Callback Unit Unit := .stmt (.delete .devices fun _ => true) fun _ => .done ()

theorem settled_device :
    Settled "acme" twoTenants (row .devices [(.id, "d1"), (.tenantId, "acme"), (.deviceId, "boiler")]) := by
  refine .mk (by decide) ?_
  intro fk hfk q hq
  obtain rfl := List.mem_singleton.mp hfk
  cases hq

theorem settled_alert : Settled "acme" twoTenants (row .deviceAlerts [(.id, "1"), (.devicePk, "d1")]) := by
  refine .mk (by decide) ?_
  intro fk hfk q hq
  obtain rfl := List.mem_singleton.mp hfk
  obtain rfl := Option.some.inj hq
  exact settled_device

theorem other_tenants_untouched_deleteDevices :
    row .deviceAlerts [(.id, "1"), (.devicePk, "d1")] ∈
      (withTenant "globex" deleteDevices none twoTenants).2 :=
  ((other_tenants_untouched (u := "acme") (by
      intro r hr fk hfk hcol
      exact exists_parent
        (List.all_eq_true.mp (by decide : twoTenants.rows.all (parentsExist twoTenants) = true) r hr) hfk hcol)
    (.snoc .nil (by decide) (tenants_step_eq ⟨"globex", deleteDevices, none⟩ twoTenants))).kept _
      (by simp [← KeyedTable.mem_rows, twoTenants]) settled_alert).1

end runs

end ThesadaApp.RowSecurity
