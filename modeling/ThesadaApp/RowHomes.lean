import ThesadaApp.RowSecurity

/-!
Whose row it is. A policy follows references to a row with a tenant_id column, so the tenant of a row
is that of the row its policy starts from, and no row has two. The part of a tenant is the database
with its own rows only; every policy says the same there as in the whole database.
-/

namespace ThesadaApp.RowSecurity

variable {δ : Type} {t u : String} {db : Db δ} {r q : Row δ}

theorem parent_mem {c : Column} {tb : Tbl} (h : parent db c tb r = some q) : q ∈ db := by
  obtain ⟨v, -, hfind⟩ := Option.bind_eq_some_iff.mp h
  exact KeyedTable.find_mem hfind

theorem parent_table {c : Column} {tb : Tbl} (h : parent db c tb r = some q) : q.table = tb := by
  obtain ⟨v, -, hfind⟩ := Option.bind_eq_some_iff.mp h
  exact congrArg Prod.fst (KeyedTable.find_key hfind)

theorem parent_congr {r r' : Row δ} {c : Column} (tb : Tbl) (h : r.col c = r'.col c) :
    parent db c tb r = parent db c tb r' := by
  rw [parent, h, parent]

theorem policyPath_tail {tb p : Tbl} {c : Column} {rest : List (Column × Tbl)}
    (h : policyPath tb = some ((c, p) :: rest)) : policyPath p = some rest := by
  cases tb <;> simp only [policyPath, Option.some.injEq, List.cons.injEq, Prod.mk.injEq, reduceCtorEq] at h <;>
    obtain ⟨⟨-, rfl⟩, rfl⟩ := h <;> rfl

/-- A policy follows references that cascade. -/
theorem policyPath_foreignKey {tb p : Tbl} {c : Column} {rest : List (Column × Tbl)}
    (h : policyPath tb = some ((c, p) :: rest)) : ⟨c, p, .cascade⟩ ∈ foreignKeys tb := by
  cases tb <;> simp only [policyPath, Option.some.injEq, List.cons.injEq, Prod.mk.injEq, reduceCtorEq] at h <;>
    obtain ⟨⟨rfl, rfl⟩, -⟩ := h <;> simp [foreignKeys]

theorem home_direct (h : policyPath r.table = some []) : home db r = r.col .tenantId := by
  simp [home, h, follow]

theorem home_denied (h : policyPath r.table = none) : home db r = none := by
  simp [home, h]

theorem home_through {c : Column} {p : Tbl} {rest : List (Column × Tbl)}
    (h : policyPath r.table = some ((c, p) :: rest)) :
    home db r = (parent db c p r).bind (home db) := by
  rw [home, h, Option.bind_some, follow, Option.bind_assoc]
  refine Option.bind_congr ?_
  intro q hq
  rw [home, parent_table hq, policyPath_tail h]
  rfl

/-- Induction along the references that the policy of a row follows. -/
theorem policy_induction {P : Row δ → Prop} (denied : ∀ r, policyPath r.table = none → P r)
    (direct : ∀ r, policyPath r.table = some [] → P r)
    (through : ∀ r c p rest, policyPath r.table = some ((c, p) :: rest) →
      (∀ q : Row δ, q.table = p → P q) → P r) (r : Row δ) : P r := by
  have hall : ∀ path : List (Column × Tbl), ∀ r : Row δ, policyPath r.table = some path → P r := by
    intro path
    induction path with
    | nil => exact direct
    | cons step rest ih =>
        obtain ⟨c, p⟩ := step
        intro r hr
        refine through r c p rest hr ?_
        rintro q rfl
        exact ih q (policyPath_tail hr)
  cases hpath : policyPath r.table with
  | none => exact denied r hpath
  | some path => exact hall path r hpath

/-- A row with the tables, keys and policy columns of another has its tenant. -/
theorem home_congr {r r' : Row δ} (htable : r.table = r'.table)
    (hown : r.col .tenantId = r'.col .tenantId)
    (hrefs : ∀ fk ∈ foreignKeys r.table, fk.onDelete = .cascade → r.col fk.column = r'.col fk.column) :
    home db r = home db r' := by
  cases hpath : policyPath r.table with
  | none => rw [home_denied hpath, home_denied (htable ▸ hpath)]
  | some path =>
      cases path with
      | nil => rw [home_direct hpath, home_direct (htable ▸ hpath), hown]
      | cons step rest =>
          obtain ⟨c, p⟩ := step
          have hcol : r.col c = r'.col c := hrefs _ (policyPath_foreignKey hpath) rfl
          rw [home_through hpath, home_through (htable ▸ hpath), parent_congr p hcol]

theorem home_of_admits (h : admits t db r = true) : home db r = some t := by
  simp only [admits, Bool.and_eq_true, decide_eq_true_eq] at h
  exact h.1

theorem home_of_visible {tb : Tbl} {p : Row δ → Bool} (h : visible t db tb p r = true) :
    home db r = some t := by
  simp only [visible, Bool.and_eq_true, decide_eq_true_eq] at h
  exact home_of_admits h.2

/-- The rows of one tenant. -/
def own (t : String) (db : Db δ) : Db δ := db.deleteWhere fun r => home db r ≠ some t

theorem mem_own : r ∈ own t db ↔ r ∈ db ∧ home db r = some t := by
  simp [own, KeyedTable.mem_deleteWhere]

theorem own_rows (t : String) (db : Db δ) :
    (own t db).rows = db.rows.filter fun r => home db r = some t := by
  simp [own, KeyedTable.deleteWhere]

theorem find_own (t : String) (db : Db δ) (k : Key) :
    (own t db).find k = (db.find k).filter fun r => home db r = some t := by
  rw [own, KeyedTable.find_deleteWhere]
  congr 1
  funext r
  simp

theorem parent_own (t : String) (db : Db δ) (c : Column) (tb : Tbl) (r : Row δ) :
    parent (own t db) c tb r = (parent db c tb r).filter fun q => home db q = some t := by
  unfold parent
  cases r.col c with
  | none => rfl
  | some v => exact find_own t db _

theorem parent_own_eq_some {c : Column} {tb : Tbl} :
    parent (own t db) c tb r = some q ↔ parent db c tb r = some q ∧ home db q = some t := by
  rw [parent_own, Option.filter_eq_some_iff, decide_eq_true_eq]

theorem home_own : home (own t db) r = some t ↔ home db r = some t := by
  induction r using policy_induction with
  | denied r hpath => rw [home_denied hpath, home_denied hpath]
  | direct r hpath => rw [home_direct hpath, home_direct hpath]
  | through r c p rest hpath ih =>
      rw [home_through hpath, home_through hpath, Option.bind_eq_some_iff, Option.bind_eq_some_iff]
      constructor
      · rintro ⟨q, hq, hhome⟩
        exact ⟨q, (parent_own_eq_some.mp hq).1, (parent_own_eq_some.mp hq).2⟩
      · rintro ⟨q, hq, hhome⟩
        exact ⟨q, parent_own_eq_some.mpr ⟨hq, hhome⟩, (ih q (parent_table hq)).mpr hhome⟩

/-- The tenant of a row that names another's id is read off the tenant's own rows. -/
theorem any_parent_own {c : Column} {tb : Tbl} {f g : Row δ → Bool}
    (hf : ∀ q, q.table = tb → f q = true → home db q = some t)
    (hfg : ∀ q, q.table = tb → home db q = some t → f q = g q) :
    (parent (own t db) c tb r).any g = (parent db c tb r).any f := by
  cases hq : parent db c tb r with
  | none => rw [parent_own, hq]; rfl
  | some q =>
      by_cases hhome : home db q = some t
      · rw [parent_own_eq_some.mpr ⟨hq, hhome⟩, Option.any_some, Option.any_some]
        exact (hfg q (parent_table hq) hhome).symm
      · have hno : f q = false := by
          rw [Bool.eq_false_iff]
          intro h
          exact hhome (hf q (parent_table hq) h)
        rw [parent_own, hq, Option.filter_some, if_neg (by simp [hhome]), Option.any_some, hno]
        rfl

theorem home_user (h : q.table = .users) : home db q = q.col .tenantId :=
  home_direct (by rw [h]; rfl)

theorem home_device (h : q.table = .devices) : home db q = q.col .tenantId :=
  home_direct (by rw [h]; rfl)

theorem subscribed_own (hr : r.table = .alertWebhookDeliveries) (hhome : home db r = some t) :
    subscribed t (own t db) r = subscribed t db r := by
  have hpath : policyPath r.table = some [(.alertId, .deviceAlerts), (.devicePk, .devices)] := by
    rw [hr]; rfl
  obtain ⟨a, ha, hahome⟩ := Option.bind_eq_some_iff.mp ((home_through hpath).symm.trans hhome)
  unfold subscribed
  rw [parent_own_eq_some.mpr ⟨ha, hahome⟩, ha, Option.any_some, Option.any_some]
  have huser : ∀ s : Row δ, (parent (own t db) .userId .users s).any (fun u => u.col .tenantId = some t) =
      (parent db .userId .users s).any fun u => u.col .tenantId = some t := by
    intro s
    refine any_parent_own ?_ fun _ _ _ => rfl
    intro q hq h
    rw [home_user hq]
    exact of_decide_eq_true h
  refine any_parent_own ?_ ?_
  · intro s hs h
    have hspath : policyPath s.table = some [(.userId, .users)] := by rw [hs]; rfl
    rw [Bool.and_eq_true, Option.any_eq_true] at h
    obtain ⟨⟨w, hw, htenant⟩, -⟩ := h
    rw [home_through hspath, hw, Option.bind_some, home_user (parent_table hw)]
    exact of_decide_eq_true htenant
  · intro s _ _
    rw [huser s]

/-- A policy says the same on a tenant's part as on the whole database. -/
theorem admits_own (t : String) (db : Db δ) (r : Row δ) : admits t (own t db) r = admits t db r := by
  unfold admits
  by_cases hhome : home db r = some t
  · by_cases hr : r.table = .alertWebhookDeliveries
    · simp [hhome, home_own.mpr hhome, subscribed_own hr hhome]
    · simp [hhome, home_own.mpr hhome, hr]
  · have hother : home (own t db) r ≠ some t := fun h => hhome (home_own.mp h)
    simp [hhome, hother]

theorem accepts_own (t : String) (db : Db δ) (r : Row δ) : accepts t (own t db) r = accepts t db r := by
  unfold accepts
  rw [admits_own]
  congr 2
  refine any_parent_own ?_ fun _ _ _ => rfl
  intro q hq h
  rw [home_device hq]
  exact of_decide_eq_true h

theorem visible_own (t : String) (db : Db δ) (tb : Tbl) (p : Row δ → Bool) :
    visible t (own t db) tb p = visible t db tb p := by
  funext r
  rw [visible, visible, admits_own]

theorem setTenant_own (t : String) (db : Db δ) (r : Row δ) :
    setTenant t (own t db) r = setTenant t db r := by
  unfold setTenant
  split
  · congr 2
    rw [parent_own, Option.filter_filter]
    congr 1
    funext q
    rw [admits_own]
    by_cases h : admits t db q = true
    · simp [h, home_of_admits h]
    · simp [h]
  · rfl

/-- A search for rows of one tenant finds them in its part. -/
theorem any_own {f g : Row δ → Bool} (hf : ∀ r ∈ db, f r = true → home db r = some t)
    (hfg : ∀ r ∈ own t db, f r = g r) : (own t db).rows.any g = db.rows.any f := by
  rw [Bool.eq_iff_iff, List.any_eq_true, List.any_eq_true]
  constructor
  · rintro ⟨r, hr, hg⟩
    exact ⟨r, (mem_own.mp hr).1, (hfg r hr).trans hg⟩
  · rintro ⟨r, hr, hfr⟩
    have hown : r ∈ own t db := mem_own.mpr ⟨hr, hf r hr hfr⟩
    exact ⟨r, hown, (hfg r hown).symm.trans hfr⟩

theorem filter_own {f g : Row δ → Bool} (hf : ∀ r ∈ db, f r = true → home db r = some t)
    (hfg : ∀ r ∈ own t db, f r = g r) : (own t db).rows.filter g = db.rows.filter f := by
  rw [own_rows, List.filter_filter]
  refine List.filter_congr ?_
  intro r hr
  by_cases hfr : f r = true
  · have hhome := hf r hr hfr
    rw [← hfg r (mem_own.mpr ⟨hr, hhome⟩), hfr]
    simp [hhome]
  · by_cases hhome : home db r = some t
    · rw [← hfg r (mem_own.mpr ⟨hr, hhome⟩)]
      simp [hhome]
    · simp [hhome, hfr]

theorem find?_own {f : Row δ → Bool} (hf : ∀ r ∈ db, f r = true → home db r = some t) :
    (own t db).rows.find? f = db.rows.find? f := by
  rw [← List.head?_filter, ← List.head?_filter, filter_own hf fun _ _ => rfl]

end ThesadaApp.RowSecurity
