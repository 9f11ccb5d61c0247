import ThesadaApp.MachineParts
import ThesadaApp.RowParts

/-!
One shared database as one database for each tenant. Where no transaction writes a reference to
another tenant's row in a column that no policy checks, nor a value that the key of another tenant's
row holds, a transaction does on the shared database what it would do on a database with its tenant's
rows alone, and leaves every other tenant's part as it was. So a run of all tenants' transactions is
one run for each tenant, and what a tenant sees depends on its own transactions only.
-/

namespace ThesadaApp.RowSecurity

variable {δ ρ : Type} [Catalog δ] {t u : String} {db db' : Db δ} {r : Row δ}

/-- The rows a statement is about to write. -/
def written (t : String) (db : Db δ) : Stmt δ → List (Row δ)
  | .select _ _ | .delete _ _ => []
  | .insert r c =>
      match setTenant t db r with
      | none => []
      | some r => r :: match c with
        | .update _ set => (db.rows.filter fun x => arbitrates r c x && admits t db x).map (assign set)
        | _ => []
  | .update tb p set => (db.rows.filter (visible t db tb p)).map (assign set)

theorem runStmt_isolated (htidy : Tidy db) {s : Stmt δ} (hfits : ∀ r ∈ written t db s, Fits t db r) :
    Isolated t db (runStmt t db s) (runStmt t (own t db) s) := by
  cases s with
  | select tb p =>
      simp only [runStmt, visible_own]
      rw [filter_own (fun r _ h => home_of_visible h) fun _ _ => rfl]
      exact .same_rows htidy
  | insert r c =>
      simp only [runStmt, setTenant_own]
      cases hr : setTenant t db r with
      | none => exact .error
      | some r' =>
          simp only [written, hr] at hfits
          refine insertRow_isolated htidy (hfits r' List.mem_cons_self) ?_
          rintro target set rfl x hx harbiter hadmits
          refine hfits _ (List.mem_cons_of_mem _ (List.mem_map_of_mem (List.mem_filter.mpr ⟨hx, ?_⟩)))
          rw [harbiter, hadmits]
          rfl
  | update tb p set =>
      simp only [runStmt, visible_own]
      refine updateRows_isolated htidy ?_ ?_
      · intro r _ h
        simp only [visible, Bool.and_eq_true] at h
        exact h.2
      · intro r hr h
        exact hfits _ (List.mem_map_of_mem (List.mem_filter.mpr ⟨hr, h⟩))
  | delete tb p =>
      simp only [runStmt, visible_own]
      refine deleteRows_isolated htidy ?_
      intro r h
      simp only [visible, Bool.and_eq_true] at h
      exact h.2

/-- Every statement of a callback, as it runs, writes rows that keep to their tenant. -/
def Confined (t : String) : Db δ → Callback δ ρ → Prop
  | _, .done _ | _, .fail _ => True
  | db, .stmt s next => (∀ r ∈ written t db s, Fits t db r) ∧
      ∀ rows db', runStmt t db s = .ok (rows, db') → Confined t db' (next rows)

/-- A callback on the shared database against the same one on its tenant's part. -/
theorem runCallback_isolated (htidy : Tidy db) {fn : Callback δ ρ} (hfn : Confined t db fn) :
    runCallback t (own t db) fn = (runCallback t db fn).map fun (out, db') => (out, own t db') := by
  induction fn generalizing db with
  | done out => rfl
  | fail out => rfl
  | stmt s next ih =>
      obtain ⟨hfits, hnext⟩ := hfn
      have hiso := runStmt_isolated htidy hfits
      simp only [runCallback]
      rw [hiso.same]
      cases hs : runStmt t db s with
      | error e => rfl
      | ok out =>
          obtain ⟨rows, db'⟩ := out
          exact ih rows (hiso.tidy _ _ hs) (hnext rows db' hs)

theorem runCallback_others (htidy : Tidy db) {fn : Callback δ ρ} {out : ρ} (hfn : Confined t db fn)
    (h : runCallback t db fn = .ok (out, db')) :
    Tidy db' ∧ ∀ u, u ≠ t → own u db' = own u db := by
  induction fn generalizing db with
  | done out =>
      cases h
      exact ⟨htidy, fun _ _ => rfl⟩
  | fail out => cases h
  | stmt s next ih =>
      obtain ⟨hfits, hnext⟩ := hfn
      have hiso := runStmt_isolated htidy hfits
      simp only [runCallback] at h
      split at h
      · cases h
      · next rows db₁ hs =>
          obtain ⟨htidy', hothers⟩ := ih rows (hiso.tidy _ _ hs) (hnext rows db₁ hs) h
          exact ⟨htidy', fun u hne => (hothers u hne).trans (hiso.others _ _ u hs hne)⟩

/-- A call of WithTenant on the shared database against the same one on its tenant's part. -/
theorem withTenant_isolated (htidy : Tidy db) {fn : Callback δ ρ} (fault : Option Fault)
    (hfn : Confined t db fn) :
    withTenant t fn fault (own t db) =
      ((withTenant t fn fault db).1, own t (withTenant t fn fault db).2) := by
  unfold withTenant
  rw [runCallback_isolated htidy hfn]
  cases runCallback t db fn with
  | error e => split_ifs <;> rfl
  | ok out => split_ifs <;> rfl

/-- The shared database and a database for each tenant: the same transactions, apart. -/
theorem tenants_separates :
    (tenants δ ρ).Separates (fun _ db a => Confined a.tenant db a.fn) Tidy (fun a => a.tenant)
      (fun t db => own t db) (fun _ => tenants δ ρ) where
  keep := by
    intro log db a db' e htidy hok hstep
    obtain ⟨-, -, rfl⟩ := tenants_step hstep
    obtain hsame | ⟨out, hrun⟩ := withTenant_cases a.tenant a.fn a.fault db
    · rw [hsame]
      exact htidy
    · exact (runCallback_others htidy hok hrun).1
  own := by
    intro log db a db' e htidy hok hstep
    rw [tenants_step_eq] at hstep
    cases hstep
    rw [tenants_step_eq, withTenant_isolated htidy a.fault hok]
  other := by
    intro log db a db' e u htidy hok hstep hne
    obtain ⟨-, -, rfl⟩ := tenants_step hstep
    obtain hsame | ⟨out, hrun⟩ := withTenant_cases a.tenant a.fn a.fault db
    · rw [hsame]
    · exact (runCallback_others htidy hok hrun).2 u hne

theorem tenants_act (db : Db δ) (a : Tx δ ρ) (db' : Db δ) (e : Tx δ ρ × Except (TxError ρ) ρ)
    (h : (tenants δ ρ).step db a = some (db', e)) : e.1 = a := (tenants_step h).1

/-- INSERT of a device of one tenant. -/
def addDevice : Callback Unit Unit :=
  .stmt (.insert (row .devices [(.id, "d3"), (.tenantId, "acme"), (.deviceId, "pump")]) .raise)
    fun _ => .done ()

theorem tidy_twoTenants : Tidy twoTenants := by
  have hall : (twoTenants.rows.all fun r => (foreignKeys r.table).all fun fk => r.col fk.column = none ||
      (parent twoTenants fk.column fk.target r).any fun q => home twoTenants q = home twoTenants r) = true := by
    decide
  intro r hr fk hfk hcol
  have hone := List.all_eq_true.mp (List.all_eq_true.mp hall r hr) fk hfk
  simpa [hcol, Option.any_eq_true] using hone

theorem fits_addDevice (db : Db Unit) (h : (db.rows.all fun x => home db x = some "acme" ||
      !clash (row .devices [(.id, "d3"), (.tenantId, "acme"), (.deviceId, "pump")]) x) = true) :
    Confined "acme" db addDevice := by
  refine ⟨?_, fun _ _ _ => trivial⟩
  intro r hr
  obtain rfl := List.mem_singleton.mp hr
  refine ⟨?_, ?_⟩
  · intro fk hfk _ q hq
    obtain rfl := List.mem_singleton.mp hfk
    cases hq
  · intro x hx hne
    have hone := List.all_eq_true.mp h x hx
    simpa [hne] using hone

end ThesadaApp.RowSecurity
