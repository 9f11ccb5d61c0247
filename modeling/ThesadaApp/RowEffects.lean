import ThesadaApp.MachineRun
import ThesadaApp.RowHomes

/-!
What a statement of a tenant's transaction can do to the database, said once: nothing, an update or
an insertion of rows it may write, or a deletion with what the foreign keys carry along. From it, what
row level security protects on its own: over any run of other tenants' transactions, a row whose
references stay within its tenant is left alone and seen by the same tenants, and no row of the tenant
appears or changes but by a cleared reference.
-/

namespace ThesadaApp.RowSecurity

variable {δ ρ : Type} {t u : String} {db db' : Db δ} {r q : Row δ}

/-- Every reference names a row. -/
def Referential (db : Db δ) : Prop :=
  ∀ r ∈ db, ∀ fk ∈ foreignKeys r.table, r.col fk.column ≠ none →
    ∃ q, parent db fk.column fk.target r = some q

theorem exists_parent (h : parentsExist db r = true) {fk : ForeignKey}
    (hfk : fk ∈ foreignKeys r.table) (hcol : r.col fk.column ≠ none) :
    ∃ q, parent db fk.column fk.target r = some q := by
  have hone := List.all_eq_true.mp h fk hfk
  simp only [Bool.or_eq_true, decide_eq_true_eq, hcol, false_or] at hone
  exact Option.isSome_iff_exists.mp hone

/-- What a statement leaves. -/
inductive Effect (t : String) (db : Db δ) : Db δ → Prop
  | same : Effect t db db
  | update (touched : Row δ → Bool) (set : Row δ → Row δ)
      (hadmits : ∀ r ∈ db, touched r = true → admits t db r = true)
      (haccepts : ∀ r ∈ db, touched r = true → accepts t db (assign set r) = true)
      (hrefs : ∀ r ∈ db, touched r = true → parentsExist db (assign set r) = true) :
      Effect t db (db.updateWhere touched (assign set) (key_assign set))
  | insert (r : Row δ) (haccepts : accepts t db r = true) (hrefs : parentsExist db r = true)
      (hfree : db.find (key r) = none) : Effect t db (db.insert r hfree)
  | delete (picked : Row δ → Bool) (hadmits : ∀ r, picked r = true → admits t db r = true)
      (hblocked : ∀ r ∈ db, blocked db (doomed db picked 2) r = false) :
      Effect t db ((db.deleteWhere (doomed db picked 2)).updateWhere (fun _ => true)
        (unlink db (doomed db picked 2)) (key_unlink db _))

theorem home_of_accepts (h : accepts t db r = true) : home db r = some t := by
  simp only [accepts, Bool.and_eq_true] at h
  exact home_of_admits h.1

/-- A check that finds no bad row among those that satisfy `p`. -/
theorem of_not_any {p f : Row δ → Bool} (h : ¬(db.rows.any fun r => p r && !f r) = true) :
    ∀ r ∈ db, p r = true → f r = true := by
  intro r hr hp
  simp only [List.any_eq_true, Bool.and_eq_true, Bool.not_eq_true', not_exists, not_and,
    Bool.not_eq_false] at h
  exact h r hr hp

theorem deleteRows_effect {picked : Row δ → Bool} {rows : List (Row δ)}
    (hadmits : ∀ r, picked r = true → admits t db r = true)
    (h : deleteRows db picked = .ok (rows, db')) : Effect t db db' := by
  unfold deleteRows at h
  dsimp only at h
  split at h
  · cases h
  · next hblocked =>
      cases h
      refine .delete picked hadmits ?_
      intro r hr
      rw [Bool.eq_false_iff]
      intro hone
      exact hblocked (List.any_eq_true.mpr ⟨r, hr, hone⟩)

section effects

variable [Catalog δ]

theorem parentsExist_of_referencesExist (h : referencesExist db r = true) : parentsExist db r = true :=
  (Bool.and_eq_true_iff.mp h).1

theorem updateRows_effect {touched : Row δ → Bool} {set : Row δ → Row δ} {rows : List (Row δ)}
    (hadmits : ∀ r ∈ db, touched r = true → admits t db r = true)
    (h : updateRows t db touched set = .ok (rows, db')) : Effect t db db' := by
  unfold updateRows at h
  dsimp only at h
  split at h
  · cases h
  · next haccepts =>
      split at h
      · cases h
      · split at h
        · cases h
        · split at h
          · cases h
          · next hrefs =>
              cases h
              exact .update touched set hadmits (of_not_any haccepts) fun r hr htouched =>
                parentsExist_of_referencesExist (of_not_any hrefs r hr htouched)

theorem insertRow_effect {c : OnConflict δ} {rows : List (Row δ)}
    (h : insertRow t db r c = .ok (rows, db')) : Effect t db db' := by
  unfold insertRow at h
  split at h
  · cases h
  · next haccepts =>
      split at h
      · cases h
      · split at h
        · next old hold =>
            split at h
            · split at h
              · next hadmits =>
                  refine updateRows_effect ?_ h
                  intro x hx hkey
                  have hmem : old ∈ db := List.mem_of_find?_eq_some hold
                  rwa [KeyedTable.eq_of_key hx hmem (of_decide_eq_true hkey)]
              · cases h
            · cases h
              exact .same
        · split at h
          · cases h
          · split at h
            · cases h
            · next hrefs =>
                split at h
                · next hfree =>
                    cases h
                    exact .insert r (by simpa using haccepts)
                      (parentsExist_of_referencesExist (by simpa using hrefs)) hfree
                · cases h

theorem runStmt_effect {s : Stmt δ} {rows : List (Row δ)} (h : runStmt t db s = .ok (rows, db')) :
    Effect t db db' := by
  cases s with
  | select tb p =>
      cases h
      exact .same
  | insert r c =>
      simp only [runStmt] at h
      split at h
      · cases h
      · exact insertRow_effect h
  | update tb p set =>
      refine updateRows_effect ?_ h
      intro r _ hr
      simp only [visible, Bool.and_eq_true] at hr
      exact hr.2
  | delete tb p =>
      refine deleteRows_effect ?_ h
      intro r hr
      simp only [visible, Bool.and_eq_true] at hr
      exact hr.2

end effects

section references

theorem parent_updateWhere {touched : Row δ → Bool} {set : Row δ → Row δ} (c : Column) (tb : Tbl)
    (r : Row δ) : parent (db.updateWhere touched (assign set) (key_assign set)) c tb r =
      (parent db c tb r).map fun x => if touched x then assign set x else x := by
  unfold parent
  cases r.col c with
  | none => rfl
  | some v => exact KeyedTable.find_updateWhere _ _

theorem parent_insert {n : Row δ} {hfree : db.find (key n) = none} {c : Column} {tb : Tbl}
    (h : r.col c ≠ none → ∃ q, parent db c tb r = some q) :
    parent (db.insert n hfree) c tb r = parent db c tb r := by
  cases hcol : r.col c with
  | none => simp [parent, hcol]
  | some v =>
      obtain ⟨q, hq⟩ := h (by simp [hcol])
      have hfind : db.find (tb, [some v]) = some q := by simpa [parent, hcol] using hq
      have hne : (tb, [some v]) ≠ key n := by
        intro heq
        rw [heq, hfree] at hfind
        cases hfind
      simp [parent, hcol, KeyedTable.find_insert, hne]

theorem parent_delete {gone : Row δ → Bool} (c : Column) (tb : Tbl) (r : Row δ) :
    parent ((db.deleteWhere gone).updateWhere (fun _ => true) (unlink db gone) (key_unlink db gone))
      c tb r = ((parent db c tb r).filter fun q => !gone q).map (unlink db gone) := by
  unfold parent
  cases r.col c with
  | none => rfl
  | some v =>
      rw [Option.bind_some, Option.bind_some, KeyedTable.find_updateWhere, KeyedTable.find_deleteWhere]
      simp

/-- A column holds one reference. -/
theorem foreignKey_unique {tb : Tbl} {fk fk' : ForeignKey} (hfk : fk ∈ foreignKeys tb)
    (hfk' : fk' ∈ foreignKeys tb) (h : fk.column = fk'.column) : fk = fk' := by
  cases tb <;> simp only [foreignKeys, List.mem_cons, List.not_mem_nil, or_false] at hfk hfk' <;>
    grind

theorem tenantId_not_reference {tb : Tbl} {fk : ForeignKey} (hfk : fk ∈ foreignKeys tb) :
    fk.column ≠ .tenantId := by
  cases tb <;> simp only [foreignKeys, List.mem_cons, List.not_mem_nil, or_false] at hfk <;> grind

theorem unlink_col_cases (db : Db δ) (gone : Row δ → Bool) (r : Row δ) (c : Column) :
    (unlink db gone r).col c = r.col c ∨ (unlink db gone r).col c = none ∧
      ∃ fk ∈ foreignKeys r.table, fk.column = c ∧ fk.onDelete = .setNull ∧
        ∃ q, parent db fk.column fk.target r = some q ∧ gone q = true := by
  unfold unlink
  dsimp only
  split
  · next h =>
      right
      simp only [List.any_eq_true, Bool.and_eq_true, decide_eq_true_eq, Option.any_eq_true] at h
      obtain ⟨fk, hfk, ⟨hcol, hnull⟩, q, hq, hgone⟩ := h
      exact ⟨rfl, fk, hfk, hcol, hnull, q, hq, hgone⟩
  · exact .inl rfl

theorem unlink_col_of_cascade {gone : Row δ → Bool} {fk : ForeignKey} (hfk : fk ∈ foreignKeys r.table)
    (hcascade : fk.onDelete ≠ .setNull) : (unlink db gone r).col fk.column = r.col fk.column := by
  obtain h | ⟨-, fk', hfk', hcol, hnull, -⟩ := unlink_col_cases db gone r fk.column
  · exact h
  · rw [foreignKey_unique hfk' hfk hcol] at hnull
    exact absurd hnull hcascade

theorem unlink_tenantId (gone : Row δ → Bool) (r : Row δ) :
    (unlink db gone r).col .tenantId = r.col .tenantId := by
  obtain h | ⟨-, fk, hfk, hcol, -⟩ := unlink_col_cases db gone r .tenantId
  · exact h
  · exact absurd hcol (tenantId_not_reference hfk)

/-- A deletion follows references for as long as there are any. -/
def depth : Tbl → Nat
  | .alertWebhookDeliveries => 2
  | tb => if (foreignKeys tb).any fun fk => fk.onDelete = .cascade then 1 else 0

theorem depth_lt {tb : Tbl} {fk : ForeignKey} (hfk : fk ∈ foreignKeys tb) (h : fk.onDelete = .cascade) :
    depth fk.target < depth tb := by
  cases tb <;> simp only [foreignKeys, List.mem_cons, List.not_mem_nil, or_false] at hfk <;>
    grind [depth, foreignKeys]

theorem depth_le (tb : Tbl) : depth tb ≤ 2 := by
  cases tb <;> decide

theorem doomed_succ {picked : Row δ → Bool} {n : Nat} :
    doomed db picked (n + 1) r = true ↔ picked r = true ∨ ∃ fk ∈ foreignKeys r.table,
      fk.onDelete = .cascade ∧ ∃ q, parent db fk.column fk.target r = some q ∧
        doomed db picked n q = true := by
  simp only [doomed, Bool.or_eq_true, List.any_eq_true, Bool.and_eq_true, decide_eq_true_eq,
    Option.any_eq_true]

theorem doomed_stable {picked : Row δ → Bool} {n : Nat} (h : depth r.table ≤ n) :
    doomed db picked (n + 1) r = true → doomed db picked n r = true := by
  induction n generalizing r with
  | zero =>
      intro hdoomed
      obtain hpicked | ⟨fk, hfk, hcascade, -⟩ := doomed_succ.mp hdoomed
      · exact hpicked
      · have hlt := depth_lt hfk hcascade
        omega
  | succ n ih =>
      intro hdoomed
      rw [doomed_succ] at hdoomed ⊢
      refine hdoomed.imp_right ?_
      rintro ⟨fk, hfk, hcascade, q, hq, hdoomed⟩
      have hlt := depth_lt hfk hcascade
      have hdepth : depth q.table ≤ n := by
        rw [parent_table hq]
        omega
      exact ⟨fk, hfk, hcascade, q, hq, ih hdepth hdoomed⟩

/-- What references a deleted row by a cascading key is deleted. -/
theorem doomed_of_parent {picked : Row δ → Bool} {fk : ForeignKey} (hfk : fk ∈ foreignKeys r.table)
    (hcascade : fk.onDelete = .cascade) (hq : parent db fk.column fk.target r = some q)
    (hdoomed : doomed db picked 2 q = true) : doomed db picked 2 r = true := by
  have hlt := depth_lt hfk hcascade
  have hle := depth_le r.table
  have hdepth : depth q.table ≤ 1 := by
    rw [parent_table hq]
    omega
  exact doomed_succ.mpr (.inr ⟨fk, hfk, hcascade, q, hq, doomed_stable hdepth hdoomed⟩)

theorem home_unlink {gone : Row δ → Bool} (r : Row δ) : home db' (unlink db gone r) = home db' r :=
  home_congr rfl (unlink_tenantId gone r) fun _ hfk hcascade =>
    unlink_col_of_cascade hfk (by rw [hcascade]; decide)

end references

end ThesadaApp.RowSecurity
