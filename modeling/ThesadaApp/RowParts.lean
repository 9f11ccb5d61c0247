import ThesadaApp.RowConfined

/-!
A tenant's statements on the shared database and on its own rows alone. Where no reference crosses
tenants and the rows a statement writes keep to their tenant, the statement returns the same rows or
the same error on both, leaves the same rows of the tenant, and leaves the part of every other tenant
as it was.
-/

namespace ThesadaApp.RowSecurity

variable {δ ρ : Type} {t u : String} {db db' : Db δ} {r q : Row δ}

/-- No reference crosses tenants. -/
def Tidy (db : Db δ) : Prop :=
  ∀ r ∈ db, ∀ fk ∈ foreignKeys r.table, r.col fk.column ≠ none →
    ∃ q, parent db fk.column fk.target r = some q ∧ home db q = home db r

theorem Tidy.referential (h : Tidy db) : Referential db := by
  intro r hr fk hfk hcol
  obtain ⟨q, hq, -⟩ := h r hr fk hfk hcol
  exact ⟨q, hq⟩

theorem Tidy.home_parent (h : Tidy db) (hr : r ∈ db) {fk : ForeignKey} (hfk : fk ∈ foreignKeys r.table)
    (hq : parent db fk.column fk.target r = some q) : home db q = home db r := by
  have hcol : r.col fk.column ≠ none := by
    intro hnone
    simp [parent, hnone] at hq
  obtain ⟨q', hq', hhome⟩ := h r hr fk hfk hcol
  rw [hq'] at hq
  cases hq
  exact hhome

/-- The references that a WITH CHECK binds to the tenant. -/
def boundColumns : Tbl → List Column
  | .alertWebhookDeliveries => [.alertId, .subscriptionId]
  | .deviceConfigSecrets => [.devicePk]
  | tb => match policyPath tb with
    | some ((c, _) :: _) => [c]
    | _ => []

/-- A written row keeps to its tenant: what its other references name is the tenant's, and no row of
another tenant is in its way. -/
structure Fits [Catalog δ] (t : String) (db : Db δ) (r : Row δ) : Prop where
  refs : ∀ fk ∈ foreignKeys r.table, fk.column ∉ boundColumns r.table →
    ∀ q, parent db fk.column fk.target r = some q → home db q = some t
  free : ∀ x ∈ db, home db x ≠ some t → clash r x = false

theorem policyPath_of_bound {tb : Tbl} {c : Column} (hbound : c ∈ boundColumns tb)
    (hsecret : tb ≠ .deviceConfigSecrets) (hdelivery : ¬(tb = .alertWebhookDeliveries ∧ c = .subscriptionId)) :
    ∃ p rest, policyPath tb = some ((c, p) :: rest) := by
  cases tb <;> grind [boundColumns, policyPath]

/-- WITH CHECK binds the columns it names. -/
theorem home_of_bound (h : accepts t db r = true) {fk : ForeignKey} (hfk : fk ∈ foreignKeys r.table)
    (hbound : fk.column ∈ boundColumns r.table) (hq : parent db fk.column fk.target r = some q) :
    home db q = some t := by
  have hhome : home db r = some t := home_of_accepts h
  by_cases hsecret : r.table = .deviceConfigSecrets
  · simp only [hsecret, foreignKeys, List.mem_singleton] at hfk
    subst hfk
    simp only [accepts, hsecret, Bool.and_eq_true, ne_eq, not_true_eq_false, decide_false,
      Bool.false_or, Bool.or_eq_true, decide_eq_true_eq, hq, Option.any_some] at h
    obtain hnone | htenant := h.2
    · simp [parent, hnone] at hq
    · rwa [home_device (parent_table hq)]
  · by_cases hdelivery : r.table = .alertWebhookDeliveries ∧ fk.column = .subscriptionId
    · obtain ⟨htable, hcol⟩ := hdelivery
      have hfk' : fk = ⟨.subscriptionId, .alertSubscriptions, .cascade⟩ :=
        foreignKey_unique hfk (by rw [htable]; exact List.mem_cons_of_mem _ List.mem_cons_self) hcol
      subst hfk'
      have hadmits : admits t db r = true := by
        simp only [accepts, Bool.and_eq_true] at h
        exact h.1
      simp only [admits, htable, ne_eq, not_true_eq_false, decide_false, Bool.false_or,
        Bool.and_eq_true, subscribed, Option.any_eq_true] at hadmits
      obtain ⟨-, a, -, s, hs, ⟨w, hw, htenant⟩, -⟩ := hadmits
      rw [hq] at hs
      cases hs
      have hpath : policyPath q.table = some [(.userId, .users)] := by rw [parent_table hq]; rfl
      rw [home_through hpath, hw, Option.bind_some, home_user (parent_table hw)]
      exact of_decide_eq_true htenant
    · obtain ⟨p, rest, hpath⟩ := policyPath_of_bound hbound hsecret hdelivery
      have hfk' : fk = ⟨fk.column, p, .cascade⟩ := foreignKey_unique hfk (policyPath_foreignKey hpath) rfl
      have htarget : fk.target = p := congrArg ForeignKey.target hfk'
      rw [home_through hpath, ← htarget, hq, Option.bind_some] at hhome
      exact hhome

section parts

/-- The part of a tenant after an update by `t`. -/
theorem own_updateWhere {touched : Row δ → Bool} {set : Row δ → Row δ}
    (hadmits : ∀ r ∈ db, touched r = true → admits t db r = true)
    (haccepts : ∀ r ∈ db, touched r = true → accepts t db (assign set r) = true) (u : String) :
    own u (db.updateWhere touched (assign set) (key_assign set)) =
      (own u db).updateWhere touched (assign set) (key_assign set) := by
  apply KeyedTable.ext_rows
  rw [own_rows]
  show (db.rows.map _).filter _ = (own u db).rows.map _
  rw [List.filter_map, own_rows]
  congr 1
  refine List.filter_congr ?_
  intro r hr
  rw [Function.comp_apply, home_updateWhere hadmits haccepts]
  by_cases htouched : touched r = true
  · rw [if_pos htouched, home_of_accepts (haccepts r hr htouched), home_of_admits (hadmits r hr htouched)]
  · rw [if_neg htouched]

theorem own_updateWhere_other {touched : Row δ → Bool} {set : Row δ → Row δ} (hne : u ≠ t)
    (hadmits : ∀ r ∈ db, touched r = true → admits t db r = true)
    (haccepts : ∀ r ∈ db, touched r = true → accepts t db (assign set r) = true) :
    own u (db.updateWhere touched (assign set) (key_assign set)) = own u db := by
  rw [own_updateWhere hadmits haccepts]
  apply KeyedTable.ext_rows
  refine (List.map_congr_left ?_).trans (List.map_id _)
  intro r hr
  obtain ⟨hmem, hhome⟩ := mem_own.mp hr
  refine if_neg ?_
  intro htouched
  exact hne (Option.some.inj (hhome.symm.trans (home_of_admits (hadmits r hmem htouched))))

/-- The part of a tenant after an insertion by `t`. -/
theorem own_insert_rows {hfree : db.find (key r) = none} (href : Referential db)
    (haccepts : accepts t db r = true) (hrefs : parentsExist db r = true) (u : String) :
    (own u (db.insert r hfree)).rows = (own u db).rows ++ if t = u then [r] else [] := by
  have hhome : home (db.insert r hfree) r = some t := by
    rw [home_insert href fun fk hfk hcol => exists_parent hrefs hfk hcol]
    exact home_of_accepts haccepts
  rw [own_rows]
  show (db.rows ++ [r]).filter _ = _
  rw [List.filter_append, own_rows]
  congr 1
  · refine List.filter_congr ?_
    intro x hx
    rw [home_insert href (href x hx)]
  · rw [List.filter_singleton, hhome]
    by_cases htu : t = u <;> simp [htu]

/-- Where no reference crosses tenants, a deletion takes rows of its own tenant only. -/
theorem home_of_doomed (htidy : Tidy db) {picked : Row δ → Bool}
    (hadmits : ∀ r, picked r = true → admits t db r = true) {n : Nat} (hr : r ∈ db)
    (h : doomed db picked n r = true) : home db r = some t := by
  induction n generalizing r with
  | zero => exact home_of_admits (hadmits r h)
  | succ n ih =>
      obtain hpicked | ⟨fk, hfk, -, q, hq, hgone⟩ := doomed_succ.mp h
      · exact home_of_admits (hadmits r hpicked)
      · rw [← htidy.home_parent hr hfk hq]
        exact ih (parent_mem hq) hgone

theorem parent_mem_own (htidy : Tidy db) (hr : r ∈ own t db) {fk : ForeignKey} (hfk : fk ∈ foreignKeys r.table)
    {q : Row δ} (hq : parent db fk.column fk.target r = some q) : q ∈ own t db := by
  obtain ⟨hmem, hhome⟩ := mem_own.mp hr
  exact mem_own.mpr ⟨parent_mem hq, (htidy.home_parent hmem hfk hq).trans hhome⟩

theorem parent_own_of_tidy (htidy : Tidy db) (hr : r ∈ own t db) {fk : ForeignKey}
    (hfk : fk ∈ foreignKeys r.table) :
    parent (own t db) fk.column fk.target r = parent db fk.column fk.target r := by
  cases hq : parent db fk.column fk.target r with
  | none => rw [parent_own, hq, Option.filter_none]
  | some q => exact parent_own_eq_some.mpr ⟨hq, (mem_own.mp (parent_mem_own htidy hr hfk hq)).2⟩

theorem doomed_own (htidy : Tidy db) {picked : Row δ → Bool} {n : Nat} (hr : r ∈ own t db) :
    doomed (own t db) picked n r = doomed db picked n r := by
  induction n generalizing r with
  | zero => rfl
  | succ n ih =>
      rw [Bool.eq_iff_iff, doomed_succ, doomed_succ]
      refine or_congr_right (exists_congr fun fk => and_congr_right fun hfk => ?_)
      refine and_congr_right fun _ => exists_congr fun q => ?_
      rw [parent_own_of_tidy htidy hr hfk]
      refine and_congr_right fun hq => ?_
      rw [ih (parent_mem_own htidy hr hfk hq)]

theorem any_doomed_own (htidy : Tidy db) {picked : Row δ → Bool} {n : Nat} (hr : r ∈ own t db)
    {fk : ForeignKey} (hfk : fk ∈ foreignKeys r.table) :
    (parent (own t db) fk.column fk.target r).any (doomed (own t db) picked n) =
      (parent db fk.column fk.target r).any (doomed db picked n) := by
  rw [parent_own_of_tidy htidy hr hfk]
  cases hq : parent db fk.column fk.target r with
  | none => rfl
  | some q => exact doomed_own htidy (parent_mem_own htidy hr hfk hq)

theorem unlink_own (htidy : Tidy db) {picked : Row δ → Bool} {n : Nat} (hr : r ∈ own t db) :
    unlink (own t db) (doomed (own t db) picked n) r = unlink db (doomed db picked n) r := by
  refine congrArg (fun col => ({ r with col := col } : Row δ)) ?_
  funext c
  congr 2
  rw [Bool.eq_iff_iff, List.any_eq_true, List.any_eq_true]
  refine exists_congr fun fk => and_congr_right fun hfk => ?_
  rw [any_doomed_own htidy hr hfk]

/-- The part of a tenant after a deletion by `t`. -/
theorem own_delete_rows {picked : Row δ → Bool} (u : String) :
    (own u ((db.deleteWhere (doomed db picked 2)).updateWhere (fun _ => true)
      (unlink db (doomed db picked 2)) (key_unlink db _))).rows =
        ((own u db).rows.filter fun r => !doomed db picked 2 r).map (unlink db (doomed db picked 2)) := by
  rw [own_rows, own_rows]
  show ((db.rows.filter _).map _).filter _ = _
  simp only [if_true]
  rw [List.filter_map, List.filter_filter, List.filter_filter]
  congr 1
  refine List.filter_congr ?_
  intro r hr
  cases hgone : doomed db picked 2 r with
  | true => simp
  | false =>
      rw [Function.comp_apply, home_unlink, home_delete hgone]
      simp

theorem own_delete (htidy : Tidy db) {picked : Row δ → Bool} :
    (((own t db).deleteWhere (doomed (own t db) picked 2)).updateWhere (fun _ => true)
      (unlink (own t db) (doomed (own t db) picked 2)) (key_unlink _ _)) =
    own t ((db.deleteWhere (doomed db picked 2)).updateWhere (fun _ => true)
      (unlink db (doomed db picked 2)) (key_unlink db _)) := by
  apply KeyedTable.ext_rows
  rw [own_delete_rows]
  show ((own t db).rows.filter _).map _ = _
  simp only [if_true]
  have hkept : (own t db).rows.filter (fun r => !doomed (own t db) picked 2 r) =
      (own t db).rows.filter fun r => !doomed db picked 2 r :=
    List.filter_congr fun r hr => by rw [doomed_own htidy hr]
  rw [hkept]
  refine List.map_congr_left ?_
  intro r hr
  exact unlink_own htidy (List.mem_filter.mp hr).1

theorem own_delete_other (htidy : Tidy db) (hne : u ≠ t) {picked : Row δ → Bool}
    (hadmits : ∀ r, picked r = true → admits t db r = true) :
    own u ((db.deleteWhere (doomed db picked 2)).updateWhere (fun _ => true)
      (unlink db (doomed db picked 2)) (key_unlink db _)) = own u db := by
  have hsafe : ∀ r ∈ db, home db r = some u → doomed db picked 2 r = false := by
    intro r hr hhome
    rw [Bool.eq_false_iff]
    intro hgone
    exact hne (Option.some.inj (hhome.symm.trans (home_of_doomed htidy hadmits hr hgone)))
  apply KeyedTable.ext_rows
  rw [own_delete_rows, List.filter_eq_self.mpr]
  · refine (List.map_congr_left ?_).trans (List.map_id _)
    intro r hr
    obtain ⟨hmem, hhome⟩ := mem_own.mp hr
    refine congrArg (fun col => ({ r with col := col } : Row δ)) ?_
    funext c
    obtain hsame | ⟨-, fk, hfk, -, -, q, hq, hgone⟩ :=
      unlink_col_cases db (doomed db picked 2) r c
    · exact hsame
    · rw [hsafe q (parent_mem hq) ((htidy.home_parent hmem hfk hq).trans hhome)] at hgone
      cases hgone
  · intro r hr
    obtain ⟨hmem, hhome⟩ := mem_own.mp hr
    rw [hsafe r hmem hhome]
    rfl

theorem tidy_delete (htidy : Tidy db) {picked : Row δ → Bool}
    (href : Referential ((db.deleteWhere (doomed db picked 2)).updateWhere (fun _ => true)
      (unlink db (doomed db picked 2)) (key_unlink db _))) :
    Tidy ((db.deleteWhere (doomed db picked 2)).updateWhere (fun _ => true)
      (unlink db (doomed db picked 2)) (key_unlink db _)) := by
  intro r hr fk hfk hcol
  obtain ⟨q, hq⟩ := href r hr fk hfk hcol
  refine ⟨q, hq, ?_⟩
  obtain ⟨old, hmem, rfl⟩ := (KeyedTable.mem_updateWhere _).mp hr
  obtain ⟨hmem, hkept⟩ := KeyedTable.mem_deleteWhere.mp hmem
  rw [if_pos rfl] at hfk hcol hq ⊢
  have hsame : (unlink db (doomed db picked 2) old).col fk.column = old.col fk.column := by
    obtain hsame | ⟨hnone, -⟩ := unlink_col_cases db (doomed db picked 2) old fk.column
    · exact hsame
    · exact absurd hnone hcol
  rw [parent_delete, parent_congr fk.target hsame, Option.map_eq_some_iff] at hq
  obtain ⟨p, hp, rfl⟩ := hq
  rw [Option.filter_eq_some_iff, Bool.not_eq_true'] at hp
  rw [home_unlink, home_unlink, home_delete hp.2, home_delete hkept]
  have hreference : fk ∈ foreignKeys old.table := hfk
  exact htidy.home_parent hmem hreference hp.1

theorem tidy_insert (htidy : Tidy db) {hfree : db.find (key r) = none} (haccepts : accepts t db r = true)
    (hrefs : parentsExist db r = true) (hparents : ∀ fk ∈ foreignKeys r.table,
      ∀ q, parent db fk.column fk.target r = some q → home db q = some t) :
    Tidy (db.insert r hfree) := by
  have href := htidy.referential
  intro x hx fk hfk hcol
  have hold : (∀ fk ∈ foreignKeys x.table, x.col fk.column ≠ none →
      ∃ q, parent db fk.column fk.target x = some q ∧ home db q = home db x) := by
    obtain hx | rfl := (KeyedTable.mem_insert hfree).mp hx
    · exact htidy x hx
    · intro fk hfk hcol
      obtain ⟨q, hq⟩ := exists_parent hrefs hfk hcol
      exact ⟨q, hq, (hparents fk hfk q hq).trans (home_of_accepts haccepts).symm⟩
  have hexist : ∀ fk ∈ foreignKeys x.table, x.col fk.column ≠ none →
      ∃ q, parent db fk.column fk.target x = some q := fun fk hfk hcol =>
    (hold fk hfk hcol).imp fun q hq => hq.1
  obtain ⟨q, hq, hhome⟩ := hold fk hfk hcol
  refine ⟨q, (parent_insert (hexist fk hfk)).trans hq, ?_⟩
  rw [home_insert href (href q (parent_mem hq)), home_insert href hexist]
  exact hhome

/-- What is needed of the rows an update writes for no reference to cross tenants. -/
theorem tidy_updateWhere (htidy : Tidy db) {touched : Row δ → Bool} {set : Row δ → Row δ}
    (hadmits : ∀ r ∈ db, touched r = true → admits t db r = true)
    (haccepts : ∀ r ∈ db, touched r = true → accepts t db (assign set r) = true)
    (hexist : ∀ r ∈ db, touched r = true → parentsExist db (assign set r) = true)
    (hparents : ∀ r ∈ db, touched r = true → ∀ fk ∈ foreignKeys (assign set r).table,
      ∀ q, parent db fk.column fk.target (assign set r) = some q → home db q = some t) :
    Tidy (db.updateWhere touched (assign set) (key_assign set)) := by
  -- a row whose references are tidy in the old database has tidy references in the new one
  have hmoved : ∀ r : Row δ, (∀ fk ∈ foreignKeys r.table, r.col fk.column ≠ none →
      ∃ q, parent db fk.column fk.target r = some q ∧ home db q = home db r) →
      ∀ fk ∈ foreignKeys r.table, r.col fk.column ≠ none → ∃ q,
        parent (db.updateWhere touched (assign set) (key_assign set)) fk.column fk.target r = some q ∧
          home (db.updateWhere touched (assign set) (key_assign set)) q =
            home (db.updateWhere touched (assign set) (key_assign set)) r := by
    intro r hr fk hfk hcol
    obtain ⟨q, hq, hhome⟩ := hr fk hfk hcol
    refine ⟨_, by rw [parent_updateWhere, hq, Option.map_some], ?_⟩
    rw [home_updateWhere hadmits haccepts, home_updateWhere hadmits haccepts, ← hhome]
    by_cases htouched : touched q = true
    · rw [if_pos htouched, home_of_accepts (haccepts q (parent_mem hq) htouched),
        home_of_admits (hadmits q (parent_mem hq) htouched)]
    · rw [if_neg htouched]
  intro r hr
  obtain ⟨old, hmem, rfl⟩ := (KeyedTable.mem_updateWhere _).mp hr
  by_cases htouched : touched old = true
  · rw [if_pos htouched]
    refine hmoved _ ?_
    intro fk hfk hcol
    obtain ⟨q, hq⟩ := exists_parent (hexist old hmem htouched) hfk hcol
    refine ⟨q, hq, ?_⟩
    rw [hparents old hmem htouched fk hfk q hq, home_of_accepts (haccepts old hmem htouched)]
  · rw [if_neg htouched]
    exact hmoved _ (htidy old hmem)

/-- A statement on the shared database against the same one on its tenant's part: the same rows or
the same error, and nothing done to the other parts. -/
structure Isolated (t : String) (db : Db δ) (shared alone : Except SqlError (List (Row δ) × Db δ)) :
    Prop where
  same : alone = shared.map fun (rows, db') => (rows, own t db')
  tidy : ∀ rows db', shared = .ok (rows, db') → Tidy db'
  others : ∀ rows db' u, shared = .ok (rows, db') → u ≠ t → own u db' = own u db

theorem Isolated.error {e : SqlError} : Isolated t db (.error e) (.error e) :=
  ⟨rfl, nofun, nofun⟩

theorem Isolated.same_rows {rows : List (Row δ)} (htidy : Tidy db) :
    Isolated t db (.ok (rows, db)) (.ok (rows, own t db)) := by
  refine ⟨rfl, ?_, ?_⟩
  · rintro rows db' ⟨⟩
    exact htidy
  · rintro rows db' u ⟨⟩ _
    rfl

theorem deleteRows_isolated (htidy : Tidy db) {picked : Row δ → Bool}
    (hadmits : ∀ r, picked r = true → admits t db r = true) :
    Isolated t db (deleteRows db picked) (deleteRows (own t db) picked) := by
  have hgone : ∀ r ∈ db, doomed db picked 2 r = true → home db r = some t := fun r hr h =>
    home_of_doomed htidy hadmits hr h
  have hblocked : (own t db).rows.any (blocked (own t db) (doomed (own t db) picked 2)) =
      db.rows.any (blocked db (doomed db picked 2)) := by
    refine any_own ?_ ?_
    · intro r hr h
      simp only [blocked, Bool.and_eq_true, List.any_eq_true, decide_eq_true_eq, Option.any_eq_true] at h
      obtain ⟨-, fk, hfk, -, q, hq, hdoomed⟩ := h
      rw [← htidy.home_parent hr hfk hq]
      exact hgone q (parent_mem hq) hdoomed
    · intro r hr
      unfold blocked
      rw [doomed_own htidy hr, Bool.eq_iff_iff]
      simp only [Bool.and_eq_true, List.any_eq_true, decide_eq_true_eq]
      refine and_congr_right fun _ => exists_congr fun fk => and_congr_right fun hfk => ?_
      rw [any_doomed_own htidy hr hfk]
  unfold deleteRows
  dsimp only
  rw [hblocked]
  split
  · exact .error
  · refine ⟨?_, ?_, ?_⟩
    · simp only [Except.map]
      rw [own_delete htidy, filter_own (fun r _ h => home_of_admits (hadmits r h)) fun _ _ => rfl]
    · next hfree =>
        rintro rows db' ⟨⟩
        refine tidy_delete htidy (Effect.referential (t := t) (.delete picked hadmits ?_) htidy.referential)
        intro r hr
        rw [Bool.eq_false_iff]
        intro hone
        exact hfree (List.any_eq_true.mpr ⟨r, hr, hone⟩)
    · rintro rows db' u ⟨⟩ hne
      exact own_delete_other htidy hne hadmits

end parts

section statements

variable [Catalog δ]

/-- What a written row's references name is the tenant's. -/
theorem Fits.home_parent (h : Fits t db r) (haccepts : accepts t db r = true) {fk : ForeignKey}
    (hfk : fk ∈ foreignKeys r.table) (hq : parent db fk.column fk.target r = some q) :
    home db q = some t := by
  by_cases hbound : fk.column ∈ boundColumns r.table
  · exact home_of_bound haccepts hfk hbound hq
  · exact h.refs fk hfk hbound q hq

theorem referencesExist_own (h : Fits t db r) (haccepts : accepts t db r = true) :
    referencesExist (own t db) r = referencesExist db r := by
  unfold referencesExist parentsExist
  congr 1
  rw [Bool.eq_iff_iff, List.all_eq_true, List.all_eq_true]
  refine forall₂_congr ?_
  intro fk hfk
  cases hq : parent db fk.column fk.target r with
  | none => rw [parent_own, hq, Option.filter_none]
  | some q => rw [parent_own_eq_some.mpr ⟨hq, h.home_parent haccepts hfk hq⟩]

theorem home_of_clash (h : Fits t db r) {x : Row δ} (hx : x ∈ db) (hclash : clash r x = true) :
    home db x = some t := by
  by_contra hne
  rw [h.free x hx hne] at hclash
  cases hclash

theorem updateRows_isolated (htidy : Tidy db) {touched : Row δ → Bool} {set : Row δ → Row δ}
    (hadmits : ∀ r ∈ db, touched r = true → admits t db r = true)
    (hfits : ∀ r ∈ db, touched r = true → Fits t db (assign set r)) :
    Isolated t db (updateRows t db touched set) (updateRows t (own t db) touched set) := by
  have hhome : ∀ r ∈ db, touched r = true → home db r = some t := fun r hr htouched =>
    home_of_admits (hadmits r hr htouched)
  have hleft : ∀ f : Row δ → Bool, ∀ r ∈ db, (touched r && f r) = true → home db r = some t := by
    intro f r hr h
    exact hhome r hr (Bool.and_eq_true_iff.mp h).1
  have hcheck : ∀ f : Row δ → Bool, (own t db).rows.any (fun r => touched r && f r) =
      db.rows.any fun r => touched r && f r := fun f => any_own (hleft f) fun _ _ => rfl
  unfold updateRows
  dsimp only
  simp only [accepts_own]
  rw [hcheck fun r => !accepts t db (assign set r)]
  split
  · exact .error
  · next hrows =>
      have haccepts := of_not_any hrows
      rw [hcheck fun r => !Catalog.checked (assign set r)]
      split
      · exact .error
      · -- the rows a new version clashes with are the tenant's
        have hclash : (own t db).rows.any (fun r => touched r && (own t db).rows.any fun x =>
              key x ≠ key r && clash (assign set r) (if touched x then assign set x else x)) =
            db.rows.any fun r => touched r && db.rows.any fun x =>
              key x ≠ key r && clash (assign set r) (if touched x then assign set x else x) := by
          refine any_own (hleft _) ?_
          intro r hr
          by_cases htouched : touched r = true
          · congr 1
            refine (any_own ?_ fun _ _ => rfl).symm
            intro x hx h
            by_cases hx' : touched x = true
            · exact hhome x hx hx'
            · rw [if_neg hx', Bool.and_eq_true_iff] at h
              exact home_of_clash (hfits r (mem_own.mp hr).1 htouched) hx h.2
          · simp [htouched]
        rw [hclash]
        split
        · exact .error
        · have hrefs : (own t db).rows.any (fun r => touched r && !referencesExist (own t db) (assign set r)) =
              db.rows.any fun r => touched r && !referencesExist db (assign set r) := by
            refine any_own (hleft _) ?_
            intro r hr
            by_cases htouched : touched r = true
            · have hmem := (mem_own.mp hr).1
              rw [referencesExist_own (hfits r hmem htouched) (haccepts r hmem htouched)]
            · simp [htouched]
          rw [hrefs]
          split
          · exact .error
          · next hexist =>
              have hexist : ∀ r ∈ db, touched r = true → parentsExist db (assign set r) = true :=
                fun r hr htouched => parentsExist_of_referencesExist (of_not_any hexist r hr htouched)
              refine ⟨?_, ?_, ?_⟩
              · simp only [Except.map]
                rw [own_updateWhere hadmits haccepts, filter_own hhome fun _ _ => rfl]
              · rintro rows db' ⟨⟩
                exact tidy_updateWhere htidy hadmits haccepts hexist
                  fun r hr htouched fk hfk q hq =>
                    (hfits r hr htouched).home_parent (haccepts r hr htouched) hfk hq
              · rintro rows db' u ⟨⟩ hne
                exact own_updateWhere_other hne hadmits haccepts

theorem clash_of_arbitrates {c : OnConflict δ} {x : Row δ} (h : arbitrates r c x = true) :
    clash r x = true := by
  cases c with
  | raise => cases h
  | nothing target | update target set =>
      obtain ⟨ix, hix, hone⟩ := List.any_eq_true.mp h
      rw [Bool.and_eq_true] at hone
      exact Bool.or_eq_true_iff.mpr (.inr (List.any_eq_true.mpr ⟨ix, hix, hone.2⟩))

theorem insertRow_isolated (htidy : Tidy db) {c : OnConflict δ} (hfits : Fits t db r)
    (hold : ∀ target set, c = .update target set → ∀ x ∈ db, arbitrates r c x = true →
      admits t db x = true → Fits t db (assign set x)) :
    Isolated t db (insertRow t db r c) (insertRow t (own t db) r c) := by
  have harbiter : (own t db).rows.find? (arbitrates r c) = db.rows.find? (arbitrates r c) :=
    find?_own fun x hx h => home_of_clash hfits hx (clash_of_arbitrates h)
  have hclash : (own t db).rows.any (clash r) = db.rows.any (clash r) :=
    any_own (fun x hx h => home_of_clash hfits hx h) fun _ _ => rfl
  unfold insertRow
  rw [accepts_own, harbiter, hclash]
  split
  · exact .error
  · next haccepts =>
      have haccepts : accepts t db r = true := by simpa using haccepts
      rw [referencesExist_own hfits haccepts]
      split
      · exact .error
      · split
        · next old hfound =>
            have hmem : old ∈ db := List.mem_of_find?_eq_some hfound
            split
            · next target set =>
                rw [admits_own]
                split
                · next hadmits =>
                    have hsame : ∀ x ∈ db, decide (key x = key old) = true → x = old := fun x hx h =>
                      KeyedTable.eq_of_key hx hmem (of_decide_eq_true h)
                    refine updateRows_isolated htidy ?_ ?_
                    · intro x hx h
                      rw [hsame x hx h]
                      exact hadmits
                    · intro x hx h
                      rw [hsame x hx h]
                      exact hold target set rfl old hmem (List.find?_some hfound) hadmits
                · exact .error
            · exact .same_rows htidy
        · split
          · exact .error
          · next hnone =>
              split
              · exact .error
              · next hrefs =>
                  have hrefs : parentsExist db r = true :=
                    parentsExist_of_referencesExist (by simpa using hrefs)
                  have hfree : db.find (key r) = none := by
                    rw [KeyedTable.find_eq_none]
                    intro x hx hkey
                    exact hnone (List.any_eq_true.mpr ⟨x, hx, by simp [clash, hkey]⟩)
                  have hfree' : (own t db).find (key r) = none := by rw [find_own, hfree]; rfl
                  rw [dif_pos hfree, dif_pos hfree']
                  have href := htidy.referential
                  refine ⟨?_, ?_, ?_⟩
                  · simp only [Except.map]
                    congr 2
                    apply KeyedTable.ext_rows
                    rw [own_insert_rows href haccepts hrefs, if_pos rfl]
                    rfl
                  · rintro rows db' ⟨⟩
                    exact tidy_insert htidy haccepts hrefs fun fk hfk q hq =>
                      hfits.home_parent haccepts hfk hq
                  · rintro rows db' u ⟨⟩ hne
                    apply KeyedTable.ext_rows
                    rw [own_insert_rows href haccepts hrefs, if_neg (Ne.symm hne), List.append_nil]

end statements

end ThesadaApp.RowSecurity
