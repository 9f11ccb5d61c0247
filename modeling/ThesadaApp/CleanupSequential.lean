import ThesadaApp.CleanupBacked

/-!
Cleanups that run one after another, with the other transactions between them, do what the transactions of the service
do. The statements of a cleanup are executed one by one; what is left to execute, on the tables without the rows still
to come to, stays what the whole call makes of the tables.
-/

namespace ThesadaApp.Cleanups

open Enroll (deleteRows ownOrUnclaimed orphanClaim removedRows Tx)

/-- The transaction of the service. -/
def Call.tx : Call → Tx
  | .reset deviceID tenantID => .reset deviceID tenantID
  | .resetForTenant deviceID tenantID => .resetForTenant deviceID tenantID
  | .sweepOrphanClaims => .sweepOrphanClaims

def Statement.deletes : Statement → Bool
  | .lock _ _ => false
  | _ => true

/-- A statement at once. -/
def Statement.run (cfg : EnrollConfig) (db : Db) (statement : Statement) : Db :=
  deleteRows db fun e => statement.deletes && statement.selects (visible cfg db) e

/-- The tables once the statement has come to its rows. -/
def Cleanup.ahead (c : Cleanup) (db : Db) : Db :=
  deleteRows db fun e => c.deleted.contains e.key || (c.statement.deletes && c.todo.contains e.key)

/-- No cleanup begins and no transaction commits while a cleanup is in progress. -/
def Serial (_log : List Event) (s : State) : Action → Prop
  | .begin _ _ => s.cleanups.rows = []
  | .transaction _ => s.cleanups.rows = []
  | _ => True

/-- The tenant's call has no claim of another tenant before it. -/
def Call.Passed (db : Db) : Call → Prop
  | .resetForTenant deviceID tenantID => ∀ e ∈ db.enrollments, e.deviceID = deviceID →
      ¬ (Call.resetForTenant deviceID tenantID).Foreign e
  | _ => True

/-- A cleanup that runs alone, on tables that stay as they are. -/
structure Cleanup.Exact (cfg : EnrollConfig) (db : Db) (c : Cleanup) : Prop where
  selected : ∀ k ∈ c.todo, ∃ e ∈ db.enrollments, e.key = k ∧ c.statement.selects c.snapshot e = true
  ahead : c.rest.foldl (Statement.run cfg) (c.ahead db) = (c.call.statements cfg).foldl (Statement.run cfg) db
  locking : ∀ deviceID sole, c.statement = .lock deviceID sole → ∀ e ∈ db.enrollments,
    e.deviceID = deviceID ↔ e.key ∈ c.locked ∨ e.key ∈ c.todo
  passed : (∀ deviceID sole, c.statement ≠ .lock deviceID sole) → c.call.Passed db

/-- An event of a cleanup is what its transaction answers. -/
def Event.Atomic (cfg : EnrollConfig) : Event → Prop
  | .committed call before after => call.tx.run cfg before = (after, .ok (removedRows before after))
  | .refused call _ before after => ∃ err, call.tx.run cfg before = (after, .error err)
  | _ => True

section tables

variable {cfg : EnrollConfig} {db : Db} {p q : Enrollment → Bool}

theorem deleteRows_congr (h : ∀ e ∈ db.enrollments, p e = q e) : deleteRows db p = deleteRows db q := by
  have hrows : db.enrollments.deleteWhere p = db.enrollments.deleteWhere q := by
    simp only [KeyedTable.deleteWhere, KeyedTable.mk.injEq]
    exact List.filter_congr fun e he => by rw [h e he]
  rw [deleteRows, deleteRows, hrows]

theorem deleteRows_false (h : ∀ e ∈ db.enrollments, p e = false) : deleteRows db p = db := by
  have hrows : db.enrollments.deleteWhere p = db.enrollments := by
    simp only [KeyedTable.deleteWhere]
    congr
    exact List.filter_eq_self.mpr fun e he => by rw [h e he, Bool.not_false]
  rw [deleteRows, hrows]
  rfl

theorem deleteRows_deleteRows : deleteRows (deleteRows db p) q = deleteRows db fun e => p e || q e := by
  have hrows : (db.enrollments.deleteWhere p).deleteWhere q = db.enrollments.deleteWhere fun e => p e || q e := by
    simp only [KeyedTable.deleteWhere, KeyedTable.mk.injEq, List.filter_filter, Bool.not_or]
    exact List.filter_congr fun e _ => Bool.and_comm _ _
  simp only [deleteRows, Db.setEnrollments, hrows]

@[simp] theorem visible_enrollments : (visible cfg db).enrollments = db.enrollments := by
  unfold visible
  split <;> rfl

end tables

section cleanups

variable {cfg : EnrollConfig} {db : Db} {c : Cleanup} {k : EnrollKey} {statement : Statement} {rest : List Statement}
  {call : Call}

/-- No row is left to come to. -/
theorem ahead_eq_view (htodo : c.todo = []) : c.ahead db = c.view db :=
  deleteRows_congr fun e _ => by simp [htodo]

theorem mem_take_or (hk : k ∈ c.todo) (k' : EnrollKey) : k' = k ∨ k' ∈ c.todo.erase k ↔ k' ∈ c.todo := by
  by_cases hsame : k' = k
  · simp [hsame, hk]
  · simp [hsame, List.mem_erase_of_ne hsame]

theorem ahead_take (hk : k ∈ c.todo) : (c.take k).ahead db = c.ahead db := by
  refine deleteRows_congr fun e _ => ?_
  have hmem := mem_take_or hk e.key
  unfold Cleanup.take
  split
  · next hst => simp [Cleanup.skip, Cleanup.deleted, hst, Statement.deletes]
  · next hst =>
      rw [Bool.eq_iff_iff]
      simp only [Cleanup.skip, Cleanup.deleted, hst, Statement.deletes, Bool.true_and, Bool.or_eq_true,
        List.contains_iff_mem, List.mem_append, List.mem_cons, ← hmem]
      tauto
  · next hst =>
      rw [Bool.eq_iff_iff]
      simp only [Cleanup.skip, Cleanup.deleted, hst, Statement.deletes, Bool.true_and, Bool.or_eq_true,
        List.contains_iff_mem, List.mem_append, List.mem_cons, ← hmem]
      tauto

theorem mem_execute_todo {e : Enrollment} (he : e ∈ (c.view db).enrollments) :
    e.key ∈ (c.execute cfg db statement rest).todo ↔ statement.selects (visible cfg (c.view db)) e = true := by
  constructor
  · intro hmem
    obtain ⟨x, hx, hkey⟩ := List.mem_map.mp hmem
    obtain ⟨hx, hselects⟩ := List.mem_filter.mp hx
    rw [visible_enrollments] at hx
    obtain rfl := KeyedTable.eq_of_key hx he hkey
    exact hselects
  · intro hselects
    refine List.mem_map_of_mem (List.mem_filter.mpr ⟨?_, hselects⟩)
    rw [visible_enrollments]
    exact he

/-- A statement that takes its snapshot goes on from the tables as the transaction has left them. -/
theorem ahead_execute : (c.execute cfg db statement rest).ahead db = statement.run cfg (c.view db) := by
  rw [Statement.run, Cleanup.view, deleteRows_deleteRows]
  refine deleteRows_congr fun e he => ?_
  show (c.deleted.contains e.key || (statement.deletes && (c.execute cfg db statement rest).todo.contains e.key)) = _
  cases hdeleted : c.deleted.contains e.key with
  | true => rfl
  | false =>
      have hview : e ∈ (c.view db).enrollments := KeyedTable.mem_deleteWhere.mpr ⟨he, hdeleted⟩
      have htodo : (c.execute cfg db statement rest).todo.contains e.key =
          statement.selects (visible cfg (c.view db)) e := by
        rw [Bool.eq_iff_iff, List.contains_iff_mem, mem_execute_todo hview]
      rw [htodo]
      rfl

theorem selected_execute (hk : k ∈ (c.execute cfg db statement rest).todo) : ∃ e ∈ db.enrollments, e.key = k ∧
    statement.selects (c.execute cfg db statement rest).snapshot e = true := by
  obtain ⟨e, he, hkey⟩ := List.mem_map.mp hk
  obtain ⟨he, hselects⟩ := List.mem_filter.mp he
  rw [visible_enrollments] at he
  exact ⟨e, (mem_view.mp he).1, hkey, hselects⟩

theorem Cleanup.Exact.start {id : Nat} (h : call.statements cfg = statement :: rest) :
    (Cleanup.start cfg db id call statement rest).Exact cfg db := by
  have hview : (⟨id, call, statement, db, [], rest, [], [], []⟩ : Cleanup).view db = db :=
    deleteRows_false fun _ _ => rfl
  refine ⟨fun k hk => selected_execute hk, ?_, fun deviceID sole hst e he => ?_, fun hnot => ?_⟩
  · show rest.foldl _ _ = (call.statements cfg).foldl _ db
    rw [Cleanup.start, ahead_execute, hview, h, List.foldl_cons]
  · obtain rfl : statement = .lock deviceID sole := hst
    rw [← hview] at he
    refine Iff.trans ?_ ((mem_execute_todo he).symm.trans (or_iff_right List.not_mem_nil).symm)
    exact decide_eq_true_iff.symm
  · cases call with
    | resetForTenant deviceID tenantID =>
        obtain ⟨rfl, -⟩ := List.cons.inj h
        exact absurd rfl (hnot deviceID (some tenantID))
    | _ => trivial

theorem Cleanup.Exact.visit (h : c.Exact cfg db) (hk : k ∈ c.todo) : (c.visit db k).Exact cfg db := by
  obtain ⟨e, he, rfl, hselects⟩ := h.selected k hk
  have htake : c.visit db e.key = c.take e.key := by
    unfold Cleanup.visit
    rw [KeyedTable.find_of_mem he]
    exact if_pos hselects
  rw [htake]
  have hahead := h.ahead
  rw [← ahead_take hk] at hahead
  have hselected : ∀ k ∈ c.todo.erase e.key, ∃ e ∈ db.enrollments, e.key = k ∧
      c.statement.selects c.snapshot e = true := fun k hk => h.selected k (List.mem_of_mem_erase hk)
  unfold Cleanup.take at hahead ⊢
  split at hahead
  · next deviceID sole hst =>
      refine ⟨hselected, hahead, fun deviceID' sole' hst' x hx => ?_, h.passed⟩
      rw [h.locking deviceID' sole' hst' x hx, ← mem_take_or hk]
      show _ ↔ x.key ∈ e.key :: c.locked ∨ x.key ∈ c.todo.erase e.key
      rw [List.mem_cons, or_assoc, or_left_comm]
  · next hst => exact ⟨hselected, hahead, (fun _ _ hlock => by cases hst.symm.trans hlock), h.passed⟩
  · next hst => exact ⟨hselected, hahead, (fun _ _ hlock => by cases hst.symm.trans hlock), h.passed⟩

theorem statements_lock {deviceID : String} {tenantID : Slug}
    (h : .lock deviceID (some tenantID) ∈ call.statements cfg) : call = .resetForTenant deviceID tenantID := by
  cases call with
  | reset => cases hall : cfg.adminSeesAllTenants <;> simp [Call.statements, hall] at h
  | resetForTenant =>
      obtain ⟨rfl, rfl⟩ := by simpa [Call.statements] using h
      rfl
  | sweepOrphanClaims => cases hall : cfg.adminSeesAllTenants <;> simp [Call.statements, hall] at h

/-- A call that its lock has not refused has no foreign claim before it. -/
theorem Cleanup.Exact.call_passed (h : c.Exact cfg db) (hinv : c.Inv cfg db) (htodo : c.todo = [])
    (hrefuses : c.refuses db = false) : c.call.Passed db := by
  have hmem := hinv.statement_mem
  cases hst : c.statement with
  | deleteOrphans => exact h.passed fun _ _ hlock => by cases hst.symm.trans hlock
  | deleteOwn => exact h.passed fun _ _ hlock => by cases hst.symm.trans hlock
  | lock deviceID sole =>
      rw [hst] at hmem
      cases hcall : c.call with
      | reset => trivial
      | sweepOrphanClaims => trivial
      | resetForTenant deviceID' tenantID =>
          rw [hcall] at hmem
          obtain ⟨rfl, rfl⟩ : deviceID = deviceID' ∧ sole = some tenantID := by simpa [Call.statements] using hmem
          intro e he hdevice hforeign
          have hlocked : e.key ∈ c.locked := by
            refine ((h.locking deviceID (some tenantID) hst e he).mp hdevice).resolve_right ?_
            rw [htodo]
            exact List.not_mem_nil
          simp only [Cleanup.refuses, hst, List.any_eq_false] at hrefuses
          have hnot := hrefuses e.key hlocked
          rw [KeyedTable.find_of_mem he] at hnot
          simp [Option.isSome_iff_ne_none] at hnot
          exact hforeign.2 (hnot hforeign.1)

theorem Cleanup.Exact.execute (h : c.Exact cfg db) (hinv : c.Inv cfg db) (htodo : c.todo = [])
    (hrefuses : c.refuses db = false) (hrest : c.rest = statement :: rest) :
    (c.execute cfg db statement rest).Exact cfg db := by
  refine ⟨fun k hk => selected_execute hk, ?_, fun deviceID sole hst => ?_, fun _ => ?_⟩
  · show rest.foldl _ _ = (c.call.statements cfg).foldl _ db
    rw [ahead_execute, ← h.ahead, hrest, List.foldl_cons, ahead_eq_view htodo]
  · obtain rfl : statement = .lock deviceID sole := hst
    exact absurd (hrest ▸ List.mem_cons_self) (hinv.lockFirst deviceID sole)
  · exact h.call_passed hinv htodo hrefuses

theorem run_lock {deviceID : String} {sole : Option Slug} : (Statement.lock deviceID sole).run cfg db = db :=
  deleteRows_false fun _ _ => rfl

theorem run_reset {deviceID : String} {tenantID : Slug} :
    ((Call.reset deviceID tenantID).statements cfg).foldl (Statement.run cfg) db =
      Enroll.reset cfg db deviceID tenantID := by
  rw [Call.statements, Enroll.reset]
  cases hall : cfg.adminSeesAllTenants with
  | true =>
      have hvisible : visible cfg db = db := if_pos hall
      simp only [if_true, List.cons_append, List.nil_append, List.foldl_cons, List.foldl_nil, run_lock]
      rw [Statement.run, Statement.run, hvisible]
      rfl
  | false =>
      simp only [Bool.false_eq_true, if_false, List.cons_append, List.nil_append, List.foldl_cons, List.foldl_nil,
        run_lock]
      rfl

/-- The statements of a call, one at once after the other, are its transaction. -/
theorem run_tx (hpassed : call.Passed db) (hne : call.statements cfg ≠ []) : call.tx.run cfg db =
    ((call.statements cfg).foldl (Statement.run cfg) db,
      .ok (removedRows db ((call.statements cfg).foldl (Statement.run cfg) db))) := by
  cases call with
  | reset deviceID tenantID =>
      rw [run_reset]
      rfl
  | resetForTenant deviceID tenantID =>
      have hstatements : ((Call.resetForTenant deviceID tenantID).statements cfg).foldl (Statement.run cfg) db =
          deleteRows db (ownOrUnclaimed deviceID tenantID) := by
        rw [Call.statements, List.foldl_cons, run_lock]
        rfl
      have hok : Enroll.resetForTenant db deviceID tenantID = .ok (deleteRows db (ownOrUnclaimed deviceID tenantID)) := by
        refine if_neg ?_
        rw [List.any_eq_true]
        rintro ⟨e, he, hforeign⟩
        simp only [Bool.and_eq_true, decide_eq_true_eq, Option.isSome_iff_ne_none] at hforeign
        exact hpassed e he hforeign.1.1 ⟨hforeign.1.2, hforeign.2⟩
      rw [hstatements, Call.tx, Tx.run, hok]
      rfl
  | sweepOrphanClaims =>
      have hall : cfg.adminSeesAllTenants = true := by
        by_contra hall
        exact hne (if_neg hall)
      have hvisible : visible cfg db = db := if_pos hall
      have hstatements : (Call.sweepOrphanClaims.statements cfg).foldl (Statement.run cfg) db =
          deleteRows db (orphanClaim db) := by
        rw [Call.statements, if_pos hall, List.foldl_cons, Statement.run, hvisible]
        rfl
      have hok : Enroll.sweepOrphanClaims cfg db = .ok (deleteRows db (orphanClaim db)) := if_pos hall
      rw [hstatements, Call.tx, Tx.run, hok]
      rfl

theorem Cleanup.Exact.committed (h : c.Exact cfg db) (hinv : c.Inv cfg db) (htodo : c.todo = [])
    (hrefuses : c.refuses db = false) (hrest : c.rest = []) :
    c.call.tx.run cfg db = (c.view db, .ok (removedRows db (c.view db))) := by
  have hview : (c.call.statements cfg).foldl (Statement.run cfg) db = c.view db := by
    rw [← h.ahead, hrest, List.foldl_nil, ahead_eq_view htodo]
  rw [run_tx (h.call_passed hinv htodo hrefuses) (List.ne_nil_of_mem hinv.statement_mem), hview]

theorem Cleanup.Exact.refused (h : c.Exact cfg db) (hinv : c.Inv cfg db) (hrefuses : c.refuses db = true) :
    ∃ err, c.call.tx.run cfg db = (db, .error err) := by
  have hmem := hinv.statement_mem
  unfold Cleanup.refuses at hrefuses
  split at hrefuses
  · next deviceID tenantID hst =>
      rw [hst] at hmem
      obtain ⟨k, hk, hany⟩ := List.any_eq_true.mp hrefuses
      obtain ⟨e, hfind, hforeign⟩ := (Option.any_eq_true _ _).mp hany
      obtain rfl := KeyedTable.find_key hfind
      have he := KeyedTable.find_mem hfind
      have hdevice : e.deviceID = deviceID := (h.locking deviceID _ hst e he).mpr (.inl hk)
      have hcall := statements_lock hmem
      refine ⟨.claimedElsewhere, ?_⟩
      have herror : Enroll.resetForTenant db deviceID tenantID = .error .claimedElsewhere := by
        refine if_pos (List.any_eq_true.mpr ⟨e, he, ?_⟩)
        rw [decide_eq_true hdevice, Bool.true_and]
        exact hforeign
      rw [hcall, Call.tx, Tx.run, herror]
      rfl
  · cases hrefuses

end cleanups

section runs

variable {cfg : EnrollConfig} {db : Db} {log : List Event} {s s' : State} {a : Action} {e : Event}

/-- The cleanup in progress, if there is one. -/
structure Alone (cfg : EnrollConfig) (s : State) : Prop where
  one : ∀ c ∈ s.cleanups, ∀ c' ∈ s.cleanups, c' = c
  exact : ∀ c ∈ s.cleanups, c.Exact cfg s.db

theorem Alone.of_none (h : ∀ c, c ∉ s.cleanups) : Alone cfg s :=
  ⟨fun c hc => absurd hc (h c), fun c hc => absurd hc (h c)⟩

theorem Alone.close (h : Alone cfg s) {c : Cleanup} (hc : c ∈ s.cleanups) (x : Cleanup) :
    x ∉ (s.close c.id).cleanups := by
  intro hx
  obtain ⟨hx, hid⟩ := KeyedTable.mem_deleteWhere.mp hx
  rw [h.one c hc x hx, decide_eq_false_iff_not] at hid
  exact hid rfl

theorem notMem_commit {db' : Db} (h : ∀ c, c ∉ s.cleanups) (x : Cleanup) : x ∉ (s.commit db').cleanups := by
  intro hx
  obtain ⟨old, hold, -⟩ := (KeyedTable.mem_updateWhere (f := Cleanup.forget db') fun _ => rfl).mp hx
  exact h old hold

theorem notMem_of_rows (h : s.cleanups.rows = []) (c : Cleanup) : c ∉ s.cleanups := by
  rw [← KeyedTable.mem_rows, h]
  exact List.not_mem_nil

theorem Alone.update (h : Alone cfg s) {c : Cleanup} (hc : c ∈ s.cleanups) {f : Cleanup → Cleanup}
    {hf : ∀ c, (f c).id = c.id} (hexact : (f c).Exact cfg s.db) : Alone cfg (s.update c.id f hf) := by
  have hnew : ∀ x ∈ (s.update c.id f hf).cleanups, x = f c := by
    intro x hx
    obtain ⟨old, hold, rfl⟩ := (KeyedTable.mem_updateWhere hf).mp hx
    rw [h.one c hc old hold]
    exact if_pos (decide_eq_true rfl)
  refine ⟨fun x hx x' hx' => (hnew x' hx').trans (hnew x hx).symm, fun x hx => ?_⟩
  rw [hnew x hx]
  exact hexact

theorem Alone.step (h : Alone cfg s) (hinv : ∀ c ∈ s.cleanups, c.Inv cfg s.db) (hok : Serial log s a)
    (hchange : Change cfg s a s' e) : Alone cfg s' := by
  cases hchange with
  | refusedAtOnce => exact h
  | began id call statement rest hid hstatements =>
      have hnew : ∀ x ∈ s.cleanups.insert (Cleanup.start cfg s.db id call statement rest) hid,
          x = Cleanup.start cfg s.db id call statement rest := by
        intro x hx
        exact ((KeyedTable.mem_insert hid).mp hx).resolve_left (notMem_of_rows hok x)
      refine ⟨fun x hx x' hx' => (hnew x' hx').trans (hnew x hx).symm, fun x hx => ?_⟩
      rw [hnew x hx]
      exact .start hstatements
  | visited c k hc hk => exact h.update hc ((h.exact c hc).visit hk)
  | refused c hc => exact .of_none (h.close hc)
  | committed c hc => exact .of_none (notMem_commit (h.close hc))
  | executed c statement rest hc htodo hrefuses hrest =>
      exact h.update hc ((h.exact c hc).execute (hinv c hc) htodo hrefuses hrest)
  | rolledBack id =>
      have hmem : ∀ c ∈ (s.close id).cleanups, c ∈ s.cleanups := fun c hc => (KeyedTable.mem_deleteWhere.mp hc).1
      exact ⟨fun c hc c' hc' => h.one c (hmem c hc) c' (hmem c' hc'), fun c hc => h.exact c (hmem c hc)⟩
  | transaction t => exact .of_none (notMem_commit (notMem_of_rows hok))

theorem alone_of_run (hrun : (machine cfg).RunIf Serial (start db) log s) : Alone cfg s := by
  refine hrun.invariant_along (fun _ s => Alone cfg s) (.of_none fun _ => List.not_mem_nil) ?_
  intro log s a s' e hrun halone hok hstep
  exact halone.step (stable_inv.run hrun) hok (step_change hstep)

/-- A sweep that row-level security restricts is refused at once. -/
theorem refused_of_no_statements {call : Call} (h : call.statements cfg = []) :
    ∃ err, call.tx.run cfg db = (db, .error err) := by
  cases call with
  | reset => cases h
  | resetForTenant => cases h
  | sweepOrphanClaims =>
      have hrestricted : ¬ cfg.adminSeesAllTenants = true := by
        intro hall
        rw [Call.statements, if_pos hall] at h
        cases h
      have herror : Enroll.sweepOrphanClaims cfg db = .error .poolSeesOneTenant := if_neg hrestricted
      refine ⟨.poolSeesOneTenant, ?_⟩
      rw [Call.tx, Tx.run, herror]
      rfl

theorem Change.atomic (h : Change cfg s a s' e) (halone : Alone cfg s) (hinv : ∀ c ∈ s.cleanups, c.Inv cfg s.db) :
    e.Atomic cfg := by
  cases h with
  | refusedAtOnce id call hnone => exact refused_of_no_statements hnone
  | refused c hc hrefuses => exact (halone.exact c hc).refused (hinv c hc) hrefuses
  | committed c hc htodo hrefuses hrest => exact (halone.exact c hc).committed (hinv c hc) htodo hrefuses hrest
  | _ => trivial

/-- What a cleanup commits or refuses in a serial run is what its transaction of the service does at that point. -/
theorem atomic_of_serial (hrun : (machine cfg).RunIf Serial (start db) log s) : ∀ e ∈ log, e.Atomic cfg := by
  refine hrun.invariant_along (fun log _ => ∀ e ∈ log, e.Atomic cfg) (fun _ he => absurd he List.not_mem_nil) ?_
  intro log s a s' e hrun hlog _ hstep x hx
  rcases List.mem_append.mp hx with hx | hx
  · exact hlog x hx
  · rw [List.mem_singleton.mp hx]
    exact (step_change hstep).atomic (alone_of_run hrun) (stable_inv.run hrun)

/-- A serial run is a run of the service. -/
theorem service_of_serial (hrun : (machine cfg).RunIf Serial (start db) log s) :
    ∃ trace, (Enroll.service cfg).Run db trace s.db := by
  have hsimulated : ∃ trace db', (Enroll.service cfg).Run db trace db' ∧ s.db = db' := by
    refine hrun.simulate (fun s db' => s.db = db') rfl ?_
    rintro log s _ a s' e hrun rfl hok hstep
    have hchange := step_change hstep
    have hatomic := hchange.atomic (alone_of_run hrun) (stable_inv.run hrun)
    cases hchange with
    | committed c hc =>
        have hrun : c.call.tx.run cfg s.db = (c.view s.db, .ok (removedRows s.db (c.view s.db))) := hatomic
        have hservice : (Enroll.service cfg).step s.db c.call.tx =
            some (c.view s.db, c.call.tx, .ok (removedRows s.db (c.view s.db))) := by
          show some ((c.call.tx.run cfg s.db).1, c.call.tx, (c.call.tx.run cfg s.db).2) = _
          rw [hrun]
        exact ⟨_, _, .one hservice, rfl⟩
    | transaction t => exact ⟨_, _, .one rfl, rfl⟩
    | _ => exact ⟨[], s.db, .nil, rfl⟩
  obtain ⟨trace, db', hservice, rfl⟩ := hsimulated
  exact ⟨trace, hservice⟩

end runs

end ThesadaApp.Cleanups
