import ThesadaApp.CleanupStatements
import ThesadaApp.EnrollLifecycle

/-!
A cleanup deletes no claim that another tenant backs, as long as no transaction backs a claim between the time a DELETE
of orphan claims has found it without backing and the commit of that DELETE. That a restricted role deletes no foreign
claim, and that a call that is refused deletes nothing, holds beside any transaction.
-/

namespace ThesadaApp.Cleanups

open Enroll (orphanClaim ownOrUnclaimed deleteRows Tx unitID unitKey unitConfig)

/-- The claiming tenant has the device, and for a sealed claim a certificate of it with the key of the claim, or one
unrevoked without a recorded key. -/
def Backed (db : Db) (e : Enrollment) : Prop :=
  ∃ tenantID, e.claimedByTenant = some tenantID ∧
    ∃ d ∈ db.devices.rows, d.tenantID = tenantID ∧ d.deviceID = e.deviceID ∧
      (e.certDeliveredAt ≠ none → ∃ c ∈ db.certificates, c.devicePk = d.id ∧
        (c.pubkeyHex = some e.pubkeyHex ∨ c.pubkeyHex = none ∧ c.revoked = false))

theorem orphanClaim_iff {db : Db} {e : Enrollment} :
    orphanClaim db e = true ↔ e.claimedByTenant ≠ none ∧ ¬ Backed db e := by
  unfold orphanClaim Backed
  cases e.claimedByTenant with
  | none => simp
  | some tenantID =>
      simp only [Option.some.injEq, exists_eq_left']
      cases e.certDeliveredAt with
      | none => simp
      | some t => simp [and_assoc]

instance (db : Db) (e : Enrollment) : Decidable (Backed db e) :=
  decidable_of_iff (e.claimedByTenant ≠ none ∧ ¬ orphanClaim db e = true) <| by
    rw [orphanClaim_iff, not_and, not_not]
    refine ⟨fun h => h.2 h.1, fun h => ⟨?_, fun _ => h⟩⟩
    obtain ⟨tenantID, hclaimed, -⟩ := h
    rw [hclaimed]
    exact Option.some_ne_none tenantID

/-- The row of a key is a claim its tenant backs. -/
def BackedAt (db : Db) (k : EnrollKey) : Prop := ∃ e ∈ db.enrollments.rows, e.key = k ∧ Backed db e

instance (db : Db) (k : EnrollKey) : Decidable (BackedAt db k) := List.decidableBEx _ _

/-- A row claimed by a tenant other than the call's. -/
def Call.Foreign (call : Call) (e : Enrollment) : Prop := e.claimedByTenant ≠ none ∧ e.claimedByTenant ≠ call.tenantID

/-- What a cleanup leaves of the claims of other tenants when it commits. -/
structure Kept (cfg : EnrollConfig) (call : Call) (before after : Db) : Prop where
  backed : ∀ e ∈ before.enrollments, call.Foreign e → Backed before e → e ∈ after.enrollments
  restricted : cfg.adminSeesAllTenants = false → ∀ e ∈ before.enrollments, call.Foreign e → e ∈ after.enrollments

instance (call : Call) (e : Enrollment) : Decidable (call.Foreign e) :=
  inferInstanceAs (Decidable (e.claimedByTenant ≠ none ∧ e.claimedByTenant ≠ call.tenantID))

def Event.Keeps (cfg : EnrollConfig) : Event → Prop
  | .committed call before after => Kept cfg call before after
  | .refused _ deleted before after => deleted = [] ∧ after = before
  | _ => True

/-- The rows a DELETE of orphan claims has found, to come to and deleted. -/
def Cleanup.found (c : Cleanup) : List EnrollKey :=
  (match c.statement with
    | .deleteOrphans _ => c.todo
    | _ => []) ++ c.orphans

/-- A transaction leaves no claim backed that a DELETE of orphan claims in progress has found. -/
def Undisturbed (cfg : EnrollConfig) (_log : List Event) (s : State) : Action → Prop
  | .transaction t => ∀ c ∈ s.cleanups.rows, ∀ k ∈ c.found, ¬ BackedAt (t.run cfg s.db).1 k
  | _ => True

instance (cfg : EnrollConfig) (log : List Event) (s : State) (a : Action) : Decidable (Undisturbed cfg log s a) := by
  cases a <;> unfold Undisturbed <;> infer_instance

section cleanups

variable {cfg : EnrollConfig} {db db' : Db} {c : Cleanup} {k : EnrollKey} {e : Enrollment} {id : Nat} {call : Call}
  {statement : Statement} {rest : List Statement}

theorem mem_view : e ∈ (c.view db).enrollments ↔ e ∈ db.enrollments ∧ e.key ∉ c.deleted := by
  refine KeyedTable.mem_deleteWhere.trans (and_congr_right fun _ => ?_)
  rw [← Bool.not_eq_true, List.contains_iff_mem]

/-- A deletion of enrollments backs no claim. -/
theorem BackedAt.of_view (h : BackedAt (c.view db) k) : BackedAt db k := by
  obtain ⟨e, he, hk, hbacked⟩ := h
  exact ⟨e, (mem_view.mp he).1, hk, hbacked⟩

theorem mem_found : k ∈ c.found ↔ (k ∈ c.todo ∧ ∃ scope, c.statement = .deleteOrphans scope) ∨ k ∈ c.orphans := by
  unfold Cleanup.found
  rw [List.mem_append]
  cases c.statement <;> simp

theorem mem_of_find_eq (hsame : db'.enrollments.find k = db.enrollments.find k) (he : e ∈ db'.enrollments)
    (hk : e.key = k) : e ∈ db.enrollments := by
  have hfind := KeyedTable.find_of_mem he
  rw [hk, hsame] at hfind
  exact KeyedTable.find_mem hfind

theorem statements_own {deviceID : String} {tenantID : Slug} (h : .deleteOwn deviceID tenantID ∈ call.statements cfg) :
    call.tenantID = some tenantID := by
  cases call with
  | reset => cases hall : cfg.adminSeesAllTenants <;> simp_all [Call.statements, Call.tenantID]
  | resetForTenant => simp_all [Call.statements, Call.tenantID]
  | sweepOrphanClaims => cases hall : cfg.adminSeesAllTenants <;> simp_all [Call.statements]

theorem statements_orphans {scope : Option (String × Slug)} (h : .deleteOrphans scope ∈ call.statements cfg) :
    cfg.adminSeesAllTenants = true := by
  cases call with
  | reset => cases hall : cfg.adminSeesAllTenants <;> simp_all [Call.statements]
  | resetForTenant => simp [Call.statements] at h
  | sweepOrphanClaims => cases hall : cfg.adminSeesAllTenants <;> simp_all [Call.statements]

/-- The rows are locked first. -/
theorem lock_notMem_rest {deviceID : String} {sole : Option Slug} (h : call.statements cfg = statement :: rest) :
    .lock deviceID sole ∉ rest := by
  cases call with
  | reset =>
      obtain ⟨-, rfl⟩ := List.cons.inj h
      cases cfg.adminSeesAllTenants <;> simp
  | resetForTenant =>
      obtain ⟨-, rfl⟩ := List.cons.inj h
      simp
  | sweepOrphanClaims =>
      rw [Call.statements] at h
      split at h
      · obtain ⟨-, rfl⟩ := List.cons.inj h
        simp
      · cases h

/-- A row that a statement comes to is passed over, or is taken as it is now. -/
theorem visit_cases (db : Db) (k : EnrollKey) (c : Cleanup) : c.visit db k = c.skip k ∨
    c.visit db k = c.take k ∧ ∃ e ∈ db.enrollments, e.key = k ∧ c.statement.selects c.snapshot e = true := by
  unfold Cleanup.visit
  split
  · exact .inl rfl
  · next e he =>
      split
      · next hselects => exact .inr ⟨rfl, e, KeyedTable.find_mem he, KeyedTable.find_key he, hselects⟩
      · exact .inl rfl

/-- What holds of a cleanup beside any transactions. -/
structure Cleanup.Inv (cfg : EnrollConfig) (db : Db) (c : Cleanup) : Prop where
  program : ∀ st ∈ c.statement :: c.rest, st ∈ c.call.statements cfg
  lockFirst : ∀ deviceID sole, .lock deviceID sole ∉ c.rest
  locking : ∀ deviceID sole, c.statement = .lock deviceID sole → c.deleted = []
  orphans : c.orphans ≠ [] → ∃ scope, .deleteOrphans scope ∈ c.call.statements cfg
  own : ∀ k ∈ c.own, ∀ e ∈ db.enrollments, e.key = k → ¬ c.call.Foreign e

theorem Cleanup.Inv.statement_mem (h : c.Inv cfg db) : c.statement ∈ c.call.statements cfg :=
  h.program _ List.mem_cons_self

/-- Other rows to come to, in tables where the rows deleted as the tenant's own are as they were or gone. -/
theorem Cleanup.Inv.move (h : c.Inv cfg db) (todo : List EnrollKey)
    (hrows : ∀ k ∈ c.own, ∀ e ∈ db'.enrollments, e.key = k → e ∈ db.enrollments) :
    ({ c with todo } : Cleanup).Inv cfg db' where
  program := h.program
  lockFirst := h.lockFirst
  locking := h.locking
  orphans := h.orphans
  own k hk e he hkey := h.own k hk e (hrows k hk e he hkey) hkey

theorem Cleanup.Inv.forget_view {c' : Cleanup} (h : c.Inv cfg db) : (c.forget (c'.view db)).Inv cfg (c'.view db) :=
  h.move _ fun _ _ _ he _ => (mem_view.mp he).1

theorem Cleanup.Inv.start (h : call.statements cfg = statement :: rest) :
    (Cleanup.start cfg db id call statement rest).Inv cfg db where
  program st hst := by
    show st ∈ call.statements cfg
    rw [h]
    exact hst
  lockFirst _ _ := lock_notMem_rest h
  locking _ _ _ := rfl
  orphans hne := absurd rfl hne
  own _ hk := absurd hk List.not_mem_nil

theorem Cleanup.Inv.execute (h : c.Inv cfg db) (hrest : c.rest = statement :: rest) :
    (c.execute cfg db statement rest).Inv cfg db where
  program st hst := by
    refine h.program st (List.mem_cons_of_mem _ ?_)
    rw [hrest]
    exact hst
  lockFirst deviceID sole hmem := by
    refine h.lockFirst deviceID sole ?_
    rw [hrest]
    exact List.mem_cons_of_mem _ hmem
  locking deviceID sole hlock := by
    refine absurd ?_ (h.lockFirst deviceID sole)
    rw [hrest, ← hlock]
    exact List.mem_cons_self
  orphans := h.orphans
  own := h.own

theorem Cleanup.Inv.visit (h : c.Inv cfg db) (k : EnrollKey) : (c.visit db k).Inv cfg db := by
  rcases visit_cases db k c with hskip | ⟨htake, e, he, hkey, hselects⟩
  · rw [hskip]
    exact h.move _ fun _ _ _ he _ => he
  · rw [htake]
    have hmem := h.statement_mem
    unfold Cleanup.take
    split
    · exact ⟨h.program, h.lockFirst, h.locking, h.orphans, h.own⟩
    · next scope hst =>
        refine ⟨h.program, h.lockFirst, fun deviceID sole hlock => ?_, fun _ => ?_, h.own⟩
        · cases hst.symm.trans hlock
        · rw [hst] at hmem
          exact ⟨scope, hmem⟩
    · next deviceID tenantID hst =>
        refine ⟨h.program, h.lockFirst, fun deviceID sole hlock => ?_, h.orphans, fun k' hk' e' he' hkey' => ?_⟩
        · cases hst.symm.trans hlock
        · rcases List.mem_cons.mp hk' with rfl | hk'
          · obtain rfl := KeyedTable.eq_of_key he he' (hkey.trans hkey'.symm)
            intro hcall
            obtain ⟨hclaimed, hforeign⟩ : c.call.Foreign e := hcall
            rw [hst] at hmem hselects
            rw [statements_own hmem] at hforeign
            simp [Statement.selects, ownOrUnclaimed, hclaimed, hforeign] at hselects
          · exact h.own k' hk' e' he' hkey'

/-- A claim of another tenant that a cleanup deletes is one that its DELETE of orphan claims has found. -/
theorem Cleanup.Inv.mem_orphans (h : c.Inv cfg db) (he : e ∈ db.enrollments) (hforeign : c.call.Foreign e)
    (hgone : e ∉ (c.view db).enrollments) : e.key ∈ c.orphans := by
  rw [mem_view, not_and, not_not] at hgone
  rcases List.mem_append.mp (hgone he) with horphan | hown
  · exact horphan
  · exact absurd hforeign (h.own _ hown e he rfl)

/-- What a DELETE of orphan claims has found is not backed. -/
def Cleanup.Orphaned (db : Db) (c : Cleanup) : Prop := ∀ k ∈ c.found, ¬ BackedAt db k

theorem Cleanup.Inv.kept (h : c.Inv cfg db) (horphaned : c.Orphaned db) : Kept cfg c.call db (c.view db) where
  backed e he hforeign hbacked := by
    by_contra hgone
    have hfound : e.key ∈ c.found := mem_found.mpr (.inr (h.mem_orphans he hforeign hgone))
    exact horphaned e.key hfound ⟨e, he, rfl, hbacked⟩
  restricted hrestricted e he hforeign := by
    by_contra hgone
    obtain ⟨scope, hmem⟩ := h.orphans (List.ne_nil_of_mem (h.mem_orphans he hforeign hgone))
    exact absurd (statements_orphans hmem) (Bool.eq_false_iff.mp hrestricted)

/-- The snapshot of a DELETE of orphan claims sees all tenants, so what it selects is not backed. -/
theorem orphaned_execute (horphans : ∀ k ∈ c.orphans, ¬ BackedAt db k)
    (hall : ∀ scope, statement = .deleteOrphans scope → cfg.adminSeesAllTenants = true) :
    (c.execute cfg db statement rest).Orphaned db := by
  intro k hk
  rcases mem_found.mp hk with ⟨htodo, scope, rfl⟩ | horphan
  · rw [Cleanup.execute, visible, if_pos (hall scope rfl)] at htodo
    obtain ⟨e, he, rfl⟩ := List.mem_map.mp htodo
    obtain ⟨he, hselects⟩ := List.mem_filter.mp he
    have horphan : orphanClaim (c.view db) e = true := by
      cases scope with
      | none => exact hselects
      | some scope =>
          rw [Statement.selects, Bool.and_eq_true] at hselects
          exact hselects.2
    rintro ⟨e', he', hkey, hbacked⟩
    obtain rfl := KeyedTable.eq_of_key he' (mem_view.mp he).1 hkey
    exact (orphanClaim_iff.mp horphan).2 hbacked
  · exact horphans k horphan

theorem Cleanup.Orphaned.move (h : c.Orphaned db) {todo : List EnrollKey} (htodo : todo ⊆ c.todo)
    (hbacked : ∀ k ∈ c.found, BackedAt db' k → BackedAt db k) : ({ c with todo } : Cleanup).Orphaned db' := by
  intro k hk hk'
  have hfound : k ∈ c.found := mem_found.mpr ((mem_found.mp hk).imp_left fun hk => ⟨htodo hk.1, hk.2⟩)
  exact h k hfound (hbacked k hfound hk')

theorem Cleanup.Orphaned.visit (h : c.Orphaned db) (hk : k ∈ c.todo) : (c.visit db k).Orphaned db := by
  have hskip : (c.skip k).Orphaned db := h.move List.erase_subset fun _ _ h => h
  rcases visit_cases db k c with hvisit | ⟨hvisit, -⟩
  · rw [hvisit]
    exact hskip
  · rw [hvisit]
    unfold Cleanup.take
    split
    · exact hskip
    · next scope hst =>
        intro k' hk'
        rcases mem_found.mp hk' with htodo | horphan
        · exact hskip k' (mem_found.mpr (.inl htodo))
        · rcases List.mem_cons.mp horphan with rfl | horphan
          · exact h k' (mem_found.mpr (.inl ⟨hk, scope, hst⟩))
          · exact h k' (mem_found.mpr (.inr horphan))
    · exact hskip

/-- A restricted role finds no orphan claims. -/
theorem Cleanup.Inv.orphaned (h : c.Inv cfg db) (hrestricted : cfg.adminSeesAllTenants = false) : c.Orphaned db := by
  intro k hk
  rcases mem_found.mp hk with ⟨-, scope, hst⟩ | horphan
  · have hmem := h.statement_mem
    rw [hst] at hmem
    exact absurd (statements_orphans hmem) (Bool.eq_false_iff.mp hrestricted)
  · obtain ⟨scope, hmem⟩ := h.orphans (List.ne_nil_of_mem horphan)
    exact absurd (statements_orphans hmem) (Bool.eq_false_iff.mp hrestricted)

/-- A call that is refused has deleted nothing: it is at its lock. -/
theorem Cleanup.Inv.deleted_eq_nil (h : c.Inv cfg db) (hrefuses : c.refuses db = true) : c.deleted = [] := by
  unfold Cleanup.refuses at hrefuses
  split at hrefuses
  · next deviceID tenantID hst => exact h.locking deviceID (some tenantID) hst
  · cases hrefuses

end cleanups

section runs

variable {cfg : EnrollConfig} {db : Db} {log : List Event} {s s' : State} {a : Action} {e : Event}

/-- What a step can do. -/
inductive Change (cfg : EnrollConfig) (s : State) : Action → State → Event → Prop
  | refusedAtOnce (id : Nat) (call : Call) (hnone : call.statements cfg = []) :
      Change cfg s (.begin id call) s (.refused call [] s.db s.db)
  | began (id : Nat) (call : Call) (statement : Statement) (rest : List Statement) (hid : s.cleanups.find id = none)
      (hstatements : call.statements cfg = statement :: rest) :
      Change cfg s (.begin id call)
        { s with cleanups := s.cleanups.insert (Cleanup.start cfg s.db id call statement rest) hid } .began
  | visited (c : Cleanup) (k : EnrollKey) (hc : c ∈ s.cleanups) (hk : k ∈ c.todo) :
      Change cfg s (.visit c.id k) (s.update c.id (Cleanup.visit s.db k) (Cleanup.visit_id s.db k)) .visited
  | refused (c : Cleanup) (hc : c ∈ s.cleanups) (hrefuses : c.refuses s.db = true) :
      Change cfg s (.next c.id) (s.close c.id) (.refused c.call c.deleted s.db s.db)
  | committed (c : Cleanup) (hc : c ∈ s.cleanups) (htodo : c.todo = []) (hrefuses : c.refuses s.db = false)
      (hrest : c.rest = []) :
      Change cfg s (.next c.id) ((s.close c.id).commit (c.view s.db)) (.committed c.call s.db (c.view s.db))
  | executed (c : Cleanup) (statement : Statement) (rest : List Statement) (hc : c ∈ s.cleanups) (htodo : c.todo = [])
      (hrefuses : c.refuses s.db = false) (hrest : c.rest = statement :: rest) :
      Change cfg s (.next c.id) (s.update c.id (Cleanup.execute cfg s.db statement rest) fun _ => rfl) .executed
  | rolledBack (id : Nat) : Change cfg s (.rollback id) (s.close id) .rolledBack
  | transaction (t : Tx) (hcommit : s.mayCommit (t.run cfg s.db).1 = true) :
      Change cfg s (.transaction t) (s.commit (t.run cfg s.db).1) (.transaction (t.run cfg s.db).2)

theorem step_change (h : step cfg s a = some (s', e)) : Change cfg s a s' e := by
  cases a with
  | begin id call =>
      rw [step] at h
      split at h
      · next hid =>
          split at h
          · next hnone =>
              cases h
              exact .refusedAtOnce id call hnone
          · next statement rest hstatements =>
              cases h
              exact .began id call statement rest hid hstatements
      · cases h
  | visit id k =>
      obtain ⟨c, hfind, hvisit⟩ := Option.bind_eq_some_iff.mp h
      obtain rfl := KeyedTable.find_key hfind
      split at hvisit
      · next hok =>
          cases hvisit
          rw [Bool.and_eq_true] at hok
          exact .visited c k (KeyedTable.find_mem hfind) (List.contains_iff_mem.mp hok.1)
      · cases hvisit
  | next id =>
      obtain ⟨c, hfind, hnext⟩ := Option.bind_eq_some_iff.mp h
      obtain rfl := KeyedTable.find_key hfind
      have hc := KeyedTable.find_mem hfind
      split at hnext
      · next htodo =>
          rw [State.next] at hnext
          split at hnext
          · next hrefuses =>
              cases hnext
              exact .refused c hc hrefuses
          · next hrefuses =>
              rw [Bool.not_eq_true] at hrefuses
              split at hnext
              · next hrest =>
                  cases hnext
                  exact .committed c hc htodo hrefuses hrest
              · next statement rest hrest =>
                  cases hnext
                  exact .executed c statement rest hc htodo hrefuses hrest
      · cases hnext
  | rollback id =>
      rw [step] at h
      split at h
      · cases h
        exact .rolledBack id
      · cases h
  | transaction t =>
      rw [step] at h
      split at h
      · cases h
      · split at h
        · next hcommit =>
            cases h
            exact .transaction t hcommit
        · cases h

/-- A property of the cleanups in progress that every step keeps, in runs that meet a guard. -/
structure Stable (cfg : EnrollConfig) (ok : List Event → State → Action → Prop) (P : Db → Cleanup → Prop) : Prop where
  start : ∀ db id call statement rest, call.statements cfg = statement :: rest →
    P db (Cleanup.start cfg db id call statement rest)
  visit : ∀ db c k, P db c → k ∈ c.todo → P db (c.visit db k)
  execute : ∀ db c statement rest, P db c → c.rest = statement :: rest → P db (c.execute cfg db statement rest)
  view : ∀ db c (c' : Cleanup), P db c → P (c'.view db) (c.forget (c'.view db))
  transaction : ∀ log s t, ok log s (.transaction t) → s.mayCommit (t.run cfg s.db).1 = true → ∀ c ∈ s.cleanups,
    P s.db c → P (t.run cfg s.db).1 (c.forget (t.run cfg s.db).1)

variable {ok : List Event → State → Action → Prop} {P : Db → Cleanup → Prop}

theorem forall_update {id : Nat} {f : Cleanup → Cleanup} {hf : ∀ c, (f c).id = c.id} {c₀ : Cleanup}
    (hc₀ : c₀ ∈ s.cleanups) (hid : c₀.id = id) (hall : ∀ c ∈ s.cleanups, P s.db c) (hnew : P s.db (f c₀)) :
    ∀ c ∈ (s.update id f hf).cleanups, P s.db c := by
  intro c hc
  obtain ⟨old, hold, rfl⟩ := (KeyedTable.mem_updateWhere hf).mp hc
  by_cases hsame : old.id = id
  · obtain rfl := KeyedTable.eq_of_key hold hc₀ (hsame.trans hid.symm)
    rw [if_pos (decide_eq_true hsame)]
    exact hnew
  · rw [if_neg (by simpa using hsame)]
    exact hall old hold

theorem forall_commit (hall : ∀ c ∈ s.cleanups, P db (c.forget db)) : ∀ c ∈ (s.commit db).cleanups, P db c := by
  intro c hc
  obtain ⟨old, hold, rfl⟩ := (KeyedTable.mem_updateWhere (f := Cleanup.forget db) fun _ => rfl).mp hc
  exact hall old hold

theorem forall_close {id : Nat} {Q : Cleanup → Prop} (hall : ∀ c ∈ s.cleanups, Q c) : ∀ c ∈ (s.close id).cleanups, Q c :=
  fun c hc => hall c (KeyedTable.mem_deleteWhere.mp hc).1

theorem Stable.step (h : Stable cfg ok P) (hok : ok log s a) (hchange : Change cfg s a s' e)
    (hall : ∀ c ∈ s.cleanups, P s.db c) : ∀ c ∈ s'.cleanups, P s'.db c := by
  cases hchange with
  | refusedAtOnce => exact hall
  | began id call statement rest hid hstatements =>
      intro c hc
      rcases (KeyedTable.mem_insert hid).mp hc with hold | rfl
      · exact hall c hold
      · exact h.start s.db id call statement rest hstatements
  | visited c k hc hk => exact forall_update hc rfl hall (h.visit s.db c k (hall c hc) hk)
  | refused c => exact forall_close hall
  | committed c => exact forall_commit (forall_close fun c' hc' => h.view s.db c' c (hall c' hc'))
  | executed c statement rest hc _ _ hrest =>
      exact forall_update hc rfl hall (h.execute s.db c statement rest (hall c hc) hrest)
  | rolledBack => exact forall_close hall
  | transaction t hcommit => exact forall_commit fun c hc => h.transaction log s t hok hcommit c hc (hall c hc)

theorem Stable.run (h : Stable cfg ok P) (hrun : (machine cfg).RunIf ok (Cleanups.start db) log s) :
    ∀ c ∈ s.cleanups, P s.db c :=
  hrun.invariant (fun _ s => ∀ c ∈ s.cleanups, P s.db c) (fun _ hc => absurd hc List.not_mem_nil)
    fun _ _ _ _ _ hall hok hstep => h.step hok (step_change hstep) hall

/-- A transaction of the others writes no row that a cleanup holds. -/
theorem mem_of_mayCommit {db' : Db} (hcommit : s.mayCommit db' = true) {c : Cleanup} (hc : c ∈ s.cleanups)
    {k : EnrollKey} (hk : k ∈ c.held) {x : Enrollment} (hx : x ∈ db'.enrollments) (hkey : x.key = k) :
    x ∈ s.db.enrollments :=
  mem_of_find_eq (of_decide_eq_true (List.all_eq_true.mp (List.all_eq_true.mp hcommit c hc) k hk)) hx hkey

theorem stable_inv : Stable cfg ok (fun db c => c.Inv cfg db) where
  start _ _ _ _ _ := .start
  visit _ _ k h _ := h.visit k
  execute _ _ _ _ h := h.execute
  view _ _ _ h := h.forget_view
  transaction _ _ _ _ hcommit _ hc h := h.move _ fun _ hk _ hx hkey =>
    mem_of_mayCommit hcommit hc (List.mem_append_right _ (List.mem_append_right _ hk)) hx hkey

theorem stable_orphaned : Stable cfg (Undisturbed cfg) (fun db c => c.Inv cfg db ∧ c.Orphaned db) where
  start db id call statement rest hstatements := by
    refine ⟨.start hstatements, orphaned_execute (fun _ hk => absurd hk List.not_mem_nil) fun scope hst => ?_⟩
    have hmem : .deleteOrphans scope ∈ call.statements cfg := by
      rw [hstatements, hst]
      exact List.mem_cons_self
    exact statements_orphans hmem
  visit _ _ k h hk := ⟨h.1.visit k, h.2.visit hk⟩
  execute db c statement rest h hrest := by
    refine ⟨h.1.execute hrest, orphaned_execute (fun k hk => h.2 k (mem_found.mpr (.inr hk))) fun scope hst => ?_⟩
    exact statements_orphans (hst ▸ (h.1.execute hrest).statement_mem)
  view _ _ _ h := ⟨h.1.forget_view, h.2.move (List.filter_subset_self _) fun _ _ => BackedAt.of_view⟩
  transaction log s t hok hcommit c hc h := by
    refine ⟨stable_inv.transaction log s t hok hcommit c hc h.1, ?_⟩
    exact h.2.move (List.filter_subset_self _) fun k hk hbacked => absurd hbacked (hok c hc k hk)

/-- Where no cleanup has found a claim that is backed, the events are as they are to be. -/
theorem Change.keeps (hchange : Change cfg s a s' e) (hinv : ∀ c ∈ s.cleanups, c.Inv cfg s.db)
    (horphaned : ∀ c ∈ s.cleanups, c.Orphaned s.db) : e.Keeps cfg := by
  cases hchange with
  | refusedAtOnce => exact ⟨rfl, rfl⟩
  | refused c hc hrefuses => exact ⟨(hinv c hc).deleted_eq_nil hrefuses, rfl⟩
  | committed c hc => exact (hinv c hc).kept (horphaned c hc)
  | _ => trivial

theorem Stable.keeps (h : Stable cfg ok P) (hP : ∀ db c, P db c → c.Inv cfg db ∧ c.Orphaned db)
    (hrun : (machine cfg).RunIf ok (Cleanups.start db) log s) : ∀ e ∈ log, e.Keeps cfg := by
  refine hrun.invariant_along (fun log _ => ∀ e ∈ log, e.Keeps cfg) (fun _ he => absurd he List.not_mem_nil) ?_
  intro log s a s' e hrun hlog _ hstep x hx
  rcases List.mem_append.mp hx with hx | hx
  · exact hlog x hx
  · have hall := h.run hrun
    rw [List.mem_singleton.mp hx]
    exact (step_change hstep).keeps (fun c hc => (hP _ c (hall c hc)).1) fun c hc => (hP _ c (hall c hc)).2

/-- Under a role that row-level security restricts no cleanup deletes a foreign claim, beside any transactions. -/
theorem restricted_keeps (hrestricted : cfg.adminSeesAllTenants = false) (hrun : (machine cfg).Run (start db) log s) :
    ∀ e ∈ log, e.Keeps cfg :=
  stable_inv.keeps (fun _ _ h => ⟨h, h.orphaned hrestricted⟩) hrun

/-- A call that is refused has deleted nothing, beside any transactions. -/
theorem refused_keeps {call : Call} {deleted : List EnrollKey} {before after : Db}
    (hrun : (machine cfg).Run (start db) log s) (hrefused : .refused call deleted before after ∈ log) :
    deleted = [] ∧ after = before := by
  obtain ⟨pre, post, rfl⟩ := List.append_of_mem hrefused
  obtain ⟨s₁, a, s₂, hpre, -, hstep, -⟩ := hrun.at_event
  have hinv := stable_inv.run hpre
  cases step_change hstep with
  | refusedAtOnce => exact ⟨rfl, rfl⟩
  | refused c hc hrefuses => exact ⟨(hinv c hc).deleted_eq_nil hrefuses, rfl⟩

/-- `ResetForTenant` deletes no foreign claim, beside any transactions. -/
theorem resetForTenant_keeps {deviceID : String} {tenantID : Slug} {before after : Db}
    (hrun : (machine cfg).Run (start db) log s)
    (hcommitted : .committed (.resetForTenant deviceID tenantID) before after ∈ log) :
    ∀ e ∈ before.enrollments, (Call.resetForTenant deviceID tenantID).Foreign e → e ∈ after.enrollments := by
  obtain ⟨pre, post, rfl⟩ := List.append_of_mem hcommitted
  obtain ⟨s₁, a, s₂, hpre, -, hstep, -⟩ := hrun.at_event
  have hchange := step_change hstep
  generalize hevent : Event.committed (.resetForTenant deviceID tenantID) before after = event at hchange
  cases hchange with
  | committed c hc =>
      injection hevent with hcall hbefore hafter
      subst hbefore hafter
      rw [hcall]
      intro e he hforeign
      by_contra hgone
      have hinv := stable_inv.run hpre c hc
      obtain ⟨scope, hmem⟩ := hinv.orphans (List.ne_nil_of_mem (hinv.mem_orphans he hforeign hgone))
      rw [← hcall] at hmem
      simp [Call.statements] at hmem
  | _ => cases hevent

/-- In a run where no transaction backs a claim that a DELETE in progress has found, every cleanup keeps the claims that
other tenants back. -/
theorem keeps_of_runIf (hrun : (machine cfg).RunIf (Undisturbed cfg) (start db) log s) : ∀ e ∈ log, e.Keeps cfg :=
  stable_orphaned.keeps (fun _ _ h => h) hrun

/-- A unit that is not the one with `unitID`. -/
def otherID : String := "thesada-ba9876543210"

/-- A key a unit has after its flash was erased. -/
def secondKey : String := "3b6a27bcceb6a42d62a3a8d02a6f0d73653215771de243a63ac048a18b59da29"

/-- A verified row. -/
def verifiedRow (deviceID pubkeyHex : String) : Enrollment :=
  ⟨deviceID, pubkeyHex, "", 0, none, none, some 0, none, none, none, 0, 0⟩

/-- Acme's claim of the unit is pending and its device is gone. The unit waits with a second key, another unit too. -/
def orphanTables : Db where
  enrollments :=
    ⟨[{ verifiedRow unitID unitKey with claimedByTenant := some acme, claimedAt := some 0 },
      verifiedRow unitID secondKey, verifiedRow otherID secondKey], by decide⟩
  devices := ∅
  certificates := []
  tenants := [acme]

/-- A unit is claimed into acme with its second key. -/
def acmeClaims (deviceID : String) : Action :=
  .transaction (.claimInto ⟨1, 1⟩ 1 ⟨deviceID, secondKey, acme, 1, "thesada/acme/" ++ deviceID⟩)

/-- The other unit is claimed while a sweep deletes the orphan claim. -/
theorem otherUnit_keeps : ∃ log s, (machine unitConfig).RunIf (Undisturbed unitConfig) (start orphanTables) log s ∧
    s.db.enrollments.rows.length = 2 ∧ ∀ e ∈ log, e.Keeps unitConfig := by
  have hexec : ((machine unitConfig).execIf (Undisturbed unitConfig) [] (start orphanTables)
      [.begin 0 .sweepOrphanClaims, .visit 0 (unitID, unitKey), acmeClaims otherID, .next 0]).any
      (fun x => x.2.db.enrollments.rows.length = 2) = true := by decide
  obtain ⟨log, s, hrun, htest⟩ := Machine.exists_runIf_of_any hexec
  exact ⟨log, s, hrun, by simpa using htest, keeps_of_runIf hrun⟩

/-- A cleanup deletes a foreign claim that is backed when it commits. -/
def Event.deletesBacked : Event → Bool
  | .committed call before after => before.enrollments.rows.any fun e =>
      call.Foreign e && Backed before e && !after.enrollments.rows.contains e
  | _ => false

/-- Acme claims the unit with its second key, which brings the device back, while the sweep deletes its first claim. -/
theorem sameUnit_loses : ¬ ∀ (cfg : EnrollConfig) (db : Db) (log : List Event) (s : State),
    (machine cfg).Run (start db) log s → ∀ e ∈ log, e.Keeps cfg := by
  intro hall
  have hexec : ((machine unitConfig).execIf (fun _ _ _ => True) [] (start orphanTables)
      [.begin 0 .sweepOrphanClaims, .visit 0 (unitID, unitKey), acmeClaims unitID, .next 0]).any
      (fun x => x.1.any Event.deletesBacked) = true := by decide
  obtain ⟨log, s, hrun, htest⟩ := Machine.exists_runIf_of_any hexec
  obtain ⟨event, hmem, hdeletes⟩ := List.any_eq_true.mp htest
  have hkeeps := hall _ _ _ _ hrun event hmem
  cases event with
  | committed call before after =>
      obtain ⟨e, he, hlost⟩ := List.any_eq_true.mp hdeletes
      simp only [Bool.and_eq_true, decide_eq_true_eq, Bool.not_eq_true', List.contains_eq_mem,
        decide_eq_false_iff_not] at hlost
      exact hlost.2 (hkeeps.backed e he hlost.1.1 hlost.1.2)
  | _ => cases hdeletes

end runs

end ThesadaApp.Cleanups
