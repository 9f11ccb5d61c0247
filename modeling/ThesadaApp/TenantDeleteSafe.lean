import ThesadaApp.TenantDelete

/-!
What the deletion of a tenant has seen stays so until it commits. A reference to a tenant is written before it is
checked, and committed after, so a transaction that locks the tenant sees each one that is committed; a new one waits in
its check and then finds no tenant. The users it has locked are the users its cascade takes.
-/

namespace ThesadaApp.TenantDelete

/-- References are to tenants, and rows have ids that were given out. -/
structure Consistent (d : Tables) : Prop where
  tenant : ∀ id r t, d.rows id = some r → r.tenantID = some t → t ∈ d.tenants
  fresh : ∀ id r, d.rows id = some r → id < d.nextID

section invariant

variable (d : Tables) (held : Lock → Mode → Prop)

/-- No reference to the tenant can be checked. -/
def Guarding (t : Slug) : Prop := t ∈ d.tenants → held (.tenant t) .update

def NoDevices (t : Slug) : Prop := ∀ id r, d.rows id = some r → r.tenantID = some t → r.table ≠ .devices

/-- The users it has not come to yet aside, those of the tenant are locked, and no super-admin among them. -/
def UsersHeld (t : Slug) (todo : List Nat) : Prop :=
  ∀ id r, d.rows id = some r → r.tenantID = some t → r.table = .users →
    id ∈ todo ∨ (held (.row id) .update ∧ r.isSuperAdmin = false)

/-- All that the deletion checks before it goes on. -/
structure Vetted (t : Slug) (todo : List Nat) : Prop where
  guarding : Guarding d held t
  devices : NoDevices d t
  users : UsersHeld d held t todo

/-- The cascade writes rows that refer to the tenant, and has those left to do that it has not written. -/
structure Erasing (staged : Nat → Option (Option Row)) (t : Slug) (todo : List Nat) : Prop where
  written : ∀ id v, staged id = some v → ∃ r, d.rows id = some r ∧ r.tenantID = some t ∧ v = r.orphaned
  taken : ∀ id r, d.rows id = some r → r.tenantID = some t → id ∈ todo ∨ (staged id).isSome = true

def PointOk (staged : Nat → Option (Option Row)) : Point → Prop
  | .write | .check _ => True
  | .lockTenant _ => ∀ id, staged id = none
  | .hasDevices t => (∀ id, staged id = none) ∧ Guarding d held t
  | .lockUsers t => (∀ id, staged id = none) ∧ Guarding d held t ∧ NoDevices d t
  | .users t todo hasSuper =>
      (∀ id, staged id = none) ∧ Guarding d held t ∧ NoDevices d t ∧ (hasSuper = false → UsersHeld d held t todo)
  | .erase t => (∀ id, staged id = none) ∧ Vetted d held t []
  | .cascade t todo => Vetted d held t [] ∧ Erasing d staged t todo
  | .commit t true => Vetted d held t [] ∧ Erasing d staged t []
  | .commit t false => (∀ id, staged id = none) ∧ t ∉ d.tenants

structure TxnOk (x : Txn) : Prop where
  locked : ∀ id v, x.staged id = some v → held (.row id) .update ∧ id < d.nextID
  kept : ∀ id r r₀, x.staged id = some (some r) → d.rows id = some r₀ → r.table = r₀.table
  /-- A reference it has written was there before, or its check is next, or it has locked the tenant. -/
  shared : ∀ id r t, x.staged id = some (some r) → r.tenantID = some t →
    x.point = .check t ∨ (∃ r₀, d.rows id = some r₀ ∧ r₀.tenantID = some t) ∨
      (t ∈ d.tenants ∧ held (.tenant t) .keyShare)
  point : PointOk d held x.staged x.point

end invariant

structure Inv (s : State) : Prop where
  exclusive : s.txns.Exclusive Mode.compatible
  consistent : Consistent s.tables
  txns : s.txns.Each TxnOk s.tables

/-- The rows a deletion refuses to take. -/
def Row.Protected (r : Row) : Prop := r.table = .devices ∨ (r.table = .users ∧ r.isSuperAdmin = true)

structure Deleted (t : Slug) (d d' : Tables) : Prop where
  kept : ∀ id r, d.rows id = some r → r.Protected → d'.rows id = some r
  unreferred : ∀ id r, d'.rows id = some r → r.tenantID ≠ some t
  gone : t ∉ d'.tenants

/-- What a step with this event may do to the tables. Ids given out stay so. -/
def Event.Safe (d d' : Tables) : Event → Prop
  | .deleted t => Deleted t d d'
  | .committed => True
  | .refused _ => d' = d
  | .statement | .rolledBack => d'.rows = d.rows ∧ d'.tenants = d.tenants

section others

variable {d d' : Tables} {held held' : Lock → Mode → Prop} {x y : Txn} {t : Slug} {todo : List Nat}
  {staged : Nat → Option (Option Row)}

/-- What another transaction may do to the tables, for one that holds these locks. -/
structure Follows (d d' : Tables) (held : Lock → Mode → Prop) : Prop where
  rows : ∀ id, held (.row id) .update → d'.rows id = d.rows id
  referring : ∀ t, Guarding d held t → ∀ id r, d'.rows id = some r → r.tenantID = some t →
    ∃ r₀, d.rows id = some r₀ ∧ r₀.tenantID = some t ∧ r₀.table = r.table
  tenants : ∀ t, t ∈ d'.tenants → t ∈ d.tenants
  shared : ∀ t, t ∈ d.tenants → held (.tenant t) .keyShare → t ∈ d'.tenants
  nextID : d.nextID ≤ d'.nextID

theorem Guarding.follows (h : Guarding d held t) (hf : Follows d d' held) : Guarding d' held t :=
  fun ht => h (hf.tenants t ht)

theorem NoDevices.follows (h : NoDevices d t) (hguard : Guarding d held t) (hf : Follows d d' held) :
    NoDevices d' t := by
  intro id r hr ht
  obtain ⟨r₀, hr₀, ht₀, htable⟩ := hf.referring t hguard id r hr ht
  rw [← htable]
  exact h id r₀ hr₀ ht₀

theorem UsersHeld.follows (h : UsersHeld d held t todo) (hguard : Guarding d held t) (hf : Follows d d' held) :
    UsersHeld d' held t todo := by
  intro id r hr ht huser
  obtain ⟨r₀, hr₀, ht₀, htable⟩ := hf.referring t hguard id r hr ht
  refine (h id r₀ hr₀ ht₀ (htable.trans huser)).imp_right fun ⟨hheld, hsuper⟩ => ⟨hheld, ?_⟩
  have heq : some r = some r₀ := hr.symm.trans ((hf.rows id hheld).trans hr₀)
  rw [Option.some.inj heq]
  exact hsuper

theorem Vetted.follows (h : Vetted d held t todo) (hf : Follows d d' held) : Vetted d' held t todo :=
  ⟨h.guarding.follows hf, h.devices.follows h.guarding hf, h.users.follows h.guarding hf⟩

theorem Erasing.follows (h : Erasing d staged t todo) (hlocked : ∀ id v, staged id = some v → held (.row id) .update)
    (hguard : Guarding d held t) (hf : Follows d d' held) : Erasing d' staged t todo where
  written := by
    intro id v hv
    rw [hf.rows id (hlocked id v hv)]
    exact h.written id v hv
  taken := by
    intro id r hr ht
    obtain ⟨r₀, hr₀, ht₀, -⟩ := hf.referring t hguard id r hr ht
    exact h.taken id r₀ hr₀ ht₀

theorem PointOk.follows {p : Point} (h : PointOk d held staged p)
    (hlocked : ∀ id v, staged id = some v → held (.row id) .update) (hf : Follows d d' held) :
    PointOk d' held staged p := by
  match p with
  | .write | .check _ => trivial
  | .lockTenant _ => exact h
  | .hasDevices t => exact ⟨h.1, h.2.follows hf⟩
  | .lockUsers t => exact ⟨h.1, h.2.1.follows hf, h.2.2.follows h.2.1 hf⟩
  | .users t todo hasSuper =>
      exact ⟨h.1, h.2.1.follows hf, h.2.2.1.follows h.2.1 hf, fun hs => (h.2.2.2 hs).follows h.2.1 hf⟩
  | .erase t => exact ⟨h.1, h.2.follows hf⟩
  | .cascade t todo => exact ⟨h.1.follows hf, h.2.follows hlocked h.1.guarding hf⟩
  | .commit t true => exact ⟨h.1.follows hf, h.2.follows hlocked h.1.guarding hf⟩
  | .commit t false => exact ⟨h.1, fun ht => h.2 (hf.tenants t ht)⟩

/-- A transaction is served by what others may do. -/
theorem TxnOk.follows (h : TxnOk d held x) (hf : Follows d d' held) : TxnOk d' held x where
  locked := fun id v hv => ⟨(h.locked id v hv).1, Nat.lt_of_lt_of_le (h.locked id v hv).2 hf.nextID⟩
  kept := by
    intro id r r₀ hr
    rw [hf.rows id (h.locked id _ hr).1]
    exact h.kept id r r₀ hr
  shared := by
    intro id r t hr ht
    rw [hf.rows id (h.locked id _ hr).1]
    exact (h.shared id r t hr ht).imp_right fun h' => h'.imp_right fun h'' => ⟨hf.shared t h''.1 h''.2, h''.2⟩
  point := h.point.follows (fun id v hv => (h.locked id v hv).1) hf

end others

section commits

variable {d : Tables} {held held' : Lock → Mode → Prop} {x : Txn} {ts : List Slug} {id : Nat} {r : Row} {t : Slug}

theorem view_of_none (h : x.staged id = none) : x.view d id = d.rows id := by rw [Txn.view, h, Option.getD_none]

theorem view_of_some {v : Option Row} (h : x.staged id = some v) : x.view d id = v := by
  rw [Txn.view, h, Option.getD_some]

/-- A row that the transaction sees is one that it wrote, or one committed. -/
theorem view_eq_some (h : x.view d id = some r) :
    x.staged id = some (some r) ∨ (x.staged id = none ∧ d.rows id = some r) := by
  cases hs : x.staged id with
  | none => exact .inr ⟨rfl, (view_of_none hs).symm.trans h⟩
  | some v => exact .inl (congrArg some ((view_of_some hs).symm.trans h))

/-- Once the checks are done, what it has written refers to tenants. -/
theorem TxnOk.view_tenant (h : TxnOk d held x) (hcheck : ∀ t, x.point ≠ .check t) (hd : Consistent d)
    (hr : x.view d id = some r) (ht : r.tenantID = some t) : t ∈ d.tenants := by
  rcases view_eq_some hr with hwritten | ⟨-, hrow⟩
  · rcases h.shared id r t hwritten ht with hpoint | ⟨r₀, hr₀, ht₀⟩ | ⟨hmem, -⟩
    · exact absurd hpoint (hcheck t)
    · exact hd.tenant id r₀ t hr₀ ht₀
    · exact hmem
  · exact hd.tenant id r t hrow ht

theorem TxnOk.view_fresh (h : TxnOk d held x) (hd : Consistent d) (hr : x.view d id = some r) : id < d.nextID := by
  rcases view_eq_some hr with hwritten | ⟨-, hrow⟩
  · exact (h.locked id _ hwritten).2
  · exact hd.fresh id r hrow

/-- The tables after its commit, with the tenants it leaves. -/
theorem TxnOk.consistent (h : TxnOk d held x) (hd : Consistent d)
    (hleft : ∀ id r t, x.view d id = some r → r.tenantID = some t → t ∈ ts) :
    Consistent { x.apply d with tenants := ts } where
  tenant := hleft
  fresh := fun _ _ hr => h.view_fresh hd hr

/-- Its commit is one that others are ready for. -/
theorem TxnOk.commit_follows (h : TxnOk d held x) (hcheck : ∀ t, x.point ≠ .check t) (hsub : ∀ t ∈ ts, t ∈ d.tenants)
    (hgone : ∀ t ∈ d.tenants, t ∉ ts → held (.tenant t) .update)
    (hmodes : ∀ k m m', held k m → held' k m' → m.compatible m' = true) :
    Follows d { x.apply d with tenants := ts } held' where
  rows := by
    intro id hheld
    cases hs : x.staged id with
    | none => exact view_of_none hs
    | some v => cases hmodes _ _ _ (h.locked id v hs).1 hheld
  referring := by
    intro t hguard id r hr ht
    rcases view_eq_some hr with hwritten | ⟨-, hrow⟩
    · rcases h.shared id r t hwritten ht with hpoint | ⟨r₀, hr₀, ht₀⟩ | ⟨hmem, hshare⟩
      · exact absurd hpoint (hcheck t)
      · exact ⟨r₀, hr₀, ht₀, (h.kept id r r₀ hwritten hr₀).symm⟩
      · cases hmodes _ _ _ hshare (hguard hmem)
    · exact ⟨r, hrow, ht, rfl⟩
  tenants := hsub
  shared := by
    intro t ht hshare
    by_contra hnot
    cases hmodes _ _ _ (hgone t ht hnot) hshare
  nextID := Nat.le_refl _

/-- An id is given out. -/
theorem Follows.giveID : Follows d d.giveID held where
  rows := fun _ _ => rfl
  referring := fun _ _ _ r hr ht => ⟨r, hr, ht, rfl⟩
  tenants := fun _ ht => ht
  shared := fun _ ht _ => ht
  nextID := Nat.le_succ _

end commits

section moves

variable {d : Tables} {held held' : Lock → Mode → Prop} {x : Txn} {p : Point} {id : Nat} {t : Slug}

/-- A statement that writes nothing. Of a check, the lock it took. -/
theorem TxnOk.at (h : TxnOk d held x) (hmore : ∀ k m, held k m → held' k m)
    (hcheck : ∀ t, x.point = .check t → t ∈ d.tenants ∧ held' (.tenant t) .keyShare)
    (hpoint : PointOk d held' x.staged p) : TxnOk d held' (x.at p) where
  locked := fun id v hv => (h.locked id v hv).imp_left (hmore _ _)
  kept := h.kept
  shared := by
    intro id r t hr ht
    rcases h.shared id r t hr ht with hat | hrow | ⟨hmem, hshare⟩
    · exact .inr (.inr (hcheck t hat))
    · exact .inr (.inl hrow)
    · exact .inr (.inr ⟨hmem, hmore _ _ hshare⟩)
  point := hpoint

theorem stage_staged {v w : Option Row} {j : Nat} (h : (x.stage id v).staged j = some w) :
    (j = id ∧ w = v) ∨ x.staged j = some w := by
  by_cases hj : j = id
  · subst hj
    have hself : (x.stage j v).staged j = some v := Function.update_self _ _ _
    exact .inl ⟨rfl, Option.some.inj (h.symm.trans hself)⟩
  · have hother : (x.stage id v).staged j = x.staged j := Function.update_of_ne hj _ _
    exact .inr (hother.symm.trans h)

/-- One that writes a row. -/
theorem TxnOk.stage {v : Option Row} (h : TxnOk d held x) (hmore : ∀ k m, held k m → held' k m)
    (hcheck : ∀ t, x.point ≠ .check t) (hlock : held' (.row id) .update) (hid : id < d.nextID)
    (hkept : ∀ r r₀, v = some r → d.rows id = some r₀ → r.table = r₀.table)
    (hshared : ∀ r t, v = some r → r.tenantID = some t →
      p = .check t ∨ (∃ r₀, d.rows id = some r₀ ∧ r₀.tenantID = some t) ∨ (t ∈ d.tenants ∧ held' (.tenant t) .keyShare))
    (hpoint : PointOk d held' (Function.update x.staged id (some v)) p) : TxnOk d held' ((x.stage id v).at p) where
  locked := by
    intro j w hw
    rcases stage_staged hw with ⟨rfl, rfl⟩ | hbefore
    · exact ⟨hlock, hid⟩
    · exact (h.locked j w hbefore).imp_left (hmore _ _)
  kept := by
    intro j r r₀ hw
    rcases stage_staged hw with ⟨rfl, hv⟩ | hbefore
    · exact hkept r r₀ hv.symm
    · exact h.kept j r r₀ hbefore
  shared := by
    intro j r t hw ht
    rcases stage_staged hw with ⟨rfl, hv⟩ | hbefore
    · exact hshared r t hv.symm ht
    · rcases h.shared j r t hbefore ht with hat | hrow | ⟨hmem, hshare⟩
      · exact absurd hat (hcheck t)
      · exact .inr (.inl hrow)
      · exact .inr (.inr ⟨hmem, hmore _ _ hshare⟩)
  point := hpoint

/-- A transaction that has written nothing yet. -/
theorem TxnOk.begin (hpoint : PointOk d held (fun _ => none) p) : TxnOk d held (.begin p) where
  locked := fun _ _ h => by cases h
  kept := fun _ _ _ h => by cases h
  shared := fun _ _ _ h => by cases h
  point := hpoint

end moves

section steps

variable {s : State} {out : State × Event} {tx : Nat} {x : Txn} {t : Slug} {todo : List Nat} {id : Nat}

/-- A step that keeps the invariant, and does what its event may do. -/
def StepOk (s : State) (out : State × Event) : Prop := Inv out.1 ∧ out.2.Safe s.tables out.1.tables

theorem Mode.compatible_comm (m m' : Mode) : m.compatible m' = m'.compatible m := by cases m <;> cases m' <;> rfl

theorem StepOk.put (h : Inv s) (hx : TxnOk s.tables (s.txns.Held tx) x) : StepOk s (s.put tx x) :=
  ⟨⟨h.exclusive.put, h.consistent, h.txns.put hx⟩, rfl, rfl⟩

theorem StepOk.lockPut {k : Lock} {m : Mode} (h : Inv s) (hx : TxnOk s.tables ((s.txns.lock tx k m).Held tx) x)
    (hout : s.lockPut tx k m x = some out) : StepOk s out := by
  unfold State.lockPut at hout
  split_ifs at hout with hmay
  cases hout
  have hexclusive : (s.txns.lock tx k m).Exclusive Mode.compatible := h.exclusive.lock Mode.compatible_comm hmay
  exact ⟨⟨hexclusive.put, h.consistent, h.txns.lockPut (fun _ _ hj => hj) hx⟩, rfl, rfl⟩

theorem lockPut_event {k : Lock} {m : Mode} (hout : s.lockPut tx k m x = some out) : out.2 = .statement := by
  unfold State.lockPut at hout
  split_ifs at hout
  cases hout
  rfl

theorem StepOk.close {e : Event} (h : Inv s) (he : e.Safe s.tables s.tables) : StepOk s (s.close tx e) :=
  ⟨⟨h.exclusive.close, h.consistent, h.txns.close fun _ _ _ _ hj => hj⟩, he⟩

/-- A COMMIT. -/
theorem StepOk.commit {e : Event} {ts : List Slug} (h : Inv s) (hx : s.txns.txn tx = some x)
    (hcheck : ∀ t, x.point ≠ .check t) (hsub : ∀ t ∈ ts, t ∈ s.tables.tenants)
    (hgone : ∀ t ∈ s.tables.tenants, t ∉ ts → s.txns.Held tx (.tenant t) .update)
    (hleft : ∀ id r t, x.view s.tables id = some r → r.tenantID = some t → t ∈ ts)
    (he : e.Safe s.tables { x.apply s.tables with tenants := ts }) :
    StepOk s (s.commit tx { x.apply s.tables with tenants := ts } e) := by
  have hok : TxnOk s.tables (s.txns.Held tx) x := h.txns tx x hx
  refine ⟨⟨h.exclusive.close, hok.consistent h.consistent hleft, h.txns.close fun j y hj _ hy => ?_⟩, he⟩
  refine hy.follows (hok.commit_follows hcheck hsub hgone fun k m m' hm hm' => ?_)
  exact h.exclusive tx j k m m' hm hm' (Ne.symm hj)

/-- One that leaves the tenants. -/
theorem StepOk.commitRows {e : Event} (h : Inv s) (hx : s.txns.txn tx = some x) (hcheck : ∀ t, x.point ≠ .check t)
    (he : e.Safe s.tables (x.apply s.tables)) : StepOk s (s.commit tx (x.apply s.tables) e) :=
  StepOk.commit h hx hcheck (fun _ ht => ht) (fun _ ht hnot => absurd ht hnot)
    (fun _ _ _ => (h.txns tx x hx).view_tenant hcheck h.consistent) he

/-- A statement that writes nothing and takes no lock. -/
theorem StepOk.move {p : Point} (h : Inv s) (hx : s.txns.txn tx = some x) (hcheck : ∀ t, x.point ≠ .check t)
    (hpoint : PointOk s.tables (s.txns.Held tx) x.staged p) : StepOk s (s.put tx (x.at p)) :=
  .put h ((h.txns tx x hx).at (fun _ _ hheld => hheld) (fun t ht => absurd ht (hcheck t)) hpoint)

theorem StepOk.moveLock {k : Lock} {m : Mode} {p : Point} (h : Inv s) (hx : s.txns.txn tx = some x)
    (hcheck : ∀ t, x.point ≠ .check t) (hout : s.lockPut tx k m (x.at p) = some out)
    (hpoint : PointOk s.tables ((s.txns.lock tx k m).Held tx) x.staged p) : StepOk s out :=
  .lockPut h ((h.txns tx x hx).at (fun _ _ => .lock) (fun t ht => absurd ht (hcheck t)) hpoint) hout

section write

/-- An UPDATE or DELETE of a row, which keeps its table; a reference that it changes is checked next. -/
theorem writeRow_ok {selects : Row → Bool} {new : Row → Option Row} {point : Row → Point} (h : Inv s)
    (hx : s.txns.txn tx = some x) (hwrite : x.point = .write)
    (htable : ∀ r r', new r = some r' → r'.table = r.table)
    (href : ∀ r r' t, new r = some r' → r'.tenantID = some t → r.tenantID = some t ∨ point r = .check t)
    (hpoint : ∀ r, point r = .write ∨ ∃ t, point r = .check t)
    (hout : writeRow s tx x id selects new point = some out) : StepOk s out := by
  have hok : TxnOk s.tables (s.txns.Held tx) x := h.txns tx x hx
  have hcheck : ∀ t, x.point ≠ .check t := fun t ht => by
    rw [hwrite] at ht
    cases ht
  unfold writeRow at hout
  split at hout
  · cases hout
    exact .put h hok
  · next r hr =>
    have hview : x.view s.tables id = some r := (Option.filter_eq_some_iff.mp hr).1
    have hid : id < s.tables.nextID := hok.view_fresh h.consistent hview
    refine .lockPut h (hok.stage (fun _ _ => .lock) hcheck ModeTxns.held_lock hid ?_ ?_ ?_) hout
    · intro r' r₀ hnew hr₀
      rw [htable r r' hnew]
      rcases view_eq_some hview with hwritten | ⟨-, hrow⟩
      · exact hok.kept id r r₀ hwritten hr₀
      · exact congrArg Row.table (Option.some.inj (hrow.symm.trans hr₀))
    · intro r' t hnew ht
      rcases href r r' t hnew ht with hsame | hchecked
      · rcases view_eq_some hview with hwritten | ⟨-, hrow⟩
        · rcases hok.shared id r t hwritten hsame with hat | hbefore | ⟨hmem, hshare⟩
          · exact absurd hat (hcheck t)
          · exact .inr (.inl hbefore)
          · exact .inr (.inr ⟨hmem, hshare.lock⟩)
        · exact .inr (.inl ⟨r, hrow, hsame⟩)
      · exact .inl hchecked
    · rcases hpoint r with hat | ⟨t, hat⟩
      · rw [hat]
        trivial
      · rw [hat]
        trivial

/-- An INSERT. -/
theorem insert_ok {table : Table} {isSuperAdmin : Bool} (h : Inv s) (hx : s.txns.txn tx = some x)
    (hwrite : x.point = .write) (hout : stepWrite s tx x (.insert table t isSuperAdmin) = some out) : StepOk s out := by
  have hcheck : ∀ t, x.point ≠ .check t := fun t ht => by
    rw [hwrite] at ht
    cases ht
  have hnext : Inv ⟨s.tables.giveID, s.txns⟩ := by
    refine ⟨h.exclusive, ⟨h.consistent.tenant, fun id r hr => ?_⟩, fun j y hy => ?_⟩
    · exact Nat.lt_succ_of_lt (h.consistent.fresh id r hr)
    · exact (h.txns j y hy).follows .giveID
  have hok : TxnOk s.tables.giveID (s.txns.Held tx) x := hnext.txns tx x hx
  have hstage := hok.stage (fun _ _ => ModeTxns.Held.lock) hcheck ModeTxns.held_lock (Nat.lt_succ_self s.tables.nextID)
    (v := some ⟨table, some t, isSuperAdmin⟩) (p := .check t) ?_ ?_ trivial
  · have hevent : out.2 = .statement := lockPut_event hout
    have hstep : StepOk ⟨s.tables.giveID, s.txns⟩ out := .lockPut hnext hstage hout
    refine ⟨hstep.1, ?_⟩
    have hsafe := hstep.2
    rw [hevent] at hsafe ⊢
    exact hsafe
  · intro r r₀ _ hr₀
    exact absurd (h.consistent.fresh _ r₀ hr₀) (Nat.lt_irrefl _)
  · rintro r t' ⟨⟩ ⟨⟩
    exact .inl rfl

theorem stepWrite_ok {op : Op} (h : Inv s) (hx : s.txns.txn tx = some x) (hwrite : x.point = .write)
    (hout : stepWrite s tx x op = some out) : StepOk s out := by
  cases op with
  | insert table t isSuperAdmin => exact insert_ok h hx hwrite hout
  | promote id =>
      refine writeRow_ok h hx hwrite ?_ ?_ (fun _ => .inl rfl) hout
      · rintro r r' ⟨⟩
        rfl
      · rintro r r' t ⟨⟩ ht
        exact .inl ht
  | reassign id t =>
      refine writeRow_ok h hx hwrite ?_ ?_ (fun r => ?_) hout
      · rintro r r' ⟨⟩
        rfl
      · rintro r r' t' ⟨⟩ ⟨⟩
        by_cases hsame : r.tenantID = some t
        · exact .inl hsame
        · exact .inr (if_neg hsame)
      · by_cases hsame : r.tenantID = some t
        · exact .inl (if_pos hsame)
        · exact .inr ⟨t, if_neg hsame⟩
  | deleteUser id =>
      refine writeRow_ok h hx hwrite ?_ ?_ (fun _ => .inl rfl) hout
      · rintro r r' ⟨⟩
      · rintro r r' t ⟨⟩
  | deleteRow id =>
      refine writeRow_ok h hx hwrite ?_ ?_ (fun _ => .inl rfl) hout
      · rintro r r' ⟨⟩
      · rintro r r' t ⟨⟩

end write

section delete

/-- The tenant is locked, or there is none of that name. -/
theorem lockTenant_ok (h : Inv s) (hx : s.txns.txn tx = some x) (hpoint : x.point = .lockTenant t)
    (hout : stepPoint s tx x (.lockTenant t) = some out) : StepOk s out := by
  have hcheck : ∀ u, x.point ≠ .check u := fun u hu => by cases hpoint.symm.trans hu
  have hat : PointOk s.tables (s.txns.Held tx) x.staged (.lockTenant t) := hpoint ▸ (h.txns tx x hx).point
  simp only [stepPoint] at hout
  split_ifs at hout with hmem
  · exact .moveLock h hx hcheck hout ⟨hat, fun _ => ModeTxns.held_lock⟩
  · cases hout
    exact .move h hx hcheck ⟨hat, fun ht => absurd ht hmem⟩

theorem hasDevices_eq_false (hd : Consistent s.tables) (hnone : s.tables.hasDevices t = false) :
    NoDevices s.tables t := by
  intro id r hr ht htable
  have hmem : id ∈ List.range s.tables.nextID := List.mem_range.mpr (hd.fresh id r hr)
  have hrow := List.any_eq_false.mp hnone id hmem
  simp [hr, ht, htable] at hrow

theorem mem_usersOf (hd : Consistent s.tables) {r : Row} (hr : s.tables.rows id = some r) (ht : r.tenantID = some t)
    (huser : r.table = .users) : id ∈ s.tables.usersOf t := by
  refine List.mem_filter.mpr ⟨List.mem_range.mpr (hd.fresh id r hr), ?_⟩
  simp [hr, ht, huser]

theorem mem_referring (hd : Consistent s.tables) {r : Row} (hr : s.tables.rows id = some r) (ht : r.tenantID = some t) :
    id ∈ s.tables.referring t := by
  refine List.mem_filter.mpr ⟨List.mem_range.mpr (hd.fresh id r hr), ?_⟩
  simp [hr, ht]

/-- A user is locked as it is now, or is none of the tenant's any more. -/
theorem takeUser_ok {hasSuper : Bool} (h : Inv s) (hx : s.txns.txn tx = some x)
    (hpoint : x.point = .users t (id :: todo) hasSuper) (hout : takeUser s tx x t id todo hasSuper = some out) :
    StepOk s out := by
  have hcheck : ∀ u, x.point ≠ .check u := fun u hu => by cases hpoint.symm.trans hu
  obtain ⟨hunwritten, hguard, hdevices, husers⟩ :
      PointOk s.tables (s.txns.Held tx) x.staged (.users t (id :: todo) hasSuper) := hpoint ▸ (h.txns tx x hx).point
  unfold takeUser at hout
  split at hout
  · next hnone =>
    cases hout
    refine .move h hx hcheck ⟨hunwritten, hguard, hdevices, fun hs => ?_⟩
    intro j r hr ht huser
    refine (husers hs j r hr ht huser).imp_left fun hmem => ?_
    rcases List.mem_cons.mp hmem with rfl | htodo
    · simp [hr, ht, huser] at hnone
    · exact htodo
  · next r hr =>
    have hrow : s.tables.rows id = some r := (Option.filter_eq_some_iff.mp hr).1
    refine .moveLock h hx hcheck hout ⟨hunwritten, fun ht => (hguard ht).lock, hdevices, fun hs => ?_⟩
    obtain ⟨hbefore, hsuper⟩ := Bool.or_eq_false_iff.mp hs
    intro j r' hr' ht huser
    rcases husers hbefore j r' hr' ht huser with hmem | ⟨hheld, hordinary⟩
    · rcases List.mem_cons.mp hmem with rfl | htodo
      · refine .inr ⟨ModeTxns.held_lock, ?_⟩
        rw [Option.some.inj (hr'.symm.trans hrow)]
        exact hsuper
      · exact .inl htodo
    · exact .inr ⟨hheld.lock, hordinary⟩

theorem UsersHeld.lock {k : Lock} {m : Mode} (h : UsersHeld s.tables (s.txns.Held tx) t todo) :
    UsersHeld s.tables ((s.txns.lock tx k m).Held tx) t todo :=
  fun id r hr ht huser => (h id r hr ht huser).imp_right fun hheld => hheld.imp_left .lock

theorem Vetted.lock {k : Lock} {m : Mode} (h : Vetted s.tables (s.txns.Held tx) t todo) :
    Vetted s.tables ((s.txns.lock tx k m).Held tx) t todo :=
  ⟨fun ht => (h.guarding ht).lock, h.devices, h.users.lock⟩

/-- The DELETE finds the tenant and what refers to it now, or no tenant. -/
theorem erase_ok (h : Inv s) (hx : s.txns.txn tx = some x) (hpoint : x.point = .erase t)
    (hout : stepPoint s tx x (.erase t) = some out) : StepOk s out := by
  have hcheck : ∀ u, x.point ≠ .check u := fun u hu => by cases hpoint.symm.trans hu
  obtain ⟨hunwritten, hvetted⟩ : PointOk s.tables (s.txns.Held tx) x.staged (.erase t) :=
    hpoint ▸ (h.txns tx x hx).point
  simp only [stepPoint] at hout
  split_ifs at hout with hmem
  · refine .moveLock h hx hcheck hout ⟨hvetted.lock, fun id v hv => ?_, fun id r hr ht => ?_⟩
    · rw [hunwritten id] at hv
      cases hv
    · exact .inl (mem_referring h.consistent hr ht)
  · cases hout
    exact .move h hx hcheck ⟨hunwritten, hmem⟩

theorem orphaned_eq_some {r r' : Row} (h : r.orphaned = some r') : r'.table = r.table ∧ r'.tenantID = none := by
  unfold Row.orphaned at h
  split at h
  · cases h
    exact ⟨rfl, rfl⟩
  · cases h

theorem Erasing.stage {r : Row} (h : Erasing s.tables x.staged t (id :: todo)) (hr : s.tables.rows id = some r)
    (ht : r.tenantID = some t) : Erasing s.tables (x.stage id r.orphaned).staged t todo where
  written := by
    intro j v hv
    rcases stage_staged hv with ⟨rfl, rfl⟩ | hbefore
    · exact ⟨r, hr, ht, rfl⟩
    · exact h.written j v hbefore
  taken := by
    intro j r' hr' ht'
    by_cases hj : j = id
    · subst hj
      have hself : (x.stage j r.orphaned).staged j = some r.orphaned := Function.update_self _ _ _
      rw [hself]
      exact .inr rfl
    · have hother : (x.stage id r.orphaned).staged j = x.staged j := Function.update_of_ne hj _ _
      rw [hother]
      exact (h.taken j r' hr' ht').imp_left fun hmem => (List.mem_cons.mp hmem).resolve_left hj

/-- The cascade takes a row as it is now, or passes one that does not refer to the tenant any more. -/
theorem takeReferring_ok (h : Inv s) (hx : s.txns.txn tx = some x) (hpoint : x.point = .cascade t (id :: todo))
    (hout : takeReferring s tx x t id todo = some out) : StepOk s out := by
  have hcheck : ∀ u, x.point ≠ .check u := fun u hu => by cases hpoint.symm.trans hu
  have hok : TxnOk s.tables (s.txns.Held tx) x := h.txns tx x hx
  obtain ⟨hvetted, herasing⟩ : PointOk s.tables (s.txns.Held tx) x.staged (.cascade t (id :: todo)) :=
    hpoint ▸ hok.point
  unfold takeReferring at hout
  split at hout
  · next hnone =>
    cases hout
    refine .move h hx hcheck ⟨hvetted, herasing.written, fun j r hr ht => ?_⟩
    refine (herasing.taken j r hr ht).imp_left fun hmem => ?_
    rcases List.mem_cons.mp hmem with rfl | htodo
    · simp [hr, ht] at hnone
    · exact htodo
  · next r hr =>
    obtain ⟨hrow, href⟩ := Option.filter_eq_some_iff.mp hr
    have ht : r.tenantID = some t := of_decide_eq_true href
    have hnext : Erasing s.tables (x.stage id r.orphaned).staged t todo := herasing.stage hrow ht
    refine .lockPut h ?_ hout
    have hid : id < s.tables.nextID := h.consistent.fresh id r hrow
    refine hok.stage (fun _ _ => .lock) hcheck ModeTxns.held_lock hid ?_ ?_ ⟨hvetted.lock, hnext⟩
    · intro r' r₀ hnew hr₀
      rw [(orphaned_eq_some hnew).1]
      exact congrArg Row.table (Option.some.inj (hrow.symm.trans hr₀))
    · intro r' u hnew hu
      rw [(orphaned_eq_some hnew).2] at hu
      cases hu

/-- What an erased tenant leaves: the rows it may not take, and no reference. -/
theorem Erasing.deleted (h : Erasing s.tables x.staged t []) (hvetted : Vetted s.tables (s.txns.Held tx) t []) :
    Deleted t s.tables { x.apply s.tables with tenants := s.tables.tenants.filter fun t' => t' ≠ t } where
  kept := by
    intro id r hr hprotected
    cases hs : x.staged id with
    | none => exact (view_of_none hs).trans hr
    | some v =>
        exfalso
        obtain ⟨r₀, hr₀, ht, -⟩ := h.written id v hs
        obtain rfl : r = r₀ := Option.some.inj (hr.symm.trans hr₀)
        rcases hprotected with hdevice | ⟨huser, hsuper⟩
        · exact hvetted.devices id r hr ht hdevice
        · rcases hvetted.users id r hr ht huser with hmem | ⟨-, hordinary⟩
          · exact List.not_mem_nil hmem
          · rw [hsuper] at hordinary
            cases hordinary
  unreferred := by
    intro id r hr ht
    rcases view_eq_some hr with hwritten | ⟨hnone, hrow⟩
    · obtain ⟨r₀, -, -, hnew⟩ := h.written id _ hwritten
      rw [(orphaned_eq_some hnew.symm).2] at ht
      cases ht
    · rcases h.taken id r hrow ht with hmem | hstaged
      · exact List.not_mem_nil hmem
      · rw [hnone] at hstaged
        cases hstaged
  gone := by simp

theorem commit_ok {erased : Bool} (h : Inv s) (hx : s.txns.txn tx = some x) (hpoint : x.point = .commit t erased)
    (hout : stepPoint s tx x (.commit t erased) = some out) : StepOk s out := by
  have hcheck : ∀ u, x.point ≠ .check u := fun u hu => by cases hpoint.symm.trans hu
  have hok : TxnOk s.tables (s.txns.Held tx) x := h.txns tx x hx
  have hat : PointOk s.tables (s.txns.Held tx) x.staged (.commit t erased) := hpoint ▸ hok.point
  cases erased with
  | true =>
      obtain ⟨hvetted, herasing⟩ := hat
      have hdeleted := herasing.deleted hvetted
      cases hout
      refine .commit h hx hcheck (fun u hu => (List.mem_filter.mp hu).1) (fun u hu hnot => ?_)
        (fun id r u hr hu => ?_) hdeleted
      · by_cases hut : u = t
        · rw [hut] at hu ⊢
          exact hvetted.guarding hu
        · exact absurd (List.mem_filter.mpr ⟨hu, decide_eq_true hut⟩) hnot
      · have hmem : u ∈ s.tables.tenants := hok.view_tenant hcheck h.consistent hr hu
        have hne : u ≠ t := fun hut => hdeleted.unreferred id r hr (hut ▸ hu)
        exact List.mem_filter.mpr ⟨hmem, decide_eq_true hne⟩
  | false =>
      obtain ⟨hunwritten, hgone⟩ := hat
      have hview : x.apply s.tables = s.tables := by
        have hrows : x.view s.tables = s.tables.rows := funext fun id => view_of_none (hunwritten id)
        rw [Txn.apply, hrows]
      cases hout
      refine .commitRows h hx hcheck ⟨fun id r hr _ => ?_, fun id r hr ht => ?_, hgone⟩
      · rw [hview]
        exact hr
      · rw [hview] at hr
        exact hgone (h.consistent.tenant id r t hr ht)

end delete

theorem stepPoint_ok (h : Inv s) (hx : s.txns.txn tx = some x) {p : Point} (hpoint : x.point = p)
    (hout : stepPoint s tx x p = some out) : StepOk s out := by
  have hok : TxnOk s.tables (s.txns.Held tx) x := h.txns tx x hx
  have hat : PointOk s.tables (s.txns.Held tx) x.staged p := hpoint ▸ hok.point
  match p with
  | .write =>
      cases hout
      exact .commitRows h hx (fun u hu => by cases hpoint.symm.trans hu) trivial
  | .check t =>
      simp only [stepPoint] at hout
      split_ifs at hout with hmem
      · refine .lockPut h (hok.at (fun _ _ => .lock) (fun u hu => ?_) ?_) hout
        · cases hpoint.symm.trans hu
          exact ⟨hmem, ModeTxns.held_lock⟩
        · trivial
      · cases hout
        exact .close h ⟨rfl, rfl⟩
  | .lockTenant t => exact lockTenant_ok h hx hpoint hout
  | .hasDevices t =>
      cases hout
      split_ifs with hdevices
      · exact .close h rfl
      · have hnone := hasDevices_eq_false h.consistent (Bool.eq_false_iff.mpr hdevices)
        exact .move h hx (fun u hu => by cases hpoint.symm.trans hu) ⟨hat.1, hat.2, hnone⟩
  | .lockUsers t =>
      cases hout
      refine .move h hx (fun u hu => by cases hpoint.symm.trans hu) ⟨hat.1, hat.2.1, hat.2.2, fun _ => ?_⟩
      exact fun id r hr ht huser => .inl (mem_usersOf h.consistent hr ht huser)
  | .users t (id :: todo) hasSuper => exact takeUser_ok h hx hpoint hout
  | .users t [] hasSuper =>
      cases hout
      split_ifs with hsuper
      · exact .close h rfl
      · have husers := hat.2.2.2 (Bool.eq_false_iff.mpr hsuper)
        exact .move h hx (fun u hu => by cases hpoint.symm.trans hu) ⟨hat.1, hat.2.1, hat.2.2.1, husers⟩
  | .erase t => exact erase_ok h hx hpoint hout
  | .cascade t (id :: todo) => exact takeReferring_ok h hx hpoint hout
  | .cascade t [] =>
      cases hout
      exact .move h hx (fun u hu => by cases hpoint.symm.trans hu) hat
  | .commit t erased => exact commit_ok h hx hpoint hout

theorem step_ok {a : Action} (h : Inv s) (hout : step s a = some out) : StepOk s out := by
  cases a with
  | call tx =>
      simp only [step] at hout
      split_ifs at hout
      cases hout
      exact .put h (.begin trivial)
  | write tx op =>
      obtain ⟨x, hx, hwrite⟩ := Option.bind_eq_some_iff.mp hout
      split_ifs at hwrite with hpoint
      exact stepWrite_ok h hx hpoint hwrite
  | delete tx t callerTenantIDs =>
      simp only [step] at hout
      split_ifs at hout
      · cases hout
        exact .put h (.begin fun _ => rfl)
      · cases hout
        exact ⟨h, rfl⟩
  | next tx =>
      obtain ⟨x, hx, hpoint⟩ := Option.bind_eq_some_iff.mp hout
      exact stepPoint_ok h hx rfl hpoint
  | rollback tx =>
      obtain ⟨x, -, rfl⟩ := Option.map_eq_some_iff.mp hout
      exact .close h ⟨rfl, rfl⟩

end steps

section runs

variable {d : Tables} {s s' : State} {a : Action} {e : Event} {log : List Event}

theorem inv_run (hd : Consistent d) (hrun : system.Run (start d) log s) : Inv s := by
  refine hrun.invariant (fun _ s => Inv s) ⟨.idle, hd, .idle⟩ fun _ s a s' e h _ hstep => ?_
  exact (step_ok h hstep).1

/-- In every run. A deletion that refuses did nothing to the tables in the statements before. -/
theorem delete_safe (hd : Consistent d) (hrun : system.Run (start d) log s) (hstep : system.step s a = some (s', e)) :
    e.Safe s.tables s'.tables := (step_ok (inv_run hd hrun) hstep).2

/-- A tenant with one user. -/
def oneUser : Tables := ⟨[acme], fun id => if id = 0 then some ⟨.users, some acme, false⟩ else none, 1⟩

theorem consistent_oneUser : Consistent oneUser where
  tenant := by
    intro id r t hr ht
    simp only [oneUser] at hr
    split_ifs at hr
    cases hr
    cases ht
    exact List.mem_singleton_self _
  fresh := by
    intro id r hr
    simp only [oneUser] at hr
    split_ifs at hr with hid
    rw [hid]
    exact Nat.one_pos

/-- A device is inserted meanwhile, and its check waits. -/
theorem delete_safe_deleted : ∃ log s s', system.Run (start oneUser) log s ∧
    system.step s (.next 1) = some (s', .deleted acme) ∧ Deleted acme s.tables s'.tables := by
  have hexec : (system.execIf (fun _ _ _ => True) [] (start oneUser)
      [.delete 1 acme [], .call 2, .next 1, .write 2 (.insert .devices acme false), .next 1, .next 1, .next 1, .next 1,
        .next 1, .next 1, .next 1]).any
      (fun out => (system.step out.2 (.next 1)).any fun out' => out'.2 = .deleted acme) = true := by decide +kernel
  obtain ⟨log, s, hrun, hnext⟩ := Machine.exists_runIf_of_any hexec
  obtain ⟨⟨s', e⟩, hstep, he⟩ := (Option.any_eq_true _ _).mp hnext
  obtain rfl : e = .deleted acme := of_decide_eq_true he
  exact ⟨log, s, s', hrun, hstep, delete_safe consistent_oneUser hrun hstep⟩

end runs

end ThesadaApp.TenantDelete
