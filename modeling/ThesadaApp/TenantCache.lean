import ThesadaApp.Basic
import ThesadaApp.KeyedTable
import ThesadaApp.MachineRun
import ThesadaApp.WriteThrough

/-!
The slugs that `TenantService` keeps in memory. Create, Delete and Refresh each commit a transaction and then write the
slugs, and between the two any of the others may come.
-/

namespace ThesadaApp.TenantCache

inductive TenantError where
  | slug (e : SlugError)
  | slugTaken
  | tenantProtected
  | hasDevices
  | hasSuperAdmins
  | database
  deriving DecidableEq

/-- A row of `tenants`. -/
structure Tenant where
  id : Slug
  displayName : String
  deriving DecidableEq

/-- The columns of `users` that a deletion reads. -/
structure User where
  tenantID : Slug
  isSuperAdmin : Bool
  deriving DecidableEq

/-- Of `devices` only the tenant of each row is read. -/
structure Db where
  tenants : KeyedTable Tenant.id
  devices : List Slug
  users : List User

/-- A row of `tenants` has the slug. -/
def Db.hasSlug (db : Db) (slug : String) : Bool := db.tenants.rows.any fun t => t.id.val = slug

/-- The row that `Create` inserts: a tenant without a name is called by its slug. -/
def newTenant (slug : Slug) (displayName : String) : Tenant :=
  ⟨slug, if displayName = "" then slug.val else displayName⟩

def createTx (db : Db) (slug displayName : String) : Except TenantError Db :=
  match hslug : validateSlug slug with
  | .error e => .error (.slug e)
  | .ok () =>
      if htaken : db.tenants.find (newTenant ⟨slug, hslug⟩ displayName).id = none then
        .ok { db with tenants := db.tenants.insert (newTenant ⟨slug, hslug⟩ displayName) htaken }
      else .error .slugTaken

def deleteAllowed (slug : String) (callerTenantIDs : List String) : Except TenantError Unit :=
  if slug = "default" then .error .tenantProtected
  else if callerTenantIDs.contains slug then .error .tenantProtected
  else .ok ()

/-- The transaction of `Delete`. The users of the tenant go with it. -/
def deleteTx (db : Db) (slug : String) : Except TenantError Db :=
  if db.devices.any fun t => t.val = slug then .error .hasDevices
  else if db.users.any fun u => u.tenantID.val = slug && u.isSuperAdmin then .error .hasSuperAdmins
  else .ok { db with
    tenants := db.tenants.deleteWhere fun t => t.id.val = slug
    users := db.users.filter fun u => u.tenantID.val ≠ slug }

inductive Call where
  | create (slug displayName : String)
  | delete (slug : String) (callerTenantIDs : List String)
  | refresh
  deriving DecidableEq

/-- What a call whose transaction has committed has yet to do to the slugs in memory. -/
inductive Update where
  | add (slug : String)
  | remove (slug : String)
  | replace (fresh : List String)
  deriving DecidableEq

/-- A call up to the end of its transaction. -/
def Call.commit (db : Db) : Call → Except TenantError (Db × Update)
  | .create slug displayName => (createTx db slug displayName).map fun db => (db, .add slug)
  | .delete slug callerTenantIDs => do
      deleteAllowed slug callerTenantIDs
      (deleteTx db slug).map fun db => (db, .remove slug)
  | .refresh => .ok (db, .replace (db.tenants.rows.map fun t => t.id.val))

def Update.run (slugs : List String) : Update → List String
  | .add slug => slug :: slugs
  | .remove slug => slugs.filter fun x => x ≠ slug
  | .replace fresh => fresh

/-- The tables, the slugs in memory and the calls between their two steps. -/
structure State where
  db : Db
  slugs : List String
  pending : KeyedTable (Prod.fst : Nat × Update → Nat)

def State.existsBySlug (s : State) (slug : String) : Bool := s.slugs.contains slug

inductive Action where
  /-- The transaction of a call, at the end of which it commits, or a statement of it fails. -/
  | database (id : Nat) (call : Call) (fails : Bool)
  | cache (id : Nat)
  /-- Devices and users change otherwise. -/
  | others (devices : List Slug) (users : List User)
  deriving DecidableEq

inductive Event where
  | refused (id : Nat) (e : TenantError)
  | committed (id : Nat)
  | returned (id : Nat)
  | others
  deriving DecidableEq

def step (s : State) : Action → Option (State × Event)
  | .database id call fails =>
      if hid : s.pending.find id = none then
        if fails then some (s, .refused id .database)
        else
          match call.commit s.db with
          | .error e => some (s, .refused id e)
          | .ok (db, update) => some (⟨db, s.slugs, s.pending.insert (id, update) hid⟩, .committed id)
      else none
  | .cache id =>
      match s.pending.find id with
      | none => none
      | some (_, update) =>
          some (⟨s.db, update.run s.slugs, s.pending.deleteWhere fun x => x.1 = id⟩, .returned id)
  | .others devices users =>
      if (devices ++ users.map User.tenantID).all fun t => s.db.hasSlug t.val then
        some ({ s with db := { s.db with devices := devices, users := users } }, .others)
      else none

def machine : Machine State Action Event := ⟨step⟩

/-- Every call has returned. -/
def State.Quiet (s : State) : Prop := s.pending.rows = []

/-- The slugs in memory are those of the table. -/
def State.Coherent (s : State) : Prop := ∀ slug, s.existsBySlug slug = true ↔ ∃ t ∈ s.db.tenants, t.id.val = slug

open WriteThrough

/-- What an update writes of a slug. -/
def Update.write : Update → Write String Bool
  | .add slug => fun x => if x = slug then some true else none
  | .remove slug => fun x => if x = slug then some false else none
  | .replace fresh => fun x => some (fresh.contains x)

/-- The writes that the calls other than `id` have yet to make. -/
def State.otherWrites (s : State) (id : Nat) : List (Write String Bool) :=
  (s.pending.deleteWhere fun x => x.1 = id).rows.map fun x => x.2.write

/-- The memory is written with what the table says by then, but for slugs that another call has yet to write. -/
def UpToDate (_ : List Event) (s : State) (a : Action) : Prop :=
  ∀ id update, a = .cache id → s.pending.find id = some (id, update) →
    Current s.db.hasSlug (s.otherWrites id) update.write

section steps

variable {s s' : State} {a : Action} {e : Event} {db db' : Db} {update : Update}

theorem hasSlug_iff {slug : String} : db.hasSlug slug = true ↔ ∃ t ∈ db.tenants, t.id.val = slug := by
  simp [Db.hasSlug, List.any_eq_true, KeyedTable.mem_rows]

theorem coherent_iff : s.Coherent ↔ s.existsBySlug = s.db.hasSlug := by
  constructor
  · intro h
    funext slug
    exact Bool.eq_iff_iff.mpr ((h slug).trans hasSlug_iff.symm)
  · intro h slug
    rw [h]
    exact hasSlug_iff

theorem existsBySlug_run (slugs : List String) :
    (update.run slugs).contains = apply update.write slugs.contains := by
  funext x
  cases update with
  | add slug =>
      by_cases hx : x = slug
      · simp [Update.run, Update.write, apply, hx]
      · simp [Update.run, Update.write, apply, hx]
  | remove slug =>
      by_cases hx : x = slug
      · simp [Update.run, Update.write, apply, hx]
      · simp [Update.run, Update.write, apply, hx]
  | replace fresh => rfl

theorem hasSlug_createTx {slug displayName x : String} (h : createTx db slug displayName = .ok db') (hx : x ≠ slug) :
    db'.hasSlug x = db.hasSlug x := by
  unfold createTx at h
  split at h
  · cases h
  · next hslug =>
      split at h
      · next htaken =>
          cases h
          rw [Bool.eq_iff_iff, hasSlug_iff, hasSlug_iff]
          constructor
          · rintro ⟨t, ht, rfl⟩
            rcases (KeyedTable.mem_insert htaken).mp ht with ht | rfl
            · exact ⟨t, ht, rfl⟩
            · exact absurd rfl hx
          · rintro ⟨t, ht, htx⟩
            exact ⟨t, (KeyedTable.mem_insert htaken).mpr (.inl ht), htx⟩
      · cases h

theorem hasSlug_deleteTx {slug x : String} (h : deleteTx db slug = .ok db') (hx : x ≠ slug) :
    db'.hasSlug x = db.hasSlug x := by
  unfold deleteTx at h
  split_ifs at h
  cases h
  rw [Bool.eq_iff_iff, hasSlug_iff, hasSlug_iff]
  constructor
  · rintro ⟨t, ht, htx⟩
    exact ⟨t, (KeyedTable.mem_deleteWhere.mp ht).1, htx⟩
  · rintro ⟨t, ht, rfl⟩
    exact ⟨t, KeyedTable.mem_deleteWhere.mpr ⟨ht, decide_eq_false hx⟩, rfl⟩

/-- A transaction changes the table only where the update that follows it writes. -/
theorem commit_writes {call : Call} (h : call.commit db = .ok (db', update)) (x : String)
    (hchange : db'.hasSlug x ≠ db.hasSlug x) : (update.write x).isSome = true := by
  cases call with
  | create slug displayName =>
      obtain ⟨db'', hcreate, heq⟩ := map_eq_ok h
      cases heq
      by_cases hx : x = slug
      · simp [Update.write, hx]
      · exact absurd (hasSlug_createTx hcreate hx) hchange
  | delete slug callerTenantIDs =>
      obtain ⟨-, -, h⟩ := bind_eq_ok h
      obtain ⟨db'', hdelete, heq⟩ := map_eq_ok h
      cases heq
      by_cases hx : x = slug
      · simp [Update.write, hx]
      · exact absurd (hasSlug_deleteTx hdelete hx) hchange
  | refresh =>
      cases h
      rfl

/-- The writes to come, of all calls. -/
def State.writes (s : State) : List (Write String Bool) := s.pending.rows.map fun x => x.2.write

/-- Every slug is right in memory, or a call between its steps will write it. -/
def State.Settling (s : State) : Prop := Covered s.db.hasSlug s.existsBySlug s.writes

theorem pending_split {id : Nat} (hid : s.pending.find id = some (id, update)) :
    ∀ w ∈ s.writes, w = update.write ∨ w ∈ s.otherWrites id := by
  intro w hw
  obtain ⟨x, hx, rfl⟩ := List.mem_map.mp hw
  by_cases hxid : x.1 = id
  · obtain rfl := KeyedTable.eq_of_key hx (KeyedTable.find_mem hid) hxid
    exact .inl rfl
  · exact .inr (List.mem_map_of_mem (KeyedTable.mem_deleteWhere.mpr ⟨hx, decide_eq_false hxid⟩))

theorem step_cases (hstep : step s a = some (s', e)) :
    (∃ id, ∃ call : Call, ∃ db update, ∃ hid : s.pending.find id = none, call.commit s.db = .ok (db, update) ∧
      s' = ⟨db, s.slugs, s.pending.insert (id, update) hid⟩) ∨
    (∃ id update, a = .cache id ∧ s.pending.find id = some (id, update) ∧
      s' = ⟨s.db, update.run s.slugs, s.pending.deleteWhere fun x => x.1 = id⟩) ∨
    (s'.db.tenants = s.db.tenants ∧ s'.slugs = s.slugs ∧ s'.pending = s.pending) := by
  cases a with
  | database id call fails =>
      rw [step] at hstep
      split at hstep
      · next hid =>
          split_ifs at hstep
          · cases hstep
            exact .inr (.inr ⟨rfl, rfl, rfl⟩)
          · split at hstep
            · cases hstep
              exact .inr (.inr ⟨rfl, rfl, rfl⟩)
            · next db update hcommit =>
                cases hstep
                exact .inl ⟨id, call, db, update, hid, hcommit, rfl⟩
      · cases hstep
  | cache id =>
      rw [step] at hstep
      split at hstep
      · cases hstep
      · next id' update hfind =>
          obtain rfl : id' = id := KeyedTable.find_key hfind
          cases hstep
          exact .inr (.inl ⟨id', update, rfl, hfind, rfl⟩)
  | others devices users =>
      rw [step] at hstep
      split_ifs at hstep
      cases hstep
      exact .inr (.inr ⟨rfl, rfl, rfl⟩)

/-- Where every slug is settling, writing the memory keeps it so exactly if what is written is up to date. -/
theorem settling_cache_iff {id : Nat} (h : s.Settling) (hid : s.pending.find id = some (id, update)) :
    State.Settling ⟨s.db, update.run s.slugs, s.pending.deleteWhere fun x => x.1 = id⟩ ↔
      Current s.db.hasSlug (s.otherWrites id) update.write := by
  have hexists : State.existsBySlug ⟨s.db, update.run s.slugs, s.pending.deleteWhere fun x => x.1 = id⟩ =
      apply update.write s.existsBySlug := existsBySlug_run s.slugs
  rw [State.Settling, hexists]
  exact h.apply_iff (pending_split hid)

theorem settling_step {log : List Event} (h : s.Settling) (hok : UpToDate log s a) (hstep : step s a = some (s', e)) :
    s'.Settling := by
  rcases step_cases hstep with ⟨id, call, db, update, hid, hcommit, rfl⟩ | ⟨id, update, rfl, hid, rfl⟩ |
    ⟨htenants, hslugs, hpending⟩
  · have hwrites : State.writes ⟨db, s.slugs, s.pending.insert (id, update) hid⟩ = s.writes ++ [update.write] :=
      List.map_append
    rw [State.Settling, hwrites]
    exact h.change (commit_writes hcommit)
  · exact (settling_cache_iff h hid).mpr (hok id update rfl hid)
  · have hdb : s'.db.hasSlug = s.db.hasSlug := by
      funext x
      rw [Db.hasSlug, Db.hasSlug, htenants]
    have hexists : s'.existsBySlug = s.existsBySlug := by
      funext x
      rw [State.existsBySlug, State.existsBySlug, hslugs]
    rw [State.Settling, State.writes, hdb, hexists, hpending]
    exact h

end steps

variable {s₀ s : State} {log : List Event}

/-- The one tenant there is after the first migrations, which the first Refresh has read. -/
def fresh : State := ⟨⟨⟨[⟨defaultTenant, "Default"⟩], by decide⟩, [], []⟩, ["default"], ∅⟩

theorem fresh_coherent : fresh.Coherent := by
  intro slug
  rw [← hasSlug_iff]
  simp [fresh, State.existsBySlug, Db.hasSlug, defaultTenant, eq_comm]

/-- The commit of the creation of a tenant, as the only call. -/
def created : State :=
  ⟨⟨⟨[⟨defaultTenant, "Default"⟩, ⟨acme, "acme"⟩], by decide⟩, [], []⟩, ["default"], ⟨[(0, .add "acme")], by decide⟩⟩

end ThesadaApp.TenantCache
