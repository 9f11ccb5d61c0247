import Mathlib.Data.List.Induction
import ThesadaApp.MachineRun
import ThesadaApp.RowLocks
import ThesadaApp.SecretKeys

/-!
Rotations of the root KEK and the minting of DEKs, statement by statement under READ COMMITTED. A statement sees what
was committed when it began. An UPDATE holds its row, and an INSERT its key, until the transaction ends; another that
wants it waits. A rollback may come at any time.
-/

namespace ThesadaApp.Secrets.Kek

/-- The key of the processes that mint and rotate, and the one they rotate to. -/
structure Config (ν β : Type) where
  gcm : Gcm ν β
  kek : Key
  newKEK : Key

/-- The statement a transaction is at, with what it has read and written. -/
inductive Point (ν β : Type) where
  /-- `RotateRootKEK`, at its SELECT. -/
  | scan
  /-- The loop, with the rows that are left and the updates so far. -/
  | loop (rest : List (DekRow β)) (res : RotationResult) (updates : List (Slug × β))
  /-- `ensureTenantDEKTx`, at its INSERT ON CONFLICT DO NOTHING. -/
  | mint (tenantID : Slug) (draw : Draw ν)
  /-- After it, with the row it has inserted. -/
  | minted (row : Option (DekRow β))

structure State (ν β : Type) where
  rows : DekTable β
  txns : Txns Slug (Point ν β)

def start {ν β : Type} (rows : DekTable β) : State ν β := ⟨rows, .idle⟩

inductive Action (ν : Type) where
  | rotate (tx : Nat)
  /-- The SELECT of a rotation, with the places of the rows in the order it gives them. -/
  | scan (tx : Nat) (order : List Nat)
  | mint (tx : Nat) (tenantID : Slug) (draw : Draw ν)
  | next (tx : Nat) (nonce : ν)
  | rollback (tx : Nat)

inductive Event where
  | statement
  | scanned (tx : Nat)
  /-- A rotation has committed, with its result. -/
  | reported (tx : Nat) (res : RotationResult)
  | minted (tenantID : Slug)
  | failed
  deriving DecidableEq

def Event.isMint : Event → Bool
  | .minted _ => true
  | _ => false

section step

variable {ν β : Type}

def State.put (s : State ν β) (tx : Nat) (p : Point ν β) : State ν β := { s with txns := s.txns.put tx p }

def State.lock (s : State ν β) (tx : Nat) (t : Slug) : State ν β := { s with txns := s.txns.lock tx t }

def State.close (s : State ν β) (tx : Nat) : State ν β := { s with txns := s.txns.close tx }

/-- The updates of a rotation become visible. -/
def applyUpdates (rows : DekTable β) (updates : List (Slug × β)) : DekTable β :=
  updates.foldl (fun rows u => rewrap rows u.1 u.2) rows

/-- A row in the loop of `RotateRootKEK`. -/
def stepRow (cfg : Config ν β) (s : State ν β) (tx : Nat) (nonce : ν) (row : DekRow β) (rest : List (DekRow β))
    (res : RotationResult) (updates : List (Slug × β)) : Option (State ν β × Event) :=
  match unwrapDEK cfg.gcm cfg.kek row.wrappedDEK (dekAAD row.tenantID) with
  | none =>
      some (if (unwrapDEK cfg.gcm cfg.newKEK row.wrappedDEK (dekAAD row.tenantID)).isSome then
        (s.put tx (.loop rest { res with alreadyNew := res.alreadyNew + 1 } updates), .statement)
      else (s.close tx, .failed))
  | some dek =>
      if s.txns.mayLock tx row.tenantID then
        let rewrapped := wrapDEK cfg.gcm cfg.newKEK nonce dek (dekAAD row.tenantID)
        some ((s.lock tx row.tenantID).put tx
          (.loop rest { res with rotated := res.rotated + 1 } (updates ++ [(row.tenantID, rewrapped)])), .statement)
      else none

/-- The rows of a table in some order. -/
def rowsInOrder (rows : DekTable β) (order : List Nat) : List (DekRow β) := order.filterMap fun i => rows.rows[i]?

def stepScan (s : State ν β) (tx : Nat) (order : List Nat) : Point ν β → Option (State ν β × Event)
  | .scan =>
      if order.Perm (List.range s.rows.rows.length) then
        some (s.put tx (.loop (rowsInOrder s.rows order) ⟨0, 0⟩ []), .scanned tx)
      else none
  | _ => none

def stepPoint (cfg : Config ν β) (s : State ν β) (tx : Nat) (nonce : ν) : Point ν β → Option (State ν β × Event)
  | .scan => none
  | .loop (row :: rest) res updates => stepRow cfg s tx nonce row rest res updates
  | .loop [] res updates => some ({ s.close tx with rows := applyUpdates s.rows updates }, .reported tx res)
  | .mint t draw =>
      if s.rows.find t = none then
        if s.txns.mayLock tx t then
          some ((s.lock tx t).put tx (.minted (some ⟨t, wrapDEK cfg.gcm cfg.kek draw.dekNonce draw.dek (dekAAD t), 1⟩)),
            .statement)
        else none
      else some (s.put tx (.minted none), .statement)
  | .minted none => some (s.close tx, .statement)
  | .minted (some row) =>
      some (if h : s.rows.find row.tenantID = none then
        ({ s.close tx with rows := s.rows.insert row h }, .minted row.tenantID)
      else (s.close tx, .failed))

def step (cfg : Config ν β) (s : State ν β) : Action ν → Option (State ν β × Event)
  | .rotate tx => if (s.txns.txn tx).isSome then none else some (s.put tx .scan, .statement)
  | .scan tx order => (s.txns.txn tx).bind (stepScan s tx order)
  | .mint tx t draw => if (s.txns.txn tx).isSome then none else some (s.put tx (.mint t draw), .statement)
  | .next tx nonce => (s.txns.txn tx).bind (stepPoint cfg s tx nonce)
  | .rollback tx => if (s.txns.txn tx).isNone then none else some (s.close tx, .failed)

def system (cfg : Config ν β) : Machine (State ν β) (Action ν) Event where
  step := step cfg

/-- All that a step can do, of the transaction `tx`. -/
inductive Change (cfg : Config ν β) (s : State ν β) (tx : Nat) : State ν β → Event → Prop
  | begun (p : Point ν β) (hp : p = .scan ∨ ∃ t draw, p = .mint t draw) : Change cfg s tx (s.put tx p) .statement
  | ended (e : Event) (he : e = .failed ∨ e = .statement) : Change cfg s tx (s.close tx) e
  | scanned (rows : List (DekRow β)) (hp : s.txns.txn tx = some .scan) (hrows : rows.Perm s.rows.rows) :
      Change cfg s tx (s.put tx (.loop rows ⟨0, 0⟩ [])) (.scanned tx)
  | already (row : DekRow β) (rest : List (DekRow β)) (res : RotationResult) (updates : List (Slug × β))
      (hp : s.txns.txn tx = some (.loop (row :: rest) res updates))
      (hnew : (unwrapDEK cfg.gcm cfg.newKEK row.wrappedDEK (dekAAD row.tenantID)).isSome = true) :
      Change cfg s tx (s.put tx (.loop rest { res with alreadyNew := res.alreadyNew + 1 } updates)) .statement
  | rewrapped (row : DekRow β) (rest : List (DekRow β)) (res : RotationResult) (updates : List (Slug × β)) (nonce : ν)
      (dek : Key) (hp : s.txns.txn tx = some (.loop (row :: rest) res updates))
      (hold : unwrapDEK cfg.gcm cfg.kek row.wrappedDEK (dekAAD row.tenantID) = some dek)
      (hfree : s.txns.mayLock tx row.tenantID = true) :
      Change cfg s tx ((s.lock tx row.tenantID).put tx (.loop rest { res with rotated := res.rotated + 1 }
        (updates ++ [(row.tenantID, wrapDEK cfg.gcm cfg.newKEK nonce dek (dekAAD row.tenantID))]))) .statement
  | reported (res : RotationResult) (updates : List (Slug × β)) (hp : s.txns.txn tx = some (.loop [] res updates)) :
      Change cfg s tx { s.close tx with rows := applyUpdates s.rows updates } (.reported tx res)
  | inserted (t : Slug) (draw : Draw ν) (hfree : s.txns.mayLock tx t = true) :
      Change cfg s tx ((s.lock tx t).put tx
        (.minted (some ⟨t, wrapDEK cfg.gcm cfg.kek draw.dekNonce draw.dek (dekAAD t), 1⟩))) .statement
  | kept : Change cfg s tx (s.put tx (.minted none)) .statement
  | minted (row : DekRow β) (hp : s.txns.txn tx = some (.minted (some row)))
      (hnone : s.rows.find row.tenantID = none) :
      Change cfg s tx { s.close tx with rows := s.rows.insert row hnone } (.minted row.tenantID)

variable {cfg : Config ν β} {s s' : State ν β} {tx : Nat} {nonce : ν} {p : Point ν β} {a : Action ν} {e : Event}

theorem rowsInOrder_range (rows : List (DekRow β)) : ((List.range rows.length).filterMap fun i => rows[i]?) = rows := by
  induction rows using List.reverseRecOn with
  | nil => rfl
  | append_singleton rows row ih =>
      have hsame : ((List.range rows.length).filterMap fun i => (rows ++ [row])[i]?) =
          (List.range rows.length).filterMap fun i => rows[i]? :=
        List.filterMap_congr fun i hi => List.getElem?_append_left (List.mem_range.mp hi)
      rw [List.length_append, List.length_singleton, List.range_succ, List.filterMap_append, hsame, ih]
      simp

theorem stepScan_change {order : List Nat} (hp : s.txns.txn tx = some p)
    (hstep : stepScan s tx order p = some (s', e)) :
    Change cfg s tx s' e := by
  cases p with
  | scan =>
      simp only [stepScan] at hstep
      split at hstep
      · next hperm =>
          obtain ⟨rfl, rfl⟩ := Prod.mk.inj (Option.some.inj hstep)
          have hrows := hperm.filterMap fun i => s.rows.rows[i]?
          rw [rowsInOrder_range] at hrows
          exact .scanned _ hp hrows
      · cases hstep
  | loop | mint | minted => cases hstep

theorem stepPoint_change (hp : s.txns.txn tx = some p) (hstep : stepPoint cfg s tx nonce p = some (s', e)) :
    Change cfg s tx s' e := by
  cases p with
  | scan => cases hstep
  | loop rest res updates =>
      cases rest with
      | nil =>
          obtain ⟨rfl, rfl⟩ := Prod.mk.inj (Option.some.inj hstep)
          exact .reported res updates hp
      | cons row rest =>
          simp only [stepPoint, stepRow] at hstep
          split at hstep
          · split at hstep
            · next hnew =>
                obtain ⟨rfl, rfl⟩ := Prod.mk.inj (Option.some.inj hstep)
                exact .already row rest res updates hp hnew
            · obtain ⟨rfl, rfl⟩ := Prod.mk.inj (Option.some.inj hstep)
              exact .ended _ (.inl rfl)
          · next dek hold =>
              split at hstep
              · next hfree =>
                  obtain ⟨rfl, rfl⟩ := Prod.mk.inj (Option.some.inj hstep)
                  exact .rewrapped row rest res updates nonce dek hp hold hfree
              · cases hstep
  | mint t draw =>
      simp only [stepPoint] at hstep
      split at hstep
      · split at hstep
        · next hfree =>
            obtain ⟨rfl, rfl⟩ := Prod.mk.inj (Option.some.inj hstep)
            exact .inserted t draw hfree
        · cases hstep
      · obtain ⟨rfl, rfl⟩ := Prod.mk.inj (Option.some.inj hstep)
        exact .kept
  | minted row =>
      cases row with
      | none =>
          obtain ⟨rfl, rfl⟩ := Prod.mk.inj (Option.some.inj hstep)
          exact .ended _ (.inr rfl)
      | some row =>
          simp only [stepPoint] at hstep
          split at hstep
          · next hnone =>
              obtain ⟨rfl, rfl⟩ := Prod.mk.inj (Option.some.inj hstep)
              exact .minted row hp hnone
          · obtain ⟨rfl, rfl⟩ := Prod.mk.inj (Option.some.inj hstep)
            exact .ended _ (.inl rfl)

theorem step_change (hstep : step cfg s a = some (s', e)) : ∃ tx, Change cfg s tx s' e := by
  cases a with
  | rotate tx =>
      simp only [step] at hstep
      split at hstep
      · cases hstep
      · obtain ⟨rfl, rfl⟩ := Prod.mk.inj (Option.some.inj hstep)
        exact ⟨tx, .begun _ (.inl rfl)⟩
  | scan tx order =>
      obtain ⟨p, hp, hstep⟩ := Option.bind_eq_some_iff.mp hstep
      exact ⟨tx, stepScan_change hp hstep⟩
  | mint tx t draw =>
      simp only [step] at hstep
      split at hstep
      · cases hstep
      · obtain ⟨rfl, rfl⟩ := Prod.mk.inj (Option.some.inj hstep)
        exact ⟨tx, .begun _ (.inr ⟨t, draw, rfl⟩)⟩
  | next tx nonce =>
      obtain ⟨p, hp, hstep⟩ := Option.bind_eq_some_iff.mp hstep
      exact ⟨tx, stepPoint_change hp hstep⟩
  | rollback tx =>
      simp only [step] at hstep
      split at hstep
      · cases hstep
      · obtain ⟨rfl, rfl⟩ := Prod.mk.inj (Option.some.inj hstep)
        exact ⟨tx, .ended _ (.inl rfl)⟩

end step

end ThesadaApp.Secrets.Kek
