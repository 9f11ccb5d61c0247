import Mathlib.Data.List.Induction
import ThesadaApp.MachineRun
import ThesadaApp.RowLocks

/-!
A table of current rows beside a history that names the predecessor of each entry. A call is one transaction under
READ COMMITTED: it reads the fingerprint of the row without a lock, upserts the row, which locks it until the end, and
appends an entry with the fingerprint it has read. The history is a chain as long as that fingerprint is still the one
of the row when it is upserted.
-/

/-- What the transaction of a call writes, and whether the row is one the call may see and write. -/
structure LoggedUpsert.Request (κ ρ : Type*) where
  key : κ
  row : ρ
  sees : Bool

/-- Rows `ρ` at keys `κ` with fingerprints `φ`, written by calls `γ`. -/
structure LoggedUpsert (κ ρ φ γ : Type*) where
  fingerprint : ρ → φ
  /-- What a call that is not refused at once writes. -/
  prepare : γ → Option (LoggedUpsert.Request κ ρ)
  /-- An entry is appended, after a row with that fingerprint. -/
  logs : Option φ → ρ → Bool
  unlogged {prev : Option φ} {row : ρ} : logs prev row = false → prev = some (fingerprint row)

namespace LoggedUpsert

variable {κ ρ φ γ : Type*}

structure Entry (κ ρ φ : Type*) where
  key : κ
  row : ρ
  prev : Option φ
  deriving DecidableEq

section chains

variable (P : LoggedUpsert κ ρ φ γ)

/-- Each entry names the one before it, and the first what was there before. -/
def Linked (before : Option φ) : List (Entry κ ρ φ) → Prop
  | [] => True
  | e :: es => e.prev = before ∧ Linked (some (P.fingerprint e.row)) es

/-- The fingerprint of the newest entry, or what was there before. -/
def newest (before : Option φ) : List (Entry κ ρ φ) → Option φ
  | [] => before
  | e :: es => newest (some (P.fingerprint e.row)) es

variable {P} {before : Option φ} {es : List (Entry κ ρ φ)} {e : Entry κ ρ φ}

theorem linked_concat : Linked P before (es ++ [e]) ↔ Linked P before es ∧ e.prev = newest P before es := by
  induction es generalizing before with
  | nil => exact ⟨fun h => ⟨trivial, h.1⟩, fun h => ⟨h.2, trivial⟩⟩
  | cons x es ih => rw [List.cons_append, Linked, Linked, newest, ih, and_assoc]

theorem newest_concat : newest P before (es ++ [e]) = some (P.fingerprint e.row) := by
  induction es generalizing before with
  | nil => rfl
  | cons x es ih => rw [List.cons_append, newest, ih]

theorem newest_eq : newest P none es = es.getLast?.map fun e => P.fingerprint e.row := by
  induction es using List.reverseRecOn with
  | nil => rfl
  | append_singleton es e => rw [newest_concat, List.getLast?_concat, Option.map_some]

/-- A chain by its places: the first entry has no predecessor and the others have the entry before them. -/
theorem linked_iff : Linked P before es ↔ ∀ i e, es[i]? = some e →
    e.prev = if i = 0 then before else (es[i - 1]?).map fun x => P.fingerprint x.row := by
  induction es generalizing before with
  | nil => exact ⟨fun _ i e he => (by cases he), fun _ => trivial⟩
  | cons x es ih =>
      rw [Linked, ih]
      constructor
      · rintro ⟨hx, hes⟩ i e he
        cases i with
        | zero =>
            cases he
            exact hx
        | succ i =>
            have hi := hes i e he
            rw [hi]
            cases i <;> rfl
      · intro h
        refine ⟨h 0 x rfl, fun i e he => ?_⟩
        have hi := h (i + 1) e he
        rw [hi]
        cases i <;> rfl

end chains

/-- The committed rows, and the history in the order of the commits. -/
structure Tables (κ ρ φ : Type*) where
  row : κ → Option ρ
  history : List (Entry κ ρ φ)

inductive Point (φ : Type*) where
  | start
  | read (prev : Option φ)
  | upserted (prev : Option φ)
  | commit (prev : Option φ) (logged : Bool)

structure Txn (κ ρ φ : Type*) where
  request : Request κ ρ
  point : Point φ

structure State (κ ρ φ : Type*) where
  tables : Tables κ ρ φ
  txns : Txns κ (Txn κ ρ φ)

inductive Action (γ : Type*) where
  | begin (tx : Nat) (call : γ)
  | next (tx : Nat)
  | rollback (tx : Nat)

inductive Event where
  | refused
  | statement
  | committed
  | failed
  deriving DecidableEq

variable [DecidableEq κ] (P : LoggedUpsert κ ρ φ γ)

/-- The tables after the commit of an upsert. -/
def Tables.commit (d : Tables κ ρ φ) (r : Request κ ρ) (prev : Option φ) (logged : Bool) : Tables κ ρ φ where
  row := Function.update d.row r.key (some r.row)
  history := if logged then d.history ++ [⟨r.key, r.row, prev⟩] else d.history

def stepTxn (s : State κ ρ φ) (tx : Nat) (t : Txn κ ρ φ) : Option (State κ ρ φ × Event) :=
  match t.point with
  | .start =>
      let prev := if t.request.sees then (s.tables.row t.request.key).map P.fingerprint else none
      some ({ s with txns := s.txns.put tx { t with point := .read prev } }, .statement)
  | .read prev =>
      -- the INSERT waits for whoever has written the row, and then updates it
      if t.request.sees && s.txns.mayLock tx t.request.key then
        some ({ s with txns := (s.txns.lock tx t.request.key).put tx { t with point := .upserted prev } }, .statement)
      else none
  | .upserted prev =>
      let point := .commit prev (P.logs prev t.request.row)
      some ({ s with txns := s.txns.put tx { t with point := point } }, .statement)
  | .commit prev logged => some (⟨s.tables.commit t.request prev logged, s.txns.close tx⟩, .committed)

def step (s : State κ ρ φ) : Action γ → Option (State κ ρ φ × Event)
  | .begin tx call =>
      if (s.txns.txn tx).isSome then none
      else
        match P.prepare call with
        | none => some (s, .refused)
        | some request => some ({ s with txns := s.txns.put tx ⟨request, .start⟩ }, .statement)
  | .next tx => (s.txns.txn tx).bind fun t => stepTxn P s tx t
  | .rollback tx => if (s.txns.txn tx).isNone then none else some ({ s with txns := s.txns.close tx }, .failed)

def machine : Machine (State κ ρ φ) (Action γ) Event := ⟨step P⟩

def start (d : Tables κ ρ φ) : State κ ρ φ := ⟨d, .idle⟩

section commits

/-- The history of one row. -/
def Tables.historyOf (d : Tables κ ρ φ) (k : κ) : List (Entry κ ρ φ) := d.history.filter fun e => e.key = k

/-- The history of the row is a chain from nothing to the row as it is. -/
structure Chained (d : Tables κ ρ φ) (k : κ) : Prop where
  linked : Linked P none (d.historyOf k)
  newest : newest P none (d.historyOf k) = (d.row k).map P.fingerprint

variable {P} {d : Tables κ ρ φ} {k : κ} {r : Request κ ρ} {prev : Option φ}

theorem historyOf_commit (logged : Bool) : (d.commit r prev logged).historyOf k =
    if logged ∧ r.key = k then d.historyOf k ++ [⟨r.key, r.row, prev⟩] else d.historyOf k := by
  cases logged with
  | false => rfl
  | true =>
      have hhistory : (d.commit r prev true).historyOf k = d.historyOf k ++
          [(⟨r.key, r.row, prev⟩ : Entry κ ρ φ)].filter fun e => e.key = k := List.filter_append _ _
      rw [hhistory]
      by_cases hk : r.key = k
      · simp [hk]
      · simp [hk]

/-- A commit leaves the histories of other rows as they are. -/
theorem Chained.commit_other (h : Chained P d k) (hk : r.key ≠ k) (logged : Bool) :
    Chained P (d.commit r prev logged) k := by
  have hhistory : (d.commit r prev logged).historyOf k = d.historyOf k := by
    rw [historyOf_commit, if_neg fun hboth => hk hboth.2]
  have hrow : (d.commit r prev logged).row k = d.row k := Function.update_of_ne (Ne.symm hk) _ _
  exact ⟨hhistory ▸ h.linked, by rw [hhistory, hrow]; exact h.newest⟩

/-- A commit keeps the history of its row a chain exactly if the fingerprint it has read is still the one of the
row. -/
theorem Chained.commit_iff (h : Chained P d r.key) : Chained P (d.commit r prev (P.logs prev r.row)) r.key ↔
    prev = (d.row r.key).map P.fingerprint := by
  have hrow : (d.commit r prev (P.logs prev r.row)).row r.key = some r.row := Function.update_self _ _ _
  cases hlogs : P.logs prev r.row with
  | true =>
      have hhistory : (d.commit r prev true).historyOf r.key = d.historyOf r.key ++ [⟨r.key, r.row, prev⟩] := by
        rw [historyOf_commit, if_pos ⟨rfl, rfl⟩]
      rw [hlogs] at hrow
      rw [← h.newest]
      constructor
      · intro hchained
        have hlinked := hchained.linked
        rw [hhistory] at hlinked
        exact (linked_concat.mp hlinked).2
      · intro hprev
        refine ⟨?_, ?_⟩
        · rw [hhistory]
          exact linked_concat.mpr ⟨h.linked, hprev⟩
        · rw [hhistory, newest_concat, hrow]
          rfl
  | false =>
      -- nothing is appended, so the row must have had the fingerprint before
      have hhistory : (d.commit r prev false).historyOf r.key = d.historyOf r.key := historyOf_commit false
      rw [hlogs] at hrow
      obtain rfl := P.unlogged hlogs
      constructor
      · intro hchained
        have hnewest := hchained.newest
        rw [hhistory, hrow, h.newest] at hnewest
        exact hnewest.symm
      · intro hprev
        refine ⟨hhistory ▸ h.linked, ?_⟩
        rw [hhistory, hrow, h.newest, ← hprev]
        rfl

end commits

section runs

variable {P} {d : Tables κ ρ φ} {s s' : State κ ρ φ} {a : Action γ} {e : Event} {log : List Event} {tx : Nat}
  {t : Txn κ ρ φ}

/-- The fingerprint that a transaction has read is the one of the row when it upserts it. -/
def Unraced (P : LoggedUpsert κ ρ φ γ) (_ : List Event) (s : State κ ρ φ) (a : Action γ) : Prop :=
  match a with
  | .next tx =>
      match s.txns.txn tx with
      | some ⟨request, .read prev⟩ => prev = (s.tables.row request.key).map P.fingerprint
      | _ => True
  | _ => True

instance [DecidableEq φ] (log : List Event) (s : State κ ρ φ) (a : Action γ) : Decidable (Unraced P log s a) := by
  unfold Unraced
  split
  · split <;> infer_instance
  · infer_instance

/-- A transaction that has upserted holds its row, whose fingerprint is the one it has read. -/
def TxnInv (P : LoggedUpsert κ ρ φ γ) (d : Tables κ ρ φ) (held : κ → Prop) (t : Txn κ ρ φ) : Prop :=
  match t.point with
  | .start | .read _ => True
  | .upserted prev => held t.request.key ∧ prev = (d.row t.request.key).map P.fingerprint
  | .commit prev logged => held t.request.key ∧ prev = (d.row t.request.key).map P.fingerprint ∧
      logged = P.logs prev t.request.row

structure Inv (P : LoggedUpsert κ ρ φ γ) (s : State κ ρ φ) : Prop where
  each : s.txns.Each (TxnInv P) s.tables
  chained : ∀ k, Chained P s.tables k

omit [DecidableEq κ] in
theorem TxnInv.of_row {d' : Tables κ ρ φ} {held : κ → Prop} (h : TxnInv P d held t)
    (hrow : held t.request.key → d'.row t.request.key = d.row t.request.key) : TxnInv P d' held t := by
  unfold TxnInv at *
  split at h
  · exact trivial
  · exact trivial
  · exact ⟨h.1, by rw [hrow h.1]; exact h.2⟩
  · exact ⟨h.1, by rw [hrow h.1]; exact h.2⟩

theorem inv_stepTxn (h : Inv P s) (ht : s.txns.txn tx = some t)
    (hok : ∀ prev, t.point = .read prev → prev = (s.tables.row t.request.key).map P.fingerprint)
    (hstep : stepTxn P s tx t = some (s', e)) : Inv P s' := by
  have hown := h.each tx t ht
  unfold stepTxn at hstep
  split at hstep
  · cases hstep
    exact ⟨h.each.put trivial, h.chained⟩
  · next prev hpoint =>
      split_ifs at hstep with hfree
      cases hstep
      refine ⟨h.each.lockPut (Bool.and_eq_true_iff.mp hfree).2 ⟨Txns.held_lock, hok prev hpoint⟩, h.chained⟩
  · next prev hpoint =>
      cases hstep
      rw [TxnInv, hpoint] at hown
      exact ⟨h.each.put ⟨hown.1, hown.2, rfl⟩, h.chained⟩
  · next prev logged hpoint =>
      cases hstep
      rw [TxnInv, hpoint] at hown
      obtain ⟨hheld, hprev, rfl⟩ := hown
      refine ⟨h.each.close fun j x hj hx hinv => hinv.of_row fun hheldx => ?_, fun k => ?_⟩
      · refine Function.update_of_ne ?_ _ _
        intro hkey
        rw [hkey] at hheldx
        exact hj (Txns.Held.unique hheldx hheld)
      · by_cases hk : t.request.key = k
        · subst hk
          exact (h.chained _).commit_iff.mpr hprev
        · exact (h.chained k).commit_other hk _

theorem inv_step (h : Inv P s) (hok : Unraced P log s a) (hstep : step P s a = some (s', e)) : Inv P s' := by
  cases a with
  | begin tx call =>
      rw [step] at hstep
      split_ifs at hstep
      split at hstep
      · cases hstep
        exact h
      · cases hstep
        exact ⟨h.each.put trivial, h.chained⟩
  | next tx =>
      obtain ⟨t, ht, hstep⟩ := Option.bind_eq_some_iff.mp hstep
      refine inv_stepTxn h ht (fun prev hpoint => ?_) hstep
      obtain ⟨request, point⟩ := t
      obtain rfl : point = .read prev := hpoint
      simp only [Unraced, ht] at hok
      exact hok
  | rollback tx =>
      rw [step] at hstep
      split_ifs at hstep
      cases hstep
      exact ⟨h.each.close fun _ _ _ _ hinv => hinv, h.chained⟩

/-- Where no fingerprint has changed between its reading and the upsert, every history is a chain to its row. -/
theorem chained_of_runIf (hstart : ∀ k, Chained P d k) (hrun : (machine P).RunIf (Unraced P) (start d) log s) (k : κ) :
    Chained P s.tables k := by
  have hinv : Inv P s := hrun.invariant (fun _ s => Inv P s) ⟨Txns.Each.idle, hstart⟩
    fun log s a s' e h hok hstep => inv_step h hok hstep
  exact hinv.chained k

end runs

end LoggedUpsert
