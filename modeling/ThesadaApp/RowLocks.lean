import Mathlib.Logic.Function.Basic
import ThesadaApp.OpenTxns

/-!
Transactions that hold locks until they end, each lock by one transaction at a time.
-/

/-- The transactions in progress, and the owner of each lock. -/
structure Txns (κ τ : Type*) where
  txn : Nat → Option τ
  locks : κ → Option Nat

namespace Txns

variable {κ τ δ : Type*}

def idle : Txns κ τ := ⟨fun _ => none, fun _ => none⟩

/-- The locks a transaction holds. -/
def Held (s : Txns κ τ) (tx : Nat) (k : κ) : Prop := s.locks k = some tx

theorem Held.unique {s : Txns κ τ} {i j : Nat} {k : κ} (hi : s.Held i k) (hj : s.Held j k) : i = j :=
  Option.some.inj (hi.symm.trans hj)

/-- The transactions with their locks. -/
abbrev opened (s : Txns κ τ) : OpenTxns (κ → Prop) τ := ⟨s.txn, s.Held⟩

/-- A lock nobody else holds. -/
def mayLock (s : Txns κ τ) (tx : Nat) (k : κ) : Bool := s.locks k = none || s.locks k = some tx

/-- A transaction is at `x` now. -/
def put (s : Txns κ τ) (tx : Nat) (x : τ) : Txns κ τ := { s with txn := Function.update s.txn tx (some x) }

def lock [DecidableEq κ] (s : Txns κ τ) (tx : Nat) (k : κ) : Txns κ τ :=
  { s with locks := Function.update s.locks k (some tx) }

/-- The end of a transaction, which frees its locks. -/
def close (s : Txns κ τ) (tx : Nat) : Txns κ τ :=
  ⟨Function.update s.txn tx none, fun k => if s.locks k = some tx then none else s.locks k⟩

/-- No transaction is in progress. -/
def Quiet (s : Txns κ τ) : Prop := ∀ tx, s.txn tx = none

section lemmas

variable {s s' s'' : Txns κ τ} {tx : Nat} {k : κ} {x : τ}

@[simp] theorem put_txn : (s.put tx x).txn tx = some x := Function.update_self _ _ _

@[simp] theorem close_txn : (s.close tx).txn tx = none := Function.update_self _ _ _

theorem held_lock [DecidableEq κ] : (s.lock tx k).Held tx k := Function.update_self _ _ _

/-- A transaction keeps its locks when it takes another. -/
theorem Held.lock [DecidableEq κ] {k' : κ} (h : s.Held tx k') : (s.lock tx k).Held tx k' := by
  by_cases hk : k' = k
  · rw [hk]
    exact held_lock
  · exact (Function.update_of_ne hk _ _).trans h

/-- Only the part of `tx` differs. -/
abbrev Local (tx : Nat) (s s' : Txns κ τ) : Prop := OpenTxns.Local tx s.opened s'.opened

theorem Local.other (h : Local tx s s') {j : Nat} (hj : j ≠ tx) : s'.txn j = s.txn j := h.txn j hj

theorem Local.refl (s : Txns κ τ) : Local tx s s := OpenTxns.Local.refl _

theorem Local.put (s : Txns κ τ) (tx : Nat) (x : τ) : Local tx s (s.put tx x) :=
  ⟨fun _ hj => Function.update_of_ne hj _ _, fun _ _ => rfl⟩

theorem Local.lock [DecidableEq κ] (hfree : s.mayLock tx k = true) : Local tx s (s.lock tx k) := by
  refine ⟨fun _ _ => rfl, fun j hj => funext fun k' => propext ?_⟩
  by_cases hk : k' = k
  · subst hk
    rw [mayLock, Bool.or_eq_true, decide_eq_true_eq, decide_eq_true_eq] at hfree
    constructor
    · intro hheld
      exact absurd (Held.unique held_lock hheld).symm hj
    · intro hheld
      rcases hfree with hnone | hown
      · exact absurd (hnone.symm.trans hheld) (Option.some_ne_none j).symm
      · exact absurd (Held.unique hown hheld).symm hj
  · have hkept : (s.lock tx k).locks k' = s.locks k' := Function.update_of_ne hk _ _
    show (s.lock tx k).locks k' = some j ↔ s.locks k' = some j
    rw [hkept]

theorem Local.close (s : Txns κ τ) (tx : Nat) : Local tx s (s.close tx) := by
  refine ⟨fun _ hj => Function.update_of_ne hj _ _, fun j hj => funext fun k => propext ?_⟩
  show (if s.locks k = some tx then none else s.locks k) = some j ↔ s.locks k = some j
  split
  · next hown =>
      rw [hown]
      exact ⟨nofun, fun h => absurd (Option.some.inj h).symm hj⟩
  · exact Iff.rfl

end lemmas

/-- `P` holds of every transaction in progress, with its locks. -/
abbrev Each (P : δ → (κ → Prop) → τ → Prop) (d : δ) (s : Txns κ τ) : Prop := OpenTxns.Each P d s.opened

variable {P : δ → (κ → Prop) → τ → Prop} {d d' : δ} {s s' : Txns κ τ} {tx : Nat} {x : τ}

theorem Each.idle : Each P d (idle : Txns κ τ) := fun _ _ h => by cases h

/-- A statement that takes no lock. -/
theorem Each.put (h : Each P d s) (hx : P d (s.Held tx) x) : Each P d (s.put tx x) :=
  h.goesOn (Local.put s tx x) (fun _ _ _ _ hj => hj) put_txn hx

/-- A statement that takes one. -/
theorem Each.lockPut [DecidableEq κ] {k : κ} (h : Each P d s) (hfree : s.mayLock tx k = true)
    (hx : P d ((s.lock tx k).Held tx) x) : Each P d ((s.lock tx k).put tx x) :=
  h.goesOn ((Local.lock hfree).trans (Local.put _ tx x)) (fun _ _ _ _ hj => hj) put_txn hx

/-- The end of a transaction, with what it commits. -/
theorem Each.close (h : Each P d s)
    (hother : ∀ j x, j ≠ tx → s.txn j = some x → P d (s.Held j) x → P d' (s.Held j) x) : Each P d' (s.close tx) :=
  h.ends (Local.close s tx) hother close_txn

end Txns
