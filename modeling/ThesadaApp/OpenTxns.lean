import Mathlib.Tactic.Common

/-!
Transactions in progress, each with the locks it holds, whatever a lock is. What holds of one of them may depend on
shared data and on its locks: a step of another keeps it as soon as the change of the data does, for no lock but its own
is touched by it.
-/

/-- The transactions in progress, and what each of them holds. -/
structure OpenTxns (η τ : Type*) where
  txn : Nat → Option τ
  held : Nat → η

namespace OpenTxns

variable {η τ δ : Type*} {s s' s'' : OpenTxns η τ} {P : δ → η → τ → Prop} {d d' : δ} {tx : Nat} {x : τ}

/-- Only the part of `tx` differs. -/
structure Local (tx : Nat) (s s' : OpenTxns η τ) : Prop where
  txn : ∀ j, j ≠ tx → s'.txn j = s.txn j
  held : ∀ j, j ≠ tx → s'.held j = s.held j

theorem Local.refl (s : OpenTxns η τ) : Local tx s s := ⟨fun _ _ => rfl, fun _ _ => rfl⟩

theorem Local.trans (h : Local tx s s') (h' : Local tx s' s'') : Local tx s s'' :=
  ⟨fun j hj => (h'.txn j hj).trans (h.txn j hj), fun j hj => (h'.held j hj).trans (h.held j hj)⟩

/-- `P` holds of every transaction in progress, with its locks. -/
def Each (P : δ → η → τ → Prop) (d : δ) (s : OpenTxns η τ) : Prop := ∀ tx x, s.txn tx = some x → P d (s.held tx) x

/-- A step of one transaction: of the others nothing is asked but that the new data still serve them, with locks that
`tx` does not hold. -/
theorem Each.step (h : Each P d s) (hlocal : Local tx s s')
    (hother : ∀ j x, j ≠ tx → s.txn j = some x → P d (s.held j) x → P d' (s.held j) x)
    (hown : ∀ x, s'.txn tx = some x → P d' (s'.held tx) x) : Each P d' s' := by
  intro j x hx
  by_cases hj : j = tx
  · subst hj
    exact hown x hx
  · rw [hlocal.txn j hj] at hx
    rw [hlocal.held j hj]
    exact hother j x hj hx (h j x hx)

/-- A transaction that goes on. -/
theorem Each.goesOn (h : Each P d s) (hlocal : Local tx s s')
    (hother : ∀ j x, j ≠ tx → s.txn j = some x → P d (s.held j) x → P d' (s.held j) x) (htx : s'.txn tx = some x)
    (hx : P d' (s'.held tx) x) : Each P d' s' := by
  refine h.step hlocal hother fun y hy => ?_
  obtain rfl := Option.some.inj (htx.symm.trans hy)
  exact hx

/-- A transaction that ends. -/
theorem Each.ends (h : Each P d s) (hlocal : Local tx s s')
    (hother : ∀ j x, j ≠ tx → s.txn j = some x → P d (s.held j) x → P d' (s.held j) x) (htx : s'.txn tx = none) :
    Each P d' s' :=
  h.step hlocal hother fun _ hy => absurd (htx.symm.trans hy) (Option.some_ne_none _).symm

end OpenTxns
