import Mathlib.Logic.Function.Basic
import ThesadaApp.OpenTxns

/-!
Transactions that hold locks until they end, in modes of which some go together.
-/

/-- A transaction holds a lock in a mode. -/
structure Grant (κ μ : Type*) where
  tx : Nat
  key : κ
  mode : μ
  deriving DecidableEq

/-- The transactions in progress, and the locks they hold. -/
structure ModeTxns (κ μ τ : Type*) where
  txn : Nat → Option τ
  grants : List (Grant κ μ)

namespace ModeTxns

variable {κ μ τ δ : Type*}

def idle : ModeTxns κ μ τ := ⟨fun _ => none, []⟩

def Held (s : ModeTxns κ μ τ) (tx : Nat) (k : κ) (m : μ) : Prop := ⟨tx, k, m⟩ ∈ s.grants

/-- The transactions with their locks. -/
abbrev opened (s : ModeTxns κ μ τ) : OpenTxns (κ → μ → Prop) τ := ⟨s.txn, s.Held⟩

/-- No other transaction holds the lock in a mode that does not go with this one. -/
def mayLock [DecidableEq κ] (compatible : μ → μ → Bool) (s : ModeTxns κ μ τ) (tx : Nat) (k : κ) (m : μ) : Bool :=
  s.grants.all fun g => g.tx = tx || g.key ≠ k || compatible g.mode m

def put (s : ModeTxns κ μ τ) (tx : Nat) (x : τ) : ModeTxns κ μ τ := { s with txn := Function.update s.txn tx (some x) }

def lock (s : ModeTxns κ μ τ) (tx : Nat) (k : κ) (m : μ) : ModeTxns κ μ τ := { s with grants := ⟨tx, k, m⟩ :: s.grants }

/-- The end of a transaction, which frees its locks. -/
def close (s : ModeTxns κ μ τ) (tx : Nat) : ModeTxns κ μ τ :=
  ⟨Function.update s.txn tx none, s.grants.filter fun g => g.tx ≠ tx⟩

/-- Two transactions hold one lock in modes that go together. -/
def Exclusive (compatible : μ → μ → Bool) (s : ModeTxns κ μ τ) : Prop :=
  ∀ i j k m m', s.Held i k m → s.Held j k m' → i ≠ j → compatible m m' = true

section lemmas

variable {s s' s'' : ModeTxns κ μ τ} {tx : Nat} {k : κ} {m : μ} {x : τ} {compatible : μ → μ → Bool}

@[simp] theorem put_txn : (s.put tx x).txn tx = some x := Function.update_self _ _ _

@[simp] theorem close_txn : (s.close tx).txn tx = none := Function.update_self _ _ _

theorem held_lock : (s.lock tx k m).Held tx k m := List.mem_cons_self

theorem Held.lock {j : Nat} {k' : κ} {m' : μ} (h : s.Held j k' m') : (s.lock tx k m).Held j k' m' :=
  List.mem_cons_of_mem _ h

theorem held_lock_iff {j : Nat} {k' : κ} {m' : μ} :
    (s.lock tx k m).Held j k' m' ↔ (j = tx ∧ k' = k ∧ m' = m) ∨ s.Held j k' m' := by
  rw [Held, ModeTxns.lock, List.mem_cons, Grant.mk.injEq]
  rfl

theorem held_close_iff {j : Nat} {k' : κ} {m' : μ} : (s.close tx).Held j k' m' ↔ s.Held j k' m' ∧ j ≠ tx := by
  rw [Held, close, List.mem_filter, decide_eq_true_eq]
  rfl

theorem Exclusive.idle : Exclusive compatible (idle : ModeTxns κ μ τ) := fun _ _ _ _ _ h => absurd h List.not_mem_nil

theorem Exclusive.put (h : Exclusive compatible s) : Exclusive compatible (s.put tx x) := h

theorem Exclusive.lock [DecidableEq κ] (hsymm : ∀ m m', compatible m m' = compatible m' m) (h : Exclusive compatible s)
    (hmay : s.mayLock compatible tx k m = true) : Exclusive compatible (s.lock tx k m) := by
  have hfree : ∀ j m', s.Held j k m' → j ≠ tx → compatible m' m = true := by
    intro j m' hj hne
    have hg := List.all_eq_true.mp hmay _ hj
    simpa [hne] using hg
  intro i j k' m₁ m₂ hi hj hne
  rcases held_lock_iff.mp hi with ⟨rfl, rfl, rfl⟩ | hi'
  · rcases held_lock_iff.mp hj with ⟨rfl, -, -⟩ | hj'
    · exact absurd rfl hne
    · rw [hsymm]
      exact hfree j m₂ hj' (Ne.symm hne)
  · rcases held_lock_iff.mp hj with ⟨rfl, rfl, rfl⟩ | hj'
    · exact hfree i m₁ hi' hne
    · exact h i j k' m₁ m₂ hi' hj' hne

theorem Exclusive.close (h : Exclusive compatible s) : Exclusive compatible (s.close tx) :=
  fun i j k m m' hi hj hne => h i j k m m' (held_close_iff.mp hi).1 (held_close_iff.mp hj).1 hne

/-- Only the part of `tx` differs. -/
abbrev Local (tx : Nat) (s s' : ModeTxns κ μ τ) : Prop := OpenTxns.Local tx s.opened s'.opened

theorem Local.put (s : ModeTxns κ μ τ) (tx : Nat) (x : τ) : Local tx s (s.put tx x) :=
  ⟨fun _ hj => Function.update_of_ne hj _ _, fun _ _ => rfl⟩

theorem Local.lock (s : ModeTxns κ μ τ) (tx : Nat) (k : κ) (m : μ) : Local tx s (s.lock tx k m) :=
  ⟨fun _ _ => rfl, fun _ hj => funext fun _ => funext fun _ =>
    propext (held_lock_iff.trans (or_iff_right fun h => hj h.1))⟩

theorem Local.close (s : ModeTxns κ μ τ) (tx : Nat) : Local tx s (s.close tx) :=
  ⟨fun _ hj => Function.update_of_ne hj _ _, fun _ hj => funext fun _ => funext fun _ =>
    propext (held_close_iff.trans (and_iff_left hj))⟩

end lemmas

/-- `P` holds of every transaction in progress, with its locks. -/
abbrev Each (P : δ → (κ → μ → Prop) → τ → Prop) (d : δ) (s : ModeTxns κ μ τ) : Prop := OpenTxns.Each P d s.opened

variable {P : δ → (κ → μ → Prop) → τ → Prop} {d d' : δ} {s s' : ModeTxns κ μ τ} {tx : Nat} {x : τ}

theorem Each.idle : Each P d (idle : ModeTxns κ μ τ) := fun _ _ h => by cases h

/-- A statement that takes no lock. -/
theorem Each.put (h : Each P d s) (hx : P d (s.Held tx) x) : Each P d (s.put tx x) :=
  h.goesOn (Local.put s tx x) (fun _ _ _ _ hj => hj) put_txn hx

/-- A statement that takes one. -/
theorem Each.lockPut {k : κ} {m : μ} (h : Each P d s) (hother : ∀ j x, P d (s.Held j) x → P d' (s.Held j) x)
    (hx : P d' ((s.lock tx k m).Held tx) x) : Each P d' ((s.lock tx k m).put tx x) :=
  h.goesOn ((Local.lock s tx k m).trans (Local.put _ tx x)) (fun j x _ _ => hother j x) put_txn hx

/-- The end of a transaction, with what it commits. -/
theorem Each.close (h : Each P d s)
    (hother : ∀ j x, j ≠ tx → s.txn j = some x → P d (s.Held j) x → P d' (s.Held j) x) : Each P d' (s.close tx) :=
  h.ends (Local.close s tx) hother close_txn

end ModeTxns
