import Mathlib.Logic.Function.Basic
import ThesadaApp.MachineRun

/-!
A table of locks, one for each key, as the specification of mutual exclusion: a free lock can be
taken, and only its owner gives it up. An implementation that this machine simulates gives each key
to one owner at a time, whatever it stores.
-/

/-- The owner of each key's lock. -/
abbrev LockTable (κ ω : Type*) := κ → Option ω

namespace LockTable

inductive Op (κ ω : Type*) where
  | acquire (k : κ) (w : ω)
  | release (k : κ) (w : ω)

section step

variable {κ ω : Type*} [DecidableEq κ] [DecidableEq ω]

/-- Taking a lock needs it free, giving it up needs to own it. -/
def step (t : LockTable κ ω) : Op κ ω → Option (LockTable κ ω × Unit)
  | .acquire k w => if t k = none then some (Function.update t k (some w), ()) else none
  | .release k w => if t k = some w then some (Function.update t k none, ()) else none

def machine (κ ω : Type*) [DecidableEq κ] [DecidableEq ω] : Machine (LockTable κ ω) (Op κ ω) Unit where
  step := step

theorem acquire_run {t : LockTable κ ω} {k : κ} (w : ω) (hfree : t k = none) :
    (machine κ ω).Run t [()] (Function.update t k (some w)) := by
  refine Machine.Run.one (a := Op.acquire k w) ?_
  simp [machine, step, hfree]

theorem release_run {t : LockTable κ ω} {k : κ} {w : ω} (hown : t k = some w) :
    (machine κ ω).Run t [()] (Function.update t k none) := by
  refine Machine.Run.one (a := Op.release k w) ?_
  simp [machine, step, hown]

end step

/-- An implementation refines a lock table when its `held` function, from the agents to the key each
of them holds, is the table read backwards and its set of taken keys is the table's domain. -/
structure Refines {κ ω : Type*} (held : ω → Option κ) (taken : κ → Prop) (t : LockTable κ ω) : Prop where
  owner_iff (k : κ) (w : ω) : t k = some w ↔ held w = some k
  taken_iff (k : κ) : taken k ↔ t k ≠ none

namespace Refines

variable {κ ω : Type*} {held held' : ω → Option κ} {taken taken' : κ → Prop} {t : LockTable κ ω}

/-- Two agents that hold the same key are one. -/
theorem unique (h : Refines held taken t) {k : κ} {w w' : ω} (hw : held w = some k)
    (hw' : held w' = some k) : w = w' := by
  have hown := (h.owner_iff k w).mpr hw
  rw [(h.owner_iff k w').mpr hw'] at hown
  exact (Option.some.inj hown).symm

variable [DecidableEq κ]

/-- An agent that holds nothing takes a key that is not taken. -/
theorem acquire [DecidableEq ω] (h : Refines held taken t) {k : κ} {w : ω} (hfree : ¬ taken k) (hw : held w = none)
    (hheld : held' = Function.update held w (some k)) (htaken : ∀ k', taken' k' ↔ k' = k ∨ taken k') :
    Refines held' taken' (Function.update t k (some w)) := by
  have hnone : t k = none := by
    by_contra hsome
    exact hfree ((h.taken_iff k).mpr hsome)
  subst hheld
  constructor
  · intro k' w'
    have howner := h.owner_iff k' w'
    by_cases hk : k' = k <;> by_cases hww : w' = w <;> simp_all [eq_comm]
  · intro k'
    rw [htaken, h.taken_iff]
    by_cases hk : k' = k <;> simp [hk]

/-- The holder of a key gives it up. -/
theorem release [DecidableEq ω] (h : Refines held taken t) {k : κ} {w : ω} (hw : held w = some k)
    (hheld : held' = Function.update held w none) (htaken : ∀ k', taken' k' ↔ k' ≠ k ∧ taken k') :
    Refines held' taken' (Function.update t k none) := by
  have hown := (h.owner_iff k w).mpr hw
  subst hheld
  constructor
  · intro k' w'
    have howner := h.owner_iff k' w'
    by_cases hk : k' = k <;> by_cases hww : w' = w <;> simp_all [eq_comm]
  · intro k'
    rw [htaken, h.taken_iff]
    by_cases hk : k' = k <;> simp [hk]

end Refines

end LockTable
