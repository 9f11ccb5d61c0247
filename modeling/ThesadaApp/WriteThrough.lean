import Mathlib.Data.List.Basic
import Mathlib.Tactic.Common

/-!
A cache that is written after the truth it caches. Whoever changes the truth writes the entries he changed later, in a
step of his own. Every entry is right, or is still to be written, as long as each write is current when it happens.
-/

namespace WriteThrough

variable {κ ν : Type*}

/-- What a write makes of an entry, if it writes it. -/
abbrev Write (κ ν : Type*) := κ → Option ν

def apply (w : Write κ ν) (cache : κ → ν) : κ → ν := fun k => (w k).getD (cache k)

/-- The entry is one that a write to come will write. -/
def Awaited (pending : List (Write κ ν)) (k : κ) : Prop := ∃ w ∈ pending, (w k).isSome = true

/-- Every entry is right or awaits a write. -/
def Covered (truth cache : κ → ν) (pending : List (Write κ ν)) : Prop := ∀ k, cache k = truth k ∨ Awaited pending k

/-- What the write says is true, but for entries that another write is to come for. -/
def Current (truth : κ → ν) (others : List (Write κ ν)) (w : Write κ ν) : Prop :=
  ∀ k v, w k = some v → v = truth k ∨ Awaited others k

variable {truth truth' cache : κ → ν} {pending others : List (Write κ ν)} {w : Write κ ν}

theorem covered_nil : Covered truth cache [] ↔ cache = truth := by
  constructor
  · intro h
    funext k
    rcases h k with hk | ⟨w, hw, -⟩
    · exact hk
    · cases hw
  · rintro rfl k
    exact .inl rfl

theorem Awaited.mono {pending' : List (Write κ ν)} {k : κ} (h : Awaited pending k)
    (hsub : ∀ w ∈ pending, w ∈ pending') : Awaited pending' k := by
  obtain ⟨w, hw, hk⟩ := h
  exact ⟨w, hsub w hw, hk⟩

/-- A change of the truth, with the write that is to follow it. -/
theorem Covered.change (h : Covered truth cache pending) (hw : ∀ k, truth' k ≠ truth k → (w k).isSome = true) :
    Covered truth' cache (pending ++ [w]) := by
  intro k
  by_cases hk : truth' k = truth k
  · rw [hk]
    exact (h k).imp_right fun hwait => hwait.mono fun _ => List.mem_append_left _
  · exact .inr ⟨w, List.mem_append_right _ List.mem_cons_self, hw k hk⟩

/-- A write is made: everything stays covered exactly if it is current. -/
theorem Covered.apply_iff (h : Covered truth cache pending) (hpending : ∀ x ∈ pending, x = w ∨ x ∈ others) :
    Covered truth (apply w cache) others ↔ Current truth others w := by
  constructor
  · intro hcovered k v hv
    have hk := hcovered k
    rw [apply, hv, Option.getD_some] at hk
    exact hk
  · intro hcurrent k
    cases hv : w k with
    | some v =>
        rw [apply, hv, Option.getD_some]
        exact hcurrent k v hv
    | none =>
        rw [apply, hv, Option.getD_none]
        refine (h k).imp_right fun ⟨x, hx, hxk⟩ => ?_
        rcases hpending x hx with rfl | hx
        · rw [hv] at hxk
          cases hxk
        · exact ⟨x, hx, hxk⟩

end WriteThrough
