import Mathlib.Data.List.Basic
import Mathlib.Tactic.Common

/-!
Paths as lists of segments, some of which are nothing and some of which take the segment before them away. Read from the
left a path is a stack; read from the right each segment is kept or is one of those that are taken away.
-/

namespace DotSegments

/-- What a segment does. -/
inductive Kind where
  | skip
  | up
  | name
  deriving DecidableEq

variable {α : Type*} (kind : α → Kind)

/-- A segment after the ones that are left so far. Above the root there is nothing. -/
def push (stack : List α) (a : α) : List α :=
  match kind a with
  | .skip => stack
  | .up => stack.dropLast
  | .name => stack ++ [a]

def clean (segments : List α) : List α := segments.foldl (push kind) []

/-- The segments that nothing after them takes away, and how many are still to be taken away before. -/
def kept : List α → List α × Nat
  | [] => ([], 0)
  | a :: segments =>
      match kind a with
      | .skip => kept segments
      | .up => ((kept segments).1, (kept segments).2 + 1)
      | .name =>
          if (kept segments).2 = 0 then (a :: (kept segments).1, 0) else ((kept segments).1, (kept segments).2 - 1)

/-- The segments that are left of a path. -/
def survivors (segments : List α) : List α := (kept kind segments).1

variable {kind} {segments stack : List α} {a : α}

theorem foldl_push : segments.foldl (push kind) stack =
    stack.take (stack.length - (kept kind segments).2) ++ (kept kind segments).1 := by
  induction segments generalizing stack with
  | nil => simp [kept]
  | cons a segments ih =>
      rw [List.foldl_cons, ih, push, kept]
      cases kind a with
      | skip => rfl
      | up =>
          dsimp only
          rw [List.dropLast_eq_take, List.take_take, List.length_take]
          congr 2
          omega
      | name =>
          dsimp only
          rw [List.length_append, List.length_singleton]
          split_ifs with hzero
          · rw [hzero, Nat.sub_zero, Nat.sub_zero, List.take_of_length_le (by simp), List.take_length,
              List.append_assoc]
            rfl
          · have hle : stack.length + 1 - (kept kind segments).2 ≤ stack.length := by omega
            have hsub : stack.length + 1 - (kept kind segments).2 =
                stack.length - ((kept kind segments).2 - 1) := by omega
            rw [List.take_append_of_le_length hle, hsub]

/-- What the stack holds in the end is what survives. -/
theorem clean_eq_survivors : clean kind segments = survivors kind segments := by
  rw [clean, foldl_push, List.take_nil, List.nil_append, survivors]

theorem mem_of_mem_survivors (h : a ∈ survivors kind segments) : a ∈ segments ∧ kind a = .name := by
  rw [survivors] at h
  induction segments with
  | nil => exact absurd h List.not_mem_nil
  | cons b segments ih =>
      rw [kept] at h
      have hlater : a ∈ (kept kind segments).1 → a ∈ b :: segments ∧ kind a = .name := fun hmem =>
        ⟨List.mem_cons_of_mem _ (ih hmem).1, (ih hmem).2⟩
      cases hkind : kind b with
      | skip =>
          rw [hkind] at h
          exact hlater h
      | up =>
          rw [hkind] at h
          exact hlater h
      | name =>
          rw [hkind] at h
          dsimp only at h
          split_ifs at h
          · rcases List.mem_cons.mp h with rfl | hmem
            · exact ⟨List.mem_cons_self, hkind⟩
            · exact hlater hmem
          · exact hlater h

end DotSegments
