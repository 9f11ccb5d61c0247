import Mathlib.Data.List.Basic

/-!
Lists mapped by functions that may give nothing, and what is written and read back element by element.
-/

namespace PartialMap

variable {α β : Type*} {f : α → Option β} {g : α → β} {text : β → α} {xs : List α} {ys : List β}

theorem mapM_some (h : ∀ x ∈ xs, f x = some (g x)) : xs.mapM f = some (xs.map g) := by
  induction xs with
  | nil => rfl
  | cons x xs ih =>
      rw [List.mapM_cons, h x List.mem_cons_self, ih fun y hy => h y (List.mem_cons_of_mem x hy)]
      rfl

theorem mapM_none {x : α} (hx : x ∈ xs) (h : f x = none) : xs.mapM f = none := by
  induction xs with
  | nil => cases hx
  | cons y xs ih =>
      rw [List.mapM_cons]
      rcases List.mem_cons.mp hx with rfl | hx
      · rw [h]
        rfl
      · rw [ih hx]
        cases f y <;> rfl

/-- What is written element by element is read back. -/
theorem mapM_text (h : ∀ y ∈ ys, f (text y) = some y) : (ys.map text).mapM f = some ys := by
  rw [List.mapM_map]
  exact (mapM_some h).trans (congrArg some (List.map_id ys))

end PartialMap
