import Mathlib.Data.List.Sort
import Mathlib.Algebra.Order.Group.Int
import Mathlib.Tactic.Common

/-!
Sorting by a comparator, which gives a negative number when its first argument comes first, a positive one when its
second does and zero for a tie. What is sorted stands in order when the comparator is consistent on it.
-/

namespace SortComparator

variable {α : Type*} (cmp : α → α → Int)

/-- The comparator is a total preorder of the elements of a list. -/
structure Consistent (xs : List α) : Prop where
  antisymm : ∀ a ∈ xs, ∀ b ∈ xs, cmp a b = -cmp b a
  trans : ∀ a ∈ xs, ∀ b ∈ xs, ∀ c ∈ xs, cmp a b ≤ 0 → cmp b c ≤ 0 → cmp a c ≤ 0

/-- A stable sort. -/
def sort (xs : List α) : List α := xs.insertionSort fun a b => cmp a b ≤ 0

variable {cmp} {xs ys : List α} {a b c : α}

theorem sort_perm : (sort cmp xs).Perm xs := List.perm_insertionSort _ xs

theorem mem_sort : a ∈ sort cmp xs ↔ a ∈ xs := sort_perm.mem_iff

/-- Ties are transitive. -/
theorem Consistent.tie (h : Consistent cmp xs) (ha : a ∈ xs) (hb : b ∈ xs) (hc : c ∈ xs) (hab : cmp a b = 0)
    (hbc : cmp b c = 0) : cmp a c = 0 := by
  have hle : cmp a c ≤ 0 := h.trans a ha b hb c hc hab.le hbc.le
  have hba : cmp b a = 0 := by rw [h.antisymm b hb a ha, hab, neg_zero]
  have hcb : cmp c b = 0 := by rw [h.antisymm c hc b hb, hbc, neg_zero]
  have hge : cmp c a ≤ 0 := h.trans c hc b hb a ha hcb.le hba.le
  have hanti : cmp a c = -cmp c a := h.antisymm a ha c hc
  omega

/-- Every pair of what is sorted stands in order. -/
theorem Consistent.pairwise_sort (h : Consistent cmp xs) : (sort cmp xs).Pairwise fun a b => cmp a b ≤ 0 := by
  have htrans : IsTrans { a // a ∈ xs } fun a b => cmp a.val b.val ≤ 0 :=
    ⟨fun a b c hab hbc => h.trans a a.2 b b.2 c c.2 hab hbc⟩
  have htotal : Std.Total fun a b : { a // a ∈ xs } => cmp a.val b.val ≤ 0 := by
    refine ⟨fun a b => ?_⟩
    have hanti : cmp a.val b.val = -cmp b.val a.val := h.antisymm a a.2 b b.2
    omega
  have hmap : (xs.attach.insertionSort fun a b => cmp a.val b.val ≤ 0).map Subtype.val = sort cmp xs := by
    rw [List.map_insertionSort (r := fun a b : { a // a ∈ xs } => cmp a.val b.val ≤ 0)
      (s := fun a b => cmp a b ≤ 0) Subtype.val _ fun _ _ _ _ => Iff.rfl, List.attach_map_subtype_val]
    rfl
  rw [← hmap, List.pairwise_map]
  exact List.pairwise_insertionSort _ _

end SortComparator
