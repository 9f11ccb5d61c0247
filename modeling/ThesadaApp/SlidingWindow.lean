import Mathlib.Algebra.Order.Group.Int
import Mathlib.Data.List.Basic
import Mathlib.Tactic.Common

/-!
Things that happen at points in time, counted in a window that slides over them. A window ends at a point in time,
which it includes, and does not include its other end. What is admitted while fewer than a maximum happened recently
never exceeds it in any window.
-/

namespace SlidingWindow

variable {α : Type*} (window : Int) (time : α → Int)

/-- The things that happened in the window before a point in time, or later. -/
def recent (now : Int) (xs : List α) : Nat := xs.countP fun x => now - window < time x

/-- The things that happened in the window that ends at a point in time. -/
def inWindow (now : Int) (xs : List α) : Nat := xs.countP fun x => now - window < time x && time x ≤ now

/-- No window has more than a maximum. -/
def Capped (max : Nat) (xs : List α) : Prop := ∀ now, inWindow window time now xs ≤ max

variable {window time} {max : Nat} {now now' : Int} {xs : List α} {x : α}

theorem inWindow_le_recent : inWindow window time now xs ≤ recent window time now xs :=
  List.countP_mono_left fun _ _ h => (Bool.and_eq_true_iff.mp h).1

/-- As time goes on less is recent. -/
theorem recent_anti (h : now ≤ now') : recent window time now' xs ≤ recent window time now xs :=
  List.countP_mono_left fun x _ hx => by
    rw [decide_eq_true_eq] at hx ⊢
    omega

/-- What happened earlier is less recent. -/
theorem recent_mono {time' : α → Int} (h : ∀ x ∈ xs, time x ≤ time' x) :
    recent window time now xs ≤ recent window time' now xs :=
  List.countP_mono_left fun x hx hrecent => by
    have hle := h x hx
    rw [decide_eq_true_eq] at hrecent ⊢
    omega

theorem capped_nil : Capped window time max [] := fun _ => Nat.zero_le max

/-- One more is admitted when fewer than the maximum are recent. -/
theorem Capped.snoc (h : Capped window time max xs) (hroom : recent window time (time x) xs < max) :
    Capped window time max (xs ++ [x]) := by
  intro now
  rw [inWindow, List.countP_append]
  by_cases hnow : time x ≤ now
  · have hless : inWindow window time now xs ≤ recent window time (time x) xs :=
      inWindow_le_recent.trans (recent_anti hnow)
    have hone : [x].countP (fun y => now - window < time y && time y ≤ now) ≤ 1 := List.countP_le_length
    rw [inWindow] at hless
    omega
  · have hnone : [x].countP (fun y => now - window < time y && time y ≤ now) = 0 := by
      simp [hnow]
    rw [hnone, Nat.add_zero]
    exact h now

/-- What has been forgotten would not be recent later. -/
theorem filter_recent {cut cut' : Int} (h : cut ≤ cut') (times : List Int) :
    ((times.filter fun t => cut < t).filter fun t => cut' < t) = times.filter fun t => cut' < t := by
  rw [List.filter_filter]
  refine List.filter_congr fun t _ => ?_
  by_cases ht : cut' < t
  · have ht' : cut < t := h.trans_lt ht
    simp [ht, ht']
  · simp [ht]

/-- A window by where it starts, with its end and without its start. -/
theorem Capped.afterStart (h : Capped window time max xs) (start : Int) :
    xs.countP (fun x => start < time x && time x ≤ start + window) ≤ max := by
  have hcap := h (start + window)
  rw [inWindow, Int.add_sub_cancel] at hcap
  exact hcap

/-- A window by where it starts, with its start and without its end. -/
theorem Capped.fromStart (h : Capped window time max xs) (start : Int) :
    xs.countP (fun x => start ≤ time x && time x < start + window) ≤ max := by
  refine le_trans (List.countP_mono_left fun x _ hx => ?_) (h (start + window - 1))
  simp only [Bool.and_eq_true, decide_eq_true_eq] at hx ⊢
  omega

/-- Fewer things are capped as well. -/
theorem Capped.sublist {ys : List α} (h : Capped window time max xs) (hsub : ys.Sublist xs) :
    Capped window time max ys :=
  fun now => (hsub.countP_le).trans (h now)

end SlidingWindow
