import Mathlib.Algebra.Order.Group.Abs
import Mathlib.Algebra.Order.Group.Int
import Mathlib.Tactic.Common

/-!
Points in time as a 64-bit number of seconds since the start of year 1 and a number of nanoseconds, and the
durations between them, 64-bit numbers of nanoseconds. Reading a unix time wraps, subtracting two points
saturates, and negating a duration wraps.
-/

namespace GoTime

/-- The seconds from the start of year 1 to the unix epoch. -/
def unixToInternal : Int64 := 62135596800

structure Instant where
  sec : Int64
  nsec : Fin 1000000000
  deriving DecidableEq, Repr

abbrev Duration := Int64

/-- The point in time at a number of seconds after the unix epoch. -/
def unix (sec : Int64) : Instant := ⟨sec + unixToInternal, 0⟩

namespace Instant

/-- The nanoseconds after the unix epoch. -/
def nanos (t : Instant) : Int := (t.sec.toInt - unixToInternal.toInt) * 1000000000 + t.nsec.val

/-- The duration from `u` to `t`, or the nearest there is. -/
def sub (t u : Instant) : Duration := Int64.ofIntClamp (t.nanos - u.nanos)

end Instant

/-- The absolute value of a duration as a program takes it. The least duration stays negative. -/
def absDuration (d : Duration) : Duration := if d < 0 then -d else d

/-- A number of seconds after the unix epoch that a point in time can hold. -/
def Representable (sec : Int64) : Prop := sec.toInt + unixToInternal.toInt < 2 ^ 63

instance (sec : Int64) : Decidable (Representable sec) := inferInstanceAs (Decidable (_ < _))

theorem toInt_unixToInternal : unixToInternal.toInt = 62135596800 := by decide

/-- A unix time is read as it is, or in the distant past when the seconds overflow. -/
theorem nanos_unix (sec : Int64) : (unix sec).nanos =
    if Representable sec then sec.toInt * 1000000000 else (sec.toInt - 2 ^ 64) * 1000000000 := by
  have hlow := sec.le_toInt
  have hhigh := sec.toInt_lt
  simp only [unix, Instant.nanos, Representable, Int64.toInt_add, toInt_unixToInternal, Int.bmod_def]
  split_ifs <;> simp <;> omega

/-- Clamping keeps the order to every duration in between. -/
theorem toInt_ofIntClamp (x : Int) :
    (Int64.ofIntClamp x).toInt = if x < -2 ^ 63 then -2 ^ 63 else if 2 ^ 63 ≤ x then 2 ^ 63 - 1 else x := by
  split_ifs with hlow hhigh
  · rw [Int64.ofIntClamp, dif_neg (by rw [Int64.toInt_minValue]; omega), Int64.toInt_minValue]
  · rw [Int64.ofIntClamp, dif_pos (by rw [Int64.toInt_minValue]; omega),
      dif_neg (by rw [Int64.toInt_maxValue]; omega), Int64.toInt_maxValue]
  · exact Int64.toInt_ofIntClamp (by rw [Int64.toInt_minValue]; omega) (by rw [Int64.toInt_maxValue]; omega)

theorem toInt_absDuration (d : Duration) :
    (absDuration d).toInt = if d.toInt = -2 ^ 63 then -2 ^ 63 else |d.toInt| := by
  have hlow := d.le_toInt
  have hhigh := d.toInt_lt
  have hneg : d < 0 ↔ d.toInt < 0 := Int64.lt_iff_toInt_lt
  rw [absDuration]
  by_cases h : d.toInt < 0
  · rw [if_pos (hneg.mpr h), Int64.toInt_neg, abs_of_neg h, Int.bmod_def]
    split_ifs <;> omega
  · rw [if_neg (mt hneg.mp h), abs_of_nonneg (not_lt.mp h), if_neg (by omega)]

/-- A saturated distance is within a bound if the distance is, and also if it is too far below. -/
theorem absDuration_le_iff {x : Int} {bound : Duration} (hnonneg : 0 ≤ bound.toInt)
    (hlt : bound.toInt < 2 ^ 63 - 1) :
    absDuration (Int64.ofIntClamp x) ≤ bound ↔ x ≤ -2 ^ 63 ∨ |x| ≤ bound.toInt := by
  rw [Int64.le_iff_toInt_le, toInt_absDuration, toInt_ofIntClamp]
  rcases lt_or_ge (-2 ^ 63) x with hx | hx
  · have hmin : ¬ x ≤ -2 ^ 63 := by omega
    rw [if_neg (by omega : ¬ x < -2 ^ 63)]
    rcases lt_or_ge x (2 ^ 63) with hx' | hx'
    · rw [if_neg (by omega : ¬ 2 ^ 63 ≤ x), if_neg (by omega)]
      exact (or_iff_right hmin).symm
    · have hfar : |x| = x := abs_of_nonneg (by omega)
      rw [if_pos hx', if_neg (by decide), hfar]
      simp only [hmin, false_or]
      rw [abs_of_nonneg (by decide)]
      omega
  · have hclamp : (if x < -2 ^ 63 then -2 ^ 63 else if 2 ^ 63 ≤ x then 2 ^ 63 - 1 else x) = -2 ^ 63 := by
      split_ifs <;> omega
    rw [hclamp, if_pos rfl]
    simp only [hx, true_or, iff_true]
    omega

end GoTime
