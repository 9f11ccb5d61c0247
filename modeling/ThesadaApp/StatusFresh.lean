import ThesadaApp.GoTime

/-!
The freshness check of a signed status request. The distance between two points in time saturates and its
absolute value wraps, so a timestamp that is too far ahead counts as fresh.
-/

namespace ThesadaApp

open GoTime

/-- Five minutes. -/
def enrollStatusSkew : Duration := 300000000000

def EnrollStatusFresh (now : Instant) (ts : Int64) : Bool :=
  let delta := now.sub (GoTime.unix ts)
  let delta := absDuration delta
  delta ≤ enrollStatusSkew

/-- A number of seconds after the epoch is at most five minutes from a point in time. -/
def WithinSkew (now : Instant) (seconds : Int) : Prop := |now.nanos - seconds * 1000000000| ≤ enrollStatusSkew.toInt

instance (now : Instant) (seconds : Int) : Decidable (WithinSkew now seconds) := inferInstanceAs (Decidable (_ ≤ _))

/-- A number of seconds after the epoch is so far ahead that the distance saturates. -/
def FarAhead (now : Instant) (seconds : Int) : Prop := now.nanos - seconds * 1000000000 ≤ -2 ^ 63

instance (now : Instant) (seconds : Int) : Decidable (FarAhead now seconds) := inferInstanceAs (Decidable (_ ≤ _))

section fresh

variable {now : Instant} {ts : Int64}

theorem toInt_enrollStatusSkew : enrollStatusSkew.toInt = 300000000000 := by decide

/-- The check accepts what is near, and what is too far ahead to tell. -/
theorem enrollStatusFresh_iff {seconds : Int} (hseconds : (GoTime.unix ts).nanos = seconds * 1000000000) :
    EnrollStatusFresh now ts = true ↔ FarAhead now seconds ∨ WithinSkew now seconds := by
  rw [EnrollStatusFresh, decide_eq_true_eq, Instant.sub, hseconds,
    absDuration_le_iff (by decide) (by decide), FarAhead, WithinSkew]

/-- What is far ahead is not near. -/
theorem FarAhead.not_withinSkew {seconds : Int} (hfar : FarAhead now seconds) : ¬ WithinSkew now seconds := by
  rw [FarAhead] at hfar
  rw [WithinSkew, toInt_enrollStatusSkew, abs_of_neg (by omega)]
  omega

/-- The check tells whether a timestamp is near, exactly if it is not too far ahead to tell and, when no point
in time holds it, neither it nor the one it wraps to is near. -/
theorem enrollStatusFresh_exact (now : Instant) (ts : Int64) :
    (EnrollStatusFresh now ts = true ↔ WithinSkew now ts.toInt) ↔
      if Representable ts then ¬ FarAhead now ts.toInt
      else ¬ FarAhead now (ts.toInt - 2 ^ 64) ∧ ¬ WithinSkew now (ts.toInt - 2 ^ 64) ∧ ¬ WithinSkew now ts.toInt := by
  have hunix := nanos_unix ts
  split_ifs with hrep
  · rw [if_pos hrep] at hunix
    rw [enrollStatusFresh_iff hunix]
    constructor
    · intro h hfar
      exact hfar.not_withinSkew (h.mp (.inl hfar))
    · intro hfar
      exact or_iff_right hfar
  · rw [if_neg hrep] at hunix
    rw [enrollStatusFresh_iff hunix]
    -- the real timestamp and the one it wraps to are too far apart for both to be near
    have hapart : WithinSkew now ts.toInt →
        ¬ (FarAhead now (ts.toInt - 2 ^ 64) ∨ WithinSkew now (ts.toInt - 2 ^ 64)) := by
      intro hnear
      rw [WithinSkew, toInt_enrollStatusSkew, abs_le] at hnear
      rw [FarAhead, WithinSkew, toInt_enrollStatusSkew, abs_le]
      omega
    constructor
    · intro h
      have hnear : ¬ WithinSkew now ts.toInt := fun hnear => hapart hnear (h.mpr hnear)
      have hwrapped := mt h.mp hnear
      rw [not_or] at hwrapped
      exact ⟨hwrapped.1, hwrapped.2, hnear⟩
    · rintro ⟨hfar, hwrapped, hnear⟩
      exact iff_of_false (not_or.mpr ⟨hfar, hwrapped⟩) hnear

/-- A timestamp of the year 2316 is fresh in 2023. -/
theorem fresh_farAhead :
    ¬ (EnrollStatusFresh ⟨1700000000 + unixToInternal, 0⟩ 10923372037 = true ↔
      WithinSkew ⟨1700000000 + unixToInternal, 0⟩ (10923372037 : Int64).toInt) := by
  decide +kernel

end fresh

end ThesadaApp
