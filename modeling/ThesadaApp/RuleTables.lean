import Mathlib.Data.List.Basic
import Mathlib.Logic.Function.Basic
import Mathlib.Tactic.Common

/-!
The tables that the preamble of a generated rules file keeps, and its functions on them. The tables have the same keys,
so what they hold under one key is one record. `Node.uptime()` is the time `now` of the call, in milliseconds.
-/

namespace ThesadaApp.Rules

/-- What the tables hold under a key: `sustain`, `cooldown`, `temp_sustain_start`, `temp_seen` and `temp_gap`. -/
structure KeyState where
  sustain : Option Nat
  cooldown : Option Int
  tempSustainStart : Option Int
  tempSeen : Option Int
  tempGap : Option Int
  deriving DecidableEq, Repr

/-- Nothing under the key. -/
def KeyState.empty : KeyState := ⟨none, none, none, none, none⟩

def cooldownMs : Int := 900000

def tempSustainCount : Nat := 5

def tempSustainMs : Int := 300000

def canAlert (now : Int) (s : KeyState) : Bool :=
  match s.cooldown with
  | some t => !decide (now - t < cooldownMs)
  | none => true

def setCooldown (now : Int) (s : KeyState) : KeyState := { s with cooldown := some now }

def tempClear (s : KeyState) : KeyState := { s with sustain := some 0, tempSustainStart := none }

def tempSustained (now : Int) (s : KeyState) : Bool × KeyState :=
  let count := s.sustain.getD 0 + 1
  let start := s.tempSustainStart.getD now
  if tempSustainCount ≤ count ∨ tempSustainMs ≤ now - start then (canAlert now s, tempClear s)
  else (false, { s with sustain := some count, tempSustainStart := some start })

/-- The silent gap that ends a streak: past 5 min and past 3 of the shortest gaps seen. -/
def gapLimit (shortest : Option Int) : Int :=
  match shortest with
  | some g => if tempSustainMs < 3 * g then 3 * g else tempSustainMs
  | none => tempSustainMs

/-- What `temp_streak` does before it looks at the reading. -/
def tempSilence (now : Int) (s : KeyState) : KeyState :=
  match s.tempSeen with
  | none => { s with tempSeen := some now }
  | some last =>
      let g := now - last
      let s := if gapLimit s.tempGap < g then tempClear s else s
      { s with
        tempSeen := some now
        tempGap := if s.tempGap.all fun shortest => g < shortest then some g else s.tempGap }

def tempStreak (now : Int) (isOver : Bool) (s : KeyState) : Bool × KeyState :=
  if isOver then tempSustained now (tempSilence now s) else (false, tempClear (tempSilence now s))

/-- The tables of the preamble. -/
abbrev RuleTables := String → KeyState

def RuleTables.empty : RuleTables := fun _ => .empty

end ThesadaApp.Rules
