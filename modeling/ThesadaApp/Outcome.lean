import Mathlib.Tactic.Common

/-!
Calls that return a value or the text of an error, or panic.
-/

inductive Outcome (α : Type) where
  | ok (a : α)
  | error (err : String)
  | panic
  deriving DecidableEq, Repr

namespace Outcome

variable {α β : Type} {x : Outcome α} {f : α → Outcome β} {a : α} {b : β}

def bind (x : Outcome α) (f : α → Outcome β) : Outcome β :=
  match x with
  | .ok a => f a
  | .error err => .error err
  | .panic => .panic

instance : Monad Outcome where
  pure := .ok
  bind := bind

/-- A call that does not panic. -/
def ofExcept : Except String α → Outcome α
  | .ok a => .ok a
  | .error err => .error err

/-- An error carried on under a prefix. -/
def wrap (context : String) : Outcome α → Outcome α
  | .ok a => .ok a
  | .error err => .error (context ++ ": " ++ err)
  | .panic => .panic

/-- The value of a call that returned one. -/
def toOption : Outcome α → Option α
  | .ok a => some a
  | _ => none

theorem bind_eq_ok : x >>= f = .ok b ↔ ∃ a, x = .ok a ∧ f a = .ok b := by
  cases x with
  | ok a =>
      constructor
      · intro h
        exact ⟨a, rfl, h⟩
      · rintro ⟨_, ⟨⟩, h⟩
        exact h
  | error err => exact ⟨nofun, nofun⟩
  | panic => exact ⟨nofun, nofun⟩

/-- A sequence of calls panics nowhere exactly if none of those it reaches does. -/
theorem bind_ne_panic : x >>= f ≠ .panic ↔ x ≠ .panic ∧ ∀ a, x = .ok a → f a ≠ .panic := by
  cases x with
  | ok a =>
      constructor
      · intro h
        refine ⟨nofun, ?_⟩
        rintro _ ⟨⟩
        exact h
      · rintro ⟨-, h⟩
        exact h a rfl
  | error err => exact ⟨fun _ => ⟨nofun, nofun⟩, fun _ => nofun⟩
  | panic => exact ⟨fun h => absurd rfl h, fun h => absurd rfl h.1⟩

theorem ofExcept_ne_panic {x : Except String α} : ofExcept x ≠ .panic := by
  cases x <;> nofun

theorem ofExcept_eq_ok {x : Except String α} : ofExcept x = .ok a ↔ x = .ok a := by
  cases x with
  | ok a' => exact ⟨fun h => congrArg Except.ok (ok.inj h), fun h => congrArg Outcome.ok (Except.ok.inj h)⟩
  | error err => exact ⟨nofun, nofun⟩

theorem wrap_eq_ok {context : String} : wrap context x = .ok a ↔ x = .ok a := by
  cases x with
  | ok a' => rfl
  | error err => exact ⟨nofun, nofun⟩
  | panic => rfl

theorem wrap_ne_panic {context : String} : wrap context x ≠ .panic ↔ x ≠ .panic := by
  cases x with
  | ok a' => rfl
  | error err => exact ⟨fun _ => nofun, fun _ => nofun⟩
  | panic => rfl

end Outcome
