import Mathlib.Data.List.Basic
import Mathlib.Tactic.Common

/-!
The values every part of the service shares: primary keys, times, tenant slugs and HTTP errors.
-/

namespace ThesadaApp

/-- A uuid. `uuid.Nil` is zero. -/
abbrev UUID := Nat

def UUID.nil : UUID := 0

/-- A point in time in microseconds, the resolution the database stores. -/
abbrev Time := Int

def seconds (n : Nat) : Time := n * 1000000

/-- The two clocks a transaction reads: `time.Now()` in the app and `now()` in the database. -/
structure Clock where
  app : Time
  db : Time
  deriving DecidableEq, Repr

/-- An HTTP error answer: the status code and the text of the body. -/
structure HttpError where
  code : Nat
  text : String
  deriving DecidableEq, Repr

def httpNotFound : HttpError := ⟨404, "404 page not found"⟩

inductive SlugError where
  | invalid
  | reserved
  deriving DecidableEq, Repr

def reservedSlugs : List String :=
  ["admin", "system", "api", "provision", "status", "info", "sensor", "alert", "cli", "cmd", "homeassistant"]

/-- A character of `[a-z0-9-]`. -/
def slugChar (c : Char) : Bool := ('a' ≤ c && c ≤ 'z') || ('0' ≤ c && c ≤ '9') || c = '-'

/-- The pattern `^[a-z0-9-]{3,32}$`. -/
def slugPattern (s : String) : Bool :=
  3 ≤ s.toList.length && s.toList.length ≤ 32 && s.toList.all slugChar

def validateSlug (s : String) : Except SlugError Unit :=
  if slugPattern s = false then .error .invalid
  else if s ∈ reservedSlugs then .error .reserved
  else .ok ()

/-- A slug the tenants table can hold: the check constraints of the column are `validateSlug`. -/
@[ext] structure Slug where
  val : String
  valid : validateSlug val = .ok ()
  deriving DecidableEq

namespace Slug

theorem pattern (t : Slug) : slugPattern t.val = true := by
  have hvalid := t.valid
  unfold validateSlug at hvalid
  by_contra hne
  rw [if_pos (by simpa using hne)] at hvalid
  cases hvalid

theorem not_reserved (t : Slug) : t.val ∉ reservedSlugs := by
  intro hmem
  have hvalid := t.valid
  unfold validateSlug at hvalid
  rw [if_neg (by simp [t.pattern]), if_pos hmem] at hvalid
  cases hvalid

theorem toList_ne_nil (t : Slug) : t.val.toList ≠ [] := by
  intro hnil
  have hpattern := t.pattern
  simp [slugPattern, hnil] at hpattern

theorem val_ne_empty (t : Slug) : t.val ≠ "" := by
  intro hempty
  exact t.toList_ne_nil (by rw [hempty]; rfl)

theorem char_of_mem {t : Slug} {c : Char} (hc : c ∈ t.val.toList) : slugChar c = true := by
  have hpattern := t.pattern
  simp only [slugPattern, Bool.and_eq_true, List.all_eq_true] at hpattern
  exact hpattern.2 c hc

end Slug

section Except

variable {α β ε : Type} {r : Except ε α} {b : β}

theorem bind_eq_ok {f : α → Except ε β} (h : r.bind f = .ok b) : ∃ a, r = .ok a ∧ f a = .ok b := by
  cases r with
  | error err => cases h
  | ok a => exact ⟨a, rfl, h⟩

theorem map_eq_ok {f : α → β} (h : r.map f = .ok b) : ∃ a, r = .ok a ∧ f a = b := by
  cases r with
  | error err => cases h
  | ok a => exact ⟨a, rfl, Except.ok.inj h⟩

end Except

/-- The tenant the bootstrap migration inserts. -/
def defaultTenant : Slug := ⟨"default", by decide⟩

/-- Tenants of the runs on fixed inputs. -/
def acme : Slug := ⟨"acme", by decide⟩

def beta : Slug := ⟨"beta", by decide⟩

end ThesadaApp
