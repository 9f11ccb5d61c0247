import Mathlib.Data.List.Infix
import Mathlib.Tactic.Common

/-!
Patterns of a case-insensitive search as a database reads them. `%` stands for any characters, `_` for one, and a
backslash takes the character after it as it is. A text whose special characters are escaped stands for itself.
-/

namespace LikePattern

inductive Part where
  | any
  | one
  | char (c : Char)
  deriving DecidableEq, Repr

/-- The parts of a pattern. A pattern that ends in a backslash is refused. -/
def parts : List Char → Option (List Part)
  | [] => some []
  | '\\' :: [] => none
  | '\\' :: c :: cs => (parts cs).map (.char c :: ·)
  | '%' :: cs => (parts cs).map (.any :: ·)
  | '_' :: cs => (parts cs).map (.one :: ·)
  | c :: cs => (parts cs).map (.char c :: ·)

/-- The parts match a whole text. -/
def fits : List Part → List Char → Bool
  | [], text => text.isEmpty
  | .any :: ps, text => text.tails.any (fits ps)
  | .one :: ps, text => text.tail?.any (fits ps)
  | .char c :: ps, text => text.head? = some c && text.tail?.any (fits ps)

/-- A pattern and a text are compared after their characters are folded. -/
def ilike (fold : Char → Char) (text pattern : List Char) : Option Bool :=
  (parts (pattern.map fold)).map (fits · (text.map fold))

/-- A character that does not stand for itself in a pattern. -/
def special (c : Char) : Bool := c = '\\' || c = '%' || c = '_'

def escapeChar (c : Char) : List Char := if special c then ['\\', c] else [c]

/-- Folding neither changes nor makes a special character. -/
def KeepsSpecial (fold : Char → Char) : Prop := ∀ c, if special c then fold c = c else ¬ special (fold c)

variable {fold : Char → Char} {c : Char} {cs text : List Char} {ps : List Part}

theorem parts_escapeChar : parts (escapeChar c ++ cs) = (parts cs).map (.char c :: ·) := by
  by_cases hc : special c
  · rw [escapeChar, if_pos hc, List.cons_append, List.cons_append, List.nil_append, parts]
  · have hplain : c ≠ '\\' ∧ c ≠ '%' ∧ c ≠ '_' := by simpa [special, and_assoc] using hc
    rw [escapeChar, if_neg hc, List.cons_append, List.nil_append, parts]
    · exact fun h => absurd h hplain.1
    · exact fun _ _ h => absurd h hplain.1
    · exact hplain.2.1
    · exact hplain.2.2

/-- An escaped text stands for its characters. -/
theorem parts_escape (text : List Char) :
    parts (text.flatMap escapeChar ++ cs) = (parts cs).map (text.map Part.char ++ ·) := by
  induction text with
  | nil => simp
  | cons c text ih =>
      rw [List.flatMap_cons, List.append_assoc, parts_escapeChar, ih, Option.map_map]
      rfl

theorem fits_chars (s : List Char) : fits (s.map Part.char ++ ps) text ↔ ∃ rest, text = s ++ rest ∧ fits ps rest := by
  induction s generalizing text with
  | nil => simp
  | cons c s ih =>
      rw [List.map_cons, List.cons_append, fits]
      cases text with
      | nil => simp
      | cons d text => simp [ih, and_assoc]

/-- Any characters before and after a text is the same as containing it. -/
theorem fits_contains (s : List Char) : fits (.any :: (s.map Part.char ++ [.any])) text ↔ s <:+: text := by
  have hrest : ∀ rest, fits [.any] rest := fun rest =>
    List.any_eq_true.mpr ⟨[], (List.mem_tails _ _).mpr List.nil_suffix, rfl⟩
  rw [fits, List.any_eq_true]
  constructor
  · rintro ⟨suffix, hsuffix, hfits⟩
    obtain ⟨rest, rfl, -⟩ := (fits_chars s).mp hfits
    exact (List.prefix_append s rest).isInfix.trans ((List.mem_tails _ _).mp hsuffix).isInfix
  · rintro ⟨before, after, htext⟩
    refine ⟨s ++ after, (List.mem_tails _ _).mpr ⟨before, ?_⟩, (fits_chars s).mpr ⟨after, rfl, hrest after⟩⟩
    rw [← List.append_assoc, htext]

theorem KeepsSpecial.special (h : KeepsSpecial fold) : special (fold c) = special c := by
  have hc := h c
  by_cases hspecial : LikePattern.special c
  · rw [if_pos hspecial] at hc
    rw [hc]
  · rw [if_neg hspecial] at hc
    rw [Bool.not_eq_true] at hc hspecial
    rw [hc, hspecial]

theorem KeepsSpecial.escapeChar (h : KeepsSpecial fold) : (escapeChar c).map fold = escapeChar (fold c) := by
  have hbackslash : fold '\\' = '\\' := h '\\'
  rw [LikePattern.escapeChar, LikePattern.escapeChar, h.special]
  split_ifs <;> simp [hbackslash]

theorem KeepsSpecial.escape (h : KeepsSpecial fold) (s : List Char) :
    (s.flatMap LikePattern.escapeChar).map fold = (s.map fold).flatMap LikePattern.escapeChar := by
  rw [List.map_flatMap, List.flatMap_map]
  exact List.flatMap_congr fun c _ => h.escapeChar

theorem isLower_toLower {c : Char} (h : c.isUpper) : c.toLower.isLower := by
  have hletter : 'A'.val ≤ c.val ∧ c.val ≤ 'Z'.val := of_decide_eq_true h
  have hval : c.toLower.val = c.val + 32 := congrArg Char.val (dif_pos hletter)
  rw [UInt32.le_iff_toNat_le, UInt32.le_iff_toNat_le] at hletter
  have hlow : 65 ≤ c.val.toNat := hletter.1
  have hhigh : c.val.toNat ≤ 90 := hletter.2
  have hsum : (c.val + 32).toNat = c.val.toNat + 32 := by
    rw [UInt32.toNat_add, show (32 : UInt32).toNat = 32 from rfl]
    omega
  have hfrom : 'a'.val ≤ c.toLower.val := by
    rw [hval, UInt32.le_iff_toNat_le, hsum]
    exact Nat.add_le_add_right hlow 32
  have hto : c.toLower.val ≤ 'z'.val := by
    rw [hval, UInt32.le_iff_toNat_le, hsum]
    exact Nat.add_le_add_right hhigh 32
  exact Bool.and_eq_true_iff.mpr ⟨decide_eq_true hfrom, decide_eq_true hto⟩

/-- Folding the letters of ASCII keeps the special characters. -/
theorem keepsSpecial_toLower : KeepsSpecial Char.toLower := by
  intro c
  by_cases hspecial : special c
  · have hcases : (c = '\\' ∨ c = '%') ∨ c = '_' := by simpa [special] using hspecial
    rw [if_pos hspecial]
    rcases hcases with (rfl | rfl) | rfl <;> decide
  · rw [if_neg hspecial]
    by_cases hupper : c.isUpper
    · have hlower := isLower_toLower hupper
      intro h
      have hcases : (c.toLower = '\\' ∨ c.toLower = '%') ∨ c.toLower = '_' := by simpa [special] using h
      rcases hcases with (h | h) | h <;> rw [h] at hlower <;> exact absurd hlower (by decide)
    · have hsame : c.toLower = c := dif_neg fun hletter => hupper (decide_eq_true hletter)
      rwa [hsame]

/-- A search for an escaped text with any characters around it finds the texts that contain it, whatever is in it. -/
theorem ilike_contains (h : KeepsSpecial fold) (s : List Char) :
    ilike fold text ('%' :: (s.flatMap escapeChar ++ ['%'])) = some (decide (s.map fold <:+: text.map fold)) := by
  have hpercent : fold '%' = '%' := h '%'
  have hparts : parts (('%' :: (s.flatMap escapeChar ++ ['%'])).map fold) =
      some (.any :: ((s.map fold).map Part.char ++ [.any])) := by
    rw [List.map_cons, List.map_append, h.escape, hpercent, List.map_singleton, hpercent, parts, parts_escape]
    rfl
  rw [ilike, hparts, Option.map_some, Option.some_inj, Bool.eq_iff_iff, decide_eq_true_iff]
  exact fits_contains (s.map fold)

end LikePattern
