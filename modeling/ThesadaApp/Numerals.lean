import Mathlib.Data.Nat.Digits.Lemmas

/-!
Numbers written to a base with the most significant digit first. Dropping the leading zeros of a list of digits
leaves the one way to write its number.
-/

namespace Numerals

/-- The number a list of digits stands for. -/
def value (b : Nat) (ds : List Nat) : Nat := Nat.ofDigits b ds.reverse

/-- The digits after the leading zeros. -/
def significant (ds : List Nat) : List Nat := ds.dropWhile (· = 0)

/-- The digits of a number, without leading zeros. -/
def digits (b n : Nat) : List Nat := (Nat.digits b n).reverse

/-- A number as it is printed. -/
def text (b n : Nat) : List Char := if n = 0 then ['0'] else (digits b n).map Nat.digitChar

variable {b n : Nat} {ds ds' : List Nat}

theorem value_cons {d : Nat} : value b (d :: ds) = value b ds + b ^ ds.length * d := by
  rw [value, List.reverse_cons, Nat.ofDigits_append, List.length_reverse, Nat.ofDigits_singleton, value]

theorem value_significant : value b (significant ds) = value b ds := by
  induction ds with
  | nil => rfl
  | cons d ds ih =>
      by_cases hd : d = 0
      · subst hd
        calc value b (significant (0 :: ds))
            = value b (significant ds) := rfl
          _ = value b ds := ih
          _ = value b (0 :: ds) := by rw [value_cons, Nat.mul_zero, Nat.add_zero]
      · rw [significant, List.dropWhile_cons_of_neg (by simpa using hd)]

theorem significant_subset {d : Nat} (hd : d ∈ significant ds) : d ∈ ds := (List.dropWhile_sublist _).subset hd

theorem significant_head (h : significant ds ≠ []) : (significant ds).head h ≠ 0 := by
  have hhead := List.head_dropWhile_not (fun d => decide (d = 0)) h
  exact of_decide_eq_false hhead

/-- What is left after the leading zeros is how the number is written. -/
theorem digits_value (hb : 1 < b) (hds : ∀ d ∈ ds, d < b) : digits b (value b ds) = significant ds := by
  have hdigits : Nat.digits b (Nat.ofDigits b (significant ds).reverse) = (significant ds).reverse := by
    apply Nat.digits_ofDigits b hb
    · intro d hd
      exact hds d (significant_subset (List.mem_reverse.mp hd))
    · intro hne
      rw [List.getLast_reverse]
      exact significant_head _
  rw [← value_significant, digits, value, hdigits, List.reverse_reverse]

theorem value_digits : value b (digits b n) = n := by
  rw [value, digits, List.reverse_reverse, Nat.ofDigits_digits]

theorem digits_lt (hb : 1 < b) {d : Nat} (hd : d ∈ digits b n) : d < b :=
  Nat.digits_lt_base hb (List.mem_reverse.mp hd)

theorem digits_ne_nil (hn : n ≠ 0) : digits b n ≠ [] := by
  simpa [digits] using Nat.digits_ne_nil_iff_ne_zero.mpr hn

/-- A number is written without leading zeros. -/
theorem significant_digits (hb : 1 < b) : significant (digits b n) = digits b n := by
  rw [← digits_value hb fun d hd => digits_lt hb hd, value_digits]

theorem digits_length_le (hb : 1 < b) {k : Nat} (hn : n < b ^ k) : (digits b n).length ≤ k := by
  rw [digits, List.length_reverse]
  exact (Nat.digits_length_le_iff hb n).mpr hn

theorem digits_head (hb : 1 < b) (h : digits b n ≠ []) : (digits b n).head h ≠ 0 := by
  have hsignificant : significant (digits b n) ≠ [] := by
    rw [significant_digits hb]
    exact h
  have hhead := significant_head hsignificant
  simpa only [significant_digits hb] using hhead

theorem text_ne_nil : text b n ≠ [] := by
  unfold text
  split_ifs with hn
  · exact List.cons_ne_nil _ _
  · intro hnil
    exact digits_ne_nil hn (List.map_eq_nil_iff.mp hnil)

/-- What is printed are the digits of the base. -/
theorem mem_text (hb : 1 < b) {c : Char} (hc : c ∈ text b n) : ∃ d < b, c = Nat.digitChar d := by
  unfold text at hc
  split_ifs at hc with hn
  · exact ⟨0, by omega, List.mem_singleton.mp hc⟩
  · obtain ⟨d, hd, rfl⟩ := List.mem_map.mp hc
    exact ⟨d, digits_lt hb hd, rfl⟩

/-- A reader of the digits reads back what is printed. -/
theorem map_text {read : Char → Nat} (hb : 1 < b) (hread : ∀ d < b, read (Nat.digitChar d) = d) :
    (text b n).map read = if n = 0 then [0] else digits b n := by
  unfold text
  split_ifs with hn
  · exact congrArg (fun d => [d]) (hread 0 (by omega))
  · rw [List.map_map]
    exact (List.map_congr_left fun d hd => hread d (digits_lt hb hd)).trans (List.map_id _)

theorem value_text {read : Char → Nat} (hb : 1 < b) (hread : ∀ d < b, read (Nat.digitChar d) = d) :
    value b ((text b n).map read) = n := by
  rw [map_text hb hread]
  split_ifs with hn
  · rw [hn]
    rfl
  · exact value_digits

end Numerals
