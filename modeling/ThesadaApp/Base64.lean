import Mathlib.Data.List.Basic
import Mathlib.Tactic.Common

/-!
Base64 with the standard alphabet and padding. A reader skips line ends and takes no notice of the bits of a last
character that belong to no byte.
-/

namespace Base64

/-- The character of a number below 64. -/
def letter (n : Nat) : Char :=
  if n < 26 then Char.ofNat (65 + n)
  else if n < 52 then Char.ofNat (97 + (n - 26))
  else if n < 62 then Char.ofNat (48 + (n - 52))
  else if n = 62 then '+'
  else '/'

/-- The number of a character. -/
def sextet (c : Char) : Option Nat :=
  if 'A' ≤ c ∧ c ≤ 'Z' then some (c.toNat - 65)
  else if 'a' ≤ c ∧ c ≤ 'z' then some (c.toNat - 97 + 26)
  else if '0' ≤ c ∧ c ≤ '9' then some (c.toNat - 48 + 52)
  else if c = '+' then some 62
  else if c = '/' then some 63
  else none

def byte (n : Nat) : UInt8 := UInt8.ofNat (n % 256)

/-- The text of some bytes, three bytes at a time. -/
def encode : List UInt8 → List Char
  | [] => []
  | [a] => [letter (a.toNat / 4), letter (a.toNat % 4 * 16), '=', '=']
  | [a, b] => [letter (a.toNat / 4), letter (a.toNat % 4 * 16 + b.toNat / 16), letter (b.toNat % 16 * 4), '=']
  | a :: b :: c :: rest =>
      letter (a.toNat / 4) :: letter (a.toNat % 4 * 16 + b.toNat / 16) ::
        letter (b.toNat % 16 * 4 + c.toNat / 64) :: letter (c.toNat % 64) :: encode rest

/-- The bytes of a text without line ends, four characters at a time. Padding is the end. -/
def decodeGroups : List Char → Option (List UInt8)
  | [] => some []
  | c₁ :: c₂ :: c₃ :: c₄ :: rest => do
      let n₁ ← sextet c₁
      let n₂ ← sextet c₂
      if c₃ = '=' then
        if c₄ = '=' ∧ rest = [] then some [byte (n₁ * 4 + n₂ / 16)] else none
      else
        let n₃ ← sextet c₃
        if c₄ = '=' then
          if rest = [] then some [byte (n₁ * 4 + n₂ / 16), byte (n₂ * 16 + n₃ / 4)] else none
        else
          let n₄ ← sextet c₄
          let bytes ← decodeGroups rest
          some (byte (n₁ * 4 + n₂ / 16) :: byte (n₂ * 16 + n₃ / 4) :: byte (n₃ * 64 + n₄) :: bytes)
  | _ => none

def isLineEnd (c : Char) : Bool := c = '\n' || c = '\r'

def decode (cs : List Char) : Option (List UInt8) := decodeGroups (cs.filter fun c => !isLineEnd c)

theorem sextet_letter {n : Nat} (hn : n < 64) : sextet (letter n) = some n := by
  have hall : ∀ n : Fin 64, sextet (letter n) = some n.val := by decide
  exact hall ⟨n, hn⟩

theorem letter_ne_pad {n : Nat} (hn : n < 64) : letter n ≠ '=' := by
  intro hpad
  have hsextet := sextet_letter hn
  rw [hpad] at hsextet
  cases hsextet

theorem byte_eq {n : Nat} {a : UInt8} (h : n % 256 = a.toNat) : byte n = a := by
  rw [byte, h, UInt8.ofNat_toNat]

/-- Every character that is written is one of the alphabet or the padding. -/
theorem forall_encode {p : Char → Prop} (hletter : ∀ n < 64, p (letter n)) (hpad : p '=') (bs : List UInt8) :
    ∀ c ∈ encode bs, p c := by
  fun_induction encode bs with
  | case1 => simp
  | case2 a =>
      have ha := a.toNat_lt
      simp only [List.forall_mem_cons]
      exact ⟨hletter _ (by omega), hletter _ (by omega), hpad, hpad, by simp⟩
  | case3 a b =>
      have ha := a.toNat_lt
      have hb := b.toNat_lt
      simp only [List.forall_mem_cons]
      exact ⟨hletter _ (by omega), hletter _ (by omega), hletter _ (by omega), hpad, by simp⟩
  | case4 a b c rest ih =>
      have ha := a.toNat_lt
      have hb := b.toNat_lt
      have hc := c.toNat_lt
      simp only [List.forall_mem_cons]
      exact ⟨hletter _ (by omega), hletter _ (by omega), hletter _ (by omega), hletter _ (by omega), ih⟩

section groups

variable {n₁ n₂ n₃ n₄ : Nat} (h₁ : n₁ < 64) (h₂ : n₂ < 64) (h₃ : n₃ < 64) (h₄ : n₄ < 64)

include h₁ h₂

theorem decodeGroups_two : decodeGroups [letter n₁, letter n₂, '=', '='] = some [byte (n₁ * 4 + n₂ / 16)] := by
  simp only [decodeGroups, sextet_letter h₁, sextet_letter h₂, Option.bind_eq_bind, Option.bind_some, if_true,
    and_self]

include h₃

theorem decodeGroups_three : decodeGroups [letter n₁, letter n₂, letter n₃, '='] =
    some [byte (n₁ * 4 + n₂ / 16), byte (n₂ * 16 + n₃ / 4)] := by
  simp only [decodeGroups, sextet_letter h₁, sextet_letter h₂, sextet_letter h₃, Option.bind_eq_bind,
    Option.bind_some, if_neg (letter_ne_pad h₃), if_true]

include h₄

theorem decodeGroups_four (rest : List Char) :
    decodeGroups (letter n₁ :: letter n₂ :: letter n₃ :: letter n₄ :: rest) = (decodeGroups rest).map fun bytes =>
      byte (n₁ * 4 + n₂ / 16) :: byte (n₂ * 16 + n₃ / 4) :: byte (n₃ * 64 + n₄) :: bytes := by
  simp only [decodeGroups, sextet_letter h₁, sextet_letter h₂, sextet_letter h₃, sextet_letter h₄,
    Option.bind_eq_bind, Option.bind_some, if_neg (letter_ne_pad h₃), if_neg (letter_ne_pad h₄)]
  cases decodeGroups rest <;> rfl

end groups

theorem decodeGroups_encode (bs : List UInt8) : decodeGroups (encode bs) = some bs := by
  fun_induction encode bs with
  | case1 => rfl
  | case2 a =>
      have ha := a.toNat_lt
      have hbyte : byte (a.toNat / 4 * 4 + a.toNat % 4 * 16 / 16) = a := byte_eq (by omega)
      rw [decodeGroups_two (by omega) (by omega), hbyte]
  | case3 a b =>
      have ha := a.toNat_lt
      have hb := b.toNat_lt
      have hfirst : byte (a.toNat / 4 * 4 + (a.toNat % 4 * 16 + b.toNat / 16) / 16) = a := byte_eq (by omega)
      have hsecond : byte ((a.toNat % 4 * 16 + b.toNat / 16) * 16 + b.toNat % 16 * 4 / 4) = b := byte_eq (by omega)
      rw [decodeGroups_three (by omega) (by omega) (by omega), hfirst, hsecond]
  | case4 a b c rest ih =>
      have ha := a.toNat_lt
      have hb := b.toNat_lt
      have hc := c.toNat_lt
      have hfirst : byte (a.toNat / 4 * 4 + (a.toNat % 4 * 16 + b.toNat / 16) / 16) = a := byte_eq (by omega)
      have hsecond : byte ((a.toNat % 4 * 16 + b.toNat / 16) * 16 + (b.toNat % 16 * 4 + c.toNat / 64) / 4) = b :=
        byte_eq (by omega)
      have hthird : byte ((b.toNat % 16 * 4 + c.toNat / 64) * 64 + c.toNat % 64) = c := byte_eq (by omega)
      rw [decodeGroups_four (by omega) (by omega) (by omega) (by omega), ih, Option.map_some, hfirst, hsecond, hthird]

/-- What is written is read back. -/
theorem decode_encode (bs : List UInt8) : decode (encode bs) = some bs := by
  have hletter : ∀ n < 64, (!isLineEnd (letter n)) = true := by
    have hall : ∀ n : Fin 64, (!isLineEnd (letter n)) = true := by decide
    exact fun n hn => hall ⟨n, hn⟩
  have hkeep : (encode bs).filter (fun c => !isLineEnd c) = encode bs :=
    List.filter_eq_self.mpr (forall_encode hletter (by decide) bs)
  rw [decode, hkeep, decodeGroups_encode]

end Base64
