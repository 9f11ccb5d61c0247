import Mathlib.Data.List.Basic
import Mathlib.Tactic.Common

/-!
Bytes that are read as UTF-8, where each byte that begins no character is read as U+FFFD. Where a character ends is told
by the bytes: the first byte of one is no continuation byte, and all others are.
-/

namespace Utf8

/-- A byte that goes on with a character. -/
def isCont (b : UInt8) : Bool := 128 ≤ b.toNat && b.toNat < 192

def replacement : Char := Char.ofNat 0xFFFD

/-- The character that the bytes begin with. -/
def decodeChar (bs : List UInt8) : Option Char := bs.toByteArray.utf8DecodeChar? 0

/-- The characters after the first `skip` bytes. -/
def lossyFrom : Nat → List UInt8 → List Char
  | _, [] => []
  | skip + 1, _ :: bs => lossyFrom skip bs
  | 0, b :: bs =>
      match decodeChar (b :: bs) with
      | some c => c :: lossyFrom (c.utf8Size - 1) bs
      | none => replacement :: lossyFrom 0 bs

def lossy (bs : List UInt8) : List Char := lossyFrom 0 bs

/-- The bytes of characters. -/
def encode (cs : List Char) : List UInt8 := cs.flatMap String.utf8EncodeChar

section chars

variable {bs rest : List UInt8} {b : UInt8} {c : Char}

theorem toNat_ofNat {n : Nat} (hn : n < 256) : (UInt8.ofNat n).toNat = n := by
  rw [UInt8.toNat_ofNat', Nat.mod_eq_of_lt hn]

/-- The first byte of a character, and those that go on with it. -/
theorem encodeChar_eq (c : Char) : ∃ b bs, String.utf8EncodeChar c = b :: bs ∧ isCont b = false ∧
    (∀ d ∈ bs, isCont d = true) ∧ (c.toNat < 128 → bs = [] ∧ b.toNat = c.toNat) ∧ (128 ≤ c.toNat → 128 ≤ b.toNat) := by
  have hbound : c.toNat < 0x110000 := by
    have hvalid := c.valid
    have hval : c.toNat = c.val.toNat := rfl
    rcases hvalid with h | h <;> omega
  have hval : c.val.toNat = c.toNat := rfl
  have hfirst : ∀ n, 192 ≤ n → n < 256 → isCont (UInt8.ofNat n) = false ∧ 128 ≤ (UInt8.ofNat n).toNat := by
    intro n hlow hhigh
    rw [isCont, toNat_ofNat hhigh]
    refine ⟨?_, by omega⟩
    simp only [Bool.and_eq_false_iff, decide_eq_false_iff_not]
    omega
  have hcont : ∀ n, n < 64 → isCont (UInt8.ofNat (n + 128)) = true := by
    intro n hn
    rw [isCont, toNat_ofNat (by omega)]
    simp only [Bool.and_eq_true, decide_eq_true_eq]
    omega
  rw [String.utf8EncodeChar]
  simp only [hval]
  split_ifs with h1 h2 h3
  · refine ⟨_, _, rfl, ?_, by simp, fun _ => ⟨rfl, toNat_ofNat (by omega)⟩, fun h => by omega⟩
    rw [isCont, toNat_ofNat (by omega)]
    simp only [Bool.and_eq_false_iff, decide_eq_false_iff_not]
    omega
  · obtain ⟨hb, hhigh⟩ := hfirst (c.toNat / 64 % 32 + 192) (by omega) (by omega)
    refine ⟨_, _, rfl, hb, ?_, fun h => by omega, fun _ => hhigh⟩
    simp only [List.mem_cons, List.not_mem_nil, or_false, forall_eq]
    exact hcont _ (by omega)
  · obtain ⟨hb, hhigh⟩ := hfirst (c.toNat / 4096 % 16 + 224) (by omega) (by omega)
    refine ⟨_, _, rfl, hb, ?_, fun h => by omega, fun _ => hhigh⟩
    simp only [List.mem_cons, List.not_mem_nil, or_false, forall_eq_or_imp, forall_eq]
    exact ⟨hcont _ (by omega), hcont _ (by omega)⟩
  · obtain ⟨hb, hhigh⟩ := hfirst (c.toNat / 262144 % 8 + 240) (by omega) (by omega)
    refine ⟨_, _, rfl, hb, ?_, fun h => by omega, fun _ => hhigh⟩
    simp only [List.mem_cons, List.not_mem_nil, or_false, forall_eq_or_imp, forall_eq]
    exact ⟨hcont _ (by omega), hcont _ (by omega), hcont _ (by omega)⟩

theorem decodeChar_encodeChar (c : Char) (rest : List UInt8) :
    decodeChar (String.utf8EncodeChar c ++ rest) = some c := by
  rw [decodeChar, List.toByteArray_append, ByteArray.utf8DecodeChar?_utf8EncodeChar_append]

theorem decodeChar_eq_some (h : decodeChar bs = some c) : ∃ rest, bs = String.utf8EncodeChar c ++ rest := by
  obtain ⟨l, hl⟩ := ByteArray.exists_of_utf8DecodeChar?_eq_some h
  have hdata := congrArg (fun a : ByteArray => a.data.toList) hl
  refine ⟨l.data.toList, ?_⟩
  simpa using hdata

theorem decodeChar_append (h : decodeChar bs = some c) (rest : List UInt8) : decodeChar (bs ++ rest) = some c := by
  obtain ⟨more, rfl⟩ := decodeChar_eq_some h
  rw [List.append_assoc, decodeChar_encodeChar]

/-- A character ends before a byte that does not go on with it. -/
theorem decodeChar_before (hb : isCont b = false) (hne : bs ≠ []) (h : decodeChar (bs ++ b :: rest) = some c) :
    decodeChar bs = some c := by
  obtain ⟨more, hmore⟩ := decodeChar_eq_some h
  obtain ⟨first, conts, hencode, -, hconts, -⟩ := encodeChar_eq c
  rcases List.append_eq_append_iff.mp hmore with ⟨as, has, hrest⟩ | ⟨as, has, -⟩
  · cases as with
    | nil =>
        rw [List.append_nil] at has
        rw [← has, ← List.append_nil (String.utf8EncodeChar c), decodeChar_encodeChar]
    | cons d as =>
        obtain ⟨rfl, -⟩ := List.cons.inj hrest
        obtain ⟨e, es, rfl⟩ := List.exists_cons_of_ne_nil hne
        rw [hencode, List.cons_append] at has
        obtain ⟨-, rfl⟩ := List.cons.inj has
        have hcont := hconts b (List.mem_append_right _ List.mem_cons_self)
        rw [hb] at hcont
        cases hcont
  · rw [has, decodeChar_encodeChar]

end chars

section lossy

variable {bs rest : List UInt8} {b : UInt8} {c : Char} {skip : Nat}

theorem lossyFrom_length (bs rest : List UInt8) : lossyFrom bs.length (bs ++ rest) = lossyFrom 0 rest := by
  induction bs with
  | nil => rfl
  | cons b bs ih => exact ih

theorem lossy_encodeChar (c : Char) (rest : List UInt8) :
    lossy (String.utf8EncodeChar c ++ rest) = c :: lossy rest := by
  obtain ⟨b, bs, hencode, -⟩ := encodeChar_eq c
  have hdecode := decodeChar_encodeChar c rest
  have hlength : c.utf8Size - 1 = bs.length := by
    rw [← String.length_utf8EncodeChar, hencode, List.length_cons, Nat.add_sub_cancel]
  rw [hencode, List.cons_append] at hdecode ⊢
  rw [lossy, lossyFrom, hdecode]
  dsimp only
  rw [hlength, lossyFrom_length]
  rfl

theorem lossy_encode (cs : List Char) (rest : List UInt8) : lossy (encode cs ++ rest) = cs ++ lossy rest := by
  induction cs with
  | nil => rfl
  | cons c cs ih =>
      rw [encode, List.flatMap_cons, List.append_assoc, lossy_encodeChar, List.cons_append]
      congr 1

/-- Reading ends before a byte that does not go on with a character. -/
theorem lossyFrom_append (hb : isCont b = false) (hskip : skip ≤ bs.length) :
    lossyFrom skip (bs ++ b :: rest) = lossyFrom skip bs ++ lossy (b :: rest) := by
  induction bs generalizing skip with
  | nil =>
      obtain rfl := Nat.le_zero.mp hskip
      rfl
  | cons d bs ih =>
      cases skip with
      | succ skip => exact ih (Nat.le_of_succ_le_succ hskip)
      | zero =>
          rw [List.cons_append, lossyFrom, lossyFrom]
          cases hdecode : decodeChar (d :: bs) with
          | some c =>
              have hlong := decodeChar_append hdecode (b :: rest)
              rw [List.cons_append] at hlong
              obtain ⟨more, hmore⟩ := decodeChar_eq_some hdecode
              have hlength := congrArg List.length hmore
              rw [List.length_append, String.length_utf8EncodeChar, List.length_cons] at hlength
              rw [hlong]
              dsimp only
              rw [ih (by omega), List.cons_append]
          | none =>
              have hlong : decodeChar (d :: (bs ++ b :: rest)) = none := by
                cases hsome : decodeChar (d :: (bs ++ b :: rest)) with
                | none => rfl
                | some c =>
                    rw [decodeChar_before hb (List.cons_ne_nil d bs) hsome] at hdecode
                    cases hdecode
              rw [hlong]
              dsimp only
              rw [ih (Nat.zero_le _), List.cons_append]

theorem lossy_append (hb : isCont b = false) : lossy (bs ++ b :: rest) = lossy bs ++ lossy (b :: rest) :=
  lossyFrom_append hb (Nat.zero_le _)

/-- Characters are read whatever bytes stand before them. -/
theorem lossy_append_encode {cs : List Char} (hne : cs ≠ []) (bs rest : List UInt8) :
    lossy (bs ++ (encode cs ++ rest)) = lossy bs ++ (cs ++ lossy rest) := by
  obtain ⟨c, cs, rfl⟩ := List.exists_cons_of_ne_nil hne
  obtain ⟨b, conts, hencode, hb, -⟩ := encodeChar_eq c
  have hfirst : encode (c :: cs) ++ rest = b :: (conts ++ encode cs ++ rest) := by
    rw [encode, List.flatMap_cons, hencode]
    rfl
  rw [hfirst, lossy_append hb, ← hfirst, lossy_encode]

end lossy

end Utf8
