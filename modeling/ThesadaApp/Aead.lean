import Mathlib.Data.Option.Basic
import Mathlib.Tactic.Common

/-!
Ideal authenticated encryption with associated data: what is encrypted decrypts under its own key and associated data,
and under no others.
-/

/-- A scheme over keys, nonces, plaintexts, associated data and ciphertexts. -/
structure Aead (κ ν π α β : Type*) where
  encrypt : κ → ν → π → α → β
  decrypt : κ → β → α → Option π
  decrypt_encrypt : ∀ k n p a, decrypt k (encrypt k n p a) a = some p
  authentic : ∀ k n p a k' a' q, decrypt k' (encrypt k n p a) a' = some q → k' = k ∧ a' = a

namespace Aead

variable {κ ν π α β : Type*} {A : Aead κ ν π α β} {k k' : κ} {n : ν} {p q : π} {a a' : α}

theorem decrypt_encrypt_eq_some : A.decrypt k' (A.encrypt k n p a) a' = some q ↔ k' = k ∧ a' = a ∧ q = p := by
  constructor
  · intro h
    obtain ⟨rfl, rfl⟩ := A.authentic k n p a k' a' q h
    rw [A.decrypt_encrypt] at h
    exact ⟨rfl, rfl, (Option.some.inj h).symm⟩
  · rintro ⟨rfl, rfl, rfl⟩
    exact A.decrypt_encrypt _ _ _ _

theorem decrypt_of_key_ne (hne : k' ≠ k) : A.decrypt k' (A.encrypt k n p a) a' = none :=
  Option.eq_none_iff_forall_ne_some.mpr fun _ h => hne (decrypt_encrypt_eq_some.mp h).1

theorem decrypt_of_ad_ne (hne : a' ≠ a) : A.decrypt k' (A.encrypt k n p a) a' = none :=
  Option.eq_none_iff_forall_ne_some.mpr fun _ h => hne (decrypt_encrypt_eq_some.mp h).2.1

/-- The scheme whose ciphertexts are what was encrypted. -/
def symbolic (κ ν π α : Type*) [DecidableEq κ] [DecidableEq α] : Aead κ ν π α (κ × ν × π × α) where
  encrypt k n p a := (k, n, p, a)
  decrypt k b a := if k = b.1 ∧ a = b.2.2.2 then some b.2.2.1 else none
  decrypt_encrypt _ _ _ _ := if_pos ⟨rfl, rfl⟩
  authentic k n p a k' a' q h := by
    split at h
    · next hsame => exact hsame
    · cases h

end Aead
