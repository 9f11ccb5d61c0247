import Mathlib.Data.Nat.Digits.Defs
import ThesadaApp.Aead
import ThesadaApp.Basic

/-!
The envelope of device-config secrets: a root KEK wraps the DEK of each tenant, and the DEK encrypts the tenant's
secrets. What a ciphertext is bound to tells the rows it may stand in apart. A text stands for its bytes in UTF-8.
-/

namespace ThesadaApp

/-- `keyLen`. -/
def keyLen : Nat := 32

/-- A root KEK or a DEK. -/
structure Key where
  bytes : List UInt8
  length : bytes.length = keyLen
  deriving DecidableEq

/-- AES-256-GCM; a nonce is drawn for each call. -/
abbrev Gcm (ν β : Type) := Aead Key ν (List UInt8) String β

section envelope

variable {ν β : Type} (A : Gcm ν β)

/-- `WrapDEK`. -/
def wrapDEK (kek : Key) (nonce : ν) (dek : Key) (aad : String) : β := A.encrypt kek nonce dek.bytes aad

/-- `UnwrapDEK`. -/
def unwrapDEK (kek : Key) (wrapped : β) (aad : String) : Option Key :=
  (A.decrypt kek wrapped aad).bind fun dek => if h : dek.length = keyLen then some ⟨dek, h⟩ else none

/-- `EncryptSecret`. -/
def encryptSecret (dek : Key) (nonce : ν) (plaintext : List UInt8) (aad : String) : β :=
  A.encrypt dek nonce plaintext aad

/-- `DecryptSecret`. -/
def decryptSecret (dek : Key) (ciphertext : β) (aad : String) : Option (List UInt8) := A.decrypt dek ciphertext aad

variable {A} {kek kek' dek : Key} {nonce : ν} {aad aad' : String}

theorem unwrapDEK_wrapDEK : unwrapDEK A kek (wrapDEK A kek nonce dek aad) aad = some dek := by
  rw [unwrapDEK, wrapDEK, A.decrypt_encrypt, Option.bind_some, dif_pos dek.length]

theorem unwrapDEK_of_key_ne (hne : kek' ≠ kek) : unwrapDEK A kek' (wrapDEK A kek nonce dek aad) aad' = none := by
  rw [unwrapDEK, wrapDEK, Aead.decrypt_of_key_ne hne, Option.bind_none]

end envelope

/-- The scheme and the root keys of the runs on fixed inputs. -/
def symbolicGcm : Gcm Unit (Key × Unit × List UInt8 × String) := Aead.symbolic Key Unit (List UInt8) String

def oldKEK : Key := ⟨List.replicate 32 0, by decide⟩

def newKEK : Key := ⟨List.replicate 32 1, by decide⟩

/-- The hex digits of a uuid, 32 of them. -/
def UUID.digits (id : UUID) : List Nat :=
  (Nat.digits 16 id ++ List.replicate (32 - (Nat.digits 16 id).length) 0).reverse

/-- The form 8-4-4-4-12. -/
def dashed (l : List Char) : List Char :=
  l.take 8 ++ '-' :: ((l.drop 8).take 4 ++ '-' :: ((l.drop 12).take 4 ++ '-' ::
    ((l.drop 16).take 4 ++ '-' :: l.drop 20)))

/-- `uuid.UUID.String`. -/
def UUID.string (id : UUID) : String := String.ofList (dashed (id.digits.map Nat.digitChar))

theorem UUID.digit_lt {id : UUID} {d : Nat} (hd : d ∈ id.digits) : d < 16 := by
  rw [digits, List.mem_reverse, List.mem_append] at hd
  rcases hd with hd | hd
  · exact Nat.digits_lt_base (by decide) hd
  · rw [List.eq_of_mem_replicate hd]
    decide

theorem UUID.digits_injective : Function.Injective UUID.digits := by
  intro a b h
  have hofDigits : ∀ id : UUID, Nat.ofDigits 16 id.digits.reverse = id := by
    intro id
    rw [digits, List.reverse_reverse, Nat.ofDigits_append_replicate_zero, Nat.ofDigits_digits]
  rw [← hofDigits a, h, hofDigits b]

theorem hexChar : ∀ d < 16, Nat.digitChar d ∉ ['-', '\x00', 't'] := by decide

theorem filter_dashed {l : List Char} (hl : '-' ∉ l) : (dashed l).filter (· ≠ '-') = l := by
  have hpart : ∀ part : List Char, (∀ c ∈ part, c ∈ l) → part.filter (· ≠ '-') = part := fun part hsub =>
    List.filter_eq_self.mpr fun c hc => decide_eq_true fun hdash => hl (hdash ▸ hsub c hc)
  have hdrop : ∀ n, ∀ c ∈ l.drop n, c ∈ l := fun n c hc => List.mem_of_mem_drop hc
  have htake : ∀ n, ∀ c ∈ (l.drop n).take 4, c ∈ l := fun n c hc => hdrop n c (List.mem_of_mem_take hc)
  have hdash : ∀ part : List Char, ('-' :: part).filter (· ≠ '-') = part.filter (· ≠ '-') := fun part => rfl
  simp only [dashed, List.filter_append, hdash]
  rw [hpart _ fun c hc => List.mem_of_mem_take hc, hpart _ (htake 8), hpart _ (htake 12), hpart _ (htake 16),
    hpart _ (hdrop 20)]
  have hjoin : ∀ n, (l.drop n).take 4 ++ l.drop (n + 4) = l.drop n := by
    intro n
    rw [← List.drop_drop, List.take_append_drop]
  rw [hjoin 16, hjoin 12, hjoin 8, List.take_append_drop]

theorem UUID.mem_string {id : UUID} {c : Char} (hc : c ∈ id.string.toList) :
    c = '-' ∨ ∃ d < 16, c = Nat.digitChar d := by
  rw [string, String.toList_ofList] at hc
  have hmem : c = '-' ∨ c ∈ id.digits.map Nat.digitChar := by
    simp only [dashed, List.mem_append, List.mem_cons] at hc
    rcases hc with hc | rfl | hc | rfl | hc | rfl | hc | rfl | hc
    all_goals first
      | exact .inl rfl
      | exact .inr (List.mem_of_mem_take hc)
      | exact .inr (List.mem_of_mem_drop (List.mem_of_mem_take hc))
      | exact .inr (List.mem_of_mem_drop hc)
  rcases hmem with rfl | hmem
  · exact .inl rfl
  · obtain ⟨d, hd, rfl⟩ := List.mem_map.mp hmem
    exact .inr ⟨d, UUID.digit_lt hd, rfl⟩

theorem UUID.string_injective : Function.Injective UUID.string := by
  intro a b h
  have hdash : ∀ id : UUID, '-' ∉ id.digits.map Nat.digitChar := by
    intro id hmem
    obtain ⟨d, hd, hchar⟩ := List.mem_map.mp hmem
    exact hexChar d (UUID.digit_lt hd) (by rw [hchar]; decide)
  have htext : dashed (a.digits.map Nat.digitChar) = dashed (b.digits.map Nat.digitChar) := by
    rw [← String.toList_ofList (l := dashed (a.digits.map Nat.digitChar)),
      ← String.toList_ofList (l := dashed (b.digits.map Nat.digitChar))]
    exact congrArg String.toList h
  have hchars := congrArg (List.filter (· ≠ '-')) htext
  rw [filter_dashed (hdash a), filter_dashed (hdash b)] at hchars
  -- a digit is read back from its character
  have hback : ∀ d < 16, (List.range 16).findIdx (fun e => Nat.digitChar e = Nat.digitChar d) = d := by decide
  have hread : ∀ id : UUID, (id.digits.map Nat.digitChar).map (fun c =>
      (List.range 16).findIdx fun e => Nat.digitChar e = c) = id.digits := by
    intro id
    rw [List.map_map]
    exact (List.map_congr_left fun d hd => hback d (UUID.digit_lt hd)).trans (List.map_id _)
  exact UUID.digits_injective (by rw [← hread a, hchars, hread b])

/-- `dekAAD` binds a wrapped DEK to its owning tenant. -/
def dekAAD (tenantID : Slug) : String := tenantID.val

/-- `secretAAD` -/
def secretAAD (tenantID : Slug) (devicePK : UUID) (field : String) : String :=
  tenantID.val ++ "\x00" ++ devicePK.string ++ "\x00" ++ field

def tenantDefaultMarker : String := "tenant-default"

/-- `tenantSecretAAD` -/
def tenantSecretAAD (tenantID : Slug) (field : String) : String :=
  tenantID.val ++ "\x00" ++ tenantDefaultMarker ++ "\x00" ++ field

section aad

/-- What stands before a separator, and what after it. -/
theorem append_cons_inj {a a' b b' : List Char} {c : Char} (ha : c ∉ a) (ha' : c ∉ a')
    (h : a ++ c :: b = a' ++ c :: b') : a = a' ∧ b = b' := by
  induction a generalizing a' with
  | nil =>
      cases a' with
      | nil => exact ⟨rfl, (List.cons.inj h).2⟩
      | cons x a' => exact absurd (List.cons.inj h).1 fun hx => ha' (hx ▸ List.mem_cons_self)
  | cons x a ih =>
      cases a' with
      | nil => exact absurd (List.cons.inj h).1 fun hx => ha (hx ▸ List.mem_cons_self)
      | cons y a' =>
          obtain ⟨rfl, hrest⟩ := List.cons.inj h
          obtain ⟨rfl, rfl⟩ := ih (fun hc => ha (List.mem_cons_of_mem _ hc))
            (fun hc => ha' (List.mem_cons_of_mem _ hc)) hrest
          exact ⟨rfl, rfl⟩

/-- The two texts before the field are told apart by their separators, whatever the field. -/
theorem aad_inj {a a' b b' f f' : String} (ha : '\x00' ∉ a.toList) (ha' : '\x00' ∉ a'.toList) (hb : '\x00' ∉ b.toList)
    (hb' : '\x00' ∉ b'.toList) (h : a ++ "\x00" ++ b ++ "\x00" ++ f = a' ++ "\x00" ++ b' ++ "\x00" ++ f') :
    a = a' ∧ b = b' ∧ f = f' := by
  have hlist : ∀ x y z : String, (x ++ "\x00" ++ y ++ "\x00" ++ z).toList =
      x.toList ++ '\x00' :: (y.toList ++ '\x00' :: z.toList) := by
    intro x y z
    simp [String.toList_append]
  have htext := congrArg String.toList h
  rw [hlist, hlist] at htext
  obtain ⟨hfirst, hrest⟩ := append_cons_inj ha ha' htext
  obtain ⟨hsecond, hthird⟩ := append_cons_inj hb hb' hrest
  exact ⟨String.toList_inj.mp hfirst, String.toList_inj.mp hsecond, String.toList_inj.mp hthird⟩

theorem nul_not_mem_slug (t : Slug) : '\x00' ∉ t.val.toList := fun hc => absurd (Slug.char_of_mem hc) (by decide)

theorem nul_not_mem_uuid (id : UUID) : '\x00' ∉ id.string.toList := by
  intro hc
  rcases UUID.mem_string hc with hdash | ⟨d, hd, hchar⟩
  · exact absurd hdash (by decide)
  · exact hexChar d hd (by rw [← hchar]; decide)

theorem uuid_ne_marker (id : UUID) : id.string ≠ tenantDefaultMarker := by
  intro h
  have hmem : 't' ∈ id.string.toList := by
    rw [h]
    decide
  rcases UUID.mem_string hmem with hdash | ⟨d, hd, hchar⟩
  · exact absurd hdash (by decide)
  · exact hexChar d hd (by rw [← hchar]; decide)

end aad

end ThesadaApp
