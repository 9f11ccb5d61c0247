import ThesadaApp.CAKeyEnvelope

/-!
What the reader of the encrypted CA key does with every envelope: it gives back what was encrypted, and it panics
only in the key derivation or over a nonce that is not as long as the cipher's.
-/

namespace ThesadaApp.Pki

open Json (NumState Record)

section numbers

variable {n : Nat} {c : Char} {cs : List Char}

theorem digitChar_decimal {d : Nat} (hd : d < 10) :
    (Nat.digitChar d).isDigit = true ∧ digitValue (Nat.digitChar d) = d ∧ (d ≠ 0 → Nat.digitChar d ≠ '0') := by
  have hall : ∀ d : Fin 10, (Nat.digitChar d).isDigit = true ∧ digitValue (Nat.digitChar d) = d.val ∧
      (d.val ≠ 0 → Nat.digitChar d ≠ '0') := by decide
  exact hall ⟨d, hd⟩

theorem isDigit_text (hc : c ∈ Numerals.text 10 n) : c.isDigit = true := by
  obtain ⟨d, hd, rfl⟩ := Numerals.mem_text (by decide) hc
  exact (digitChar_decimal hd).1

theorem parseDigits_text : parseDigits (Numerals.text 10 n) = some n := by
  have hall : (Numerals.text 10 n).all Char.isDigit = true := List.all_eq_true.mpr fun c hc => isDigit_text hc
  rw [parseDigits, if_pos ⟨Numerals.text_ne_nil, hall⟩,
    Numerals.value_text (by decide) fun d hd => (digitChar_decimal hd).2.1]

/-- Digits go on with a number whose first digit is not zero. -/
theorem accepts_digits (h : ∀ c ∈ cs, c.isDigit = true) : NumState.int.accepts cs = true := by
  induction cs with
  | nil => rfl
  | cons c cs ih =>
      have hc := h c List.mem_cons_self
      rw [NumState.accepts, NumState.step, if_pos hc]
      exact ih fun c' hc' => h c' (List.mem_cons_of_mem c hc')

/-- A printed number is `0`, or digits the first of which is another. -/
theorem text_cases (n : Nat) : Numerals.text 10 n = ['0'] ∨
    ∃ c cs, Numerals.text 10 n = c :: cs ∧ c ≠ '0' ∧ c.isDigit = true ∧ ∀ c' ∈ cs, c'.isDigit = true := by
  by_cases hn : n = 0
  · exact .inl (if_pos hn)
  · have hne : Numerals.digits 10 n ≠ [] := Numerals.digits_ne_nil hn
    have hhead := Numerals.digits_head (by decide) hne
    have htext : Numerals.text 10 n = (Numerals.digits 10 n).map Nat.digitChar := if_neg hn
    cases hdigits : Numerals.digits 10 n with
    | nil => exact absurd hdigits hne
    | cons d ds =>
        have hlt : ∀ d' ∈ d :: ds, d' < 10 := fun d' hd' => Numerals.digits_lt (by decide) (hdigits ▸ hd')
        simp only [hdigits, List.head_cons] at hhead
        refine .inr ⟨Nat.digitChar d, ds.map Nat.digitChar, by rw [htext, hdigits, List.map_cons],
          (digitChar_decimal (hlt d List.mem_cons_self)).2.2 hhead,
          (digitChar_decimal (hlt d List.mem_cons_self)).1, ?_⟩
        intro c' hc'
        obtain ⟨d', hd', rfl⟩ := List.mem_map.mp hc'
        exact (digitChar_decimal (hlt d' (List.mem_cons_of_mem d hd'))).1

theorem digit_ne (hc : c.isDigit = true) : c ≠ '-' ∧ c ≠ '+' := by
  constructor
  · rintro rfl
    exact absurd hc (by decide)
  · rintro rfl
    exact absurd hc (by decide)

/-- What is written for an integer is a number. -/
theorem accepts_intText (n : Int) : NumState.start.accepts (intText n) = true := by
  unfold intText
  rcases text_cases n.natAbs with htext | ⟨c, cs, htext, hzero, hc, hcs⟩
  · rw [htext]
    split_ifs <;> decide
  · have hminus := (digit_ne hc).1
    rw [htext]
    split_ifs
    · rw [NumState.accepts]
      simp only [NumState.step, if_true, NumState.accepts, if_neg hzero, if_pos hc]
      exact accepts_digits hcs
    · rw [NumState.accepts]
      simp only [NumState.step, if_neg hminus, if_neg hzero, if_pos hc]
      exact accepts_digits hcs

theorem parseSigned_intText (n : Int) : parseSigned (intText n) = some n := by
  unfold intText
  split_ifs with hneg
  · have habs : -(n.natAbs : Int) = n := by omega
    rw [parseSigned, if_pos rfl, parseDigits_text, Option.map_some, habs]
  · have habs : (n.natAbs : Int) = n := by omega
    have hdigits := parseDigits_text (n := n.natAbs)
    obtain ⟨c, cs, htext⟩ := List.exists_cons_of_ne_nil (Numerals.text_ne_nil (b := 10) (n := n.natAbs))
    have hc : c ∈ Numerals.text 10 n.natAbs := htext ▸ List.mem_cons_self
    obtain ⟨hminus, hplus⟩ := digit_ne (isDigit_text hc)
    rw [htext] at hdigits ⊢
    rw [parseSigned, if_neg hminus, if_neg hplus, hdigits, Option.map_some, Int.ofNat_eq_natCast, habs]

/-- An integer of 64 bits is read as it was written. -/
theorem parseInt_intText {n : Int} (hn : -2 ^ 63 ≤ n ∧ n < 2 ^ 63) : parseInt (intText n) = some n := by
  rw [parseInt, parseSigned_intText, Option.filter_some, if_pos (decide_eq_true hn)]

end numbers

section ascii

/-- Every character is ASCII. -/
def Ascii (cs : List Char) : Prop := ∀ c ∈ cs, c.toNat < 128

variable {cs ds : List Char}

theorem Ascii.append (hcs : Ascii cs) (hds : Ascii ds) : Ascii (cs ++ ds) := by
  intro c hc
  rcases List.mem_append.mp hc with hc | hc
  · exact hcs c hc
  · exact hds c hc

theorem Ascii.cons {c : Char} (hc : c.toNat < 128) (hcs : Ascii cs) : Ascii (c :: cs) :=
  List.forall_mem_cons.mpr ⟨hc, hcs⟩

theorem runes_cons {b : UInt8} {bs : List UInt8} (hb : b < 0x80) :
    Ingest.runes (b :: bs) = Char.ofNat b.toNat :: Ingest.runes bs := by
  conv => lhs; unfold Ingest.runes
  exact if_pos hb

/-- ASCII characters are read back from their bytes. -/
theorem runes_encode (h : Ascii cs) : Ingest.runes (Utf8.encode cs) = cs := by
  induction cs with
  | nil => rfl
  | cons c cs ih =>
      have hc := h c List.mem_cons_self
      obtain ⟨b, bs, hchar, -, -, hascii, -⟩ := Utf8.encodeChar_eq c
      obtain ⟨rfl, hb⟩ := hascii hc
      have hsmall : b < 0x80 := by
        rw [UInt8.lt_iff_toNat_lt, hb]
        exact hc
      have hencode : Utf8.encode (c :: cs) = b :: Utf8.encode cs := by
        rw [Utf8.encode, List.flatMap_cons, hchar, Utf8.encode, List.singleton_append]
      rw [hencode, runes_cons hsmall, ih fun c' hc' => h c' (List.mem_cons_of_mem c hc'), hb, Char.ofNat_toNat]

theorem ascii_of_all (h : cs.all (fun c => decide (c.toNat < 128)) = true) : Ascii cs := by
  intro c hc
  exact of_decide_eq_true (List.all_eq_true.mp h c hc)

theorem ascii_hexChar {d : Nat} (hd : d < 16) : (Json.hexChar d).toNat < 128 := by
  have hall : ∀ d : Fin 16, (Json.hexChar d).toNat < 128 := by decide
  exact hall ⟨d, hd⟩

theorem ascii_quoteChar {c : Char} (hc : c.toNat < 128) : Ascii (Json.quoteChar c) := by
  have hhex : ∀ n, (Json.hexChar (n % 16)).toNat < 128 := fun n => ascii_hexChar (Nat.mod_lt n (by decide))
  unfold Json.quoteChar
  split_ifs
  · exact .cons (by decide) (.cons hc nofun)
  · exact ascii_of_all (by decide)
  · exact ascii_of_all (by decide)
  · exact ascii_of_all (by decide)
  · exact ascii_of_all (by decide)
  · exact ascii_of_all (by decide)
  · refine .cons (by decide) (.cons (by decide) ?_)
    exact .cons (hhex _) (.cons (hhex _) (.cons (hhex _) (.cons (hhex _) nofun)))
  · exact .cons hc nofun

theorem ascii_quote {s : String} (hs : Ascii s.toList) : Ascii (Json.quote s) := by
  refine .cons (by decide) (.append ?_ (.cons (by decide) nofun))
  intro c hc
  obtain ⟨c', hc', hmem⟩ := List.mem_flatMap.mp hc
  exact ascii_quoteChar (hs c' hc') c hmem

theorem ascii_encode (bs : List UInt8) : Ascii (String.ofList (Base64.encode bs)).toList := by
  have hletter : ∀ n < 64, (Base64.letter n).toNat < 128 := by
    have hall : ∀ n : Fin 64, (Base64.letter n).toNat < 128 := by decide
    exact fun n hn => hall ⟨n, hn⟩
  rw [String.toList_ofList]
  exact Base64.forall_encode hletter (by decide) bs

theorem ascii_intText (n : Int) : Ascii (intText n) := by
  have htext : Ascii (Numerals.text 10 n.natAbs) := by
    intro c hc
    obtain ⟨d, hd, rfl⟩ := Numerals.mem_text (by decide) hc
    have hall : ∀ d : Fin 10, (Nat.digitChar d).toNat < 128 := by decide
    exact hall ⟨d, hd⟩
  unfold intText
  split_ifs
  · exact .cons (by decide) htext
  · exact htext

theorem ascii_record {r : Record} (hr : ∀ f ∈ r, Ascii f.1.toList ∧ Ascii f.2.text) : Ascii (Json.Record.text r) := by
  have hnewline : ∀ d, Ascii (Json.newline d) := by
    intro d
    refine .cons (by decide) fun c hc => ?_
    rw [List.eq_of_mem_replicate hc]
    decide
  have hmember : ∀ f ∈ r, ∀ rest, Ascii rest → Ascii (Json.Record.member f rest) := by
    intro f hf rest hrest
    obtain ⟨hkey, hvalue⟩ := hr f hf
    exact .append (hnewline 1) (.append (ascii_quote hkey)
      (.cons (by decide) (.cons (by decide) (.append hvalue hrest))))
  have hmore : ∀ fields : Record, (∀ f ∈ fields, f ∈ r) → Ascii (Json.Record.more fields) := by
    intro fields hsub
    induction fields with
    | nil => exact .append (hnewline 0) (.cons (by decide) nofun)
    | cons f fields ih =>
        exact .cons (by decide) (hmember f (hsub f List.mem_cons_self) _
          (ih fun f' hf' => hsub f' (List.mem_cons_of_mem f hf')))
  cases r with
  | nil => exact ascii_of_all (by decide)
  | cons f fields =>
      exact .cons (by decide) (hmember f List.mem_cons_self _ (hmore fields fun f' hf' => List.mem_cons_of_mem f hf'))

end ascii

section roundTrip

/-- An envelope whose strings are ASCII and whose integers have 64 bits. -/
structure CAKeyEnvelope.Encodable (env : CAKeyEnvelope) : Prop where
  magic : Ascii env.magic.toList
  kdf : Ascii env.kdf.toList
  scryptN : -2 ^ 63 ≤ env.scryptN ∧ env.scryptN < 2 ^ 63
  scryptR : -2 ^ 63 ≤ env.scryptR ∧ env.scryptR < 2 ^ 63
  scryptP : -2 ^ 63 ≤ env.scryptP ∧ env.scryptP < 2 ^ 63

variable {env : CAKeyEnvelope}

theorem fieldOf_tag (f : Field) : fieldOf f.tag = some f := by
  cases f <;> decide

theorem ascii_tag (f : Field) : Ascii f.tag.toList := by
  cases f <;> exact ascii_of_all (by decide)

theorem decodeBytes_encode (old : ByteSlice) (bs : List UInt8) :
    decodeBytes old (.string (String.ofList (Base64.encode bs))) = some ⟨bs, []⟩ := by
  rw [decodeBytes, String.toList_ofList, Base64.decode_encode]
  rfl

theorem valid_record {f : String × Json.Scalar} (hf : f ∈ env.record) : f.2.Valid := by
  simp only [CAKeyEnvelope.record, List.mem_cons, List.not_mem_nil, or_false] at hf
  rcases hf with rfl | rfl | rfl | rfl | rfl | rfl | rfl | rfl
  · trivial
  · trivial
  · exact accepts_intText _
  · exact accepts_intText _
  · exact accepts_intText _
  · trivial
  · trivial
  · trivial

theorem ascii_text (h : env.Encodable) : Ascii (Json.Record.text env.record) := by
  apply ascii_record
  intro f hf
  simp only [CAKeyEnvelope.record, List.mem_cons, List.not_mem_nil, or_false] at hf
  rcases hf with rfl | rfl | rfl | rfl | rfl | rfl | rfl | rfl
  · exact ⟨ascii_tag .magic, ascii_quote h.magic⟩
  · exact ⟨ascii_tag .kdf, ascii_quote h.kdf⟩
  · exact ⟨ascii_tag .scryptN, ascii_intText _⟩
  · exact ⟨ascii_tag .scryptR, ascii_intText _⟩
  · exact ⟨ascii_tag .scryptP, ascii_intText _⟩
  · exact ⟨ascii_tag .salt, ascii_quote (ascii_encode _)⟩
  · exact ⟨ascii_tag .nonce, ascii_quote (ascii_encode _)⟩
  · exact ⟨ascii_tag .ciphertext, ascii_quote (ascii_encode _)⟩

theorem decodeMembers_record (h : env.Encodable) :
    (decodeMembers ⟨zeroEnvelope, [], [], []⟩ (Json.Record.form env.record)).map Decoding.env = some env := by
  have hn := parseInt_intText h.scryptN
  have hr := parseInt_intText h.scryptR
  have hp := parseInt_intText h.scryptP
  simp only [CAKeyEnvelope.record, Json.Record.form, Json.Scalar.form, decodeMembers, fieldOf_tag, Decoding.set,
    decodeString, decodeInt, decodeBytes_encode, hn, hr, hp, Option.map_some, Option.bind_some]

/-- An envelope is read as it was written. -/
theorem unmarshal_marshal (h : env.Encodable) : unmarshalEnvelope (marshalEnvelope env) = some env := by
  have hform : Json.formOf (Ingest.runes (marshalEnvelope env)) = some (Json.Record.form env.record) := by
    rw [marshalEnvelope, runes_encode (ascii_text h), Json.formOf_text fun f hf => valid_record hf]
  have hshallow : ¬ Json.maxNestingDepth < (Json.Record.form env.record).depth := by
    rw [Json.depth_recordForm]
    decide
  rw [unmarshalEnvelope, hform]
  exact (if_neg hshallow).trans (decodeMembers_record h)

end roundTrip

section panics

variable {Block GCM : Type} (P : Primitives Block GCM)

/-- The key derivation that an envelope asks for. -/
def derive (env : CAKeyEnvelope) (passphrase : List UInt8) : Outcome (List UInt8) :=
  P.scryptKey passphrase env.salt env.scryptN env.scryptR env.scryptP 32

/-- An envelope that is refused for its magic or its key derivation, whose derivation gives an error, or whose
derivation does not panic and whose nonce is as long as the cipher's. -/
def Openable (env : CAKeyEnvelope) (passphrase : List UInt8) : Prop :=
  env.magic ≠ envelopeMagic ∨ env.kdf ≠ "scrypt" ∨ (∃ err, derive P env passphrase = .error err) ∨
    derive P env passphrase ≠ .panic ∧ env.nonce.length = gcmNonceSize

variable {P} {env : CAKeyEnvelope} {passphrase plaintext envBytes : List UInt8}

theorem gcmOpen_ne_panic {gcm : GCM} {nonce ciphertext : List UInt8} :
    gcmOpen P gcm nonce ciphertext ≠ .panic ↔ nonce.length = gcmNonceSize := by
  unfold gcmOpen
  split_ifs with hlength
  · exact ⟨fun _ => hlength, fun _ => Outcome.ofExcept_ne_panic⟩
  · exact ⟨fun h => absurd rfl h, fun h => absurd h hlength⟩

/-- Of the calls of an opening two can panic, the derivation of the key and the cipher. -/
theorem openEnvelope_ne_panic : openEnvelope P env passphrase ≠ .panic ↔ Openable P env passphrase := by
  unfold openEnvelope Openable
  split_ifs with hmagic hkdf
  · exact ⟨fun _ => .inl hmagic, fun _ => nofun⟩
  · exact ⟨fun _ => .inr (.inl hkdf), fun _ => nofun⟩
  · simp only [hmagic, hkdf, false_or]
    rw [Outcome.bind_ne_panic, Outcome.wrap_ne_panic]
    change derive P env passphrase ≠ .panic ∧ _ ↔ _
    constructor
    · rintro ⟨hderive, hrest⟩
      cases hkey : derive P env passphrase with
      | panic => exact absurd hkey hderive
      | error err => exact .inl ⟨err, rfl⟩
      | ok dk =>
          -- a derived key makes a cipher, which is handed the nonce
          obtain ⟨block, hblock⟩ := P.newCipher_ok (P.scryptKey_length hkey)
          obtain ⟨gcm, hgcm⟩ := P.newGCM_ok block
          have hcipher := (Outcome.bind_ne_panic.mp (hrest dk (Outcome.wrap_eq_ok.mpr hkey))).2 block
            (Outcome.wrap_eq_ok.mpr (Outcome.ofExcept_eq_ok.mpr hblock))
          have hopen := (Outcome.bind_ne_panic.mp hcipher).2 gcm
            (Outcome.wrap_eq_ok.mpr (Outcome.ofExcept_eq_ok.mpr hgcm))
          exact .inr ⟨nofun, gcmOpen_ne_panic.mp (Outcome.wrap_ne_panic.mp hopen)⟩
    · rintro (⟨err, herr⟩ | ⟨hderive, hnonce⟩)
      · refine ⟨by rw [herr]; nofun, fun dk hdk => ?_⟩
        have hkey : derive P env passphrase = .ok dk := Outcome.wrap_eq_ok.mp hdk
        rw [herr] at hkey
        cases hkey
      · refine ⟨hderive, fun dk _ => ?_⟩
        refine Outcome.bind_ne_panic.mpr ⟨Outcome.wrap_ne_panic.mpr Outcome.ofExcept_ne_panic, fun block _ => ?_⟩
        refine Outcome.bind_ne_panic.mpr ⟨Outcome.wrap_ne_panic.mpr Outcome.ofExcept_ne_panic, fun gcm _ => ?_⟩
        exact Outcome.wrap_ne_panic.mpr (gcmOpen_ne_panic.mpr hnonce)

theorem decryptCAKey_ne_panic : decryptCAKey P envBytes passphrase ≠ .panic ↔
    passphrase = [] ∨ ∀ env, unmarshalEnvelope envBytes = some env → Openable P env passphrase := by
  unfold decryptCAKey
  split_ifs with hempty
  · exact ⟨fun _ => .inl hempty, fun _ => nofun⟩
  · cases hread : unmarshalEnvelope envBytes with
    | none => exact ⟨fun _ => .inr nofun, fun _ => nofun⟩
    | some env =>
        simp only [hempty, false_or, Option.some.injEq, forall_eq']
        exact openEnvelope_ne_panic

end panics

section crypt

variable {Block GCM : Type} {P : Primitives Block GCM} {d : EnvelopeDraws} {plaintext passphrase envBytes : List UInt8}

/-- The envelope an encryption writes. -/
def sealedEnvelope (salt nonce ct : List UInt8) : CAKeyEnvelope :=
  ⟨envelopeMagic, "scrypt", scryptN, scryptR, scryptP, salt, nonce, ct⟩

theorem encodable_sealed (salt nonce ct : List UInt8) : (sealedEnvelope salt nonce ct).Encodable where
  magic := (ascii_of_all (by decide) : Ascii envelopeMagic.toList)
  kdf := (ascii_of_all (by decide) : Ascii "scrypt".toList)
  scryptN := (by decide : -2 ^ 63 ≤ Pki.scryptN ∧ Pki.scryptN < 2 ^ 63)
  scryptR := (by decide : -2 ^ 63 ≤ Pki.scryptR ∧ Pki.scryptR < 2 ^ 63)
  scryptP := (by decide : -2 ^ 63 ≤ Pki.scryptP ∧ Pki.scryptP < 2 ^ 63)

/-- What an encryption has drawn, derived and written. -/
theorem encryptCAKey_ok (h : encryptCAKey P d plaintext passphrase = .ok envBytes) : passphrase ≠ [] ∧
    ∃ salt nonce dk block gcm, P.scryptKey passphrase salt scryptN scryptR scryptP 32 = .ok dk ∧
      P.newCipher dk = .ok block ∧ P.newGCM block = .ok gcm ∧ nonce.length = gcmNonceSize ∧
      envBytes = marshalEnvelope (sealedEnvelope salt nonce (P.sealBytes gcm nonce plaintext)) := by
  unfold encryptCAKey at h
  split_ifs at h with hempty
  obtain ⟨salt, -, h⟩ := Outcome.bind_eq_ok.mp h
  obtain ⟨dk, hdk, h⟩ := Outcome.bind_eq_ok.mp h
  obtain ⟨block, hblock, h⟩ := Outcome.bind_eq_ok.mp h
  obtain ⟨gcm, hgcm, h⟩ := Outcome.bind_eq_ok.mp h
  obtain ⟨nonce, -, h⟩ := Outcome.bind_eq_ok.mp h
  obtain ⟨ct, hct, h⟩ := Outcome.bind_eq_ok.mp h
  rw [gcmSeal, if_pos nonce.property] at hct
  cases hct
  cases h
  exact ⟨hempty, salt.val, nonce.val, dk, block, gcm, Outcome.wrap_eq_ok.mp hdk,
    Outcome.ofExcept_eq_ok.mp (Outcome.wrap_eq_ok.mp hblock), Outcome.ofExcept_eq_ok.mp (Outcome.wrap_eq_ok.mp hgcm),
    nonce.property, rfl⟩

/-- The opening of an envelope that passes every check. -/
theorem openEnvelope_ok {env : CAKeyEnvelope} {dk : List UInt8} {block : Block} {gcm : GCM}
    (hmagic : env.magic = envelopeMagic) (hkdf : env.kdf = "scrypt") (hdk : derive P env passphrase = .ok dk)
    (hblock : P.newCipher dk = .ok block) (hgcm : P.newGCM block = .ok gcm) (hnonce : env.nonce.length = gcmNonceSize)
    (hopen : P.openBytes gcm env.nonce env.ciphertext = .ok plaintext) :
    openEnvelope P env passphrase = .ok plaintext := by
  rw [openEnvelope, if_neg (not_not.mpr hmagic), if_neg (not_not.mpr hkdf)]
  refine Outcome.bind_eq_ok.mpr ⟨dk, Outcome.wrap_eq_ok.mpr hdk, ?_⟩
  refine Outcome.bind_eq_ok.mpr ⟨block, Outcome.wrap_eq_ok.mpr (Outcome.ofExcept_eq_ok.mpr hblock), ?_⟩
  refine Outcome.bind_eq_ok.mpr ⟨gcm, Outcome.wrap_eq_ok.mpr (Outcome.ofExcept_eq_ok.mpr hgcm), ?_⟩
  rw [gcmOpen, if_pos hnonce]
  exact Outcome.wrap_eq_ok.mpr (Outcome.ofExcept_eq_ok.mpr hopen)

/-- What is encrypted is decrypted under its passphrase. -/
theorem decryptCAKey_encryptCAKey (h : encryptCAKey P d plaintext passphrase = .ok envBytes) :
    decryptCAKey P envBytes passphrase = .ok plaintext := by
  obtain ⟨hempty, salt, nonce, dk, block, gcm, hdk, hblock, hgcm, hnonce, rfl⟩ := encryptCAKey_ok h
  rw [decryptCAKey, if_neg hempty, unmarshal_marshal (encodable_sealed _ _ _)]
  exact openEnvelope_ok rfl rfl hdk hblock hgcm hnonce (P.open_seal gcm plaintext hnonce)

/-- An encryption that gets its random bytes succeeds. -/
theorem encryptCAKey_exists (hempty : passphrase ≠ []) {salt : { bs : List UInt8 // bs.length = 16 }}
    {nonce : { bs : List UInt8 // bs.length = gcmNonceSize }} (hsalt : d.salt = .ok salt)
    (hnonce : d.nonce = .ok nonce) : ∃ envBytes, encryptCAKey P d plaintext passphrase = .ok envBytes := by
  obtain ⟨dk, hdk⟩ := P.scryptKey_ok passphrase salt.val
  obtain ⟨block, hblock⟩ := P.newCipher_ok (P.scryptKey_length hdk)
  obtain ⟨gcm, hgcm⟩ := P.newGCM_ok block
  refine ⟨marshalEnvelope (sealedEnvelope salt.val nonce.val (P.sealBytes gcm nonce.val plaintext)), ?_⟩
  have hseal : gcmSeal P gcm nonce.val plaintext = .ok (P.sealBytes gcm nonce.val plaintext) := if_pos nonce.property
  rw [encryptCAKey, if_neg hempty]
  refine Outcome.bind_eq_ok.mpr ⟨salt, by rw [hsalt]; rfl, ?_⟩
  refine Outcome.bind_eq_ok.mpr ⟨dk, by rw [hdk]; rfl, ?_⟩
  refine Outcome.bind_eq_ok.mpr ⟨block, by rw [hblock]; rfl, ?_⟩
  refine Outcome.bind_eq_ok.mpr ⟨gcm, by rw [hgcm]; rfl, ?_⟩
  refine Outcome.bind_eq_ok.mpr ⟨nonce, by rw [hnonce]; rfl, ?_⟩
  exact Outcome.bind_eq_ok.mpr ⟨_, hseal, rfl⟩

/-- The envelopes that are read without a panic, and the way back from every encryption. -/
theorem decryptCAKey_total_iff (P : Primitives Block GCM) (passphrase : List UInt8) :
    (∀ envBytes, decryptCAKey P envBytes passphrase ≠ .panic ↔
      passphrase = [] ∨ ∀ env, unmarshalEnvelope envBytes = some env → Openable P env passphrase) ∧
    (∀ d plaintext envBytes, encryptCAKey P d plaintext passphrase = .ok envBytes →
      decryptCAKey P envBytes passphrase = .ok plaintext) ∧
    ∀ (d : EnvelopeDraws) plaintext salt nonce, passphrase ≠ [] → d.salt = .ok salt → d.nonce = .ok nonce →
      ∃ envBytes, encryptCAKey P d plaintext passphrase = .ok envBytes :=
  ⟨fun _ => decryptCAKey_ne_panic, fun _ _ _ h => decryptCAKey_encryptCAKey h,
    fun _ _ _ _ hempty hsalt hnonce => encryptCAKey_exists hempty hsalt hnonce⟩

/-- A derivation of one key, and a cipher whose tag is 16 zeros. -/
def zeroPrimitives : Primitives Unit Unit where
  scryptKey _ _ n _ _ len :=
    if n ≤ 1 then .error "scrypt: N must be > 1 and a power of 2" else .ok (List.replicate len 0)
  newCipher key := if key.length = 32 then .ok () else .error "crypto/aes: invalid key size"
  newGCM _ := .ok ()
  sealBytes _ _ plaintext := plaintext ++ List.replicate 16 0
  openBytes _ _ ct :=
    if ct.length < 16 then .error "cipher: message authentication failed" else .ok (ct.take (ct.length - 16))
  quote s := "\"" ++ s ++ "\""
  scryptKey_ok _ _ := ⟨List.replicate 32 0, rfl⟩
  scryptKey_length {_ _ dk n _ _ len} h := by
    split_ifs at h
    cases h
    exact List.length_replicate
  newCipher_ok h := ⟨(), if_pos h⟩
  newGCM_ok _ := ⟨(), rfl⟩
  open_seal _ plaintext _ := by
    rw [List.length_append, List.length_replicate, if_neg (by omega), Nat.add_sub_cancel, List.take_left]

/-- An envelope with a nonce of eleven bytes. -/
def shortNonce : CAKeyEnvelope := sealedEnvelope (List.replicate 16 0) (List.replicate 11 0) (List.replicate 48 0)

theorem decryptCAKey_short_nonce : decryptCAKey zeroPrimitives (marshalEnvelope shortNonce) [112, 119] = .panic := by
  rw [decryptCAKey, if_neg (by decide), shortNonce, unmarshal_marshal (encodable_sealed _ _ _)]
  rfl

def zeroDraws : EnvelopeDraws := ⟨.ok ⟨List.replicate 16 0, rfl⟩, .ok ⟨List.replicate 12 0, rfl⟩⟩

theorem total_iff_zero_key : ∃ envBytes, encryptCAKey zeroPrimitives zeroDraws [1, 2, 3] [112, 119] = .ok envBytes ∧
    decryptCAKey zeroPrimitives envBytes [112, 119] = .ok [1, 2, 3] := by
  obtain ⟨-, hback, hexists⟩ := decryptCAKey_total_iff zeroPrimitives [112, 119]
  obtain ⟨envBytes, henv⟩ := hexists zeroDraws [1, 2, 3] _ _ (by decide) rfl rfl
  exact ⟨envBytes, henv, hback _ _ _ henv⟩

end crypt

end ThesadaApp.Pki
