import ThesadaApp.Base64
import ThesadaApp.JsonRecord
import ThesadaApp.MqttHandlers
import ThesadaApp.Numerals
import ThesadaApp.Outcome
import ThesadaApp.Utf8Lossy

/-!
The encrypted form of the CA key: a JSON envelope with the parameters of the key derivation, the nonce and the
ciphertext. A Go string is a list of bytes where it is a passphrase.
-/

namespace ThesadaApp.Pki

open Json (Form Record)

def envelopeMagic : String := "THESADA-CAKEY-V1"

/-- `scryptN`, `scryptR` and `scryptP`. -/
def scryptN : Int := 32768

def scryptR : Int := 8

def scryptP : Int := 1

/-- `caKeyEnvelope`. -/
structure CAKeyEnvelope where
  magic : String
  kdf : String
  scryptN : Int
  scryptR : Int
  scryptP : Int
  salt : List UInt8
  nonce : List UInt8
  ciphertext : List UInt8
  deriving DecidableEq

section numbers

/-- A decimal literal. -/
def intText (n : Int) : List Char :=
  if n < 0 then '-' :: Numerals.text 10 n.natAbs else Numerals.text 10 n.natAbs

def digitValue (c : Char) : Nat := c.toNat - 48

/-- The number that some decimal digits name. -/
def parseDigits (l : List Char) : Option Nat :=
  if l ≠ [] ∧ l.all Char.isDigit then some (Numerals.value 10 (l.map digitValue)) else none

/-- Decimal digits after a sign, if there is one. -/
def parseSigned : List Char → Option Int
  | [] => none
  | c :: cs =>
      if c = '-' then (parseDigits cs).map fun n : Nat => -(n : Int)
      else if c = '+' then (parseDigits cs).map Int.ofNat
      else (parseDigits (c :: cs)).map Int.ofNat

/-- `strconv.ParseInt` to 64 bits. -/
def parseInt (l : List Char) : Option Int := (parseSigned l).filter fun n => -2 ^ 63 ≤ n ∧ n < 2 ^ 63

/-- `strconv.ParseUint`, for a byte. -/
def parseByte (l : List Char) : Option UInt8 := ((parseDigits l).filter (· < 256)).map UInt8.ofNat

end numbers

/-- The fields of `caKeyEnvelope` and their tags. -/
inductive Field where
  | magic
  | kdf
  | scryptN
  | scryptR
  | scryptP
  | salt
  | nonce
  | ciphertext
  deriving DecidableEq

def Field.all : List Field := [.magic, .kdf, .scryptN, .scryptR, .scryptP, .salt, .nonce, .ciphertext]

def Field.tag : Field → String
  | .magic => "magic"
  | .kdf => "kdf"
  | .scryptN => "scrypt_n"
  | .scryptR => "scrypt_r"
  | .scryptP => "scrypt_p"
  | .salt => "salt"
  | .nonce => "nonce"
  | .ciphertext => "ciphertext"

section marshal

/-- The fields of an envelope. Its slices are not nil. -/
def CAKeyEnvelope.record (env : CAKeyEnvelope) : Record :=
  [(Field.magic.tag, .string env.magic), (Field.kdf.tag, .string env.kdf),
    (Field.scryptN.tag, .number (intText env.scryptN)), (Field.scryptR.tag, .number (intText env.scryptR)),
    (Field.scryptP.tag, .number (intText env.scryptP)),
    (Field.salt.tag, .string (String.ofList (Base64.encode env.salt))),
    (Field.nonce.tag, .string (String.ofList (Base64.encode env.nonce))),
    (Field.ciphertext.tag, .string (String.ofList (Base64.encode env.ciphertext)))]

/-- `json.MarshalIndent`. -/
def marshalEnvelope (env : CAKeyEnvelope) : List UInt8 := Utf8.encode (Json.Record.text env.record)

end marshal

section unmarshal

/-- How a letter of a key is compared. Two characters that are not ASCII fold to ASCII letters. -/
def foldRune (c : Char) : Char :=
  if c = Char.ofNat 0x17F then 'S' else if c = Char.ofNat 0x212A then 'K' else c.toUpper

def foldName (s : String) : List Char := s.toList.map foldRune

/-- The field a key names: the one that has it as its tag, or else one that has it but for the case. -/
def fieldOf (key : String) : Option Field :=
  (Field.all.find? fun f => f.tag = key).or (Field.all.find? fun f => foldName f.tag = foldName key)

/-- What a value makes of a field that is a string; `null` leaves it as it is. -/
def decodeString (old : String) : Form → Option String
  | .null => some old
  | .string s => some s
  | _ => none

def decodeInt (old : Int) : Form → Option Int
  | .null => some old
  | .number l => parseInt l
  | _ => none

/-- The elements of an array, or of the rest of one, as bytes over what the array of the slice holds; `null` leaves the
byte that is there. -/
def decodeByteArray : List UInt8 → Form → Option (List UInt8)
  | _, .nil => some []
  | array, .cons .null tail => (decodeByteArray array.tail tail).map (array.headD 0 :: ·)
  | array, .cons (.number l) tail => do
      let b ← parseByte l
      let bs ← decodeByteArray array.tail tail
      return b :: bs
  | _, _ => none

/-- A slice of bytes, with what its array holds after it. -/
structure ByteSlice where
  bytes : List UInt8
  spare : List UInt8

/-- An array is decoded over what a member with the same key has left; an empty one, `null` and a string are not. -/
def decodeBytes (old : ByteSlice) : Form → Option ByteSlice
  | .null | .nil => some ⟨[], []⟩
  | .string s => (Base64.decode s.toList).map fun bs => ⟨bs, []⟩
  | t =>
      let array := old.bytes ++ old.spare
      (decodeByteArray array t).map fun bs => ⟨bs, array.drop bs.length⟩

/-- An envelope that is being decoded, with what the arrays of its slices hold after them. -/
structure Decoding where
  env : CAKeyEnvelope
  saltSpare : List UInt8
  nonceSpare : List UInt8
  ciphertextSpare : List UInt8

def Decoding.set (d : Decoding) (f : Field) (v : Form) : Option Decoding :=
  match f with
  | .magic => (decodeString d.env.magic v).map fun s => { d with env := { d.env with magic := s } }
  | .kdf => (decodeString d.env.kdf v).map fun s => { d with env := { d.env with kdf := s } }
  | .scryptN => (decodeInt d.env.scryptN v).map fun n => { d with env := { d.env with scryptN := n } }
  | .scryptR => (decodeInt d.env.scryptR v).map fun n => { d with env := { d.env with scryptR := n } }
  | .scryptP => (decodeInt d.env.scryptP v).map fun n => { d with env := { d.env with scryptP := n } }
  | .salt =>
      (decodeBytes ⟨d.env.salt, d.saltSpare⟩ v).map fun b =>
        { d with env := { d.env with salt := b.bytes }, saltSpare := b.spare }
  | .nonce =>
      (decodeBytes ⟨d.env.nonce, d.nonceSpare⟩ v).map fun b =>
        { d with env := { d.env with nonce := b.bytes }, nonceSpare := b.spare }
  | .ciphertext =>
      (decodeBytes ⟨d.env.ciphertext, d.ciphertextSpare⟩ v).map fun b =>
        { d with env := { d.env with ciphertext := b.bytes }, ciphertextSpare := b.spare }

/-- The members of an object, one after the other. A key that names no field is skipped. -/
def decodeMembers (d : Decoding) : Form → Option Decoding
  | .field k v rest =>
      match fieldOf k with
      | none => decodeMembers d rest
      | some f => (d.set f v).bind fun d => decodeMembers d rest
  | .empty => some d
  | _ => none

def zeroEnvelope : CAKeyEnvelope := ⟨"", "", 0, 0, 0, [], [], []⟩

/-- `json.Unmarshal` into an envelope. -/
def unmarshalEnvelope (bs : List UInt8) : Option CAKeyEnvelope :=
  match Json.formOf (Ingest.runes bs) with
  | none => none
  | some .null => some zeroEnvelope
  | some t =>
      if Json.maxNestingDepth < t.depth then none else (decodeMembers ⟨zeroEnvelope, [], [], []⟩ t).map Decoding.env

end unmarshal

def gcmNonceSize : Nat := 12

/-- The key derivation and the cipher, with the errors they give. The derivation takes the parameters of an
encryption, a derived key has the length that was asked for, AES takes keys of 32 bytes, and the cipher opens what it
has sealed. -/
structure Primitives (Block GCM : Type) where
  /-- `scrypt.Key`: password, salt, the three parameters and the length of the key. -/
  scryptKey : List UInt8 → List UInt8 → Int → Int → Int → Nat → Outcome (List UInt8)
  newCipher : List UInt8 → Except String Block
  newGCM : Block → Except String GCM
  /-- The cipher under a nonce of its size. -/
  sealBytes : GCM → List UInt8 → List UInt8 → List UInt8
  openBytes : GCM → List UInt8 → List UInt8 → Except String (List UInt8)
  /-- `strconv.Quote`. -/
  quote : String → String
  scryptKey_ok (pw salt : List UInt8) : ∃ dk, scryptKey pw salt Pki.scryptN Pki.scryptR Pki.scryptP 32 = .ok dk
  scryptKey_length {pw salt dk : List UInt8} {n r p : Int} {len : Nat} :
    scryptKey pw salt n r p len = .ok dk → dk.length = len
  newCipher_ok {key : List UInt8} : key.length = 32 → ∃ block, newCipher key = .ok block
  newGCM_ok (block : Block) : ∃ gcm, newGCM block = .ok gcm
  open_seal {nonce : List UInt8} (gcm : GCM) (plaintext : List UInt8) :
    nonce.length = gcmNonceSize → openBytes gcm nonce (sealBytes gcm nonce plaintext) = .ok plaintext

/-- What an encryption draws at random. -/
structure EnvelopeDraws where
  salt : Except String { bs : List UInt8 // bs.length = 16 }
  nonce : Except String { bs : List UInt8 // bs.length = gcmNonceSize }

section crypt

variable {Block GCM : Type} (P : Primitives Block GCM)

/-- `gcm.Seal`. -/
def gcmSeal (gcm : GCM) (nonce plaintext : List UInt8) : Outcome (List UInt8) :=
  if nonce.length = gcmNonceSize then .ok (P.sealBytes gcm nonce plaintext) else .panic

/-- `gcm.Open`. A nonce of another length panics. -/
def gcmOpen (gcm : GCM) (nonce ciphertext : List UInt8) : Outcome (List UInt8) :=
  if nonce.length = gcmNonceSize then .ofExcept (P.openBytes gcm nonce ciphertext) else .panic

def encryptCAKey (d : EnvelopeDraws) (plaintext passphrase : List UInt8) : Outcome (List UInt8) :=
  if passphrase = [] then .error "encryptCAKey: empty passphrase"
  else do
    let salt ← Outcome.wrap "salt" (.ofExcept d.salt)
    let dk ← Outcome.wrap "scrypt" (P.scryptKey passphrase salt.val scryptN scryptR scryptP 32)
    let block ← Outcome.wrap "aes" (.ofExcept (P.newCipher dk))
    let gcm ← Outcome.wrap "gcm" (.ofExcept (P.newGCM block))
    let nonce ← Outcome.wrap "nonce" (.ofExcept d.nonce)
    let ct ← gcmSeal P gcm nonce.val plaintext
    return marshalEnvelope {
      magic := envelopeMagic
      kdf := "scrypt"
      scryptN := scryptN
      scryptR := scryptR
      scryptP := scryptP
      salt := salt.val
      nonce := nonce.val
      ciphertext := ct }

/-- `decryptCAKey` once the envelope is read. -/
def openEnvelope (env : CAKeyEnvelope) (passphrase : List UInt8) : Outcome (List UInt8) :=
  if env.magic ≠ envelopeMagic then .error ("envelope magic mismatch: " ++ P.quote env.magic)
  else if env.kdf ≠ "scrypt" then .error ("envelope KDF unsupported: " ++ P.quote env.kdf)
  else do
    let dk ← Outcome.wrap "scrypt" (P.scryptKey passphrase env.salt env.scryptN env.scryptR env.scryptP 32)
    let block ← Outcome.wrap "aes" (.ofExcept (P.newCipher dk))
    let gcm ← Outcome.wrap "gcm" (.ofExcept (P.newGCM block))
    Outcome.wrap "decrypt" (gcmOpen P gcm env.nonce env.ciphertext)

/-- The text of the error of the JSON reader is left out. -/
def decryptCAKey (envBytes passphrase : List UInt8) : Outcome (List UInt8) :=
  if passphrase = [] then .error "decryptCAKey: empty passphrase"
  else
    match unmarshalEnvelope envBytes with
    | none => .error "envelope unmarshal"
    | some env => openEnvelope P env passphrase

end crypt

end ThesadaApp.Pki
