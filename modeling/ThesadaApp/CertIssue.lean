import ThesadaApp.EnrollApi
import ThesadaApp.MqttHandlers
import ThesadaApp.Numerals

/-!
The issue of a device certificate by the CA. Keys, certificates and their encodings are those of the crypto
libraries; what a call draws at random, and how its signature comes out, is given with the call.
-/

namespace ThesadaApp.Pki

open EnrollApi (SignedCert)

/-- An error carried on under a prefix. -/
def wrapError {α : Type} (context : String) (x : Except String α) : Except String α :=
  x.mapError fun err => context ++ ": " ++ err

/-- A `pem.Block` without headers. -/
structure Block where
  type : String
  bytes : List UInt8
  deriving DecidableEq

inductive KeyUsage where
  | digitalSignature
  | certSign
  | crlSign
  deriving DecidableEq

inductive ExtKeyUsage where
  | clientAuth
  deriving DecidableEq

/-- The fields of an `x509.Certificate` that a template sets. -/
structure Template where
  serialNumber : Nat
  commonName : String
  organization : List String
  notBefore : Time
  notAfter : Time
  keyUsage : List KeyUsage
  extKeyUsage : List ExtKeyUsage
  basicConstraintsValid : Bool
  isCA : Bool
  maxPathLen : Int
  deriving DecidableEq

/-- Who signs: the holder of a certificate, or a certificate signs itself. -/
inductive Parent (Certificate : Type) where
  | certificate (c : Certificate)
  | template (t : Template)

/-- The keys and certificates of `crypto/ecdsa` and `crypto/x509` and their encodings, each with the error it may
give. A PKCS#8 body may hold a key of another algorithm. -/
structure X509 (PrivateKey Certificate : Type) where
  parsePKCS8PrivateKey : List UInt8 → Except String (Option PrivateKey)
  parseECPrivateKey : List UInt8 → Except String PrivateKey
  marshalPKCS8PrivateKey : PrivateKey → Except String (List UInt8)
  parseCertificate : List UInt8 → Except String Certificate
  encodeToMemory : Block → List UInt8
  decode : List UInt8 → Option Block

/-- What one issue draws: a key, a serial below 2^128, the clock, and the signature over a template for the public
half of a key. -/
structure Draws (PrivateKey Certificate : Type) where
  generateKey : Except String PrivateKey
  serial : Except String (Fin (2 ^ 128))
  now : Time
  createCertificate : Template → Parent Certificate → PrivateKey → PrivateKey → Except String (List UInt8)

structure CA (PrivateKey Certificate : Type) where
  cert : Certificate
  certPEM : List UInt8
  key : PrivateKey
  deriving DecidableEq

/-- `%x` of a number. -/
def hexText (n : Nat) : String := String.ofList (Numerals.text 16 n)

/-- A byte slice as a string. -/
def byteString (bs : List UInt8) : String := String.ofList (Ingest.runes bs)

variable {PrivateKey Certificate : Type} (X : X509 PrivateKey Certificate) (d : Draws PrivateKey Certificate)

def deviceTemplate (serial : Nat) (cn : String) (now validity : Time) : Template where
  serialNumber := serial
  commonName := cn
  organization := ["thesada"]
  notBefore := now
  notAfter := now + validity
  keyUsage := [.digitalSignature]
  extKeyUsage := [.clientAuth]
  basicConstraintsValid := false
  isCA := false
  maxPathLen := 0

/-- `SignDeviceCert`. -/
def signDeviceCert (ca : CA PrivateKey Certificate) (cn : String) (validity : Time) : Except String SignedCert := do
  let deviceKey ← wrapError "generate device key" d.generateKey
  let serial ← wrapError "generate serial" d.serial
  let template := deviceTemplate serial cn d.now validity
  let certDER ← wrapError "sign cert" (d.createCertificate template (.certificate ca.cert) deviceKey ca.key)
  let keyDER ← wrapError "marshal key" (X.marshalPKCS8PrivateKey deviceKey)
  return {
    certPEM := byteString (X.encodeToMemory ⟨"CERTIFICATE", certDER⟩)
    keyPEM := byteString (X.encodeToMemory ⟨"PRIVATE KEY", keyDER⟩)
    serialHex := hexText serial }

variable {X d}

theorem wrapError_eq_ok {α : Type} {context : String} {x : Except String α} {a : α} :
    wrapError context x = .ok a ↔ x = .ok a := by
  cases x with
  | error err =>
      constructor
      · intro h
        cases h
      · intro h
        cases h
  | ok a' => rfl

/-- What a successful issue has drawn, and the serial text it hands out. -/
theorem signDeviceCert_ok {ca : CA PrivateKey Certificate} {cn : String} {validity : Time} {c : SignedCert}
    (h : signDeviceCert X d ca cn validity = .ok c) :
    ∃ serial : Fin (2 ^ 128), d.serial = .ok serial ∧ c.serialHex = hexText serial := by
  obtain ⟨deviceKey, -, h⟩ := bind_eq_ok h
  obtain ⟨serial, hserial, h⟩ := bind_eq_ok h
  obtain ⟨certDER, -, h⟩ := bind_eq_ok h
  obtain ⟨keyDER, -, h⟩ := bind_eq_ok h
  cases h
  exact ⟨serial, wrapError_eq_ok.mp hserial, rfl⟩

end ThesadaApp.Pki
