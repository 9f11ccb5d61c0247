import ThesadaApp.CAKeyTotal
import ThesadaApp.CertIssue

/-!
The CA on disk: two files of a directory, which are loaded if both are there and made anew if not, and the
migration of a plaintext key file to the encrypted form. A write to a file may fail and leave a part of it.
-/

namespace ThesadaApp.Pki

/-- A file that is there. A directory in its place, or one that may not be read, has no bytes. -/
inductive File where
  | bytes (bs : List UInt8)
  | unreadable (err : String)
  deriving DecidableEq

/-- The files `ca.key`, `ca.crt` and `ca.key.plaintext.bak` of the CA directory. -/
structure CADir where
  key : Option File
  cert : Option File
  backup : Option File
  deriving DecidableEq

/-- `os.ReadFile`. -/
def readFile : Option File → Except String (List UInt8)
  | none => .error "no such file or directory"
  | some (.bytes bs) => .ok bs
  | some (.unreadable err) => .error err

/-- How a call of `os.WriteFile` goes: it may fail before the file is opened, or after some bytes. -/
inductive Write where
  | written
  | refused (err : String)
  | cut (err : String) (n : Nat)

def Write.file (w : Write) (old : Option File) (bs : List UInt8) : Option File :=
  match w with
  | .written => some (.bytes bs)
  | .refused _ => old
  | .cut _ n => some (.bytes (bs.take n))

def Write.result : Write → Except String Unit
  | .written => .ok ()
  | .refused err | .cut err _ => .error err

/-- `bytesContainsString`. -/
def bytesContainsString (b s : List UInt8) : Bool :=
  if b.length < s.length then false
  else (List.range (b.length - s.length + 1)).any fun i => (List.range s.length).all fun j => b[i + j]? = s[j]?

def isEncryptedEnvelope (b : List UInt8) : Bool :=
  b.head? = some 123 && bytesContainsString b (Utf8.encode envelopeMagic.toList)

/-- `PlaintextKey`: the key file of a directory is not encrypted. -/
structure PlaintextKey where
  dir : String
  deriving DecidableEq

def errEncryptedKeyNoPassphrase : String := "CA key on disk is encrypted but THESADA_CA_KEY_PASSPHRASE is empty"

variable {PrivateKey Certificate Block GCM : Type} (X : X509 PrivateKey Certificate) (P : Primitives Block GCM)

section load

def parseECDSAPrivateKey (der : List UInt8) (pkcs8 : Bool) : Except String PrivateKey :=
  if pkcs8 then
    match X.parsePKCS8PrivateKey der with
    | .error err => .error err
    | .ok none => .error "CA key: PKCS#8 envelope is not ECDSA"
    | .ok (some k) => .ok k
  else X.parseECPrivateKey der

/-- The first half of `load`: the key of a key file, and whether it is plaintext. -/
def loadKey (raw passphrase : List UInt8) : Outcome (PrivateKey × Bool) :=
  if isEncryptedEnvelope raw then
    if passphrase = [] then .error errEncryptedKeyNoPassphrase
    else do
      let pt ← Outcome.wrap "decrypt CA key" (decryptCAKey P raw passphrase)
      let k ← Outcome.ofExcept (wrapError "parse decrypted CA key" (parseECDSAPrivateKey X pt true))
      return (k, false)
  else
    match X.decode raw with
    | none => .error "CA key: no PEM block found"
    | some block => do
        let k ← Outcome.ofExcept (wrapError "parse CA key"
          (parseECDSAPrivateKey X block.bytes (block.type = "PRIVATE KEY")))
        return (k, true)

/-- The certificate of a certificate file. -/
def loadCert (certPEM : List UInt8) : Except String Certificate :=
  match X.decode certPEM with
  | none => .error "CA cert: no PEM block found"
  | some block => wrapError "parse CA cert" (X.parseCertificate block.bytes)

def load (s : CADir) (dir : String) (passphrase : List UInt8) :
    Outcome (CA PrivateKey Certificate × Option PlaintextKey) := do
  let raw ← Outcome.ofExcept (wrapError "read CA key" (readFile s.key))
  let key ← loadKey X P raw passphrase
  let certPEM ← Outcome.ofExcept (wrapError "read CA cert" (readFile s.cert))
  let cert ← Outcome.ofExcept (loadCert X certPEM)
  return (⟨cert, certPEM, key.1⟩, if key.2 then some ⟨dir⟩ else none)

end load

section generate

/-- What happens around one call of `Bootstrap`. -/
structure BootEnv (PrivateKey Certificate : Type) where
  mkdirAll : Except String Unit
  draws : Draws PrivateKey Certificate
  envelope : EnvelopeDraws
  writeKey : Write
  writeCert : Write

def caTemplate (serial : Nat) (now : Time) : Template where
  serialNumber := serial
  commonName := "thesada Device CA"
  organization := ["thesada"]
  notBefore := now
  notAfter := now + seconds (10 * 365 * 24 * 60 * 60)
  keyUsage := [.certSign, .crlSign]
  extKeyUsage := []
  basicConstraintsValid := true
  isCA := true
  maxPathLen := 0

/-- What `generate` has made before it writes. -/
structure NewCA (PrivateKey : Type) where
  key : PrivateKey
  keyFile : List UInt8
  certDER : List UInt8
  warn : Option PlaintextKey

def newCA (e : BootEnv PrivateKey Certificate) (dir : String) (passphrase : List UInt8) :
    Outcome (NewCA PrivateKey) := do
  let key ← Outcome.ofExcept (wrapError "generate CA key" e.draws.generateKey)
  let serial ← Outcome.ofExcept (wrapError "generate CA serial" e.draws.serial)
  let template := caTemplate serial e.draws.now
  let certDER ← Outcome.ofExcept (wrapError "self-sign CA cert"
    (e.draws.createCertificate template (.template template) key key))
  let keyDER ← Outcome.ofExcept (wrapError "marshal CA key" (X.marshalPKCS8PrivateKey key))
  if passphrase = [] then return ⟨key, X.encodeToMemory ⟨"PRIVATE KEY", keyDER⟩, certDER, some ⟨dir⟩⟩
  else
    let envelope ← Outcome.wrap "encrypt CA key" (encryptCAKey P e.envelope keyDER passphrase)
    return ⟨key, envelope, certDER, none⟩

def generate (e : BootEnv PrivateKey Certificate) (s : CADir) (dir : String) (passphrase : List UInt8) :
    CADir × Outcome (CA PrivateKey Certificate × Option PlaintextKey) :=
  match newCA X P e dir passphrase with
  | .panic => (s, .panic)
  | .error err => (s, .error err)
  | .ok made =>
      let context := if passphrase = [] then "write CA key" else "write encrypted CA key"
      let certPEM := X.encodeToMemory ⟨"CERTIFICATE", made.certDER⟩
      let withKey := { s with key := e.writeKey.file s.key made.keyFile }
      match e.writeKey.result with
      | .error err => (withKey, .error (context ++ ": " ++ err))
      | .ok () =>
          let withCert := { withKey with cert := e.writeCert.file s.cert certPEM }
          match e.writeCert.result with
          | .error err => (withCert, .error ("write CA cert: " ++ err))
          | .ok () =>
              (withCert, do
                let cert ← Outcome.ofExcept (wrapError "parse CA cert" (X.parseCertificate made.certDER))
                return (⟨cert, certPEM, made.key⟩, made.warn))

/-- `Bootstrap`. -/
def bootstrap (e : BootEnv PrivateKey Certificate) (s : CADir) (dir : String) (passphrase : List UInt8) :
    CADir × Outcome (CA PrivateKey Certificate × Option PlaintextKey) :=
  if s.key.isSome ∧ s.cert.isSome then (s, load X P s dir passphrase)
  else
    match e.mkdirAll with
    | .error err => (s, .error ("create CA dir: " ++ err))
    | .ok () => generate X P e s dir passphrase

end generate

section migrate

/-- What happens around one call of `EncryptKeyOnDisk`. -/
structure MigrateEnv where
  envelope : EnvelopeDraws
  writeBackup : Write
  writeKey : Write

/-- `sanitizeCADir`. Cleaning a path keeps whether it begins at the root. -/
def sanitizeCADir (dir : String) : Except String Unit :=
  if dir = "" then .error "CA dir is empty"
  else if dir.toList.head? ≠ some '/' then .error ("CA dir must be absolute: " ++ P.quote dir)
  else .ok ()

/-- The PKCS#8 body of the key of a PEM block. -/
def pkcs8Body (block : Pki.Block) : Except String (List UInt8) :=
  if block.type = "PRIVATE KEY" then .ok block.bytes
  else if block.type = "EC PRIVATE KEY" then do
    let k ← wrapError "parse SEC1 key" (X.parseECPrivateKey block.bytes)
    wrapError "marshal PKCS8" (X.marshalPKCS8PrivateKey k)
  else .error ("unsupported PEM type: " ++ P.quote block.type)

/-- What `EncryptKeyOnDisk` has before it writes: the file as it is and its encryption, or nothing if the file is
encrypted already. -/
def sealKeyFile (e : MigrateEnv) (s : CADir) (dir : String) (passphrase : List UInt8) :
    Outcome (Option (List UInt8 × List UInt8)) :=
  if passphrase = [] then .error "EncryptKeyOnDisk: THESADA_CA_KEY_PASSPHRASE is empty"
  else do
    Outcome.ofExcept (sanitizeCADir P dir)
    let raw ← Outcome.ofExcept (wrapError "read CA key" (readFile s.key))
    if isEncryptedEnvelope raw then return none
    else
      match X.decode raw with
      | none => .error "CA key: no PEM block found"
      | some block =>
          let pkcs8 ← Outcome.ofExcept (pkcs8Body X P block)
          let envelope ← Outcome.wrap "encrypt" (encryptCAKey P e.envelope pkcs8 passphrase)
          return some (raw, envelope)

/-- `EncryptKeyOnDisk`. -/
def encryptKeyOnDisk (e : MigrateEnv) (s : CADir) (dir : String) (passphrase : List UInt8) : CADir × Outcome Unit :=
  match sealKeyFile X P e s dir passphrase with
  | .panic => (s, .panic)
  | .error err => (s, .error err)
  | .ok none => (s, .ok ())
  | .ok (some (raw, envelope)) =>
      let withBackup := { s with backup := e.writeBackup.file s.backup raw }
      match e.writeBackup.result with
      | .error err => (withBackup, .error ("write backup: " ++ err))
      | .ok () =>
          let withKey := { withBackup with key := e.writeKey.file s.key envelope }
          match e.writeKey.result with
          | .error err => (withKey, .error ("write encrypted CA key: " ++ err))
          | .ok () => (withKey, .ok ())

end migrate

end ThesadaApp.Pki
