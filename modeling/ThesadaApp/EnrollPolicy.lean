import ThesadaApp.Basic

/-!
The enrollment decision rules, as pure functions over plain values. SHA-256, HMAC-SHA256 and Ed25519
are parameters; a stored digest and a key are lowercase hex strings.
-/

namespace ThesadaApp

/-- The primitives of the standard library the rules call. -/
structure Crypto where
  /-- `hex(sha256(token))`. -/
  sha256Hex : String → String
  /-- `hex(hmac-sha256(key, token))`. -/
  hmacHex : String → String → String
  /-- `ed25519.Verify` on a key given in hex, a message and 64 signature bytes. -/
  ed25519Verify : String → String → List UInt8 → Bool

def challengeTTL : Time := seconds (5 * 60)

def enrollmentTTL : Time := seconds (24 * 3600)

def deviceIDPrefix : String := "thesada-"

def deviceIDHexLen : Nat := 12

/-- A lowercase hex digit. -/
def lowerHex (c : Char) : Bool := ('0' ≤ c && c ≤ '9') || ('a' ≤ c && c ≤ 'f')

def validDeviceID (id : String) : Bool :=
  deviceIDPrefix.toList.isPrefixOf id.toList &&
    (let h := id.toList.drop deviceIDPrefix.toList.length
     h.length = deviceIDHexLen && h.all lowerHex)

/-- `ParseDevicePublicKey` succeeds on the lowercase hex of 32 bytes. -/
def parseDevicePublicKey (pubHex : String) : Bool :=
  pubHex.toList.length = 64 && pubHex.toList.all lowerHex

inductive ProofError where
  | badDeviceID
  | badPublicKey
  | badSignature
  | proofFailed
  deriving DecidableEq, Repr

def verifyDeviceProof (c : Crypto) (deviceID pubHex challenge : String) (sig : List UInt8) :
    Except ProofError Unit :=
  if validDeviceID deviceID = false then .error .badDeviceID
  else if parseDevicePublicKey pubHex = false then .error .badPublicKey
  else if sig.length ≠ 64 then .error .badSignature
  else if challenge = "" then .error .proofFailed
  else if c.ed25519Verify pubHex challenge sig = false then .error .proofFailed
  else .ok ()

def hashClaimToken (c : Crypto) (token : String) : String := c.sha256Hex token

/-- What an announce stores: keyed when a key is configured. -/
def claimTokenDigest (c : Crypto) (key token : String) : String :=
  if key = "" then hashClaimToken c token else c.hmacHex key token

/-- Both digests are tried, so a row stored before the key was set still matches. -/
def claimTokenAccepts (c : Crypto) (key presented storedHash : String) : Bool :=
  if presented = "" ∨ storedHash = "" then false
  else hashClaimToken c presented = storedHash || claimTokenDigest c key presented = storedHash

def claimFailureCap : Nat := 10

def claimFailuresExhausted (failures : Nat) : Bool := claimFailureCap ≤ failures

def claimLockClears (ownsCode : Bool) (verifiedAt : Option Time) (olderVerified : Bool) : Bool :=
  ownsCode && verifiedAt.isSome && !olderVerified

/-- Whether `other` blocks this row from clearing the lock. -/
def claimLockOlder (thisAt otherAt : Time) (thisPub otherPub : String) : Bool :=
  otherAt < thisAt || (otherAt = thisAt && otherPub < thisPub)

def challengeUsable (challenge : String) (expiresAt : Option Time) (now : Time) : Bool :=
  match expiresAt with
  | none => false
  | some expires => challenge ≠ "" && now < expires

def proofAllowed (certDeliveredAt : Option Time) : Bool := certDeliveredAt.isNone

def pubkeyStable (stored presented : String) : Bool :=
  if presented = "" then false else if stored = "" then true else stored = presented

def claimTokenFrozen (verifiedAt : Option Time) : Bool := verifiedAt.isSome

def deliverAllowed (verifiedAt claimedAt certDeliveredAt : Option Time) : Bool :=
  verifiedAt.isSome && claimedAt.isSome && certDeliveredAt.isNone

def claimAllowed (verifiedAt claimedAt : Option Time) : Bool := verifiedAt.isSome && claimedAt.isNone

def claimRetryAllowed (claimedAt : Option Time) (claimedByTenant : Option Slug) (tenantID : Slug) : Bool :=
  match claimedAt, claimedByTenant with
  | some _, some t => tenantID.val ≠ "" && t = tenantID
  | _, _ => false

def deviceTopicPrefix (root tenantID deviceID : String) : String :=
  (if root = "" then "thesada" else root) ++ "/" ++ tenantID ++ "/" ++ deviceID

def deviceCertCN (tenantID deviceID : String) : String := "thesada-" ++ tenantID ++ "-" ++ deviceID

section rules

variable {verifiedAt claimedAt certDeliveredAt : Option Time}

@[simp] theorem claimTokenFrozen_eq_false : claimTokenFrozen verifiedAt = false ↔ verifiedAt = none := by
  cases verifiedAt <;> simp [claimTokenFrozen]

theorem claimAllowed_iff : claimAllowed verifiedAt claimedAt = true ↔ verifiedAt ≠ none ∧ claimedAt = none := by
  cases verifiedAt <;> cases claimedAt <;> simp [claimAllowed]

theorem deliverAllowed_iff : deliverAllowed verifiedAt claimedAt certDeliveredAt = true ↔
    verifiedAt ≠ none ∧ claimedAt ≠ none ∧ certDeliveredAt = none := by
  cases verifiedAt <;> cases claimedAt <;> cases certDeliveredAt <;> simp [deliverAllowed]

theorem claimRetryAllowed_iff {claimedByTenant : Option Slug} {tenantID : Slug} :
    claimRetryAllowed claimedAt claimedByTenant tenantID = true ↔
      claimedAt ≠ none ∧ claimedByTenant = some tenantID := by
  cases claimedAt <;> cases claimedByTenant <;> simp [claimRetryAllowed, tenantID.val_ne_empty]

theorem challengeUsable_ne_empty {challenge : String} {expiresAt : Option Time} {now : Time}
    (h : challengeUsable challenge expiresAt now = true) : challenge ≠ "" := by
  rintro rfl
  cases expiresAt <;> simp [challengeUsable] at h

end rules

end ThesadaApp
