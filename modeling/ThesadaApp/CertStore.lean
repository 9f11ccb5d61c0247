import ThesadaApp.DeviceIngest

/-!
The device certificates and the answer to a device that asks whether its own is revoked. Certificates go with
their device; a serial that carries an identity key is copied to the tombstones first, in the transaction that
deletes the device, and the lookup falls back on them.
-/

namespace ThesadaApp.Certs

inductive CertStatus where
  | pending
  | active
  | failed
  deriving DecidableEq, Repr

/-- A row of `device_certificates`. -/
structure Certificate where
  id : Nat
  devicePk : UUID
  serialHex : String
  cn : String
  revoked : Bool
  revokedAt : Option Time
  status : CertStatus
  pubkeyHex : Option String
  deriving DecidableEq

/-- The CNs of the unrevoked rows. -/
def liveCNs (rows : List Certificate) : List String := (rows.filter fun c => !c.revoked).map Certificate.cn

/-- The primary key, the two unique constraints and the check on the identity key. -/
structure CertConstraints (rows : List Certificate) : Prop where
  pk : (rows.map Certificate.id).Nodup
  serial : (rows.map Certificate.serialHex).Nodup
  liveCN : (liveCNs rows).Nodup
  pubkey : ∀ c ∈ rows, c.pubkeyHex.all parseDevicePublicKey = true

instance (rows : List Certificate) : Decidable (CertConstraints rows) :=
  decidable_of_iff ((rows.map Certificate.id).Nodup ∧ (rows.map Certificate.serialHex).Nodup ∧ (liveCNs rows).Nodup ∧
      ∀ c ∈ rows, c.pubkeyHex.all parseDevicePublicKey = true)
    ⟨fun h => ⟨h.1, h.2.1, h.2.2.1, h.2.2.2⟩, fun h => ⟨h.pk, h.serial, h.liveCN, h.pubkey⟩⟩

structure CertTable where
  rows : List Certificate
  constraints : CertConstraints rows

namespace CertTable

instance : EmptyCollection CertTable := ⟨⟨[], by decide⟩⟩

instance : Membership Certificate CertTable := ⟨fun t c => c ∈ t.rows⟩

theorem mem_rows {t : CertTable} {c : Certificate} : c ∈ t.rows ↔ c ∈ t := Iff.rfl

/-- The rows become the table's, or a constraint refuses them. -/
def commit (rows : List Certificate) : Option CertTable := if h : CertConstraints rows then some ⟨rows, h⟩ else none

theorem commit_eq_some {rows : List Certificate} {t : CertTable} (h : commit rows = some t) : t.rows = rows := by
  unfold commit at h
  split at h
  · exact congrArg CertTable.rows (Option.some.inj h).symm
  · cases h

theorem eq_of_serial {t : CertTable} {c c' : Certificate} (hc : c ∈ t) (hc' : c' ∈ t)
    (hserial : c.serialHex = c'.serialHex) : c = c' :=
  List.inj_on_of_nodup_map t.constraints.serial hc hc' hserial

/-- The row of a serial. -/
def find (t : CertTable) (serialHex : String) : Option Certificate := t.rows.find? fun c => c.serialHex = serialHex

theorem find_eq_some {t : CertTable} {serialHex : String} {c : Certificate} :
    t.find serialHex = some c ↔ c ∈ t ∧ c.serialHex = serialHex := by
  constructor
  · intro h
    exact ⟨List.mem_of_find?_eq_some h, by simpa using List.find?_some h⟩
  · rintro ⟨hc, rfl⟩
    cases hfound : t.find c.serialHex with
    | none => simpa using List.find?_eq_none.mp hfound c hc
    | some x =>
        have hx : x.serialHex = c.serialHex := by simpa using List.find?_some hfound
        rw [eq_of_serial (List.mem_of_find?_eq_some hfound) hc hx]

theorem find_eq_none {t : CertTable} {serialHex : String} :
    t.find serialHex = none ↔ ∀ c ∈ t, c.serialHex ≠ serialHex := by
  simp [find, List.find?_eq_none, mem_rows]

/-- DELETE of the rows of a device. -/
def deleteDevice (t : CertTable) (devicePk : UUID) : CertTable where
  rows := t.rows.filter fun c => c.devicePk ≠ devicePk
  constraints :=
    have hsub : (t.rows.filter fun c => c.devicePk ≠ devicePk).Sublist t.rows := List.filter_sublist
    ⟨t.constraints.pk.sublist (hsub.map _), t.constraints.serial.sublist (hsub.map _),
      t.constraints.liveCN.sublist ((hsub.filter _).map _),
      fun c hc => t.constraints.pubkey c (List.mem_of_mem_filter hc)⟩

theorem mem_deleteDevice {t : CertTable} {devicePk : UUID} {c : Certificate} :
    c ∈ t.deleteDevice devicePk ↔ c ∈ t ∧ c.devicePk ≠ devicePk := by
  rw [← mem_rows, deleteDevice, List.mem_filter, mem_rows, decide_eq_true_eq]

end CertTable

def enrollSerialMaxLen : Nat := 40

/-- `CanonicalCertSerial`: lowercase hex without leading zeros except the value 0. A letter that lowercasing
would change is no lowercase hex digit either. -/
def canonicalCertSerial (s : String) : Option String :=
  if s = "" ∨ s.toList.all lowerHex = false then none
  else
    let stripped := s.toList.dropWhile (· = '0')
    let canonical := if stripped = [] then ['0'] else stripped
    if enrollSerialMaxLen < canonical.length then none else some (String.ofList canonical)

/-- The checks of `device_cert_serial_tombstones`. -/
def tombstoneShape (serialHex deviceID pubkeyHex : String) : Bool :=
  (1 ≤ serialHex.toList.length && serialHex.toList.length ≤ 40 && serialHex.toList.all lowerHex &&
      !(serialHex.toList.head? = some '0' && 1 < serialHex.toList.length)) &&
    parseDevicePublicKey pubkeyHex && validDeviceID deviceID

/-- A serial remembered after its device row was deleted. -/
structure SerialTombstone where
  serialHex : String
  deviceID : String
  pubkeyHex : String
  shape : tombstoneShape serialHex deviceID pubkeyHex = true
  deriving DecidableEq

abbrev TombstoneTable := KeyedTable SerialTombstone.serialHex

structure Store where
  devices : DeviceTable
  /-- The column `devices.paired_at`. -/
  pairedAt : UUID → Option Time
  certs : CertTable
  tombstones : TombstoneTable

def init : Store := ⟨∅, fun _ => none, ∅, ∅⟩

def Store.setPairedAt (s : Store) (devicePk : UUID) (pairedAt : Option Time) : Store :=
  { s with pairedAt := Function.update s.pairedAt devicePk pairedAt }

/-- The row-level security of a tenant shows the device and its certificates. -/
def Store.visible (s : Store) (tenantID : Slug) (devicePk : UUID) : Bool :=
  (s.devices.get devicePk).any fun d => d.tenantID = tenantID

inductive CertError where
  | lockDevice
  | cnLive
  | identityRequired
  | notPending
  | device (err : DeviceError)
  | constraint
  deriving DecidableEq, Repr

/-- What a caller that has signed a certificate brings; `id` is the default of the id column. -/
structure NewCert where
  id : Nat
  serialHex : String
  cn : String
  deriving DecidableEq, Repr

/-- The row is revoked at a time, if it was not before. -/
def revokeRow (now : Time) (devicePk : UUID) (c : Certificate) : Certificate :=
  if c.devicePk = devicePk ∧ c.revoked = false then { c with revoked := true, revokedAt := some now } else c

/-- `issueTx`. -/
def issueTx (s : Store) (tenantID : Slug) (devicePk : UUID) (now : Time) (n : NewCert) (status : CertStatus)
    (pubkeyHex : String) : Except CertError (Store × Certificate) :=
  if s.visible tenantID devicePk = false then .error .lockDevice
  else
    let superseded := s.certs.rows.map (revokeRow now devicePk)
    let row : Certificate :=
      ⟨n.id, devicePk, n.serialHex, n.cn, false, none, status, if pubkeyHex = "" then none else some pubkeyHex⟩
    match CertTable.commit (superseded ++ [row]) with
    | some certs => .ok ({ s with certs }, row)
    | none => .error (if n.cn ∈ liveCNs superseded then .cnLive else .constraint)

def issue (s : Store) (tenantID : Slug) (devicePk : UUID) (now : Time) (n : NewCert) :
    Except CertError (Store × Certificate) :=
  (issueTx s tenantID devicePk now n .active "").map fun r => (r.1.setPairedAt devicePk (some now), r.2)

def issueWithIdentity (s : Store) (tenantID : Slug) (devicePk : UUID) (now : Time) (n : NewCert)
    (pubkeyHex : String) : Except CertError (Store × Certificate) :=
  if pubkeyHex = "" then .error .identityRequired
  else (issueTx s tenantID devicePk now n .active pubkeyHex).map fun r => (r.1.setPairedAt devicePk (some now), r.2)

def issuePending (s : Store) (tenantID : Slug) (devicePk : UUID) (now : Time) (n : NewCert) :
    Except CertError (Store × Certificate) :=
  (issueTx s tenantID devicePk now n .pending "").map fun r => (r.1.setPairedAt devicePk none, r.2)

/-- The rows become these; only columns without a constraint that can fail are written. -/
def setCerts (s : Store) (f : Certificate → Certificate) : Except CertError Store :=
  match CertTable.commit (s.certs.rows.map f) with
  | none => .error .constraint
  | some certs => .ok { s with certs }

def activate (s : Store) (tenantID : Slug) (certID : Nat) (devicePk : UUID) (now : Time) : Except CertError Store :=
  let pending : Certificate → Bool := fun c => c.id = certID && c.devicePk = devicePk && c.status = .pending &&
    !c.revoked && s.visible tenantID c.devicePk
  if s.certs.rows.any pending = false then .error .notPending
  else (setCerts s fun c => if pending c then { c with status := .active } else c).map fun s' =>
    s'.setPairedAt devicePk (some now)

def markFailed (s : Store) (tenantID : Slug) (certID : Nat) : Except CertError Store :=
  let pending : Certificate → Bool := fun c => c.id = certID && c.status = .pending && !c.revoked &&
    s.visible tenantID c.devicePk
  if s.certs.rows.any pending = false then .error .notPending
  else setCerts s fun c => if pending c then { c with status := .failed } else c

/-- Both updates of `Revoke` find no row of another tenant, and then do nothing. -/
def revoke (s : Store) (tenantID : Slug) (devicePk : UUID) (now : Time) : Except CertError Store :=
  if s.visible tenantID devicePk then (setCerts s (revokeRow now devicePk)).map fun s' => s'.setPairedAt devicePk none
  else .ok s

/-- One row of the INSERT of `tombstoneCertSerials`, which skips a serial that is there; `none` is a check that
fails the statement. -/
def tombstoneCert (deviceID : String) (t : TombstoneTable) (c : Certificate) : Option TombstoneTable :=
  match c.pubkeyHex with
  | none => some t
  | some pubkeyHex =>
      if h : tombstoneShape c.serialHex deviceID pubkeyHex = true then
        some (t.upsert ⟨c.serialHex, deviceID, pubkeyHex, h⟩ id fun _ => rfl)
      else none

def tombstoneCertSerials (s : Store) (deviceID : String) (devicePk : UUID) : Option TombstoneTable :=
  (s.certs.rows.filter fun c => c.devicePk = devicePk).foldlM (tombstoneCert deviceID) s.tombstones

/-- `DeleteByID`: the tombstones, then the row and with it its certificates. `false` when no row was visible. -/
def deleteByID (s : Store) (tenantID : Slug) (id : UUID) : Except CertError (Store × Bool) :=
  match s.devices.get id with
  | none => .ok (s, false)
  | some d =>
      if d.tenantID ≠ tenantID then .ok (s, false)
      else
        match tombstoneCertSerials s d.deviceID id with
        | none => .error .constraint
        | some tombstones =>
            .ok (⟨s.devices.delete id, Function.update s.pairedAt id none, s.certs.deleteDevice id, tombstones⟩, true)

inductive EnrollStatus where
  | active
  | revoked
  | unknown
  deriving DecidableEq, Repr

structure CertStatusRow where
  revoked : Bool
  status : CertStatus
  pubkeyHex : String
  deviceID : String
  deriving DecidableEq, Repr

def certRevocationAnswer (deviceID pubkey : String) (row : Option CertStatusRow) (tomb : Option SerialTombstone) :
    EnrollStatus :=
  match row with
  | some row =>
      if row.pubkeyHex = "" ∨ row.pubkeyHex ≠ pubkey ∨ row.deviceID ≠ deviceID then .unknown
      else if row.revoked then .revoked
      else if row.status = .active then .active
      else .unknown
  | none =>
      match tomb with
      | some tomb => if tomb.pubkeyHex = pubkey ∧ tomb.deviceID = deviceID then .revoked else .unknown
      | none => .unknown

/-- The certificate of a serial joined with its device. -/
def statusRow (s : Store) (canonical : String) : Option CertStatusRow := do
  let c ← s.certs.find canonical
  let d ← s.devices.get c.devicePk
  some ⟨c.revoked, c.status, c.pubkeyHex.getD "", d.deviceID⟩

/-- `RevocationStatus`; `none` is a serial that is not canonical. -/
def revocationStatus (s : Store) (deviceID pubkeyHex serial : String) : Option (EnrollStatus × String) :=
  (canonicalCertSerial serial).map fun canonical =>
    let row := statusRow s canonical
    (certRevocationAnswer deviceID pubkeyHex row (if row.isSome then none else s.tombstones.find canonical), canonical)

end ThesadaApp.Certs
