import ThesadaApp.CABootstrap

/-!
What becomes of the CA key over a start of the server and over the migration to the encrypted form: nothing, unless
the key file is there and the certificate file is not, when a new key takes its place.
-/

namespace ThesadaApp.Pki

variable {PrivateKey Certificate Block GCM : Type}

/-- What the CA relies on: a marshalled key is parsed back, and a PEM text is dashes that decode to its block. -/
structure X509.Lawful (X : X509 PrivateKey Certificate) : Prop where
  parse_marshal {k : PrivateKey} {der : List UInt8} :
    X.marshalPKCS8PrivateKey k = .ok der → X.parsePKCS8PrivateKey der = .ok (some k)
  decode_encode {type : String} (bs : List UInt8) : type ∈ ["PRIVATE KEY", "CERTIFICATE"] →
    X.decode (X.encodeToMemory ⟨type, bs⟩) = some ⟨type, bs⟩
  encode_head (block : Pki.Block) : (X.encodeToMemory block).head? = some 45

section envelopes

theorem bytesContainsString_append (pre s post : List UInt8) :
    bytesContainsString (pre ++ (s ++ post)) s = true := by
  have hlength : ¬ (pre ++ (s ++ post)).length < s.length := by
    simp only [List.length_append]
    omega
  rw [bytesContainsString, if_neg hlength, List.any_eq_true]
  refine ⟨pre.length, List.mem_range.mpr ?_, List.all_eq_true.mpr ?_⟩
  · simp only [List.length_append]
    omega
  · intro j hj
    have hj := List.mem_range.mp hj
    rw [decide_eq_true_eq, List.getElem?_append_right (Nat.le_add_right _ _), Nat.add_sub_cancel_left,
      List.getElem?_append_left hj]

/-- What an encryption writes is told from a PEM text. -/
theorem isEncryptedEnvelope_sealed (salt nonce ct : List UInt8) :
    isEncryptedEnvelope (marshalEnvelope (sealedEnvelope salt nonce ct)) = true := by
  have hmagic : envelopeMagic.toList.flatMap Json.quoteChar = envelopeMagic.toList := by decide
  have hbrace : String.utf8EncodeChar '{' = [123] := by decide
  obtain ⟨pre, rest, htext⟩ : ∃ pre rest, Json.Record.text (sealedEnvelope salt nonce ct).record =
      '{' :: (pre ++ (envelopeMagic.toList ++ rest)) := by
    refine ⟨Json.newline 1 ++ (Json.quote Field.magic.tag ++ [':', ' ', '"']),
      '"' :: Json.Record.more (sealedEnvelope salt nonce ct).record.tail, ?_⟩
    simp [CAKeyEnvelope.record, Json.Record.text, Json.Record.member, sealedEnvelope, Json.Scalar.text, hmagic,
      Json.quote]
  have hbytes : marshalEnvelope (sealedEnvelope salt nonce ct) =
      123 :: (Utf8.encode pre ++ (Utf8.encode envelopeMagic.toList ++ Utf8.encode rest)) := by
    rw [marshalEnvelope, htext, Utf8.encode, List.flatMap_cons, List.flatMap_append, List.flatMap_append, hbrace]
    rfl
  rw [isEncryptedEnvelope, hbytes, ← List.cons_append, bytesContainsString_append]
  rfl

variable {X : X509 PrivateKey Certificate} {P : Primitives Block GCM} {passphrase der envBytes : List UInt8}
  {k : PrivateKey}

theorem isEncryptedEnvelope_encode (hX : X.Lawful) (block : Pki.Block) :
    isEncryptedEnvelope (X.encodeToMemory block) = false := by
  rw [isEncryptedEnvelope, hX.encode_head]
  rfl

theorem parseECDSA_pkcs8 (hder : X.parsePKCS8PrivateKey der = .ok (some k)) :
    parseECDSAPrivateKey X der true = .ok k := by
  rw [parseECDSAPrivateKey, if_pos rfl, hder]

/-- An encrypted key is loaded under its passphrase. -/
theorem loadKey_encrypted {d : EnvelopeDraws} (h : encryptCAKey P d der passphrase = .ok envBytes)
    (hder : parseECDSAPrivateKey X der true = .ok k) : loadKey X P envBytes passphrase = .ok (k, false) := by
  have hopen := decryptCAKey_encryptCAKey h
  obtain ⟨hempty, _, _, _, _, _, -, -, -, -, hbytes⟩ := encryptCAKey_ok h
  have hsealed : isEncryptedEnvelope envBytes = true := by
    rw [hbytes]
    exact isEncryptedEnvelope_sealed _ _ _
  rw [loadKey, if_pos hsealed, if_neg hempty]
  refine Outcome.bind_eq_ok.mpr ⟨der, Outcome.wrap_eq_ok.mpr hopen, ?_⟩
  exact Outcome.bind_eq_ok.mpr ⟨k, Outcome.ofExcept_eq_ok.mpr (wrapError_eq_ok.mpr hder), rfl⟩

/-- A plaintext key is loaded under every passphrase. -/
theorem loadKey_plaintext (hX : X.Lawful) (hder : parseECDSAPrivateKey X der true = .ok k) :
    loadKey X P (X.encodeToMemory ⟨"PRIVATE KEY", der⟩) passphrase = .ok (k, true) := by
  rw [loadKey, if_neg (by rw [isEncryptedEnvelope_encode hX]; decide), hX.decode_encode der List.mem_cons_self]
  exact Outcome.bind_eq_ok.mpr ⟨k, Outcome.ofExcept_eq_ok.mpr (wrapError_eq_ok.mpr hder), rfl⟩

end envelopes

section runs

variable {X : X509 PrivateKey Certificate} {P : Primitives Block GCM} {e e' : BootEnv PrivateKey Certificate}
  {s : CADir} {dir : String} {passphrase : List UInt8} {r : CA PrivateKey Certificate × Option PlaintextKey}

theorem Write.result_ok {w : Write} (h : w.result = .ok ()) : w = .written := by
  cases w with
  | written => rfl
  | refused err => cases h
  | cut err n => cases h

/-- A new key file holds the new key, encrypted if there is a passphrase. -/
theorem newCA_loads (hX : X.Lawful) {made : NewCA PrivateKey} (h : newCA X P e dir passphrase = .ok made) :
    ∃ plaintext, loadKey X P made.keyFile passphrase = .ok (made.key, plaintext) ∧
      made.warn = if plaintext then some ⟨dir⟩ else none := by
  obtain ⟨key, -, h⟩ := Outcome.bind_eq_ok.mp h
  obtain ⟨serial, -, h⟩ := Outcome.bind_eq_ok.mp h
  obtain ⟨certDER, -, h⟩ := Outcome.bind_eq_ok.mp h
  obtain ⟨keyDER, hkeyDER, h⟩ := Outcome.bind_eq_ok.mp h
  have hder : parseECDSAPrivateKey X keyDER true = .ok key :=
    parseECDSA_pkcs8 (hX.parse_marshal (wrapError_eq_ok.mp (Outcome.ofExcept_eq_ok.mp hkeyDER)))
  split_ifs at h with hempty
  · cases h
    exact ⟨true, loadKey_plaintext hX hder, rfl⟩
  · obtain ⟨envelope, henvelope, h⟩ := Outcome.bind_eq_ok.mp h
    cases h
    exact ⟨false, loadKey_encrypted (Outcome.wrap_eq_ok.mp henvelope) hder, rfl⟩

/-- A generation that succeeds has written both files. -/
theorem generate_ok {s' : CADir} (h : generate X P e s dir passphrase = (s', .ok r)) :
    ∃ made cert, newCA X P e dir passphrase = .ok made ∧ X.parseCertificate made.certDER = .ok cert ∧
      s' = { s with
        key := some (.bytes made.keyFile)
        cert := some (.bytes (X.encodeToMemory ⟨"CERTIFICATE", made.certDER⟩)) } ∧
      r = (⟨cert, X.encodeToMemory ⟨"CERTIFICATE", made.certDER⟩, made.key⟩, made.warn) := by
  unfold generate at h
  cases hmade : newCA X P e dir passphrase with
  | panic =>
      rw [hmade] at h
      cases congrArg Prod.snd h
  | error err =>
      rw [hmade] at h
      cases congrArg Prod.snd h
  | ok made =>
      rw [hmade] at h
      cases hkey : e.writeKey.result with
      | error err =>
          simp only [hkey] at h
          cases congrArg Prod.snd h
      | ok _ =>
          cases hcert : e.writeCert.result with
          | error err =>
              simp only [hkey, hcert] at h
              cases congrArg Prod.snd h
          | ok _ =>
              simp only [Write.result_ok hkey, Write.result_ok hcert] at h
              obtain ⟨hs, hr⟩ := Prod.mk.inj h
              obtain ⟨cert, hparse, hr⟩ := Outcome.bind_eq_ok.mp hr
              cases hr
              exact ⟨made, cert, rfl, wrapError_eq_ok.mp (Outcome.ofExcept_eq_ok.mp hparse), hs.symm, rfl⟩

theorem bootstrap_of_present (hkey : s.key.isSome = true) (hcert : s.cert.isSome = true) :
    bootstrap X P e s dir passphrase = (s, load X P s dir passphrase) :=
  if_pos ⟨hkey, hcert⟩

/-- A CA that was generated is loaded as it is. -/
theorem load_generated (hX : X.Lawful) {s' : CADir} (h : generate X P e s dir passphrase = (s', .ok r)) :
    s'.key.isSome = true ∧ s'.cert.isSome = true ∧ load X P s' dir passphrase = .ok r := by
  obtain ⟨made, cert, hmade, hparse, rfl, rfl⟩ := generate_ok h
  obtain ⟨plaintext, hload, hwarn⟩ := newCA_loads hX hmade
  refine ⟨rfl, rfl, ?_⟩
  have hcert : loadCert X (X.encodeToMemory ⟨"CERTIFICATE", made.certDER⟩) = .ok cert := by
    rw [loadCert, hX.decode_encode made.certDER (by simp)]
    exact wrapError_eq_ok.mpr hparse
  refine Outcome.bind_eq_ok.mpr ⟨made.keyFile, rfl, ?_⟩
  refine Outcome.bind_eq_ok.mpr ⟨_, hload, ?_⟩
  refine Outcome.bind_eq_ok.mpr ⟨X.encodeToMemory ⟨"CERTIFICATE", made.certDER⟩, rfl, ?_⟩
  exact Outcome.bind_eq_ok.mpr ⟨cert, Outcome.ofExcept_eq_ok.mpr hcert, by rw [hwarn]; rfl⟩

/-- After a start that succeeds the next one finds the same CA, and changes nothing. -/
theorem bootstrap_again (hX : X.Lawful) (h : (bootstrap X P e s dir passphrase).2 = .ok r) :
    bootstrap X P e' (bootstrap X P e s dir passphrase).1 dir passphrase =
      ((bootstrap X P e s dir passphrase).1, .ok r) := by
  by_cases hboth : s.key.isSome = true ∧ s.cert.isSome = true
  · rw [bootstrap_of_present hboth.1 hboth.2] at h ⊢
    rw [bootstrap_of_present hboth.1 hboth.2]
    exact congrArg (Prod.mk s) h
  · cases hdir : e.mkdirAll with
    | error err =>
        rw [bootstrap, if_neg hboth, hdir] at h
        cases h
    | ok _ =>
        have hgenerate : bootstrap X P e s dir passphrase = generate X P e s dir passphrase := by
          rw [bootstrap, if_neg hboth, hdir]
        rw [hgenerate] at h ⊢
        obtain ⟨hkey, hcert, hload⟩ := load_generated hX (Prod.ext rfl h)
        rw [bootstrap_of_present hkey hcert, hload]

end runs

section migration

variable {X : X509 PrivateKey Certificate} {P : Primitives Block GCM} {m : MigrateEnv} {s s' : CADir} {dir : String}
  {passphrase raw raw' : List UInt8} {k : PrivateKey}

theorem readFile_ok {f : Option File} (h : readFile f = .ok raw) : f = some (.bytes raw) := by
  cases f with
  | none => cases h
  | some f =>
      cases f with
      | bytes bs =>
          cases h
          rfl
      | unreadable err => cases h

/-- What a migration has read and encrypted before it writes. -/
theorem sealKeyFile_ok {envelope : List UInt8} (h : sealKeyFile X P m s dir passphrase = .ok (some (raw, envelope))) :
    s.key = some (.bytes raw) ∧ isEncryptedEnvelope raw = false ∧ ∃ block pkcs8, X.decode raw = some block ∧
      pkcs8Body X P block = .ok pkcs8 ∧ encryptCAKey P m.envelope pkcs8 passphrase = .ok envelope := by
  unfold sealKeyFile at h
  split_ifs at h with hempty
  obtain ⟨-, -, h⟩ := Outcome.bind_eq_ok.mp h
  obtain ⟨raw₀, hread, h⟩ := Outcome.bind_eq_ok.mp h
  have hkey : s.key = some (.bytes raw₀) := readFile_ok (wrapError_eq_ok.mp (Outcome.ofExcept_eq_ok.mp hread))
  cases hplain : isEncryptedEnvelope raw₀ with
  | true =>
      rw [hplain, if_pos rfl] at h
      cases h
  | false =>
      rw [hplain, if_neg (by decide)] at h
      cases hblock : X.decode raw₀ with
      | none =>
          rw [hblock] at h
          cases h
      | some block =>
          rw [hblock] at h
          obtain ⟨pkcs8, hbody, h⟩ := Outcome.bind_eq_ok.mp h
          obtain ⟨envelope₀, henvelope, h⟩ := Outcome.bind_eq_ok.mp h
          cases h
          exact ⟨hkey, hplain, block, pkcs8, hblock, Outcome.ofExcept_eq_ok.mp hbody, Outcome.wrap_eq_ok.mp henvelope⟩

/-- The body that is encrypted holds the key that was loaded. -/
theorem parse_pkcs8Body (hX : X.Lawful) {block : Pki.Block} {pkcs8 : List UInt8}
    (hbody : pkcs8Body X P block = .ok pkcs8)
    (hparse : parseECDSAPrivateKey X block.bytes (block.type = "PRIVATE KEY") = .ok k) :
    parseECDSAPrivateKey X pkcs8 true = .ok k := by
  unfold pkcs8Body at hbody
  split_ifs at hbody with hpkcs8 hsec1
  · cases hbody
    rwa [decide_eq_true hpkcs8] at hparse
  · rw [decide_eq_false hpkcs8, parseECDSAPrivateKey, if_neg (by decide)] at hparse
    obtain ⟨k₀, hk₀, hmarshal⟩ := bind_eq_ok hbody
    obtain rfl : k₀ = k := Except.ok.inj ((wrapError_eq_ok.mp hk₀).symm.trans hparse)
    exact parseECDSA_pkcs8 (hX.parse_marshal (wrapError_eq_ok.mp hmarshal))

variable (X P m s dir passphrase) in
/-- The runs of a migration: the key file is left as it is, or it is written once the backup holds what it was. -/
theorem encryptKeyOnDisk_runs :
    ((encryptKeyOnDisk X P m s dir passphrase).1.key = s.key ∧
        ((encryptKeyOnDisk X P m s dir passphrase).2 = .ok () → (encryptKeyOnDisk X P m s dir passphrase).1 = s)) ∨
      ∃ raw envelope, sealKeyFile X P m s dir passphrase = .ok (some (raw, envelope)) ∧
        (encryptKeyOnDisk X P m s dir passphrase).1 =
          { s with key := m.writeKey.file s.key envelope, backup := some (.bytes raw) } ∧
        ((encryptKeyOnDisk X P m s dir passphrase).2 = .ok () → m.writeKey = .written) := by
  unfold encryptKeyOnDisk
  cases hseal : sealKeyFile X P m s dir passphrase with
  | panic => exact .inl ⟨rfl, fun _ => rfl⟩
  | error err => exact .inl ⟨rfl, fun _ => rfl⟩
  | ok plan =>
      cases plan with
      | none => exact .inl ⟨rfl, fun _ => rfl⟩
      | some x =>
          obtain ⟨raw, envelope⟩ := x
          cases hbackup : m.writeBackup.result with
          | error err => exact .inl ⟨rfl, nofun⟩
          | ok _ =>
              refine .inr ⟨raw, envelope, rfl, ?_⟩
              cases hkey : m.writeKey.result with
              | error err =>
                  simp only [Write.result_ok hbackup]
                  exact ⟨rfl, nofun⟩
              | ok _ =>
                  simp only [Write.result_ok hbackup]
                  exact ⟨rfl, fun _ => Write.result_ok hkey⟩

/-- A migration that succeeds found the file encrypted, or has written it and its backup. -/
theorem encryptKeyOnDisk_cases (h : encryptKeyOnDisk X P m s dir passphrase = (s', .ok ())) :
    s' = s ∨ ∃ raw envelope, sealKeyFile X P m s dir passphrase = .ok (some (raw, envelope)) ∧
      s' = { s with key := some (.bytes envelope), backup := some (.bytes raw) } := by
  have hruns := encryptKeyOnDisk_runs X P m s dir passphrase
  rw [h] at hruns
  rcases hruns with ⟨-, hsame⟩ | ⟨raw, envelope, hseal, hs, hkey⟩
  · exact .inl (hsame rfl)
  · rw [hkey rfl] at hs
    exact .inr ⟨raw, envelope, hseal, hs⟩

/-- The key of a plaintext file is the key of its encryption. -/
theorem loadKey_migrated (hX : X.Lawful) {plaintext : Bool} (hkey : s.key = some (.bytes raw))
    (hload : loadKey X P raw passphrase = .ok (k, plaintext))
    (h : encryptKeyOnDisk X P m s dir passphrase = (s', .ok ())) :
    s'.cert = s.cert ∧ ∃ raw' plaintext', s'.key = some (.bytes raw') ∧
      loadKey X P raw' passphrase = .ok (k, plaintext') := by
  rcases encryptKeyOnDisk_cases h with rfl | ⟨raw₀, envelope, hseal, rfl⟩
  · exact ⟨rfl, raw, plaintext, hkey, hload⟩
  · obtain ⟨hkey₀, hplain, block, pkcs8, hblock, hbody, henvelope⟩ := sealKeyFile_ok hseal
    obtain rfl : raw₀ = raw := File.bytes.inj (Option.some.inj (hkey₀.symm.trans hkey))
    rw [loadKey, hplain, if_neg (by decide), hblock] at hload
    obtain ⟨k₀, hparse, hload⟩ := Outcome.bind_eq_ok.mp hload
    cases hload
    have hbodyKey := parse_pkcs8Body hX hbody (wrapError_eq_ok.mp (Outcome.ofExcept_eq_ok.mp hparse))
    exact ⟨rfl, envelope, false, rfl, loadKey_encrypted henvelope hbodyKey⟩

/-- Two directories whose key files hold one key and that share the certificate file load the same CA. -/
theorem load_congr {plaintext plaintext' : Bool} (hkey : s.key = some (.bytes raw))
    (hload : loadKey X P raw passphrase = .ok (k, plaintext)) (hkey' : s'.key = some (.bytes raw'))
    (hload' : loadKey X P raw' passphrase = .ok (k, plaintext')) (hcert : s'.cert = s.cert) :
    Prod.fst <$> load X P s' dir passphrase = Prod.fst <$> load X P s dir passphrase ∧
      ∀ r, load X P s' dir passphrase = .ok r → r.1.key = k := by
  have hread : ∀ {t : CADir} {bs : List UInt8} {b : Bool}, t.key = some (.bytes bs) →
      loadKey X P bs passphrase = .ok (k, b) → load X P t dir passphrase = do
        let certPEM ← Outcome.ofExcept (wrapError "read CA cert" (readFile t.cert))
        let cert ← Outcome.ofExcept (loadCert X certPEM)
        return (⟨cert, certPEM, k⟩, if b then some ⟨dir⟩ else none) := by
    intro t bs b ht hbs
    rw [load, ht]
    change (loadKey X P bs passphrase >>= _) = _
    rw [hbs]
    rfl
  rw [hread hkey hload, hread hkey' hload', hcert]
  constructor
  · cases wrapError "read CA cert" (readFile s.cert) with
    | error err => rfl
    | ok certPEM =>
        change Prod.fst <$> (Outcome.ofExcept (loadCert X certPEM) >>= _) =
          Prod.fst <$> (Outcome.ofExcept (loadCert X certPEM) >>= _)
        cases loadCert X certPEM <;> rfl
  · intro r hr
    obtain ⟨certPEM, -, hr⟩ := Outcome.bind_eq_ok.mp hr
    obtain ⟨cert, -, hr⟩ := Outcome.bind_eq_ok.mp hr
    cases hr
    rfl

end migration

section safety

variable (X : X509 PrivateKey Certificate) (P : Primitives Block GCM) (dir : String) (passphrase : List UInt8)

/-- A key file that an encryption of the private key it holds has replaced. -/
def Reencrypted (f f' : File) : Prop :=
  ∃ raw raw' k plaintext plaintext', f = .bytes raw ∧ f' = .bytes raw' ∧ isEncryptedEnvelope raw' = true ∧
    loadKey X P raw passphrase = .ok (k, plaintext) ∧ loadKey X P raw' passphrase = .ok (k, plaintext')

/-- A start keeps the key file, or the key in it; a start after one that succeeded finds the same key and
certificate; and a start after a migration finds the key that was in the file, and what it would have found. -/
structure BootstrapSafe (s : CADir) : Prop where
  kept (e : BootEnv PrivateKey Certificate) (f : File) : s.key = some f →
    ∃ f', (bootstrap X P e s dir passphrase).1.key = some f' ∧ (f' = f ∨ Reencrypted X P passphrase f f')
  again (e e' : BootEnv PrivateKey Certificate) (r : CA PrivateKey Certificate × Option PlaintextKey) :
    (bootstrap X P e s dir passphrase).2 = .ok r →
      (bootstrap X P e' (bootstrap X P e s dir passphrase).1 dir passphrase).2 = .ok r
  migrated (m : MigrateEnv) (e e' : BootEnv PrivateKey Certificate) (s' : CADir) (raw : List UInt8) (k : PrivateKey)
    (plaintext : Bool) : s.key = some (.bytes raw) → loadKey X P raw passphrase = .ok (k, plaintext) →
      encryptKeyOnDisk X P m s dir passphrase = (s', .ok ()) →
      Prod.fst <$> (bootstrap X P e' s' dir passphrase).2 = Prod.fst <$> (bootstrap X P e s dir passphrase).2 ∧
        ∀ r, (bootstrap X P e' s' dir passphrase).2 = .ok r → r.1.key = k

variable {X P dir passphrase} {s : CADir}

/-- A start at which everything succeeds and that draws the key `k`. -/
def freshBoot (Certificate : Type) (k : PrivateKey) : BootEnv PrivateKey Certificate where
  mkdirAll := .ok ()
  draws := ⟨.ok k, .ok ⟨0, Nat.two_pow_pos 128⟩, 0, fun _ _ _ _ => .ok []⟩
  envelope := ⟨.ok ⟨List.replicate 16 0, List.length_replicate⟩,
    .ok ⟨List.replicate gcmNonceSize 0, List.length_replicate⟩⟩
  writeKey := .written
  writeCert := .written

variable (P dir passphrase) in
theorem newCA_fresh {k : PrivateKey} {der : List UInt8} (hder : X.marshalPKCS8PrivateKey k = .ok der) :
    ∃ made, newCA X P (freshBoot Certificate k) dir passphrase = .ok made ∧ made.key = k := by
  have hmarshal : Outcome.ofExcept (wrapError "marshal CA key" (X.marshalPKCS8PrivateKey k)) = .ok der :=
    Outcome.ofExcept_eq_ok.mpr (wrapError_eq_ok.mpr hder)
  by_cases hempty : passphrase = []
  · refine ⟨⟨k, X.encodeToMemory ⟨"PRIVATE KEY", der⟩, [], some ⟨dir⟩⟩, ?_, rfl⟩
    refine Outcome.bind_eq_ok.mpr ⟨k, rfl, Outcome.bind_eq_ok.mpr ⟨0, rfl, Outcome.bind_eq_ok.mpr ⟨[], rfl, ?_⟩⟩⟩
    exact Outcome.bind_eq_ok.mpr ⟨der, hmarshal, if_pos hempty⟩
  · obtain ⟨envelope, henvelope⟩ : ∃ envelope, encryptCAKey P (freshBoot Certificate k).envelope der passphrase =
        .ok envelope := encryptCAKey_exists hempty rfl rfl
    refine ⟨⟨k, envelope, [], none⟩, ?_, rfl⟩
    refine Outcome.bind_eq_ok.mpr ⟨k, rfl, Outcome.bind_eq_ok.mpr ⟨0, rfl, Outcome.bind_eq_ok.mpr ⟨[], rfl, ?_⟩⟩⟩
    refine Outcome.bind_eq_ok.mpr ⟨der, hmarshal, ?_⟩
    rw [if_neg hempty]
    exact Outcome.bind_eq_ok.mpr ⟨envelope, Outcome.wrap_eq_ok.mpr henvelope, rfl⟩

variable (P dir passphrase) in
/-- Without a certificate file any key that can be marshalled may take the place of the one in the key file. -/
theorem bootstrap_fresh (hX : X.Lawful) {k : PrivateKey} {der : List UInt8}
    (hder : X.marshalPKCS8PrivateKey k = .ok der) (hcert : s.cert = none) : ∃ raw plaintext,
      (bootstrap X P (freshBoot Certificate k) s dir passphrase).1.key = some (.bytes raw) ∧
        loadKey X P raw passphrase = .ok (k, plaintext) := by
  obtain ⟨made, hmade, rfl⟩ := newCA_fresh P dir passphrase hder
  obtain ⟨plaintext, hload, -⟩ := newCA_loads hX hmade
  refine ⟨made.keyFile, plaintext, ?_, hload⟩
  have hgenerate : bootstrap X P (freshBoot Certificate made.key) s dir passphrase =
      generate X P (freshBoot Certificate made.key) s dir passphrase := if_neg (by simp [hcert])
  rw [hgenerate, generate, hmade]
  rfl

/-- The CA is safe unless its key file is there and its certificate file is not. -/
theorem bootstrapSafe_iff (hX : X.Lawful) {k₁ k₂ : PrivateKey} {der₁ der₂ : List UInt8} (hne : k₁ ≠ k₂)
    (h₁ : X.marshalPKCS8PrivateKey k₁ = .ok der₁) (h₂ : X.marshalPKCS8PrivateKey k₂ = .ok der₂) (s : CADir) :
    BootstrapSafe X P dir passphrase s ↔ ¬ (s.key.isSome = true ∧ s.cert = none) := by
  constructor
  · rintro hsafe ⟨hkey, hcert⟩
    obtain ⟨f, hf⟩ := Option.isSome_iff_exists.mp hkey
    -- a generated key that is not the one in the file
    have hother : ∃ k der, X.marshalPKCS8PrivateKey k = .ok der ∧
        ∀ raw plaintext, f = .bytes raw → loadKey X P raw passphrase ≠ .ok (k, plaintext) := by
      by_cases hheld : ∃ raw plaintext, f = .bytes raw ∧ loadKey X P raw passphrase = .ok (k₁, plaintext)
      · obtain ⟨raw, plaintext, rfl, hload⟩ := hheld
        refine ⟨k₂, der₂, h₂, ?_⟩
        rintro _ plaintext' ⟨⟩ hload'
        exact hne (Prod.mk.inj (Outcome.ok.inj (hload.symm.trans hload'))).1
      · exact ⟨k₁, der₁, h₁, fun raw plaintext hraw hload => hheld ⟨raw, plaintext, hraw, hload⟩⟩
    obtain ⟨k, der, hder, hnot⟩ := hother
    obtain ⟨raw', plaintext', hwritten, hload'⟩ := bootstrap_fresh P dir passphrase hX hder hcert
    obtain ⟨f', hf', hkept⟩ := hsafe.kept (freshBoot Certificate k) f hf
    obtain rfl : f' = .bytes raw' := Option.some.inj (hf'.symm.trans hwritten)
    rcases hkept with hsame | ⟨raw, _, k', plaintext, _, hraw, ⟨⟩, -, hload, hreload⟩
    · exact hnot raw' plaintext' hsame.symm hload'
    · obtain rfl : k' = k := (Prod.mk.inj (Outcome.ok.inj (hreload.symm.trans hload'))).1
      exact hnot raw plaintext hraw hload
  · intro hcondition
    have hcert : ∀ {f}, s.key = some f → s.cert.isSome = true := by
      intro f hf
      by_contra hnone
      exact hcondition ⟨by rw [hf]; rfl, Option.not_isSome_iff_eq_none.mp hnone⟩
    refine ⟨fun e f hf => ?_, fun e e' r h => ?_, fun m e e' s' raw k plaintext hkey hload h => ?_⟩
    · rw [bootstrap_of_present (by rw [hf]; rfl) (hcert hf)]
      exact ⟨f, hf, .inl rfl⟩
    · exact congrArg Prod.snd (bootstrap_again hX h)
    · obtain ⟨hsame, raw', plaintext', hkey', hload'⟩ := loadKey_migrated hX hkey hload h
      have hpresent := hcert hkey
      rw [bootstrap_of_present (s := s) (by rw [hkey]; rfl) hpresent,
        bootstrap_of_present (s := s') (by rw [hkey']; rfl) (by rw [hsame]; exact hpresent)]
      exact load_congr hkey hload hkey' hload' hsame

/-- Two keys, and PEM texts of a dash, the type and the bytes. -/
def bitX509 : X509 Bool Unit where
  parsePKCS8PrivateKey der :=
    if der = [0] then .ok (some false) else if der = [1] then .ok (some true) else .error "asn1: syntax error"
  parseECPrivateKey _ := .error "asn1: syntax error"
  marshalPKCS8PrivateKey k := .ok [if k then 1 else 0]
  parseCertificate _ := .ok ()
  encodeToMemory block := 45 :: (if block.type = "PRIVATE KEY" then 0 else 1) :: block.bytes
  decode raw :=
    if raw.take 2 = [45, 0] then some ⟨"PRIVATE KEY", raw.drop 2⟩
    else if raw.take 2 = [45, 1] then some ⟨"CERTIFICATE", raw.drop 2⟩
    else none

theorem bitX509_lawful : bitX509.Lawful where
  parse_marshal {k der} h := by
    cases h
    cases k <;> rfl
  decode_encode {type} bs h := by
    simp only [List.mem_cons, List.not_mem_nil, or_false] at h
    rcases h with rfl | rfl <;> rfl
  encode_head _ := rfl

/-- The key file holds a key, and there is no certificate file. -/
def keyWithoutCert : CADir := ⟨some (.bytes [45, 0, 1]), none, none⟩

theorem not_bootstrapSafe : ¬ BootstrapSafe bitX509 zeroPrimitives "/opt/thesada-app/ca" [] keyWithoutCert := by
  intro hsafe
  have hlost : (bootstrap bitX509 zeroPrimitives (freshBoot Unit false) keyWithoutCert "/opt/thesada-app/ca" []).1.key =
      some (.bytes [45, 0, 0]) := by rfl
  obtain ⟨f', hf', hkept⟩ := hsafe.kept (freshBoot Unit false) (.bytes [45, 0, 1]) rfl
  obtain rfl : f' = .bytes [45, 0, 0] := Option.some.inj (hf'.symm.trans hlost)
  rcases hkept with hsame | ⟨_, raw', _, _, _, -, hraw', hencrypted, -, -⟩
  · exact absurd hsame (by decide)
  · cases hraw'
    exact absurd hencrypted (by decide)

theorem bootstrapSafe_iff_both : BootstrapSafe bitX509 zeroPrimitives "/opt/thesada-app/ca" []
    ⟨some (.bytes [45, 0, 1]), some (.bytes [45, 1]), none⟩ :=
  (bootstrapSafe_iff bitX509_lawful Bool.false_ne_true rfl rfl _).mpr (by decide)

end safety

end ThesadaApp.Pki
