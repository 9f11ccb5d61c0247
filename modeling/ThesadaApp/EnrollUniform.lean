import ThesadaApp.EnrollApi

/-!
The enrollment endpoints tell a caller nothing it has not proved it knows. The gate reads the request and the
limiters only; behind it an announce always succeeds, and without a good signature or the token of the named row
every failure is the one refusal. So two servers that differ in their tables answer alike.
-/

namespace ThesadaApp.EnrollApi

/-- The signature proves the key of the named row over the challenge the row holds. -/
def CarriesProof (cfg : Config) (b : Backend) (req : EnrollVerifyReq) : Prop :=
  ∃ e challenge sig, b.enrollments.find (req.deviceID, req.pubkey) = some e ∧ e.challenge = some challenge ∧
    hexDecode req.signature.toList = some sig ∧
    verifyDeviceProof cfg.enroll.crypto req.deviceID req.pubkey challenge sig = .ok ()

/-- The token is the one of the named row. -/
def TokenMatches (cfg : Config) (b : Backend) (req : EnrollCertReq) : Prop :=
  ∃ e, b.enrollments.find (req.deviceID, req.pubkey) = some e ∧
    Enroll.accepts cfg.enroll req.claimToken e.claimTokenHash = true

section gates

variable {l : Limiters} {now : Time} {clientIP deviceID pubkeyHex : String}

/-- What passes the gate names a row. -/
theorem enrollGate_wellFormed (h : (enrollGate l now clientIP deviceID pubkeyHex).2 = true) :
    validDeviceID deviceID = true ∧ parseDevicePublicKey pubkeyHex = true := by
  unfold enrollGate at h
  dsimp only at h
  split at h
  · cases h
  · split at h
    · cases h
    · next hdevice =>
        split at h
        · cases h
        · next hkey => exact ⟨Bool.eq_true_of_not_eq_false hdevice, Bool.eq_true_of_not_eq_false hkey⟩

theorem enrollAnnounceGate_wellFormed (h : (enrollAnnounceGate l now clientIP deviceID pubkeyHex).2 = true) :
    validDeviceID deviceID = true ∧ parseDevicePublicKey pubkeyHex = true := by
  unfold enrollAnnounceGate at h
  dsimp only at h
  split at h
  · exact enrollGate_wellFormed h
  · next hgate => exact enrollGate_wellFormed (Bool.eq_true_of_not_eq_false hgate)

end gates

section calls

variable {cfg : EnrollConfig} {db : Db} {clock : Clock} {nonce : String} {raced : Bool}

theorem parseDevicePublicKey_ne_empty {key : String} (h : parseDevicePublicKey key = true) : key ≠ "" := by
  rintro rfl
  cases h

/-- An announce of a well-formed pair succeeds, whatever row it finds. -/
theorem announce_isOk (cfg : EnrollConfig) (db : Db) (clock : Clock) (nonce : String) (raced : Bool)
    (a : Enroll.AnnounceCall) (hdevice : validDeviceID a.deviceID = true)
    (hkey : parseDevicePublicKey a.pubkeyHex = true) : ∃ db', Enroll.announce cfg db clock nonce raced a = .ok db' := by
  unfold Enroll.announce
  rw [if_neg (by rw [hdevice]; exact Bool.noConfusion), if_neg (by rw [hkey]; exact Bool.noConfusion)]
  split
  · exact ⟨_, rfl⟩
  · next existing hfound =>
      -- the row was found by its key
      have hsame : existing.pubkeyHex = a.pubkeyHex := by
        split at hfound
        · cases hfound
        · exact congrArg Prod.snd (KeyedTable.find_key hfound)
      have hstable : pubkeyStable existing.pubkeyHex a.pubkeyHex = true := by
        rw [pubkeyStable, if_neg (parseDevicePublicKey_ne_empty hkey), hsame,
          if_neg (parseDevicePublicKey_ne_empty hkey), decide_eq_true_eq]
      rw [if_neg (by rw [hstable]; exact Bool.noConfusion)]
      dsimp only
      split
      · exact ⟨_, rfl⟩
      · exact ⟨_, rfl⟩

/-- Without a signature over the stored challenge a verification fails, whether or not there is a row. -/
theorem verify_refuses (cfg : EnrollConfig) (db : Db) (clock markClock : Clock) {deviceID pubkeyHex : String} {sig : List UInt8}
    (h : ∀ e challenge, db.enrollments.find (deviceID, pubkeyHex) = some e → e.challenge = some challenge →
      verifyDeviceProof cfg.crypto deviceID pubkeyHex challenge sig ≠ .ok ()) :
    ∃ db' e, Enroll.verify cfg db clock markClock deviceID pubkeyHex sig = (db', .error e) := by
  unfold Enroll.verify
  split
  · exact ⟨_, _, rfl⟩
  · next db₁ burned hburn =>
      split
      · exact ⟨_, _, rfl⟩
      · next hproof =>
          obtain ⟨e, hfound, hchallenge⟩ : ∃ e, db.enrollments.find (deviceID, pubkeyHex) = some e ∧
              e.challenge = some burned.challenge := by
            unfold Enroll.verifyBurn at hburn
            split at hburn
            · cases hburn
            · split at hburn
              · cases hburn
              · split at hburn
                · cases hburn
                · next e hfound =>
                    split at hburn
                    · cases hburn
                    · dsimp only at hburn
                      split at hburn
                      · cases hburn
                      · next husable =>
                          obtain ⟨-, rfl⟩ := Prod.mk.inj (Except.ok.inj hburn)
                          have hne := challengeUsable_ne_empty (Bool.eq_true_of_not_eq_false husable)
                          refine ⟨e, hfound, ?_⟩
                          cases hstored : e.challenge with
                          | none => exact absurd (by rw [hstored]; rfl) hne
                          | some challenge => rfl
          exact absurd hproof (h e burned.challenge hfound hchallenge)

theorem findByDeviceKey_refuses {deviceID pubkeyHex claimToken : String}
    (h : ∀ e, db.enrollments.find (deviceID, pubkeyHex) = some e → Enroll.accepts cfg claimToken e.claimTokenHash = false) :
    Enroll.findByDeviceKey cfg db deviceID pubkeyHex claimToken = .error .notFound := by
  unfold Enroll.findByDeviceKey
  split
  · rfl
  · split
    · rfl
    · split
      · rfl
      · next e hfound => rw [if_neg (by rw [h e hfound]; exact Bool.noConfusion)]

theorem markDelivered_refuses {deviceID pubkeyHex claimToken : String}
    (h : ∀ e, db.enrollments.find (deviceID, pubkeyHex) = some e → Enroll.accepts cfg claimToken e.claimTokenHash = false) :
    Enroll.markDelivered cfg db clock deviceID pubkeyHex claimToken = .error .notFound := by
  unfold Enroll.markDelivered
  split
  · rfl
  · next e hfound => rw [if_pos (h e hfound)]

end calls

section handlers

variable {cfg : Config} {l : Limiters} {b : Backend}

/-- What the gate of an announce makes of a request. -/
def announceGate (l : Limiters) (r : Request EnrollAnnounceReq) : Limiters × Bool :=
  match r.body with
  | none => (l, false)
  | some req => enrollAnnounceGate l r.clock.app r.clientIP req.deviceID req.pubkey

/-- The limiters after a request of the other endpoints, whose body names a row by `key`. -/
def spent {α : Type} (l : Limiters) (r : Request α) (key : α → EnrollKey) : Limiters :=
  match r.body with
  | none => l
  | some req => (enrollGate l r.clock.app r.clientIP (key req).1 (key req).2).1

def EnrollVerifyReq.key (req : EnrollVerifyReq) : EnrollKey := (req.deviceID, req.pubkey)

def EnrollCertReq.key (req : EnrollCertReq) : EnrollKey := (req.deviceID, req.pubkey)

/-- An announce is answered by its gate alone. -/
theorem handleEnrollAnnounce_spec (cfg : Config) (l : Limiters) (b : Backend) (nonce : String) (raced : Bool)
    (r : Request EnrollAnnounceReq) :
    (handleEnrollAnnounce cfg ⟨l, b⟩ nonce raced r).1.limiters = (announceGate l r).1 ∧
      (handleEnrollAnnounce cfg ⟨l, b⟩ nonce raced r).2 =
        if (announceGate l r).2 then challengeResponse nonce else enrollReject := by
  unfold handleEnrollAnnounce announceGate
  cases hbody : r.body with
  | none => exact ⟨rfl, rfl⟩
  | some req =>
      dsimp only
      by_cases hgate : (enrollAnnounceGate l r.clock.app r.clientIP req.deviceID req.pubkey).2 = true
      · obtain ⟨hdevice, hkey⟩ := enrollAnnounceGate_wellFormed hgate
        obtain ⟨db', hannounce⟩ := announce_isOk cfg.enroll b.db r.clock nonce raced
          ⟨req.deviceID, req.pubkey, req.claimToken⟩ hdevice hkey
        rw [if_neg (by rw [hgate]; exact Bool.noConfusion), hannounce, if_pos hgate]
        exact ⟨rfl, rfl⟩
      · rw [if_pos (Bool.eq_false_iff.mpr hgate), if_neg hgate]
        exact ⟨rfl, rfl⟩

theorem handleEnrollVerify_refuses (markClock : Clock) {r : Request EnrollVerifyReq}
    (h : ∀ req, r.body = some req → ¬ CarriesProof cfg b req) :
    (handleEnrollVerify cfg ⟨l, b⟩ markClock r).1.limiters = spent l r EnrollVerifyReq.key ∧
      (handleEnrollVerify cfg ⟨l, b⟩ markClock r).2 = enrollReject := by
  unfold handleEnrollVerify spent
  cases hbody : r.body with
  | none => exact ⟨rfl, rfl⟩
  | some req =>
      dsimp only
      split
      · exact ⟨rfl, rfl⟩
      · split
        · exact ⟨rfl, rfl⟩
        · next sig hsig =>
            obtain ⟨db', err, hverify⟩ := verify_refuses cfg.enroll b.db r.clock markClock
              fun e challenge hfound hchallenge hproof => h req hbody ⟨e, challenge, sig, hfound, hchallenge, hsig, hproof⟩
            rw [hverify]
            exact ⟨rfl, rfl⟩

/-- The token of the request is the one of no row it could name. -/
theorem accepts_eq_false {req : EnrollCertReq} (h : ¬ TokenMatches cfg b req) (e : Enrollment)
    (hfound : b.db.enrollments.find (req.deviceID, req.pubkey) = some e) :
    Enroll.accepts cfg.enroll req.claimToken e.claimTokenHash = false :=
  Bool.eq_false_iff.mpr fun haccepts => h ⟨e, hfound, haccepts⟩

theorem handleEnrollCert_refuses (certID : Nat) {r : Request EnrollCertReq}
    (h : ∀ req, r.body = some req → ¬ TokenMatches cfg b req) :
    (handleEnrollCert cfg ⟨l, b⟩ certID r).1.limiters = spent l r EnrollCertReq.key ∧
      (handleEnrollCert cfg ⟨l, b⟩ certID r).2 = enrollReject := by
  unfold handleEnrollCert spent
  cases hbody : r.body with
  | none => exact ⟨rfl, rfl⟩
  | some req =>
      dsimp only
      split
      · exact ⟨rfl, rfl⟩
      · split
        · exact ⟨rfl, rfl⟩
        · rw [certEnrollment, findByDeviceKey_refuses (accepts_eq_false (h req hbody))]
          exact ⟨rfl, rfl⟩

theorem handleEnrollAck_refuses {r : Request EnrollCertReq}
    (h : ∀ req, r.body = some req → ¬ TokenMatches cfg b req) :
    (handleEnrollAck cfg ⟨l, b⟩ r).1.limiters = spent l r EnrollCertReq.key ∧
      (handleEnrollAck cfg ⟨l, b⟩ r).2 = enrollReject := by
  unfold handleEnrollAck spent
  cases hbody : r.body with
  | none => exact ⟨rfl, rfl⟩
  | some req =>
      dsimp only
      split
      · exact ⟨rfl, rfl⟩
      · rw [markDelivered_refuses (accepts_eq_false (h req hbody))]
        exact ⟨rfl, rfl⟩

/-- Two servers with the same limiters and any tables. Every announce is answered alike, with a challenge once its
gate lets it pass; a verify without a valid signature, and a cert or ack without the token of the named row, are
refused alike; and the limiters stay the same. -/
theorem enrollment_reveals_nothing (cfg : Config) (l : Limiters) (b b' : Backend) :
    (∀ nonce raced raced' r,
      let x := handleEnrollAnnounce cfg ⟨l, b⟩ nonce raced r
      let x' := handleEnrollAnnounce cfg ⟨l, b'⟩ nonce raced' r
      x.2 = x'.2 ∧ x.1.limiters = x'.1.limiters ∧
        x.2 = if (announceGate l r).2 then challengeResponse nonce else enrollReject) ∧
    (∀ markClock markClock' r, (∀ req, r.body = some req → ¬ CarriesProof cfg b req ∧ ¬ CarriesProof cfg b' req) →
      let x := handleEnrollVerify cfg ⟨l, b⟩ markClock r
      let x' := handleEnrollVerify cfg ⟨l, b'⟩ markClock' r
      x.2 = enrollReject ∧ x'.2 = enrollReject ∧ x.1.limiters = x'.1.limiters) ∧
    ∀ (r : Request EnrollCertReq), (∀ req, r.body = some req → ¬ TokenMatches cfg b req ∧ ¬ TokenMatches cfg b' req) →
      (∀ certID certID',
        let x := handleEnrollCert cfg ⟨l, b⟩ certID r
        let x' := handleEnrollCert cfg ⟨l, b'⟩ certID' r
        x.2 = enrollReject ∧ x'.2 = enrollReject ∧ x.1.limiters = x'.1.limiters) ∧
      (let x := handleEnrollAck cfg ⟨l, b⟩ r
        let x' := handleEnrollAck cfg ⟨l, b'⟩ r
        x.2 = enrollReject ∧ x'.2 = enrollReject ∧ x.1.limiters = x'.1.limiters) := by
  refine ⟨fun nonce raced raced' r => ?_, fun markClock markClock' r hproof => ?_, fun r htoken => ⟨fun certID certID' => ?_, ?_⟩⟩
  · obtain ⟨hlimiters, hanswer⟩ := handleEnrollAnnounce_spec cfg l b nonce raced r
    obtain ⟨hlimiters', hanswer'⟩ := handleEnrollAnnounce_spec cfg l b' nonce raced' r
    exact ⟨hanswer.trans hanswer'.symm, hlimiters.trans hlimiters'.symm, hanswer⟩
  · obtain ⟨hlimiters, hanswer⟩ := handleEnrollVerify_refuses (l := l) markClock fun req hbody => (hproof req hbody).1
    obtain ⟨hlimiters', hanswer'⟩ := handleEnrollVerify_refuses (l := l) markClock' fun req hbody => (hproof req hbody).2
    exact ⟨hanswer, hanswer', hlimiters.trans hlimiters'.symm⟩
  · obtain ⟨hlimiters, hanswer⟩ := handleEnrollCert_refuses (l := l) certID fun req hbody => (htoken req hbody).1
    obtain ⟨hlimiters', hanswer'⟩ := handleEnrollCert_refuses (l := l) certID' fun req hbody => (htoken req hbody).2
    exact ⟨hanswer, hanswer', hlimiters.trans hlimiters'.symm⟩
  · obtain ⟨hlimiters, hanswer⟩ := handleEnrollAck_refuses (l := l) fun req hbody => (htoken req hbody).1
    obtain ⟨hlimiters', hanswer'⟩ := handleEnrollAck_refuses (l := l) fun req hbody => (htoken req hbody).2
    exact ⟨hanswer, hanswer', hlimiters.trans hlimiters'.symm⟩

example : (announceGate newEnrollLimiters ⟨"192.0.2.7", ⟨0, 0⟩, some ⟨"thesada-0123456789ab",
    String.ofList (List.replicate 64 'a'), "12345678"⟩⟩).2 = true := by
  decide +kernel

end handlers

end ThesadaApp.EnrollApi
