import Mathlib.Data.String.Basic
import ThesadaApp.EnrollSystem

/-!
The lock on wrong claim codes. Every wrong code is counted on all rows of a device id, and the counts are
cleared by the announce of the row that sorts first by verified_at. While the row that was verified first
keeps that place, only its own announce clears them, and no more than `claimFailureCap` wrong codes are
judged in between. The verified update stamps rows that are verified already, so a second proof can hand
the place to another row.
-/

namespace ThesadaApp.Enroll

/-- What the events say about the lock of a device id: the first row to become verified, and the wrong
codes judged since an announce last carried that row's own code. -/
structure LockWatch where
  first : Option EnrollKey
  wrong : Nat

def LockWatch.see (d : String) (w : LockWatch) : Event → LockWatch
  | .verified key => { w with first := if key.1 = d then w.first.or (some key) else w.first }
  | .announced key _ _ _ owned => { w with wrong := if w.first = some key ∧ owned = true then 0 else w.wrong }
  | .judged d' _ .wrong _ => { w with wrong := if d' = d then w.wrong + 1 else w.wrong }
  | _ => w

def lockWatch (d : String) (log : List Event) : LockWatch := log.foldl (LockWatch.see d) ⟨none, 0⟩

/-- The lock holds at an event: a code is accepted only while fewer wrong ones than the cap are counted, and
no more than the cap ever are. -/
def LockHolds (d : String) (log : List Event) (e : Event) : Prop :=
  (∀ token r reply, e = .judged d token (.found r) reply → (lockWatch d log).wrong < claimFailureCap) ∧
    (lockWatch d (log ++ [e])).wrong ≤ claimFailureCap

section guards

variable (cfg : EnrollConfig) (topicRoot : String) (d : String) (s : System)

/-- The step deletes no row of the device id. -/
def keepsRows (a : Action) : Bool :=
  match step cfg topicRoot s a with
  | none => true
  | some (s', _) => s.db.enrollments.rows.all fun r =>
      r.deviceID ≠ d || (s'.db.enrollments.find r.key).isSome

/-- The row and the stamp of the verified update an action makes. -/
def verifiedUpdate : Action → Option (EnrollKey × Time)
  | .mark clock i =>
      match s.verifies[i]? with
      | none => none
      | some v =>
          if v.finished = false ∧
              (verifyDeviceProof cfg.crypto v.deviceID v.pubkeyHex v.burned.challenge v.sig).toBool = true ∧
              s.db.enrollments.rows.any (verifyMatches v.deviceID v.pubkeyHex v.burned.tokenHash) = true then
            some (v.key, clock.db)
          else none
  | _ => none

/-- A verified update leaves the earliest verified row of the device id the earliest: its own new stamp
stays before the other verified rows, and the stamp of another row comes after it. -/
def keepsEarliest (a : Action) : Bool :=
  match verifiedUpdate cfg s a with
  | none => true
  | some (key, stamp) => key.1 ≠ d || s.db.enrollments.rows.all fun r => r.deviceID ≠ d ||
      match r.verifiedAt with
      | none => true
      | some verifiedAt => olderVerified s.db.enrollments d r.pubkeyHex verifiedAt ||
          (if r.pubkeyHex = key.2 then !olderVerified s.db.enrollments d key.2 stamp
            else claimLockOlder stamp verifiedAt key.2 r.pubkeyHex)

end guards

/-- No row of the device id is deleted. -/
def KeepsRows (cfg : EnrollConfig) (topicRoot d : String) (_log : List Event) (s : System) (a : Action) : Prop :=
  keepsRows cfg topicRoot d s a = true

instance (cfg : EnrollConfig) (topicRoot d : String) (log : List Event) (s : System) (a : Action) :
    Decidable (KeepsRows cfg topicRoot d log s a) := inferInstanceAs (Decidable (_ = true))

/-- No row of the device id is deleted, and its earliest verified row stays the earliest. -/
def KeepsFirst (cfg : EnrollConfig) (topicRoot d : String) (log : List Event) (s : System) (a : Action) : Prop :=
  KeepsRows cfg topicRoot d log s a ∧ keepsEarliest cfg d s a = true

instance (cfg : EnrollConfig) (topicRoot d : String) (log : List Event) (s : System) (a : Action) :
    Decidable (KeepsFirst cfg topicRoot d log s a) := inferInstanceAs (Decidable (_ ∧ _))

/-- When a row was verified. -/
def verifiedAtOf (t : KeyedTable Enrollment.key) (d pub : String) : Option Time :=
  (t.find (d, pub)).bind Enrollment.verifiedAt

/-- The verified row of the device id that no other one sorts before. -/
def Earliest (t : KeyedTable Enrollment.key) (d pub : String) : Prop :=
  ∃ verifiedAt, verifiedAtOf t d pub = some verifiedAt ∧ olderVerified t d pub verifiedAt = false

variable {cfg : EnrollConfig} {topicRoot d : String} {log : List Event} {s s' : System} {a : Action} {e : Event}

theorem lockWatch_snoc (log : List Event) (e : Event) :
    lockWatch d (log ++ [e]) = (lockWatch d log).see d e := by
  simp [lockWatch]

section order

variable {t t' : KeyedTable Enrollment.key} {pub₁ pub₂ : String}

/-- Of two rows one sorts before the other. -/
theorem claimLockOlder_total (at₁ at₂ : Time) (hpub : pub₁ ≠ pub₂) :
    claimLockOlder at₁ at₂ pub₁ pub₂ = true ∨ claimLockOlder at₂ at₁ pub₂ pub₁ = true := by
  rcases lt_trichotomy at₁ at₂ with hlt | rfl | hlt
  · exact .inr (by simp [claimLockOlder, hlt])
  · rcases lt_or_gt_of_ne hpub with hlt | hlt
    · exact .inr (by simp [claimLockOlder, hlt])
    · exact .inl (by simp [claimLockOlder, hlt])
  · exact .inl (by simp [claimLockOlder, hlt])

theorem claimLockOlder_asymm {at₁ at₂ : Time} (h : claimLockOlder at₁ at₂ pub₁ pub₂ = true) :
    claimLockOlder at₂ at₁ pub₂ pub₁ = false := by
  simp only [claimLockOlder, Bool.or_eq_true, Bool.and_eq_true, decide_eq_true_eq] at h
  simp only [claimLockOlder, Bool.or_eq_false_iff, Bool.and_eq_false_iff, decide_eq_false_iff_not]
  rcases h with hlt | ⟨rfl, hlt⟩
  · exact ⟨hlt.asymm, .inl hlt.ne'⟩
  · exact ⟨lt_irrefl _, .inr hlt.asymm⟩

theorem olderVerified_iff {pub : String} {verifiedAt : Time} : olderVerified t d pub verifiedAt = true ↔
    ∃ pub' otherAt, pub' ≠ pub ∧ verifiedAtOf t d pub' = some otherAt ∧
      claimLockOlder verifiedAt otherAt pub pub' = true := by
  simp only [olderVerified, List.any_eq_true, Bool.and_eq_true, decide_eq_true_eq, KeyedTable.mem_rows]
  constructor
  · rintro ⟨r, hr, ⟨rfl, hpub⟩, hold⟩
    split at hold
    · cases hold
    · next otherAt hat =>
        refine ⟨r.pubkeyHex, otherAt, hpub, ?_, hold⟩
        rw [verifiedAtOf, show (r.deviceID, r.pubkeyHex) = r.key from rfl, KeyedTable.find_of_mem hr]
        exact hat
  · rintro ⟨pub', otherAt, hpub, hat, hold⟩
    obtain ⟨r, hr, hverified⟩ := Option.bind_eq_some_iff.mp hat
    obtain ⟨rfl, rfl⟩ := Enrollment.key_eq.mp (KeyedTable.find_key hr)
    refine ⟨r, KeyedTable.find_mem hr, ⟨rfl, hpub⟩, ?_⟩
    rw [hverified]
    exact hold

theorem olderVerified_eq_false {pub : String} {verifiedAt : Time} : olderVerified t d pub verifiedAt = false ↔
    ∀ pub' otherAt, pub' ≠ pub → verifiedAtOf t d pub' = some otherAt →
      claimLockOlder verifiedAt otherAt pub pub' = false := by
  rw [← Bool.not_eq_true, olderVerified_iff]
  simp only [not_exists, not_and, Bool.not_eq_true]

/-- The SELECT reads only when the other rows were verified. -/
theorem olderVerified_congr {pub : String} {verifiedAt : Time}
    (hview : ∀ pub' ≠ pub, verifiedAtOf t' d pub' = verifiedAtOf t d pub') :
    olderVerified t' d pub verifiedAt = olderVerified t d pub verifiedAt := by
  rw [Bool.eq_iff_iff, olderVerified_iff, olderVerified_iff]
  constructor
  · rintro ⟨pub', otherAt, hpub, hat, hold⟩
    exact ⟨pub', otherAt, hpub, (hview pub' hpub).symm.trans hat, hold⟩
  · rintro ⟨pub', otherAt, hpub, hat, hold⟩
    exact ⟨pub', otherAt, hpub, (hview pub' hpub).trans hat, hold⟩

theorem Earliest.congr {pub : String} (h : Earliest t d pub)
    (hview : ∀ pub', verifiedAtOf t' d pub' = verifiedAtOf t d pub') : Earliest t' d pub := by
  obtain ⟨verifiedAt, hat, hfirst⟩ := h
  exact ⟨verifiedAt, (hview pub).trans hat, (olderVerified_congr fun pub' _ => hview pub').trans hfirst⟩

theorem Earliest.unique {pub pub' : String} (h : Earliest t d pub) (h' : Earliest t d pub') : pub = pub' := by
  obtain ⟨verifiedAt, hat, hfirst⟩ := h
  obtain ⟨verifiedAt', hat', hfirst'⟩ := h'
  by_contra hne
  rcases claimLockOlder_total verifiedAt verifiedAt' hne with hold | hold
  · rw [olderVerified_eq_false.mp hfirst pub' verifiedAt' (Ne.symm hne) hat'] at hold
    cases hold
  · rw [olderVerified_eq_false.mp hfirst' pub verifiedAt hne hat] at hold
    cases hold

/-- A stamp on one row keeps the earliest row the earliest if it comes after the stamp of that row, or
lands on that row and before the stamps of the others. -/
theorem Earliest.stamped {pub pub₀ : String} {verifiedAt stamp : Time} (hat : verifiedAtOf t d pub₀ = some verifiedAt)
    (hfirst : olderVerified t d pub₀ verifiedAt = false)
    (hview : ∀ pub', verifiedAtOf t' d pub' = if pub' = pub then some stamp else verifiedAtOf t d pub')
    (hstamp : if pub₀ = pub then olderVerified t d pub stamp = false
      else claimLockOlder stamp verifiedAt pub pub₀ = true) : Earliest t' d pub₀ := by
  by_cases hpub : pub₀ = pub
  · subst hpub
    rw [if_pos rfl] at hstamp
    refine ⟨stamp, by simp [hview], ?_⟩
    rw [olderVerified_congr fun pub' hpub' => (hview pub').trans (if_neg hpub')]
    exact hstamp
  · rw [if_neg hpub] at hstamp
    refine ⟨verifiedAt, by rw [hview, if_neg hpub, hat], ?_⟩
    refine olderVerified_eq_false.mpr fun pub' otherAt hpub' hat' => ?_
    rw [hview] at hat'
    split_ifs at hat' with heq
    · subst heq
      obtain rfl := Option.some.inj hat'
      exact claimLockOlder_asymm hstamp
    · exact olderVerified_eq_false.mp hfirst pub' otherAt hpub' hat'

end order

/-- The transactions that neither stamp a row nor clear a count. -/
def Tx.Quiet : Tx → Prop
  | .announce _ _ _ _ | .verifyMark _ _ _ _ => False
  | _ => True

theorem RowChange.verifiedAt_same {t : Tx} {o o' : Option Enrollment} (hchange : RowChange cfg t o o')
    (hkept : o ≠ none → o' ≠ none) (hmark : ∀ clock d k hash, t ≠ .verifyMark clock d k hash) :
    o'.bind Enrollment.verifiedAt = o.bind Enrollment.verifiedAt := by
  cases hchange with
  | deleted => exact absurd rfl (hkept nofun)
  | verified clock e ht => exact absurd ht (hmark _ _ _ _)
  | same | inserted | announced | announcedClear | cleared | burned | missed | delivered | claimed => rfl

theorem RowChange.failures_le {t : Tx} (ht : t.Quiet) {r r' : Enrollment}
    (hchange : RowChange cfg t (some r) (some r')) : r.claimFailures ≤ r'.claimFailures := by
  generalize ho : some r = o at hchange
  generalize ho' : some r' = o' at hchange
  cases hchange with
  | same => rw [Option.some.inj (ho'.trans ho.symm)]
  | deleted => cases ho'
  | inserted => cases ho
  | announced clock nonce raced c e hannounce | announcedClear clock nonce raced c e hannounce
  | cleared clock nonce raced c e hannounce =>
      subst hannounce
      exact ht.elim
  | missed =>
      cases ho
      cases ho'
      exact Nat.le_succ _
  | burned | verified | delivered | claimed =>
      cases ho
      cases ho'
      exact le_rfl

section transactions

variable {db db' : Db} {clock : Clock}

theorem announce_view {nonce : String} {raced : Bool} {c : AnnounceCall}
    (h : announce cfg db clock nonce raced c = .ok db') (d pub : String) :
    verifiedAtOf db'.enrollments d pub = verifiedAtOf db.enrollments d pub := by
  have hchange := announce_row h (d, pub)
  refine hchange.verifiedAt_same ?_ nofun
  generalize db.enrollments.find (d, pub) = o at hchange
  generalize db'.enrollments.find (d, pub) = o' at hchange
  rintro hsome rfl
  cases hchange with
  | same => exact hsome rfl
  | deleted e ht => exact ht

theorem rotate_view {nonce : String} {c : AnnounceCall} (d pub : String) :
    verifiedAtOf (rotate cfg db clock nonce c) d pub = verifiedAtOf db.enrollments d pub := by
  rw [verifiedAtOf, verifiedAtOf, rotate, KeyedTable.find_updateWhere]
  cases db.enrollments.find (d, pub) with
  | none => rfl
  | some r => by_cases hkey : r.key = c.key <;> simp [hkey, reannounce]

/-- A row keeps its count through an announce, unless it is one of the device id's earliest verified row
with that row's own code. -/
theorem announce_counts {nonce : String} {raced : Bool} {c : AnnounceCall}
    (h : announce cfg db clock nonce raced c = .ok db') {r : Enrollment} (hr : r ∈ db.enrollments) :
    (∃ r' ∈ db'.enrollments, r'.deviceID = r.deviceID ∧ r.claimFailures ≤ r'.claimFailures) ∨
      r.deviceID = c.deviceID ∧ owned cfg db c = true ∧ Earliest db.enrollments c.deviceID c.pubkeyHex := by
  have hfind := KeyedTable.find_of_mem hr
  simp only [announce] at h
  split at h
  · cases h
  split at h
  · cases h
  split at h
  · obtain rfl := Except.ok.inj h
    refine .inl ?_
    have hnew := KeyedTable.find_upsert (t := db.enrollments) (r := newRow cfg clock nonce c)
      (reannounce_key cfg clock nonce c) r.key
    rw [hfind] at hnew
    split at hnew
    · exact ⟨_, KeyedTable.find_mem hnew, rfl, le_rfl⟩
    · exact ⟨r, KeyedTable.find_mem hnew, rfl, le_rfl⟩
  · next existing hexisting =>
      have hrotated : ∃ r' ∈ rotate cfg db clock nonce c,
          r'.deviceID = r.deviceID ∧ r'.claimFailures = r.claimFailures := by
        refine ⟨_, (KeyedTable.mem_updateWhere _).mpr ⟨r, hr, rfl⟩, ?_⟩
        split_ifs <;> exact ⟨rfl, rfl⟩
      obtain ⟨r', hr', hdevice, hcount⟩ := hrotated
      split at h
      · cases h
      split at h
      · next hclears =>
          obtain rfl := Except.ok.inj h
          by_cases hsame : r.deviceID = c.deviceID
          · refine .inr ⟨hsame, ?_⟩
            have hexisting : db.enrollments.find c.key = some existing := by
              cases raced with
              | true => cases hexisting
              | false => exact hexisting
            simp only [announceClears, claimLockClears, Bool.and_eq_true, Bool.not_eq_true',
              Option.isSome_iff_exists] at hclears
            obtain ⟨⟨howned, verifiedAt, hat⟩, hfirst⟩ := hclears
            rw [hat] at hfirst
            simp only [howned, Bool.true_and] at hfirst
            rw [olderVerified_congr fun pub' _ => rotate_view c.deviceID pub'] at hfirst
            refine ⟨by rw [owned, hexisting]; exact howned, verifiedAt, ?_, hfirst⟩
            rw [verifiedAtOf, show (c.deviceID, c.pubkeyHex) = c.key from rfl, hexisting]
            exact hat
          · refine .inl ⟨r', (KeyedTable.mem_updateWhere clearRow_key).mpr ⟨r', hr', ?_⟩, hdevice, hcount.ge⟩
            rw [if_neg (by simpa [hdevice] using hsame)]
      · obtain rfl := Except.ok.inj h
        exact .inl ⟨r', hr', hdevice, hcount.ge⟩

/-- The verified update stamps its row and no other. -/
theorem verifyMark_view {d' pub' hash : String} (h : verifyMark db clock d' pub' hash = .ok db') (d pub : String) :
    verifiedAtOf db'.enrollments d pub =
      if d = d' ∧ pub = pub' then some clock.db else verifiedAtOf db.enrollments d pub := by
  simp only [verifyMark] at h
  split at h
  · next hany =>
      obtain rfl := Except.ok.inj h
      rw [verifiedAtOf, Db.setEnrollments_enrollments, KeyedTable.find_updateWhere]
      by_cases hkey : d = d' ∧ pub = pub'
      · obtain ⟨rfl, rfl⟩ := hkey
        obtain ⟨r, hr, hmatch⟩ := List.any_eq_true.mp hany
        have hr_key : r.key = (d, pub) := by
          simp only [verifyMatches, Bool.and_eq_true, decide_eq_true_eq] at hmatch
          exact hmatch.1.1
        rw [← hr_key, KeyedTable.find_of_mem hr]
        simp [hmatch, verifyRow]
      · rw [if_neg hkey, verifiedAtOf]
        cases hfound : db.enrollments.find (d, pub) with
        | none => rfl
        | some r =>
            have hother : verifyMatches d' pub' hash r = false := by
              simp only [verifyMatches, KeyedTable.find_key hfound, Prod.mk.injEq, hkey, decide_false,
                Bool.false_and]
            simp [hother]
  · cases h

theorem le_worstFailures {rows : List Enrollment} {r : Enrollment} (hr : r ∈ rows) :
    r.claimFailures ≤ worstFailures rows := by
  have hfold : ∀ (rows : List Enrollment) (worst : Nat),
      worst ≤ rows.foldl (fun worst e => max worst e.claimFailures) worst ∧
        ∀ r ∈ rows, r.claimFailures ≤ rows.foldl (fun worst e => max worst e.claimFailures) worst := by
    intro rows
    induction rows with
    | nil => exact fun worst => ⟨le_rfl, fun _ hr => absurd hr List.not_mem_nil⟩
    | cons e rows ih =>
        intro worst
        obtain ⟨hstart, hall⟩ := ih (max worst e.claimFailures)
        refine ⟨(le_max_left _ _).trans hstart, fun r hr => ?_⟩
        rcases List.mem_cons.mp hr with rfl | hr
        · exact (le_max_right _ _).trans hstart
        · exact hall r hr
  exact (hfold rows 0).2 r hr

/-- A code is judged right or wrong only under the cap, on a device id that has rows. -/
theorem judgeClaim_open {rows : List Enrollment} {token : String}
    (h : judgeClaim cfg rows token = .wrong ∨ ∃ r, judgeClaim cfg rows token = .found r) :
    rows ≠ [] ∧ worstFailures rows < claimFailureCap := by
  have hunknown : judgeClaim cfg rows token ≠ .unknown := by
    rcases h with h | ⟨r, h⟩ <;> rw [h] <;> nofun
  have hlocked : judgeClaim cfg rows token ≠ .locked := by
    rcases h with h | ⟨r, h⟩ <;> rw [h] <;> nofun
  simp only [judgeClaim] at hunknown hlocked
  split at hunknown
  · exact absurd rfl hunknown
  · next hrows =>
      rw [if_neg hrows] at hlocked
      split at hlocked
      · exact absurd rfl hlocked
      · next hopen => exact ⟨hrows, by simpa [claimFailuresExhausted] using hopen⟩

end transactions

/-- What the table has to do with the watch: the first verified row is the earliest one, and some row carries
at least the count. -/
structure LockInvariant (d : String) (w : LockWatch) (t : KeyedTable Enrollment.key) : Prop where
  unverified : w.first = none → ∀ pub, verifiedAtOf t d pub = none
  first : ∀ key, w.first = some key → key.1 = d ∧ Earliest t d key.2
  counted : w.wrong = 0 ∨ ∃ r ∈ t, r.deviceID = d ∧ w.wrong ≤ r.claimFailures

section invariant

variable {w : LockWatch} {t t' : KeyedTable Enrollment.key}

theorem LockInvariant.of_view (h : LockInvariant d w t) (hview : ∀ pub, verifiedAtOf t' d pub = verifiedAtOf t d pub)
    {wrong : Nat} (hcounted : wrong = 0 ∨ ∃ r ∈ t', r.deviceID = d ∧ wrong ≤ r.claimFailures) :
    LockInvariant d { w with wrong } t' where
  unverified hnone pub := (hview pub).trans (h.unverified hnone pub)
  first key hkey := ⟨(h.first key hkey).1, (h.first key hkey).2.congr hview⟩
  counted := hcounted

/-- While the counts of all rows are kept, so is the one the watch is held against. -/
theorem LockInvariant.counted_of_kept (h : LockInvariant d w t) (t' : KeyedTable Enrollment.key) (hcount : ∀ r ∈ t, r.deviceID = d →
    ∃ r' ∈ t', r'.deviceID = d ∧ r.claimFailures ≤ r'.claimFailures) :
    w.wrong = 0 ∨ ∃ r ∈ t', r.deviceID = d ∧ w.wrong ≤ r.claimFailures := by
  rcases h.counted with hzero | ⟨r, hr, hdevice, hle⟩
  · exact .inl hzero
  · obtain ⟨r', hr', hdevice', hle'⟩ := hcount r hr hdevice
    exact .inr ⟨r', hr', hdevice', hle.trans hle'⟩

/-- The earliest verified row is the first one verified. -/
theorem LockInvariant.eq_first (h : LockInvariant d w t) {pub : String} (hearliest : Earliest t d pub) :
    w.first = some (d, pub) := by
  cases hw : w.first with
  | none =>
      obtain ⟨verifiedAt, hat, -⟩ := hearliest
      rw [h.unverified hw pub] at hat
      cases hat
  | some key =>
      obtain ⟨hd, hfirst⟩ := h.first key hw
      rw [show key = (d, pub) from Prod.ext hd (hfirst.unique hearliest)]

theorem LockInvariant.announced (h : LockInvariant d w s.db.enrollments) {clock : Clock} {nonce : String}
    {raced byHolder : Bool} {c : AnnounceCall} {db : Db} (hdb : announce cfg s.db clock nonce raced c = .ok db) :
    LockInvariant d (w.see d (.announced c.key c.claimToken nonce byHolder (owned cfg s.db c))) db.enrollments := by
  refine h.of_view (announce_view hdb d) ?_
  split_ifs with hclear
  · exact .inl rfl
  · rcases h.counted with hzero | ⟨r, hr, rfl, hle⟩
    · exact .inl hzero
    · rcases announce_counts hdb hr with ⟨r', hr', hdevice, hcount⟩ | ⟨hdevice, howned, hearliest⟩
      · exact .inr ⟨r', hr', hdevice, hle.trans hcount⟩
      · rw [hdevice] at h
        exact absurd ⟨h.eq_first hearliest, howned⟩ hclear

end invariant

theorem keepsRows_find (hkept : keepsRows cfg topicRoot d s a = true)
    (hstep : step cfg topicRoot s a = some (s', e)) (pub : String)
    (hrow : s.db.enrollments.find (d, pub) ≠ none) : s'.db.enrollments.find (d, pub) ≠ none := by
  obtain ⟨r, hr⟩ := Option.ne_none_iff_exists'.mp hrow
  obtain ⟨rfl, rfl⟩ := Enrollment.key_eq.mp (KeyedTable.find_key hr)
  simp only [keepsRows, hstep, List.all_eq_true, Bool.or_eq_true, decide_eq_true_eq] at hkept
  rcases hkept r (KeyedTable.find_mem hr) with hother | hsome
  · exact absurd rfl hother
  · exact Option.isSome_iff_ne_none.mp hsome

/-- The events of steps that neither stamp a row nor clear a count. -/
def Event.Quiet : Event → Prop
  | .announced _ _ _ _ _ | .verified _ => False
  | _ => True

theorem Effect.quiet_row (heff : Effect cfg topicRoot s a s' e) (he : e.Quiet) (k : EnrollKey) :
    s'.db.enrollments.find k = s.db.enrollments.find k ∨
      ∃ t : Tx, t.Quiet ∧ RowChange cfg t (s.db.enrollments.find k) (s'.db.enrollments.find k) := by
  cases heff with
  | answered | refused | signed | unproved | notShaped | claiming | unbound => exact .inl rfl
  | announced | marked => exact he.elim
  | burned clock d k' sig db b ha hdb => exact .inr ⟨.verifyBurn clock d k', trivial, verifyBurn_row hdb k⟩
  | judged r d token reply => exact .inr ⟨.findForClaim d token, trivial, findForClaim_row cfg d token s.db k⟩
  | bound clock fresh i r db pk ha hr hopen hdb => exact .inr ⟨.claimInto clock fresh r.call, trivial, claimInto_row hdb k⟩
  | ran t ha =>
      refine .inr ⟨t, ?_, run_row cfg t s.db k⟩
      cases a <;> cases ha <;> trivial

/-- A quiet step that deletes no row keeps the stamps and the counts. -/
theorem Effect.quiet (heff : Effect cfg topicRoot s a s' e) (he : e.Quiet)
    (hrows : ∀ pub, s.db.enrollments.find (d, pub) ≠ none → s'.db.enrollments.find (d, pub) ≠ none) :
    (∀ pub, verifiedAtOf s'.db.enrollments d pub = verifiedAtOf s.db.enrollments d pub) ∧
      ∀ r ∈ s.db.enrollments, r.deviceID = d →
        ∃ r' ∈ s'.db.enrollments, r'.deviceID = d ∧ r.claimFailures ≤ r'.claimFailures := by
  constructor
  · intro pub
    rcases heff.quiet_row he (d, pub) with hsame | ⟨t, ht, hchange⟩
    · rw [verifiedAtOf, verifiedAtOf, hsame]
    · refine hchange.verifiedAt_same (hrows pub) ?_
      rintro clock d k hash rfl
      exact ht
  · rintro r hr rfl
    have hfind : s.db.enrollments.find (r.deviceID, r.pubkeyHex) = some r := KeyedTable.find_of_mem hr
    obtain ⟨r', hr'⟩ := Option.ne_none_iff_exists'.mp (hrows r.pubkeyHex (by rw [hfind]; nofun))
    refine ⟨r', KeyedTable.find_mem hr', (Enrollment.key_eq.mp (KeyedTable.find_key hr')).1, ?_⟩
    rcases heff.quiet_row he (r.deviceID, r.pubkeyHex) with hsame | ⟨t, ht, hchange⟩
    · rw [hsame, hfind] at hr'
      rw [Option.some.inj hr']
    · rw [hfind, hr'] at hchange
      exact hchange.failures_le ht

/-- A wrong code is counted on every row of the device id. -/
theorem bumpFailures_counts {db : Db} {r : Enrollment} (hr : r ∈ db.enrollments) :
    ∃ r' ∈ (bumpFailures db r.deviceID).enrollments, r'.deviceID = r.deviceID ∧
      r'.claimFailures = r.claimFailures + 1 :=
  ⟨missRow r, (KeyedTable.mem_updateWhere missRow_key).mpr ⟨r, hr, by simp⟩, rfl, rfl⟩

theorem LockInvariant.missed {w : LockWatch} {token : String} {reply : Option HttpError}
    (h : LockInvariant d w s.db.enrollments) (hvalid : validDeviceID d = true) (htoken : token ≠ "")
    (hjudge : judgeClaim cfg (candidates s.db d) token = .wrong)
    (hview : ∀ pub, verifiedAtOf (findForClaim cfg s.db d token).1.enrollments d pub =
      verifiedAtOf s.db.enrollments d pub) :
    LockInvariant d (w.see d (.judged d token .wrong reply)) (findForClaim cfg s.db d token).1.enrollments := by
  rw [LockWatch.see, if_pos rfl]
  refine h.of_view hview (.inr ?_)
  rw [findForClaim_eq cfg s.db hvalid htoken, hjudge]
  rcases h.counted with hzero | ⟨r, hr, rfl, hle⟩
  · obtain ⟨r, hcandidate⟩ := List.exists_mem_of_ne_nil _ (judgeClaim_open (.inl hjudge)).1
    obtain ⟨hr, rfl⟩ := mem_candidates.mp hcandidate
    obtain ⟨r', hr', hdevice, hcount⟩ := bumpFailures_counts hr
    exact ⟨r', hr', hdevice, by omega⟩
  · obtain ⟨r', hr', hdevice, hcount⟩ := bumpFailures_counts hr
    exact ⟨r', hr', hdevice, by omega⟩

theorem verifyMark_counts {db db' : Db} {clock : Clock} {d' pub hash : String}
    (h : verifyMark db clock d' pub hash = .ok db') {r : Enrollment} (hr : r ∈ db.enrollments) :
    ∃ r' ∈ db'.enrollments, r'.deviceID = r.deviceID ∧ r.claimFailures ≤ r'.claimFailures := by
  simp only [verifyMark] at h
  split at h
  · obtain rfl := Except.ok.inj h
    refine ⟨_, (KeyedTable.mem_updateWhere (verifyRow_key clock)).mpr ⟨r, hr, rfl⟩, ?_⟩
    split_ifs <;> exact ⟨rfl, le_rfl⟩
  · cases h

/-- The guard at a verified update of the device id: the earliest verified row stays so. -/
theorem keepsEarliest_marked {clock : Clock} {i : Nat} {v : VerifyRequest} {db : Db}
    (hkeeps : keepsEarliest cfg v.deviceID s (.mark clock i) = true) (hv : s.verifies[i]? = some v)
    (hopen : v.finished = false)
    (hproof : verifyDeviceProof cfg.crypto v.deviceID v.pubkeyHex v.burned.challenge v.sig = .ok ())
    (hdb : verifyMark s.db clock v.deviceID v.pubkeyHex v.burned.tokenHash = .ok db) {pub : String}
    (h : Earliest s.db.enrollments v.deviceID pub) : Earliest db.enrollments v.deviceID pub := by
  have hany : s.db.enrollments.rows.any (verifyMatches v.deviceID v.pubkeyHex v.burned.tokenHash) = true := by
    by_contra hnone
    rw [verifyMark, if_neg hnone] at hdb
    cases hdb
  have hupdate : verifiedUpdate cfg s (.mark clock i) = some (v.key, clock.db) := by
    simp only [verifiedUpdate, hv]
    rw [if_pos ⟨hopen, by rw [hproof]; rfl, hany⟩]
  obtain ⟨verifiedAt, hat, hfirst⟩ := h
  have hview : ∀ pub', verifiedAtOf db.enrollments v.deviceID pub' =
      if pub' = v.pubkeyHex then some clock.db else verifiedAtOf s.db.enrollments v.deviceID pub' := by
    simp [verifyMark_view hdb]
  refine Earliest.stamped hat hfirst hview ?_
  obtain ⟨r, hr, hverified⟩ := Option.bind_eq_some_iff.mp hat
  obtain ⟨hdevice, rfl⟩ := Enrollment.key_eq.mp (KeyedTable.find_key hr)
  simp only [keepsEarliest, hupdate, VerifyRequest.key, ne_eq, not_true_eq_false, decide_false, Bool.false_or,
    List.all_eq_true] at hkeeps
  have hrow := hkeeps r (KeyedTable.find_mem hr)
  simp only [hdevice, hverified, not_true_eq_false, decide_false, Bool.false_or, hfirst] at hrow
  split_ifs at hrow ⊢
  · simpa using hrow
  · exact hrow

theorem LockInvariant.marked {w : LockWatch} {clock : Clock} {i : Nat} {v : VerifyRequest} {db : Db}
    (h : LockInvariant d w s.db.enrollments) (hkeeps : keepsEarliest cfg d s (.mark clock i) = true)
    (hv : s.verifies[i]? = some v) (hopen : v.finished = false)
    (hproof : verifyDeviceProof cfg.crypto v.deviceID v.pubkeyHex v.burned.challenge v.sig = .ok ())
    (hdb : verifyMark s.db clock v.deviceID v.pubkeyHex v.burned.tokenHash = .ok db) :
    LockInvariant d (w.see d (.verified v.key)) db.enrollments := by
  have hcounted := h.counted_of_kept db.enrollments fun r hr hdevice => by
    obtain ⟨r', hr', hdevice', hle⟩ := verifyMark_counts hdb hr
    exact ⟨r', hr', hdevice'.trans hdevice, hle⟩
  by_cases hd : v.deviceID = d
  · subst hd
    have hsee : (w.see v.deviceID (.verified v.key)).first = w.first.or (some v.key) := if_pos rfl
    refine ⟨fun hnone => ?_, fun key hkey => ?_, hcounted⟩
    · rw [hsee] at hnone
      cases hfirst : w.first <;> rw [hfirst] at hnone <;> cases hnone
    · rw [hsee] at hkey
      cases hfirst : w.first with
      | none =>
          rw [hfirst] at hkey
          obtain rfl := Option.some.inj hkey
          refine ⟨rfl, clock.db, by simp [verifyMark_view hdb, VerifyRequest.key], ?_⟩
          refine olderVerified_eq_false.mpr fun pub otherAt hpub hat => ?_
          rw [verifyMark_view hdb, if_neg fun heq => hpub heq.2, h.unverified hfirst] at hat
          cases hat
      | some first =>
          rw [hfirst] at hkey
          obtain rfl := Option.some.inj hkey
          obtain ⟨hdevice, hearliest⟩ := h.first _ hfirst
          exact ⟨hdevice, keepsEarliest_marked hkeeps hv hopen hproof hdb hearliest⟩
  · have hsee : w.see d (.verified v.key) = w := by rw [LockWatch.see, VerifyRequest.key, if_neg hd]
    rw [hsee]
    exact h.of_view (fun pub => by rw [verifyMark_view hdb, if_neg fun heq => hd heq.1.symm]) hcounted

/-- One step under the guard keeps the invariant. -/
theorem LockInvariant.kept (h : LockInvariant d (lockWatch d log) s.db.enrollments)
    (hok : KeepsFirst cfg topicRoot d log s a) (hstep : step cfg topicRoot s a = some (s', e)) :
    LockInvariant d (lockWatch d (log ++ [e])) s'.db.enrollments := by
  have heff := step_effect hstep
  have hquiet := fun he => heff.quiet he (keepsRows_find hok.1 hstep)
  rw [lockWatch_snoc]
  cases heff with
  | answered | refused | signed | unproved | notShaped | unbound => exact h
  | claiming => exact h
  | burned | bound | ran =>
      obtain ⟨hview, hcount⟩ := hquiet trivial
      exact h.of_view hview (h.counted_of_kept _ hcount)
  | announced clock nonce raced c byHolder db ha hdb => exact h.announced hdb
  | marked clock i v db ha hv hopen hproof hdb =>
      subst ha
      exact h.marked hok.2 hv hopen hproof hdb
  | judged r d' token reply ha hvalid htoken =>
      obtain ⟨hview, hcount⟩ := hquiet trivial
      by_cases hmiss : d' = d ∧ judgeClaim cfg (candidates s.db d') token = .wrong
      · obtain ⟨rfl, hjudge⟩ := hmiss
        rw [hjudge]
        exact h.missed hvalid htoken hjudge hview
      · have hsee : ∀ j, j = judgeClaim cfg (candidates s.db d') token →
            (lockWatch d log).see d (.judged d' token j reply) = lockWatch d log := by
          rintro j rfl
          cases hjudge : judgeClaim cfg (candidates s.db d') token with
          | unknown | locked | found | ambiguous => rfl
          | wrong => rw [LockWatch.see, if_neg fun hd => hmiss ⟨hd, hjudge⟩]
        rw [hsee _ rfl]
        exact h.of_view hview (h.counted_of_kept _ hcount)

/-- A code is judged right or wrong only while the watch counts fewer wrong ones than the cap. -/
theorem LockInvariant.wrong_lt {w : LockWatch} (h : LockInvariant d w s.db.enrollments) {token : String}
    (hjudge : judgeClaim cfg (candidates s.db d) token = .wrong ∨
      ∃ r, judgeClaim cfg (candidates s.db d) token = .found r) : w.wrong < claimFailureCap := by
  obtain ⟨-, hworst⟩ := judgeClaim_open hjudge
  rcases h.counted with hzero | ⟨r, hr, hdevice, hle⟩
  · rw [hzero]
    decide
  · exact (hle.trans (le_worstFailures (mem_candidates.mpr ⟨hr, hdevice⟩))).trans_lt hworst

theorem LockInvariant.lockHolds (h : LockInvariant d (lockWatch d log) s.db.enrollments)
    (hbound : (lockWatch d log).wrong ≤ claimFailureCap) (hstep : step cfg topicRoot s a = some (s', e)) :
    LockHolds d log e := by
  rw [LockHolds, lockWatch_snoc]
  generalize lockWatch d log = w at h hbound ⊢
  cases step_effect hstep with
  | answered | refused | signed | unproved | notShaped | unbound | burned | bound | ran | marked =>
      exact ⟨fun _ _ _ heq => (by cases heq), hbound⟩
  | announced =>
      refine ⟨fun _ _ _ heq => (by cases heq), ?_⟩
      rw [LockWatch.see]
      dsimp only
      split_ifs
      · exact Nat.zero_le _
      · exact hbound
  | claiming r user tenantID d' token found ha hvalid htoken hfound =>
      refine ⟨fun token' r' reply' heq => ?_, hbound⟩
      obtain ⟨rfl, -⟩ := Event.judged.inj heq
      exact h.wrong_lt (.inr ⟨found, hfound⟩)
  | judged r d' token reply =>
      constructor
      · intro token' r' reply' heq
        obtain ⟨rfl, -, hfound, -⟩ := Event.judged.inj heq
        exact h.wrong_lt (.inr ⟨r', hfound⟩)
      · cases hjudge : judgeClaim cfg (candidates s.db d') token with
        | unknown | locked | found | ambiguous => exact hbound
        | wrong =>
            rw [LockWatch.see]
            dsimp only
            split_ifs with hd
            · subst hd
              exact h.wrong_lt (.inl hjudge)
            · exact hbound

theorem lockInvariant_of_run {db₀ : Db} (hnone : ∀ r ∈ db₀.enrollments, r.deviceID ≠ d)
    (hrun : (system cfg topicRoot).RunIf (KeepsFirst cfg topicRoot d) (.initial db₀) log s) :
    LockInvariant d (lockWatch d log) s.db.enrollments ∧ (lockWatch d log).wrong ≤ claimFailureCap := by
  refine Machine.RunIf.invariant (fun log s => LockInvariant d (lockWatch d log) s.db.enrollments ∧
    (lockWatch d log).wrong ≤ claimFailureCap) ⟨⟨fun _ pub => ?_, nofun, .inl rfl⟩, Nat.zero_le _⟩ ?_ hrun
  · have hfind : db₀.enrollments.find (d, pub) = none :=
      KeyedTable.find_eq_none.mpr fun r hr hkey => hnone r hr (Enrollment.key_eq.mp hkey).1
    rw [verifiedAtOf, System.initial, hfind]
    rfl
  · rintro log s a s' e ⟨hinv, hbound⟩ hok hstep
    exact ⟨hinv.kept hok hstep, (hinv.lockHolds hbound hstep).2⟩

/-- In every run that deletes no row of the device id and keeps its earliest verified row the earliest, a
code is accepted only while fewer than the cap of wrong ones have been judged since the first verified row
was last announced with its own code, and no more wrong ones than the cap are judged. -/
theorem claim_lock_holds {db₀ : Db} (hnone : ∀ r ∈ db₀.enrollments, r.deviceID ≠ d)
    (hrun : (system cfg topicRoot).RunIf (KeepsFirst cfg topicRoot d) (.initial db₀) log s) :
    ∀ a s' e, (system cfg topicRoot).step s a = some (s', e) → LockHolds d log e := by
  intro a s' e hstep
  obtain ⟨hinv, hbound⟩ := lockInvariant_of_run hnone hrun
  exact hinv.lockHolds hbound hstep

/-- A code that is on no row. -/
def wrongCode : String := "00000000"

/-- A second key that announces the unit's device id. -/
def squatKey : String := "8139770ea87d175f56a35466c34c7ecccb8d8a91b4ee37a25df60f5b8fc9b394"

def squatNonce : String := "cccccccccccccccccccccccccccccccccccccccccccccccccccccccccccccccc"

/-- The signature over `squatNonce` by the second key. -/
def squatSig : List UInt8 :=
  [70, 72, 217, 226, 107, 108, 61, 23, 178, 101, 0, 27, 88, 47, 154, 136, 52, 70, 148, 176, 111, 194, 77, 238,
    61, 90, 93, 229, 35, 157, 173, 35, 28, 58, 253, 251, 106, 148, 161, 241, 238, 92, 155, 157, 147, 192, 202, 211,
    84, 75, 69, 54, 17, 84, 244, 199, 76, 21, 56, 5, 202, 167, 48, 10]

/-- The primitives on one more code and one more signature. -/
def squatCrypto : Crypto where
  sha256Hex token :=
    if token = wrongCode then "7e071fd9b023ed8f18458a73613a0834f6220bd5cc50357ba3493c6040a9ea8c"
    else unitCrypto.sha256Hex token
  hmacHex := unitCrypto.hmacHex
  ed25519Verify pub challenge sig :=
    unitCrypto.ed25519Verify pub challenge sig || (pub = squatKey && challenge = squatNonce && sig = squatSig)

def squatConfig : EnrollConfig := ⟨squatCrypto, "", 0, true⟩

/-- A user submits a code for the unit. -/
def submitCode (code : String) : Action := .submit ⟨.form, some 1, some acme, unitID, code, true⟩

/-- The unit announces and is verified, then a second key is. -/
def bothVerified : List Action :=
  [.announce ⟨0, 0⟩ unitNonce false ⟨unitID, unitKey, unitCode⟩ true, .verify ⟨1, 1⟩ unitID unitKey unitSig,
    .mark ⟨2, 2⟩ 0, .announce ⟨3, 3⟩ squatNonce false ⟨unitID, squatKey, otherCode⟩ true,
    .verify ⟨4, 4⟩ unitID squatKey squatSig, .mark ⟨5, 5⟩ 1]

/-- Ten wrong codes are judged, and the second key announces with its own code. -/
def guessed : List Action :=
  List.replicate 10 (submitCode wrongCode) ++
    [.announce ⟨9, 9⟩ unitNonce false ⟨unitID, squatKey, otherCode⟩ true]

/-- The wrong codes on record after one more code is submitted. -/
def wrongAfter (code : String) (r : List Event × System) : Option Nat :=
  ((system squatConfig "").step r.2 (submitCode code)).map fun r' => (lockWatch unitID (r.1 ++ [r'.2])).wrong

theorem guessed_runs : ((system squatConfig "").execIf (KeepsFirst squatConfig "" unitID) [] (.initial emptyDb)
    (bothVerified ++ guessed)).any (fun r => wrongAfter unitCode r = some 10) = true := by
  decide +kernel

/-- Ten wrong codes are on record, the announce of the second key has not cleared them, and the unit's own
code is refused. -/
theorem guessed_lockHolds : ∃ log s s' e, (system squatConfig "").step s (submitCode unitCode) = some (s', e) ∧
    (lockWatch unitID (log ++ [e])).wrong = 10 ∧ LockHolds unitID log e := by
  obtain ⟨log, s, hrun, htest⟩ := Machine.exists_runIf_of_any guessed_runs
  obtain ⟨⟨s', e⟩, hstep, hwrong⟩ := Option.map_eq_some_iff.mp (of_decide_eq_true htest)
  exact ⟨log, s, s', e, hstep, hwrong,
    claim_lock_holds (fun _ hr => absurd hr List.not_mem_nil) hrun _ _ _ hstep⟩

/-- The unit proves its key once more, which stamps its row after the other one. -/
def provedAgain : List Action :=
  [.announce ⟨6, 6⟩ unitNonce₂ false ⟨unitID, unitKey, wrongCode⟩ true, .verify ⟨7, 7⟩ unitID unitKey unitSig₂,
    .mark ⟨8, 8⟩ 2]

theorem provedAgain_runs : ((system squatConfig "").execIf (KeepsRows squatConfig "" unitID) [] (.initial emptyDb)
    (bothVerified ++ provedAgain ++ guessed)).any (fun r => wrongAfter wrongCode r = some 11) = true := by
  decide +kernel

/-- The announce of the second key then cleared the lock, so an eleventh wrong code is judged although the
first verified row was not announced with its code. -/
theorem provedAgain_not_lockHolds : ∃ log s a s' e,
    (system squatConfig "").RunIf (KeepsRows squatConfig "" unitID) (.initial emptyDb) log s ∧
      (system squatConfig "").step s a = some (s', e) ∧ ¬ LockHolds unitID log e := by
  obtain ⟨log, s, hrun, htest⟩ := Machine.exists_runIf_of_any provedAgain_runs
  obtain ⟨⟨s', e⟩, hstep, hwrong⟩ := Option.map_eq_some_iff.mp (of_decide_eq_true htest)
  refine ⟨log, s, submitCode wrongCode, s', e, hrun, hstep, fun hholds => ?_⟩
  have hle := hholds.2
  rw [hwrong] at hle
  exact absurd hle (by decide)

end ThesadaApp.Enroll
