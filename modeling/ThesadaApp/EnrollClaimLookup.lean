import Mathlib.Data.List.Perm.Subperm
import ThesadaApp.EnrollLifecycle

/-!
Which row a submitted code is about. The lookup finds the only row the code opens, or the only one of several that can
still be claimed, whatever the order of the rows, and counts a code that opens none on every row of the device id.
-/

namespace ThesadaApp.Enroll

section rows

variable {α : Type*} {p q : α → Bool} {xs ys : List α} {a : α}

theorem filter_eq_singleton_iff (hnodup : xs.Nodup) :
    xs.filter p = [a] ↔ (a ∈ xs ∧ p a = true) ∧ ∀ b, b ∈ xs ∧ p b = true → b = a := by
  constructor
  · intro h
    have hmem : ∀ b, b ∈ xs ∧ p b = true ↔ b = a := by
      intro b
      rw [← List.mem_filter, h, List.mem_singleton]
    exact ⟨(hmem a).mpr rfl, fun b => (hmem b).mp⟩
  · rintro ⟨ha, hall⟩
    rw [← List.perm_singleton, List.perm_ext_iff_of_nodup (hnodup.filter p) (List.nodup_singleton a)]
    intro b
    rw [List.mem_filter, List.mem_singleton]
    exact ⟨hall b, fun hb => hb ▸ ha⟩

end rows

variable {cfg : EnrollConfig} {rows rows' : List Enrollment} {token : String} {e : Enrollment}

theorem exhausted_worst_iff : claimFailuresExhausted (worstFailures rows) = true ↔
    ∃ e ∈ rows, claimFailureCap ≤ e.claimFailures := by
  have hfold : ∀ (rows : List Enrollment) (worst : Nat),
      claimFailureCap ≤ rows.foldl (fun worst e => max worst e.claimFailures) worst ↔
        claimFailureCap ≤ worst ∨ ∃ e ∈ rows, claimFailureCap ≤ e.claimFailures := by
    intro rows
    induction rows with
    | nil => simp
    | cons e rows ih =>
        intro worst
        have hmax : claimFailureCap ≤ max worst e.claimFailures ↔
            claimFailureCap ≤ worst ∨ claimFailureCap ≤ e.claimFailures := by omega
        rw [List.foldl_cons, ih, hmax, or_assoc, List.exists_mem_cons_iff]
  rw [claimFailuresExhausted, decide_eq_true_eq, worstFailures, hfold]
  exact or_iff_right (by decide)

theorem exhausted_worst_perm (hperm : rows'.Perm rows) :
    claimFailuresExhausted (worstFailures rows') = claimFailuresExhausted (worstFailures rows) := by
  rw [Bool.eq_iff_iff, exhausted_worst_iff, exhausted_worst_iff]
  exact exists_congr fun e => and_congr_left' hperm.mem_iff

/-- The rows that a code opens. -/
def opened (cfg : EnrollConfig) (rows : List Enrollment) (token : String) : List Enrollment :=
  rows.filter fun e => accepts cfg token e.claimTokenHash

def claimable (rows : List Enrollment) : List Enrollment := rows.filter fun e => claimAllowed e.verifiedAt e.claimedAt

theorem opened_ne_nil (h : opened cfg rows token ≠ []) : rows ≠ [] := by
  rintro rfl
  exact h rfl

theorem exists_two (hmany : 1 < (opened cfg rows token).length) :
    rows ≠ [] ∧ ∃ first second rest, opened cfg rows token = first :: second :: rest := by
  rcases hms : opened cfg rows token with _ | ⟨first, _ | ⟨second, rest⟩⟩
  · rw [hms] at hmany
    exact absurd hmany (by decide)
  · rw [hms] at hmany
    exact absurd hmany (lt_irrefl 1)
  · exact ⟨opened_ne_nil (by rw [hms]; exact List.cons_ne_nil _ _), first, second, rest, rfl⟩

section judgement

variable (hopen : claimFailuresExhausted (worstFailures rows) = false)

include hopen

theorem judgeClaim_none (hrows : rows ≠ []) (hnone : opened cfg rows token = []) :
    judgeClaim cfg rows token = .wrong := by
  rw [judgeClaim, if_neg hrows, hopen, if_neg Bool.false_ne_true, show List.filter _ rows = [] from hnone]

theorem judgeClaim_single (hone : opened cfg rows token = [e]) : judgeClaim cfg rows token = .found e := by
  have hrows : rows ≠ [] := opened_ne_nil (by rw [hone]; exact List.cons_ne_nil e [])
  rw [judgeClaim, if_neg hrows, hopen, if_neg Bool.false_ne_true, show List.filter _ rows = [e] from hone]

theorem judgeClaim_narrowed (hmany : 1 < (opened cfg rows token).length)
    (hone : claimable (opened cfg rows token) = [e]) : judgeClaim cfg rows token = .found e := by
  obtain ⟨hrows, first, second, rest, hms⟩ := exists_two hmany
  rw [hms] at hone
  rw [judgeClaim, if_neg hrows, hopen, if_neg Bool.false_ne_true, show List.filter _ rows = _ from hms]
  dsimp only
  rw [show List.filter _ _ = [e] from hone]

theorem judgeClaim_ambiguous (hmany : 1 < (opened cfg rows token).length)
    (hnot : (claimable (opened cfg rows token)).length ≠ 1) : judgeClaim cfg rows token = .ambiguous := by
  obtain ⟨hrows, first, second, rest, hms⟩ := exists_two hmany
  rw [hms] at hnot
  rw [judgeClaim, if_neg hrows, hopen, if_neg Bool.false_ne_true, show List.filter _ rows = _ from hms]
  dsimp only
  split
  · next only hone =>
      exact absurd (congrArg List.length hone) hnot
  · rfl

end judgement

theorem judgeClaim_locked (hrows : rows ≠ []) (hlocked : claimFailuresExhausted (worstFailures rows) = true) :
    judgeClaim cfg rows token = .locked := by
  rw [judgeClaim, if_neg hrows, hlocked, if_pos rfl]

/-- What the judgement can be, by the rows that the code opens. -/
theorem judgeClaim_cases (cfg : EnrollConfig) (rows : List Enrollment) (token : String) :
    (rows = [] ∧ judgeClaim cfg rows token = .unknown) ∨
    (rows ≠ [] ∧ claimFailuresExhausted (worstFailures rows) = true ∧ judgeClaim cfg rows token = .locked) ∨
    (rows ≠ [] ∧ claimFailuresExhausted (worstFailures rows) = false ∧
      ((opened cfg rows token = [] ∧ judgeClaim cfg rows token = .wrong) ∨
        (∃ e, opened cfg rows token = [e] ∧ judgeClaim cfg rows token = .found e) ∨
        (1 < (opened cfg rows token).length ∧
          ((∃ e, claimable (opened cfg rows token) = [e] ∧ judgeClaim cfg rows token = .found e) ∨
            ((claimable (opened cfg rows token)).length ≠ 1 ∧ judgeClaim cfg rows token = .ambiguous))))) := by
  by_cases hrows : rows = []
  · exact .inl ⟨hrows, by rw [judgeClaim, if_pos hrows]⟩
  · cases hopen : claimFailuresExhausted (worstFailures rows) with
    | true => exact .inr (.inl ⟨hrows, rfl, judgeClaim_locked hrows hopen⟩)
    | false =>
        refine .inr (.inr ⟨hrows, rfl, ?_⟩)
        rcases Nat.lt_trichotomy (opened cfg rows token).length 1 with hnone | hone | hmany
        · have hnil := List.eq_nil_of_length_eq_zero (Nat.lt_one_iff.mp hnone)
          exact .inl ⟨hnil, judgeClaim_none hopen hrows hnil⟩
        · obtain ⟨e, he⟩ := List.length_eq_one_iff.mp hone
          exact .inr (.inl ⟨e, he, judgeClaim_single hopen he⟩)
        · refine .inr (.inr ⟨hmany, ?_⟩)
          by_cases hnarrow : (claimable (opened cfg rows token)).length = 1
          · obtain ⟨e, he⟩ := List.length_eq_one_iff.mp hnarrow
            exact .inl ⟨e, he, judgeClaim_narrowed hopen hmany he⟩
          · exact .inr ⟨hnarrow, judgeClaim_ambiguous hopen hmany hnarrow⟩

/-- The order of the rows makes no difference. -/
theorem judgeClaim_perm (hperm : rows'.Perm rows) : judgeClaim cfg rows' token = judgeClaim cfg rows token := by
  have hworst := exhausted_worst_perm hperm
  have hnil : rows' = [] ↔ rows = [] := ⟨fun h => (h ▸ hperm.symm).eq_nil, fun h => (h ▸ hperm).eq_nil⟩
  have hopened : (opened cfg rows' token).Perm (opened cfg rows token) := hperm.filter _
  have hclaimable : (claimable (opened cfg rows' token)).Perm (claimable (opened cfg rows token)) := hopened.filter _
  rcases judgeClaim_cases cfg rows token with ⟨hrows, hjudge⟩ | ⟨hrows, hlocked, hjudge⟩ | ⟨hrows, hopen, hcases⟩
  · rw [hjudge, judgeClaim, if_pos (hnil.mpr hrows)]
  · rw [hjudge, judgeClaim_locked (mt hnil.mp hrows) (hworst.trans hlocked)]
  · have hopen' := hworst.trans hopen
    have hrows' : rows' ≠ [] := mt hnil.mp hrows
    rcases hcases with ⟨hnone, hjudge⟩ | ⟨e, hone, hjudge⟩ | ⟨hmany, ⟨e, hone, hjudge⟩ | ⟨hnot, hjudge⟩⟩
    · rw [hjudge, judgeClaim_none hopen' hrows' (hnone ▸ hopened).eq_nil]
    · rw [hjudge, judgeClaim_single hopen' (List.perm_singleton.mp (hone ▸ hopened))]
    · rw [hjudge, judgeClaim_narrowed hopen' (hopened.length_eq ▸ hmany) (List.perm_singleton.mp (hone ▸ hclaimable))]
    · rw [hjudge, judgeClaim_ambiguous hopen' (hopened.length_eq ▸ hmany) (hclaimable.length_eq ▸ hnot)]

section lookup

variable {db : Db} {d code : String}

/-- A device id is locked once a row of it has counted the last wrong code. -/
def Locked (db : Db) (d : String) : Prop :=
  ∃ e ∈ db.enrollments, e.deviceID = d ∧ claimFailureCap ≤ e.claimFailures

/-- A row of the device id that the code opens. -/
def Opens (cfg : EnrollConfig) (db : Db) (d code : String) (e : Enrollment) : Prop :=
  e ∈ db.enrollments ∧ e.deviceID = d ∧ accepts cfg code e.claimTokenHash = true

/-- The row that a code is about: the only one it opens, or the only verified and unclaimed one of several. -/
def Meant (cfg : EnrollConfig) (db : Db) (d code : String) (e : Enrollment) : Prop :=
  Opens cfg db d code e ∧
    ((∀ e', Opens cfg db d code e' → e' = e) ∨
      (∃ e', Opens cfg db d code e' ∧ e' ≠ e) ∧ e.verifiedAt ≠ none ∧ e.claimedAt = none ∧
        ∀ e', Opens cfg db d code e' → e'.verifiedAt ≠ none → e'.claimedAt = none → e' = e)

/-- One wrong code more on every row of the device id. -/
def counted (d : String) (e : Enrollment) : Enrollment :=
  if e.deviceID = d then { e with claimFailures := e.claimFailures + 1 } else e

/-- The lookup finds the row that the code is about, in any order of the rows, and a refusal counts the code exactly if
it opens no row and the device id is not locked already. -/
structure Unambiguous (cfg : EnrollConfig) (db : Db) (d code : String) : Prop where
  found : ∀ e, (findForClaim cfg db d code).2 = .ok e ↔ ¬ Locked db d ∧ Meant cfg db d code e
  judged : ∀ rows, rows.Perm (candidates db d) → judgeClaim cfg rows code = judgeClaim cfg (candidates db d) code
  unordered : ∀ db', db'.enrollments.rows.Perm db.enrollments.rows →
    (findForClaim cfg db' d code).2 = (findForClaim cfg db d code).2
  kept : Locked db d ∨ (∃ e, Opens cfg db d code e) → (findForClaim cfg db d code).1 = db
  wrong : ¬ Locked db d → (∀ e, ¬ Opens cfg db d code e) →
    (findForClaim cfg db d code).1.enrollments.rows = db.enrollments.rows.map (counted d) ∧
      (findForClaim cfg db d code).1 = db.setEnrollments (findForClaim cfg db d code).1.enrollments
  ambiguous : (findForClaim cfg db d code).2 = .error .ambiguous → (findForClaim cfg db d code).1 = db

theorem nodup_candidates (db : Db) (d : String) : (candidates db d).Nodup := by
  have hrows : db.enrollments.rows.Nodup := db.enrollments.nodup.of_map _
  exact (List.perm_insertionSort _ _).nodup_iff.mpr (hrows.filter _)

theorem candidates_perm {db' : Db} (h : db'.enrollments.rows.Perm db.enrollments.rows) :
    (candidates db' d).Perm (candidates db d) :=
  (List.perm_insertionSort _ _).trans ((h.filter _).trans (List.perm_insertionSort _ _).symm)

theorem locked_iff : claimFailuresExhausted (worstFailures (candidates db d)) = true ↔ Locked db d := by
  rw [exhausted_worst_iff]
  exact exists_congr fun e => by rw [mem_candidates, and_assoc]

theorem mem_opened {e : Enrollment} : e ∈ opened cfg (candidates db d) code ↔ Opens cfg db d code e := by
  rw [opened, List.mem_filter, mem_candidates, Opens, and_assoc]

theorem opened_eq_singleton_iff {e : Enrollment} : opened cfg (candidates db d) code = [e] ↔
    Opens cfg db d code e ∧ ∀ e', Opens cfg db d code e' → e' = e := by
  have hopens (e : Enrollment) : e ∈ candidates db d ∧ accepts cfg code e.claimTokenHash = true ↔
      Opens cfg db d code e := by rw [mem_candidates, Opens, and_assoc]
  rw [opened, filter_eq_singleton_iff (nodup_candidates db d)]
  simp only [hopens]

theorem claimable_eq_singleton_iff {e : Enrollment} : claimable (opened cfg (candidates db d) code) = [e] ↔
    (Opens cfg db d code e ∧ e.verifiedAt ≠ none ∧ e.claimedAt = none) ∧
      ∀ e', Opens cfg db d code e' → e'.verifiedAt ≠ none → e'.claimedAt = none → e' = e := by
  have hnodup : (opened cfg (candidates db d) code).Nodup := (nodup_candidates db d).filter _
  rw [claimable, filter_eq_singleton_iff hnodup]
  simp only [mem_opened, claimAllowed_iff, and_imp]

/-- The code is about a row exactly if the judgement of rows that are not locked finds it. -/
theorem meant_iff {e : Enrollment} : judgeClaim cfg (candidates db d) code = .found e ↔
    ¬ Locked db d ∧ Meant cfg db d code e := by
  rw [← locked_iff]
  have hmem : ∀ e, Opens cfg db d code e → candidates db d ≠ [] := by
    rintro e ⟨he, hd, -⟩ hnil
    have hcandidate := mem_candidates.mpr ⟨he, hd⟩
    rw [hnil] at hcandidate
    cases hcandidate
  rcases judgeClaim_cases cfg (candidates db d) code with ⟨hrows, hjudge⟩ | ⟨hrows, hlocked, hjudge⟩ |
    ⟨hrows, hopen, hcases⟩
  · rw [hjudge]
    exact iff_of_false Judgement.noConfusion fun h => hmem e h.2.1 hrows
  · rw [hjudge]
    exact iff_of_false Judgement.noConfusion fun h => h.1 hlocked
  · rw [hopen]
    rcases hcases with ⟨hnone, hjudge⟩ | ⟨only, hone, hjudge⟩ | ⟨hmany, hcases⟩
    · rw [hjudge]
      refine iff_of_false Judgement.noConfusion fun h => ?_
      have hopened := mem_opened.mpr h.2.1
      rw [hnone] at hopened
      cases hopened
    · obtain ⟨honly, hall⟩ := opened_eq_singleton_iff.mp hone
      rw [hjudge, Judgement.found.injEq]
      constructor
      · rintro rfl
        exact ⟨Bool.false_ne_true, honly, .inl hall⟩
      · intro h
        exact (hall e h.2.1).symm
    · -- several rows are opened, so none is the only one
      have hseveral (e : Enrollment) : ∃ e', Opens cfg db d code e' ∧ e' ≠ e := by
        by_contra hnone
        have hsub : opened cfg (candidates db d) code ⊆ [e] := fun e' he' =>
          List.mem_singleton.mpr (by_contra fun hne => hnone ⟨e', mem_opened.mp he', hne⟩)
        have hnodup : (opened cfg (candidates db d) code).Nodup := (nodup_candidates db d).filter _
        exact absurd (List.subperm_of_subset hnodup hsub).length_le (not_le.mpr hmany)
      have hmeant : Meant cfg db d code e ↔ claimable (opened cfg (candidates db d) code) = [e] := by
        rw [claimable_eq_singleton_iff, Meant]
        constructor
        · rintro ⟨he, hall | ⟨-, hverified, hunclaimed, hall⟩⟩
          · obtain ⟨e', he', hne⟩ := hseveral e
            exact absurd (hall e' he') hne
          · exact ⟨⟨he, hverified, hunclaimed⟩, hall⟩
        · rintro ⟨⟨he, hverified, hunclaimed⟩, hall⟩
          exact ⟨he, .inr ⟨hseveral e, hverified, hunclaimed, hall⟩⟩
      rw [hmeant]
      rcases hcases with ⟨only, hone, hjudge⟩ | ⟨hnot, hjudge⟩
      · rw [hjudge, hone, Judgement.found.injEq, List.cons.injEq]
        exact ⟨fun h => ⟨Bool.false_ne_true, h, rfl⟩, fun h => h.2.1⟩
      · rw [hjudge]
        exact iff_of_false Judgement.noConfusion fun h => hnot (congrArg List.length h.2)

theorem opened_eq_nil_iff : opened cfg (candidates db d) code = [] ↔ ∀ e, ¬ Opens cfg db d code e := by
  rw [List.eq_nil_iff_forall_not_mem]
  exact forall_congr' fun e => not_congr mem_opened

/-- A code is wrong if it opens no row, there are rows, and the device id is not locked. -/
theorem wrong_iff : judgeClaim cfg (candidates db d) code = .wrong ↔
    candidates db d ≠ [] ∧ ¬ Locked db d ∧ ∀ e, ¬ Opens cfg db d code e := by
  rw [← locked_iff, ← opened_eq_nil_iff]
  rcases judgeClaim_cases cfg (candidates db d) code with ⟨hrows, hjudge⟩ | ⟨hrows, hlocked, hjudge⟩ |
    ⟨hrows, hopen, hcases⟩
  · rw [hjudge]
    exact iff_of_false Judgement.noConfusion fun h => h.1 hrows
  · rw [hjudge]
    exact iff_of_false Judgement.noConfusion fun h => h.2.1 hlocked
  · rw [hopen]
    rcases hcases with ⟨hnone, hjudge⟩ | ⟨e, hone, hjudge⟩ | ⟨hmany, ⟨e, -, hjudge⟩ | ⟨-, hjudge⟩⟩
    · exact iff_of_true hjudge ⟨hrows, Bool.false_ne_true, hnone⟩
    · rw [hjudge]
      exact iff_of_false Judgement.noConfusion fun h => List.cons_ne_nil e [] (hone.symm.trans h.2.2)
    all_goals
      rw [hjudge]
      refine iff_of_false Judgement.noConfusion fun h => ?_
      rw [h.2.2] at hmany
      exact absurd hmany (by decide)

section answer

variable (hdevice : validDeviceID d = true) (hcode : code ≠ "")

include hdevice hcode

/-- The answer is the judgement. Only a wrong code changes anything. -/
theorem findForClaim_spec (cfg : EnrollConfig) (db : Db) :
    (∀ e, (findForClaim cfg db d code).2 = .ok e ↔ judgeClaim cfg (candidates db d) code = .found e) ∧
    ((findForClaim cfg db d code).2 = .error .ambiguous ↔ judgeClaim cfg (candidates db d) code = .ambiguous) ∧
    (findForClaim cfg db d code).1 =
      if judgeClaim cfg (candidates db d) code = .wrong then bumpFailures db d else db := by
  have hgate : ¬ (validDeviceID d = false ∨ code = "") := by
    rw [hdevice]
    rintro (h | h)
    · cases h
    · exact hcode h
  rw [findForClaim, if_neg hgate]
  cases judgeClaim cfg (candidates db d) code with
  | wrong =>
      by_cases hlast : claimFailuresExhausted (worstFailures (candidates (bumpFailures db d) d)) = true
      · simp [hlast]
      · simp [hlast]
  | _ => simp

end answer

/-- Two tables with the same rows answer alike. -/
theorem findForClaim_perm {db' : Db} (h : db'.enrollments.rows.Perm db.enrollments.rows) :
    (findForClaim cfg db' d code).2 = (findForClaim cfg db d code).2 := by
  have hbumped : (candidates (bumpFailures db' d) d).Perm (candidates (bumpFailures db d) d) :=
    candidates_perm (h.map _)
  have hjudge : judgeClaim cfg (candidates db' d) code = judgeClaim cfg (candidates db d) code :=
    judgeClaim_perm (candidates_perm h)
  rw [findForClaim, findForClaim, hjudge]
  split_ifs
  · rfl
  · cases judgeClaim cfg (candidates db d) code with
    | wrong =>
        dsimp only
        rw [exhausted_worst_perm hbumped]
    | _ => rfl

theorem bumpFailures_rows (db : Db) (d : String) :
    (bumpFailures db d).enrollments.rows = db.enrollments.rows.map (counted d) := by
  refine List.map_congr_left fun e _ => ?_
  by_cases hd : e.deviceID = d
  · rw [counted, if_pos hd, if_pos (decide_eq_true hd)]
    rfl
  · rw [counted, if_neg hd, if_neg (by simpa using hd)]

/-- The lookup of a code is never ambiguous. -/
theorem findForClaim_unambiguous (cfg : EnrollConfig) (db : Db) (hdevice : validDeviceID d = true) (hcode : code ≠ "") :
    Unambiguous cfg db d code := by
  obtain ⟨hfound, hambiguous, hstate⟩ := findForClaim_spec hdevice hcode cfg db
  constructor
  case found => exact fun e => (hfound e).trans meant_iff
  case judged => exact fun rows hperm => judgeClaim_perm hperm
  case unordered => exact fun db' hperm => findForClaim_perm hperm
  case kept =>
    intro hkept
    rw [hstate, if_neg]
    rintro hwrong
    obtain ⟨-, hopen, hnone⟩ := wrong_iff.mp hwrong
    rcases hkept with hlocked | ⟨e, he⟩
    · exact hopen hlocked
    · exact hnone e he
  case wrong =>
    intro hopen hnone
    rw [hstate]
    by_cases hrows : candidates db d = []
    · -- there is no row to count the code on
      rw [if_neg fun hwrong => (wrong_iff.mp hwrong).1 hrows]
      refine ⟨?_, rfl⟩
      have hsame : ∀ e ∈ db.enrollments.rows, counted d e = e := by
        intro e he
        refine if_neg fun hd => ?_
        have hcandidate := mem_candidates.mpr ⟨he, hd⟩
        rw [hrows] at hcandidate
        cases hcandidate
      rw [List.map_congr_left hsame, List.map_id']
    · rw [if_pos (wrong_iff.mpr ⟨hrows, hopen, hnone⟩)]
      exact ⟨bumpFailures_rows db d, rfl⟩
  case ambiguous =>
    intro herror
    rw [hstate, hambiguous.mp herror]
    rfl

/-- The row of the unit, verified. -/
def verifiedRow : Enrollment :=
  ⟨unitID, unitKey, unitCrypto.sha256Hex unitCode, 3, none, none, some 2, none, none, none, 0, 2⟩

/-- A row that somebody announced with the same code, and that has been claimed. -/
def squatRow : Enrollment :=
  ⟨unitID, "00112233445566778899aabbccddeeff00112233445566778899aabbccddeeff", unitCrypto.sha256Hex unitCode, 3, none,
    none, some 1, some acme, some 4, none, 0, 1⟩

def sharedCode : Db := { emptyDb with enrollments := ⟨[verifiedRow, squatRow], by decide⟩ }

theorem sharedCode_unambiguous : Unambiguous unitConfig sharedCode unitID unitCode ∧
    judgeClaim unitConfig (candidates sharedCode unitID) unitCode = .found verifiedRow :=
  ⟨findForClaim_unambiguous unitConfig sharedCode (by decide) (by decide), by decide +kernel⟩

end lookup

end ThesadaApp.Enroll
