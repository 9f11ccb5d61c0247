import ThesadaApp.TopicFilter

/-!
The topic filters of the live taps: the check of a filter, level by level, and the matcher it is compiled to.
-/

namespace ThesadaApp

open TopicFilter

/-- Why a filter is refused, with the level the error names. -/
inductive FilterError where
  | empty
  | emptySegment (level : Nat)
  | hashNotLast (level : Nat)
  | hashMixed (level : Nat) (segment : String)
  | plusMixed (level : Nat) (segment : String)
  deriving DecidableEq, Repr

def errTapPattern : String := "invalid mqtt topic pattern"

/-- The text of the error. The library writes a segment between quotes. -/
def FilterError.text (quote : String → String) : FilterError → String
  | .empty => errTapPattern ++ ": filter must not be empty"
  | .emptySegment i => errTapPattern ++ ": empty segment at level " ++ toString i ++
      " (consecutive '/' separators are not allowed in filters)"
  | .hashNotLast i => errTapPattern ++ ": '#' at level " ++ toString i ++
      " is not the last level - '#' must only appear as the final segment (MQTT 3.1.1 s4.7.1)"
  | .hashMixed i p => errTapPattern ++ ": level " ++ toString i ++ " " ++ quote p ++
      " mixes '#' with other characters - '#' must occupy an entire level on its own"
  | .plusMixed i p => errTapPattern ++ ": level " ++ toString i ++ " " ++ quote p ++
      " mixes '+' with other characters - '+' must occupy an entire level on its own"

/-- What is wrong with a level of a filter of `count` levels. -/
def checkSegment (count i : Nat) (p : String) : Option FilterError :=
  if p = "" then if i ≠ 0 then some (.emptySegment i) else none
  else if p = "#" then if i + 1 ≠ count then some (.hashNotLast i) else none
  else if '#' ∈ p.toList then some (.hashMixed i p)
  else if '+' ∈ p.toList then if p ≠ "+" then some (.plusMixed i p) else none
  else none

/-- The first level that is wrong, from level `i` on. -/
def checkSegments (count : Nat) : Nat → List String → Option FilterError
  | _, [] => none
  | i, p :: parts => (checkSegment count i p).or (checkSegments count (i + 1) parts)

/-- The loop of the matcher, from level `i` on. -/
def matchParts (count : Nat) (tp : List String) : Nat → List String → Bool
  | _, [] => tp.length = count
  | i, p :: parts =>
      if p = "#" then true
      else match tp[i]? with
        | none => false
        | some t =>
            if p = "+" then matchParts count tp (i + 1) parts
            else if p ≠ t then false
            else matchParts count tp (i + 1) parts

def compileMQTTMatcher (pattern : String) : Except FilterError (String → Bool) :=
  if pattern = "" then .error .empty
  else match checkSegments (levels pattern).length 0 (levels pattern) with
    | some e => .error e
    | none => .ok fun topic => matchParts (levels pattern).length (levels topic) 0 (levels pattern)

theorem checkSegment_eq_none_iff {count i : Nat} {p : String} :
    checkSegment count i p = none ↔ LevelAllowed count i p := by
  unfold checkSegment
  constructor
  · intro h
    split_ifs at h with hempty hplace hhash hlast hmixed hplus hwhole
    · subst hempty
      exact ⟨by simp, by simp, fun hne => absurd hne hplace⟩
    · subst hhash
      exact ⟨fun _ => ⟨rfl, not_not.mp hlast⟩, by decide, fun _ => hempty⟩
    · exact ⟨fun hmem => absurd hmem hmixed, fun _ => not_not.mp hwhole, fun _ => hempty⟩
    · exact ⟨fun hmem => absurd hmem hmixed, fun hmem => absurd hmem hplus, fun _ => hempty⟩
  · intro hallowed
    split_ifs with hempty hplace hhash hlast hmixed hplus hwhole
    · exact absurd hempty (hallowed.nonempty hplace)
    · rfl
    · exact absurd (hallowed.hash (by simp [hhash])).2 hlast
    · rfl
    · exact absurd (hallowed.hash hmixed).1 hhash
    · exact absurd (hallowed.plus hplus) hwhole
    · rfl
    · rfl

theorem checkSegments_eq_none_iff {count i : Nat} {parts : List String} :
    checkSegments count i parts = none ↔ ∀ place l, parts[place]? = some l → LevelAllowed count (i + place) l := by
  induction parts generalizing i with
  | nil => simp [checkSegments]
  | cons p parts ih =>
      rw [checkSegments, Option.or_eq_none_iff, checkSegment_eq_none_iff, ih]
      constructor
      · rintro ⟨hfirst, hrest⟩ place l hl
        cases place with
        | zero =>
            obtain rfl : p = l := by simpa using hl
            exact hfirst
        | succ place =>
            have hallowed := hrest place l (by simpa using hl)
            rwa [Nat.add_right_comm] at hallowed
      · intro hall
        refine ⟨hall 0 p rfl, ?_⟩
        intro place l hl
        have hallowed := hall (place + 1) l (by simpa using hl)
        rwa [← Nat.add_assoc, Nat.add_right_comm] at hallowed

/-- The loop by index is the matching of the levels that are left. -/
theorem matchParts_eq {count i : Nat} {parts tp : List String} (hcount : i + parts.length = count)
    (hle : i ≤ tp.length) (hlast : ∀ place, parts[place]? = some "#" → place + 1 = parts.length) :
    matchParts count tp i parts = matchLevels parts (tp.drop i) := by
  induction parts generalizing i with
  | nil =>
      rw [matchParts, matchLevels, ← hcount, List.length_nil, Nat.add_zero, Bool.eq_iff_iff, decide_eq_true_eq,
        List.isEmpty_iff, List.drop_eq_nil_iff]
      omega
  | cons p parts ih =>
      have htail : ∀ place, parts[place]? = some "#" → place + 1 = parts.length := by
        intro place hplace
        simpa using hlast (place + 1) hplace
      have hcount' : i + 1 + parts.length = count := by
        rw [← hcount, List.length_cons]
        omega
      rw [matchParts]
      by_cases hhash : p = "#"
      · subst hhash
        obtain rfl : parts = [] := by simpa using hlast 0 rfl
        simp [matchLevels]
      · rw [if_neg hhash]
        rcases Nat.lt_or_ge i tp.length with hlt | hge
        · have hdrop : tp.drop i = tp[i] :: tp.drop (i + 1) := List.drop_eq_getElem_cons hlt
          have hnext := ih hcount' hlt htail
          rw [List.getElem?_eq_getElem hlt, hdrop, matchLevels, hnext]
          by_cases hplus : p = "+"
          · simp [hplus]
          · by_cases hsame : p = tp[i]
            · simp [hhash, hplus, ← hsame]
            · simp [hhash, hplus, hsame]
        · rw [List.getElem?_eq_none hge, List.drop_eq_nil_of_le hge]
          simp [matchLevels, hhash]

/-- A filter is accepted exactly if it is well formed. -/
theorem compileMQTTMatcher_ok_iff {pattern : String} :
    (∃ matcher, compileMQTTMatcher pattern = .ok matcher) ↔ WellFormed pattern := by
  have hcheck : checkSegments (levels pattern).length 0 (levels pattern) = none ↔ ∀ place l,
      (levels pattern)[place]? = some l → LevelAllowed (levels pattern).length (0 + place) l :=
    checkSegments_eq_none_iff
  simp only [Nat.zero_add] at hcheck
  rw [WellFormed, ← hcheck, compileMQTTMatcher]
  by_cases hempty : pattern = ""
  · simp [hempty]
  · rw [if_neg hempty]
    cases checkSegments (levels pattern).length 0 (levels pattern) with
    | none => simp [hempty]
    | some e => simp

/-- The matcher of an accepted filter is the loop over its levels. -/
theorem of_compileMQTTMatcher {pattern : String} {matcher : String → Bool}
    (h : compileMQTTMatcher pattern = .ok matcher) :
    matcher = fun topic => matchParts (levels pattern).length (levels topic) 0 (levels pattern) := by
  unfold compileMQTTMatcher at h
  split_ifs at h
  split at h
  · cases h
  · exact (Except.ok.inj h).symm

/-- The check accepts the well-formed filters, and the matcher of an accepted filter is the relation between
levels. -/
theorem compileMQTTMatcher_matches (pattern : String) :
    ((∃ matcher, compileMQTTMatcher pattern = .ok matcher) ↔ WellFormed pattern) ∧
    ∀ matcher, compileMQTTMatcher pattern = .ok matcher →
      ∀ topic, matcher topic = true ↔ Matches (levels pattern) (levels topic) := by
  refine ⟨compileMQTTMatcher_ok_iff, ?_⟩
  intro matcher h topic
  have hlast : ∀ place, (levels pattern)[place]? = some "#" → place + 1 = (levels pattern).length := fun place hplace =>
    (((compileMQTTMatcher_ok_iff.mp ⟨matcher, h⟩).2 place "#" hplace).hash (by decide)).2
  rw [of_compileMQTTMatcher h]
  calc matchParts (levels pattern).length (levels topic) 0 (levels pattern) = true
      ↔ matchLevels (levels pattern) (levels topic) = true := by
        rw [matchParts_eq (Nat.zero_add _) (Nat.zero_le _) hlast, List.drop_zero]
    _ ↔ Matches (levels pattern) (levels topic) := matchLevels_iff_matches hlast

/-- A subtree filter matches its own parent level. -/
theorem subtree_matches_parent :
    WellFormed "thesada/#" ∧ Matches (levels "thesada/#") (levels "thesada") ∧
      ¬ Matches (levels "thesada/#") (levels "other") := by
  obtain ⟨hok, hmatches⟩ := compileMQTTMatcher_matches "thesada/#"
  have hcompile : ∃ matcher, compileMQTTMatcher "thesada/#" = .ok matcher := ⟨_, rfl⟩
  refine ⟨hok.mp hcompile, (hmatches _ rfl "thesada").mp (by decide +kernel), ?_⟩
  rw [← hmatches _ rfl "other"]
  decide +kernel

end ThesadaApp
