import ThesadaApp.DevicesTable
import Mathlib.Data.List.Permutation

/-!
When the comparator of the devices table is an order. Two integers compare as numbers and every other pair as texts, so
a text between two integers can turn their order around, and nothing else can.
-/

namespace ThesadaApp.DevicesTable

open SortComparator

/-! ### Texts -/

section texts

variable {s t u : Text}

theorem Before.trans (h : Before s t) (h' : Before t u) : Before s u := List.lex_trans UInt16.lt_trans h h'

theorem Before.asymm (h : Before s t) : ¬ Before t s := List.lex_asymm (r := (· < ·)) UInt16.lt_asymm h

theorem before_or_eq_or_before (s t : Text) : Before s t ∨ s = t ∨ Before t s := by
  by_cases h : Before s t
  · exact .inl h
  · by_cases h' : Before t s
    · exact .inr (.inr h')
    · exact .inr (.inl (List.lex_trichotomous (r := (· < ·)) (fun _ _ hlt hlt' =>
        UInt16.le_antisymm (UInt16.not_lt.mp hlt') (UInt16.not_lt.mp hlt)) h' h))

theorem before_of_not (h : ¬ Before t s) (hne : s ≠ t) : Before s t := by
  rcases before_or_eq_or_before s t with hlt | heq | hgt
  · exact hlt
  · exact absurd heq hne
  · exact absurd hgt h

theorem not_before_trans (h : ¬ Before t s) (h' : ¬ Before u t) : ¬ Before u s := by
  intro hlt
  rcases before_or_eq_or_before s t with hst | rfl | hts
  · exact h' (hlt.trans hst)
  · exact h' hlt
  · exact h hts

theorem isInteger_ne_nil (h : isInteger s) : s ≠ [] := by
  rintro rfl
  exact absurd h (by decide)

end texts

/-! ### The comparison of two keys -/

section keys

variable {dir : Dir} {a b c : Text}

/-- A key comes before another when neither is empty and the order ascends. -/
def Less (a b : Text) : Prop := if isInteger a && isInteger b then number a < number b else Before a b

instance : DecidableRel Less := fun a b => inferInstanceAs (Decidable (if isInteger a && isInteger b then _ else _))

theorem less_of_numeric (ha : isInteger a) (hb : isInteger b) : Less a b ↔ number a < number b := by
  rw [Less, ha, hb, Bool.and_self, if_pos rfl]

theorem less_of_text (h : ¬ (isInteger a ∧ isInteger b)) : Less a b ↔ Before a b := by
  rw [← Bool.and_eq_true] at h
  rw [Less, if_neg h]

theorem Less.asymm (h : Less a b) : ¬ Less b a := by
  by_cases hint : isInteger a ∧ isInteger b
  · rw [less_of_numeric hint.1 hint.2] at h
    rw [less_of_numeric hint.2 hint.1]
    omega
  · rw [less_of_text hint] at h
    rw [less_of_text (mt And.symm hint)]
    exact h.asymm

/-- The comparison of two keys that are not empty. -/
theorem compareKeys_asc (ha : a ≠ []) (hb : b ≠ []) :
    compareKeys .asc a b = if Less a b then -1 else if Less b a then 1 else 0 := by
  simp only [compareKeys, Less, ha, hb, false_and, if_false, Bool.and_comm (isInteger b)]
  split_ifs <;> rfl

theorem compareKeys_desc (ha : a ≠ []) (hb : b ≠ []) : compareKeys .desc a b = compareKeys .asc b a := by
  have hneg : compareKeys .desc a b = -compareKeys .asc a b := by
    simp only [compareKeys, ha, hb, false_and, if_false]
  rw [hneg, compareKeys_asc ha hb, compareKeys_asc hb ha]
  by_cases h : Less a b
  · rw [if_pos h, if_neg h.asymm, if_pos h]
    rfl
  · rw [if_neg h]
    split_ifs <;> rfl

theorem compareKeys_nil_right (dir : Dir) (ha : a ≠ []) : compareKeys dir a [] = -1 := by
  rw [compareKeys, if_neg (fun h => ha h.1), if_neg ha, if_pos rfl]

theorem compareKeys_nil_left (dir : Dir) (hb : b ≠ []) : compareKeys dir [] b = 1 := by
  rw [compareKeys, if_neg (fun h => hb h.2), if_pos rfl]

theorem compareKeys_nil (dir : Dir) : compareKeys dir [] [] = 0 := if_pos ⟨rfl, rfl⟩

theorem compareKeys_antisymm (dir : Dir) (a b : Text) : compareKeys dir a b = -compareKeys dir b a := by
  have hasc {a b : Text} (ha : a ≠ []) (hb : b ≠ []) : compareKeys .asc a b = -compareKeys .asc b a := by
    rw [compareKeys_asc ha hb, compareKeys_asc hb ha]
    by_cases h : Less a b
    · rw [if_pos h, if_neg h.asymm, if_pos h]
    · rw [if_neg h]
      split_ifs <;> rfl
  by_cases ha : a = []
  · subst ha
    by_cases hb : b = []
    · subst hb
      rw [compareKeys_nil, neg_zero]
    · rw [compareKeys_nil_left dir hb, compareKeys_nil_right dir hb, neg_neg]
  · by_cases hb : b = []
    · subst hb
      rw [compareKeys_nil_left dir ha, compareKeys_nil_right dir ha]
    · cases dir with
      | asc => exact hasc ha hb
      | desc =>
          rw [compareKeys_desc ha hb, compareKeys_desc hb ha]
          exact hasc hb ha

theorem compareKeys_asc_le (ha : a ≠ []) (hb : b ≠ []) : compareKeys .asc a b ≤ 0 ↔ ¬ Less b a := by
  rw [compareKeys_asc ha hb]
  split_ifs with h h'
  · exact iff_of_true (by decide) h.asymm
  · exact iff_of_false (by decide) (not_not_intro h')
  · exact iff_of_true (le_refl 0) h'

/-- A key may stand before another in either direction. The empty keys stand last. -/
theorem compareKeys_le (dir : Dir) (a b : Text) : compareKeys dir a b ≤ 0 ↔
    b = [] ∨ (a ≠ [] ∧ b ≠ [] ∧ match dir with | .asc => ¬ Less b a | .desc => ¬ Less a b) := by
  by_cases hb : b = []
  · subst hb
    by_cases ha : a = []
    · subst ha
      simp [compareKeys_nil]
    · simp [compareKeys_nil_right dir ha]
  · by_cases ha : a = []
    · subst ha
      simp [compareKeys_nil_left dir hb, hb]
    · cases dir with
      | asc => simp [compareKeys_asc_le ha hb, ha, hb]
      | desc => simp [compareKeys_desc ha hb, compareKeys_asc_le hb ha, ha, hb]

/-! ### The mixed columns -/

/-- A text stands between two integers, which are the other way round or equal as numbers. -/
def Mixed (keys : List Text) : Prop :=
  ∃ m ∈ keys, ∃ t ∈ keys, ∃ n ∈ keys, (isInteger m ∧ isInteger n ∧ ¬ isInteger t ∧ t ≠ []) ∧
    Before m t ∧ Before t n ∧ number n ≤ number m

instance (keys : List Text) : Decidable (Mixed keys) := inferInstanceAs (Decidable (∃ m ∈ keys, _))

/-- Not to come before is transitive where the column is not mixed. -/
theorem not_less_trans {keys : List Text} (hmixed : ¬ Mixed keys) (ha : a ∈ keys ∧ a ≠ []) (hb : b ∈ keys ∧ b ≠ [])
    (hc : c ∈ keys ∧ c ≠ []) (hab : ¬ Less b a) (hbc : ¬ Less c b) : ¬ Less c a := by
  have hdiffer {s t : Text} (hs : isInteger s) (ht : ¬ isInteger t) : s ≠ t := fun h => ht (h ▸ hs)
  intro hca
  by_cases hia : isInteger a <;> by_cases hib : isInteger b <;> by_cases hic : isInteger c
  · rw [less_of_numeric hib hia] at hab
    rw [less_of_numeric hic hib] at hbc
    rw [less_of_numeric hic hia] at hca
    omega
  · -- the third is a text
    rw [less_of_numeric hib hia] at hab
    rw [less_of_text (fun h => hic h.1)] at hbc hca
    have hbefore : Before b c := before_of_not hbc (hdiffer hib hic)
    exact hmixed ⟨b, hb.1, c, hc.1, a, ha.1, ⟨hib, hia, hic, hc.2⟩, hbefore, hca, not_lt.mp hab⟩
  · -- the second is a text
    rw [less_of_text (fun h => hib h.1)] at hab
    rw [less_of_text (fun h => hib h.2)] at hbc
    rw [less_of_numeric hic hia] at hca
    have hbefore : Before a b := before_of_not hab (hdiffer hia hib)
    have hbefore' : Before b c := before_of_not hbc (hdiffer hic hib).symm
    exact hmixed ⟨a, ha.1, b, hb.1, c, hc.1, ⟨hia, hic, hib, hb.2⟩, hbefore, hbefore', hca.le⟩
  · rw [less_of_text (fun h => hib h.1)] at hab
    rw [less_of_text (fun h => hic h.1)] at hbc hca
    exact not_before_trans hab hbc hca
  · -- the first is a text
    rw [less_of_text (fun h => hia h.2)] at hab hca
    rw [less_of_numeric hic hib] at hbc
    have hbefore : Before a b := before_of_not hab (hdiffer hib hia).symm
    exact hmixed ⟨c, hc.1, a, ha.1, b, hb.1, ⟨hic, hib, hia, ha.2⟩, hca, hbefore, not_lt.mp hbc⟩
  · rw [less_of_text (fun h => hia h.2)] at hab hca
    rw [less_of_text (fun h => hic h.1)] at hbc
    exact not_before_trans hab hbc hca
  · rw [less_of_text (fun h => hia h.2)] at hab hca
    rw [less_of_text (fun h => hib h.2)] at hbc
    exact not_before_trans hab hbc hca
  · rw [less_of_text (fun h => hia h.2)] at hab hca
    rw [less_of_text (fun h => hib h.2)] at hbc
    exact not_before_trans hab hbc hca

theorem compareKeys_trans {keys : List Text} (hmixed : ¬ Mixed keys) (dir : Dir) (ha : a ∈ keys) (hb : b ∈ keys)
    (hc : c ∈ keys) (hab : compareKeys dir a b ≤ 0) (hbc : compareKeys dir b c ≤ 0) : compareKeys dir a c ≤ 0 := by
  rw [compareKeys_le] at hab hbc ⊢
  rcases hbc with hnil | ⟨hb', hc', hbc⟩
  · exact .inl hnil
  · rcases hab with hnil | ⟨ha', -, hab⟩
    · exact absurd hnil hb'
    · refine .inr ⟨ha', hc', ?_⟩
      cases dir with
      | asc => exact not_less_trans hmixed ⟨ha, ha'⟩ ⟨hb, hb'⟩ ⟨hc, hc'⟩ hab hbc
      | desc => exact not_less_trans hmixed ⟨hc, hc'⟩ ⟨hb, hb'⟩ ⟨ha, ha'⟩ hbc hab

/-- A text between two integers breaks transitivity. -/
theorem Mixed.not_trans {keys : List Text} (h : Mixed keys) : ¬ ∀ a ∈ keys, ∀ b ∈ keys, ∀ c ∈ keys,
    compareKeys .asc a b ≤ 0 → compareKeys .asc b c ≤ 0 → compareKeys .asc a c ≤ 0 := by
  obtain ⟨m, hm, t, ht, n, hn, ⟨him, hin, hit, htnil⟩, hmt, htn, hnumber⟩ := h
  intro htrans
  have hle : compareKeys .asc n m ≤ 0 := by
    rw [compareKeys_asc_le (isInteger_ne_nil hin) (isInteger_ne_nil him), less_of_numeric him hin]
    omega
  have hle' : compareKeys .asc m t ≤ 0 := by
    rw [compareKeys_asc_le (isInteger_ne_nil him) htnil, less_of_text fun h => hit h.1]
    exact hmt.asymm
  have hlast := htrans n hn m hm t ht hle hle'
  rw [compareKeys_asc_le (isInteger_ne_nil hin) htnil, less_of_text fun h => hit h.1] at hlast
  exact hlast htn

end keys

/-! ### The table -/

section table

variable (normalize : Text → Text) (col : String) (rows : List Row)

/-- The rows that are sorted. -/
def sortable : List Row := rows.filter fun tr => tr.dataFilter.isSome

/-- The keys of a column. -/
def keys : List Text := (sortable rows).map fun tr => cellKey normalize tr col

/-- The rows that are sorted, as they stand in the table after sorting. -/
def sortedRows (dir : Dir) : List Row :=
  (applySort normalize (some ⟨col, dir⟩) rows).filter fun tr => tr.dataFilter.isSome

/-- The order of a column is an order. Its comparator is a total preorder with transitive ties in both directions, the
empty cells come last, every pair of the sorted table stands in order, and the other direction reverses it. -/
structure Ordered : Prop where
  consistent : ∀ dir, Consistent (compareRows normalize ⟨col, dir⟩) (sortable rows)
  tie : ∀ dir, ∀ a ∈ sortable rows, ∀ b ∈ sortable rows, ∀ c ∈ sortable rows,
    compareRows normalize ⟨col, dir⟩ a b = 0 → compareRows normalize ⟨col, dir⟩ b c = 0 →
      compareRows normalize ⟨col, dir⟩ a c = 0
  emptyLast : ∀ dir, ∀ a ∈ sortable rows, ∀ b ∈ sortable rows, cellKey normalize a col ≠ [] →
    cellKey normalize b col = [] → compareRows normalize ⟨col, dir⟩ a b < 0
  sorted : ∀ dir, (sortedRows normalize col rows dir).Pairwise fun a b => compareRows normalize ⟨col, dir⟩ a b ≤ 0
  reversed : ((sortedRows normalize col rows .desc).filter fun tr => cellKey normalize tr col ≠ []).reverse.Pairwise
    fun a b => compareRows normalize ⟨col, .asc⟩ a b ≤ 0

variable {normalize col rows}

theorem sortedRows_eq (dir : Dir) :
    sortedRows normalize col rows dir = sort (compareRows normalize ⟨col, dir⟩) (sortable rows) := by
  rw [sortedRows, applySort, List.filter_append, List.filter_filter]
  have hnone : (rows.filter fun tr => tr.dataFilter.isSome && tr.dataFilter.isNone) = [] :=
    List.filter_eq_nil_iff.mpr fun tr _ => by cases tr.dataFilter <;> simp
  have hsome : (sort (compareRows normalize ⟨col, dir⟩) (sortable rows)).filter (fun tr => tr.dataFilter.isSome) =
      sort (compareRows normalize ⟨col, dir⟩) (sortable rows) :=
    List.filter_eq_self.mpr fun tr htr => (List.mem_filter.mp (mem_sort.mp htr)).2
  rw [hnone, List.nil_append]
  exact hsome

theorem mem_keys {tr : Row} (h : tr ∈ sortable rows) : cellKey normalize tr col ∈ keys normalize col rows :=
  List.mem_map_of_mem h

theorem consistent_of_not_mixed (h : ¬ Mixed (keys normalize col rows)) (dir : Dir) :
    Consistent (compareRows normalize ⟨col, dir⟩) (sortable rows) where
  antisymm _ _ _ _ := compareKeys_antisymm dir _ _
  trans _ ha _ hb _ hc := compareKeys_trans h dir (mem_keys ha) (mem_keys hb) (mem_keys hc)

/-- The rows that are not empty stand the other way round in the other direction. -/
theorem reversed_of_sorted (h : (sortedRows normalize col rows .desc).Pairwise fun a b =>
    compareRows normalize ⟨col, .desc⟩ a b ≤ 0) :
    ((sortedRows normalize col rows .desc).filter fun tr => cellKey normalize tr col ≠ []).reverse.Pairwise
      fun a b => compareRows normalize ⟨col, .asc⟩ a b ≤ 0 := by
  rw [List.pairwise_reverse]
  refine (h.filter _).imp_of_mem fun {a b} ha hb hle => ?_
  have ha' : cellKey normalize a col ≠ [] := of_decide_eq_true (List.mem_filter.mp ha).2
  have hb' : cellKey normalize b col ≠ [] := of_decide_eq_true (List.mem_filter.mp hb).2
  exact (compareKeys_desc ha' hb').symm.trans_le hle

/-- The sort order of a column is an order when no text of the column stands between two integers that are the other
way round as numbers, and only then. -/
theorem applySort_ordered_iff (normalize : Text → Text) (col : String) (rows : List Row) :
    Ordered normalize col rows ↔ ¬ Mixed (keys normalize col rows) := by
  constructor
  · intro h hmixed
    refine hmixed.not_trans fun a ha b hb c hc hab hbc => ?_
    obtain ⟨ra, hra, rfl⟩ := List.mem_map.mp ha
    obtain ⟨rb, hrb, rfl⟩ := List.mem_map.mp hb
    obtain ⟨rc, hrc, rfl⟩ := List.mem_map.mp hc
    exact (h.consistent .asc).trans ra hra rb hrb rc hrc hab hbc
  · intro hmixed
    have hsorted (dir : Dir) : (sortedRows normalize col rows dir).Pairwise fun a b =>
        compareRows normalize ⟨col, dir⟩ a b ≤ 0 := by
      rw [sortedRows_eq]
      exact (consistent_of_not_mixed hmixed dir).pairwise_sort
    refine ⟨consistent_of_not_mixed hmixed, fun dir a ha b hb c hc => ?_, fun dir a _ b _ ha hb => ?_, hsorted,
      reversed_of_sorted (hsorted .desc)⟩
    · exact (consistent_of_not_mixed hmixed dir).tie ha hb hc
    · have hlast : compareRows normalize ⟨col, dir⟩ a b = -1 := by
        rw [compareRows, hb]
        exact compareKeys_nil_right dir ha
      omega

/-- A row of the table with the id of a device. -/
def deviceRow (id : Text) : Row := ⟨some id, [("device", ⟨some id, id⟩)]⟩

/-- The devices `9`, `10` and `1a`. As numbers `9` comes before `10`, as texts `10` comes before `1a` and `1a` before
`9`, so that no arrangement of the three has every pair in order. -/
theorem mixed_ids_not_ordered :
    let rows := [deviceRow [57], deviceRow [49, 48], deviceRow [49, 97]]
    ¬ Ordered id "device" rows ∧
      ∀ out : List Row, out.Perm rows → ¬ out.Pairwise fun a b => compareRows id ⟨"device", .asc⟩ a b ≤ 0 := by
  intro rows
  have hcycle : compareRows id ⟨"device", .asc⟩ (deviceRow [49, 48]) (deviceRow [49, 97]) ≤ 0 ∧
      compareRows id ⟨"device", .asc⟩ (deviceRow [49, 97]) (deviceRow [57]) ≤ 0 ∧
      ¬ compareRows id ⟨"device", .asc⟩ (deviceRow [49, 48]) (deviceRow [57]) ≤ 0 := by
    decide +kernel
  have hout : ∀ out ∈ rows.permutations', ¬ out.Pairwise fun a b => compareRows id ⟨"device", .asc⟩ a b ≤ 0 := by
    decide +kernel
  have hmem : ∀ tr ∈ rows, tr ∈ sortable rows := by decide
  refine ⟨fun h => ?_, fun out hperm => hout out (List.mem_permutations'.mpr hperm)⟩
  exact hcycle.2.2 ((h.consistent .asc).trans _ (hmem _ (by decide)) _ (hmem _ (by decide)) _ (hmem _ (by decide))
    hcycle.1 hcycle.2.1)

end table

end ThesadaApp.DevicesTable
