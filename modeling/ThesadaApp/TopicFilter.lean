import Mathlib.Data.List.Basic
import Mathlib.Tactic.Common

/-!
MQTT topics and topic filters. A topic is cut at its slashes into levels; a filter matches level by
level, `+` stands for any one level and a last `#` for any rest. The filters that end in `/#` and have
no other wildcard are the subtrees, and matching one is having its levels as a prefix.
-/

namespace TopicFilter

/-- The levels of a topic. There is always one, which may be empty. -/
def levels (topic : String) : List String := (topic.toList.splitOn '/').map String.ofList

/-- The topic of a list of levels. -/
def join (ls : List String) : String := "/".intercalate ls

/-- Match the levels of a filter against those of a topic. -/
def matchLevels : List String → List String → Bool
  | [], ts => ts.isEmpty
  | f :: fs, ts =>
      (f = "#" && fs.isEmpty) ||
        match ts with
        | [] => false
        | t :: ts => (f = "+" || f = t) && matchLevels fs ts

/-- A filter that starts with a wildcard does not match a topic that starts with a dollar. -/
def hidesTopic (filter topic : String) : Bool :=
  topic.toList.head? = some '$' && (filter.toList.head? = some '+' || filter.toList.head? = some '#')

def matchesTopic (filter topic : String) : Bool :=
  !hidesTopic filter topic && matchLevels (levels filter) (levels topic)

/-- No wildcard character. -/
def Plain (topic : String) : Prop := '+' ∉ topic.toList ∧ '#' ∉ topic.toList

instance (topic : String) : Decidable (Plain topic) := inferInstanceAs (Decidable (_ ∧ _))

/-- Levels of a filter that match levels of a topic: `+` stands for one level, `#` for any rest, none
included, and every other level for itself. -/
inductive Matches : List String → List String → Prop where
  | nil : Matches [] []
  | rest (ts : List String) : Matches ["#"] ts
  | one {fs ts : List String} (t : String) : Matches fs ts → Matches ("+" :: fs) (t :: ts)
  | same {fs ts : List String} {f : String} : f ≠ "+" → f ≠ "#" → Matches fs ts → Matches (f :: fs) (f :: ts)

/-- A level that a filter of `count` levels may have at a place. -/
structure LevelAllowed (count place : Nat) (l : String) : Prop where
  hash : '#' ∈ l.toList → l = "#" ∧ place + 1 = count
  plus : '+' ∈ l.toList → l = "+"
  nonempty : place ≠ 0 → l ≠ ""

/-- Wildcards are whole levels, `#` is the last one, and only the first level may be empty. -/
def WellFormed (filter : String) : Prop :=
  filter ≠ "" ∧ ∀ place l, (levels filter)[place]? = some l → LevelAllowed (levels filter).length place l

theorem levels_ne_nil (topic : String) : levels topic ≠ [] := by
  simp [levels]

theorem levels_append (p q : String) : levels (p ++ "/" ++ q) = levels p ++ levels q := by
  have hlist : (p ++ "/" ++ q).toList = p.toList ++ '/' :: q.toList := by simp
  rw [levels, hlist, List.splitOn_append_cons_self, List.map_append]
  rfl

theorem levels_of_not_mem {topic : String} (h : '/' ∉ topic.toList) : levels topic = [topic] := by
  rw [levels, List.splitOn_eq_singleton h]
  simp

/-- Joining the levels of a topic gives it back. -/
theorem join_levels (topic : String) : join (levels topic) = topic := by
  rw [join, levels, ← String.toList_inj, String.toList_intercalate, List.map_map]
  have hpieces : String.toList ∘ String.ofList = id := by
    funext cs
    exact String.toList_ofList
  rw [hpieces, List.map_id]
  exact List.intercalate_splitOn '/'

/-- The characters of a level are characters of the topic, and none is a slash. -/
theorem mem_level {topic l : String} {c : Char} (hl : l ∈ levels topic) (hc : c ∈ l.toList) :
    c ∈ topic.toList ∧ c ≠ '/' := by
  obtain ⟨cs, hcs, rfl⟩ := List.mem_map.mp hl
  rw [String.toList_ofList] at hc
  have hpieces : ∀ (xs : List Char), ∀ l ∈ xs.splitOn '/', ∀ c ∈ l, c ∈ xs ∧ c ≠ '/' := by
    intro xs
    induction xs with
    | nil => simp
    | cons x xs ih =>
        intro l hl c hc
        have htail : ∀ l ∈ xs.splitOn '/', c ∈ l → c ∈ x :: xs ∧ c ≠ '/' := fun l hl hc =>
          (ih l hl c hc).imp_left (List.mem_cons_of_mem x)
        rw [List.splitOn_cons_eq_if_modifyHead] at hl
        split at hl
        · rcases List.mem_cons.mp hl with rfl | hl
          · cases hc
          · exact htail l hl hc
        · next hx =>
          obtain ⟨head, tail, hsplit⟩ := List.exists_cons_of_ne_nil (List.splitOn_ne_nil '/' xs)
          rw [hsplit, List.modifyHead_cons] at hl
          rcases List.mem_cons.mp hl with rfl | hl
          · rcases List.mem_cons.mp hc with rfl | hc
            · exact ⟨List.mem_cons_self, by simpa using hx⟩
            · exact htail head (by simp [hsplit]) hc
          · exact htail l (by simp [hsplit, hl]) hc
  exact hpieces _ cs hcs c hc

/-- A level of a topic is one level. -/
theorem levels_of_mem {topic l : String} (hl : l ∈ levels topic) : levels l = [l] :=
  levels_of_not_mem fun hc => (mem_level hl hc).2 rfl

theorem Plain.level {topic l : String} (h : Plain topic) (hl : l ∈ levels topic) : l ≠ "+" ∧ l ≠ "#" := by
  constructor
  · rintro rfl
    exact h.1 (mem_level hl (by decide)).1
  · rintro rfl
    exact h.2 (mem_level hl (by decide)).1

theorem Plain.of_mem {topic l : String} (h : Plain topic) (hl : l ∈ levels topic) : Plain l :=
  ⟨fun hc => h.1 (mem_level hl hc).1, fun hc => h.2 (mem_level hl hc).1⟩

/-- Joining two topics with a slash brings no wildcard in. -/
theorem Plain.append {p q : String} (hp : Plain p) (hq : Plain q) : Plain (p ++ "/" ++ q) := by
  simp only [Plain, String.toList_append, List.mem_append, not_or]
  exact ⟨⟨⟨hp.1, by decide⟩, hq.1⟩, ⟨hp.2, by decide⟩, hq.2⟩

/-- Where `#` is the last level only, the matching of levels decides the relation. -/
theorem matchLevels_iff_matches {fs ts : List String} (hlast : ∀ place, fs[place]? = some "#" → place + 1 = fs.length) :
    matchLevels fs ts = true ↔ Matches fs ts := by
  induction fs generalizing ts with
  | nil =>
      rw [matchLevels, List.isEmpty_iff]
      constructor
      · rintro rfl
        exact .nil
      · rintro ⟨⟩
        rfl
  | cons f fs ih =>
      have htail : ∀ place, fs[place]? = some "#" → place + 1 = fs.length := by
        intro place hplace
        simpa using hlast (place + 1) hplace
      by_cases hhash : f = "#"
      · subst hhash
        obtain rfl : fs = [] := by simpa using hlast 0 rfl
        simp only [matchLevels, List.isEmpty_nil, decide_true, Bool.and_self, Bool.true_or, true_iff]
        exact .rest ts
      · cases ts with
        | nil =>
            simp only [matchLevels, hhash, decide_false, Bool.false_and, Bool.or_self, Bool.false_eq_true, false_iff]
            rintro ⟨⟩
            exact hhash rfl
        | cons t ts =>
            simp only [matchLevels, hhash, decide_false, Bool.false_and, Bool.false_or, Bool.and_eq_true,
              Bool.or_eq_true, decide_eq_true_eq, ih htail]
            constructor
            · rintro ⟨rfl | rfl, hrest⟩
              · exact .one t hrest
              · by_cases hplus : f = "+"
                · subst hplus
                  exact .one "+" hrest
                · exact .same hplus hhash hrest
            · intro h
              cases h with
              | rest => exact absurd rfl hhash
              | one _ hrest => exact ⟨.inl rfl, hrest⟩
              | same _ _ hrest => exact ⟨.inr rfl, hrest⟩

/-- Levels without wildcards and a last `#` match what has them as a prefix. -/
theorem matchLevels_subtree {ps ts : List String} (hplain : ∀ l ∈ ps, l ≠ "+" ∧ l ≠ "#") :
    matchLevels (ps ++ ["#"]) ts = true ↔ ps <+: ts := by
  induction ps generalizing ts with
  | nil => simp [matchLevels]
  | cons p ps ih =>
      obtain ⟨hplus, hhash⟩ := hplain p List.mem_cons_self
      cases ts with
      | nil => simp [matchLevels, hhash]
      | cons t ts =>
          have htail : matchLevels (ps ++ ["#"]) ts = true ↔ ps <+: ts :=
            ih fun l hl => hplain l (List.mem_cons_of_mem _ hl)
          simp [matchLevels, hplus, hhash, htail, List.cons_prefix_cons]

/-- The same below a first level of any form: it matches one level. -/
theorem matchLevels_below {root : String} {ps ts : List String} (hne : ps ≠ [])
    (hplain : ∀ l ∈ ps, l ≠ "+" ∧ l ≠ "#") (h : matchLevels (root :: ps ++ ["#"]) ts = true) :
    ∃ t rest, ts = t :: rest ∧ ps <+: rest := by
  have hmore : (ps ++ ["#"]).isEmpty = false := by simp [hne]
  cases ts with
  | nil => simp [matchLevels, hmore] at h
  | cons t ts =>
      rw [List.cons_append, matchLevels, hmore, Bool.and_false, Bool.false_or, Bool.and_eq_true] at h
      exact ⟨t, ts, rfl, (matchLevels_subtree hplain).mp h.2⟩

theorem levels_subtree (p : String) : levels (p ++ "/#") = levels p ++ ["#"] := by
  have hfilter : p ++ "/#" = p ++ "/" ++ "#" := by
    rw [String.append_assoc]
    rfl
  rw [hfilter, levels_append]
  rfl

theorem not_hidesTopic_subtree {p : String} (hplain : Plain p) (topic : String) :
    hidesTopic (p ++ "/#") topic = false := by
  obtain ⟨hplus, hhash⟩ := hplain
  rw [hidesTopic, String.toList_append]
  cases hp : p.toList with
  | nil => simp
  | cons c cs =>
      rw [hp] at hplus hhash
      have hc : c ≠ '+' ∧ c ≠ '#' := ⟨fun h => hplus (by simp [h]), fun h => hhash (by simp [h])⟩
      simp [hc]

/-- The subtree of a plain topic is what has its levels as a prefix. -/
theorem matches_subtree_iff {p topic : String} (hplain : Plain p) :
    matchesTopic (p ++ "/#") topic = true ↔ levels p <+: levels topic := by
  rw [matchesTopic, not_hidesTopic_subtree hplain, levels_subtree, Bool.not_false, Bool.true_and]
  exact matchLevels_subtree fun l hl => hplain.level hl

end TopicFilter
