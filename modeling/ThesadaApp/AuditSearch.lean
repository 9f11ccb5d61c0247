import ThesadaApp.AuditQuery

/-!
What a search over the trail finds. The text built from a filter is read as a query that refers to each argument by
its position, the query selects the rows that match the filter, and its pages make up the whole list.
-/

namespace ThesadaApp.Audit

open SelectText

/-! ### The text of the query -/

section text

/-- A column that is compared with a value of the filter. -/
structure Test where
  column : String
  op : Op
  value : Value
  deriving DecidableEq, Repr

def AuditFilter.tests (f : AuditFilter) : List Test :=
  (if f.action ≠ "" then [⟨"action", .eq, .text f.action⟩] else []) ++
  (f.actorUserID.toList.map fun id => ⟨"actor_user_id", .eq, .uuid id⟩) ++
  (if f.actorEmail ≠ "" then [⟨"actor_email", .ilike, .text ("%" ++ escapeLike f.actorEmail ++ "%")⟩] else []) ++
  (if f.targetType ≠ "" then [⟨"target_type", .eq, .text f.targetType⟩] else []) ++
  (if f.targetID ≠ "" then [⟨"target_id", .eq, .text f.targetID⟩] else []) ++
  (if f.tenantID ≠ "" then [⟨"tenant_id", .eq, .text f.tenantID⟩] else []) ++
  (if f.from ≠ zeroTime then [⟨"at", .ge, .time f.from⟩] else []) ++
  (if f.to ≠ zeroTime then [⟨"at", .lt, .time f.to⟩] else [])

variable {f : AuditFilter} {ts : List Test} {t : Test} {b : Clauses}

/-- A property of every test, field by field. -/
theorem AuditFilter.forall_tests {P : Test → Prop} : (∀ t ∈ f.tests, P t) ↔
    (f.action ≠ "" → P ⟨"action", .eq, .text f.action⟩) ∧
    (∀ id, f.actorUserID = some id → P ⟨"actor_user_id", .eq, .uuid id⟩) ∧
    (f.actorEmail ≠ "" → P ⟨"actor_email", .ilike, .text ("%" ++ escapeLike f.actorEmail ++ "%")⟩) ∧
    (f.targetType ≠ "" → P ⟨"target_type", .eq, .text f.targetType⟩) ∧
    (f.targetID ≠ "" → P ⟨"target_id", .eq, .text f.targetID⟩) ∧
    (f.tenantID ≠ "" → P ⟨"tenant_id", .eq, .text f.tenantID⟩) ∧
    (f.from ≠ zeroTime → P ⟨"at", .ge, .time f.from⟩) ∧ (f.to ≠ zeroTime → P ⟨"at", .lt, .time f.to⟩) := by
  have hif : ∀ (p : Prop) [Decidable p] (t : Test), (∀ u ∈ (if p then [t] else []), P u) ↔ (p → P t) := by
    intro p _ t
    split_ifs with hp <;> simp [hp]
  have hid : (∀ u ∈ f.actorUserID.toList.map fun id => (⟨"actor_user_id", .eq, .uuid id⟩ : Test), P u) ↔
      ∀ id, f.actorUserID = some id → P ⟨"actor_user_id", .eq, .uuid id⟩ := by
    rw [List.forall_mem_map]
    exact forall_congr' fun id => by rw [Option.mem_toList]
  simp only [tests, List.forall_mem_append, hif, hid, and_assoc]

/-- The format of a clause. -/
def Test.clause (t : Test) : String := t.column ++ " " ++ sign t.op ++ " $" ++ "%d"

theorem AuditFilter.clauses_eq : f.clauses = f.tests.map fun t => (t.clause, t.value) := by
  have hif : ∀ (p : Prop) [Decidable p] (t : Test), (if p then [t] else []).map (fun t => (t.clause, t.value)) =
      if p then [(t.clause, t.value)] else [] := by
    intro p _ t
    split_ifs <;> rfl
  simp only [clauses, tests, List.map_append, hif, List.map_map]
  rfl

theorem sprintf_append {s : String} (h : '%' ∉ s.toList) (n : Nat) : sprintf (s ++ "%d") n = s ++ toString n := by
  have hgo : ∀ cs : List Char, '%' ∉ cs → sprintf.go n (cs ++ ['%', 'd']) = cs ++ (toString n).toList := by
    intro cs hcs
    induction cs with
    | nil => simp [sprintf.go]
    | cons c cs ih =>
        obtain ⟨hc, hcs⟩ := not_or.mp (mt List.mem_cons.mpr hcs)
        rw [List.cons_append, sprintf.go, ih hcs, List.cons_append]
        exact fun _ hpercent => absurd hpercent.symm hc
  rw [sprintf, String.toList_append, show "%d".toList = ['%', 'd'] from rfl, hgo _ h, ← String.toList_append,
    String.ofList_toList]

/-- A column that is a word and stands for itself in a format. -/
def Plain (column : String) : Prop := IsWord column ∧ '%' ∉ column.toList

instance (column : String) : Decidable (Plain column) := inferInstanceAs (Decidable (_ ∧ _))

theorem AuditFilter.plain (f : AuditFilter) : ∀ t ∈ f.tests, Plain t.column := by
  rw [forall_tests]
  refine ⟨?_, ?_, ?_, ?_, ?_, ?_, ?_, ?_⟩ <;> intros <;> dsimp only <;> decide

/-- A position at the end of a format. -/
theorem toList_sprintf {s : String} (h : '%' ∉ s.toList) (n : Nat) :
    (sprintf (s ++ " $" ++ "%d") n).toList = s.toList ++ ' ' :: (positionText n).toList := by
  have hpercent : '%' ∉ (s ++ " $").toList := by
    rw [String.toList_append, List.mem_append, not_or]
    exact ⟨h, by decide⟩
  rw [sprintf_append hpercent, positionText, String.toList_append, String.toList_append, String.toList_append,
    List.append_assoc]
  rfl

/-- The conditions with the positions of their arguments. -/
def numbered (ts : List Test) : List Cond := ts.mapIdx fun i t => ⟨t.column, t.op, i + 1⟩

theorem words_clause (h : Plain t.column) (n : Nat) :
    words (sprintf t.clause n).toList = [t.column, sign t.op, positionText n] := by
  have hsign : IsWord (sign t.op) ∧ '%' ∉ (sign t.op).toList := by cases t.op <;> decide
  have hpercent : '%' ∉ (t.column ++ " " ++ sign t.op).toList := by
    rw [String.toList_append, String.toList_append, List.mem_append, List.mem_append, not_or, not_or]
    exact ⟨⟨h.2, by decide⟩, hsign.2⟩
  have htext : (sprintf t.clause n).toList =
      t.column.toList ++ ' ' :: ((sign t.op).toList ++ ' ' :: (positionText n).toList) := by
    rw [Test.clause, toList_sprintf hpercent]
    simp
  rw [htext, words_append_blank, words_append_blank, h.1.words, hsign.1.words, (isWord_positionText n).words]
  rfl

/-- What is built from the first tests. -/
structure Built (ts : List Test) (b : Clauses) : Prop where
  words : words b.wherePart.toList = whereWords (numbered ts)
  opens : Opens b.wherePart.toList
  empty : b.wherePart = "" ↔ ts = []
  args : b.args = ts.map Test.value

theorem built_nil : Built [] ⟨"", []⟩ := ⟨rfl, .inl rfl, by simp, rfl⟩

theorem whereWords_snoc (cs : List Cond) (c : Cond) :
    whereWords (cs ++ [c]) = if cs = [] then "WHERE" :: c.words else whereWords cs ++ "AND" :: c.words := by
  cases cs with
  | nil => simp [whereWords]
  | cons d cs => simp [whereWords]

theorem Built.and (h : Built ts b) (ht : Plain t.column) : Built (ts ++ [t]) (b.and t.clause t.value) := by
  have hargs : (b.and t.clause t.value).args = (ts ++ [t]).map Test.value := by
    rw [Clauses.and, h.args, List.map_append, List.map_singleton]
  have hlength : (b.args ++ [t.value]).length = ts.length + 1 := by rw [h.args]; simp
  have hnumbered : numbered (ts ++ [t]) = numbered ts ++ [⟨t.column, t.op, ts.length + 1⟩] := by
    rw [numbered, List.mapIdx_concat, numbered]
  have hempty : numbered ts = [] ↔ ts = [] := List.mapIdx_eq_nil_iff
  have hwords := words_clause ht (ts.length + 1)
  by_cases hts : ts = []
  · have hwhere : (b.and t.clause t.value).wherePart = " WHERE " ++ sprintf t.clause (ts.length + 1) := by
      rw [Clauses.and, if_pos (h.empty.mpr hts), hlength]
    have htext : (b.and t.clause t.value).wherePart.toList =
        ' ' :: ("WHERE".toList ++ ' ' :: (sprintf t.clause (ts.length + 1)).toList) := by
      rw [hwhere]
      simp
    refine ⟨?_, .inr ⟨_, htext⟩, ?_, hargs⟩
    · rw [htext, words_blank, words_append_blank, hwords, hnumbered, whereWords_snoc, if_pos (hempty.mpr hts)]
      rfl
    · simp [hwhere]
  · have hwhere : (b.and t.clause t.value).wherePart =
        b.wherePart ++ " AND " ++ sprintf t.clause (ts.length + 1) := by
      rw [Clauses.and, if_neg (fun hb => hts (h.empty.mp hb)), hlength]
    have htext : (b.and t.clause t.value).wherePart.toList =
        b.wherePart.toList ++ ' ' :: ("AND".toList ++ ' ' :: (sprintf t.clause (ts.length + 1)).toList) := by
      rw [hwhere]
      simp
    refine ⟨?_, ?_, ?_, hargs⟩
    · rw [htext, words_append_blank, words_append_blank, h.words, hwords, hnumbered, whereWords_snoc,
        if_neg (fun hn => hts (hempty.mp hn))]
      rfl
    · rcases h.opens with hb | ⟨c, hb⟩
      · exact absurd (h.empty.mp (String.toList_eq_nil_iff.mp hb)) hts
      · exact .inr ⟨_, by rw [htext, hb, List.cons_append]⟩
    · simp [hwhere]

theorem Built.foldl (h : Built ts b) {us : List Test} (hus : ∀ t ∈ us, Plain t.column) :
    Built (ts ++ us) (us.foldl (fun b t => b.and t.clause t.value) b) := by
  induction us generalizing ts b with
  | nil => rwa [List.append_nil]
  | cons t us ih =>
      have hrest := ih (h.and (hus t List.mem_cons_self)) fun u hu => hus u (List.mem_cons_of_mem t hu)
      rwa [List.append_assoc] at hrest

theorem AuditFilter.built_tests (f : AuditFilter) : Built f.tests f.built := by
  have h := built_nil.foldl f.plain
  rw [built, clauses_eq, List.foldl_map]
  exact h

def auditColumns : List String :=
  ["id", "at", "actor_user_id", "actor_email", "action", "target_type", "target_id", "tenant_id", "detail"]

/-- The query that the text of a filter is read as. -/
def AuditFilter.select (f : AuditFilter) : Select where
  columns := auditColumns
  table := "admin_audit"
  conds := numbered f.tests
  keys := ["at", "id"]
  limit := f.tests.length + 1
  offset := if 0 < f.offset then some (f.tests.length + 2) else none

def AuditFilter.offsetArgs (f : AuditFilter) : List Value := if 0 < f.offset then [.int f.offset] else []

theorem auditListQuery_args (f : AuditFilter) :
    (auditListQuery f).2 = f.tests.map Test.value ++ .int (pageLimit f.limit) :: f.offsetArgs := by
  rw [auditListQuery, AuditFilter.offsetArgs, f.built_tests.args]
  split_ifs <;> simp

theorem words_order (n : Nat) : words (sprintf " ORDER BY at DESC, id DESC LIMIT $%d" n).toList =
    ["ORDER", "BY"] ++ keyWords ["at", "id"] ++ ["LIMIT", positionText n] := by
  have horder : words " ORDER BY at DESC, id DESC LIMIT".toList =
      ["ORDER", "BY", "at", "DESC", ",", "id", "DESC", "LIMIT"] := by
    decide +kernel
  rw [show " ORDER BY at DESC, id DESC LIMIT $%d" = " ORDER BY at DESC, id DESC LIMIT" ++ " $" ++ "%d" from rfl,
    toList_sprintf (by decide), words_append_blank, horder, (isWord_positionText n).words]
  rfl

theorem words_offset (n : Nat) : words (sprintf " OFFSET $%d" n).toList = ["OFFSET", positionText n] := by
  have hoffset : words " OFFSET".toList = ["OFFSET"] := by decide +kernel
  rw [show " OFFSET $%d" = " OFFSET" ++ " $" ++ "%d" from rfl, toList_sprintf (by decide), words_append_blank, hoffset,
    (isWord_positionText n).words]
  rfl

theorem words_auditSelect :
    words auditSelect.toList = ["SELECT"] ++ nameWords auditColumns ++ ["FROM", "admin_audit"] := by
  decide +kernel

theorem opens_sprintf {s : String} (h : '%' ∉ s.toList) (hopens : ∃ c, s.toList = ' ' :: c) (n : Nat) :
    Opens (sprintf (s ++ " $" ++ "%d") n).toList := by
  obtain ⟨c, hc⟩ := hopens
  exact .inr ⟨_, by rw [toList_sprintf h, hc, List.cons_append]⟩

/-- The text of a filter is the words of its query, with each position where the argument is. -/
theorem words_auditListQuery (f : AuditFilter) : words (auditListQuery f).1.toList = f.select.words := by
  have hbuilt := f.built_tests
  have hopens (n : Nat) : Opens (sprintf " ORDER BY at DESC, id DESC LIMIT $%d" n).toList :=
    opens_sprintf (s := " ORDER BY at DESC, id DESC LIMIT") (by decide) ⟨_, rfl⟩ n
  have hopens' (n : Nat) : Opens (sprintf " OFFSET $%d" n).toList :=
    opens_sprintf (s := " OFFSET") (by decide) ⟨_, rfl⟩ n
  have hquery (n : Nat) : words (auditSelect ++ (f.built.wherePart ++
      sprintf " ORDER BY at DESC, id DESC LIMIT $%d" n)).toList = ["SELECT"] ++ nameWords auditColumns ++
        ["FROM", "admin_audit"] ++ whereWords (numbered f.tests) ++ ["ORDER", "BY"] ++ keyWords ["at", "id"] ++
        ["LIMIT", positionText n] := by
    rw [String.toList_append, String.toList_append, words_append _ (hbuilt.opens.append (hopens n)),
      words_append _ (hopens n), words_auditSelect, hbuilt.words, words_order]
    simp
  have hlength : f.built.args.length = f.tests.length := by rw [hbuilt.args, List.length_map]
  rw [auditListQuery, Select.words]
  by_cases hpos : 0 < f.offset
  · have hselect : f.select.offset = some (f.tests.length + 2) := if_pos hpos
    rw [if_pos hpos, hselect, String.toList_append, words_append _ (hopens' _), hquery, words_offset]
    simp [AuditFilter.select, offsetWords, hlength]
  · have hselect : f.select.offset = none := if_neg hpos
    rw [if_neg hpos, hselect, hquery]
    simp [AuditFilter.select, offsetWords, hlength]

theorem parse_auditListQuery (f : AuditFilter) : parse (words (auditListQuery f).1.toList) = some f.select := by
  rw [words_auditListQuery]
  exact parse_words (List.cons_ne_nil _ _) (List.cons_ne_nil _ _)

end text

/-! ### The rows of the query -/

section rows

open LikePattern

theorem escapeLike_toList (s : String) : (escapeLike s).toList = s.toList.flatMap escapeChar := by
  have hreplace (s : String) (old : Char) (new : String) :
      (replaceAll s old new).toList = s.toList.flatMap fun c => if c = old then new.toList else [c] :=
    String.toList_ofList
  rw [escapeLike, hreplace, hreplace, hreplace, List.flatMap_assoc, List.flatMap_assoc]
  refine List.flatMap_congr fun c _ => ?_
  by_cases hc : special c
  · have hcases : (c = '\\' ∨ c = '%') ∨ c = '_' := by simpa [special] using hc
    rcases hcases with (rfl | rfl) | rfl <;> rfl
  · have hcases : (c ≠ '\\' ∧ c ≠ '%') ∧ c ≠ '_' := by simpa [special] using hc
    simp [escapeChar, hc, hcases]

variable {fold : Char → Char} {f : AuditFilter} {r : AuditRecord} {rows : List AuditRecord}

/-- What a test says of a row. -/
def Test.outcome (fold : Char → Char) (r : AuditRecord) (t : Test) : Option Bool := do
  let v ← r.column t.column
  relates fold t.op v t.value

theorem Test.outcome_eq {t : Test} {v : Value} (h : r.column t.column = some v) :
    t.outcome fold r = relates fold t.op v t.value := by
  rw [outcome, h]
  rfl

theorem relates_nullable_text (v : Option String) (s : String) :
    relates fold .eq (nullable .text v) (.text s) = some (decide (v = some s)) := by
  cases v with
  | none => rfl
  | some u => simp [nullable, relates]

theorem relates_nullable_uuid (v : Option UUID) (id : UUID) :
    relates fold .eq (nullable .uuid v) (.uuid id) = some (decide (v = some id)) := by
  cases v with
  | none => rfl
  | some u => simp [nullable, relates]

/-- The email is found as it is written, whatever characters are in it. -/
theorem relates_email (hfold : KeepsSpecial fold) (email part : String) :
    relates fold .ilike (.text email) (.text ("%" ++ escapeLike part ++ "%")) =
      some (decide (part.toList.map fold <:+: email.toList.map fold)) := by
  have hpattern : ("%" ++ escapeLike part ++ "%").toList = '%' :: (part.toList.flatMap escapeChar ++ ['%']) := by
    rw [String.toList_append, String.toList_append, escapeLike_toList]
    rfl
  rw [relates, hpattern, ilike_contains hfold]

/-- No test is refused, and all hold of the rows that match. -/
theorem AuditFilter.outcome_tests (hfold : KeepsSpecial fold) (f : AuditFilter) (r : AuditRecord) :
    (∀ t ∈ f.tests, (t.outcome fold r).isSome) ∧
      ((∀ t ∈ f.tests, t.outcome fold r = some true) ↔ f.Matches fold r) := by
  have haction (s : String) : Test.outcome fold r ⟨"action", .eq, .text s⟩ = some (decide (r.action = s)) := rfl
  have hactor (id : UUID) : Test.outcome fold r ⟨"actor_user_id", .eq, .uuid id⟩ =
      some (decide (r.actorUserID = some id)) :=
    (Test.outcome_eq rfl).trans (relates_nullable_uuid r.actorUserID id)
  have hemail (s : String) : Test.outcome fold r ⟨"actor_email", .ilike, .text ("%" ++ escapeLike s ++ "%")⟩ =
      some (decide (s.toList.map fold <:+: r.actorEmail.toList.map fold)) :=
    (Test.outcome_eq rfl).trans (relates_email hfold r.actorEmail s)
  have htype (s : String) : Test.outcome fold r ⟨"target_type", .eq, .text s⟩ =
      some (decide (r.targetType = some s)) :=
    (Test.outcome_eq rfl).trans (relates_nullable_text r.targetType s)
  have htarget (s : String) : Test.outcome fold r ⟨"target_id", .eq, .text s⟩ =
      some (decide (r.targetID = some s)) :=
    (Test.outcome_eq rfl).trans (relates_nullable_text r.targetID s)
  have htenant (s : String) : Test.outcome fold r ⟨"tenant_id", .eq, .text s⟩ =
      some (decide (r.tenantID = some s)) :=
    (Test.outcome_eq rfl).trans (relates_nullable_text r.tenantID s)
  have hfrom (t : Time) : Test.outcome fold r ⟨"at", .ge, .time t⟩ = some (decide (t ≤ r.at)) := rfl
  have hto (t : Time) : Test.outcome fold r ⟨"at", .lt, .time t⟩ = some (decide (r.at < t)) := rfl
  constructor
  · simp only [forall_tests, haction, hactor, hemail, htype, htarget, htenant, hfrom, hto, Option.isSome_some,
      implies_true, and_self]
  · simp only [forall_tests, haction, hactor, hemail, htype, htarget, htenant, hfrom, hto, Option.some_inj,
      decide_eq_true_iff]
    constructor
    · rintro ⟨h1, h2, h3, h4, h5, h6, h7, h8⟩
      exact ⟨h1, h2, h3, h4, h5, h6, h7, h8⟩
    · intro h
      exact ⟨h.action, h.actorUserID, h.actorEmail, h.targetType, h.targetID, h.tenantID, h.from, h.to⟩

theorem mem_numbered {ts : List Test} {c : Cond} :
    c ∈ numbered ts ↔ ∃ i t, ts[i]? = some t ∧ c = ⟨t.column, t.op, i + 1⟩ := by
  rw [numbered, List.mem_mapIdx]
  constructor
  · rintro ⟨i, hi, rfl⟩
    exact ⟨i, ts[i], List.getElem?_eq_getElem hi, rfl⟩
  · rintro ⟨i, t, ht, rfl⟩
    obtain ⟨hi, rfl⟩ := List.getElem?_eq_some_iff.mp ht
    exact ⟨i, hi, rfl⟩

/-- Each position refers to the argument of its own test. -/
theorem holds_numbered {ts : List Test} {i : Nat} {t : Test} (ht : ts[i]? = some t) (rest : List Value) :
    Cond.holds AuditRecord.column fold (ts.map Test.value ++ rest) r ⟨t.column, t.op, i + 1⟩ = t.outcome fold r := by
  have harg : argument (ts.map Test.value ++ rest) (i + 1) = some t.value := by
    have hi : i < (ts.map Test.value).length := by
      rw [List.length_map]
      exact (List.getElem?_eq_some_iff.mp ht).1
    rw [argument, List.getElem?_append_left hi, List.getElem?_map, ht, Option.map_some]
  rw [Cond.holds, harg]
  rfl

/-- The rows of the table that match. -/
def AuditFilter.selected (fold : Char → Char) (f : AuditFilter) (r : AuditRecord) : Bool :=
  f.tests.all fun t => t.outcome fold r = some true

theorem selected_iff (hfold : KeepsSpecial fold) : f.selected fold r ↔ f.Matches fold r := by
  rw [AuditFilter.selected, List.all_eq_true, ← (f.outcome_tests hfold r).2]
  exact forall₂_congr fun t _ => decide_eq_true_iff

theorem selects_select (hfold : KeepsSpecial fold) (f : AuditFilter) (r : AuditRecord) (rest : List Value) :
    f.select.selects AuditRecord.column fold (f.tests.map Test.value ++ rest) r = some (f.selected fold r) := by
  have houtcome := f.outcome_tests hfold r
  rw [Select.selects_eq, Option.some_inj, Bool.eq_iff_iff, decide_eq_true_iff, AuditFilter.selected, List.all_eq_true]
  · constructor
    · intro h t ht
      obtain ⟨i, hi⟩ := List.mem_iff_getElem?.mp ht
      rw [decide_eq_true_iff, ← holds_numbered hi rest]
      exact h _ (mem_numbered.mpr ⟨i, t, hi, rfl⟩)
    · intro h c hc
      obtain ⟨i, t, hi, rfl⟩ := mem_numbered.mp hc
      rw [holds_numbered hi]
      exact decide_eq_true_iff.mp (h t (List.mem_iff_getElem?.mpr ⟨i, hi⟩))
  · intro c hc
    obtain ⟨i, t, hi, rfl⟩ := mem_numbered.mp hc
    rw [holds_numbered hi]
    exact houtcome.1 t (List.mem_iff_getElem?.mpr ⟨i, hi⟩)

def AuditRecord.key (r : AuditRecord) : List Int := [r.at, r.id]

def AuditRecord.shown (r : AuditRecord) : List Value :=
  [.int r.id, .time r.at, nullable .uuid r.actorUserID, .text r.actorEmail, .text r.action, nullable .text r.targetType,
    nullable .text r.targetID, nullable .text r.tenantID, .json r.detail]

theorem key_select (f : AuditFilter) (r : AuditRecord) : f.select.key AuditRecord.column r = some r.key := rfl

theorem shown_select (f : AuditFilter) (r : AuditRecord) : f.select.columns.mapM r.column = some r.shown := rfl

/-- A row is scanned as it is stored. -/
theorem scan_shown (r : AuditRecord) : AuditRecord.scan r.shown = some r := by
  have huuid (v : Option UUID) : scanUUID (nullable .uuid v) = some v := by cases v <;> rfl
  have htext (v : Option String) : scanText (nullable .text v) = some v := by cases v <;> rfl
  simp only [AuditRecord.shown, AuditRecord.scan, huuid, htext]
  rfl

theorem count_limit (f : AuditFilter) :
    count (auditListQuery f).2 f.select.limit = some (pageLimit f.limit).toNat := by
  have harg : argument (auditListQuery f).2 (f.tests.length + 1) = some (.int (pageLimit f.limit)) := by
    rw [argument, auditListQuery_args, List.getElem?_append_right (by simp)]
    simp
  have hpos : 0 ≤ pageLimit f.limit := by
    rw [pageLimit, auditListMaxLimit]
    split_ifs <;> omega
  rw [count, AuditFilter.select, harg]
  exact if_pos hpos

theorem skipped_select (f : AuditFilter) : f.select.skipped (auditListQuery f).2 = some f.offset.toNat := by
  rw [Select.skipped, AuditFilter.select]
  split_ifs with hpos
  · have harg : argument (auditListQuery f).2 (f.tests.length + 2) = some (.int f.offset) := by
      rw [argument, auditListQuery_args, AuditFilter.offsetArgs, if_pos hpos, List.getElem?_append_right (by simp)]
      simp
    have hcount : count (auditListQuery f).2 (f.tests.length + 2) = some f.offset.toNat := by
      rw [count, harg]
      exact if_pos (le_of_lt hpos)
    exact hcount
  · rw [Int.toNat_of_nonpos (not_lt.mp hpos)]

/-- The rows that match, newest first. -/
def AuditFilter.all (fold : Char → Char) (f : AuditFilter) (rows : List AuditRecord) : List AuditRecord :=
  (rows.filter (f.selected fold)).insertionSort fun r s => Descends r.key s.key

theorem list_eq (hfold : KeepsSpecial fold) (rows : List AuditRecord) (f : AuditFilter) :
    list fold rows f = some (((f.all fold rows).drop f.offset.toNat).take (pageLimit f.limit).toNat) := by
  have hrun : run AuditRecord.column fold (auditListQuery f).2
      (fun name => if name = "admin_audit" then some rows else none) (auditListQuery f).1 =
      some ((((f.all fold rows).drop f.offset.toNat).take (pageLimit f.limit).toNat).map AuditRecord.shown) := by
    rw [run, parse_auditListQuery, Option.bind_some]
    refine Select.eval_eq (if_pos rfl) (fun r _ => ?_) (fun r _ => key_select f r) (count_limit f) (skipped_select f)
      fun r _ => shown_select f r
    rw [auditListQuery_args]
    exact selects_select hfold f r _
  have hscan (rs : List AuditRecord) : (rs.map AuditRecord.shown).mapM AuditRecord.scan = some rs := by
    rw [List.mapM_map]
    exact (PartialMap.mapM_some (g := id) fun r _ => scan_shown r).trans (congrArg some (List.map_id rs))
  rw [list]
  simp only [hrun, Option.bind_eq_bind, Option.bind_some, hscan]

theorem mem_all (hfold : KeepsSpecial fold) : r ∈ f.all fold rows ↔ r ∈ rows ∧ f.Matches fold r := by
  rw [AuditFilter.all, List.mem_insertionSort, List.mem_filter, selected_iff hfold]

theorem nodup_id_all (hid : (rows.map AuditRecord.id).Nodup) : ((f.all fold rows).map AuditRecord.id).Nodup := by
  have hperm : (f.all fold rows).Perm (rows.filter (f.selected fold)) := List.perm_insertionSort _ _
  exact (hperm.map _).nodup_iff.mpr (hid.sublist (List.filter_sublist.map _))

theorem newer_of_key {s : AuditRecord} (hkey : Descends r.key s.key) (hid : r.id ≠ s.id) : Newer r s := by
  rw [AuditRecord.key, AuditRecord.key, descends_cons, descends_cons] at hkey
  rcases hkey with hat | ⟨hat, hlt | ⟨heq, -⟩⟩
  · exact .inl hat
  · exact .inr ⟨hat, hlt⟩
  · exact absurd heq.symm hid

theorem pairwise_all (hid : (rows.map AuditRecord.id).Nodup) : (f.all fold rows).Pairwise Newer := by
  have hsorted : (f.all fold rows).Pairwise fun r s => Descends r.key s.key := List.pairwise_insertionSort _ _
  have hdistinct : (f.all fold rows).Pairwise fun r s => r.id ≠ s.id :=
    List.pairwise_map.mp (nodup_id_all hid)
  exact hsorted.imp₂ (fun _ _ => newer_of_key) hdistinct

/-- The list does not depend on the order in which a scan finds the rows. -/
theorem all_perm {scan : List AuditRecord} (hid : (rows.map AuditRecord.id).Nodup) (hscan : scan.Perm rows) :
    f.all fold scan = f.all fold rows := by
  refine insertionSort_perm AuditRecord.key (hscan.filter _) fun r hr s hs hkey => ?_
  have heq : r.id = s.id := (List.cons.inj (List.cons.inj hkey).2).1
  exact List.inj_on_of_nodup_map hid (List.mem_of_mem_filter hr) (List.mem_of_mem_filter hs) heq

theorem toNat_mul_natCast (k : Nat) (n : Int) (hn : 0 ≤ n) : (k * n).toNat = k * n.toNat := by
  rw [Int.toNat_mul (Int.natCast_nonneg k) hn, Int.toNat_natCast]

theorem pageLimit_pos (limit : Int) : 0 < pageLimit limit := by
  rw [pageLimit, auditListMaxLimit]
  split_ifs <;> omega

end rows

end ThesadaApp.Audit
