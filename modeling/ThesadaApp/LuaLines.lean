import ThesadaApp.LuaLexer

/-!
Code that is put together from lines. What is read line by line may be joined and indented, and so may code in which a
quoted string is broken by the end of a line, which is not read at all.
-/

namespace Lua

/-- Code that is read line by line. -/
inductive Lines : List Char → List Token → Prop
  | nil : Lines [] []
  | cons {line cs : List Char} {ts ts' : List Token} (hline : '\n' ∉ line)
      (hrun : run .start (line ++ ['\n']) = some (.start, ts)) (hrest : Lines cs ts') :
      Lines (line ++ '\n' :: cs) (ts ++ ts')

/-- Reads line by line: the lines after `line`, which is the part of one that was passed. -/
def readLines (line : List Char) : List Char → Option (List Token)
  | [] => if line = [] then some [] else none
  | c :: cs =>
      if c = '\n' then
        (run .start (line ++ [c])).bind fun r =>
          if r.1 = .start then (readLines [] cs).map fun ts => r.2 ++ ts else none
      else readLines (line ++ [c]) cs

/-- Lines, and then a quoted string in a line that ends before it. -/
structure Broken (cs : List Char) : Prop where
  split : ∃ pre line post c ts acc ts', cs = pre ++ line ++ c :: post ∧ Lines pre ts ∧ '\n' ∉ line ∧
    (c = '\n' ∨ c = '\r') ∧ run .start line = some (.string '"' acc, ts')

/-- Every line but the first is put behind `p`, as is what follows the last line. -/
def indentRest (p : List Char) : List Char → List Char
  | [] => []
  | c :: cs => if c = '\n' ∧ cs ≠ [] then c :: (p ++ indentRest p cs) else c :: indentRest p cs

/-- Code that is read line by line where `good` holds, and in which a quoted string is broken where it does not. -/
structure Reads (good : Prop) (code : String) (ts : List Token) : Prop where
  lines : good → Lines code.toList ts
  broken : ¬ good → Broken code.toList

/-- Part of a line, from where a token begins to where another may begin. -/
structure LinePart (code : String) (ts : List Token) : Prop where
  newline : '\n' ∉ code.toList
  run : run .start code.toList = some (.start, ts)

/-- The rest of a line, from where a token begins. -/
structure LineEnd (code : String) (ts : List Token) : Prop where
  newline : ∃ line, code.toList = line ++ ['\n'] ∧ '\n' ∉ line
  run : run .start code.toList = some (.start, ts)

/-- Text without the end of a line in it. -/
def OneLine (text : String) : Prop := ∀ c ∈ text.toList, c ≠ '\n' ∧ c ≠ '\r'

instance (text : String) : Decidable (OneLine text) :=
  List.decidableBAll (fun c => c ≠ '\n' ∧ c ≠ '\r') text.toList

section lines

variable {cs ds line p : List Char} {ts ts' : List Token} {text : String}

theorem Lines.run (h : Lines cs ts) : run .start cs = some (.start, ts) := by
  induction h with
  | nil => rfl
  | @cons line cs ts ts' _ hrun _ ih =>
      have hcons : line ++ '\n' :: cs = (line ++ ['\n']) ++ cs := by simp
      rw [hcons]
      exact run_trans hrun ih

theorem Lines.append (h : Lines cs ts) (h' : Lines ds ts') : Lines (cs ++ ds) (ts ++ ts') := by
  induction h with
  | nil => exact h'
  | cons hline hrun _ ih =>
      rw [List.append_assoc, List.append_assoc, List.cons_append]
      exact .cons hline hrun ih

theorem Lines.single (hline : '\n' ∉ line) (hrun : Lua.run .start (line ++ ['\n']) = some (.start, ts)) :
    Lines (line ++ ['\n']) ts := by
  have h := Lines.cons hline hrun .nil
  rwa [List.append_nil] at h

theorem lines_of_readLines (hline : '\n' ∉ line) (h : readLines line cs = some ts) : Lines (line ++ cs) ts := by
  induction cs generalizing line ts with
  | nil =>
      rw [readLines] at h
      split_ifs at h with hnil
      obtain rfl := Option.some.inj h
      rw [hnil]
      exact .nil
  | cons c cs ih =>
      rw [readLines] at h
      split_ifs at h with hc
      · subst hc
        obtain ⟨r, hrun, hr⟩ := Option.bind_eq_some_iff.mp h
        split_ifs at hr with hstart
        obtain ⟨ts', hrest, rfl⟩ := Option.map_eq_some_iff.mp hr
        refine .cons hline ?_ (ih List.not_mem_nil hrest)
        rw [hrun, ← hstart]
      · have hnext : '\n' ∉ line ++ [c] := by
          rw [List.mem_append, List.mem_singleton, not_or]
          exact ⟨hline, Ne.symm hc⟩
        have hlines := ih hnext h
        rwa [List.append_assoc] at hlines

/-- Fixed lines are read by their characters. -/
theorem Lines.of_text (hchars : String.ofList cs = text) (h : readLines [] cs = some ts) : Lines text.toList ts := by
  rw [← hchars, String.toList_ofList]
  exact lines_of_readLines List.not_mem_nil h

theorem Broken.run (h : Broken cs) : run .start cs = none := by
  obtain ⟨pre, line, post, c, ts, acc, ts', rfl, hpre, -, hc, hline⟩ := h.split
  have hstep : step (.string '"' acc) c = none := step_break (.inl rfl) hc
  rw [run_append, run_trans hpre.run hline, Option.bind_some, Lua.run, hstep]
  rfl

theorem Broken.append_left (h : Broken cs) (ds : List Char) : Broken (cs ++ ds) := by
  obtain ⟨pre, line, post, c, ts, acc, ts', rfl, hpre, hnl, hc, hline⟩ := h.split
  exact ⟨pre, line, post ++ ds, c, ts, acc, ts', by simp, hpre, hnl, hc, hline⟩

theorem Broken.append_right (h : Lines cs ts) (h' : Broken ds) : Broken (cs ++ ds) := by
  obtain ⟨pre, line, post, c, ts', acc, ts'', rfl, hpre, hnl, hc, hline⟩ := h'.split
  exact ⟨cs ++ pre, line, post, c, ts ++ ts', acc, ts'', by simp, h.append hpre, hnl, hc, hline⟩

theorem run_spaces (hp : ∀ c ∈ p, c = ' ') : Lua.run .start p = some (.start, []) := by
  induction p with
  | nil => rfl
  | cons c p ih =>
      have hc : step .start c = some (.start, []) := by
        rw [hp c List.mem_cons_self]
        rfl
      rw [Lua.run, hc, Option.bind_some, ih fun d hd => hp d (List.mem_cons_of_mem _ hd)]
      rfl

theorem newline_notMem (hp : ∀ c ∈ p, c = ' ') (hline : '\n' ∉ line) : '\n' ∉ p ++ line := by
  rw [List.mem_append, not_or]
  exact ⟨fun hmem => absurd (hp _ hmem) (by decide), hline⟩

theorem indentRest_line (hline : '\n' ∉ line) (cs : List Char) :
    indentRest p (line ++ cs) = line ++ indentRest p cs := by
  induction line with
  | nil => rfl
  | cons c line ih =>
      obtain ⟨hc, hrest⟩ := not_or.mp (mt List.mem_cons.mpr hline)
      rw [List.cons_append, indentRest, if_neg fun h => hc h.1.symm, ih hrest, List.cons_append]

theorem indentRest_newline (hne : cs ≠ []) : indentRest p ('\n' :: cs) = '\n' :: (p ++ indentRest p cs) := by
  rw [indentRest, if_pos ⟨rfl, hne⟩]

/-- Indented lines with more after them. -/
theorem Lines.indent_append (hp : ∀ c ∈ p, c = ' ') (h : Lines cs ts) :
    ∃ cs', Lines cs' ts ∧ ∀ ds, ds ≠ [] → p ++ indentRest p (cs ++ ds) = cs' ++ (p ++ indentRest p ds) := by
  induction h with
  | nil => exact ⟨[], .nil, fun _ _ => rfl⟩
  | @cons line cs ts ts' hline hrun _ ih =>
      obtain ⟨cs', hlines, hindent⟩ := ih
      have hspaces : Lua.run .start (p ++ line ++ ['\n']) = some (.start, ts) := by
        rw [List.append_assoc]
        exact run_trans (run_spaces hp) hrun
      refine ⟨p ++ line ++ '\n' :: cs', .cons (newline_notMem hp hline) hspaces hlines, fun ds hds => ?_⟩
      have hne : cs ++ ds ≠ [] := List.append_ne_nil_of_right_ne_nil cs hds
      rw [List.append_assoc, indentRest_line hline, List.cons_append, indentRest_newline hne, hindent ds hds]
      simp

theorem Lines.indent (hp : ∀ c ∈ p, c = ' ') (h : Lines cs ts) (hne : cs ≠ []) : Lines (p ++ indentRest p cs) ts := by
  induction h with
  | nil => exact absurd rfl hne
  | @cons line cs ts ts' hline hrun hrest ih =>
      have hspaces : Lua.run .start (p ++ line ++ ['\n']) = some (.start, ts) := by
        rw [List.append_assoc]
        exact run_trans (run_spaces hp) hrun
      have hnl := newline_notMem hp hline
      rw [indentRest_line hline]
      by_cases hcs : cs = []
      · subst hcs
        have hlast : indentRest p ['\n'] = ['\n'] := rfl
        rw [hlast, ← List.append_assoc]
        exact .cons hnl hspaces hrest
      · rw [indentRest_newline hcs, ← List.append_assoc]
        exact .cons hnl hspaces (ih hcs)

theorem Broken.indent (hp : ∀ c ∈ p, c = ' ') (h : Broken cs) : Broken (p ++ indentRest p cs) := by
  obtain ⟨pre, line, post, c, ts, acc, ts', rfl, hpre, hnl, hc, hline⟩ := h.split
  obtain ⟨cs', hlines, hindent⟩ := hpre.indent_append hp
  have hfirst : ∃ post', indentRest p (c :: post) = c :: post' := by
    rw [indentRest]
    split_ifs
    · exact ⟨_, rfl⟩
    · exact ⟨_, rfl⟩
  obtain ⟨post', hpost⟩ := hfirst
  refine ⟨cs', p ++ line, post', c, ts, acc, ts', ?_, hlines, newline_notMem hp hnl, hc,
    run_trans (run_spaces hp) hline⟩
  rw [List.append_assoc, hindent _ (by simp), indentRest_line hnl, hpost]
  simp

end lines

section parts

variable {good good' : Prop} {code code' text : String} {ts ts' : List Token} {cs ds : List Char} {c : Char}
  {s : LexState}

theorem toList_of_chars (hchars : String.ofList cs = text) : text.toList = cs := by
  rw [← hchars, String.toList_ofList]

theorem Reads.of_lines (h : Lines code.toList ts) : Reads True code ts := ⟨fun _ => h, fun hnot => absurd trivial hnot⟩

/-- Fixed lines are read by their characters. -/
theorem Reads.of_text (hchars : String.ofList cs = text) (h : readLines [] cs = some ts) : Reads True text ts :=
  .of_lines (.of_text hchars h)

theorem Reads.nil : Reads True "" [] := .of_lines .nil

theorem Reads.append (h : Reads good code ts) (h' : Reads good' code' ts') :
    Reads (good ∧ good') (code ++ code') (ts ++ ts') where
  lines hgood := by
    rw [String.toList_append]
    exact (h.lines hgood.1).append (h'.lines hgood.2)
  broken hbad := by
    rw [String.toList_append]
    by_cases hg : good
    · exact Broken.append_right (h.lines hg) (h'.broken fun hg' => hbad ⟨hg, hg'⟩)
    · exact (h.broken hg).append_left _

theorem Reads.congr (h : Reads good code ts) (hgood : good ↔ good') (hts : ts = ts') : Reads good' code ts' where
  lines hg := hts ▸ h.lines (hgood.mpr hg)
  broken hg := h.broken fun hg' => hg (hgood.mp hg')

theorem Broken.ne_nil (h : Broken cs) : cs ≠ [] := by
  obtain ⟨pre, line, post, c, -, -, -, rfl, -⟩ := h.split
  simp

theorem LinePart.of_text (hchars : String.ofList cs = text)
    (h : '\n' ∉ cs ∧ Lua.run .start cs = some (.start, ts)) : LinePart text ts where
  newline := by
    rw [toList_of_chars hchars]
    exact h.1
  run := run_text hchars h.2

theorem LineEnd.of_text (hchars : String.ofList cs = text)
    (h : cs.getLast? = some '\n' ∧ '\n' ∉ cs.dropLast ∧ Lua.run .start cs = some (.start, ts)) : LineEnd text ts where
  newline := by
    obtain ⟨line, hline⟩ := List.getLast?_eq_some_iff.mp h.1
    refine ⟨line, (toList_of_chars hchars).trans hline, ?_⟩
    have hdrop := h.2.1
    rwa [hline, List.dropLast_concat] at hdrop
  run := run_text hchars h.2.2

theorem LinePart.lineEnd (h : LinePart code ts) (h' : LineEnd code' ts') : LineEnd (code ++ code') (ts ++ ts') where
  newline := by
    obtain ⟨line, hline, hnl⟩ := h'.newline
    refine ⟨code.toList ++ line, by rw [String.toList_append, hline, List.append_assoc], ?_⟩
    rw [List.mem_append, not_or]
    exact ⟨h.newline, hnl⟩
  run := by
    rw [String.toList_append]
    exact run_trans h.run h'.run

theorem LineEnd.reads (h : LineEnd code ts) : Reads True code ts := by
  obtain ⟨line, hline, hnl⟩ := h.newline
  refine .of_lines ?_
  rw [hline]
  exact .single hnl (hline ▸ h.run)

/-- A character that no number goes on with. -/
def endsNumber (c : Char) : Bool := !c.isDigit && c ≠ '.' && !isWordStart c

theorem run_number (hc : endsNumber c = true) : Lua.run (.number ds) (c :: cs) =
    (Lua.run .start (c :: cs)).map fun r => (r.1, .number (String.ofList ds) :: r.2) := by
  simp only [endsNumber, Bool.and_eq_true, Bool.not_eq_true', decide_eq_true_eq] at hc
  obtain ⟨⟨hdigit, hpoint⟩, hword⟩ := hc
  have hstep : step (.number ds) c = (step .start c).map fun r => (r.1, .number (String.ofList ds) :: r.2) := by
    simp [step, endsWith, hdigit, hpoint, hword]
  rw [Lua.run, Lua.run, hstep]
  cases step .start c with
  | none => rfl
  | some r => cases hrun : Lua.run r.1 cs <;> simp [hrun]

theorem begins_digit (hc : c.isDigit = true) : begins c = some (.number [c], []) := by
  have hspace : isSpace c = false := by
    rw [Bool.eq_false_iff]
    intro h
    simp only [isSpace, Bool.or_eq_true, decide_eq_true_eq] at h
    rcases h with ((rfl | rfl) | rfl) | rfl <;> exact absurd hc (by decide)
  have hword : isWordStart c = false := by
    rw [Bool.eq_false_iff]
    intro h
    have hhigh : c.toNat ≤ 57 := (Char.isDigit_iff_toNat.mp hc).2
    rcases Bool.or_eq_true_iff.mp h with halpha | hunder
    · rcases Bool.or_eq_true_iff.mp halpha with hupper | hlower
      · have hrange : 'A'.val ≤ c.val ∧ c.val ≤ 'Z'.val := of_decide_eq_true hupper
        have hlow : 65 ≤ c.toNat := hrange.1
        omega
      · have hrange : (decide ('a'.val ≤ c.val) && decide (c.val ≤ 'z'.val)) = true := hlower
        have hlow : 97 ≤ c.toNat := of_decide_eq_true (Bool.and_eq_true_iff.mp hrange).1
        omega
    · rw [of_decide_eq_true hunder] at hc
      exact absurd hc (by decide)
  simp [begins, hspace, hword, hc]

theorem run_digits (hdigits : ∀ d ∈ cs, d.isDigit = true) :
    Lua.run (.number ds) cs = some (.number (ds ++ cs), []) := by
  induction cs generalizing ds with
  | nil => rw [Lua.run, List.append_nil]
  | cons d cs ih =>
      have hstep : step (.number ds) d = some (.number (ds ++ [d]), []) := by
        simp [step, hdigits d List.mem_cons_self]
      rw [Lua.run, hstep, Option.bind_some, ih fun e he => hdigits e (List.mem_cons_of_mem _ he)]
      simp

/-- A number may begin, after the tokens that its first digit ends. -/
def TakesDigit (s : LexState) (ts : List Token) : Prop := ∀ d, d.isDigit = true → step s d = some (.number [d], ts)

theorem takesDigit_start : TakesDigit .start [] := fun _ hd => begins_digit hd

theorem takesDigit_minus : TakesDigit (.pending '-') [symbol ['-']] := by
  intro d hd
  have hminus : d ≠ '-' := by
    rintro rfl
    exact absurd hd (by decide)
  simp [step, afterPending, endsWith, begins_digit hd, hminus]

/-- A number as it is written. -/
structure Numeral (text : String) : Prop where
  newline : '\n' ∉ text.toList
  run : ∀ s ts, TakesDigit s ts → run s text.toList = some (.number text.toList, ts)

theorem run_first_digits (hs : TakesDigit s ts) (hcs : cs ≠ []) (hdigits : ∀ d ∈ cs, d.isDigit = true) :
    Lua.run s cs = some (.number cs, ts) := by
  obtain ⟨d, cs, rfl⟩ := List.exists_cons_of_ne_nil hcs
  rw [Lua.run, hs d (hdigits d List.mem_cons_self), Option.bind_some,
    run_digits fun e he => hdigits e (List.mem_cons_of_mem _ he)]
  simp

theorem newline_notMem_digits (hdigits : ∀ d ∈ cs, d.isDigit = true) : '\n' ∉ cs :=
  fun hmem => absurd (hdigits _ hmem) (by decide)

theorem Numeral.digits (hcs : text.toList ≠ []) (hdigits : ∀ d ∈ text.toList, d.isDigit = true) : Numeral text where
  newline := newline_notMem_digits hdigits
  run _ _ hs := run_first_digits hs hcs hdigits

theorem Numeral.fraction {whole part : String} (hcs : whole.toList ≠ []) (hwhole : ∀ d ∈ whole.toList, d.isDigit = true)
    (hpart : ∀ d ∈ part.toList, d.isDigit = true) : Numeral (whole ++ ("." ++ part)) where
  newline := by
    simp only [String.toList_append, List.mem_append, not_or]
    exact ⟨newline_notMem_digits hwhole, by decide, newline_notMem_digits hpart⟩
  run s ts hs := by
    have hpoint : '.' ∉ whole.toList := fun hmem => absurd (hwhole _ hmem) (by decide)
    have hstep : Lua.run (.number whole.toList) ".".toList = some (.number (whole.toList ++ ['.']), []) := by
      show Lua.run (.number whole.toList) ['.'] = _
      simp [Lua.run, step, hpoint]
    simp only [String.toList_append]
    rw [← List.append_assoc]
    have hrun := run_trans (run_trans (run_first_digits hs hcs hwhole) hstep) (run_digits hpart)
    simpa using hrun

/-- A number in a line, with what stands before it. -/
theorem Numeral.lineEnd {pre : String} {ts₀ : List Token} (h : Numeral text) (hpre : '\n' ∉ pre.toList)
    (hrun : Lua.run .start pre.toList = some (s, ts₀)) (hs : TakesDigit s ts) (hcode : LineEnd code ts')
    (hchars : code.toList = c :: cs) (hc : endsNumber c = true) :
    LineEnd (pre ++ (text ++ code)) (ts₀ ++ (ts ++ .number text :: ts')) where
  newline := by
    obtain ⟨line, hline, hnl⟩ := hcode.newline
    refine ⟨pre.toList ++ (text.toList ++ line), ?_, ?_⟩
    · rw [String.toList_append, String.toList_append, hline, List.append_assoc, List.append_assoc]
    · simp only [List.mem_append, not_or]
      exact ⟨hpre, h.newline, hnl⟩
  run := by
    have hrest := hcode.run
    rw [hchars] at hrest
    have hnumber : Lua.run (.number text.toList) (c :: cs) = some (.start, .number text :: ts') := by
      rw [run_number hc, hrest, Option.map_some, String.ofList_toList]
    rw [String.toList_append, String.toList_append, hchars]
    exact run_trans hrun (run_trans (h.run s ts hs) hnumber)

/-- In a quoted string `written` stands for `text` where that is one line, and breaks the string where it is not. -/
structure Quotes (text written : String) : Prop where
  whole : OneLine text → '\n' ∉ written.toList ∧
    ∀ acc, Lua.run (.string '"' acc) written.toList = some (.string '"' (acc ++ text.toList), [])
  broken : ¬ OneLine text → ∃ cs c ds, written.toList = cs ++ c :: ds ∧ (c = '\n' ∨ c = '\r') ∧ '\n' ∉ cs ∧
    ∀ acc, ∃ acc', Lua.run (.string '"' acc) cs = some (.string '"' acc', [])

/-- Text that stands for itself in a quoted string. -/
def PlainText (text : String) : Prop := ∀ c ∈ text.toList, isPlain '"' c = true

instance (text : String) : Decidable (PlainText text) :=
  List.decidableBAll (fun c => isPlain '"' c = true) text.toList

theorem PlainText.newline (h : PlainText text) : '\n' ∉ text.toList := fun hmem => absurd (h _ hmem) (by decide)

theorem PlainText.append (h : PlainText code) (h' : PlainText code') : PlainText (code ++ code') := by
  intro c hc
  rw [String.toList_append, List.mem_append] at hc
  exact hc.elim (h c) (h' c)

theorem PlainText.oneLine (h : PlainText text) : OneLine text := by
  intro c hc
  have hplain := h c hc
  simp only [isPlain, Bool.and_eq_true, decide_eq_true_eq] at hplain
  exact ⟨hplain.1.2, hplain.2⟩

theorem PlainText.quotes (h : PlainText text) : Quotes text text where
  whole _ := ⟨h.newline, fun _ => run_plain h⟩
  broken hline := absurd h.oneLine hline

/-- The part of a line to where a quoted string begins. -/
def Opens (text : String) (ts : List Token) : Prop :=
  '\n' ∉ text.toList ∧ Lua.run .start text.toList = some (.string '"' [], ts)

/-- The rest of a line, from where a quoted string ends. -/
def Closes (text : String) (ts : List Token) : Prop := ∃ cs, text.toList = '"' :: cs ∧ LineEnd (String.ofList cs) ts

/-- Fixed text is read by its characters. -/
theorem Opens.of_text (hchars : String.ofList cs = text)
    (h : '\n' ∉ cs ∧ Lua.run .start cs = some (.string '"' [], ts)) : Opens text ts := by
  rw [Opens, toList_of_chars hchars]
  exact h

theorem Closes.of_text (hchars : String.ofList ('"' :: cs) = text)
    (h : cs.getLast? = some '\n' ∧ '\n' ∉ cs.dropLast ∧ Lua.run .start cs = some (.start, ts)) : Closes text ts :=
  ⟨cs, toList_of_chars hchars, .of_text rfl h⟩

/-- A line with a quoted string that is made of a fixed text, one that is written, and another fixed text. -/
theorem Reads.quoted {before after written pre tail : String} (hwritten : Quotes text written) (hopen : Opens pre ts)
    (hbefore : PlainText before) (hafter : PlainText after) (hclose : Closes tail ts') :
    Reads (OneLine text) (pre ++ (before ++ written ++ after) ++ tail) (ts ++ .string (before ++ text ++ after) :: ts')
    where
  lines hline := by
    obtain ⟨hnl, hwhole⟩ := hwritten.whole hline
    obtain ⟨cs, htail, hend⟩ := hclose
    obtain ⟨line, hrest, hnl'⟩ := hend.newline
    rw [String.toList_ofList] at hrest
    have hclose : Lua.run (.string '"' (before.toList ++ text.toList ++ after.toList)) tail.toList =
        some (.start, .string (before ++ text ++ after) :: ts') := by
      have hrun := hend.run
      rw [String.toList_ofList] at hrun
      have hquote : step (.string '"' (before.toList ++ text.toList ++ after.toList)) '"' =
          some (.start, [.string (String.ofList (before.toList ++ text.toList ++ after.toList))]) := rfl
      rw [htail, Lua.run, hquote, Option.bind_some, hrun, Option.map_some, String.ofList_append, String.ofList_append]
      simp only [String.ofList_toList, List.cons_append, List.nil_append]
    have hrun := run_trans (run_trans hopen.2 (run_trans (run_trans (run_plain hbefore) (hwhole _)) (run_plain hafter)))
      hclose
    have hcode : (pre ++ (before ++ written ++ after) ++ tail).toList =
        (pre.toList ++ (before.toList ++ written.toList ++ after.toList) ++ '"' :: line) ++ ['\n'] := by
      simp only [String.toList_append, htail, hrest, List.append_assoc, List.cons_append]
    have hcode' : (pre ++ (before ++ written ++ after) ++ tail).toList =
        pre.toList ++ (before.toList ++ written.toList ++ after.toList) ++ tail.toList := by
      simp only [String.toList_append]
    rw [hcode]
    refine .single ?_ ?_
    · simp only [List.mem_append, List.mem_cons, not_or]
      exact ⟨⟨hopen.1, ⟨hbefore.newline, hnl⟩, hafter.newline⟩, by decide, hnl'⟩
    · rw [← hcode, hcode']
      simpa using hrun
  broken hline := by
    obtain ⟨ds, c, ds', hds, hc, hnl, hrun⟩ := hwritten.broken hline
    obtain ⟨acc, hacc⟩ := hrun before.toList
    refine ⟨[], pre.toList ++ (before.toList ++ ds), ds' ++ after.toList ++ tail.toList, c, [], acc, ts ++ ([] ++ []),
      ?_, .nil, ?_, hc,
      run_trans hopen.2 (run_trans (run_plain hbefore) hacc)⟩
    · simp [String.toList_append, hds]
    · simp only [List.mem_append, not_or]
      exact ⟨hopen.1, hbefore.newline, hnl⟩

/-- A line with a quoted string that is a written text. -/
theorem Reads.quotedText {written pre tail : String} (hwritten : Quotes text written) (hopen : Opens pre ts)
    (hclose : Closes tail ts') : Reads (OneLine text) (pre ++ written ++ tail) (ts ++ .string text :: ts') := by
  have hempty : PlainText "" := by decide
  have h := Reads.quoted hwritten hopen hempty hempty hclose
  rwa [String.empty_append, String.append_empty, String.empty_append, String.append_empty] at h

end parts

end Lua
