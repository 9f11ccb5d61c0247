import ThesadaApp.BlocklyRules

/-!
What a generated rules file is read as. Every line of it is read to its end, and the texts of the blocks stand in quoted
strings, unless the end of a line is in one of them.
-/

namespace ThesadaApp.Rules

open Lua

section esc

variable {cs acc : List Char} {c : Char}

/-- What `esc` makes of a character. -/
def escChar (c : Char) : List Char := if c = '\\' then ['\\', '\\'] else if c = '"' then ['\\', '"'] else [c]

theorem esc_toList (s : String) : (esc s).toList = s.toList.flatMap escChar := by
  rw [esc, String.toList_ofList, replaceAll, replaceAll, List.flatMap_assoc]
  congr 1
  funext c
  rw [escChar]
  split_ifs with hbackslash hquote <;> simp_all

theorem newline_notMem_escChar (hc : c ≠ '\n') : '\n' ∉ escChar c := by
  rw [escChar]
  split_ifs <;> simp [Ne.symm hc]

theorem run_escChar (hc : c ≠ '\n' ∧ c ≠ '\r') :
    run (.string '"' acc) (escChar c) = some (.string '"' (acc ++ [c]), []) := by
  rw [escChar]
  split_ifs with hbackslash hquote
  · subst hbackslash
    rfl
  · subst hquote
    rfl
  · refine run_plain fun d hd => ?_
    obtain rfl := List.mem_singleton.mp hd
    simp [isPlain, hbackslash, hquote, hc]

theorem run_esc (hcs : ∀ c ∈ cs, c ≠ '\n' ∧ c ≠ '\r') :
    run (.string '"' acc) (cs.flatMap escChar) = some (.string '"' (acc ++ cs), []) := by
  induction cs generalizing acc with
  | nil => rw [List.flatMap_nil, run, List.append_nil]
  | cons c cs ih =>
      have hrest : run (.string '"' (acc ++ [c])) (cs.flatMap escChar) = some (.string '"' (acc ++ [c] ++ cs), []) :=
        ih fun d hd => hcs d (List.mem_cons_of_mem _ hd)
      rw [List.flatMap_cons, run_trans (run_escChar (hcs c List.mem_cons_self)) hrest]
      simp

theorem newline_notMem_esc (hcs : ∀ c ∈ cs, c ≠ '\n' ∧ c ≠ '\r') : '\n' ∉ cs.flatMap escChar := by
  intro hmem
  obtain ⟨c, hc, hmem⟩ := List.mem_flatMap.mp hmem
  exact newline_notMem_escChar (hcs c hc).1 hmem

/-- What comes before the first end of a line. -/
theorem exists_break (hcs : ¬ ∀ c ∈ cs, c ≠ '\n' ∧ c ≠ '\r') :
    ∃ ds c es, cs = ds ++ c :: es ∧ (c = '\n' ∨ c = '\r') ∧ ∀ d ∈ ds, d ≠ '\n' ∧ d ≠ '\r' := by
  induction cs with
  | nil => exact absurd (fun c hc => absurd hc List.not_mem_nil) hcs
  | cons c cs ih =>
      by_cases hc : c = '\n' ∨ c = '\r'
      · exact ⟨[], c, cs, rfl, hc, fun d hd => absurd hd List.not_mem_nil⟩
      · have hrest : ¬ ∀ d ∈ cs, d ≠ '\n' ∧ d ≠ '\r' := fun hall =>
          hcs (List.forall_mem_cons.mpr ⟨not_or.mp hc, hall⟩)
        obtain ⟨ds, d, es, rfl, hd, hds⟩ := ih hrest
        exact ⟨c :: ds, d, es, rfl, hd, List.forall_mem_cons.mpr ⟨not_or.mp hc, hds⟩⟩

theorem quotes_esc (text : String) : Quotes text (esc text) where
  whole hline := by
    rw [esc_toList]
    exact ⟨newline_notMem_esc hline, fun acc => run_esc hline⟩
  broken hline := by
    obtain ⟨ds, c, es, htext, hc, hds⟩ := exists_break hline
    have hchar : escChar c = [c] := by rcases hc with rfl | rfl <;> rfl
    refine ⟨ds.flatMap escChar, c, es.flatMap escChar, ?_, hc, newline_notMem_esc hds, fun acc =>
      ⟨acc ++ ds, run_esc hds⟩⟩
    rw [esc_toList, htext, List.flatMap_append, List.flatMap_cons, hchar]
    rfl

end esc

section numbers

theorem toString_ne_nil (n : Nat) : (toString n).toList ≠ [] := by
  rw [Nat.toString_eq_repr, Nat.toList_repr]
  exact Nat.toDigits_ne_nil

theorem isDigit_toString (n : Nat) : ∀ d ∈ (toString n).toList, d.isDigit = true := by
  intro d hd
  rw [Nat.toString_eq_repr, Nat.toList_repr] at hd
  exact Nat.isDigit_of_mem_toDigits (by decide) (by decide) hd

theorem numeral_toString (n : Nat) : Numeral (toString n) := .digits (toString_ne_nil n) (isDigit_toString n)

theorem numeral_absText (n : Nat) : Numeral (absText n) := by
  rw [absText]
  split_ifs
  · exact numeral_toString _
  · exact .fraction (toString_ne_nil _) (isDigit_toString _) (isDigit_toString _)

theorem plain_of_isDigit {c : Char} (hc : c.isDigit = true) : isPlain '"' c = true := by
  have hne : ∀ d : Char, d.isDigit = false → c ≠ d := by
    rintro d hd rfl
    exact absurd hc (Bool.eq_false_iff.mp hd)
  simp [isPlain, hne '"' (by decide), hne '\\' (by decide), hne '\n' (by decide), hne '\r' (by decide)]

theorem plain_toString (n : Nat) : PlainText (toString n) := fun d hd => plain_of_isDigit (isDigit_toString n d hd)

theorem plain_absText (n : Nat) : PlainText (absText n) := by
  rw [absText]
  split_ifs
  · exact plain_toString _
  · exact (plain_toString _).append (.append (by decide) (plain_toString _))

theorem plain_tenthsText (n : Int) : PlainText (tenthsText n) := by
  rw [tenthsText]
  split_ifs
  · exact .append (by decide) (plain_absText _)
  · exact plain_absText _

theorem plain_op (op : Op) : PlainText op.text := by cases op <;> decide

theorem plain_event (event : SensorEvent) : PlainText event.text := by cases event <;> decide

end numbers

def Op.binOp : Op → BinOp
  | .ge => .ge
  | .le => .le

def tenthsExp (n : Int) : Exp :=
  if n < 0 then .unary .neg (.number (absText n.natAbs)) else .number (absText n.natAbs)

/-- `x.f` -/
def fieldExp (x f : String) : Exp := .head (.field (.name x) f)

/-- The temperature in the configured unit. -/
def localTemp : Stat :=
  .local "t" []
    (.binary .or
      (.binary .and (.head (.paren (.binary .eq (.var "unit") (.string "F"))))
        (.head (.paren (.binary .add
          (.binary .div (.binary .mul (fieldExp "s" "temp_c") (.number "9")) (.number "5")) (.number "32")))))
      (fieldExp "s" "temp_c")) .nil

def notifyStat (e : Exp) : Stat := .call (.name "notify") (.of [e, .var "key"])

def Action.code : Action → List Stat
  | .notify msg => [notifyStat (.string msg)]
  | .notifyTemp suffix =>
      [localTemp,
       notifyStat (.binary .concat (.binary .concat (.binary .concat (.binary .concat
        (fieldExp "s" "name") (.string ": ")) (.var "t")) (.var "unit")) (.string (" - " ++ suffix)))]

/-- `for _, x in ipairs(data.f) do … end` -/
def forData (x f : String) (body : List Stat) : Stat :=
  .forIn "_" [x] (.call "ipairs" [fieldExp "data" f]) .nil (.of body .nil)

def ifStat (e : Exp) (body : List Stat) : Stat := .ifThen e (.of body .nil) .done

def keyStat (key : String) : Stat := .local "key" [] (.string key) .nil

def sustainZero : Stat := .assignIndex (.name "sustain") (.var "key") (.number "0")

def ifTempCode (sensor : String) (op : Op) (thresh : Int) (sustain : Bool) (branch : List Stat) : Stat :=
  let passed := Exp.binary op.binOp (fieldExp "s" "temp_c") (tenthsExp thresh)
  let known := Exp.binary .ne (fieldExp "s" "temp_c") .nil
  let named := Exp.binary .eq (fieldExp "s" "name") (.string sensor)
  let key := keyStat (tempKey sensor op thresh)
  if sustain then
    forData "s" "sensors"
      [ifStat named [key, ifStat (.call "temp_streak" [.var "key", .binary .and known passed]) branch]]
  else
    forData "s" "sensors"
      [ifStat (.binary .and (.binary .and named known) passed) [key, ifStat (.call "can_alert" [.var "key"]) branch]]

def ifCurrentCode (channel : String) (op : Op) (thresh : Int) (count : Nat) (branch : List Stat) : Stat :=
  forData "ch" "channels"
    [ifStat (.binary .eq (fieldExp "ch" "name") (.string channel))
      [keyStat (currentKey channel op thresh count),
       .ifThen
        (.binary .and (.binary .ne (fieldExp "ch" "current_a") .nil)
          (.binary op.binOp (fieldExp "ch" "current_a") (tenthsExp thresh)))
        (.of
          [.assignIndex (.name "sustain") (.var "key")
            (.binary .add (.head (.paren (.binary .or (.entry "sustain" "key") (.number "0")))) (.number "1")),
           ifStat
            (.binary .and (.binary .ge (.entry "sustain" "key") (.number (toString count)))
              (.call "can_alert" [.var "key"]))
            (branch ++ [sustainZero])]
          .nil)
        (.else (.of [sustainZero] .nil))]]

def ifBatteryCode (pct : Nat) (branch : List Stat) : Stat :=
  .doEnd <| .of
    [.local "pct" [] (.binary .or (fieldExp "data" "percent") (.unary .neg (.number "1"))) .nil,
     ifStat
      (.binary .and
        (.binary .and (.binary .ge (.var "pct") (.number "0")) (.binary .le (.var "pct") (.number (toString pct))))
        (.unary .not (fieldExp "data" "charging")))
      [keyStat "battery_low", ifStat (.call "can_alert" [.var "key"]) branch]]
    .nil

def Rule.code (r : Rule) : Stat :=
  let branch := r.actions.flatMap Action.code
  match r.condition with
  | .ifTemp sensor op thresh sustain => ifTempCode sensor op thresh.1 sustain branch
  | .ifCurrent channel op thresh count => ifCurrentCode channel op thresh.1 count.1 branch
  | .ifBattery pct => ifBatteryCode pct.1 branch

/-- What an event has to carry. -/
def SensorEvent.needs : SensorEvent → String
  | .temperature => "sensors"
  | .current => "channels"
  | .battery => "present"

def OnSensor.code (h : OnSensor) : Stat :=
  .call (.field (.name "EventBus") "subscribe") (.of
    [.string h.event.text,
     .function ["data"] (.of
      (.ifThen (.unary .not (fieldExp "data" h.event.needs)) (.ret .nil) .done :: h.rules.map Rule.code) .nil)])

def TopBlock.code : TopBlock → List Stat
  | .rulesRoot body => body.map OnSensor.code
  | .other => []

def program (ws : Workspace) : Block := .of (preambleCode ++ ws.flatMap TopBlock.code) .nil

@[simp] theorem Block.tokens_of (ss : List Stat) (last : Block) :
    (Block.of ss last).tokens = ss.flatMap Stat.tokens ++ last.tokens := by
  induction ss with
  | nil => rfl
  | cons s ss ih => 
    show s.tokens ++ (Block.of ss last).tokens = _
    rw [ih, List.flatMap_cons, List.append_assoc]

section lines

variable {n : Int} {pre rest text : String} {ts ts' : List Token} {c : Char} {cs : List Char}

theorem newline_notMem_empty : '\n' ∉ "".toList := by decide

/-- A line with a number of tenths in it, behind an operator. -/
theorem tenths_lineEnd (h : LineEnd rest ts) (hchars : rest.toList = c :: cs) (hc : endsNumber c = true) :
    LineEnd (tenthsText n ++ rest) ((tenthsExp n).tokens ++ ts) := by
  have habs := numeral_absText n.natAbs
  rw [tenthsText, tenthsExp]
  split_ifs
  · have hminus : run .start "-".toList = some (.pending '-', []) := by rfl
    have hnumber := habs.lineEnd (by decide) hminus takesDigit_minus h hchars hc
    rwa [← String.append_assoc] at hnumber
  · have hnumber := habs.lineEnd newline_notMem_empty rfl takesDigit_start h hchars hc
    rwa [String.empty_append] at hnumber

theorem nat_lineEnd {n : Nat} (h : LineEnd rest ts) (hchars : rest.toList = c :: cs) (hc : endsNumber c = true) :
    LineEnd (toString n ++ rest) (.number (toString n) :: ts) := by
  have hnumber := (numeral_toString n).lineEnd newline_notMem_empty rfl takesDigit_start h hchars hc
  rwa [String.empty_append] at hnumber

theorem op_lineEnd (op : Op) (h : LineEnd rest ts) : LineEnd (op.text ++ (" " ++ rest)) (op.binOp.token :: ts) := by
  have hop : LinePart op.text [op.binOp.token] := by
    cases op
    · exact .of_text rfl (by decide)
    · exact .of_text rfl (by decide)
  exact hop.lineEnd (LinePart.lineEnd (.of_text rfl (by decide) : LinePart " " []) h)

/-- What the fixed parts of the lines are read as. -/
structure FixedText : Prop where
  notify : Opens "notify(\"" [.name "notify", .symbol "("]
  notifyTemp : Opens "notify(s.name .. \": \" .. t .. unit .. \"" [.name "notify", .symbol "(", .name "s", .symbol ".",
    .name "name", .symbol "..", .string ": ", .symbol "..", .name "t", .symbol "..", .name "unit", .symbol ".."]
  notifyEnd : Closes "\", key)\n" [.symbol ",", .name "key", .symbol ")"]
  sensor : Opens "  if s.name == \"" [.keyword "if", .name "s", .symbol ".", .name "name", .symbol "=="]
  channel : Opens "  if ch.name == \"" [.keyword "if", .name "ch", .symbol ".", .name "name", .symbol "=="]
  nameEnd : Closes "\" then\n" [.keyword "then"]
  key : Opens "    local key = \"" [.keyword "local", .name "key", .symbol "="]
  keyEnd : Closes "\"\n" []
  streak : LinePart "    if temp_streak(key, s.temp_c ~= nil and s.temp_c " [.keyword "if", .name "temp_streak", .symbol "(",
    .name "key", .symbol ",", .name "s", .symbol ".", .name "temp_c", .symbol "~=", .keyword "nil", .keyword "and",
    .name "s", .symbol ".", .name "temp_c"]
  streakEnd : LineEnd ") then\n" [.symbol ")", .keyword "then"]
  known : LinePart " and s.temp_c ~= nil and s.temp_c " [.keyword "and", .name "s", .symbol ".", .name "temp_c",
    .symbol "~=", .keyword "nil", .keyword "and", .name "s", .symbol ".", .name "temp_c"]
  thresholdEnd : LineEnd " then\n" [.keyword "then"]
  current : LinePart "    if ch.current_a ~= nil and ch.current_a " [.keyword "if", .name "ch", .symbol ".",
    .name "current_a", .symbol "~=", .keyword "nil", .keyword "and", .name "ch", .symbol ".", .name "current_a"]
  count : LinePart "      if sustain[key] >= "
    [.keyword "if", .name "sustain", .symbol "[", .name "key", .symbol "]", .symbol ">="]
  countEnd : LineEnd " and can_alert(key) then\n"
    [.keyword "and", .name "can_alert", .symbol "(", .name "key", .symbol ")", .keyword "then"]
  percent : LinePart "  if pct >= 0 and pct <= "
    [.keyword "if", .name "pct", .symbol ">=", .number "0", .keyword "and", .name "pct", .symbol "<="]
  percentEnd : LineEnd " and not data.charging then\n"
    [.keyword "and", .keyword "not", .name "data", .symbol ".", .name "charging", .keyword "then"]
  subscribe : Opens "EventBus.subscribe(\"" [.name "EventBus", .symbol ".", .name "subscribe", .symbol "("]
  subscribeEnd : Closes "\", function(data)\n"
    [.symbol ",", .keyword "function", .symbol "(", .name "data", .symbol ")"]

-- Below, `fixedText` and `fixedLines` stand in parentheses before a field: their names with the field would wait for
-- these proofs, in every proof that uses them.
theorem fixedText : FixedText where
  notify := .of_text rfl (by decide +kernel)
  notifyTemp := .of_text rfl (by decide +kernel)
  notifyEnd := .of_text rfl (by decide +kernel)
  sensor := .of_text rfl (by decide +kernel)
  channel := .of_text rfl (by decide +kernel)
  nameEnd := .of_text rfl (by decide +kernel)
  key := .of_text rfl (by decide +kernel)
  keyEnd := .of_text rfl (by decide +kernel)
  streak := .of_text rfl (by decide +kernel)
  streakEnd := .of_text rfl (by decide +kernel)
  known := .of_text rfl (by decide +kernel)
  thresholdEnd := .of_text rfl (by decide +kernel)
  current := .of_text rfl (by decide +kernel)
  count := .of_text rfl (by decide +kernel)
  countEnd := .of_text rfl (by decide +kernel)
  percent := .of_text rfl (by decide +kernel)
  percentEnd := .of_text rfl (by decide +kernel)
  subscribe := .of_text rfl (by decide +kernel)
  subscribeEnd := .of_text rfl (by decide +kernel)

/-- What the lines without a text or a number in them are read as. -/
structure FixedLines : Prop where
  localTemp : Reads True "local t = (unit == \"F\") and (s.temp_c * 9 / 5 + 32) or s.temp_c\n" localTemp.tokens
  sensors : Reads True "for _, s in ipairs(data.sensors) do\n" [.keyword "for", .name "_", .symbol ",", .name "s",
    .keyword "in", .name "ipairs", .symbol "(", .name "data", .symbol ".", .name "sensors", .symbol ")", .keyword "do"]
  channels : Reads True "for _, ch in ipairs(data.channels) do\n" [.keyword "for", .name "_", .symbol ",", .name "ch",
    .keyword "in", .name "ipairs", .symbol "(", .name "data", .symbol ".", .name "channels", .symbol ")", .keyword "do"]
  canAlert : Reads True "    if can_alert(key) then\n"
    [.keyword "if", .name "can_alert", .symbol "(", .name "key", .symbol ")", .keyword "then"]
  sustain : Reads True "      sustain[key] = (sustain[key] or 0) + 1\n"
    [.name "sustain", .symbol "[", .name "key", .symbol "]", .symbol "=", .symbol "(", .name "sustain", .symbol "[",
      .name "key", .symbol "]", .keyword "or", .number "0", .symbol ")", .symbol "+", .number "1"]
  percent : Reads True "do\n  local pct = data.percent or -1\n"
    [.keyword "do", .keyword "local", .name "pct", .symbol "=", .name "data", .symbol ".", .name "percent",
      .keyword "or", .symbol "-", .number "1"]
  batteryKey : Reads True "    local key = \"battery_low\"\n    if can_alert(key) then\n"
    ((keyStat "battery_low").tokens ++
      ([.keyword "if", .name "can_alert", .symbol "(", .name "key", .symbol ")", .keyword "then"] : List Token))
  ends : Reads True "    end\n  end\nend\n" [.keyword "end", .keyword "end", .keyword "end"]
  currentEnds : Reads True
    "        sustain[key] = 0\n      end\n    else\n      sustain[key] = 0\n    end\n  end\nend\n"
    (sustainZero.tokens ++ ([.keyword "end", .keyword "else"] : List Token) ++ sustainZero.tokens ++
      ([.keyword "end", .keyword "end", .keyword "end"] : List Token))
  guard : ∀ event : SensorEvent, Reads True event.guard [.keyword "if", .keyword "not", .name "data", .symbol ".",
    .name event.needs, .keyword "then", .keyword "return", .keyword "end"]
  onSensorEnd : Reads True "end)\n" [.keyword "end", .symbol ")"]

theorem fixedLines : FixedLines where
  localTemp := .of_text rfl (by decide +kernel)
  sensors := .of_text rfl (by decide +kernel)
  channels := .of_text rfl (by decide +kernel)
  canAlert := .of_text rfl (by decide +kernel)
  sustain := .of_text rfl (by decide +kernel)
  percent := .of_text rfl (by decide +kernel)
  batteryKey := .of_text rfl (by decide +kernel)
  ends := .of_text rfl (by decide +kernel)
  currentEnds := .of_text rfl (by decide +kernel)
  guard event := by
    cases event
    · exact .of_text rfl (by decide +kernel)
    · exact .of_text rfl (by decide +kernel)
    · exact .of_text rfl (by decide +kernel)
  onSensorEnd := .of_text rfl (by decide +kernel)

theorem reads_action (a : Action) :
    Reads (∀ text ∈ a.texts, OneLine text) a.toLua (a.code.flatMap Stat.tokens) := by
  cases a with
  | notify msg =>
      have hline := Reads.quotedText (quotes_esc msg) (fixedText).notify (fixedText).notifyEnd
      exact hline.congr (by simp [Action.texts]) rfl
  | notifyTemp suffix =>
      have hsplit : "notify(s.name .. \": \" .. t .. unit .. \" - " =
          "notify(s.name .. \": \" .. t .. unit .. \"" ++ " - " := by rfl
      have hafter : PlainText "" := by decide
      have hbefore : PlainText " - " := by decide
      have hquoted := Reads.quoted (quotes_esc suffix) (fixedText).notifyTemp hbefore hafter (fixedText).notifyEnd
      rw [String.append_empty, String.append_empty, ← String.append_assoc, ← hsplit] at hquoted
      refine ((fixedLines).localTemp.append hquoted).congr ?_ rfl
      simp [Action.texts]

/-- The line that names a sensor. -/
theorem reads_sensor (sensor : String) : Reads (OneLine sensor) ("  if s.name == \"" ++ esc sensor ++ "\" then\n")
    (([.keyword "if", .name "s", .symbol ".", .name "name", .symbol "=="] : List Token) ++
      (.string sensor :: [.keyword "then"] : List Token)) :=
  .quotedText (quotes_esc sensor) (fixedText).sensor (fixedText).nameEnd

theorem reads_channel (channel : String) : Reads (OneLine channel) ("  if ch.name == \"" ++ esc channel ++ "\" then\n")
    (([.keyword "if", .name "ch", .symbol ".", .name "name", .symbol "=="] : List Token) ++
      (.string channel :: [.keyword "then"] : List Token)) :=
  .quotedText (quotes_esc channel) (fixedText).channel (fixedText).nameEnd

theorem reads_key {before after : String} (text : String) (hbefore : PlainText before) (hafter : PlainText after) :
    Reads (OneLine text) ("    local key = \"" ++ (before ++ esc text ++ after) ++ "\"\n")
      (keyStat (before ++ text ++ after)).tokens :=
  .quoted (quotes_esc text) (fixedText).key hbefore hafter (fixedText).keyEnd

theorem reads_tempKey (sensor : String) (op : Op) (thresh : Int) :
    Reads (OneLine sensor) ("    local key = \"" ++ tempKey (esc sensor) op thresh ++ "\"\n")
      (keyStat (tempKey sensor op thresh)).tokens := by
  have hkey : ∀ s, tempKey s op thresh = "temp:" ++ s ++ (":" ++ op.text ++ tenthsText thresh) := by
    intro s
    simp only [tempKey, String.append_assoc]
  rw [hkey, hkey]
  exact reads_key sensor (by decide) (.append (.append (by decide) (plain_op op)) (plain_tenthsText thresh))

theorem reads_currentKey (channel : String) (op : Op) (thresh : Int) (count : Nat) :
    Reads (OneLine channel) ("    local key = \"" ++ currentKey (esc channel) op thresh count ++ "\"\n")
      (keyStat (currentKey channel op thresh count)).tokens := by
  have hkey : ∀ s, currentKey s op thresh count =
      "current:" ++ s ++ (":" ++ op.text ++ tenthsText thresh ++ ":" ++ toString count) := by
    intro s
    simp only [currentKey, String.append_assoc]
  rw [hkey, hkey]
  exact reads_key channel (by decide)
    (.append (.append (.append (.append (by decide) (plain_op op)) (plain_tenthsText thresh)) (by decide))
      (plain_toString count))

/-- A comparison with a threshold, in a line. -/
theorem threshold_lineEnd {op : Op} (hpre : LinePart pre ts) (h : LineEnd rest ts') (hchars : rest.toList = c :: cs)
    (hc : endsNumber c = true) : LineEnd (pre ++ op.text ++ " " ++ tenthsText n ++ rest)
      (ts ++ op.binOp.token :: ((tenthsExp n).tokens ++ ts')) := by
  have hend := hpre.lineEnd (op_lineEnd op (tenths_lineEnd (n := n) h hchars hc))
  simpa only [String.append_assoc] using hend

theorem reads_streak (op : Op) (thresh : Int) :
    Reads True
      ("    if temp_streak(key, s.temp_c ~= nil and s.temp_c " ++ op.text ++ " " ++ tenthsText thresh ++ ") then\n")
      (([.keyword "if", .name "temp_streak", .symbol "(", .name "key", .symbol ",", .name "s", .symbol ".",
        .name "temp_c", .symbol "~=", .keyword "nil", .keyword "and", .name "s", .symbol ".", .name "temp_c"] :
          List Token) ++
        op.binOp.token :: ((tenthsExp thresh).tokens ++ ([.symbol ")", .keyword "then"] : List Token))) :=
  (threshold_lineEnd (fixedText).streak (fixedText).streakEnd (toList_of_chars rfl) (by decide)).reads

theorem reads_sensorOver (sensor : String) (op : Op) (thresh : Int) :
    Reads (OneLine sensor)
      ("  if s.name == \"" ++ esc sensor ++
        ("\" and s.temp_c ~= nil and s.temp_c " ++ op.text ++ " " ++ tenthsText thresh ++ " then\n"))
      (([.keyword "if", .name "s", .symbol ".", .name "name", .symbol "=="] : List Token) ++ Token.string sensor ::
        (([.keyword "and", .name "s", .symbol ".", .name "temp_c", .symbol "~=", .keyword "nil", .keyword "and",
          .name "s", .symbol ".", .name "temp_c"] : List Token) ++
          op.binOp.token :: ((tenthsExp thresh).tokens ++ ([.keyword "then"] : List Token)))) := by
  have hsplit : "\" and s.temp_c ~= nil and s.temp_c " = "\"" ++ " and s.temp_c ~= nil and s.temp_c " := by rfl
  have hend : LineEnd (" and s.temp_c ~= nil and s.temp_c " ++ op.text ++ " " ++ tenthsText thresh ++ " then\n") _ :=
    threshold_lineEnd (fixedText).known (fixedText).thresholdEnd (toList_of_chars rfl) (by decide)
  rw [← String.ofList_toList
    (s := " and s.temp_c ~= nil and s.temp_c " ++ op.text ++ " " ++ tenthsText thresh ++ " then\n")] at hend
  refine .quotedText (quotes_esc sensor) (fixedText).sensor ⟨_, ?_, hend⟩
  rw [hsplit]
  simp only [String.append_assoc]
  rw [String.toList_append]
  rfl

theorem reads_over (op : Op) (thresh : Int) :
    Reads True ("    if ch.current_a ~= nil and ch.current_a " ++ op.text ++ " " ++ tenthsText thresh ++ " then\n")
      (([.keyword "if", .name "ch", .symbol ".", .name "current_a", .symbol "~=", .keyword "nil", .keyword "and",
        .name "ch", .symbol ".", .name "current_a"] : List Token) ++
        op.binOp.token :: ((tenthsExp thresh).tokens ++ ([.keyword "then"] : List Token))) :=
  (threshold_lineEnd (fixedText).current (fixedText).thresholdEnd (toList_of_chars rfl) (by decide)).reads

theorem reads_count (count : Nat) :
    Reads True ("      if sustain[key] >= " ++ toString count ++ " and can_alert(key) then\n")
      (([.keyword "if", .name "sustain", .symbol "[", .name "key", .symbol "]", .symbol ">="] : List Token) ++
        (.number (toString count) :: [.keyword "and", .name "can_alert", .symbol "(", .name "key", .symbol ")",
          .keyword "then"] : List Token)) := by
  have hend := (fixedText).count.lineEnd
    (nat_lineEnd (n := count) (fixedText).countEnd (toList_of_chars rfl) (by decide))
  rw [← String.append_assoc] at hend
  exact hend.reads

theorem reads_percent (pct : Nat) :
    Reads True ("  if pct >= 0 and pct <= " ++ toString pct ++ " and not data.charging then\n")
      (([.keyword "if", .name "pct", .symbol ">=", .number "0", .keyword "and", .name "pct", .symbol "<="] :
        List Token) ++ (.number (toString pct) ::
          [.keyword "and", .keyword "not", .name "data", .symbol ".", .name "charging", .keyword "then"] :
            List Token)) := by
  have hend := (fixedText).percent.lineEnd
    (nat_lineEnd (n := pct) (fixedText).percentEnd (toList_of_chars rfl) (by decide))
  rw [← String.append_assoc] at hend
  exact hend.reads

theorem reads_statement {good : Prop} {code : String} (h : Reads good code ts) :
    Reads good (statementToCode code) ts := by
  have hspaces : ∀ c ∈ [' ', ' '], c = ' ' := by simp
  rw [statementToCode]
  split_ifs with hempty
  · rwa [← hempty]
  · have hne : code.toList ≠ [] := fun hnil => hempty (String.toList_eq_nil_iff.mp hnil)
    have hchars : (indentLines code "  ").toList = [' ', ' '] ++ indentRest [' ', ' '] code.toList := by
      rw [indentLines, String.toList_append, String.toList_ofList, String.toList_ofList]
    constructor
    · intro hg
      rw [hchars]
      exact (h.lines hg).indent hspaces hne
    · intro hg
      rw [hchars]
      exact (h.broken hg).indent hspaces

theorem reads_blocks {β : Type} {toLua : β → String} {texts : β → List String} {tokens : β → List Token}
    (h : ∀ b, Reads (∀ text ∈ texts b, OneLine text) (toLua b) (tokens b)) (bs : List β) :
    Reads (∀ text ∈ bs.flatMap texts, OneLine text) (blocksToCode toLua bs) (bs.flatMap tokens) := by
  induction bs with
  | nil => exact Reads.nil.congr (by simp) rfl
  | cons b bs ih => exact ((h b).append ih).congr (by simp [or_imp, forall_and]) rfl

-- Makes the equations once, before the proofs below ask for them side by side.
attribute [local simp] Stat.tokens Else.tokens Block.tokens Exp.tokens Head.tokens Exps.tokens Exps.more

/-- The tokens of the trees of rules. -/
theorem ifStat_tokens (e : Exp) (body : List Stat) : (ifStat e body).tokens =
    .keyword "if" :: (e.tokens ++ Token.keyword "then" :: (body.flatMap Stat.tokens ++ [Token.keyword "end"])) := by
  simp [ifStat, Stat.tokens, Else.tokens, Block.tokens]

theorem forData_tokens (x f : String) (body : List Stat) : (forData x f body).tokens =
    ([.keyword "for", .name "_", .symbol ",", .name x, .keyword "in", .name "ipairs", .symbol "(", .name "data",
      .symbol ".", .name f, .symbol ")", .keyword "do"] : List Token) ++ body.flatMap Stat.tokens ++
      ([.keyword "end"] : List Token) := by
  simp [forData, nameTokens, Stat.tokens, Exp.call, fieldExp, Exp.tokens, Head.tokens, Exps.of, Exps.tokens, Exps.more,
    Block.tokens]

theorem onSensor_tokens (h : OnSensor) : h.code.tokens =
    ([.name "EventBus", .symbol ".", .name "subscribe", .symbol "(", .string h.event.text, .symbol ",",
      .keyword "function", .symbol "(", .name "data", .symbol ")", .keyword "if", .keyword "not", .name "data",
      .symbol ".", .name h.event.needs, .keyword "then", .keyword "return", .keyword "end"] : List Token) ++
      (h.rules.map Rule.code).flatMap Stat.tokens ++ ([.keyword "end", .symbol ")"] : List Token) := by
  simp [OnSensor.code, Stat.tokens, Else.tokens, nameTokens, Exp.tokens, Head.tokens, fieldExp, Exps.of, Exps.tokens,
    Exps.more, Block.tokens, UnOp.token]

section rules

variable {good : Prop} {branch : String} {body : List Stat}

theorem reads_ifTemp (sensor : String) (op : Op) (thresh : Int) (sustain : Bool)
    (h : Reads good branch (body.flatMap Stat.tokens)) :
    Reads (OneLine sensor ∧ good) (ifTempToLua sensor op thresh sustain branch)
      (ifTempCode sensor op thresh sustain body).tokens := by
  cases sustain with
  | true =>
      refine ((((((fixedLines).sensors.append (reads_sensor sensor)).append (reads_tempKey sensor op thresh)).append
        (reads_streak op thresh)).append h).append (fixedLines).ends).congr (by tauto) ?_
      simp [ifTempCode, forData_tokens, ifStat_tokens, fieldExp, Exp.tokens, Head.tokens, Exps.tokens, Exps.more,
        Exp.call, Exp.var, Exps.of, BinOp.token]
  | false =>
      refine ((((((fixedLines).sensors.append (reads_sensorOver sensor op thresh)).append
        (reads_tempKey sensor op thresh)).append (fixedLines).canAlert).append h).append (fixedLines).ends).congr
        (by tauto) ?_
      simp [ifTempCode, forData_tokens, ifStat_tokens, fieldExp, Exp.tokens, Head.tokens, Exps.tokens, Exps.more,
        Exp.call, Exp.var, Exps.of, BinOp.token]

theorem reads_ifCurrent (channel : String) (op : Op) (thresh : Int) (count : Nat)
    (h : Reads good branch (body.flatMap Stat.tokens)) :
    Reads (OneLine channel ∧ good) (ifCurrentToLua channel op thresh count branch)
      (ifCurrentCode channel op thresh count body).tokens := by
  refine ((((((((fixedLines).channels.append (reads_channel channel)).append
    (reads_currentKey channel op thresh count)).append (reads_over op thresh)).append (fixedLines).sustain).append
    (reads_count count)).append h).append (fixedLines).currentEnds).congr (by tauto) ?_
  simp [ifCurrentCode, forData_tokens, ifStat_tokens, Stat.tokens, Else.tokens, Block.tokens, fieldExp, Exp.entry,
    Exp.tokens, Head.tokens, Exps.tokens, Exps.more, Exp.call, Exp.var, Exps.of, BinOp.token]

theorem reads_ifBattery (pct : Nat) (h : Reads good branch (body.flatMap Stat.tokens)) :
    Reads good (ifBatteryToLua pct branch) (ifBatteryCode pct body).tokens := by
  refine (((((fixedLines).percent.append (reads_percent pct)).append (fixedLines).batteryKey).append h).append
    (fixedLines).ends).congr (by tauto) ?_
  simp [ifBatteryCode, ifStat_tokens, nameTokens, Stat.tokens, Block.tokens, fieldExp, Exp.tokens, Head.tokens,
    Exps.tokens, Exps.more, Exp.call, Exp.var, Exps.of, BinOp.token, UnOp.token]

theorem reads_rule (r : Rule) : Reads (∀ text ∈ r.texts, OneLine text) r.toLua r.code.tokens := by
  obtain ⟨id, condition, actions, fits⟩ := r
  have hbranch := reads_statement (reads_blocks reads_action actions)
  have hbody : actions.flatMap (fun a => a.code.flatMap Stat.tokens) =
      (actions.flatMap Action.code).flatMap Stat.tokens :=
    List.flatMap_assoc.symm
  rw [hbody] at hbranch
  cases condition with
  | ifTemp sensor op thresh sustain =>
      exact (reads_ifTemp sensor op thresh.1 sustain hbranch).congr (by simp [Rule.texts, Condition.texts]) rfl
  | ifCurrent channel op thresh count =>
      exact (reads_ifCurrent channel op thresh.1 count.1 hbranch).congr (by simp [Rule.texts, Condition.texts]) rfl
  | ifBattery pct =>
      exact (reads_ifBattery pct.1 hbranch).congr (by simp [Rule.texts, Condition.texts]) rfl

theorem reads_onSensor (h : OnSensor) : Reads (∀ text ∈ h.texts, OneLine text) h.toLua h.code.tokens := by
  obtain ⟨event, rules⟩ := h
  have hrules := reads_statement (reads_blocks reads_rule rules)
  have hopen := Reads.quotedText (plain_event event).quotes (fixedText).subscribe (fixedText).subscribeEnd
  refine (((hopen.append ((fixedLines).guard event)).append hrules).append (fixedLines).onSensorEnd).congr ?_ ?_
  · simp [OnSensor.texts, (plain_event event).oneLine]
  · simp [onSensor_tokens, List.flatMap_map]

end rules

end lines

end ThesadaApp.Rules
