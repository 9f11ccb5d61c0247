import ThesadaApp.RulesText

/-!
A generated rules file carries the texts of its blocks: it is a program, its quoted strings are the texts as they are,
and nothing else in it depends on them. It does exactly where each text is one line.
-/

namespace ThesadaApp.Rules

open Lua

/-- The strings in the fixed lines. -/
def preambleLiterals : List String :=
  ["rules.lua loaded", "mqtt.topic_prefix", "thesada/node", "temperature.unit", "C",
    String.ofList ['.', '[', Char.ofNat 128, '-', Char.ofNat 191, ']', '*'], "\\", "\\u%04x", "",
    "\x7b\"severity\":\"warn\",\"code\":\"%s\",\"message\":\"%s\"\x7d", "", "/alert"]

section literals

def Action.literals : Action → List String
  | .notify msg => [msg]
  | .notifyTemp suffix => ["F", ": ", " - " ++ suffix]

def Condition.literals : Condition → List String
  | .ifTemp sensor op thresh _ => [sensor, tempKey sensor op thresh.1]
  | .ifCurrent channel op thresh count => [channel, currentKey channel op thresh.1 count.1]
  | .ifBattery _ => ["battery_low"]

def Rule.literals (r : Rule) : List String := r.condition.literals ++ r.actions.flatMap Action.literals

def OnSensor.literals (h : OnSensor) : List String := h.event.text :: h.rules.flatMap Rule.literals

def TopBlock.literals : TopBlock → List String
  | .rulesRoot body => body.flatMap OnSensor.literals
  | .other => []

/-- What the quoted strings are to stand for, in their order. -/
def Workspace.literals (ws : Workspace) : List String := preambleLiterals ++ ws.flatMap TopBlock.literals

end literals

section blank

def Action.blank : Action → Action
  | .notify _ => .notify ""
  | .notifyTemp _ => .notifyTemp ""

def Condition.blank : Condition → Condition
  | .ifTemp _ op thresh sustain => .ifTemp "" op thresh sustain
  | .ifCurrent _ op thresh count => .ifCurrent "" op thresh count
  | .ifBattery pct => .ifBattery pct

theorem takes_blank (c : Condition) (a : Action) : c.blank.takes a.blank = c.takes a := by cases c <;> cases a <;> rfl

def Rule.blank (r : Rule) : Rule where
  id := r.id
  condition := r.condition.blank
  actions := r.actions.map Action.blank
  fits := by
    intro b hb
    obtain ⟨a, ha, rfl⟩ := List.mem_map.mp hb
    rw [takes_blank]
    exact r.fits a ha

def OnSensor.blank (h : OnSensor) : OnSensor := ⟨h.event, h.rules.map Rule.blank⟩

def TopBlock.blank : TopBlock → TopBlock
  | .rulesRoot body => .rulesRoot (body.map OnSensor.blank)
  | .other => .other

/-- The workspace without its texts. -/
def Workspace.blank (ws : Workspace) : Workspace := ws.map TopBlock.blank

end blank

/-- What a quoted string stands for. -/
def literal? : Token → Option String
  | .string s => some s
  | _ => none

/-- A token, of a quoted string only that it is one. -/
def eraseLiteral : Token → Token
  | .string _ => .string ""
  | t => t

/-- The generated program is one, its quoted strings stand for the texts as they are, and the rest of it is the same for
all texts. -/
def Carries (ws : Workspace) : Prop :=
  ∃ ts, lex (generateLua ws).toList = some ts ∧ Valid ts ∧ ts.filterMap literal? = ws.literals ∧
    ∃ ts', lex (generateLua ws.blank).toList = some ts' ∧ ts.map eraseLiteral = ts'.map eraseLiteral

section ending

variable {cs ds p : List Char} {c : Char}

/-- The last line is not empty. -/
def EndsLine (cs : List Char) : Prop := ∃ ds c, cs = ds ++ [c, '\n'] ∧ c ≠ '\n'

theorem EndsLine.append (h : EndsLine ds) (cs : List Char) : EndsLine (cs ++ ds) := by
  obtain ⟨es, c, rfl, hc⟩ := h
  exact ⟨cs ++ es, c, by rw [List.append_assoc], hc⟩

theorem EndsLine.trimBreaks (h : EndsLine cs) : trimBreaks cs = cs := by
  obtain ⟨ds, c, rfl, hc⟩ := h
  have hlast : (ds ++ [c, '\n']).getLast? = some '\n' := by simp
  have hreverse : (ds ++ [c, '\n']).reverse = '\n' :: c :: ds.reverse := by simp
  rw [Rules.trimBreaks, if_pos hlast, hreverse, List.dropWhile_cons_of_pos (by simp),
    List.dropWhile_cons_of_neg (by simpa using hc)]
  simp

theorem EndsLine.indentRest (h : EndsLine cs) : EndsLine (indentRest p cs) := by
  obtain ⟨ds, c, rfl, hc⟩ := h
  induction ds with
  | nil => exact ⟨[], c, by simp [Lua.indentRest, hc], hc⟩
  | cons d ds ih =>
      rw [List.cons_append, Lua.indentRest]
      split_ifs
      · exact (ih.append p).append [d]
      · exact ih.append [d]

theorem EndsLine.ne_nil (h : EndsLine cs) : cs ≠ [] := by
  obtain ⟨ds, c, rfl, -⟩ := h
  simp

theorem endsLine_onSensor (h : OnSensor) : EndsLine h.toLua.toList := by
  have hchars : "end)\n".toList = ['e', 'n', 'd'] ++ [')', '\n'] := toList_of_chars rfl
  have hend : EndsLine "end)\n".toList := ⟨['e', 'n', 'd'], ')', hchars, by decide⟩
  have htext : ∃ code, h.toLua = code ++ "end)\n" := ⟨_, rfl⟩
  obtain ⟨code, hcode⟩ := htext
  rw [hcode, String.toList_append]
  exact hend.append _

theorem endsLine_blocks {β : Type} {toLua : β → String} (h : ∀ b, EndsLine (toLua b).toList) (bs : List β)
    (hbs : bs ≠ []) : EndsLine (blocksToCode toLua bs).toList := by
  induction bs with
  | nil => exact absurd rfl hbs
  | cons b bs ih =>
      rw [blocksToCode, String.toList_append]
      by_cases hnil : bs = []
      · subst hnil
        rw [blocksToCode]
        simpa using h b
      · exact (ih hnil).append _

theorem endsLine_statement {code : String} (h : EndsLine code.toList) : EndsLine (statementToCode code).toList := by
  have hne : code ≠ "" := by
    rintro rfl
    exact h.ne_nil rfl
  rw [statementToCode, if_neg hne, indentLines, String.toList_append, String.toList_ofList, String.toList_ofList]
  exact h.indentRest.append _

theorem endsLine_top {t : TopBlock} {code : String} (h : t.toLua = some code) : EndsLine code.toList := by
  cases t with
  | other => exact absurd h (by simp [TopBlock.toLua])
  | rulesRoot body =>
      simp only [TopBlock.toLua] at h
      split_ifs at h with hempty
      obtain rfl := Option.some.inj h
      have hbody : body ≠ [] := by
        rintro rfl
        exact hempty rfl
      exact endsLine_statement (endsLine_blocks endsLine_onSensor body hbody)

theorem endsLine_join {codes : List String} (hcodes : ∀ code ∈ codes, EndsLine code.toList) (hne : codes ≠ []) :
    EndsLine (joinLines codes).toList := by
  induction codes with
  | nil => exact absurd rfl hne
  | cons code codes ih =>
      cases codes with
      | nil => exact hcodes code List.mem_cons_self
      | cons code' codes =>
          rw [joinLines, String.toList_append]
          · exact (ih (fun d hd => hcodes d (List.mem_cons_of_mem _ hd)) (List.cons_ne_nil _ _)).append _
          · exact List.cons_ne_nil _ _

theorem endsLine_preamble : EndsLine preamble.toList := by
  have hlast : EndsLine (unlines ["end"]).toList := ⟨['e', 'n'], 'd', toList_of_chars rfl, by decide⟩
  have htext : tempStreakText = tempStreakText.dropLast ++ ["end"] := rfl
  rw [preamble, htext, ← List.append_assoc, unlines_append, String.toList_append]
  exact hlast.append _

theorem generateLua_toList (ws : Workspace) :
    (generateLua ws).toList = preamble.toList ++ (joinLines (ws.filterMap TopBlock.toLua)).toList := by
  have hends : EndsLine (preamble ++ joinLines (ws.filterMap TopBlock.toLua)).toList := by
    rw [String.toList_append]
    by_cases hnil : ws.filterMap TopBlock.toLua = []
    · rw [hnil, joinLines]
      simpa using endsLine_preamble
    · refine (endsLine_join (fun code hcode => ?_) hnil).append _
      obtain ⟨t, -, ht⟩ := List.mem_filterMap.mp hcode
      exact endsLine_top ht
  rw [generateLua, String.toList_ofList, hends.trimBreaks, String.toList_append]

end ending

section reads

theorem reads_top {t : TopBlock} {code : String} (h : t.toLua = some code) :
    Reads (∀ text ∈ t.texts, OneLine text) code (t.code.flatMap Stat.tokens) := by
  cases t with
  | other => exact absurd h (by simp [TopBlock.toLua])
  | rulesRoot body =>
      simp only [TopBlock.toLua] at h
      split_ifs at h with hempty
      obtain rfl := Option.some.inj h
      exact (reads_statement (reads_blocks reads_onSensor body)).congr Iff.rfl
        (by simp [TopBlock.code, List.flatMap_map])

theorem body_nil {body : List OnSensor} (h : (TopBlock.rulesRoot body).toLua = none) : body = [] := by
  by_contra hbody
  have hne := (endsLine_statement (endsLine_blocks endsLine_onSensor body hbody)).ne_nil
  simp only [TopBlock.toLua] at h
  split_ifs at h with hempty
  rw [hempty] at hne
  exact hne rfl

/-- A top block without code has no texts. -/
theorem texts_of_none {t : TopBlock} (h : t.toLua = none) : t.texts = [] ∧ t.code = [] := by
  cases t with
  | other => exact ⟨rfl, rfl⟩
  | rulesRoot body =>
      rw [body_nil h]
      exact ⟨rfl, rfl⟩

theorem reads_join (ws : Workspace) : Reads (∀ text ∈ ws.texts, OneLine text) (joinLines (ws.filterMap TopBlock.toLua))
    ((ws.flatMap TopBlock.code).flatMap Stat.tokens) := by
  induction ws with
  | nil => exact Reads.nil.congr (by simp [Workspace.texts]) rfl
  | cons t ws ih =>
      cases ht : t.toLua with
      | none =>
          obtain ⟨htexts, hcode⟩ := texts_of_none ht
          rw [List.filterMap_cons_none ht]
          exact ih.congr (by simp [Workspace.texts, htexts]) (by simp [hcode])
      | some code =>
          have hgood : ((∀ text ∈ t.texts, OneLine text) ∧ ∀ text ∈ Workspace.texts ws, OneLine text) ↔
              ∀ text ∈ Workspace.texts (t :: ws), OneLine text := by
            simp [Workspace.texts, or_imp, forall_and]
          have hbreak : Reads True "\n" [] := .of_text rfl rfl
          have happend := reads_top ht
          rw [List.filterMap_cons_some ht]
          cases hws : ws.filterMap TopBlock.toLua with
          | nil =>
              rw [hws] at ih
              have h := happend.append ih
              rw [joinLines, String.append_empty] at h
              exact h.congr hgood (by simp)
          | cons code' codes =>
              rw [hws] at ih
              rw [joinLines]
              · exact ((happend.append hbreak).append ih).congr (by rw [and_true, hgood]) (by simp)
              · exact List.cons_ne_nil _ _

end reads

theorem lex_generateLua {ws : Workspace} (h : ∀ text ∈ ws.texts, OneLine text) :
    lex (generateLua ws).toList = some (program ws).tokens := by
  rw [generateLua_toList, lex_of_run (run_trans run_preamble ((reads_join ws).lines h).run), program, Block.tokens_of,
    Block.tokens, List.append_nil, List.flatMap_append]

theorem lex_generateLua_none {ws : Workspace} (h : ¬ ∀ text ∈ ws.texts, OneLine text) :
    lex (generateLua ws).toList = none := by
  have hrest := ((reads_join ws).broken h).run
  rw [generateLua_toList, lex, run_append, run_preamble, Option.bind_some, hrest]
  rfl

section literals

variable {body body' : List Stat} {texts : List String}

/-- The strings that statements are written with. -/
def literalsOf (body : List Stat) : List String := (body.flatMap Stat.tokens).filterMap literal?

/-- What statements are written with, whatever the strings. -/
def eraseOf (body : List Stat) : List Token := (body.flatMap Stat.tokens).map eraseLiteral

theorem literalsOf_append (body body' : List Stat) :
    literalsOf (body ++ body') = literalsOf body ++ literalsOf body' := by
  rw [literalsOf, List.flatMap_append, List.filterMap_append]
  rfl

theorem literalsOf_flatMap {β : Type} {code : β → List Stat} {literals : β → List String}
    (h : ∀ b, literalsOf (code b) = literals b) (bs : List β) : literalsOf (bs.flatMap code) = bs.flatMap literals := by
  induction bs with
  | nil => rfl
  | cons b bs ih => rw [List.flatMap_cons, List.flatMap_cons, literalsOf_append, h, ih]

@[simp] theorem literal_string (s : String) : literal? (.string s) = some s := rfl

@[simp] theorem literal_name (s : String) : literal? (.name s) = none := rfl

@[simp] theorem literal_keyword (s : String) : literal? (.keyword s) = none := rfl

@[simp] theorem literal_number (s : String) : literal? (.number s) = none := rfl

@[simp] theorem literal_symbol (s : String) : literal? (.symbol s) = none := rfl

@[simp] theorem literal_binOp (op : BinOp) : literal? op.token = none := by cases op <;> rfl

@[simp] theorem literal_unOp (op : UnOp) : literal? op.token = none := by cases op <;> rfl

theorem literals_tenths (n : Int) : (tenthsExp n).tokens.filterMap literal? = [] := by
  rw [tenthsExp]
  split_ifs <;> rfl

theorem literals_action (a : Action) : literalsOf a.code = a.literals := by cases a <;> rfl

theorem literals_ifTemp (sensor : String) (op : Op) (thresh : Int) (sustain : Bool) (hbody : literalsOf body = texts) :
    literalsOf [ifTempCode sensor op thresh sustain body] = sensor :: tempKey sensor op thresh :: texts := by
  rw [literalsOf] at hbody
  cases sustain <;>
    simp [literalsOf, ifTempCode, forData_tokens, ifStat_tokens, keyStat, nameTokens, Stat.tokens, fieldExp, Exp.tokens,
      Head.tokens, Exps.tokens, Exps.more, Exp.call, Exp.var, Exps.of, literals_tenths, hbody,
      List.filterMap_cons]

theorem literals_ifCurrent (channel : String) (op : Op) (thresh : Int) (count : Nat) (hbody : literalsOf body = texts) :
    literalsOf [ifCurrentCode channel op thresh count body] =
      channel :: currentKey channel op thresh count :: texts := by
  rw [literalsOf] at hbody
  simp [literalsOf, ifCurrentCode, sustainZero, forData_tokens, ifStat_tokens, keyStat, nameTokens, Stat.tokens,
    Else.tokens,
    Block.tokens, fieldExp, Exp.entry, Exp.tokens, Head.tokens, Exps.tokens, Exps.more, Exp.call, Exp.var, Exps.of,
    literals_tenths, hbody, List.filterMap_cons]

theorem literals_ifBattery (pct : Nat) (hbody : literalsOf body = texts) :
    literalsOf [ifBatteryCode pct body] = "battery_low" :: texts := by
  rw [literalsOf] at hbody
  simp [literalsOf, ifBatteryCode, ifStat_tokens, keyStat, nameTokens, Stat.tokens, Block.tokens, fieldExp, Exp.tokens,
    Head.tokens, Exps.tokens, Exps.more, Exp.call, Exp.var, Exps.of, hbody,
    List.filterMap_cons]

theorem literals_rule (r : Rule) : literalsOf [r.code] = r.literals := by
  obtain ⟨id, condition, actions, fits⟩ := r
  have hbody := literalsOf_flatMap literals_action actions
  cases condition with
  | ifTemp sensor op thresh sustain => exact literals_ifTemp sensor op thresh.1 sustain hbody
  | ifCurrent channel op thresh count => exact literals_ifCurrent channel op thresh.1 count.1 hbody
  | ifBattery pct => exact literals_ifBattery pct.1 hbody

theorem literalsOf_map {β : Type} {code : β → Stat} {literals : β → List String}
    (h : ∀ b, literalsOf [code b] = literals b) (bs : List β) : literalsOf (bs.map code) = bs.flatMap literals := by
  rw [← literalsOf_flatMap h, List.map_eq_flatMap]

theorem literals_onSensor (h : OnSensor) : literalsOf [h.code] = h.literals := by
  obtain ⟨event, rules⟩ := h
  have hrules := literalsOf_map literals_rule rules
  rw [literalsOf] at hrules
  simp [literalsOf, onSensor_tokens, OnSensor.literals, hrules, List.filterMap_cons]

theorem literals_top (t : TopBlock) : literalsOf t.code = t.literals := by
  cases t with
  | rulesRoot body => exact literalsOf_map literals_onSensor body
  | other => rfl

theorem literals_program (ws : Workspace) : (program ws).tokens.filterMap literal? = ws.literals := by
  have hpreamble : literalsOf preambleCode = preambleLiterals := by decide +kernel
  have h := literalsOf_append preambleCode (ws.flatMap TopBlock.code)
  rw [hpreamble, literalsOf_flatMap literals_top] at h
  rw [program, Block.tokens_of, Block.tokens, List.append_nil]
  exact h

end literals

section blank

variable {body body' : List Stat}

theorem eraseOf_flatMap {β : Type} {code : β → List Stat} {blank : β → β}
    (h : ∀ b, eraseOf (code (blank b)) = eraseOf (code b))
    (bs : List β) : eraseOf ((bs.map blank).flatMap code) = eraseOf (bs.flatMap code) := by
  induction bs with
  | nil => rfl
  | cons b bs ih =>
      have hb := h b
      rw [eraseOf, eraseOf] at hb ih
      rw [eraseOf, eraseOf, List.map_cons, List.flatMap_cons, List.flatMap_cons, List.flatMap_append,
        List.flatMap_append,
        List.map_append, List.map_append, hb, ih]

theorem erase_action (a : Action) : eraseOf a.blank.code = eraseOf a.code := by cases a <;> rfl

theorem erase_rule (r : Rule) : eraseOf [r.blank.code] = eraseOf [r.code] := by
  obtain ⟨id, condition, actions, fits⟩ := r
  have hbody := eraseOf_flatMap erase_action actions
  rw [eraseOf, eraseOf] at hbody
  cases condition with
  | ifTemp sensor op thresh sustain =>
      cases sustain <;>
        simp [eraseOf, Rule.code, Rule.blank, Condition.blank, ifTempCode, forData_tokens, ifStat_tokens, keyStat,
          Stat.tokens,
          Exp.tokens, hbody, eraseLiteral]
  | ifCurrent channel op thresh count =>
      simp [eraseOf, Rule.code, Rule.blank, Condition.blank, ifCurrentCode, forData_tokens, ifStat_tokens, keyStat,
        Stat.tokens,
        Exp.tokens, Block.tokens, hbody, eraseLiteral]
  | ifBattery pct =>
      simp [eraseOf, Rule.code, Rule.blank, Condition.blank, ifBatteryCode, ifStat_tokens, Stat.tokens, Block.tokens,
        hbody]

theorem eraseOf_map {β : Type} {code : β → Stat} {blank : β → β} (h : ∀ b, eraseOf [code (blank b)] = eraseOf [code b])
    (bs : List β) : eraseOf ((bs.map blank).map code) = eraseOf (bs.map code) := by
  rw [List.map_eq_flatMap (f := code), List.map_eq_flatMap (f := code)]
  exact eraseOf_flatMap h bs

theorem erase_onSensor (h : OnSensor) : eraseOf [h.blank.code] = eraseOf [h.code] := by
  obtain ⟨event, rules⟩ := h
  have hrules := eraseOf_map erase_rule rules
  rw [eraseOf, eraseOf] at hrules
  simp only [eraseOf, List.flatMap_cons, List.flatMap_nil, List.append_nil, onSensor_tokens, OnSensor.blank,
    List.map_append,
    hrules]

theorem erase_top (t : TopBlock) : eraseOf t.blank.code = eraseOf t.code := by
  cases t with
  | rulesRoot body => exact eraseOf_map erase_onSensor body
  | other => rfl

theorem erase_program (ws : Workspace) :
    (program ws.blank).tokens.map eraseLiteral = (program ws).tokens.map eraseLiteral := by
  have h := eraseOf_flatMap erase_top ws
  rw [eraseOf, eraseOf] at h
  simp only [program, Block.tokens_of, Block.tokens, List.append_nil, List.flatMap_append, List.map_append]
  rw [Workspace.blank, h]

theorem texts_blank_action {a : Action} {text : String} (h : text ∈ a.blank.texts) : text = "" := by
  cases a <;> exact List.mem_singleton.mp h

theorem texts_blank_rule {r : Rule} {text : String} (h : text ∈ r.blank.texts) : text = "" := by
  rcases List.mem_append.mp h with hcondition | hactions
  · obtain ⟨id, condition, actions, fits⟩ := r
    cases condition with
    | ifTemp => exact List.mem_singleton.mp hcondition
    | ifCurrent => exact List.mem_singleton.mp hcondition
    | ifBattery => exact absurd hcondition List.not_mem_nil
  · obtain ⟨b, hb, htext⟩ := List.mem_flatMap.mp hactions
    obtain ⟨a, -, rfl⟩ := List.mem_map.mp hb
    exact texts_blank_action htext

theorem texts_blank {ws : Workspace} {text : String} (h : text ∈ ws.blank.texts) : text = "" := by
  obtain ⟨b, hb, htext⟩ := List.mem_flatMap.mp h
  obtain ⟨t, -, rfl⟩ := List.mem_map.mp hb
  cases t with
  | other => exact absurd htext List.not_mem_nil
  | rulesRoot body =>
      obtain ⟨c, hc, htext⟩ := List.mem_flatMap.mp htext
      obtain ⟨s, -, rfl⟩ := List.mem_map.mp hc
      obtain ⟨d, hd, htext⟩ := List.mem_flatMap.mp htext
      obtain ⟨r, -, rfl⟩ := List.mem_map.mp hd
      exact texts_blank_rule htext

theorem oneLine_blank (ws : Workspace) : ∀ text ∈ ws.blank.texts, OneLine text := by
  intro text htext
  rw [texts_blank htext]
  decide

end blank

theorem carries_of_oneLine {ws : Workspace} (h : ∀ text ∈ ws.texts, OneLine text) : Carries ws :=
  ⟨_, lex_generateLua h, ⟨program ws, rfl⟩, literals_program ws, _, lex_generateLua (oneLine_blank ws),
    (erase_program ws).symm⟩

theorem not_carries {ws : Workspace} (h : ¬ ∀ text ∈ ws.texts, OneLine text) : ¬ Carries ws := by
  rintro ⟨ts, hlex, -⟩
  rw [lex_generateLua_none h] at hlex
  cases hlex

/-- The generated program carries the texts exactly where no line ends in one of them. -/
theorem carries_iff (ws : Workspace) : Carries ws ↔ ∀ text ∈ ws.texts, OneLine text :=
  ⟨fun h => by_contra fun hnot => not_carries hnot h, carries_of_oneLine⟩

/-- A saved workspace in which a message has two lines. -/
def twoLines : Workspace :=
  [.rulesRoot [⟨.battery, [⟨"a", .ifBattery ⟨20, by decide⟩, [.notify "Battery\nlow"], by decide⟩]⟩]]

theorem not_carries_twoLines : ¬ Carries twoLines := not_carries (by decide)

end ThesadaApp.Rules
