import ThesadaApp.LuaSyntax

/-!
The preamble of a generated rules file, function by function, and the trees that its lines are the text of. The licence
comment of its header is left out.
-/

namespace ThesadaApp.Rules

open Lua

def headerText : List String :=
  ["-- generated by thesada visual rules editor",
   "",
   "Log.info(\"rules.lua loaded\")",
   "",
   "local prefix = Config.get(\"mqtt.topic_prefix\") or \"thesada/node\"",
   "local unit   = Config.get(\"temperature.unit\") or \"C\"",
   "",
   "local sustain = \x7b\x7d",
   "local cooldown = \x7b\x7d",
   "local COOLDOWN_MS = 900000",
   "local TEMP_SUSTAIN = 5",
   "local TEMP_SUSTAIN_MS = 300000",
   "local PUMP_SUSTAIN = 5",
   ""]

def canAlertText : List String :=
  ["local function can_alert(key)",
   "  local now = Node.uptime()",
   "  if cooldown[key] and (now - cooldown[key]) < COOLDOWN_MS then",
   "    return false",
   "  end",
   "  return true",
   "end",
   ""]

def setCooldownText : List String :=
  ["local function set_cooldown(key)",
   "  cooldown[key] = Node.uptime()",
   "end",
   ""]

def limitsText : List String :=
  ["-- Method calls only: string, table and math are not tables in the device Lua.",
   "-- 255 B fits the device MQTT offline queue slot.",
   "local ALERT_MAX = 255",
   "local CODE_MAX = 64",
   ""]

def jsonBodyText : List String :=
  ["-- JSON string body of s in at most max bytes, whole characters. NUL is dropped.",
   "local function json_body(s, max)",
   "  local used, full = 0, false",
   "  return (tostring(s):gsub(\".[\\128-\\191]*\", function(ch)",
   "    local b, e = ch:byte(), ch",
   "    if b == 0 then e = ch:sub(2)",
   "    elseif b == 34 or b == 92 then e = \"\\\\\" .. ch",
   "    elseif b < 32 or b == 127 then e = ([[\\u%04x]]):format(b) .. ch:sub(2) end",
   "    if full or used + #e > max then full = true return \"\" end",
   "    used = used + #e",
   "    return e",
   "  end))",
   "end",
   ""]

def alertJsonText : List String :=
  ["local function alert_json(key, msg)",
   "  local fmt = [[\x7b\"severity\":\"warn\",\"code\":\"%s\",\"message\":\"%s\"\x7d]]",
   "  local code = json_body(key, CODE_MAX)",
   "  local room = ALERT_MAX - #(fmt:format(code, \"\"))",
   "  return fmt:format(code, json_body(msg, room))",
   "end",
   ""]

def notifyText : List String :=
  ["local function notify(msg, key)",
   "  Log.warn(msg)",
   "  local ok = true",
   "  if Telegram and Telegram.broadcast then",
   "    ok = Telegram.broadcast(msg)",
   "  end",
   "  MQTT.publish(prefix .. \"/alert\", alert_json(key, msg))",
   "  if ok then set_cooldown(key) end",
   "end",
   ""]

def tempSustainedText : List String :=
  ["local temp_sustain_start = \x7b\x7d",
   "",
   "local function temp_sustained(key)",
   "  local now = Node.uptime()",
   "  sustain[key] = (sustain[key] or 0) + 1",
   "  if not temp_sustain_start[key] then temp_sustain_start[key] = now end",
   "  local elapsed = now - temp_sustain_start[key]",
   "  if sustain[key] >= TEMP_SUSTAIN or elapsed >= TEMP_SUSTAIN_MS then",
   "    sustain[key] = 0",
   "    temp_sustain_start[key] = nil",
   "    return can_alert(key)",
   "  end",
   "  return false",
   "end",
   ""]

def tempClearText : List String :=
  ["local function temp_clear(key)",
   "  sustain[key] = 0",
   "  temp_sustain_start[key] = nil",
   "end",
   ""]

def tempStreakText : List String :=
  ["-- One reading of a sustained rule. Below threshold or stale ends the streak,",
   "-- and so does a silent gap past 5 min or 3 of the shortest gaps seen.",
   "local temp_seen, temp_gap = \x7b\x7d, \x7b\x7d",
   "local function temp_streak(key, over)",
   "  local now, last = Node.uptime(), temp_seen[key]",
   "  if last then",
   "    local g, limit = now - last, TEMP_SUSTAIN_MS",
   "    if temp_gap[key] and 3 * temp_gap[key] > limit then limit = 3 * temp_gap[key] end",
   "    if g > limit then temp_clear(key) end",
   "    if not temp_gap[key] or g < temp_gap[key] then temp_gap[key] = g end",
   "  end",
   "  temp_seen[key] = now",
   "  if over then return temp_sustained(key) end",
   "  temp_clear(key)",
   "  return false",
   "end"]

/-- Lines, each with its end. -/
def unlines (ls : List String) : String := ls.foldr (fun l s => l ++ "\n" ++ s) ""

/-- `PREAMBLE`. Its last line is empty. -/
def preamble : String :=
  unlines (headerText ++ canAlertText ++ setCooldownText ++ limitsText ++ jsonBodyText ++ alertJsonText ++ notifyText ++
    tempSustainedText ++ tempClearText ++ tempStreakText)

def headerCode : List Stat :=
  [.call (.field (.name "Log") "info") (.of [.string "rules.lua loaded"]),
   .local "prefix" [] (.binary .or (.callField "Config" "get" [.string "mqtt.topic_prefix"]) (.string "thesada/node"))
     .nil,
   .local "unit" [] (.binary .or (.callField "Config" "get" [.string "temperature.unit"]) (.string "C")) .nil,
   .local "sustain" [] .table .nil,
   .local "cooldown" [] .table .nil,
   .local "COOLDOWN_MS" [] (.number "900000") .nil,
   .local "TEMP_SUSTAIN" [] (.number "5") .nil,
   .local "TEMP_SUSTAIN_MS" [] (.number "300000") .nil,
   .local "PUMP_SUSTAIN" [] (.number "5") .nil]

def uptime : Exp := .callField "Node" "uptime" []

def ret (e : Exp) : Block := .ret (.of [e])

def canAlertCode : Stat :=
  .localFunction "can_alert" ["key"] <| .of
    [.local "now" [] uptime .nil,
     .ifThen
      (.binary .and (.entry "cooldown" "key") (.binary .lt
        (.head (.paren (.binary .sub (.var "now") (.entry "cooldown" "key")))) (.var "COOLDOWN_MS")))
      (ret .false) .done]
    (ret .true)

def setCooldownCode : Stat :=
  .localFunction "set_cooldown" ["key"] <| .of [.assignIndex (.name "cooldown") (.var "key") uptime] .nil

def limitsCode : List Stat :=
  [.local "ALERT_MAX" [] (.number "255") .nil, .local "CODE_MAX" [] (.number "64") .nil]

def escapeCode : Block :=
  .of
    [.local "b" ["e"] (.method "ch" "byte" []) (.of [.var "ch"]),
     .ifThen (.binary .eq (.var "b") (.number "0")) (.of [.assign "e" (.method "ch" "sub" [.number "2"])] .nil) <|
      .elseif (.binary .or (.binary .eq (.var "b") (.number "34")) (.binary .eq (.var "b") (.number "92")))
        (.of [.assign "e" (.binary .concat (.string "\\") (.var "ch"))] .nil) <|
      .elseif (.binary .or (.binary .lt (.var "b") (.number "32")) (.binary .eq (.var "b") (.number "127")))
        (.of [.assign "e" (.binary .concat
          (.head (.method (.paren (.string "\\u%04x")) "format" (.of [.var "b"])))
          (.method "ch" "sub" [.number "2"]))] .nil)
        .done,
     .ifThen
      (.binary .or (.var "full")
        (.binary .gt (.binary .add (.var "used") (.unary .len (.var "e"))) (.var "max")))
      (.of [.assign "full" .true] (ret (.string ""))) .done,
     .assign "used" (.binary .add (.var "used") (.unary .len (.var "e")))]
    (ret (.var "e"))

def jsonBodyCode : Stat :=
  .localFunction "json_body" ["s", "max"] <| .of
    [.local "used" ["full"] (.number "0") (.of [.false])]
    (ret (.head (.paren (.head (.method (.call (.name "tostring") (.of [.var "s"])) "gsub"
      (.of [.string (String.ofList ['.', '[', Char.ofNat 128, '-', Char.ofNat 191, ']', '*']),
        .function ["ch"] escapeCode]))))))

def alertJsonCode : Stat :=
  .localFunction "alert_json" ["key", "msg"] <| .of
    [.local "fmt" [] (.string "\x7b\"severity\":\"warn\",\"code\":\"%s\",\"message\":\"%s\"\x7d") .nil,
     .local "code" [] (.call "json_body" [.var "key", .var "CODE_MAX"]) .nil,
     .local "room" [] (.binary .sub (.var "ALERT_MAX")
      (.unary .len (.head (.paren (.method "fmt" "format" [.var "code", .string ""]))))) .nil]
    (ret (.method "fmt" "format" [.var "code", .call "json_body" [.var "msg", .var "room"]]))

def notifyCode : Stat :=
  .localFunction "notify" ["msg", "key"] <| .of
    [.call (.field (.name "Log") "warn") (.of [.var "msg"]),
     .local "ok" [] .true .nil,
     .ifThen (.binary .and (.var "Telegram") (.head (.field (.name "Telegram") "broadcast")))
      (.of [.assign "ok" (.callField "Telegram" "broadcast" [.var "msg"])] .nil) .done,
     .call (.field (.name "MQTT") "publish")
      (.of [.binary .concat (.var "prefix") (.string "/alert"), .call "alert_json" [.var "key", .var "msg"]]),
     .ifThen (.var "ok") (.of [.call (.name "set_cooldown") (.of [.var "key"])] .nil) .done]
    .nil

def tempSustainedCode : List Stat :=
  [.local "temp_sustain_start" [] .table .nil,
   .localFunction "temp_sustained" ["key"] <| .of
    [.local "now" [] uptime .nil,
     .assignIndex (.name "sustain") (.var "key") (.binary .add
      (.head (.paren (.binary .or (.entry "sustain" "key") (.number "0")))) (.number "1")),
     .ifThen (.unary .not (.entry "temp_sustain_start" "key"))
      (.of [.assignIndex (.name "temp_sustain_start") (.var "key") (.var "now")] .nil) .done,
     .local "elapsed" [] (.binary .sub (.var "now") (.entry "temp_sustain_start" "key")) .nil,
     .ifThen
      (.binary .or (.binary .ge (.entry "sustain" "key") (.var "TEMP_SUSTAIN"))
        (.binary .ge (.var "elapsed") (.var "TEMP_SUSTAIN_MS")))
      (.of
        [.assignIndex (.name "sustain") (.var "key") (.number "0"),
         .assignIndex (.name "temp_sustain_start") (.var "key") .nil]
        (ret (.call "can_alert" [.var "key"]))) .done]
    (ret .false)]

def tempClearCode : Stat :=
  .localFunction "temp_clear" ["key"] <| .of
    [.assignIndex (.name "sustain") (.var "key") (.number "0"),
     .assignIndex (.name "temp_sustain_start") (.var "key") .nil]
    .nil

def tempStreakCode : List Stat :=
  [.local "temp_seen" ["temp_gap"] .table (.of [.table]),
   .localFunction "temp_streak" ["key", "over"] <| .of
    [.local "now" ["last"] uptime (.of [.entry "temp_seen" "key"]),
     .ifThen (.var "last")
      (.of
        [.local "g" ["limit"] (.binary .sub (.var "now") (.var "last")) (.of [.var "TEMP_SUSTAIN_MS"]),
         .ifThen
          (.binary .and (.entry "temp_gap" "key")
            (.binary .gt (.binary .mul (.number "3") (.entry "temp_gap" "key")) (.var "limit")))
          (.of [.assign "limit" (.binary .mul (.number "3") (.entry "temp_gap" "key"))] .nil) .done,
         .ifThen (.binary .gt (.var "g") (.var "limit"))
          (.of [.call (.name "temp_clear") (.of [.var "key"])] .nil) .done,
         .ifThen
          (.binary .or (.unary .not (.entry "temp_gap" "key")) (.binary .lt (.var "g") (.entry "temp_gap" "key")))
          (.of [.assignIndex (.name "temp_gap") (.var "key") (.var "g")] .nil) .done]
        .nil) .done,
     .assignIndex (.name "temp_seen") (.var "key") (.var "now"),
     .ifThen (.var "over") (ret (.call "temp_sustained" [.var "key"])) .done,
     .call (.name "temp_clear") (.of [.var "key"])]
    (ret .false)]

def preambleCode : List Stat :=
  headerCode ++ [canAlertCode, setCooldownCode] ++ limitsCode ++ [jsonBodyCode, alertJsonCode, notifyCode] ++
    tempSustainedCode ++ [tempClearCode] ++ tempStreakCode

/-- The characters of lines. -/
inductive Spelled : List (List Char) → List String → Prop
  | nil : Spelled [] []
  | cons {cs : List Char} {l : String} {css : List (List Char)} {ls : List String} (h : String.ofList cs = l)
      (hrest : Spelled css ls) : Spelled (cs :: css) (l :: ls)

section lines

variable {ls ls' : List String} {css : List (List Char)} {ts ts' : List Token}

theorem unlines_append : unlines (ls ++ ls') = unlines ls ++ unlines ls' := by
  induction ls with
  | nil => simp [unlines]
  | cons l ls ih =>
      rw [List.cons_append]
      show l ++ "\n" ++ unlines (ls ++ ls') = l ++ "\n" ++ unlines ls ++ unlines ls'
      rw [ih, ← String.append_assoc]

/-- Lines are read by their characters. -/
theorem run_unlines (hchars : Spelled css ls)
    (h : run .start (css.flatMap (· ++ ['\n'])) = some (.start, ts)) :
    run .start (unlines ls).toList = some (.start, ts) := by
  have htext : (unlines ls).toList = css.flatMap (· ++ ['\n']) := by
    clear h
    induction hchars with
    | nil => rfl
    | @cons cs l css ls hl _ ih =>
        subst hl
        show (String.ofList cs ++ "\n" ++ unlines ls).toList = _
        rw [String.toList_append, String.toList_append, String.toList_ofList, ih]
        rfl
  rw [htext]
  exact h

/-- Parts that are each read to their end are read one after another. -/
theorem run_parts {parts : List (List String × List Stat)}
    (h : ∀ p ∈ parts, run .start (unlines p.1).toList = some (.start, p.2.flatMap Stat.tokens)) :
    run .start (unlines (parts.flatMap Prod.fst)).toList =
      some (.start, (parts.flatMap Prod.snd).flatMap Stat.tokens) := by
  induction parts with
  | nil => rfl
  | cons p parts ih =>
      obtain ⟨hp, hparts⟩ := List.forall_mem_cons.mp h
      rw [List.flatMap_cons, List.flatMap_cons, unlines_append, String.toList_append, List.flatMap_append]
      exact run_trans hp (ih hparts)

end lines

/-- The functions of the preamble, with their trees. -/
def preambleParts : List (List String × List Stat) :=
  [(headerText, headerCode), (canAlertText, [canAlertCode]), (setCooldownText, [setCooldownCode]),
   (limitsText, limitsCode), (jsonBodyText, [jsonBodyCode]), (alertJsonText, [alertJsonCode]),
   (notifyText, [notifyCode]), (tempSustainedText, tempSustainedCode), (tempClearText, [tempClearCode]),
   (tempStreakText, tempStreakCode)]

theorem run_part :
    ∀ p ∈ preambleParts, run .start (unlines p.1).toList = some (.start, p.2.flatMap Stat.tokens) := by
  simp only [preambleParts, List.forall_mem_cons]
  refine ⟨?_, ?_, ?_, ?_, ?_, ?_, ?_, ?_, ?_, ?_, fun _ h => absurd h List.not_mem_nil⟩
  all_goals exact run_unlines (by repeat' constructor) (by decide +kernel)

/-- The preamble is read as its trees. -/
theorem run_preamble : run .start preamble.toList = some (.start, preambleCode.flatMap Stat.tokens) := by
  have htext : preamble = unlines (preambleParts.flatMap Prod.fst) := by
    simp only [preamble, preambleParts, List.flatMap_cons, List.flatMap_nil, List.append_nil, List.append_assoc]
  have hcode : preambleCode = preambleParts.flatMap Prod.snd := by
    simp only [preambleCode, preambleParts, List.flatMap_cons, List.flatMap_nil, List.append_nil, List.append_assoc,
      List.cons_append, List.nil_append]
  rw [htext, hcode]
  exact run_parts run_part

end ThesadaApp.Rules
