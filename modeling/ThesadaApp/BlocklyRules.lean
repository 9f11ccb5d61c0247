import ThesadaApp.LuaLines
import ThesadaApp.RulesPreamble

/-!
The visual rules editor: the blocks of a saved workspace and the Lua that is generated for them. Blocks that are turned
off and comments of blocks are left out, as are blocks that are not of the editor's own.
-/

namespace ThesadaApp.Rules

/-- The options of the OP dropdowns. -/
inductive Op where
  | ge
  | le
  deriving DecidableEq, Repr

/-- The value of a number field of precision 0.1, in tenths, with the bounds of the field. -/
abbrev Tenths (lo hi : Int) := { n : Int // 10 * lo ≤ n ∧ n ≤ 10 * hi }

/-- The value of a number field of precision 1, with the bounds of the field. -/
abbrev Whole (lo hi : Nat) := { n : Nat // lo ≤ n ∧ n ≤ hi }

inductive Action where
  | notify (msg : String)
  | notifyTemp (suffix : String)
  deriving DecidableEq

inductive Condition where
  | ifTemp (sensor : String) (op : Op) (thresh : Tenths (-100) 500) (sustain : Bool)
  | ifCurrent (channel : String) (op : Op) (thresh : Tenths 0 100) (count : Whole 1 60)
  | ifBattery (pct : Whole 0 100)
  deriving DecidableEq

/-- The connections of the blocks: `thesada_notify_temp` is for a temperature condition. -/
def Condition.takes : Condition → Action → Bool
  | .ifTemp .., _ => true
  | _, .notify _ => true
  | _, .notifyTemp _ => false

/-- A condition block, with its id in the workspace and the blocks in it. -/
structure Rule where
  id : String
  condition : Condition
  actions : List Action
  fits : ∀ a ∈ actions, condition.takes a = true
  deriving DecidableEq

inductive SensorEvent where
  | temperature
  | current
  | battery
  deriving DecidableEq, Repr

/-- A `thesada_on_sensor` block. -/
structure OnSensor where
  event : SensorEvent
  rules : List Rule
  deriving DecidableEq

/-- A block at the top of the workspace. -/
inductive TopBlock where
  | rulesRoot (body : List OnSensor)
  | other
  deriving DecidableEq

abbrev Workspace := List TopBlock

section texts

def Action.texts : Action → List String
  | .notify msg => [msg]
  | .notifyTemp suffix => [suffix]

def Condition.texts : Condition → List String
  | .ifTemp sensor _ _ _ => [sensor]
  | .ifCurrent channel _ _ _ => [channel]
  | .ifBattery _ => []

def Rule.texts (r : Rule) : List String := r.condition.texts ++ r.actions.flatMap Action.texts

def OnSensor.texts (h : OnSensor) : List String := h.rules.flatMap Rule.texts

def TopBlock.texts : TopBlock → List String
  | .rulesRoot body => body.flatMap OnSensor.texts
  | .other => []

/-- What the text fields of the blocks hold. -/
def Workspace.texts (ws : Workspace) : List String := ws.flatMap TopBlock.texts

end texts

/-- `replace` of every `c`. -/
def replaceAll (c : Char) (new : List Char) (cs : List Char) : List Char :=
  cs.flatMap fun d => if d = c then new else [d]

def esc (s : String) : String :=
  String.ofList (replaceAll '"' ['\\', '"'] (replaceAll '\\' ['\\', '\\'] s.toList))

def Op.text : Op → String
  | .ge => ">="
  | .le => "<="

def SensorEvent.text : SensorEvent → String
  | .temperature => "temperature"
  | .current => "current"
  | .battery => "battery"

/-- A number of tenths that is not negative. -/
def absText (n : Nat) : String :=
  if n % 10 = 0 then toString (n / 10) else toString (n / 10) ++ ("." ++ toString (n % 10))

/-- A number of tenths as JavaScript prints it. -/
def tenthsText (n : Int) : String := if n < 0 then "-" ++ absText n.natAbs else absText n.natAbs

/-- `prefixLines` of Blockly's generator. -/
def indentLines (code p : String) : String := p ++ String.ofList (Lua.indentRest p.toList code.toList)

/-- `statementToCode`, of the code of the blocks in an input. -/
def statementToCode (code : String) : String := if code = "" then "" else indentLines code "  "

def Action.toLua : Action → String
  | .notify msg => "notify(\"" ++ esc msg ++ "\", key)\n"
  | .notifyTemp suffix =>
      "local t = (unit == \"F\") and (s.temp_c * 9 / 5 + 32) or s.temp_c\n" ++
      ("notify(s.name .. \": \" .. t .. unit .. \" - " ++ esc suffix ++ "\", key)\n")

/-- The code of blocks that follow one another. -/
def blocksToCode {β : Type} (toLua : β → String) : List β → String
  | [] => ""
  | b :: bs => toLua b ++ blocksToCode toLua bs

def tempKey (sensor : String) (op : Op) (thresh : Int) : String :=
  "temp:" ++ sensor ++ ":" ++ op.text ++ tenthsText thresh

def currentKey (channel : String) (op : Op) (thresh : Int) (count : Nat) : String :=
  "current:" ++ channel ++ ":" ++ op.text ++ tenthsText thresh ++ ":" ++ toString count

def ifTempToLua (sensor : String) (op : Op) (thresh : Int) (sustain : Bool) (branch : String) : String :=
  let sensor := esc sensor
  let keyLit := tempKey sensor op thresh
  if sustain then
    "for _, s in ipairs(data.sensors) do\n" ++
    ("  if s.name == \"" ++ sensor ++ "\" then\n") ++
    ("    local key = \"" ++ keyLit ++ "\"\n") ++
    ("    if temp_streak(key, s.temp_c ~= nil and s.temp_c " ++ op.text ++ " " ++ tenthsText thresh ++ ") then\n") ++
    branch ++
    "    end\n  end\nend\n"
  else
    "for _, s in ipairs(data.sensors) do\n" ++
    ("  if s.name == \"" ++ sensor ++
      ("\" and s.temp_c ~= nil and s.temp_c " ++ op.text ++ " " ++ tenthsText thresh ++ " then\n")) ++
    ("    local key = \"" ++ keyLit ++ "\"\n") ++
    "    if can_alert(key) then\n" ++
    branch ++
    "    end\n  end\nend\n"

def ifCurrentToLua (channel : String) (op : Op) (thresh : Int) (count : Nat) (branch : String) : String :=
  let ch := esc channel
  let keyLit := currentKey ch op thresh count
  "for _, ch in ipairs(data.channels) do\n" ++
  ("  if ch.name == \"" ++ ch ++ "\" then\n") ++
  ("    local key = \"" ++ keyLit ++ "\"\n") ++
  ("    if ch.current_a ~= nil and ch.current_a " ++ op.text ++ " " ++ tenthsText thresh ++ " then\n") ++
  "      sustain[key] = (sustain[key] or 0) + 1\n" ++
  ("      if sustain[key] >= " ++ toString count ++ " and can_alert(key) then\n") ++
  branch ++
  "        sustain[key] = 0\n      end\n    else\n      sustain[key] = 0\n    end\n  end\nend\n"

def ifBatteryToLua (pct : Nat) (branch : String) : String :=
  "do\n  local pct = data.percent or -1\n" ++
  ("  if pct >= 0 and pct <= " ++ toString pct ++ " and not data.charging then\n") ++
  "    local key = \"battery_low\"\n    if can_alert(key) then\n" ++
  branch ++
  "    end\n  end\nend\n"

def Rule.toLua (r : Rule) : String :=
  let branch := statementToCode (blocksToCode Action.toLua r.actions)
  match r.condition with
  | .ifTemp sensor op thresh sustain => ifTempToLua sensor op thresh.1 sustain branch
  | .ifCurrent channel op thresh count => ifCurrentToLua channel op thresh.1 count.1 branch
  | .ifBattery pct => ifBatteryToLua pct.1 branch

def SensorEvent.guard : SensorEvent → String
  | .temperature => "  if not data.sensors then return end\n"
  | .current => "  if not data.channels then return end\n"
  | .battery => "  if not data.present then return end\n"

def OnSensor.toLua (h : OnSensor) : String :=
  let branch := statementToCode (blocksToCode Rule.toLua h.rules)
  ("EventBus.subscribe(\"" ++ h.event.text ++ "\", function(data)\n") ++ h.event.guard ++ branch ++ "end)\n"

/-- The code of a top block, `none` where it is not generated. -/
def TopBlock.toLua : TopBlock → Option String
  | .rulesRoot body =>
      let code := statementToCode (blocksToCode OnSensor.toLua body)
      if code = "" then none else some code
  | .other => none

/-- The line breaks at the end of the program are one. -/
def trimBreaks (cs : List Char) : List Char :=
  if cs.getLast? = some '\n' then (cs.reverse.dropWhile (· = '\n')).reverse ++ ['\n'] else cs

/-- `join` with line breaks. -/
def joinLines : List String → String
  | [] => ""
  | [code] => code
  | code :: codes => code ++ "\n" ++ joinLines codes

def generateLua (workspace : Workspace) : String :=
  String.ofList (trimBreaks (preamble ++ joinLines (workspace.filterMap TopBlock.toLua)).toList)

end ThesadaApp.Rules
