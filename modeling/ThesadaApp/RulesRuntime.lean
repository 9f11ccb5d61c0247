import Mathlib.Algebra.Order.Ring.Rat
import ThesadaApp.RuleTables
import ThesadaApp.RulesVerbatim

/-!
What a generated rules file does on the device. Its subscribers are called one after another, each with the data of the
event, and a rule works on what the tables hold under its key. Whether an error in a subscriber reaches the ones after
it is left open.
-/

namespace ThesadaApp.Rules

structure SensorReading where
  name : Option String
  tempC : Option ℚ

structure ChannelReading where
  name : Option String
  currentA : Option ℚ

/-- An event with the `data` that subscribers are called with. `sent` is what `Telegram.broadcast` answers to a notify
block of a rule: the id of the rule, the number of its reading and the number of the block. It is true where there is no
Telegram. -/
structure Update where
  event : SensorEvent
  uptime : Int
  sensors : Option (List SensorReading)
  channels : Option (List ChannelReading)
  present : Bool
  percent : Option ℚ
  charging : Bool
  sent : String → Nat → Nat → Bool

def Op.holds (x y : ℚ) : Op → Bool
  | .ge => y ≤ x
  | .le => x ≤ y

/-- The guard of a subscriber lets the event pass. -/
def SensorEvent.passes (u : Update) : SensorEvent → Bool
  | .temperature => u.sensors.isSome
  | .current => u.channels.isSome
  | .battery => u.present

/-- The readings that a condition is about, each by whether it meets the condition. -/
def Condition.met (u : Update) : Condition → List Bool
  | .ifTemp sensor op thresh _ =>
      ((u.sensors.getD []).filter fun s => s.name = some sensor).map fun s =>
        s.tempC.any fun t => op.holds t (thresh.1 / 10)
  | .ifCurrent channel op thresh _ =>
      ((u.channels.getD []).filter fun ch => ch.name = some channel).map fun ch =>
        ch.currentA.any fun a => op.holds a (thresh.1 / 10)
  | .ifBattery pct =>
      let p := u.percent.getD (-1)
      [decide (0 ≤ p) && decide (p ≤ pct.1) && !u.charging]

/-- `ipairs(nil)` is an error. -/
def Condition.fails (u : Update) : Condition → Bool
  | .ifTemp .. => u.sensors.isNone
  | .ifCurrent .. => u.channels.isNone
  | .ifBattery _ => false

def Condition.key : Condition → String
  | .ifTemp sensor op thresh _ => tempKey sensor op thresh.1
  | .ifCurrent channel op thresh count => currentKey channel op thresh.1 count.1
  | .ifBattery _ => "battery_low"

/-- A reading, to whether the rule fires its actions. -/
def Condition.check (now : Int) (met : Bool) (s : KeyState) : Condition → Bool × KeyState
  | .ifTemp _ _ _ true => tempStreak now met s
  | .ifTemp _ _ _ false => (met && canAlert now s, s)
  | .ifCurrent _ _ _ count =>
      if met then
        let s := { s with sustain := some (s.sustain.getD 0 + 1) }
        (decide (count.1 ≤ s.sustain.getD 0) && canAlert now s, s)
      else (false, { s with sustain := some 0 })
  | .ifBattery _ => (met && canAlert now s, s)

/-- What comes after the actions. -/
def Condition.fired (s : KeyState) : Condition → KeyState
  | .ifCurrent .. => { s with sustain := some 0 }
  | _ => s

/-- The actions from number `i` on: each is a `notify`, which sets the cooldown if it was sent. -/
def runActions (now : Int) (sent : Nat → Bool) : Nat → List Action → KeyState → KeyState
  | _, [], s => s
  | i, _ :: actions, s => runActions now sent (i + 1) actions (if sent i then setCooldown now s else s)

/-- A rule fired its actions: at which uptime, and at which of its readings. -/
structure Firing where
  rule : String
  uptime : Int
  reading : Nat
  deriving DecidableEq

def Rule.key (r : Rule) : String := r.condition.key

/-- The rule at its reading `i`. -/
def Rule.read (r : Rule) (now : Int) (sent : Nat → Bool) (i : Nat) (met : Bool) (s : KeyState) :
    KeyState × List Firing :=
  let checked := r.condition.check now met s
  if checked.1 then (r.condition.fired (runActions now sent 0 r.actions checked.2), [⟨r.id, now, i⟩])
  else (checked.2, [])

/-- The rule at its readings from number `i` on. -/
def Rule.readAll (r : Rule) (now : Int) (sent : Nat → Nat → Bool) : Nat → List Bool → KeyState → KeyState × List Firing
  | _, [], s => (s, [])
  | i, met :: rest, s =>
      let first := r.read now (sent i) i met s
      let after := r.readAll now sent (i + 1) rest first.1
      (after.1, first.2 ++ after.2)

/-- The tables, and the firings so far. -/
structure RunState where
  tables : RuleTables
  fired : List Firing

def RunState.initial : RunState := ⟨.empty, []⟩

def Rule.run (u : Update) (r : Rule) (st : RunState) : RunState :=
  let out := r.readAll u.uptime (u.sent r.id) 0 (r.condition.met u) (st.tables r.key)
  ⟨Function.update st.tables r.key out.1, st.fired ++ out.2⟩

def TopBlock.handlers : TopBlock → List OnSensor
  | .rulesRoot body => body
  | .other => []

/-- The subscribers, in the order of the program. -/
def Workspace.handlers (ws : Workspace) : List OnSensor := ws.flatMap TopBlock.handlers

def Workspace.rules (ws : Workspace) : List Rule := ws.handlers.flatMap OnSensor.rules

/-- The rules that an event gets to, in order. An error ends the subscriber that it is in, and those after it as well
where it is not `contained`. -/
def reached (contained : Bool) (u : Update) : List OnSensor → List Rule
  | [] => []
  | h :: hs =>
      if h.event = u.event ∧ h.event.passes u = true then
        h.rules.takeWhile (fun r => !r.condition.fails u) ++
          if contained = false ∧ h.rules.any (fun r => r.condition.fails u) = true then [] else reached contained u hs
      else reached contained u hs

def publish (contained : Bool) (ws : Workspace) (st : RunState) (u : Update) : RunState :=
  (reached contained u ws.handlers).foldl (fun st r => r.run u st) st

def runProgram (contained : Bool) (ws : Workspace) (us : List Update) : RunState :=
  us.foldl (publish contained ws) .initial

/-- The device can read the file. -/
def Workspace.loads (ws : Workspace) : Bool := (Lua.lex (generateLua ws).toList).isSome

/-- When the rule with the id fired. A file that is not read runs nothing. -/
def firings (contained : Bool) (ws : Workspace) (id : String) (us : List Update) : List Firing :=
  if ws.loads then (runProgram contained ws us).fired.filter fun f => f.rule = id else []

/-- A workspace as Blockly keeps it: no two blocks have the same id. -/
structure Saved where
  blocks : Workspace
  ids_nodup : (blocks.rules.map Rule.id).Nodup

end ThesadaApp.Rules
