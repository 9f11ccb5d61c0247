import Mathlib.Data.List.Basic
import Mathlib.Tactic.Common

/-!
The tokens of a Lua program, read by an automaton one character at a time. Of the lexical rules it leaves out what it
then refuses: long comments, long brackets of a level, numbers with an exponent or in hexadecimal, and the escapes `\x`,
`\z` and `\u`. A line that is read to its end leaves the automaton where it began, so a program is read line by line.
-/

namespace Lua

inductive Token where
  | name (s : String)
  | keyword (s : String)
  | number (s : String)
  | string (s : String)
  | symbol (s : String)
  deriving DecidableEq

/-- How far a token has come. -/
inductive LexState where
  | start
  | word (cs : List Char)
  | number (cs : List Char)
  | string (quote : Char) (cs : List Char)
  /-- After a backslash. -/
  | escape (quote : Char) (cs : List Char)
  /-- After a backslash and digits. -/
  | decimal (quote : Char) (cs ds : List Char)
  /-- After a character that may begin a longer symbol. -/
  | pending (c : Char)
  | dots
  /-- After `--`. -/
  | dashes
  | comment
  /-- After `[[`. -/
  | longOpen
  | long (cs : List Char)
  | longClose (cs : List Char)
  deriving DecidableEq

def isSpace (c : Char) : Bool := c = ' ' || c = '\n' || c = '\t' || c = '\r'

def isWordStart (c : Char) : Bool := c.isAlpha || c = '_'

def isWordChar (c : Char) : Bool := isWordStart c || c.isDigit

def keywords : List (List Char) :=
  [['a', 'n', 'd'], ['b', 'r', 'e', 'a', 'k'], ['d', 'o'], ['e', 'l', 's', 'e'], ['e', 'l', 's', 'e', 'i', 'f'],
    ['e', 'n', 'd'], ['f', 'a', 'l', 's', 'e'], ['f', 'o', 'r'], ['f', 'u', 'n', 'c', 't', 'i', 'o', 'n'], ['i', 'f'],
    ['i', 'n'], ['l', 'o', 'c', 'a', 'l'], ['n', 'i', 'l'], ['n', 'o', 't'], ['o', 'r'],
    ['r', 'e', 'p', 'e', 'a', 't'], ['r', 'e', 't', 'u', 'r', 'n'], ['t', 'h', 'e', 'n'], ['t', 'r', 'u', 'e'],
    ['u', 'n', 't', 'i', 'l'], ['w', 'h', 'i', 'l', 'e']]

def wordToken (cs : List Char) : Token :=
  if keywords.contains cs then .keyword (String.ofList cs) else .name (String.ofList cs)

/-- A symbol of one character that begins no longer one. -/
def isSymbol (c : Char) : Bool :=
  ['+', '*', '/', '%', '^', '#', '(', ')', '\x7b', '\x7d', ']', ';', ':', ','].contains c

/-- A symbol of one character that may begin a longer one. -/
def isPending (c : Char) : Bool := ['-', '=', '<', '>', '.', '[', '~'].contains c

def symbol (cs : List Char) : Token := .symbol (String.ofList cs)

/-- The first character of a token, or a space. -/
def begins (c : Char) : Option (LexState × List Token) :=
  if isSpace c then some (.start, [])
  else if isWordStart c then some (.word [c], [])
  else if c.isDigit then some (.number [c], [])
  else if c = '"' || c = '\'' then some (.string c [], [])
  else if isPending c then some (.pending c, [])
  else if isSymbol c then some (.start, [symbol [c]])
  else none

/-- A token ends where another begins. -/
def endsWith (t : Token) (c : Char) : Option (LexState × List Token) := (begins c).map fun r => (r.1, t :: r.2)

/-- What an escape of one character stands for. -/
def unescape (c : Char) : Option Char :=
  if c = '\\' || c = '"' || c = '\'' || c = '\n' then some c
  else if c = 'n' then some '\n'
  else if c = 't' then some '\t'
  else if c = 'r' then some '\r'
  else if c = 'a' then some (Char.ofNat 7)
  else if c = 'b' then some (Char.ofNat 8)
  else if c = 'f' then some (Char.ofNat 12)
  else if c = 'v' then some (Char.ofNat 11)
  else none

def inString (quote : Char) (cs : List Char) (c : Char) : Option (LexState × List Token) :=
  if c = quote then some (.start, [.string (String.ofList cs)])
  else if c = '\\' then some (.escape quote cs, [])
  else if c = '\n' || c = '\r' then none
  else some (.string quote (cs ++ [c]), [])

/-- The character of a decimal escape. -/
def ofDecimal (ds : List Char) : Option Char :=
  let n := ds.foldl (fun n d => 10 * n + (d.toNat - '0'.toNat)) 0
  if n < 256 then some (Char.ofNat n) else none

def afterPending (p c : Char) : Option (LexState × List Token) :=
  if p = '-' ∧ c = '-' then some (.dashes, [])
  else if p = '[' ∧ c = '[' then some (.longOpen, [])
  else if p = '.' ∧ c = '.' then some (.dots, [])
  else if p = '.' ∧ c.isDigit then some (.number ['.', c], [])
  else if (p = '=' || p = '<' || p = '>' || p = '~') ∧ c = '=' then some (.start, [symbol [p, c]])
  else if p = '~' ∨ p = '[' ∧ c = '=' then none
  else endsWith (symbol [p]) c

def step : LexState → Char → Option (LexState × List Token)
  | .start, c => begins c
  | .word cs, c => if isWordChar c then some (.word (cs ++ [c]), []) else endsWith (wordToken cs) c
  | .number cs, c =>
      if c.isDigit || c = '.' && !cs.contains '.' then some (.number (cs ++ [c]), [])
      else if isWordStart c || c = '.' then none
      else endsWith (.number (String.ofList cs)) c
  | .string quote cs, c => inString quote cs c
  | .escape quote cs, c =>
      if c.isDigit then some (.decimal quote cs [c], [])
      else (unescape c).map fun e => (.string quote (cs ++ [e]), [])
  | .decimal quote cs ds, c =>
      if c.isDigit && ds.length < 3 then some (.decimal quote cs (ds ++ [c]), [])
      else (ofDecimal ds).bind fun e => inString quote (cs ++ [e]) c
  | .pending p, c => afterPending p c
  | .dots, c => if c = '.' then some (.start, [symbol ['.', '.', '.']]) else endsWith (symbol ['.', '.']) c
  | .dashes, c => if c = '[' then none else if c = '\n' then some (.start, []) else some (.comment, [])
  | .comment, c => if c = '\n' then some (.start, []) else some (.comment, [])
  | .longOpen, c =>
      if c = ']' then some (.longClose [], []) else if c = '\n' then some (.long [], []) else some (.long [c], [])
  | .long cs, c => if c = ']' then some (.longClose cs, []) else some (.long (cs ++ [c]), [])
  | .longClose cs, c =>
      if c = ']' then some (.start, [.string (String.ofList cs)]) else some (.long (cs ++ [']', c]), [])

/-- The token that the end of the program ends. -/
def finish : LexState → Option (List Token)
  | .start | .dashes | .comment => some []
  | .word cs => some [wordToken cs]
  | .number cs => some [.number (String.ofList cs)]
  | .pending p => if p = '~' then none else some [symbol [p]]
  | .dots => some [symbol ['.', '.']]
  | .string .. | .escape .. | .decimal .. | .longOpen | .long _ | .longClose _ => none

def run : LexState → List Char → Option (LexState × List Token)
  | s, [] => some (s, [])
  | s, c :: cs => (step s c).bind fun r => (run r.1 cs).map fun r' => (r'.1, r.2 ++ r'.2)

def lex (cs : List Char) : Option (List Token) :=
  (run .start cs).bind fun r => (finish r.1).map fun ts => r.2 ++ ts

section run

variable {s s' s'' : LexState} {cs ds : List Char} {ts ts' : List Token} {text : String} {quote c : Char}

theorem run_append : run s (cs ++ ds) =
    (run s cs).bind fun r => (run r.1 ds).map fun r' => (r'.1, r.2 ++ r'.2) := by
  induction cs generalizing s with
  | nil =>
      rw [List.nil_append, run, Option.bind_some]
      cases run s ds <;> rfl
  | cons c cs ih =>
      rw [List.cons_append, run, run]
      cases step s c with
      | none => rfl
      | some r =>
          simp only [Option.bind_some, ih]
          cases run r.1 cs with
          | none => rfl
          | some r' =>
              simp only [Option.bind_some, Option.map_some]
              cases run r'.1 ds <;> simp

theorem run_trans (h : run s cs = some (s', ts)) (h' : run s' ds = some (s'', ts')) :
    run s (cs ++ ds) = some (s'', ts ++ ts') := by
  rw [run_append, h, Option.bind_some, h', Option.map_some]

/-- A text is read by its characters. -/
theorem run_text (hchars : String.ofList cs = text) (h : run s cs = some (s', ts)) :
    run s text.toList = some (s', ts) := by
  rw [← hchars, String.toList_ofList]
  exact h

theorem lex_of_run (h : run .start cs = some (.start, ts)) : lex cs = some ts := by
  rw [lex, h, Option.bind_some, finish, Option.map_some, List.append_nil]

/-- A character that stands for itself in a string. -/
def isPlain (quote c : Char) : Bool := c ≠ quote && c ≠ '\\' && c ≠ '\n' && c ≠ '\r'

theorem run_plain {acc : List Char} (h : ∀ c ∈ cs, isPlain quote c = true) :
    run (.string quote acc) cs = some (.string quote (acc ++ cs), []) := by
  induction cs generalizing acc with
  | nil => rw [run, List.append_nil]
  | cons c cs ih =>
      have hc := h c List.mem_cons_self
      simp only [isPlain, Bool.and_eq_true, decide_eq_true_eq] at hc
      obtain ⟨⟨⟨hquote, hbackslash⟩, hn⟩, hr⟩ := hc
      have hstep : step (.string quote acc) c = some (.string quote (acc ++ [c]), []) := by
        simp [step, inString, hquote, hbackslash, hn, hr]
      rw [run, hstep, Option.bind_some, ih fun d hd => h d (List.mem_cons_of_mem _ hd)]
      simp

/-- A quoted string ends at the end of the line. -/
theorem step_break {acc : List Char} (hquote : quote = '"' ∨ quote = '\'') (hc : c = '\n' ∨ c = '\r') :
    step (.string quote acc) c = none := by
  rcases hquote with rfl | rfl <;> rcases hc with rfl | rfl <;> rfl

end run

end Lua
