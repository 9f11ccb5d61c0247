import Mathlib.Data.List.Basic
import Mathlib.Data.Rat.Defs
import Mathlib.Tactic.Common

/-!
JSON: its values, the text that is written for a value, and the reader of texts. A text is scanned first, for its form
and how deep it is nested; then its numbers are rounded to float64s, of which only the round trip is assumed. A
well-formed value is read back from its text.
-/

namespace ThesadaApp

/-- A value of jsonb. It keeps each key of an object once, in an order of its own, and a number by its value. -/
inductive Json where
  | null
  | bool (b : Bool)
  | number (n : Rat)
  | string (s : String)
  | nil
  | cons (head tail : Json)
  | empty
  | field (key : String) (value rest : Json)
  deriving DecidableEq

/-- The value of a key, of an object that has it. -/
def Json.get (key : String) : Json → Option Json
  | .field k value rest => if k = key then some value else rest.get key
  | _ => none

/-- `x, _ := m[key].(string)`. -/
def Json.getString (j : Json) (key : String) : String :=
  match j.get key with
  | some (.string s) => s
  | _ => ""

/-- What decodes into a Go map. -/
def Json.isMap : Json → Bool
  | .null | .empty | .field .. => true
  | _ => false

namespace Json

/-- What is between two tokens. -/
def isBlank (c : Char) : Bool := c = ' ' || c = '\t' || c = '\n' || c = '\r'

def skip (cs : List Char) : List Char := cs.dropWhile isBlank

/-- What follows the token `c`, if it comes next. -/
def token (c : Char) (cs : List Char) : Option (List Char) :=
  match skip cs with
  | d :: ds => if d = c then some ds else none
  | [] => none

section numbers

/-- How far the reading of a number has come. -/
inductive NumState where
  | start
  | minus
  | zero
  | int
  | point
  | fraction
  | exp
  | sign
  | power
  deriving DecidableEq

def NumState.step (s : NumState) (c : Char) : Option NumState :=
  match s with
  | .start => if c = '-' then some .minus else if c = '0' then some .zero else if c.isDigit then some .int else none
  | .minus => if c = '0' then some .zero else if c.isDigit then some .int else none
  | .zero => if c = '.' then some .point else if c = 'e' ∨ c = 'E' then some .exp else none
  | .int =>
      if c.isDigit then some .int
      else if c = '.' then some .point
      else if c = 'e' ∨ c = 'E' then some .exp
      else none
  | .point => if c.isDigit then some .fraction else none
  | .fraction => if c.isDigit then some .fraction else if c = 'e' ∨ c = 'E' then some .exp else none
  | .exp => if c = '+' ∨ c = '-' then some .sign else if c.isDigit then some .power else none
  | .sign | .power => if c.isDigit then some .power else none

def NumState.accepts (s : NumState) : List Char → Bool
  | [] => s = .zero || s = .int || s = .fraction || s = .power
  | c :: cs =>
      match s.step c with
      | some s' => s'.accepts cs
      | none => false

/-- The characters of numbers and of the three words. -/
def isWord (c : Char) : Bool := c.isAlphanum || c = '-' || c = '+' || c = '.'

/-- A number whose digits are at the end of those of another one. -/
def digits (ds : List Char) : Nat := ds.foldl (fun n c => 10 * n + (c.toNat - '0'.toNat)) 0

def exponent : List Char → Int
  | '-' :: ds => -(digits ds : Int)
  | '+' :: ds => digits ds
  | ds => digits ds

/-- The number that a literal writes. -/
def decimal (literal : List Char) : Rat :=
  let mantissa := literal.takeWhile fun c => c ≠ 'e' && c ≠ 'E'
  let fraction := (mantissa.dropWhile fun c => c ≠ '.').drop 1
  let e := exponent ((literal.dropWhile fun c => c ≠ 'e' && c ≠ 'E').drop 1) - fraction.length
  let n := digits (mantissa.filter Char.isDigit)
  let magnitude := if 0 ≤ e then ((n * Nat.pow 10 e.toNat : Nat) : Rat) else mkRat n (Nat.pow 10 (-e).toNat)
  if literal.head? = some '-' then -magnitude else magnitude

/-- The numbers that a float64 holds: the nearest one, none if that is out of range, and the literal written for it, which
is read as the same one. -/
structure FloatFormat where
  round : Rat → Option Rat
  format : Rat → List Char
  format_accepted {z x : Rat} : round z = some x → NumState.start.accepts (format x) = true
  round_format {z x : Rat} : round z = some x → round (decimal (format x)) = some x

namespace FloatFormat

variable (F : FloatFormat)

/-- `strconv.ParseFloat` of a literal. -/
def parse (literal : List Char) : Option Rat := F.round (decimal literal)

/-- The float64 that stands for a number. -/
def nearest (x : Rat) : Rat := (F.round x).getD x

/-- The number that is written for a float64. -/
def written (x : Rat) : Rat := decimal (F.format x)

theorem nearest_eq {F : FloatFormat} {z x : Rat} (h : F.round z = some x) : F.nearest z = x := by
  rw [nearest, h, Option.getD_some]

theorem nearest_written {F : FloatFormat} {z x : Rat} (h : F.round z = some x) : F.nearest (F.written x) = x :=
  nearest_eq (F.round_format h)

end FloatFormat

theorem NumState.isWord_of_step {s s' : NumState} {c : Char} (h : s.step c = some s') : isWord c = true := by
  have hdigit : c.isDigit = true → isWord c = true := by
    intro hc
    simp [isWord, Char.isAlphanum, hc]
  have hpower : c = 'e' ∨ c = 'E' → isWord c = true := by
    rintro (rfl | rfl) <;> decide
  have hsign : c = '+' ∨ c = '-' → isWord c = true := by
    rintro (rfl | rfl) <;> decide
  have hpoint : c = '.' → isWord c = true := by
    rintro rfl
    decide
  have hzero : c = '0' → isWord c = true := by
    rintro rfl
    decide
  cases s <;> simp only [NumState.step] at h <;> grind

theorem NumState.isWord_of_accepts {s : NumState} {cs : List Char} (h : s.accepts cs = true) :
    ∀ c ∈ cs, isWord c = true := by
  induction cs generalizing s with
  | nil => simp
  | cons c cs ih =>
      rw [NumState.accepts] at h
      split at h
      · next s' hstep => exact List.forall_mem_cons.mpr ⟨isWord_of_step hstep, ih h⟩
      · cases h

end numbers

section strings

/-- A character of a string literal, or the code unit that an escape names. -/
inductive Piece where
  | char (c : Char)
  | unit (n : Nat)
  deriving DecidableEq

/-- What the scan of a string literal is in the middle of. -/
inductive Pending where
  | none
  | escape
  | hex (left acc : Nat)
  deriving DecidableEq

def hexDigit (c : Char) : Option Nat :=
  if '0' ≤ c ∧ c ≤ '9' then some (c.toNat - '0'.toNat)
  else if 'a' ≤ c ∧ c ≤ 'f' then some (c.toNat - 'a'.toNat + 10)
  else if 'A' ≤ c ∧ c ≤ 'F' then some (c.toNat - 'A'.toNat + 10)
  else none

def escape (c : Char) : Option Char :=
  match c with
  | '"' => some '"'
  | '\\' => some '\\'
  | '/' => some '/'
  | 'b' => some '\x08'
  | 'f' => some '\x0c'
  | 'n' => some '\n'
  | 'r' => some '\r'
  | 't' => some '\t'
  | _ => none

def push (p : Piece) (r : Option (List Piece × List Char)) : Option (List Piece × List Char) :=
  r.map fun x => (p :: x.1, x.2)

/-- The pieces up to the closing quote, and what follows it. -/
def scan : Pending → List Char → Option (List Piece × List Char)
  | _, [] => none
  | .none, c :: cs =>
      if c = '"' then some ([], cs)
      else if c = '\\' then scan .escape cs
      else if c < ' ' then none
      else push (.char c) (scan .none cs)
  | .escape, c :: cs =>
      if c = 'u' then scan (.hex 3 0) cs
      else
        match escape c with
        | some c' => push (.char c') (scan .none cs)
        | none => none
  | .hex left acc, c :: cs =>
      match hexDigit c with
      | none => none
      | some d =>
          match left with
          | 0 => push (.unit (16 * acc + d)) (scan .none cs)
          | left + 1 => scan (.hex left (16 * acc + d)) cs

def isSurrogate (n : Nat) : Bool := 0xD800 ≤ n && n < 0xE000

/-- A code unit that is not half of a pair. -/
def ofUnit (n : Nat) : Char := if isSurrogate n then Char.ofNat 0xFFFD else Char.ofNat n

/-- `utf16.DecodeRune`. -/
def decodeRune (hi lo : Nat) : Option Char :=
  if 0xD800 ≤ hi ∧ hi < 0xDC00 ∧ 0xDC00 ≤ lo ∧ lo < 0xE000 then
    some (Char.ofNat (0x10000 + (hi - 0xD800) * 0x400 + (lo - 0xDC00)))
  else none

def decode : List Piece → List Char
  | [] => []
  | .char c :: ps => c :: decode ps
  | .unit hi :: ps =>
      match ps with
      | .unit lo :: ps' =>
          match decodeRune hi lo with
          | some c => c :: decode ps'
          | none => ofUnit hi :: decode (.unit lo :: ps')
      | ps => ofUnit hi :: decode ps

/-- The string whose opening quote has been read. -/
def unquote (cs : List Char) : Option (String × List Char) :=
  (scan .none cs).map fun x => (String.ofList (decode x.1), x.2)

def hexChar (d : Nat) : Char := if d < 10 then Char.ofNat ('0'.toNat + d) else Char.ofNat ('a'.toNat + (d - 10))

def unitEscape (n : Nat) : List Char :=
  ['\\', 'u', hexChar (n / 4096 % 16), hexChar (n / 256 % 16), hexChar (n / 16 % 16), hexChar (n % 16)]

/-- A character of a string as written: HTML and the two line separators are escaped too. -/
def quoteChar (c : Char) : List Char :=
  if c = '"' ∨ c = '\\' then ['\\', c]
  else if c = '\x08' then ['\\', 'b']
  else if c = '\x0c' then ['\\', 'f']
  else if c = '\n' then ['\\', 'n']
  else if c = '\r' then ['\\', 'r']
  else if c = '\t' then ['\\', 't']
  else if c < ' ' ∨ c = '<' ∨ c = '>' ∨ c = '&' ∨ c.toNat = 0x2028 ∨ c.toNat = 0x2029 then unitEscape c.toNat
  else [c]

def quote (s : String) : List Char := '"' :: s.toList.flatMap quoteChar ++ ['"']

/-- A piece that stands for the character by itself. -/
def Piece.Plain (p : Piece) (c : Char) : Prop := p = .char c ∨ p = .unit c.toNat ∧ c.toNat < 0xD800

theorem hexDigit_hexChar {d : Nat} (hd : d < 16) : hexDigit (hexChar d) = some d := by
  have hall : ∀ d : Fin 16, hexDigit (hexChar d) = some d.val := by decide
  exact hall ⟨d, hd⟩

theorem scan_unitEscape {n : Nat} (hn : n < 0x10000) (cs : List Char) :
    scan .none (unitEscape n ++ cs) = push (.unit n) (scan .none cs) := by
  have hsum : 16 * (16 * (16 * (16 * 0 + n / 4096 % 16) + n / 256 % 16) + n / 16 % 16) + n % 16 = n := by omega
  have hdigit : ∀ m, hexDigit (hexChar (m % 16)) = some (m % 16) := fun m =>
    hexDigit_hexChar (Nat.mod_lt m (by decide))
  have hquote : ('\\' : Char) ≠ '"' := by decide
  simp only [unitEscape, List.cons_append, List.nil_append, scan, hdigit, if_neg hquote, if_true, hsum]

theorem scan_quoteChar (c : Char) (cs : List Char) :
    ∃ p : Piece, p.Plain c ∧ scan .none (quoteChar c ++ cs) = push p (scan .none cs) := by
  unfold quoteChar
  split_ifs with hquote hb hf hn hr ht hunit
  · refine ⟨.char c, .inl rfl, ?_⟩
    rcases hquote with rfl | rfl <;> simp [scan, escape]
  iterate 5
    · subst c
      exact ⟨.char _, .inl rfl, by simp [scan, escape]⟩
  · have hlow : c.toNat < 0xD800 := by
      rcases hunit with hlt | rfl | rfl | rfl | h | h
      · have hval : c.toNat < 32 := hlt
        omega
      iterate 3 decide
      all_goals omega
    exact ⟨.unit c.toNat, .inr ⟨rfl, hlow⟩, scan_unitEscape (by omega) cs⟩
  · refine ⟨.char c, .inl rfl, ?_⟩
    rw [not_or] at hquote hunit
    rw [List.singleton_append, scan, if_neg hquote.1, if_neg hquote.2, if_neg hunit.1]

theorem ofUnit_toNat {c : Char} (hc : c.toNat < 0xD800) : ofUnit c.toNat = c := by
  rw [ofUnit, if_neg, Char.ofNat_toNat]
  simp only [isSurrogate, Bool.and_eq_true, decide_eq_true_eq]
  omega

theorem decode_plain {ps : List Piece} {cs : List Char} (h : List.Forall₂ Piece.Plain ps cs) : decode ps = cs := by
  induction h with
  | nil => rfl
  | @cons p c ps cs hp hps ih =>
      rcases hp with rfl | ⟨rfl, hlow⟩
      · rw [decode, ih]
      · rw [decode.eq_def]
        -- a unit this low begins no pair
        have hpair : ∀ lo, decodeRune c.toNat lo = none := fun lo => if_neg fun hlo => by omega
        split
        · next heq => cases heq
        · next heq => cases heq
        · next heq =>
            cases heq
            cases ps with
            | nil => rw [ofUnit_toNat hlow, ← ih]
            | cons p' ps' =>
                cases p' with
                | char => simp only [ofUnit_toNat hlow, ih]
                | unit => simp only [hpair, ofUnit_toNat hlow, ih]

theorem scan_quoted (s rest : List Char) :
    ∃ ps, List.Forall₂ Piece.Plain ps s ∧ scan .none (s.flatMap quoteChar ++ '"' :: rest) = some (ps, rest) := by
  induction s with
  | nil => exact ⟨[], .nil, by simp [scan]⟩
  | cons c s ih =>
      obtain ⟨ps, hps, hscan⟩ := ih
      obtain ⟨p, hp, hstep⟩ := scan_quoteChar c (s.flatMap quoteChar ++ '"' :: rest)
      refine ⟨p :: ps, .cons hp hps, ?_⟩
      rw [List.flatMap_cons, List.append_assoc, hstep, hscan]
      rfl

theorem unquote_quoted (s : String) (rest : List Char) :
    unquote (s.toList.flatMap quoteChar ++ '"' :: rest) = some (s, rest) := by
  obtain ⟨ps, hps, hscan⟩ := scan_quoted s.toList rest
  rw [unquote, hscan, Option.map_some, decode_plain hps, String.ofList_toList]

end strings

/-- What the reader is in the middle of: a value, or the rest of an array or of an object. -/
inductive Part where
  | value
  | elements
  | members
  deriving DecidableEq

/-- A member before the ones that follow it in the text: of two with one key the later one counts. -/
def insert (k : String) (v : Json) : Json → Json
  | .field k' v' rest =>
      if k.toList < k'.toList then .field k v (.field k' v' rest)
      else if k = k' then .field k' v' rest
      else .field k' v' (insert k v rest)
  | _ => .field k v .empty

/-- What a text says: every number as it is written, and every member where it stands. -/
inductive Form where
  | null
  | bool (b : Bool)
  | number (literal : List Char)
  | string (s : String)
  | nil
  | cons (head tail : Form)
  | empty
  | field (key : String) (value rest : Form)
  deriving DecidableEq

namespace Form

/-- The value of a key. Of two members with one key the later one counts. -/
def get (key : String) : Form → Option Form
  | .field k value rest => (rest.get key).or (if k = key then some value else none)
  | _ => none

def isObject : Form → Bool
  | .empty | .field .. => true
  | _ => false

/-- The numbers of a text, at any depth. -/
def literals : Form → List (List Char)
  | .number l => [l]
  | .cons head tail => head.literals ++ tail.literals
  | .field _ value rest => value.literals ++ rest.literals
  | _ => []

/-- How deep arrays and objects are nested. -/
def depth : Form → Nat
  | .nil | .empty => 1
  | .cons head tail => max (head.depth + 1) tail.depth
  | .field _ value rest => max (value.depth + 1) rest.depth
  | _ => 0

/-- The value that a text names. -/
def value : Form → Json
  | .null => .null
  | .bool b => .bool b
  | .number l => .number (decimal l)
  | .string s => .string s
  | .nil => .nil
  | .cons head tail => .cons head.value tail.value
  | .empty => .empty
  | .field k value rest => insert k value.value rest.value

end Form

/-- Every number of a value by the function. -/
def mapNumbers (f : Rat → Rat) : Json → Json
  | .number x => .number (f x)
  | .cons head tail => .cons (head.mapNumbers f) (tail.mapNumbers f)
  | .field k value rest => .field k (value.mapNumbers f) (rest.mapNumbers f)
  | j => j

section reader

def formOfWord (word : List Char) : Option Form :=
  if word = ['n', 'u', 'l', 'l'] then some .null
  else if word = ['t', 'r', 'u', 'e'] then some (.bool true)
  else if word = ['f', 'a', 'l', 's', 'e'] then some (.bool false)
  else if NumState.start.accepts word then some (.number word)
  else none

def elementForm (rd : Part → List Char → Option (Form × List Char)) (cs : List Char) :
    Option (Form × List Char) := do
  let (v, cs) ← rd .value cs
  let (vs, cs) ← rd .elements cs
  return (.cons v vs, cs)

def memberForm (rd : Part → List Char → Option (Form × List Char)) (cs : List Char) :
    Option (Form × List Char) := do
  let cs ← token '"' cs
  let (k, cs) ← unquote cs
  let cs ← token ':' cs
  let (v, cs) ← rd .value cs
  let (rest, cs) ← rd .members cs
  return (.field k v rest, cs)

/-- The form that is read and what is left of the text. -/
def readForm : Nat → Part → List Char → Option (Form × List Char)
  | 0, _, _ => none
  | fuel + 1, .value, cs =>
      match token '{' cs with
      | some cs =>
          match token '}' cs with
          | some cs => some (.empty, cs)
          | none => memberForm (readForm fuel) cs
      | none =>
          match token '[' cs with
          | some cs =>
              match token ']' cs with
              | some cs => some (.nil, cs)
              | none => elementForm (readForm fuel) cs
          | none =>
              match token '"' cs with
              | some cs => (unquote cs).map fun x => (.string x.1, x.2)
              | none => (formOfWord ((skip cs).takeWhile isWord)).map fun t => (t, (skip cs).dropWhile isWord)
  | fuel + 1, .elements, cs =>
      match token ']' cs with
      | some cs => some (.nil, cs)
      | none => token ',' cs >>= elementForm (readForm fuel)
  | fuel + 1, .members, cs =>
      match token '}' cs with
      | some cs => some (.empty, cs)
      | none => token ',' cs >>= memberForm (readForm fuel)

/-- The form of a text that is JSON. -/
def formOf (text : List Char) : Option Form :=
  match readForm (text.length + 1) .value text with
  | some (t, rest) => if skip rest = [] then some t else none
  | none => none

end reader

/-- `maxNestingDepth` of the scanner. -/
def maxNestingDepth : Nat := 10000

section decoding

variable (F : FloatFormat)

/-- The numbers of a text are in the range of a float64. -/
def Form.inRange (t : Form) : Bool := t.literals.all fun l => (F.parse l).isSome

/-- The value that is decoded, with the float64 of each number. There is none if a number is out of range. -/
def Form.toJson (t : Form) : Option Json := if t.inRange F then some (t.value.mapNumbers F.nearest) else none

/-- `json.Unmarshal` of a text into a variable that takes any value. -/
def unmarshal (text : List Char) : Option Json :=
  match formOf text with
  | none => none
  | some t => if maxNestingDepth < t.depth then none else t.toJson F

end decoding

section writer

variable (F : FloatFormat)

def newline (depth : Nat) : List Char := '\n' :: List.replicate (2 * depth) ' '

/-- The text of a value at a depth, or of what is left of an array or of an object in it. -/
def write : Bool → Nat → Json → List Char
  | _, _, .null => ['n', 'u', 'l', 'l']
  | _, _, .bool true => ['t', 'r', 'u', 'e']
  | _, _, .bool false => ['f', 'a', 'l', 's', 'e']
  | _, _, .number x => F.format x
  | _, _, .string s => quote s
  | inside, d, .nil => if inside then newline d ++ [']'] else ['[', ']']
  | inside, d, .cons head tail =>
      (if inside then ',' else '[') :: newline (d + 1) ++ write false (d + 1) head ++ write true d tail
  | inside, d, .empty => if inside then newline d ++ ['}'] else ['{', '}']
  | inside, d, .field k v rest =>
      (if inside then ',' else '{') :: newline (d + 1) ++ quote k ++ [':', ' '] ++ write false (d + 1) v ++
        write true d rest

/-- `json.MarshalIndent` with two blanks a level. -/
def marshalIndent (j : Json) : List Char := write F false 0 j

end writer

def keys : Json → List String
  | .field k _ rest => k :: rest.keys
  | _ => []

/-- The values that a text can name: numbers are ones a float64 holds, and the keys of an object are in order. -/
def WellFormed (F : FloatFormat) : Part → Json → Prop
  | p, .null | p, .bool _ | p, .string _ => p = .value
  | p, .number x => p = .value ∧ ∃ z, F.round z = some x
  | p, .nil => p ≠ .members
  | p, .cons head tail => p ≠ .members ∧ WellFormed F .value head ∧ WellFormed F .elements tail
  | p, .empty => p ≠ .elements
  | p, .field k v rest =>
      p ≠ .elements ∧ (∀ k' ∈ rest.keys, k.toList < k'.toList) ∧ WellFormed F .value v ∧ WellFormed F .members rest

section tokens

variable {c d : Char} {cs : List Char}

theorem skip_cons (hc : isBlank c = false) : skip (c :: cs) = c :: cs := by
  rw [skip, List.dropWhile_cons_of_neg (by rw [hc]; decide)]

theorem skip_newline (depth : Nat) : skip (newline depth ++ cs) = skip cs := by
  have hblank : ∀ x ∈ newline depth, isBlank x = true := by
    refine List.forall_mem_cons.mpr ⟨by decide, fun x hx => ?_⟩
    rw [List.eq_of_mem_replicate hx]
    decide
  rw [skip, List.dropWhile_append_of_pos hblank, skip]

theorem token_newline (depth : Nat) : token c (newline depth ++ cs) = token c cs := by
  rw [token, skip_newline, token]

theorem token_self (hc : isBlank c = false) : token c (c :: cs) = some cs := by
  rw [token, skip_cons hc]
  exact if_pos rfl

theorem token_other (hd : isBlank d = false) (h : d ≠ c) : token c (d :: cs) = none := by
  rw [token, skip_cons hd]
  exact if_neg h

theorem isBlank_of_isWord (h : isWord c = true) : isBlank c = false := by
  by_contra hblank
  rw [Bool.not_eq_false] at hblank
  have hcases : c = ' ' ∨ c = '\t' ∨ c = '\n' ∨ c = '\r' := by
    simpa [isBlank, or_assoc] using hblank
  rcases hcases with rfl | rfl | rfl | rfl <;> exact absurd h (by decide)

theorem token_word (h : isWord d = true) (hc : isWord c = false) : token c (d :: cs) = none := by
  refine token_other (isBlank_of_isWord h) ?_
  rintro rfl
  rw [h] at hc
  cases hc

end tokens

end Json

end ThesadaApp
