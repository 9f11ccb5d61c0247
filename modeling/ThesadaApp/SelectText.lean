import ThesadaApp.LikePattern
import Mathlib.Data.List.Basic
import Mathlib.Data.List.Sort
import ThesadaApp.PartialMap

/-!
The text of a query with bind arguments, and the rows it selects. A query names its columns, compares columns with
arguments it refers to by their positions, orders the rows by some columns in descending order and takes a part of them.
-/

namespace SelectText

/-- What a column of a row or a bind argument holds. -/
inductive Value where
  | null
  | int (n : Int)
  | text (s : String)
  | uuid (id : Nat)
  | time (t : Int)
  | json (s : String)
  deriving DecidableEq, Repr

inductive Op where
  | eq
  | ge
  | lt
  | ilike
  deriving DecidableEq, Repr

/-- A column is compared with the argument at a position. -/
structure Cond where
  column : String
  op : Op
  position : Nat
  deriving DecidableEq, Repr

structure Select where
  columns : List String
  table : String
  conds : List Cond
  keys : List String
  limit : Nat
  offset : Option Nat
  deriving DecidableEq, Repr

/-! ### Words -/

section words

def isBlank (c : Char) : Bool := c = ' ' || c = '\n' || c = '\t'

/-- A comma is a word. -/
def spread (c : Char) : List Char := if c = ',' then [' ', ',', ' '] else [c]

def words (text : List Char) : List String :=
  (((text.flatMap spread).splitOnP isBlank).filter fun w => !w.isEmpty).map String.ofList

variable {a b : List Char} {s : String}

theorem words_append_blank (a b : List Char) : words (a ++ ' ' :: b) = words a ++ words b := by
  have hspread : spread ' ' = [' '] := by decide
  rw [words, List.flatMap_append, List.flatMap_cons, hspread, List.singleton_append,
    List.splitOnP_append_cons _ _ (by decide), List.filter_append, List.map_append, words, words]

theorem words_blank (b : List Char) : words (' ' :: b) = words b := words_append_blank [] b

/-- A text that is empty or begins with a blank. -/
def Opens (b : List Char) : Prop := b = [] ∨ ∃ c, b = ' ' :: c

theorem Opens.append (ha : Opens a) (hb : Opens b) : Opens (a ++ b) := by
  rcases ha with rfl | ⟨c, rfl⟩
  · exact hb
  · exact .inr ⟨c ++ b, rfl⟩

theorem words_append (a : List Char) (h : Opens b) : words (a ++ b) = words a ++ words b := by
  rcases h with rfl | ⟨c, rfl⟩
  · rw [List.append_nil, show words [] = [] from rfl, List.append_nil]
  · rw [words_append_blank, words_blank]

/-- A text with neither a blank nor a comma is one word. -/
def IsWord (s : String) : Prop := s.toList ≠ [] ∧ ∀ c ∈ s.toList, isBlank c = false ∧ c ≠ ','

instance (s : String) : Decidable (IsWord s) := @instDecidableAnd _ _ _ (List.decidableBAll _ s.toList)

theorem IsWord.words (h : IsWord s) : words s.toList = [s] := by
  have hspread : s.toList.flatMap spread = s.toList := by
    rw [List.flatMap_congr fun c hc => by rw [spread, if_neg (h.2 c hc).2], List.flatMap_singleton']
  rw [SelectText.words, hspread, List.splitOnP_eq_singleton fun c hc => (h.2 c hc).1]
  simp [h.1]

end words

/-! ### Positions -/

section position

def positionText (n : Nat) : String := "$" ++ toString n

def position (word : String) : Option Nat :=
  match word.toList with
  | '$' :: digits => if digits ≠ [] ∧ digits.all Char.isDigit then some (Nat.ofDigitChars 10 digits 0) else none
  | _ => none

theorem toList_positionText (n : Nat) : (positionText n).toList = '$' :: Nat.toDigits 10 n := by
  rw [positionText, String.toList_append, Nat.toString_eq_repr, Nat.toList_repr]
  rfl

@[simp] theorem position_positionText (n : Nat) : position (positionText n) = some n := by
  have hdigits : Nat.toDigits 10 n ≠ [] ∧ (Nat.toDigits 10 n).all Char.isDigit :=
    ⟨Nat.toDigits_ne_nil, List.all_eq_true.mpr fun _ hd => Nat.isDigit_of_mem_toDigits (by decide) (by decide) hd⟩
  simp only [position, toList_positionText]
  rw [if_pos hdigits, Nat.ofDigitChars_ten_toDigits]

theorem isWord_positionText (n : Nat) : IsWord (positionText n) := by
  rw [IsWord, toList_positionText]
  refine ⟨List.cons_ne_nil _ _, fun c hc => ?_⟩
  rcases List.mem_cons.mp hc with rfl | hc
  · decide
  · have hdigit := Nat.isDigit_of_mem_toDigits (by decide) (by decide) hc
    refine ⟨?_, fun h => ?_⟩
    · by_contra hblank
      rw [Bool.not_eq_false, isBlank, Bool.or_eq_true, Bool.or_eq_true, decide_eq_true_iff, decide_eq_true_iff,
        decide_eq_true_iff] at hblank
      rcases hblank with (rfl | rfl) | rfl <;> exact absurd hdigit (by decide)
    · subst h
      exact absurd hdigit (by decide)

end position

/-! ### The grammar -/

section grammar

def expect (word : String) : List String → Option (List String)
  | w :: ws => if w = word then some ws else none
  | [] => none

/-- Names with commas between them. -/
def names : List String → Option (List String × List String)
  | name :: "," :: ws => (names ws).map fun rest => (name :: rest.1, rest.2)
  | name :: ws => some ([name], ws)
  | [] => none

def sign : Op → String
  | .eq => "="
  | .ge => ">="
  | .lt => "<"
  | .ilike => "ILIKE"

def op (word : String) : Option Op := [Op.eq, .ge, .lt, .ilike].find? fun o => sign o = word

def cond (column sign bind : String) : Option Cond := do
  let o ← op sign
  let n ← position bind
  some ⟨column, o, n⟩

/-- Conditions with `AND` between them. -/
def conds : List String → Option (List Cond × List String)
  | column :: sign :: bind :: "AND" :: ws => do
      let c ← cond column sign bind
      let rest ← conds ws
      some (c :: rest.1, rest.2)
  | column :: sign :: bind :: ws => (cond column sign bind).map fun c => ([c], ws)
  | _ => none

def wherePart : List String → Option (List Cond × List String)
  | "WHERE" :: ws => conds ws
  | ws => some ([], ws)

/-- Keys of an order with commas between them. -/
def keys : List String → Option (List String × List String)
  | key :: "DESC" :: "," :: ws => (keys ws).map fun rest => (key :: rest.1, rest.2)
  | key :: "DESC" :: ws => some ([key], ws)
  | _ => none

def offsetPart : List String → Option (Option Nat)
  | [] => some none
  | ["OFFSET", bind] => (position bind).map some
  | _ => none

def parse (ws : List String) : Option Select := do
  let ws ← expect "SELECT" ws
  let (columns, ws) ← names ws
  let ws ← expect "FROM" ws
  let table ← ws.head?
  let (conds, ws) ← wherePart ws.tail
  let ws ← expect "ORDER" ws
  let ws ← expect "BY" ws
  let (keys, ws) ← keys ws
  let ws ← expect "LIMIT" ws
  let limit ← ws.head?.bind position
  let offset ← offsetPart ws.tail
  some ⟨columns, table, conds, keys, limit, offset⟩

def Cond.words (c : Cond) : List String := [c.column, sign c.op, positionText c.position]

def whereWords : List Cond → List String
  | [] => []
  | c :: cs => "WHERE" :: (c.words ++ cs.flatMap fun d => "AND" :: d.words)

def nameWords : List String → List String
  | [] => []
  | name :: rest => name :: rest.flatMap fun other => [",", other]

def keyWords : List String → List String
  | [] => []
  | key :: rest => key :: "DESC" :: rest.flatMap fun other => [",", other, "DESC"]

def offsetWords : Option Nat → List String
  | none => []
  | some n => ["OFFSET", positionText n]

/-- The words of a query. -/
def Select.words (q : Select) : List String :=
  ["SELECT"] ++ nameWords q.columns ++ ["FROM", q.table] ++ whereWords q.conds ++ ["ORDER", "BY"] ++ keyWords q.keys ++
    ["LIMIT", positionText q.limit] ++ offsetWords q.offset

variable {ws : List String} {word name key : String} {rest : List String} {c : Cond} {cs : List Cond}

theorem expect_cons : expect word (word :: ws) = some ws := if_pos rfl

theorem names_nameWords (h : word ≠ ",") :
    names (nameWords (name :: rest) ++ word :: ws) = some (name :: rest, word :: ws) := by
  induction rest generalizing name with
  | nil =>
      rw [nameWords, List.flatMap_nil, List.cons_append, List.nil_append, names]
      exact fun _ hcomma => absurd (List.cons.inj hcomma).1 h
  | cons other rest ih =>
      have hrest : names (other :: (rest.flatMap (fun other => [",", other]) ++ word :: ws)) =
          some (other :: rest, word :: ws) := ih
      simp [nameWords, names, hrest]

theorem keys_keyWords (h : word ≠ ",") :
    keys (keyWords (key :: rest) ++ word :: ws) = some (key :: rest, word :: ws) := by
  induction rest generalizing key with
  | nil =>
      rw [keyWords, List.flatMap_nil, List.cons_append, List.cons_append, List.nil_append, keys]
      exact fun _ hcomma => absurd (List.cons.inj hcomma).1 h
  | cons other rest ih =>
      have hrest : keys (other :: "DESC" :: (rest.flatMap (fun other => [",", other, "DESC"]) ++ word :: ws)) =
          some (other :: rest, word :: ws) := ih
      simp [keyWords, keys, hrest]

theorem cond_words (c : Cond) : cond c.column (sign c.op) (positionText c.position) = some c := by
  have hop : op (sign c.op) = some c.op := by cases c.op <;> decide
  rw [cond, hop, position_positionText]
  rfl

theorem conds_words (h : word ≠ "AND") :
    conds (c.words ++ (cs.flatMap fun d => "AND" :: d.words) ++ word :: ws) = some (c :: cs, word :: ws) := by
  induction cs generalizing c with
  | nil =>
      rw [List.flatMap_nil, List.append_nil, Cond.words]
      simp only [List.cons_append, List.nil_append]
      rw [conds, cond_words, Option.map_some]
      exact fun _ hand => absurd (List.cons.inj hand).1 h
  | cons d cs ih =>
      have hrest : conds (d.words ++ (cs.flatMap (fun d => "AND" :: d.words) ++ word :: ws)) =
          some (d :: cs, word :: ws) := by
        rw [← List.append_assoc]
        exact ih
      simp [Cond.words] at hrest ⊢
      simp [conds, cond_words, hrest]

theorem wherePart_whereWords (hand : word ≠ "AND") (hwhere : word ≠ "WHERE") :
    wherePart (whereWords cs ++ word :: ws) = some (cs, word :: ws) := by
  cases cs with
  | nil =>
      rw [whereWords, List.nil_append, wherePart]
      exact fun _ h => absurd (List.cons.inj h).1 hwhere
  | cons c cs =>
      rw [whereWords, List.cons_append, wherePart]
      exact conds_words hand

theorem offsetPart_offsetWords (offset : Option Nat) : offsetPart (offsetWords offset) = some offset := by
  cases offset with
  | none => rfl
  | some n => simp [offsetWords, offsetPart]

/-- The words of a query are read as the query. -/
theorem parse_words {q : Select} (hcolumns : q.columns ≠ []) (hkeys : q.keys ≠ []) : parse q.words = some q := by
  obtain ⟨columns, table, conds, keyNames, limit, offset⟩ := q
  obtain ⟨name, columns, rfl⟩ := List.exists_cons_of_ne_nil hcolumns
  obtain ⟨key, keyNames, rfl⟩ := List.exists_cons_of_ne_nil hkeys
  have hoffset : offsetPart (offsetWords offset) = some offset := offsetPart_offsetWords offset
  simp only [parse, Select.words, List.append_assoc, List.cons_append, List.nil_append, expect_cons,
    Option.bind_eq_bind, Option.bind_some]
  rw [names_nameWords (by decide), Option.bind_some, expect_cons, Option.bind_some, List.head?_cons, Option.bind_some,
    List.tail_cons, wherePart_whereWords (by decide) (by decide), Option.bind_some, expect_cons, Option.bind_some,
    expect_cons, Option.bind_some, keys_keyWords (by decide), Option.bind_some, expect_cons, Option.bind_some,
    List.head?_cons, Option.bind_some, position_positionText, Option.bind_some, List.tail_cons, hoffset]
  rfl

end grammar

/-! ### The rows of a query -/

section eval

variable {Row : Type} (column : Row → String → Option Value) (fold : Char → Char) (args : List Value)

/-- The argument at a position. The first is at 1. -/
def argument : Nat → Option Value
  | 0 => none
  | n + 1 => args[n]?

/-- Nothing compares with null. Values of different types are refused. -/
def relates : Op → Value → Value → Option Bool
  | _, .null, _ => some false
  | _, _, .null => some false
  | .eq, .int m, .int n => some (m = n)
  | .eq, .text s, .text t => some (s = t)
  | .eq, .uuid i, .uuid j => some (i = j)
  | .eq, .time t, .time u => some (t = u)
  | .ge, .int m, .int n => some (n ≤ m)
  | .ge, .time t, .time u => some (u ≤ t)
  | .lt, .int m, .int n => some (m < n)
  | .lt, .time t, .time u => some (t < u)
  | .ilike, .text s, .text pattern => LikePattern.ilike fold s.toList pattern.toList
  | _, _, _ => none

def Cond.holds (row : Row) (c : Cond) : Option Bool := do
  let v ← column row c.column
  let a ← argument args c.position
  relates fold c.op v a

/-- What rows are ordered by: numbers and points in time. -/
def rank : Value → Option Int
  | .int n => some n
  | .time t => some t
  | _ => none

/-- The first key is the same or later. The first difference decides. -/
def Descends (k l : List Int) : Prop := ¬ List.Lex (· < ·) k l

instance : DecidableRel Descends := fun k l => inferInstanceAs (Decidable ¬ List.Lex (· < ·) k l)

/-- A number of rows. -/
def count (position : Nat) : Option Nat := do
  match ← argument args position with
  | .int n => if 0 ≤ n then some n.toNat else none
  | _ => none

namespace Select

variable (q : Select)

def selects (row : Row) : Option Bool := (q.conds.mapM (Cond.holds column fold args row)).map fun bs => bs.all id

def key (row : Row) : Option (List Int) := q.keys.mapM fun name => (column row name).bind rank

def skipped : Option Nat :=
  match q.offset with
  | none => some 0
  | some position => count args position

/-- The rows of a query in the order a scan of its table finds them, if nothing is refused. -/
def eval (table : String → Option (List Row)) : Option (List (List Value)) := do
  let rows ← table q.table
  let marked ← rows.mapM fun row => (q.selects column fold args row).map fun b => (row, b)
  let keyed ← ((marked.filter Prod.snd).map Prod.fst).mapM fun row => (q.key column row).map fun k => (row, k)
  let sorted := (keyed.insertionSort fun x y => Descends x.2 y.2).map Prod.fst
  let limit ← count args q.limit
  let offset ← q.skipped args
  ((sorted.drop offset).take limit).mapM fun row => q.columns.mapM (column row)

end Select

/-- The rows of a query text. -/
def run (table : String → Option (List Row)) (text : String) : Option (List (List Value)) :=
  (parse (words text.toList)).bind fun q => q.eval column fold args table

variable {column fold args} {q : Select} {table : String → Option (List Row)} {rows : List Row}

theorem Select.selects_eq {row : Row} (h : ∀ c ∈ q.conds, (c.holds column fold args row).isSome) :
    q.selects column fold args row = some (decide (∀ c ∈ q.conds, c.holds column fold args row = some true)) := by
  have hbits : q.conds.mapM (Cond.holds column fold args row) =
      some (q.conds.map fun c => (c.holds column fold args row).getD false) :=
    PartialMap.mapM_some fun c hc => by
      obtain ⟨b, hb⟩ := Option.isSome_iff_exists.mp (h c hc)
      rw [hb, Option.getD_some]
  rw [selects, hbits, Option.map_some, Option.some_inj, Bool.eq_iff_iff, decide_eq_true_iff, List.all_map,
    List.all_eq_true]
  refine forall₂_congr fun c hc => ?_
  obtain ⟨b, hb⟩ := Option.isSome_iff_exists.mp (h c hc)
  rw [Function.comp_apply, hb, Option.getD_some, Option.some_inj, id]

/-- The rows that are selected, newest key first, cut to a part. -/
theorem Select.eval_eq {selected : Row → Bool} {key : Row → List Int} {shown : Row → List Value} {limit offset : Nat}
    (htable : table q.table = some rows) (hselected : ∀ r ∈ rows, q.selects column fold args r = some (selected r))
    (hkey : ∀ r ∈ rows, q.key column r = some (key r)) (hlimit : count args q.limit = some limit)
    (hoffset : q.skipped args = some offset) (hshown : ∀ r ∈ rows, q.columns.mapM (column r) = some (shown r)) :
    q.eval column fold args table = some ((((((rows.filter selected).insertionSort fun r s =>
      Descends (key r) (key s))).drop offset).take limit).map shown) := by
  have hmarked : rows.mapM (fun row => (q.selects column fold args row).map fun b => (row, b)) =
      some (rows.map fun row => (row, selected row)) :=
    PartialMap.mapM_some fun r hr => by rw [hselected r hr, Option.map_some]
  have hfilter : ((rows.map fun row => (row, selected row)).filter Prod.snd).map Prod.fst = rows.filter selected := by
    rw [List.filter_map, List.map_map]
    exact List.map_id _
  have hkeyed : (rows.filter selected).mapM (fun row => (q.key column row).map fun k => (row, k)) =
      some ((rows.filter selected).map fun row => (row, key row)) :=
    PartialMap.mapM_some fun r hr => by rw [hkey r (List.mem_of_mem_filter hr), Option.map_some]
  have hsorted : (((rows.filter selected).map fun row => (row, key row)).insertionSort fun x y => Descends x.2 y.2).map
      Prod.fst = (rows.filter selected).insertionSort fun r s => Descends (key r) (key s) := by
    rw [← List.map_insertionSort (fun r s => Descends (key r) (key s)) (fun x y : Row × List Int => Descends x.2 y.2)
      (fun row => (row, key row)) _ fun _ _ _ _ => Iff.rfl, List.map_map]
    exact List.map_id _
  simp only [eval, htable, Option.bind_eq_bind, Option.bind_some, hmarked, hfilter, hkeyed, hsorted, hlimit, hoffset]
  refine PartialMap.mapM_some fun r hr => hshown r ?_
  have hmem := List.mem_of_mem_drop (List.mem_of_mem_take hr)
  exact List.mem_of_mem_filter ((List.mem_insertionSort _).mp hmem)

theorem descends_cons {m n : Int} {k l : List Int} : Descends (m :: k) (n :: l) ↔ n < m ∨ (n = m ∧ Descends k l) :=
  List.cons_le_cons_iff

theorem Descends.antisymm {k l : List Int} (h : Descends k l) (h' : Descends l k) : k = l :=
  List.lex_trichotomous (fun _ _ hlt hlt' => le_antisymm (not_lt.mp hlt') (not_lt.mp hlt)) h' h

section order

variable (key : Row → List Int)

instance : IsTrans Row fun r s => Descends (key r) (key s) := ⟨fun _ _ _ h h' => List.le_trans h' h⟩

instance : Std.Total fun r s : Row => Descends (key r) (key s) := ⟨fun r s => List.le_total (key s) (key r)⟩

/-- Rows whose keys differ have one order, in whatever order a scan finds them. -/
theorem insertionSort_perm {xs ys : List Row} (hperm : xs.Perm ys)
    (hkey : ∀ r ∈ ys, ∀ s ∈ ys, key r = key s → r = s) :
    xs.insertionSort (fun r s => Descends (key r) (key s)) = ys.insertionSort fun r s => Descends (key r) (key s) := by
  have hmem : ∀ r, r ∈ ys.insertionSort (fun r s => Descends (key r) (key s)) → r ∈ ys := fun r =>
    (List.mem_insertionSort _).mp
  have hmem' : ∀ r, r ∈ xs.insertionSort (fun r s => Descends (key r) (key s)) → r ∈ ys := fun r hr =>
    hperm.mem_iff.mp ((List.mem_insertionSort _).mp hr)
  refine List.Perm.eq_of_pairwise (fun r s hr hs h h' => hkey r (hmem' r hr) s (hmem s hs) (h.antisymm h'))
    (List.pairwise_insertionSort _ xs) (List.pairwise_insertionSort _ ys) ?_
  exact (List.perm_insertionSort _ xs).trans (hperm.trans (List.perm_insertionSort _ ys).symm)

end order

/-- Parts of equal size, one after the other, make up the whole. -/
theorem flatMap_parts (xs : List α) (size parts : Nat) :
    (List.range parts).flatMap (fun i => (xs.drop (i * size)).take size) = xs.take (parts * size) := by
  induction parts with
  | zero => simp
  | succ parts ih =>
      rw [List.range_succ, List.flatMap_append, ih, List.flatMap_singleton, Nat.succ_mul, List.take_add]

end eval

end SelectText
