import Mathlib.Algebra.Group.Nat.Defs
import ThesadaApp.SortComparator

/-!
How the page sorts the table of devices by a column.
-/

namespace ThesadaApp.DevicesTable

/-- The code units of a string. -/
abbrev Text := List UInt16

/-- `s < t` of strings. -/
def Before (s t : Text) : Prop := List.Lex (· < ·) s t

instance : DecidableRel Before := fun s t => inferInstanceAs (Decidable (List.Lex (· < ·) s t))

/-- What follows a minus sign, if there is one. -/
def unsigned (s : Text) : Text := if s.head? = some 45 then s.tail else s

/-- The pattern `/^-?\d+$/`. -/
def isInteger (s : Text) : Bool := !(unsigned s).isEmpty && (unsigned s).all fun c => 48 ≤ c && c ≤ 57

/-- The value in binary64 of a natural number, rounded to nearest with ties to even. `2 ^ 1024` stands for infinity. -/
def roundEven (n : Nat) : Nat :=
  let e := n.log2 - 52
  let q := n / 2 ^ e
  let r := n % 2 ^ e
  let q := if 2 ^ e < 2 * r ∨ (2 * r = 2 ^ e ∧ q % 2 = 1) then q + 1 else q
  min (q * 2 ^ e) (2 ^ 1024)

/-- `Number(s)` of an integer. -/
def number (s : Text) : Int :=
  let n := roundEven ((unsigned s).foldl (fun n c => 10 * n + (c.toNat - 48)) 0)
  if s.head? = some 45 then -n else n

inductive Dir where
  | asc
  | desc
  deriving DecidableEq, Repr

/-- A `td` of a row. -/
structure Cell where
  dataSort : Option Text
  textContent : Text
  deriving DecidableEq, Repr

/-- A `tr` of the table. Only the rows with a filter text are sorted. -/
structure Row where
  dataFilter : Option Text
  cells : List (String × Cell)
  deriving DecidableEq, Repr

structure SortState where
  col : String
  dir : Dir
  deriving DecidableEq, Repr

/-- The comparison of two keys. The empty ones come last in both directions. -/
def compareKeys (dir : Dir) (av bv : Text) : Int :=
  if av = [] ∧ bv = [] then 0
  else if av = [] then 1
  else if bv = [] then -1
  else
    let numeric := isInteger av && isInteger bv
    let cmp : Int :=
      if numeric then
        if number av < number bv then -1 else if number bv < number av then 1 else 0
      else
        if Before av bv then -1 else if Before bv av then 1 else 0
    match dir with
    | .desc => -cmp
    | .asc => cmp

section table

variable (normalize : Text → Text)

/-- The key of a row in a column. `normalize` stands for `.trim().toLowerCase()`. -/
def cellKey (tr : Row) (col : String) : Text :=
  match tr.cells.lookup col with
  | none => []
  | some td =>
      match td.dataSort with
      | some key => key
      | none => normalize td.textContent

def compareRows (state : SortState) (a b : Row) : Int :=
  compareKeys state.dir (cellKey normalize a state.col) (cellKey normalize b state.col)

/-- The rows of the table body after sorting. The rows that are not sorted stay first. -/
def applySort (state : Option SortState) (rows : List Row) : List Row :=
  match state with
  | none => rows
  | some state =>
      rows.filter (fun tr => tr.dataFilter.isNone) ++
        SortComparator.sort (compareRows normalize state) (rows.filter fun tr => tr.dataFilter.isSome)

end table

end ThesadaApp.DevicesTable
