import ThesadaApp.JsonWrite

/-!
Structs written as JSON: an object with a member for each field, in the order of the fields, whose values are
strings and number literals. The text of a struct has the form of its fields.
-/

namespace ThesadaApp.Json

/-- The value of a field. -/
inductive Scalar where
  | string (s : String)
  | number (literal : List Char)

def Scalar.text : Scalar → List Char
  | .string s => quote s
  | .number l => l

def Scalar.form : Scalar → Form
  | .string s => .string s
  | .number l => .number l

def Scalar.Valid : Scalar → Prop
  | .string _ => True
  | .number l => NumState.start.accepts l = true

abbrev Record := List (String × Scalar)

namespace Record

/-- A field and what follows it. -/
def member (f : String × Scalar) (rest : List Char) : List Char :=
  newline 1 ++ (quote f.1 ++ (':' :: ' ' :: (f.2.text ++ rest)))

/-- The fields after the first. -/
def more : Record → List Char
  | [] => newline 0 ++ ['}']
  | f :: fields => ',' :: member f (more fields)

/-- `json.MarshalIndent` of a struct with two blanks a level. -/
def text : Record → List Char
  | [] => ['{', '}']
  | f :: fields => '{' :: member f (more fields)

def form : Record → Form
  | [] => .empty
  | (k, v) :: fields => .field k v.form (form fields)

end Record

section reading

variable {fuel : Nat} {cs rest : List Char} {r : Record}

theorem readForm_scalar {v : Scalar} (hv : v.Valid) (hrest : Ends rest) :
    readForm (fuel + 1) .value (v.text ++ rest) = some (v.form, rest) := by
  cases v with
  | string s => exact readForm_string s
  | number l =>
      obtain ⟨hform, hne, hword⟩ := formOfWord_number hv
      exact readForm_word _ hword hne hform hrest

theorem Record.ends_more (r : Record) : Ends r.more := by
  cases r with
  | nil => exact ends_cons (by decide) _
  | cons f fields => exact ends_cons (by decide) _

/-- A field is read, and what follows it. -/
theorem memberForm_member {f : String × Scalar} {t : Form} (hv : f.2.Valid)
    (hmore : readForm (fuel + 1) .members r.more = some (t, rest)) :
    memberForm (readForm (fuel + 1)) (Record.member f r.more) = some (.field f.1 f.2.form t, rest) :=
  memberForm_write 1 (readForm_space.trans (readForm_scalar hv r.ends_more)) hmore

theorem readForm_more (hr : ∀ f ∈ r, f.2.Valid) (hfuel : r.length < fuel) :
    readForm fuel .members r.more = some (r.form, []) := by
  induction r generalizing fuel with
  | nil =>
      obtain ⟨n, rfl⟩ : ∃ n, fuel = n + 1 := ⟨fuel - 1, (Nat.succ_pred (Nat.ne_of_gt hfuel)).symm⟩
      rw [Record.more, readForm, token_newline, token_self (by decide)]
      rfl
  | cons f r ih =>
      rw [List.length_cons] at hfuel
      obtain ⟨n, rfl⟩ : ∃ n, fuel = n + 1 + 1 := ⟨fuel - 2, by omega⟩
      have hmore := ih (fun f hf => hr f (List.mem_cons_of_mem _ hf)) (show r.length < n + 1 by omega)
      have hmember := memberForm_member (hr f List.mem_cons_self) hmore
      rw [Record.more, readForm, token_other (by decide) (by decide), token_self (by decide)]
      exact hmember

theorem Record.length_le_more (r : Record) : r.length < r.more.length := by
  induction r with
  | nil => simp [Record.more]
  | cons f r ih =>
      simp only [Record.more, Record.member, List.length_cons, List.length_append]
      omega

theorem depth_recordForm (r : Record) : r.form.depth = 1 := by
  induction r with
  | nil => rfl
  | cons f r ih =>
      obtain ⟨k, v⟩ := f
      cases v <;> simp [Record.form, Scalar.form, Form.depth, ih]

/-- The text of a struct is read as its fields. -/
theorem formOf_text (hr : ∀ f ∈ r, f.2.Valid) : formOf r.text = some r.form := by
  have hread : readForm (r.text.length + 1) .value r.text = some (r.form, []) := by
    cases r with
    | nil => rfl
    | cons f r =>
        have hlength := Record.length_le_more r
        have hnot : token '}' (Record.member f (Record.more r)) = none := by
          rw [Record.member, token_newline, quote, List.cons_append, List.cons_append,
            token_other (by decide) (by decide)]
        have hfuel : (Record.text (f :: r)).length = (Record.text (f :: r)).length - 1 + 1 := by
          simp [Record.text]
        have hlong : r.length < (Record.text (f :: r)).length - 1 + 1 := by
          simp only [Record.text, Record.member, List.length_cons, List.length_append]
          omega
        have hmore := readForm_more (fun f hf => hr f (List.mem_cons_of_mem _ hf)) hlong
        have hmember := memberForm_member (hr f List.mem_cons_self) hmore
        rw [hfuel, Record.text, readForm, token_self (by decide)]
        simp only [hnot]
        exact hmember
  rw [formOf, hread]
  exact if_pos rfl

end reading

end ThesadaApp.Json
