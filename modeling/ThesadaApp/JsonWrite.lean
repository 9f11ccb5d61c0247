import ThesadaApp.JsonForm

/-!
The text of a value is read back: scanned, it has the form of the value, and decoded it is the value again, if it is not
nested too deep.
-/

namespace ThesadaApp.Json

/-- The form of the text that is written for a value. -/
def form (F : FloatFormat) : Json → Form
  | .null => .null
  | .bool b => .bool b
  | .number x => .number (F.format x)
  | .string s => .string s
  | .nil => .nil
  | .cons head tail => .cons (head.form F) (tail.form F)
  | .empty => .empty
  | .field k value rest => .field k (value.form F) (rest.form F)

section roundTrip

variable {F : FloatFormat} {fuel : Nat} {rest : List Char}

theorem readForm_word (word : List Char) {t : Form} (hword : ∀ c ∈ word, isWord c = true) (hne : word ≠ [])
    (ht : formOfWord word = some t) (hrest : Ends rest) :
    readForm (fuel + 1) .value (word ++ rest) = some (t, rest) := by
  obtain ⟨htake, hdrop⟩ := word_ends hword hrest
  obtain ⟨c, cs, rfl⟩ := List.exists_cons_of_ne_nil hne
  have hc := hword c List.mem_cons_self
  have hskip : skip (c :: cs ++ rest) = c :: cs ++ rest := skip_cons (isBlank_of_isWord hc)
  rw [readForm, List.cons_append, token_word hc (by decide), token_word hc (by decide), token_word hc (by decide)]
  simp only [← List.cons_append]
  rw [hskip, htake, hdrop, ht]
  rfl

theorem formOfWord_number {l : List Char} (hl : NumState.start.accepts l = true) :
    formOfWord l = some (.number l) ∧ l ≠ [] ∧ ∀ c ∈ l, isWord c = true := by
  have hnot : ∀ w, NumState.start.accepts w = false → l ≠ w := by
    rintro w hw rfl
    rw [hl] at hw
    cases hw
  refine ⟨?_, hnot [] (by decide), NumState.isWord_of_accepts hl⟩
  rw [formOfWord, if_neg (hnot _ (by decide)), if_neg (hnot _ (by decide)), if_neg (hnot _ (by decide)), if_pos hl]

theorem readForm_string (s : String) : readForm (fuel + 1) .value (quote s ++ rest) = some (.string s, rest) := by
  have htext : quote s ++ rest = '"' :: (s.toList.flatMap quoteChar ++ '"' :: rest) := by
    rw [quote, List.cons_append, List.cons_append, List.append_assoc]
    rfl
  rw [htext, readForm, token_other (by decide) (by decide), token_other (by decide) (by decide), token_self (by decide)]
  simp only [unquote_quoted, Option.map_some]

/-- A value that is written starts with a character of its own, which closes nothing. -/
theorem write_head {j : Json} (h : WellFormed F .value j) (d : Nat) :
    ∃ c cs, write F false d j = c :: cs ∧ isBlank c = false ∧ c ≠ '}' ∧ c ≠ ']' := by
  cases j with
  | null => exact ⟨_, _, rfl, by decide, by decide, by decide⟩
  | bool b => cases b <;> exact ⟨_, _, rfl, by decide, by decide, by decide⟩
  | number x =>
      obtain ⟨-, z, hz⟩ := h
      obtain ⟨-, hne, hword⟩ := formOfWord_number (F.format_accepted hz)
      obtain ⟨c, cs, hcs⟩ := List.exists_cons_of_ne_nil hne
      have hc : isWord c = true := hword c (hcs ▸ List.mem_cons_self)
      refine ⟨c, cs, hcs, isBlank_of_isWord hc, ?_, ?_⟩ <;> rintro rfl <;> exact absurd hc (by decide)
  | string s => exact ⟨_, _, rfl, by decide, by decide, by decide⟩
  | nil => exact ⟨_, _, rfl, by decide, by decide, by decide⟩
  | cons head tail => exact ⟨_, _, rfl, by decide, by decide, by decide⟩
  | empty => exact ⟨_, _, rfl, by decide, by decide, by decide⟩
  | field k v rest => exact ⟨_, _, rfl, by decide, by decide, by decide⟩

/-- The recursion that reading a value takes. -/
def size : Json → Nat
  | .cons head tail => head.size + tail.size + 1
  | .field _ v rest => v.size + rest.size + 1
  | _ => 1

/-- What follows a value inside an array or an object does not carry on a word. -/
theorem ends_write {j : Json} {p : Part} (h : WellFormed F p j) (hp : p ≠ .value) (d : Nat) :
    Ends (write F true d j ++ rest) := by
  cases j with
  | nil => exact ends_cons (by decide) _
  | cons => exact ends_cons (by decide) _
  | empty => exact ends_cons (by decide) _
  | field => exact ends_cons (by decide) _
  | null => exact absurd h hp
  | bool => exact absurd h hp
  | number => exact absurd h.1 hp
  | string => exact absurd h hp

theorem readForm_newline {p : Part} {d : Nat} {cs : List Char} :
    readForm fuel p (newline d ++ cs) = readForm fuel p cs :=
  readForm_congr (skip_newline d)

theorem readForm_space {p : Part} {cs : List Char} : readForm fuel p (' ' :: cs) = readForm fuel p cs :=
  readForm_congr (List.dropWhile_cons_of_pos (by decide))

theorem elementForm_write {rd : Part → List Char → Option (Form × List Char)} {head tail : Form}
    {cs cs' : List Char} (hhead : rd .value cs = some (head, cs')) (htail : rd .elements cs' = some (tail, rest)) :
    elementForm rd cs = some (.cons head tail, rest) := by
  simp only [elementForm, hhead, Option.bind_eq_bind, Option.bind_some, htail]
  rfl

theorem memberForm_write {rd : Part → List Char → Option (Form × List Char)} {k : String} {v t : Form}
    {cs cs' : List Char} (d : Nat) (hv : rd .value (' ' :: cs) = some (v, cs'))
    (ht : rd .members cs' = some (t, rest)) :
    memberForm rd (newline d ++ (quote k ++ (':' :: ' ' :: cs))) = some (.field k v t, rest) := by
  have hopen : token '"' (newline d ++ (quote k ++ (':' :: ' ' :: cs))) =
      some (k.toList.flatMap quoteChar ++ '"' :: ':' :: ' ' :: cs) := by
    rw [token_newline, quote, List.cons_append, List.cons_append, token_self (by decide), List.append_assoc]
    rfl
  simp only [memberForm, hopen, unquote_quoted, Option.bind_eq_bind, Option.bind_some,
    token_self (show isBlank ':' = false by decide), hv, ht]
  rfl

/-- An array, or the rest of one, whose elements are read. -/
theorem readForm_cons {head tail : Json} {p : Part} {d : Nat} (hp : p ≠ .members) (hhead : WellFormed F .value head)
    (helement : elementForm (readForm fuel) (newline (d + 1) ++ (write F false (d + 1) head ++
      (write F true d tail ++ rest))) = some ((Json.cons head tail).form F, rest)) :
    readForm (fuel + 1) p (write F (p ≠ .value) d (.cons head tail) ++ rest) =
      some ((Json.cons head tail).form F, rest) := by
  cases p with
  | members => exact absurd rfl hp
  | value =>
      obtain ⟨c, cs, hcs, hblank, -, hclose⟩ := write_head hhead (d + 1)
      have hnot : token ']' (newline (d + 1) ++ (write F false (d + 1) head ++ (write F true d tail ++ rest))) =
          none := by
        rw [token_newline, hcs, List.cons_append, token_other hblank hclose]
      have htext : write F false d (.cons head tail) ++ rest = '[' :: (newline (d + 1) ++
          (write F false (d + 1) head ++ (write F true d tail ++ rest))) := by
        simp [write]
      show readForm (fuel + 1) .value (write F false d (.cons head tail) ++ rest) = _
      rw [htext, readForm, token_other (by decide) (by decide), token_self (by decide)]
      simp only [hnot, helement]
  | elements =>
      have htext : write F true d (.cons head tail) ++ rest = ',' :: (newline (d + 1) ++
          (write F false (d + 1) head ++ (write F true d tail ++ rest))) := by
        simp [write]
      show readForm (fuel + 1) .elements (write F true d (.cons head tail) ++ rest) = _
      rw [htext, readForm, token_other (by decide) (by decide), token_self (by decide)]
      exact helement

/-- An object, or the rest of one, whose members are read. -/
theorem readForm_field {k : String} {v j : Json} {p : Part} {d : Nat} (hp : p ≠ .elements)
    (hmember : memberForm (readForm fuel) (newline (d + 1) ++ (quote k ++ (':' :: ' ' ::
      (write F false (d + 1) v ++ (write F true d j ++ rest))))) = some ((Json.field k v j).form F, rest)) :
    readForm (fuel + 1) p (write F (p ≠ .value) d (.field k v j) ++ rest) = some ((Json.field k v j).form F, rest) := by
  cases p with
  | elements => exact absurd rfl hp
  | value =>
      have hnot : token '}' (newline (d + 1) ++ (quote k ++ (':' :: ' ' ::
          (write F false (d + 1) v ++ (write F true d j ++ rest))))) = none := by
        rw [token_newline, quote, List.cons_append, List.cons_append, token_other (by decide) (by decide)]
      have htext : write F false d (.field k v j) ++ rest = '{' :: (newline (d + 1) ++ (quote k ++ (':' :: ' ' ::
          (write F false (d + 1) v ++ (write F true d j ++ rest))))) := by
        simp [write]
      show readForm (fuel + 1) .value (write F false d (.field k v j) ++ rest) = _
      rw [htext, readForm, token_self (by decide)]
      simp only [hnot, hmember]
  | members =>
      have htext : write F true d (.field k v j) ++ rest = ',' :: (newline (d + 1) ++ (quote k ++ (':' :: ' ' ::
          (write F false (d + 1) v ++ (write F true d j ++ rest))))) := by
        simp [write]
      show readForm (fuel + 1) .members (write F true d (.field k v j) ++ rest) = _
      rw [htext, readForm, token_other (by decide) (by decide), token_self (by decide)]
      exact hmember

/-- The text of a value, or of the rest of an array or of an object, has its form. -/
theorem readForm_write {j : Json} {p : Part} (d : Nat) (h : WellFormed F p j) (hfuel : j.size ≤ fuel)
    (hrest : p = .value → Ends rest) : readForm fuel p (write F (p ≠ .value) d j ++ rest) = some (j.form F, rest) := by
  induction j generalizing p fuel d rest with
  | null =>
      obtain ⟨n, rfl⟩ := Nat.exists_eq_add_of_le' hfuel
      obtain rfl : p = .value := h
      exact readForm_word ['n', 'u', 'l', 'l'] (List.all_eq_true.mp (by decide)) (by decide) rfl (hrest rfl)
  | bool b =>
      obtain ⟨n, rfl⟩ := Nat.exists_eq_add_of_le' hfuel
      obtain rfl : p = .value := h
      cases b with
      | true => exact readForm_word ['t', 'r', 'u', 'e'] (List.all_eq_true.mp (by decide)) (by decide) rfl (hrest rfl)
      | false =>
          exact readForm_word ['f', 'a', 'l', 's', 'e'] (List.all_eq_true.mp (by decide)) (by decide) rfl (hrest rfl)
  | number x =>
      obtain ⟨n, rfl⟩ := Nat.exists_eq_add_of_le' hfuel
      obtain ⟨rfl, z, hz⟩ := h
      obtain ⟨hnumber, hne, hword⟩ := formOfWord_number (F.format_accepted hz)
      exact readForm_word _ hword hne hnumber (hrest rfl)
  | string s =>
      obtain ⟨n, rfl⟩ := Nat.exists_eq_add_of_le' hfuel
      obtain rfl : p = .value := h
      exact readForm_string s
  | nil =>
      obtain ⟨n, rfl⟩ := Nat.exists_eq_add_of_le' hfuel
      cases p with
      | value =>
          show readForm (n + 1) .value ('[' :: ']' :: rest) = _
          rw [readForm, token_other (by decide) (by decide), token_self (by decide)]
          simp only [token_self (show isBlank ']' = false by decide)]
          rfl
      | elements =>
          show readForm (n + 1) .elements (newline d ++ [']'] ++ rest) = _
          rw [List.append_assoc, readForm_newline, readForm, List.singleton_append, token_self (by decide)]
          rfl
      | members => exact absurd rfl h
  | cons head tail ihHead ihTail =>
      obtain ⟨hp, hhead, htail⟩ := h
      simp only [size] at hfuel
      obtain ⟨n, rfl⟩ := Nat.exists_eq_add_of_le' (show 1 ≤ fuel by omega)
      have hvalue : readForm n .value (write F false (d + 1) head ++ (write F true d tail ++ rest)) =
          some (head.form F, write F true d tail ++ rest) :=
        ihHead (d + 1) hhead (by omega) fun _ => ends_write htail (by decide) d
      have hmore : readForm n .elements (write F true d tail ++ rest) = some (tail.form F, rest) :=
        ihTail d htail (by omega) fun h => by cases h
      have helement : elementForm (readForm n) (newline (d + 1) ++ (write F false (d + 1) head ++
          (write F true d tail ++ rest))) = some ((Json.cons head tail).form F, rest) :=
        elementForm_write (readForm_newline.trans hvalue) hmore
      exact readForm_cons hp hhead helement
  | empty =>
      obtain ⟨n, rfl⟩ := Nat.exists_eq_add_of_le' hfuel
      cases p with
      | value =>
          show readForm (n + 1) .value ('{' :: '}' :: rest) = _
          rw [readForm, token_self (by decide)]
          simp only [token_self (show isBlank '}' = false by decide)]
          rfl
      | members =>
          show readForm (n + 1) .members (newline d ++ ['}'] ++ rest) = _
          rw [List.append_assoc, readForm_newline, readForm, List.singleton_append, token_self (by decide)]
          rfl
      | elements => exact absurd rfl h
  | field k v j ihValue ihRest =>
      obtain ⟨hp, -, hvalue, hmembers⟩ := h
      simp only [size] at hfuel
      obtain ⟨n, rfl⟩ := Nat.exists_eq_add_of_le' (show 1 ≤ fuel by omega)
      have hread : readForm n .value (write F false (d + 1) v ++ (write F true d j ++ rest)) =
          some (v.form F, write F true d j ++ rest) :=
        ihValue (d + 1) hvalue (by omega) fun _ => ends_write hmembers (by decide) d
      have hmore : readForm n .members (write F true d j ++ rest) = some (j.form F, rest) :=
        ihRest d hmembers (by omega) fun h => by cases h
      have hmember : memberForm (readForm n) (newline (d + 1) ++ (quote k ++ (':' :: ' ' ::
          (write F false (d + 1) v ++ (write F true d j ++ rest))))) = some ((Json.field k v j).form F, rest) :=
        memberForm_write (d + 1) (readForm_space.trans hread) hmore
      exact readForm_field hp hmember

/-- The text of an object is between braces. -/
theorem marshalIndent_isObject (h : WellFormed F .members j) : ∃ cs, marshalIndent F j = '{' :: (cs ++ ['}']) := by
  have hclose : ∀ {j : Json} {d : Nat}, WellFormed F .members j → ∃ cs, write F true d j = cs ++ ['}'] := by
    intro j d h
    induction j with
    | empty => exact ⟨newline d, rfl⟩
    | field k v rest _ ih =>
        obtain ⟨cs, hcs⟩ := ih h.2.2.2
        refine ⟨',' :: newline (d + 1) ++ quote k ++ [':', ' '] ++ write F false (d + 1) v ++ cs, ?_⟩
        rw [write, hcs, ← List.append_assoc]
        rfl
    | nil => exact absurd rfl h
    | cons => exact absurd rfl h.1
    | number => cases h.1
    | null => cases h
    | bool => cases h
    | string => cases h
  cases j with
  | empty => exact ⟨[], rfl⟩
  | field k v rest =>
      obtain ⟨cs, hcs⟩ := hclose (d := 0) h.2.2.2
      refine ⟨newline 1 ++ quote k ++ [':', ' '] ++ write F false 1 v ++ cs, ?_⟩
      rw [marshalIndent, write, hcs, ← List.append_assoc]
      rfl
  | nil => exact absurd rfl h
  | cons => exact absurd rfl h.1
  | number => cases h.1
  | null => cases h
  | bool => cases h
  | string => cases h

theorem size_le_length {j : Json} {p : Part} (h : WellFormed F p j) (inside : Bool) (d : Nat) :
    j.size ≤ (write F inside d j).length := by
  induction j generalizing p inside d with
  | null => exact Nat.succ_le_succ (Nat.zero_le _)
  | bool b => cases b <;> exact Nat.succ_le_succ (Nat.zero_le _)
  | number x =>
      obtain ⟨-, w, hw⟩ := h
      exact List.length_pos_iff.mpr (formOfWord_number (F.format_accepted hw)).2.1
  | string s => exact Nat.succ_le_succ (Nat.zero_le _)
  | nil => cases inside <;> simp [write, size]
  | cons head tail ihHead ihTail =>
      have hhead := ihHead h.2.1 false (d + 1)
      have htail := ihTail h.2.2 true d
      simp only [size, write, List.length_append, List.length_cons]
      omega
  | empty => cases inside <;> simp [write, size]
  | field k v j ihValue ihRest =>
      have hvalue := ihValue h.2.2.1 false (d + 1)
      have hrest := ihRest h.2.2.2 true d
      simp only [size, write, List.length_append, List.length_cons]
      omega

/-- A member before those whose keys follow its own. -/
theorem insert_of_lt {f : Rat → Rat} {k : String} {v j : Json} (hj : WellFormed F .members j)
    (hlt : ∀ k' ∈ j.keys, k.toList < k'.toList) : insert k v (j.mapNumbers f) = .field k v (j.mapNumbers f) := by
  cases j with
  | field k' v' rest => exact if_pos (hlt k' List.mem_cons_self)
  | empty => rfl
  | nil => exact absurd rfl hj
  | cons => exact absurd rfl hj.1
  | null => cases hj
  | bool => cases hj
  | number => cases hj.1
  | string => cases hj

theorem formOf_marshalIndent {j : Json} (h : WellFormed F .value j) : formOf (marshalIndent F j) = some (j.form F) := by
  have hread : readForm ((marshalIndent F j).length + 1) .value (marshalIndent F j ++ []) = some (j.form F, []) :=
    readForm_write 0 h ((size_le_length h false 0).trans (Nat.le_succ _)) fun _ _ hc => by cases hc
  rw [List.append_nil] at hread
  rw [formOf, hread]
  exact if_pos rfl

theorem depth_form (j : Json) : (j.form F).depth = j.depth := by
  induction j with
  | cons head tail hhead htail => rw [form, Form.depth, depth, hhead, htail]
  | field k value rest hvalue hrest => rw [form, Form.depth, depth, hvalue, hrest]
  | _ => rfl

theorem inRange_form {j : Json} {p : Part} (h : WellFormed F p j) : (j.form F).inRange F = true := by
  rw [inRange_iff]
  induction j generalizing p with
  | number x =>
      obtain ⟨-, z, hz⟩ := h
      intro l hl
      rw [List.mem_singleton.mp hl, FloatFormat.parse, F.round_format hz]
      rfl
  | cons head tail hhead htail => exact List.forall_mem_append.mpr ⟨hhead h.2.1, htail h.2.2⟩
  | field k value rest hvalue hrest => exact List.forall_mem_append.mpr ⟨hvalue h.2.2.1, hrest h.2.2.2⟩
  | _ => exact fun l hl => absurd hl List.not_mem_nil

/-- The text of a value names it with the numbers as they are written. -/
theorem value_form {j : Json} {p : Part} (h : WellFormed F p j) : (j.form F).value = j.mapNumbers F.written := by
  induction j generalizing p with
  | cons head tail hhead htail => rw [form, Form.value, mapNumbers, hhead h.2.1, htail h.2.2]
  | field k value rest hvalue hrest =>
      rw [form, Form.value, mapNumbers, hvalue h.2.2.1, hrest h.2.2.2, insert_of_lt h.2.2.2 h.2.1]
  | _ => rfl

theorem nearest_written {j : Json} {p : Part} (h : WellFormed F p j) :
    (j.mapNumbers F.written).mapNumbers F.nearest = j := by
  induction j generalizing p with
  | number x =>
      obtain ⟨-, z, hz⟩ := h
      rw [mapNumbers, mapNumbers, FloatFormat.nearest_written hz]
  | cons head tail hhead htail => rw [mapNumbers, mapNumbers, hhead h.2.1, htail h.2.2]
  | field k value rest hvalue hrest => rw [mapNumbers, mapNumbers, hvalue h.2.2.1, hrest h.2.2.2]
  | _ => rfl

theorem unmarshal_marshalIndent {j : Json} (h : WellFormed F .value j) (hdepth : j.depth ≤ maxNestingDepth) :
    unmarshal F (marshalIndent F j) = some j := by
  refine unmarshal_eq_some.mpr ⟨j.form F, formOf_marshalIndent h, ?_, inRange_form h, ?_⟩
  · rw [depth_form]
    exact hdepth
  · rw [value_form h, nearest_written h]

end roundTrip

end ThesadaApp.Json
