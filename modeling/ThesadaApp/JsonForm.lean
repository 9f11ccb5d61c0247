import ThesadaApp.JsonText

/-!
The reading of JSON texts: what is read of a text takes up some of it, is in the order of a value, an array or an object,
and does not depend on the fuel or on what follows. The value of a form has at a key what the last member with it names.
-/

namespace ThesadaApp.Json

section words

variable {rest : List Char}

/-- A word ends before what follows it. -/
def Ends (rest : List Char) : Prop := ∀ c ∈ rest.head?, isWord c = false

theorem ends_cons {c : Char} (h : isWord c = false) (cs : List Char) : Ends (c :: cs) := by
  intro x hx
  rw [List.head?_cons, Option.mem_some_iff] at hx
  exact hx ▸ h

theorem word_stops (hrest : Ends rest) : rest.takeWhile isWord = [] ∧ rest.dropWhile isWord = rest := by
  cases rest with
  | nil => exact ⟨rfl, rfl⟩
  | cons c rest =>
      have hc : ¬ isWord c = true := by
        rw [hrest c rfl]
        decide
      exact ⟨List.takeWhile_cons_of_neg hc, List.dropWhile_cons_of_neg hc⟩

/-- A word ends where the next character is none of a word. -/
theorem word_ends {word : List Char} (hword : ∀ c ∈ word, isWord c = true) (hrest : Ends rest) :
    (word ++ rest).takeWhile isWord = word ∧ (word ++ rest).dropWhile isWord = rest := by
  obtain ⟨htake, hdrop⟩ := word_stops hrest
  rw [List.takeWhile_append_of_pos hword, List.dropWhile_append_of_pos hword, htake, hdrop, List.append_nil]
  exact ⟨rfl, rfl⟩

end words

section readable

variable {F : FloatFormat} {fuel : Nat} {p : Part} {cs rest : List Char} {t : Form}

theorem token_congr {c : Char} {cs cs' : List Char} (h : skip cs = skip cs') : token c cs = token c cs' := by
  rw [token, h, token]

theorem readForm_congr {cs cs' : List Char} (h : skip cs = skip cs') : readForm fuel p cs = readForm fuel p cs' := by
  cases fuel with
  | zero => rfl
  | succ fuel => cases p <;> simp only [readForm, token_congr h, h]

theorem length_token {c : Char} {ds : List Char} (h : token c cs = some ds) : ds.length < cs.length := by
  unfold token at h
  split at h
  · next d ds' hskip =>
      split at h
      · cases h
        have hle := (List.dropWhile_suffix (p := isBlank) (l := cs)).length_le
        rw [← skip, hskip, List.length_cons] at hle
        omega
      · cases h
  · cases h

theorem length_scan {st : Pending} {ps : List Piece} (h : scan st cs = some (ps, rest)) :
    rest.length < cs.length := by
  have hpush : ∀ {q : Piece} {r : Option (List Piece × List Char)} {qs : List Piece} {n : Nat},
      push q r = some (qs, rest) → (∀ ps, r = some (ps, rest) → rest.length < n) → rest.length < n + 1 := by
    intro q r qs n hq hr
    obtain ⟨x, hx, heq⟩ := Option.map_eq_some_iff.mp hq
    cases heq
    exact Nat.lt_succ_of_lt (hr _ hx)
  induction cs generalizing st ps with
  | nil => cases st <;> cases h
  | cons c cs ih =>
      rw [List.length_cons]
      cases st with
      | none =>
          rw [scan] at h
          split_ifs at h
          · cases h
            omega
          · exact Nat.lt_succ_of_lt (ih h)
          · exact hpush h fun _ => ih
      | escape =>
          rw [scan] at h
          split_ifs at h
          · exact Nat.lt_succ_of_lt (ih h)
          · split at h
            · exact hpush h fun _ => ih
            · cases h
      | hex left acc =>
          rw [scan] at h
          split at h
          · cases h
          · split at h
            · exact hpush h fun _ => ih
            · exact Nat.lt_succ_of_lt (ih h)

theorem length_unquote {s : String} (h : unquote cs = some (s, rest)) : rest.length < cs.length := by
  obtain ⟨x, hx, heq⟩ := Option.map_eq_some_iff.mp h
  cases heq
  exact length_scan hx

theorem elementForm_eq_some {rd : Part → List Char → Option (Form × List Char)}
    (h : elementForm rd cs = some (t, rest)) :
    ∃ v vs cs', rd .value cs = some (v, cs') ∧ rd .elements cs' = some (vs, rest) ∧ t = .cons v vs := by
  simp only [elementForm, Option.bind_eq_bind, Option.bind_eq_some_iff] at h
  obtain ⟨⟨v, cs'⟩, hv, ⟨vs, cs''⟩, hvs, heq⟩ := h
  cases heq
  exact ⟨v, vs, cs', hv, hvs, rfl⟩

theorem memberForm_eq_some {rd : Part → List Char → Option (Form × List Char)}
    (h : memberForm rd cs = some (t, rest)) :
    ∃ k v m cs' cs'', cs'.length < cs.length ∧ rd .value cs' = some (v, cs'') ∧ rd .members cs'' = some (m, rest) ∧
      t = .field k v m := by
  simp only [memberForm, Option.bind_eq_bind, Option.bind_eq_some_iff] at h
  obtain ⟨cs₁, hopen, ⟨k, cs₂⟩, hkey, cs₃, hcolon, ⟨v, cs₄⟩, hv, ⟨m, cs₅⟩, hm, heq⟩ := h
  cases heq
  have hlen := length_token hcolon
  exact ⟨k, v, m, cs₃, cs₄, hlen.trans ((length_unquote hkey).trans (length_token hopen)), hv, hm, rfl⟩

/-- The forms that are read of each part. -/
def Form.Fits : Part → Form → Prop
  | p, .null | p, .bool _ | p, .string _ | p, .number _ => p = .value
  | p, .nil => p ≠ .members
  | p, .cons head tail => p ≠ .members ∧ head.Fits .value ∧ tail.Fits .elements
  | p, .empty => p ≠ .elements
  | p, .field _ value rest => p ≠ .elements ∧ value.Fits .value ∧ rest.Fits .members

theorem formOfWord_eq_some {word : List Char} (h : formOfWord word = some t) :
    t.Fits .value ∧ t.isObject = false ∧ word ≠ [] := by
  unfold formOfWord at h
  split_ifs at h with hnull htrue hfalse hnumber
  · cases h
    exact ⟨rfl, rfl, hnull ▸ List.cons_ne_nil _ _⟩
  · cases h
    exact ⟨rfl, rfl, htrue ▸ List.cons_ne_nil _ _⟩
  · cases h
    exact ⟨rfl, rfl, hfalse ▸ List.cons_ne_nil _ _⟩
  · cases h
    refine ⟨rfl, rfl, ?_⟩
    rintro rfl
    cases hnumber

theorem length_word (h : (skip cs).takeWhile isWord ≠ []) : ((skip cs).dropWhile isWord).length < cs.length := by
  have hsplit : ((skip cs).takeWhile isWord).length + ((skip cs).dropWhile isWord).length = (skip cs).length := by
    rw [← List.length_append, List.takeWhile_append_dropWhile]
  have hle : (skip cs).length ≤ cs.length := (List.dropWhile_suffix _).length_le
  have hpos := List.length_pos_iff.mpr h
  omega

/-- What is read fits the part, and is of some text. -/
theorem readForm_eq_some (h : readForm fuel p cs = some (t, rest)) : t.Fits p ∧ rest.length < cs.length := by
  induction fuel generalizing p cs t rest with
  | zero => cases h
  | succ fuel ih =>
      have helement : ∀ {cs'}, cs'.length < cs.length → elementForm (readForm fuel) cs' = some (t, rest) →
          ∀ q, q ≠ .members → t.Fits q ∧ rest.length < cs.length := by
        intro cs' hlen h q hq
        obtain ⟨v, vs, cs'', hv, hvs, rfl⟩ := elementForm_eq_some h
        have hlv := (ih hv).2
        have hlvs := (ih hvs).2
        exact ⟨⟨hq, (ih hv).1, (ih hvs).1⟩, by omega⟩
      have hmember : ∀ {cs'}, cs'.length < cs.length → memberForm (readForm fuel) cs' = some (t, rest) →
          ∀ q, q ≠ .elements → t.Fits q ∧ rest.length < cs.length := by
        intro cs' hlen h q hq
        obtain ⟨k, v, m, cs₁, cs₂, hlk, hv, hm, rfl⟩ := memberForm_eq_some h
        have hlv := (ih hv).2
        have hlm := (ih hm).2
        exact ⟨⟨hq, (ih hv).1, (ih hm).1⟩, by omega⟩
      cases p with
      | value =>
          rw [readForm] at h
          split at h
          · next cs' hopen =>
              have hlen := length_token hopen
              split at h
              · next cs'' hclose =>
                  cases h
                  exact ⟨Part.noConfusion, (length_token hclose).trans hlen⟩
              · exact hmember hlen h .value (by decide)
          · split at h
            · next cs' hopen =>
                have hlen := length_token hopen
                split at h
                · next cs'' hclose =>
                    cases h
                    exact ⟨Part.noConfusion, (length_token hclose).trans hlen⟩
                · exact helement hlen h .value (by decide)
            · split at h
              · next cs' hopen =>
                  obtain ⟨x, hx, heq⟩ := Option.map_eq_some_iff.mp h
                  cases heq
                  exact ⟨rfl, (length_unquote hx).trans (length_token hopen)⟩
              · obtain ⟨t', ht', heq⟩ := Option.map_eq_some_iff.mp h
                cases heq
                obtain ⟨hfits, -, hne⟩ := formOfWord_eq_some ht'
                exact ⟨hfits, length_word hne⟩
      | elements =>
          rw [readForm] at h
          split at h
          · next cs' hclose =>
              cases h
              exact ⟨Part.noConfusion, length_token hclose⟩
          · obtain ⟨cs', hcomma, h⟩ := Option.bind_eq_some_iff.mp h
            exact helement (length_token hcomma) h .elements (by decide)
      | members =>
          rw [readForm] at h
          split at h
          · next cs' hclose =>
              cases h
              exact ⟨Part.noConfusion, length_token hclose⟩
          · obtain ⟨cs', hcomma, h⟩ := Option.bind_eq_some_iff.mp h
            exact hmember (length_token hcomma) h .members (by decide)

theorem formOf_eq_some {text : List Char} (h : formOf text = some t) :
    ∃ rest, readForm (text.length + 1) .value text = some (t, rest) ∧ skip rest = [] := by
  unfold formOf at h
  split at h
  · next t' rest hread =>
      split_ifs at h with hrest
      cases h
      exact ⟨rest, hread, hrest⟩
  · cases h

/-- Only a brace begins an object. -/
theorem token_of_isObject (h : readForm fuel .value cs = some (t, rest)) (hobject : t.isObject = true) :
    (token '{' cs).isSome = true := by
  cases fuel with
  | zero => cases h
  | succ fuel =>
      rw [readForm] at h
      split at h
      · next hopen => exact Option.isSome_iff_exists.mpr ⟨_, hopen⟩
      · split at h
        · split at h
          · cases h
            cases hobject
          · obtain ⟨v, vs, cs', -, -, rfl⟩ := elementForm_eq_some h
            cases hobject
        · split at h
          · obtain ⟨x, -, heq⟩ := Option.map_eq_some_iff.mp h
            cases heq
            cases hobject
          · obtain ⟨t', ht', heq⟩ := Option.map_eq_some_iff.mp h
            cases heq
            rw [(formOfWord_eq_some ht').2.1] at hobject
            cases hobject

theorem elementForm_congr {rd rd' : Part → List Char → Option (Form × List Char)} {n : Nat} (hn : cs.length ≤ n)
    (hlen : ∀ {cs v cs'}, rd .value cs = some (v, cs') → cs'.length < cs.length)
    (h : ∀ q cs, cs.length ≤ n → rd q cs = rd' q cs) : elementForm rd cs = elementForm rd' cs := by
  rw [elementForm, elementForm, ← h _ _ hn]
  cases hv : rd .value cs with
  | none => rfl
  | some x =>
      obtain ⟨v, cs'⟩ := x
      have hcs' := hlen hv
      simp only [Option.bind_eq_bind, Option.bind_some, h .elements cs' (by omega)]

theorem memberForm_congr {rd rd' : Part → List Char → Option (Form × List Char)} {n : Nat} (hn : cs.length ≤ n)
    (hlen : ∀ {cs v cs'}, rd .value cs = some (v, cs') → cs'.length < cs.length)
    (h : ∀ q cs, cs.length ≤ n → rd q cs = rd' q cs) : memberForm rd cs = memberForm rd' cs := by
  simp only [memberForm]
  refine Option.bind_congr fun cs₁ hopen => ?_
  refine Option.bind_congr fun x hkey => ?_
  obtain ⟨k, cs₂⟩ := x
  refine Option.bind_congr fun cs₃ hcolon => ?_
  have hlo := length_token hopen
  have hlk := length_unquote hkey
  have hlc := length_token hcolon
  dsimp only at hlc ⊢
  rw [← h .value cs₃ (by omega)]
  refine Option.bind_congr fun y hv => ?_
  obtain ⟨v, cs₄⟩ := y
  have hlv := hlen hv
  dsimp only
  rw [h .members cs₄ (by omega)]

/-- The length of the text is fuel enough. -/
theorem readForm_fuel {fuel' : Nat} (h : cs.length < fuel) (h' : cs.length < fuel') :
    readForm fuel p cs = readForm fuel' p cs := by
  induction fuel generalizing fuel' p cs with
  | zero => exact absurd h (Nat.not_lt_zero _)
  | succ fuel ih =>
      obtain ⟨n, rfl⟩ := Nat.exists_eq_add_of_le' (show 1 ≤ fuel' by omega)
      have hsame : ∀ q cs', cs'.length < cs.length → readForm fuel q cs' = readForm n q cs' :=
        fun q cs' hlt => ih (by omega) (by omega)
      have hlength : ∀ {cs v cs'}, readForm fuel .value cs = some (v, cs') → cs'.length < cs.length :=
        fun h => (readForm_eq_some h).2
      have helement : ∀ cs', cs'.length < cs.length → elementForm (readForm fuel) cs' = elementForm (readForm n) cs' :=
        fun cs' hlt => elementForm_congr (Nat.le_refl _) hlength fun q x hx => hsame q x (by omega)
      have hmember : ∀ cs', cs'.length < cs.length → memberForm (readForm fuel) cs' = memberForm (readForm n) cs' :=
        fun cs' hlt => memberForm_congr (Nat.le_refl _) hlength fun q x hx => hsame q x (by omega)
      cases p with
      | value =>
          rw [readForm, readForm]
          split
          · next cs' hopen => simp only [hmember _ (length_token hopen)]
          · split
            · next cs' hopen => simp only [helement _ (length_token hopen)]
            · rfl
      | elements =>
          rw [readForm, readForm]
          split
          · rfl
          · exact Option.bind_congr fun cs' hcomma => helement _ (length_token hcomma)
      | members =>
          rw [readForm, readForm]
          split
          · rfl
          · exact Option.bind_congr fun cs' hcomma => hmember _ (length_token hcomma)

section append

variable {post : List Char}

theorem skip_append (h : skip cs ≠ []) : skip (cs ++ post) = skip cs ++ post := by
  rw [skip, List.dropWhile_append, if_neg]
  · rfl
  · rw [List.isEmpty_iff]
    exact h

theorem token_append {c : Char} (h : skip cs ≠ []) : token c (cs ++ post) = (token c cs).map (· ++ post) := by
  rw [token, token, skip_append h]
  cases hskip : skip cs with
  | nil => exact absurd hskip h
  | cons d ds =>
      rw [List.cons_append]
      dsimp only
      split_ifs <;> rfl

theorem skip_ne_nil {c : Char} {ds : List Char} (h : token c cs = some ds) : skip cs ≠ [] := by
  intro hnil
  rw [token, hnil] at h
  cases h

theorem token_append_some {c : Char} {ds : List Char} (h : token c cs = some ds) :
    token c (cs ++ post) = some (ds ++ post) := by
  rw [token_append (skip_ne_nil h), h]
  rfl

theorem scan_append {st : Pending} {ps : List Piece} (h : scan st cs = some (ps, rest)) :
    scan st (cs ++ post) = some (ps, rest ++ post) := by
  have hpush : ∀ {q : Piece} {r r' : Option (List Piece × List Char)} {ps : List Piece},
      push q r = some (ps, rest) → (∀ {qs}, r = some (qs, rest) → r' = some (qs, rest ++ post)) →
        push q r' = some (ps, rest ++ post) := by
    intro q r r' ps hq hr
    obtain ⟨x, hx, heq⟩ := Option.map_eq_some_iff.mp hq
    cases heq
    rw [hr hx]
    rfl
  induction cs generalizing st ps with
  | nil => cases st <;> cases h
  | cons c cs ih =>
      rw [List.cons_append]
      cases st with
      | none =>
          rw [scan] at h ⊢
          split_ifs at h ⊢
          · cases h
            rfl
          · exact ih h
          · exact hpush h ih
      | escape =>
          rw [scan] at h ⊢
          split_ifs at h ⊢
          · exact ih h
          · split at h
            · exact hpush h ih
            · cases h
      | hex left acc =>
          rw [scan] at h ⊢
          split at h
          · cases h
          · split at h
            · exact hpush h ih
            · exact ih h

theorem unquote_append {s : String} (h : unquote cs = some (s, rest)) :
    unquote (cs ++ post) = some (s, rest ++ post) := by
  obtain ⟨x, hx, heq⟩ := Option.map_eq_some_iff.mp h
  cases heq
  rw [unquote, scan_append hx]
  rfl

theorem word_append (hpost : Ends post) : (cs ++ post).takeWhile isWord = cs.takeWhile isWord ∧
    (cs ++ post).dropWhile isWord = cs.dropWhile isWord ++ post := by
  induction cs with
  | nil => exact word_stops hpost
  | cons c cs ih =>
      by_cases hc : isWord c = true
      · rw [List.cons_append, List.takeWhile_cons_of_pos hc, List.dropWhile_cons_of_pos hc,
          List.takeWhile_cons_of_pos hc, List.dropWhile_cons_of_pos hc, ih.1, ih.2]
        exact ⟨rfl, rfl⟩
      · rw [List.cons_append, List.takeWhile_cons_of_neg hc, List.dropWhile_cons_of_neg hc,
          List.takeWhile_cons_of_neg hc, List.dropWhile_cons_of_neg hc]
        exact ⟨rfl, rfl⟩

/-- What is read begins with a character that is not blank. -/
theorem skip_ne_nil_of_readForm (h : readForm fuel p cs = some (t, rest)) : skip cs ≠ [] := by
  intro hnil
  have htoken : ∀ c, token c cs = none := fun c => by rw [token, hnil]
  cases fuel with
  | zero => cases h
  | succ fuel => cases p <;> simp [readForm, htoken, hnil, formOfWord, NumState.accepts] at h

theorem skip_ne_nil_of_member {rd : Part → List Char → Option (Form × List Char)}
    (h : memberForm rd cs = some (t, rest)) : skip cs ≠ [] := by
  simp only [memberForm, Option.bind_eq_bind, Option.bind_eq_some_iff] at h
  obtain ⟨cs₁, hopen, -⟩ := h
  exact skip_ne_nil hopen

theorem head_of_readForm {c : Char} {ds : List Char} (h : readForm fuel .value cs = some (t, rest))
    (hcs : skip cs = c :: ds) :
    c = '{' ∨ c = '[' ∨ c = '"' ∨ isWord c = true := by
  by_contra hother
  simp only [not_or] at hother
  obtain ⟨hbrace, hbracket, hquote, hword⟩ := hother
  cases fuel with
  | zero => cases h
  | succ fuel =>
      simp [readForm, token, hcs, hbrace, hbracket, hquote, List.takeWhile_cons_of_neg hword, formOfWord,
        NumState.accepts] at h

section reader

variable {rd : Part → List Char → Option (Form × List Char)}
  (hrd : ∀ {p : Part} {cs : List Char} {t : Form} {rest : List Char}, rd p cs = some (t, rest) →
    rd p (cs ++ post) = some (t, rest ++ post))

include hrd

theorem elementForm_append (h : elementForm rd cs = some (t, rest)) :
    elementForm rd (cs ++ post) = some (t, rest ++ post) := by
  obtain ⟨v, vs, cs', hv, hvs, rfl⟩ := elementForm_eq_some h
  simp only [elementForm, hrd hv, hrd hvs, Option.bind_eq_bind, Option.bind_some]
  rfl

theorem memberForm_append (h : memberForm rd cs = some (t, rest)) :
    memberForm rd (cs ++ post) = some (t, rest ++ post) := by
  simp only [memberForm, Option.bind_eq_bind, Option.bind_eq_some_iff] at h
  obtain ⟨cs₁, hopen, ⟨k, cs₂⟩, hkey, cs₃, hcolon, ⟨v, cs₄⟩, hv, ⟨m, cs₅⟩, hm, heq⟩ := h
  cases heq
  simp only [memberForm, Option.bind_eq_bind, token_append_some hopen, unquote_append hkey, token_append_some hcolon,
    hrd hv, hrd hm, Option.bind_some]
  rfl

end reader

/-- What follows the text of a value, and does not carry on a word, is left unread. -/
theorem readForm_append (h : readForm fuel p cs = some (t, rest)) (hpost : Ends post) :
    readForm fuel p (cs ++ post) = some (t, rest ++ post) := by
  induction fuel generalizing p cs t rest with
  | zero => cases h
  | succ fuel ih =>
      have hskip := skip_ne_nil_of_readForm h
      cases p with
      | value =>
          rw [readForm] at h ⊢
          split at h
          · next ds hopen =>
              rw [token_append_some hopen]
              dsimp only
              split at h
              · next ds' hclose =>
                  cases h
                  rw [token_append_some hclose]
              · next hclose =>
                  rw [token_append (skip_ne_nil_of_member h), hclose]
                  exact memberForm_append ih h
          · next hbrace =>
              rw [token_append hskip, hbrace]
              dsimp only [Option.map_none]
              split at h
              · next ds hopen =>
                  rw [token_append_some hopen]
                  dsimp only
                  split at h
                  · next ds' hclose =>
                      cases h
                      rw [token_append_some hclose]
                  · next hclose =>
                      obtain ⟨v, vs, cs', hv, -, -⟩ := elementForm_eq_some h
                      rw [token_append (skip_ne_nil_of_readForm hv), hclose]
                      exact elementForm_append ih h
              · next hbracket =>
                  rw [token_append hskip, hbracket]
                  dsimp only [Option.map_none]
                  split at h
                  · next ds hopen =>
                      obtain ⟨x, hx, heq⟩ := Option.map_eq_some_iff.mp h
                      cases heq
                      rw [token_append_some hopen]
                      dsimp only
                      rw [unquote_append hx]
                      rfl
                  · next hquote =>
                      rw [token_append hskip, hquote]
                      dsimp only [Option.map_none]
                      rw [skip_append hskip, (word_append hpost).1, (word_append hpost).2]
                      obtain ⟨j', hj', heq⟩ := Option.map_eq_some_iff.mp h
                      cases heq
                      rw [hj']
                      rfl
      | elements =>
          rw [readForm] at h ⊢
          split at h
          · next ds hclose =>
              cases h
              rw [token_append_some hclose]
          · next hclose =>
              obtain ⟨cs', hcomma, h⟩ := Option.bind_eq_some_iff.mp h
              rw [token_append hskip, hclose]
              dsimp only [Option.map_none]
              rw [token_append_some hcomma]
              exact elementForm_append ih h
      | members =>
          rw [readForm] at h ⊢
          split at h
          · next ds hclose =>
              cases h
              rw [token_append_some hclose]
          · next hclose =>
              obtain ⟨cs', hcomma, h⟩ := Option.bind_eq_some_iff.mp h
              rw [token_append hskip, hclose]
              dsimp only [Option.map_none]
              rw [token_append_some hcomma]
              exact memberForm_append ih h

end append

end readable

section values

variable {F : FloatFormat} {f : Rat → Rat} {p : Part} {k : String} {v j : Json}

theorem keys_insert {k' : String} (h : k' ∈ (insert k v j).keys) : k' = k ∨ k' ∈ j.keys := by
  induction j with
  | field k'' v' rest _ ih =>
      rw [insert] at h
      split_ifs at h
      · exact List.mem_cons.mp h
      · exact .inr h
      · rcases List.mem_cons.mp h with rfl | h
        · exact .inr List.mem_cons_self
        · exact (ih h).imp_right (List.mem_cons_of_mem _)
  | _ => exact .inl (List.mem_singleton.mp h)

theorem wellFormed_insert (hv : WellFormed F .value v) (hj : WellFormed F .members j)
    (hp : p ≠ .elements) : WellFormed F p (insert k v j) := by
  induction j generalizing p with
  | field k' v' rest _ ih =>
      obtain ⟨-, hlt, hv', hrest⟩ := hj
      rw [insert]
      split_ifs with hbefore hsame
      · refine ⟨hp, fun x hx => ?_, hv, by decide, hlt, hv', hrest⟩
        rcases List.mem_cons.mp hx with rfl | hx
        · exact hbefore
        · exact List.lt_trans hbefore (hlt x hx)
      · exact ⟨hp, hlt, hv', hrest⟩
      · refine ⟨hp, fun x hx => ?_, hv', ih hrest (by decide)⟩
        rcases keys_insert hx with rfl | hx
        · by_contra hafter
          exact hsame (String.toList_inj.mp (List.le_antisymm (List.not_lt.mp hafter) (List.not_lt.mp hbefore)))
        · exact hlt x hx
  | _ => exact ⟨hp, fun x hx => absurd hx List.not_mem_nil, hv, Part.noConfusion⟩

/-- The members of an object are in the order of their keys. -/
def KeysSorted : Json → Prop
  | .field k _ rest => (∀ k' ∈ rest.keys, k.toList < k'.toList) ∧ rest.KeysSorted
  | _ => True

theorem get_of_not_mem (h : k ∉ j.keys) : j.get k = none := by
  induction j with
  | field k' v rest _ ih =>
      rw [keys, List.mem_cons, not_or] at h
      obtain ⟨hne, hrest⟩ := h
      rw [Json.get, if_neg (Ne.symm hne), ih hrest]
  | _ => rfl

theorem KeysSorted.insert (hj : j.KeysSorted) : (Json.insert k v j).KeysSorted := by
  induction j with
  | field k' v' rest _ ih =>
      obtain ⟨hlt, hrest⟩ := hj
      rw [Json.insert]
      split_ifs with hbefore hsame
      · refine ⟨?_, hlt, hrest⟩
        intro x hx
        rcases List.mem_cons.mp hx with rfl | hx
        · exact hbefore
        · exact List.lt_trans hbefore (hlt x hx)
      · exact ⟨hlt, hrest⟩
      · refine ⟨?_, ih hrest⟩
        intro x hx
        rcases keys_insert hx with rfl | hx
        · by_contra hafter
          exact hsame (String.toList_inj.mp (List.le_antisymm (List.not_lt.mp hafter) (List.not_lt.mp hbefore)))
        · exact hlt x hx
  | _ => exact ⟨fun x hx => absurd hx List.not_mem_nil, trivial⟩

/-- A member put before others counts unless one of them has its key. -/
theorem get_insert (hj : j.KeysSorted) (key : String) :
    (Json.insert k v j).get key = if k = key then some ((j.get key).getD v) else j.get key := by
  induction j with
  | field k' v' rest _ ih =>
      obtain ⟨hlt, hrest⟩ := hj
      rw [Json.insert]
      split_ifs with hbefore hkey hsame hkey hkey
      · subst hkey
        have hnone : (Json.field k' v' rest).get k = none := get_of_not_mem fun hmem => by
          rcases List.mem_cons.mp hmem with rfl | hmem
          · exact List.lt_irrefl _ hbefore
          · exact List.lt_irrefl _ (List.lt_trans hbefore (hlt k hmem))
        rw [hnone, Json.get, if_pos rfl]
        rfl
      · rw [Json.get, if_neg hkey]
      · subst hkey hsame
        simp [Json.get]
      · rfl
      · have hne : k' ≠ key := fun heq => hsame (hkey.trans heq.symm)
        rw [Json.get, if_neg hne, ih hrest, if_pos hkey, Json.get, if_neg hne]
      · rw [Json.get, Json.get, ih hrest, if_neg hkey]
  | _ => rfl

theorem keysSorted_value (t : Form) : t.value.KeysSorted := by
  induction t with
  | field k value rest _ ih => exact ih.insert
  | _ => trivial

/-- The value at a key is that of the last member with it. -/
theorem get_value (t : Form) (key : String) : t.value.get key = (t.get key).map Form.value := by
  induction t with
  | field k value rest _ ih =>
      rw [Form.value, get_insert (keysSorted_value rest), ih, Form.get]
      cases rest.get key <;> split_ifs <;> rfl
  | _ => rfl

theorem keys_mapNumbers : (j.mapNumbers f).keys = j.keys := by
  induction j with
  | field k v rest _ ih => rw [mapNumbers, keys, keys, ih]
  | _ => rfl

theorem mapNumbers_insert : (Json.insert k v j).mapNumbers f = Json.insert k (v.mapNumbers f) (j.mapNumbers f) := by
  induction j with
  | field k' v' rest _ ih =>
      rw [Json.insert, mapNumbers, Json.insert]
      split_ifs
      · rfl
      · rfl
      · rw [mapNumbers, ih]
  | _ => rfl

theorem get_mapNumbers (key : String) : (j.mapNumbers f).get key = (j.get key).map (mapNumbers f) := by
  induction j with
  | field k v rest _ ih =>
      rw [mapNumbers, Json.get, Json.get, ih]
      split_ifs <;> rfl
  | _ => rfl

/-- How deep arrays and objects are nested in a value. -/
def depth : Json → Nat
  | .nil | .empty => 1
  | .cons head tail => max (head.depth + 1) tail.depth
  | .field _ value rest => max (value.depth + 1) rest.depth
  | _ => 0

theorem depth_mapNumbers : (j.mapNumbers f).depth = j.depth := by
  induction j with
  | cons head tail hhead htail => rw [mapNumbers, depth, depth, hhead, htail]
  | field k value rest hvalue hrest => rw [mapNumbers, depth, depth, hvalue, hrest]
  | _ => rfl

theorem depth_insert_le : (Json.insert k v j).depth ≤ max (v.depth + 1) (max 1 j.depth) := by
  induction j with
  | field k' v' rest _ ih =>
      rw [Json.insert]
      split_ifs <;> simp only [depth] <;> omega
  | _ =>
      simp only [Json.insert, depth]
      omega

theorem one_le_depth_members {t : Form} (h : t.Fits .members) : 1 ≤ t.depth := by
  induction t with
  | empty => exact Nat.le_refl 1
  | field k value rest _ ih => exact (ih h.2.2).trans (Nat.le_max_right _ _)
  | nil => exact absurd rfl h
  | cons => exact absurd rfl h.1
  | null | bool | number | string => cases h

/-- A value is nested no deeper than its text. -/
theorem depth_value_le {t : Form} (h : t.Fits p) : t.value.depth ≤ t.depth := by
  induction t generalizing p with
  | cons head tail hhead htail =>
      have hle := hhead h.2.1
      have hle' := htail h.2.2
      simp only [Form.value, depth, Form.depth]
      omega
  | field k value rest hvalue hrest =>
      have hle := hvalue h.2.1
      have hle' := hrest h.2.2
      have hone := one_le_depth_members h.2.2
      have hinsert := depth_insert_le (k := k) (v := value.value) (j := rest.value)
      simp only [Form.value, Form.depth]
      omega
  | _ => exact Nat.le_refl _

theorem inRange_iff {t : Form} : t.inRange F = true ↔ ∀ l ∈ t.literals, (F.parse l).isSome = true := List.all_eq_true

/-- A value whose numbers are in range is well formed once they are rounded. -/
theorem wellFormed_value {t : Form} (h : t.Fits p) (hrange : t.inRange F = true) :
    WellFormed F p (t.value.mapNumbers F.nearest) := by
  rw [inRange_iff] at hrange
  induction t generalizing p with
  | number l =>
      obtain ⟨x, hx⟩ := Option.isSome_iff_exists.mp (hrange l (List.mem_singleton_self l))
      exact ⟨h, decimal l, hx.trans (congrArg some (FloatFormat.nearest_eq hx).symm)⟩
  | cons head tail hhead htail =>
      exact ⟨h.1, hhead h.2.1 fun l hl => hrange l (List.mem_append_left _ hl),
        htail h.2.2 fun l hl => hrange l (List.mem_append_right _ hl)⟩
  | field k value rest hvalue hrest =>
      rw [Form.value, mapNumbers_insert]
      exact wellFormed_insert (hvalue h.2.1 fun l hl => hrange l (List.mem_append_left _ hl))
        (hrest h.2.2 fun l hl => hrange l (List.mem_append_right _ hl)) h.1
  | _ => exact h

/-- What is decoded of a text: it is JSON, not nested too deep, and its numbers are in range. -/
theorem unmarshal_eq_some {text : List Char} : unmarshal F text = some j ↔
    ∃ t, formOf text = some t ∧ t.depth ≤ maxNestingDepth ∧ t.inRange F = true ∧ j = t.value.mapNumbers F.nearest := by
  rw [unmarshal]
  cases formOf text with
  | none => simp
  | some t =>
      simp only [Option.some.injEq, exists_eq_left', Form.toJson]
      split_ifs with hdeep hrange
      · simp [Nat.not_le.mpr hdeep]
      · simp [Nat.not_lt.mp hdeep, hrange, eq_comm]
      · simp [hrange]

theorem unmarshal_none {text : List Char} (h : formOf text = none) : unmarshal F text = none := by
  rw [unmarshal, h]

theorem wellFormed_of_unmarshal {text : List Char} (h : unmarshal F text = some j) : WellFormed F .value j := by
  obtain ⟨t, hform, -, hrange, rfl⟩ := unmarshal_eq_some.mp h
  obtain ⟨rest, hread, -⟩ := formOf_eq_some hform
  exact wellFormed_value (readForm_eq_some hread).1 hrange

end values

end ThesadaApp.Json
