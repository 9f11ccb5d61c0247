import ThesadaApp.Utf8Lossy

/-!
Text that is read in chunks, each as UTF-8 for itself. A chunk that cuts a character is read with a replacement for each
byte of it, so the text that is read is the text there is when no chunk cuts one, and otherwise only when the text is
made of replacements from the first cut on.
-/

namespace Utf8

/-- Bytes that are read as what they are. -/
def IsText (bs : List UInt8) : Prop := encode (lossy bs) = bs

instance (bs : List UInt8) : Decidable (IsText bs) := inferInstanceAs (Decidable (_ = _))

/-- A byte that goes on with a character, for each of some bytes. -/
def Conts (q : List UInt8) : Prop := ∀ b ∈ q, isCont b = true

section chars

variable {q bs p rest : List UInt8} {b : UInt8} {c : Char} {cs ds : List Char}

theorem encode_nil : encode [] = [] := rfl

theorem encode_cons (c : Char) (cs : List Char) : encode (c :: cs) = String.utf8EncodeChar c ++ encode cs :=
  List.flatMap_cons

theorem encode_append (cs ds : List Char) : encode (cs ++ ds) = encode cs ++ encode ds := List.flatMap_append

theorem lossy_encode_self (cs : List Char) : lossy (encode cs) = cs := by
  have h := lossy_encode cs []
  rwa [List.append_nil, show lossy [] = [] from rfl, List.append_nil] at h

theorem isText_encode (cs : List Char) : IsText (encode cs) := by rw [IsText, lossy_encode_self]

theorem decodeChar_cont (hb : isCont b = true) : decodeChar (b :: bs) = none := by
  cases hdecode : decodeChar (b :: bs) with
  | none => rfl
  | some c =>
      obtain ⟨rest, hrest⟩ := decodeChar_eq_some hdecode
      obtain ⟨first, conts, hencode, hfirst, -⟩ := encodeChar_eq c
      rw [hencode, List.cons_append] at hrest
      obtain ⟨rfl, -⟩ := List.cons.inj hrest
      rw [hb] at hfirst
      cases hfirst

/-- Bytes that go on with no character are replaced. -/
theorem lossy_conts (hq : Conts q) (bs : List UInt8) :
    lossy (q ++ bs) = List.replicate q.length replacement ++ lossy bs := by
  induction q with
  | nil => rfl
  | cons b q ih =>
      have htail : Conts q := fun d hd => hq d (List.mem_cons_of_mem b hd)
      rw [List.cons_append, lossy, lossyFrom, decodeChar_cont (hq b List.mem_cons_self)]
      dsimp only
      rw [List.length_cons, List.replicate_succ, List.cons_append]
      exact congrArg (replacement :: ·) (ih htail)

/-- The first bytes of a character that is cut are replaced, and the others go on with it. -/
theorem lossy_cut (h : p ++ q = String.utf8EncodeChar c) (hp : p ≠ []) (hq : q ≠ []) :
    lossy p = List.replicate p.length replacement ∧ Conts q := by
  obtain ⟨first, conts, hencode, -, hconts, -⟩ := encodeChar_eq c
  obtain ⟨b, ps, rfl⟩ := List.exists_cons_of_ne_nil hp
  rw [hencode, List.cons_append] at h
  obtain ⟨rfl, rfl⟩ := List.cons.inj h
  have hps : Conts ps := fun d hd => hconts d (List.mem_append_left q hd)
  have hnone : decodeChar (b :: ps) = none := by
    cases hdecode : decodeChar (b :: ps) with
    | none => rfl
    | some d =>
        -- The character would be complete before the cut.
        have hlong := decodeChar_append hdecode q
        have hwhole := decodeChar_encodeChar c []
        rw [List.append_nil, hencode] at hwhole
        rw [List.cons_append, hwhole] at hlong
        obtain rfl := Option.some.inj hlong
        obtain ⟨rest, hrest⟩ := decodeChar_eq_some hdecode
        rw [hencode] at hrest
        have hlength := congrArg List.length hrest
        have hpos := List.length_pos_of_ne_nil hq
        simp only [List.length_append, List.length_cons] at hlength
        omega
  refine ⟨?_, fun d hd => hconts d (List.mem_append_right ps hd)⟩
  have htail := lossy_conts hps []
  rw [List.append_nil, show lossy [] = [] from rfl, List.append_nil] at htail
  rw [lossy, lossyFrom, hnone]
  dsimp only
  rw [List.length_cons, List.replicate_succ]
  exact congrArg (replacement :: ·) htail

end chars

section reading

/-- What a chunk of a text is read as. Before the chunk the bytes `q` were left of a character that is cut, and then
come the characters `e`; after it `q'` and `e'` are left. -/
inductive Reading (q : List UInt8) (e : List Char) (c : List UInt8) : List Char → List UInt8 → List Char → Prop
  | inside {q' : List UInt8} (hq : q = c ++ q') : Reading q e c (List.replicate c.length replacement) q' e
  | whole {e₁ e' : List Char} (he : e = e₁ ++ e') (hc : c = q ++ encode e₁) :
      Reading q e c (List.replicate q.length replacement ++ e₁) [] e'
  | cut {e₁ e' : List Char} {d : Char} {p q' : List UInt8} (he : e = e₁ ++ d :: e') (hc : c = q ++ (encode e₁ ++ p))
      (hd : p ++ q' = String.utf8EncodeChar d) (hp : p ≠ []) (hq' : q' ≠ []) :
      Reading q e c (List.replicate q.length replacement ++ (e₁ ++ List.replicate p.length replacement)) q' e'

variable {c q rest u : List UInt8} {e : List Char} {cs : List (List UInt8)} {s : Nat}

/-- Where a chunk of a text ends: between two characters or in one. -/
theorem exists_cut (h : c ++ rest = encode e) : ∃ e₁ e₂, e = e₁ ++ e₂ ∧
    ((c = encode e₁ ∧ rest = encode e₂) ∨ ∃ d e' p q', e₂ = d :: e' ∧ c = encode e₁ ++ p ∧
      p ++ q' = String.utf8EncodeChar d ∧ p ≠ [] ∧ q' ≠ [] ∧ rest = q' ++ encode e') := by
  induction e generalizing c with
  | nil =>
      obtain ⟨rfl, rfl⟩ := List.append_eq_nil_iff.mp h
      exact ⟨[], [], rfl, .inl ⟨rfl, rfl⟩⟩
  | cons d e ih =>
      rw [encode_cons] at h
      rcases List.append_eq_append_iff.mp h with ⟨as, hd, hrest⟩ | ⟨bs, hc, hbs⟩
      · by_cases hc : c = []
        · subst hc
          rw [List.nil_append] at h
          exact ⟨[], d :: e, rfl, .inl ⟨rfl, h⟩⟩
        · by_cases has : as = []
          · subst has
            rw [List.append_nil] at hd
            exact ⟨[d], e, rfl, .inl ⟨by rw [encode_cons, encode_nil, List.append_nil, hd], hrest⟩⟩
          · exact ⟨[], d :: e, rfl, .inr ⟨d, e, c, as, rfl, rfl, hd.symm, hc, has, hrest⟩⟩
      · obtain ⟨e₁, e₂, rfl, ⟨rfl, hrest⟩ | ⟨d', e', p, q', rfl, rfl, hd', hp, hq', hrest⟩⟩ := ih hbs.symm
        · exact ⟨d :: e₁, e₂, rfl, .inl ⟨by rw [hc, encode_cons], hrest⟩⟩
        · refine ⟨d :: e₁, d' :: e', rfl, .inr ⟨d', e', p, q', rfl, ?_, hd', hp, hq', hrest⟩⟩
          rw [hc, encode_cons, List.append_assoc]

theorem exists_reading (hq : Conts q) (h : c ++ rest = q ++ encode e) :
    ∃ q' e', Reading q e c (lossy c) q' e' ∧ Conts q' ∧ rest = q' ++ encode e' := by
  have hnil : Conts [] := fun b hb => absurd hb List.not_mem_nil
  rcases List.append_eq_append_iff.mp h with ⟨as, rfl, hrest⟩ | ⟨bs, rfl, hbs⟩
  · have hc : lossy c = List.replicate c.length replacement := by
      have hall := lossy_conts (fun b hb => hq b (List.mem_append_left as hb)) []
      rwa [List.append_nil, show lossy [] = [] from rfl, List.append_nil] at hall
    rw [hc]
    exact ⟨as, e, .inside rfl, fun b hb => hq b (List.mem_append_right c hb), hrest⟩
  · rw [lossy_conts hq]
    obtain ⟨e₁, e₂, rfl, ⟨rfl, rfl⟩ | ⟨d, e', p, q', rfl, rfl, hd, hp, hq', rfl⟩⟩ := exists_cut hbs.symm
    · rw [lossy_encode_self]
      exact ⟨[], e₂, .whole rfl rfl, hnil, rfl⟩
    · obtain ⟨hlossy, hconts⟩ := lossy_cut hd hp hq'
      rw [lossy_encode, hlossy]
      exact ⟨q', e', .cut rfl rfl hd hp hq', hconts, rfl⟩

/-- A list that begins with itself moved by replacements is made of replacements. -/
theorem eq_of_shift {r : Char} {e₁ x e₂ : List Char} (hs : 0 < s)
    (h : List.replicate s r ++ (e₁ ++ x) = e₁ ++ e₂) : (∀ d ∈ e₁, d = r) ∧ List.replicate s r ++ x = e₂ := by
  induction e₁ with
  | nil => exact ⟨fun d hd => absurd hd List.not_mem_nil, h⟩
  | cons d e₁ ih =>
      obtain ⟨n, rfl⟩ := Nat.exists_eq_add_of_lt hs
      rw [Nat.zero_add, List.replicate_succ, List.cons_append, List.cons_append] at h
      obtain ⟨rfl, h⟩ := List.cons.inj h
      have hmoved : List.replicate (0 + n + 1) r ++ (e₁ ++ x) = e₁ ++ e₂ := by
        rw [Nat.zero_add, List.replicate_succ', List.append_assoc]
        exact h
      obtain ⟨hall, hrest⟩ := ih hmoved
      exact ⟨List.forall_mem_cons.mpr ⟨rfl, hall⟩, hrest⟩

/-- Once as much as one byte is replaced, what is read is the text only if all that follows is replacements. -/
theorem replacements_of_shift (hcs : ∀ c ∈ cs, c ≠ []) (hq : Conts q) (hs : 0 < s + q.length)
    (h : cs.flatten ++ u = q ++ encode e) (hread : List.replicate s replacement ++ cs.flatMap lossy = e) :
    ∀ d ∈ e, d = replacement := by
  induction cs generalizing q e s with
  | nil =>
      rw [List.flatMap_nil, List.append_nil] at hread
      rw [← hread]
      exact fun d hd => List.eq_of_mem_replicate hd
  | cons c cs ih =>
      obtain ⟨hc, hcs⟩ := List.forall_mem_cons.mp hcs
      rw [List.flatten_cons, List.append_assoc] at h
      rw [List.flatMap_cons] at hread
      obtain ⟨q', e', hreading, hq', hrest⟩ := exists_reading hq h
      generalize lossy c = out at hreading hread
      cases hreading with
      | inside hin =>
          refine ih hcs hq' (s := s + c.length) ?_ hrest ?_
          · have := List.length_pos_of_ne_nil hc
            omega
          · rw [← hread, ← List.append_assoc, List.replicate_append_replicate]
      | whole he hwhole =>
          subst he
          rw [List.append_assoc, ← List.append_assoc, List.replicate_append_replicate] at hread
          obtain ⟨hall, hread⟩ := eq_of_shift hs hread
          exact List.forall_mem_append.mpr ⟨hall, ih hcs hq' (Nat.add_pos_left hs _) hrest hread⟩
      | @cut e₁ e' d p q' he hcut hd hp hne =>
          subst he
          rw [List.append_assoc, ← List.append_assoc, List.replicate_append_replicate, List.append_assoc] at hread
          obtain ⟨hall, hread⟩ := eq_of_shift hs hread
          obtain ⟨n, hn⟩ := Nat.exists_eq_add_of_lt (List.length_pos_of_ne_nil hp)
          rw [← List.append_assoc, List.replicate_append_replicate, hn, Nat.zero_add, ← Nat.add_assoc,
            List.replicate_succ, List.cons_append] at hread
          obtain ⟨rfl, hread'⟩ := List.cons.inj hread
          have hreplaced := ih hcs hq' (s := s + q.length + n) (by omega) hrest hread'
          exact List.forall_mem_append.mpr ⟨hall, List.forall_mem_cons.mpr ⟨rfl, hreplaced⟩⟩

/-- Whatever a chunk cuts, a text of replacements is read as replacements. -/
theorem lossy_replacements (hq : Conts q) (he : ∀ d ∈ e, d = replacement) (h : cs.flatten ++ u = q ++ encode e) :
    ∀ d ∈ cs.flatMap lossy, d = replacement := by
  induction cs generalizing q e with
  | nil => exact fun d hd => absurd hd List.not_mem_nil
  | cons c cs ih =>
      rw [List.flatten_cons, List.append_assoc] at h
      obtain ⟨q', e', hreading, hq', hrest⟩ := exists_reading hq h
      rw [List.flatMap_cons, List.forall_mem_append]
      have hreplicate (n : Nat) : ∀ d ∈ List.replicate n replacement, d = replacement := fun d hd =>
        List.eq_of_mem_replicate hd
      generalize lossy c = out at hreading
      cases hreading with
      | inside hin => exact ⟨hreplicate _, ih hq' he hrest⟩
      | whole heq hwhole =>
          subst heq
          obtain ⟨he₁, he'⟩ := List.forall_mem_append.mp he
          exact ⟨List.forall_mem_append.mpr ⟨hreplicate _, he₁⟩, ih hq' he' hrest⟩
      | cut heq hcut hd hp hne =>
          subst heq
          obtain ⟨he₁, he'⟩ := List.forall_mem_append.mp he
          refine ⟨List.forall_mem_append.mpr ⟨hreplicate _, List.forall_mem_append.mpr ⟨he₁, hreplicate _⟩⟩, ?_⟩
          exact ih hq' (List.forall_mem_cons.mp he').2 hrest

end reading

section chunks

/-- From the first cut on the text consists of replacements, and as many are read from there as the text has. -/
def EndsReplaced (cs : List (List UInt8)) (u : List UInt8) : Prop :=
  ∃ pre w p post m, cs = pre ++ (encode w ++ p) :: post ∧ (∀ c ∈ pre, IsText c) ∧
    p ++ (post.flatten ++ u) = encode (List.replicate m replacement) ∧ (lossy p ++ post.flatMap lossy).length = m

variable {c u : List UInt8} {e : List Char} {cs : List (List UInt8)}

theorem encode_flatMap_lossy (h : ∀ c ∈ cs, IsText c) : encode (cs.flatMap lossy) = cs.flatten := by
  induction cs with
  | nil => rfl
  | cons c cs ih =>
      obtain ⟨hc, hcs⟩ := List.forall_mem_cons.mp h
      rw [List.flatMap_cons, encode_append, hc, ih hcs, List.flatten_cons]

theorem EndsReplaced.encode_eq (h : EndsReplaced cs u) : encode (cs.flatMap lossy) = cs.flatten ++ u := by
  obtain ⟨pre, w, p, post, m, rfl, hpre, hbytes, hcount⟩ := h
  have hnil : Conts [] := fun b hb => absurd hb List.not_mem_nil
  have hall : ∀ d ∈ (p :: post).flatMap lossy, d = replacement := by
    refine lossy_replacements hnil (u := u) (e := List.replicate m replacement)
      (fun d hd => List.eq_of_mem_replicate hd) ?_
    rw [List.flatten_cons, List.append_assoc]
    exact hbytes
  have hrun : lossy p ++ post.flatMap lossy = List.replicate m replacement := by
    rw [← hcount]
    exact List.eq_replicate_of_mem fun d hd => hall d (by rwa [List.flatMap_cons])
  calc encode ((pre ++ (encode w ++ p) :: post).flatMap lossy)
      = encode (pre.flatMap lossy ++ (w ++ (lossy p ++ post.flatMap lossy))) := by
        rw [List.flatMap_append, List.flatMap_cons, lossy_encode, List.append_assoc]
    _ = pre.flatten ++ (encode w ++ encode (List.replicate m replacement)) := by
        rw [encode_append, encode_append, encode_flatMap_lossy hpre, hrun]
    _ = (pre ++ (encode w ++ p) :: post).flatten ++ u := by
        rw [← hbytes]
        simp

theorem EndsReplaced.cons (hc : IsText c) (h : EndsReplaced cs u) : EndsReplaced (c :: cs) u := by
  obtain ⟨pre, w, p, post, m, rfl, hpre, hbytes, hcount⟩ := h
  exact ⟨c :: pre, w, p, post, m, rfl, List.forall_mem_cons.mpr ⟨hc, hpre⟩, hbytes, hcount⟩

theorem whole_or_endsReplaced (hcs : ∀ c ∈ cs, c ≠ []) (h : cs.flatten ++ u = encode e) (hread : cs.flatMap lossy = e) :
    (u = [] ∧ ∀ c ∈ cs, IsText c) ∨ EndsReplaced cs u := by
  induction cs generalizing e with
  | nil =>
      rw [List.flatMap_nil] at hread
      subst hread
      exact .inl ⟨h, fun c hc => absurd hc List.not_mem_nil⟩
  | cons c cs ih =>
      have htail := (List.forall_mem_cons.mp hcs).2
      rw [List.flatten_cons, List.append_assoc] at h
      rw [List.flatMap_cons] at hread
      obtain ⟨e₁, e₂, rfl, ⟨rfl, hrest⟩ | ⟨d, e', p, q', rfl, rfl, hd, hp, hq', hrest⟩⟩ := exists_cut h
      · rw [lossy_encode_self] at hread
        rcases ih htail hrest (List.append_cancel_left hread) with ⟨hu, hall⟩ | hends
        · exact .inl ⟨hu, List.forall_mem_cons.mpr ⟨isText_encode e₁, hall⟩⟩
        · exact .inr (hends.cons (isText_encode e₁))
      · -- The chunk cuts the character `d`, which can only be a replacement, and so can all that follow.
        obtain ⟨hlossy, hconts⟩ := lossy_cut hd hp hq'
        rw [lossy_encode, List.append_assoc] at hread
        have hrun : lossy p ++ cs.flatMap lossy = d :: e' := List.append_cancel_left hread
        have hshift := hrun
        obtain ⟨n, hn⟩ := Nat.exists_eq_add_of_lt (List.length_pos_of_ne_nil hp)
        rw [hlossy, hn, Nat.zero_add, List.replicate_succ, List.cons_append] at hshift
        obtain ⟨hreplacement, hshift⟩ := List.cons.inj hshift
        have hpos : 0 < n + q'.length := Nat.add_pos_right n (List.length_pos_of_ne_nil hq')
        have hall := replacements_of_shift htail hconts hpos hrest hshift
        have hreplicate : d :: e' = List.replicate (d :: e').length replacement :=
          List.eq_replicate_of_mem (List.forall_mem_cons.mpr ⟨hreplacement.symm, hall⟩)
        refine .inr ⟨[], e₁, p, cs, (d :: e').length, rfl, fun c hc => absurd hc List.not_mem_nil, ?_, ?_⟩
        · rw [← hreplicate, encode_cons, ← hd, hrest, List.append_assoc]
        · rw [hrun]

/-- A text is read in chunks as what it is when it is read to its end and no chunk cuts a character, or when it consists
of replacements from the first cut on and as many are read, and only then. -/
theorem encode_flatMap_lossy_iff (hcs : ∀ c ∈ cs, c ≠ []) : encode (cs.flatMap lossy) = cs.flatten ++ u ↔
    (u = [] ∧ ∀ c ∈ cs, IsText c) ∨ EndsReplaced cs u := by
  constructor
  · intro h
    exact whole_or_endsReplaced hcs h.symm rfl
  · rintro (⟨rfl, hall⟩ | h)
    · rw [encode_flatMap_lossy hall, List.append_nil]
    · exact h.encode_eq

end chunks

end Utf8
