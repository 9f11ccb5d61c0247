import Mathlib.Data.List.TakeWhile
import ThesadaApp.AlertJson
import ThesadaApp.JsonForm

/-!
The payload of `alert_json` is JSON for all bytes, since what is not ASCII never ends a string and the escapes stay
whole, and for text in UTF-8 the strings in it are the characters that had room.
-/

namespace ThesadaApp.Rules

open Utf8 Json

/-- The characters of an escape: they stand for one piece. -/
def IsEscape (cs : List Char) : Prop :=
  (∃ ds, cs = '\\' :: ds) ∧ ∃ p, ∀ rest, scan .none (cs ++ rest) = push p (scan .none rest)

/-- Bytes that may stand in a JSON string: each above ASCII, or printed and neither a quote nor a backslash, or in an
escape. -/
inductive Body : List UInt8 → Prop
  | nil : Body []
  | byte {b : UInt8} {bs : List UInt8} (hb : 128 ≤ b.toNat ∨ 32 ≤ b.toNat ∧ b.toNat ≠ 34 ∧ b.toNat ≠ 92)
      (hrest : Body bs) :
      Body (b :: bs)
  | escape {cs : List Char} {bs : List UInt8} (hcs : IsEscape cs) (hrest : Body bs) : Body (encode cs ++ bs)

section body

variable {bs ds : List UInt8} {b : UInt8} {c : Char} {cs : List Char} {max used : Nat} {full : Bool}
  {chs : List (List UInt8)}

theorem Body.append (h : Body bs) (h' : Body ds) : Body (bs ++ ds) := by
  induction h with
  | nil => exact h'
  | byte hb _ ih => exact .byte hb ih
  | escape hcs _ ih =>
      rw [List.append_assoc]
      exact .escape hcs ih

theorem body_conts (h : ∀ d ∈ bs, isCont d = true) : Body bs := by
  induction bs with
  | nil => exact .nil
  | cons b bs ih =>
      have hb := h b List.mem_cons_self
      simp only [isCont, Bool.and_eq_true, decide_eq_true_eq] at hb
      exact .byte (.inl hb.1) (ih fun d hd => h d (List.mem_cons_of_mem _ hd))

theorem isEscape_quote : IsEscape ['\\', '"'] :=
  ⟨⟨_, rfl⟩, .char '"', fun rest => by simp [scan, Json.escape]⟩

theorem isEscape_backslash : IsEscape ['\\', '\\'] :=
  ⟨⟨_, rfl⟩, .char '\\', fun rest => by simp [scan, Json.escape]⟩

theorem isEscape_unit {n : Nat} (hn : n < 0x10000) : IsEscape (unitEscape n) :=
  ⟨⟨_, rfl⟩, .unit n, fun rest => scan_unitEscape hn rest⟩

theorem unicodeEscape_eq (hb : b.toNat < 128) : unicodeEscape b = encode (unitEscape b.toNat) := by
  have hall : ∀ n : Fin 128, unicodeEscape (UInt8.ofNat n.val) = encode (unitEscape n.val) := by decide +kernel
  have h := hall ⟨b.toNat, hb⟩
  rwa [UInt8.ofNat_toNat] at h

theorem body_escapeChunk (h : ∀ d ∈ bs, isCont d = true) : Body (escapeChunk (b :: bs)) := by
  have hrest := body_conts h
  rw [escapeChunk]
  split_ifs with hnul hquote hcontrol
  · exact hrest
  · rcases hquote with rfl | rfl
    · exact .escape isEscape_quote hrest
    · exact .escape isEscape_backslash hrest
  · have hlow : b.toNat < 128 := by
      rcases hcontrol with hlt | rfl
      · have hlt' : b.toNat < 32 := hlt
        omega
      · decide
    rw [unicodeEscape_eq hlow]
    exact .escape (isEscape_unit (by omega)) hrest
  · rw [not_or] at hquote hcontrol
    have hlow : ¬ b.toNat < 32 := hcontrol.1
    have hne : ∀ n : UInt8, b ≠ n → b.toNat ≠ n.toNat := fun n hn heq => hn (UInt8.toNat_inj.mp heq)
    refine .byte (.inr ⟨Nat.not_lt.mp hlow, hne 34 hquote.1, hne 92 hquote.2⟩) hrest

theorem chunks_spec (s : List UInt8) : ∀ ch ∈ chunks s, ∃ b bs, ch = b :: bs ∧ ∀ d ∈ bs, isCont d = true := by
  induction s using chunks.induct with
  | case1 =>
      rw [chunks]
      exact fun ch hch => absurd hch List.not_mem_nil
  | case2 b bs ih =>
      rw [chunks]
      refine List.forall_mem_cons.mpr ⟨⟨b, _, rfl, fun d hd => ?_⟩, ih⟩
      exact List.mem_takeWhile_imp hd

theorem body_fillBody (h : ∀ ch ∈ chs, Body (escapeChunk ch)) : Body (fillBody max used full chs) := by
  induction chs generalizing used full with
  | nil => exact .nil
  | cons ch chs ih =>
      have hrest := fun ch' hch' => h ch' (List.mem_cons_of_mem _ hch')
      rw [fillBody]
      split_ifs
      · exact ih hrest
      · exact (h ch List.mem_cons_self).append (ih hrest)

theorem body_jsonBody (s : List UInt8) (max : Nat) : Body (jsonBody s max) := by
  refine body_fillBody fun ch hch => ?_
  obtain ⟨b, bs, rfl, hconts⟩ := chunks_spec s ch hch
  exact body_escapeChunk hconts

theorem scan_plain (hquote : c ≠ '"') (hbackslash : c ≠ '\\') (hcontrol : 32 ≤ c.toNat) :
    scan .none (c :: cs) = push (.char c) (scan .none cs) := by
  have hnot : ¬ c < ' ' := by
    intro hlt
    have hlt' : c.toNat < 32 := hlt
    omega
  rw [scan, if_neg hquote, if_neg hbackslash, if_neg hnot]

/-- A character that begins with a byte of a body. -/
theorem plain_decodeChar (hb : 128 ≤ b.toNat ∨ 32 ≤ b.toNat ∧ b.toNat ≠ 34 ∧ b.toNat ≠ 92)
    (hc : decodeChar (b :: bs) = some c) :
    c ≠ '"' ∧ c ≠ '\\' ∧ 32 ≤ c.toNat ∧ ∀ d ∈ bs.take (c.utf8Size - 1), isCont d = true := by
  obtain ⟨rest, hbs⟩ := decodeChar_eq_some hc
  obtain ⟨first, conts, hencode, -, hconts, hlow, hhigh⟩ := encodeChar_eq c
  have hlength : c.utf8Size - 1 = conts.length := by
    rw [← String.length_utf8EncodeChar, hencode, List.length_cons, Nat.add_sub_cancel]
  rw [hencode, List.cons_append] at hbs
  obtain ⟨rfl, rfl⟩ := List.cons.inj hbs
  have htake : ∀ d ∈ (conts ++ rest).take (c.utf8Size - 1), isCont d = true := by
    rw [hlength, List.take_left]
    exact hconts
  have hascii : c.toNat < 128 → c ≠ '"' ∧ c ≠ '\\' ∧ 32 ≤ c.toNat := by
    intro hlt
    have hbyte := (hlow hlt).2
    refine ⟨?_, ?_, by omega⟩
    · rintro rfl
      have hvalue : b.toNat = 34 := hbyte
      omega
    · rintro rfl
      have hvalue : b.toNat = 92 := hbyte
      omega
  by_cases hlt : c.toNat < 128
  · obtain ⟨hquote, hbackslash, hcontrol⟩ := hascii hlt
    exact ⟨hquote, hbackslash, hcontrol, htake⟩
  · refine ⟨?_, ?_, by omega, htake⟩
    · rintro rfl
      exact hlt (by decide)
    · rintro rfl
      exact hlt (by decide)

/-- A body is read to its end, also from inside a character. -/
theorem Body.scan (h : Body bs) (skip : Nat) (hskip : ∀ d ∈ bs.take skip, isCont d = true) :
    ∃ ps, ∀ rest, Json.scan .none (lossyFrom skip bs ++ '"' :: rest) = some (ps, rest) := by
  have hpush : ∀ (p : Piece) (cs : List Char), (∃ ps, ∀ rest, Json.scan .none (cs ++ '"' :: rest) = some (ps, rest)) →
      ∃ ps, ∀ rest, push p (Json.scan .none (cs ++ '"' :: rest)) = some (ps, rest) := by
    rintro p cs ⟨ps, hps⟩
    exact ⟨p :: ps, fun rest => by rw [hps]; rfl⟩
  induction h generalizing skip with
  | nil => cases skip <;> exact ⟨[], fun rest => rfl⟩
  | @byte b bs hb _ ih =>
      cases skip with
      | succ skip => exact ih skip fun d hd => hskip d (List.mem_cons_of_mem _ hd)
      | zero =>
          rw [lossyFrom]
          cases hdecode : decodeChar (b :: bs) with
          | some c =>
              obtain ⟨hquote, hbackslash, hcontrol, htake⟩ := plain_decodeChar hb hdecode
              obtain ⟨ps, hps⟩ := hpush (.char c) _ (ih _ htake)
              refine ⟨ps, fun rest => ?_⟩
              dsimp only
              rw [List.cons_append, scan_plain hquote hbackslash hcontrol, hps]
          | none =>
              obtain ⟨ps, hps⟩ := hpush (.char replacement) _ (ih 0 fun d hd => absurd hd List.not_mem_nil)
              refine ⟨ps, fun rest => ?_⟩
              dsimp only
              rw [List.cons_append, scan_plain (by decide) (by decide) (by decide), hps]
  | @escape cs bs hcs _ ih =>
      obtain ⟨⟨ds, rfl⟩, p, hp⟩ := hcs
      cases skip with
      | succ skip =>
          have hfirst : encode ('\\' :: ds) ++ bs = 92 :: (encode ds ++ bs) := rfl
          rw [hfirst] at hskip
          exact absurd (hskip 92 List.mem_cons_self) (by decide)
      | zero =>
          obtain ⟨ps, hps⟩ := hpush p _ (ih 0 fun d hd => absurd hd List.not_mem_nil)
          refine ⟨ps, fun rest => ?_⟩
          have hlossy : lossyFrom 0 (encode ('\\' :: ds) ++ bs) = ('\\' :: ds) ++ lossyFrom 0 bs := lossy_encode _ _
          rw [hlossy, List.append_assoc, hp, hps]

end body

section text

variable {c : Char} {cs p : List Char} {max : Nat}

/-- An escaped character is read back. -/
theorem escapedChar_scan (hc : c ≠ '\x00') : ∃ ds q, escapedChar c = encode ds ∧ Piece.Plain q c ∧
    ∀ rest, scan .none (ds ++ rest) = push q (scan .none rest) := by
  obtain ⟨b, bs, hencode, -, -, hlow, hhigh⟩ := encodeChar_eq c
  have hself : String.utf8EncodeChar c = encode [c] := by
    rw [encode, List.flatMap_cons, List.flatMap_nil, List.append_nil]
  by_cases hquote : c = '"' ∨ c = '\\'
  · refine ⟨['\\', c], .char c, ?_, .inl rfl, fun rest => ?_⟩
    · rcases hquote with rfl | rfl <;> decide
    · rcases hquote with rfl | rfl <;> simp [scan, Json.escape]
  rw [not_or] at hquote
  by_cases hcontrol : c.toNat < 32 ∨ c.toNat = 127
  · have hlt : c.toNat < 128 := by omega
    obtain ⟨rfl, hb⟩ := hlow hlt
    refine ⟨unitEscape c.toNat, .unit c.toNat, ?_, .inr ⟨rfl, by omega⟩, scan_unitEscape (by omega)⟩
    have hne : b ≠ 0 := by
      rintro rfl
      have hzero : c.toNat = 0 := hb.symm
      exact hc (by rw [← Char.ofNat_toNat c, hzero])
    have hcond : b < 32 ∨ b = 127 := by
      rcases hcontrol with h | h
      · exact .inl (show b.toNat < 32 by omega)
      · exact .inr (UInt8.toNat_inj.mp (hb.trans h))
    have hnot : ¬ (b = 34 ∨ b = 92) := by
      rintro (rfl | rfl)
      · have hvalue : c.toNat = 34 := hb.symm
        omega
      · have hvalue : c.toNat = 92 := hb.symm
        omega
    rw [escapedChar, hencode, escapeChunk, if_neg hne, if_neg hnot, if_pos hcond, List.append_nil,
      unicodeEscape_eq (by omega), hb]
  · rw [not_or] at hcontrol
    refine ⟨[c], .char c, ?_, .inl rfl, fun rest => scan_plain hquote.1 hquote.2 (by omega)⟩
    have hbyte : b.toNat = c.toNat ∨ 128 ≤ b.toNat ∧ 128 ≤ c.toNat := by
      by_cases hlt : c.toNat < 128
      · exact .inl (hlow hlt).2
      · exact .inr ⟨hhigh (by omega), by omega⟩
    have hne : ∀ d : Char, c ≠ d → d.toNat < 128 → b.toNat ≠ d.toNat := by
      intro d hd hlt heq
      have hcd : c.toNat = d.toNat := by omega
      exact hd (by rw [← Char.ofNat_toNat c, hcd, Char.ofNat_toNat])
    have hnul : b ≠ 0 := by
      rintro rfl
      exact hne '\x00' hc (by decide) rfl
    have hnot : ¬ (b = 34 ∨ b = 92) := by
      rintro (rfl | rfl)
      · exact hne '"' hquote.1 (by decide) rfl
      · exact hne '\\' hquote.2 (by decide) rfl
    have hcond : ¬ (b < 32 ∨ b = 127) := by
      rintro (hlt | rfl)
      · have hlt' : b.toNat < 32 := hlt
        omega
      · have hvalue : c.toNat = 127 ∨ 128 ≤ (127 : UInt8).toNat ∧ 128 ≤ c.toNat := hbyte.imp_left Eq.symm
        rcases hvalue with h | ⟨h, -⟩
        · exact hcontrol.2 h
        · exact absurd h (by decide)
    rw [← hself, escapedChar, hencode, escapeChunk, if_neg hnul, if_neg hnot, if_neg hcond]

theorem escaped_scan (hp : '\x00' ∉ p) : ∃ ds ps, escaped p = encode ds ∧ List.Forall₂ Piece.Plain ps p ∧
    ∀ rest, scan .none (ds ++ '"' :: rest) = some (ps, rest) := by
  induction p with
  | nil => exact ⟨[], [], rfl, .nil, fun rest => rfl⟩
  | cons c p ih =>
      obtain ⟨hc, hrest⟩ := not_or.mp (mt List.mem_cons.mpr hp)
      obtain ⟨ds, q, hencode, hplain, hscan⟩ := escapedChar_scan (Ne.symm hc)
      obtain ⟨es, ps, hencode', hplain', hscan'⟩ := ih hrest
      refine ⟨ds ++ es, q :: ps, ?_, .cons hplain hplain', fun rest => ?_⟩
      · rw [escaped_cons, hencode, hencode', encode, encode, encode, List.flatMap_append]
      · rw [List.append_assoc, hscan, hscan']
        rfl

theorem Longest.notMem_nul (h : Longest max (dropNul cs) p) : '\x00' ∉ p := by
  intro hmem
  have hdrop := h.isPrefix.subset hmem
  rw [dropNul, List.mem_filter] at hdrop
  simp at hdrop

end text

section reading

variable {F : FloatFormat} {fuel : Nat} {cs ds es x y rest : List Char} {k v w : String} {t : Form}

/-- A member whose value is a string. -/
theorem memberForm_string (hk : unquote cs = some (k, ':' :: '"' :: ds)) (hv : unquote ds = some (v, es))
    (hrest : readForm (fuel + 1) .members es = some (t, rest)) :
    memberForm (readForm (fuel + 1)) ('"' :: cs) = some (.field k (.string v) t, rest) := by
  have hvalue : readForm (fuel + 1) .value ('"' :: ds) = some (.string v, es) := by
    rw [readForm, token_other (by decide) (by decide), token_other (by decide) (by decide), token_self (by decide)]
    simp only [hv, Option.map_some]
  simp only [memberForm, token_self (show isBlank '"' = false by decide), hk, Option.bind_eq_bind, Option.bind_some,
    token_self (show isBlank ':' = false by decide), hvalue, hrest]
  rfl

theorem readForm_next (h : memberForm (readForm fuel) ('"' :: cs) = some (t, rest)) :
    readForm (fuel + 1) .members (',' :: '"' :: cs) = some (t, rest) := by
  rw [readForm, token_other (by decide) (by decide), token_self (by decide)]
  exact h

/-- The object of an alert. -/
def alertObject (code message : String) : Json :=
  .field "code" (.string code) (.field "message" (.string message) (.field "severity" (.string "warn") .empty))

/-- What the text of an alert says. -/
def alertForm (code message : String) : Form :=
  .field "severity" (.string "warn") (.field "code" (.string code) (.field "message" (.string message) .empty))

/-- A string that is written as it is. -/
theorem unquote_plain (hs : k.toList.flatMap quoteChar = k.toList) (rest : List Char) :
    unquote (k.toList ++ '"' :: rest) = some (k, rest) := by
  have h := unquote_quoted k rest
  rwa [hs] at h

/-- The payload around its two strings. -/
theorem formOf_alert (hcode : ∀ rest, unquote (x ++ '"' :: rest) = some (v, rest))
    (hmessage : ∀ rest, unquote (y ++ '"' :: rest) = some (w, rest)) :
    formOf ("\x7b\"severity\":\"warn\",\"code\":\"".toList ++ (x ++ ("\",\"message\":\"".toList ++
      (y ++ "\"\x7d".toList)))) = some (alertForm v w) := by
  have hfirst : "\x7b\"severity\":\"warn\",\"code\":\"".toList = '{' :: '"' :: ("severity".toList ++
      ('"' :: ':' :: '"' :: ("warn".toList ++ ('"' :: ',' :: '"' :: ("code".toList ++ ['"', ':', '"']))))) := by
    decide +kernel
  have hmiddle : "\",\"message\":\"".toList = '"' :: ',' :: '"' :: ("message".toList ++ ['"', ':', '"']) := by
    decide +kernel
  have hlast : "\"\x7d".toList = ['"', '}'] := by decide +kernel
  have hseverity := unquote_plain (k := "severity") (by decide +kernel)
  have hwarn := unquote_plain (k := "warn") (by decide +kernel)
  have hkey := unquote_plain (k := "code") (by decide +kernel)
  have hkey' := unquote_plain (k := "message") (by decide +kernel)
  rw [hfirst, hmiddle, hlast]
  simp only [List.cons_append, List.append_assoc, List.nil_append]
  rw [formOf]
  obtain ⟨n, hn⟩ : ∃ n, ('{' :: '"' :: ("severity".toList ++ '"' :: ':' :: '"' :: ("warn".toList ++ '"' :: ',' :: '"' ::
      ("code".toList ++ '"' :: ':' :: '"' :: (x ++ '"' :: ',' :: '"' :: ("message".toList ++ '"' :: ':' :: '"' ::
        (y ++ ['"', '}']))))))).length = n + 3 := ⟨_, rfl⟩
  have hclose : readForm (n + 1) .members ['}'] = some (.empty, []) := by
    rw [readForm, token_self (by decide)]
  have hthird := memberForm_string (hkey' _) (hmessage _) hclose
  have hsecond := memberForm_string (hkey _) (hcode _) (readForm_next hthird)
  have hmember := memberForm_string (hseverity _) (hwarn _) (readForm_next hsecond)
  have hopen : readForm (n + 4) .value ('{' :: '"' :: ("severity".toList ++
    '"' :: ':' :: '"' :: ("warn".toList ++ '"' ::
      ',' :: '"' :: ("code".toList ++ '"' :: ':' :: '"' :: (x ++ '"' :: ',' :: '"' :: ("message".toList ++ '"' :: ':' ::
        '"' :: (y ++ ['"', '}']))))))) = some (alertForm v w, []) := by
    rw [readForm, token_self (by decide)]
    dsimp only
    rw [token_other (by decide) (by decide)]
    exact hmember
  rw [hn, hopen]
  rfl

theorem unmarshal_alert (hcode : ∀ rest, unquote (x ++ '"' :: rest) = some (v, rest))
    (hmessage : ∀ rest, unquote (y ++ '"' :: rest) = some (w, rest)) :
    unmarshal F ("\x7b\"severity\":\"warn\",\"code\":\"".toList ++ (x ++ ("\",\"message\":\"".toList ++
      (y ++ "\"\x7d".toList)))) = some (alertObject v w) := by
  have hvalue : (alertForm v w).value.mapNumbers F.nearest = alertObject v w := by
    have hcode : ("code".toList < "message".toList) := by decide
    have hseverity : ¬ "severity".toList < "code".toList ∧ ¬ "severity".toList < "message".toList := by decide
    have hne : "severity" ≠ "code" ∧ "severity" ≠ "message" := by decide
    simp only [alertForm, alertObject, Form.value, Json.insert, if_pos hcode, if_neg hseverity.1, if_neg hseverity.2,
      if_neg hne.1, if_neg hne.2, mapNumbers]
  have hdepth : (alertForm v w).depth = 1 := rfl
  refine unmarshal_eq_some.mpr ⟨alertForm v w, formOf_alert hcode hmessage, ?_, rfl, hvalue.symm⟩
  rw [hdepth]
  decide

end reading

/-- The payload is a warning, whatever the bytes. -/
theorem parseAlertPayload_format {F : FloatFormat} {code message : List UInt8} {v w : String}
    (hcode : ∀ rest, unquote (lossy code ++ '"' :: rest) = some (v, rest))
    (hmessage : ∀ rest, unquote (lossy message ++ '"' :: rest) = some (w, rest)) :
    parseAlertPayload F (alertFormat code message) = .ok (.warn, v, w) := by
  have hlossy : lossy (alertFormat code message) = "\x7b\"severity\":\"warn\",\"code\":\"".toList ++ (lossy code ++
      ("\",\"message\":\"".toList ++ (lossy message ++ "\"\x7d".toList))) := by
    have hclose : encode "\"\x7d".toList = encode "\"\x7d".toList ++ [] := (List.append_nil _).symm
    rw [alertFormat, hclose, lossy_encode, lossy_append_encode (by decide), lossy_append_encode (by decide)]
    simp [lossy, lossyFrom]
  rw [parseAlertPayload, hlossy, unmarshal_alert hcode hmessage]
  rfl

/-- The strings of a payload, of any bytes. -/
theorem unquote_jsonBody (s : List UInt8) (max : Nat) :
    ∃ v, ∀ rest, unquote (lossy (jsonBody s max) ++ '"' :: rest) = some (v, rest) := by
  obtain ⟨ps, hps⟩ := (body_jsonBody s max).scan 0 fun d hd => absurd hd List.not_mem_nil
  refine ⟨String.ofList (decode ps), fun rest => ?_⟩
  rw [unquote, lossy, hps]
  rfl

/-- The string of a text in UTF-8. -/
theorem unquote_escaped {p : List Char} (hp : '\x00' ∉ p) (rest : List Char) :
    unquote (lossy (escaped p) ++ '"' :: rest) = some (String.ofList p, rest) := by
  obtain ⟨ds, ps, hencode, hplain, hscan⟩ := escaped_scan hp
  have hlossy : lossy (encode ds) = ds := by
    have h := lossy_encode ds []
    rwa [List.append_nil, show lossy [] = [] from rfl, List.append_nil] at h
  rw [hencode, hlossy, unquote, hscan, Option.map_some, decode_plain hplain]

/-- What is published is a warning that fits the queue. Of texts in UTF-8 it carries the longest prefixes that fit. -/
theorem alertJson_parsed (F : FloatFormat) (key msg : List UInt8) :
    ((alertJson key msg).length ≤ 255 ∧
      ∃ code message, parseAlertPayload F (alertJson key msg) = .ok (.warn, code, message)) ∧
    ∀ keyText msgText : List Char, ∃ code message : List Char,
      parseAlertPayload F (alertJson (encode keyText) (encode msgText)) =
        .ok (.warn, String.ofList code, String.ofList message) ∧
      Longest 64 (dropNul keyText) code ∧
      Longest (255 - (alertFormat (escaped code) []).length) (dropNul msgText) message := by
  refine ⟨⟨alertJson_length key msg, ?_⟩, fun keyText msgText => ?_⟩
  · obtain ⟨code, hcode⟩ := unquote_jsonBody key codeMax
    obtain ⟨message, hmessage⟩ := unquote_jsonBody msg (alertMax - (alertFormat (jsonBody key codeMax) []).length)
    exact ⟨code, message, parseAlertPayload_format hcode hmessage⟩
  · obtain ⟨code, hcode, hkey⟩ := jsonBody_encode keyText codeMax
    obtain ⟨message, hmessage, hmsg⟩ := jsonBody_encode msgText (alertMax - (alertFormat (escaped code) []).length)
    refine ⟨code, message, ?_, hcode, hmessage⟩
    rw [alertJson, hkey, hmsg]
    exact parseAlertPayload_format (unquote_escaped hcode.notMem_nul) (unquote_escaped hmessage.notMem_nul)

end ThesadaApp.Rules
