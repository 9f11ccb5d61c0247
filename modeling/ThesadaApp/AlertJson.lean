import ThesadaApp.AlertStore
import ThesadaApp.Utf8Lossy

/-!
The alert that a generated rules file publishes, `json_body` and `alert_json` on bytes as Lua has them, and the reading
of it by `parseAlert`. What is published fits the slot of the queue, is read as a warning, and for texts in UTF-8 it
says the code and the message as far as there is room for them.
-/

namespace ThesadaApp.Rules

open Utf8

/-- The matches of `.[\128-\191]*`. -/
def chunks : List UInt8 → List (List UInt8)
  | [] => []
  | b :: bs => (b :: bs.takeWhile isCont) :: chunks (bs.dropWhile isCont)
termination_by bs => bs.length
decreasing_by
  rw [List.length_cons]
  exact Nat.lt_succ_of_le (List.dropWhile_sublist isCont).length_le

/-- A digit of `%x`. -/
def hexDigit (d : Nat) : UInt8 := UInt8.ofNat (if d < 10 then 48 + d else 87 + d)

/-- `\u%04x` of a byte. -/
def unicodeEscape (b : UInt8) : List UInt8 := [92, 117, 48, 48, hexDigit (b.toNat / 16), hexDigit (b.toNat % 16)]

/-- What `json_body` makes of a match. NUL is dropped. -/
def escapeChunk : List UInt8 → List UInt8
  | [] => []
  | b :: bs =>
      if b = 0 then bs
      else if b = 34 ∨ b = 92 then 92 :: b :: bs
      else if b < 32 ∨ b = 127 then unicodeEscape b ++ bs
      else b :: bs

/-- The matches that are left, after those that took `used` bytes. -/
def fillBody (max : Nat) : Nat → Bool → List (List UInt8) → List UInt8
  | _, _, [] => []
  | used, full, ch :: chs =>
      let e := escapeChunk ch
      if full = true ∨ max < used + e.length then fillBody max used true chs
      else e ++ fillBody max (used + e.length) full chs

def jsonBody (s : List UInt8) (max : Nat) : List UInt8 := fillBody max 0 false (chunks s)

def alertMax : Nat := 255

def codeMax : Nat := 64

/-- `fmt:format(code, message)` -/
def alertFormat (code message : List UInt8) : List UInt8 :=
  encode "\x7b\"severity\":\"warn\",\"code\":\"".toList ++ (code ++ (encode "\",\"message\":\"".toList ++
    (message ++ encode "\"\x7d".toList)))

def alertJson (key msg : List UInt8) : List UInt8 :=
  let code := jsonBody key codeMax
  let room := alertMax - (alertFormat code []).length
  alertFormat code (jsonBody msg room)

/-- `parseAlert` of a payload. -/
def parseAlertPayload (F : Json.FloatFormat) (payload : List UInt8) :
    Except ParseAlertError (Alerts.Severity × String × String) := parseAlert (Json.unmarshal F (lossy payload))

/-- A character in the body of a JSON string, as bytes. -/
def escapedChar (c : Char) : List UInt8 := escapeChunk (String.utf8EncodeChar c)

def escaped (cs : List Char) : List UInt8 := cs.flatMap escapedChar

def dropNul (cs : List Char) : List Char := cs.filter fun c => c ≠ '\x00'

/-- The longest prefix of whole characters whose escaped form fits the bytes. -/
structure Longest (max : Nat) (cs p : List Char) : Prop where
  isPrefix : p <+: cs
  fits : (escaped p).length ≤ max
  longest : ∀ q, q <+: cs → (escaped q).length ≤ max → q <+: p

section fill

variable {max used : Nat} {chs : List (List UInt8)} {c : Char} {cs : List Char} {s : List UInt8}

theorem fillBody_full : fillBody max used true chs = [] := by
  induction chs with
  | nil => rfl
  | cons ch chs ih =>
      rw [fillBody, if_pos (.inl rfl)]
      exact ih

theorem fillBody_cons (ch : List UInt8) : fillBody max used false (ch :: chs) =
    if max < used + (escapeChunk ch).length then []
    else escapeChunk ch ++ fillBody max (used + (escapeChunk ch).length) false chs := by
  simp only [fillBody, fillBody_full, Bool.false_eq_true, false_or]

theorem fillBody_length (hused : used ≤ max) : used + (fillBody max used false chs).length ≤ max := by
  induction chs generalizing used with
  | nil => exact hused
  | cons ch chs ih =>
      rw [fillBody_cons]
      split_ifs with hfull
      · exact hused
      · have hfits : used + (escapeChunk ch).length ≤ max := Nat.not_lt.mp hfull
        rw [List.length_append, ← Nat.add_assoc]
        exact ih hfits

theorem jsonBody_length : (jsonBody s max).length ≤ max := by
  have h := @fillBody_length max 0 (chunks s) (Nat.zero_le max)
  rwa [Nat.zero_add] at h

theorem alertFormat_length (code message : List UInt8) :
    (alertFormat code message).length = 42 + code.length + message.length := by
  have hopen : (encode "\x7b\"severity\":\"warn\",\"code\":\"".toList).length = 27 := by decide +kernel
  have hmiddle : (encode "\",\"message\":\"".toList).length = 13 := by decide +kernel
  have hclose : (encode "\"\x7d".toList).length = 2 := by decide +kernel
  simp only [alertFormat, List.length_append, hopen, hmiddle, hclose]
  omega

/-- The payload fits the slot of the queue. -/
theorem alertJson_length (key msg : List UInt8) : (alertJson key msg).length ≤ alertMax := by
  have hcode : (jsonBody key codeMax).length ≤ 64 := jsonBody_length
  have hroom : (jsonBody msg (alertMax - (alertFormat (jsonBody key codeMax) []).length)).length ≤
      255 - (alertFormat (jsonBody key codeMax) []).length := jsonBody_length
  rw [alertFormat_length, List.length_nil] at hroom
  show _ ≤ 255
  rw [alertJson, alertFormat_length]
  rw [alertFormat_length, List.length_nil]
  omega

end fill

section longest

variable {max used : Nat} {c : Char} {cs p : List Char}

theorem takeWhile_encode (cs : List Char) :
    (encode cs).takeWhile isCont = [] ∧ (encode cs).dropWhile isCont = encode cs := by
  cases cs with
  | nil => exact ⟨rfl, rfl⟩
  | cons c cs =>
      obtain ⟨b, bs, hencode, hb, -⟩ := encodeChar_eq c
      have hcs : encode (c :: cs) = b :: (bs ++ encode cs) := by
        rw [encode, List.flatMap_cons, hencode]
        rfl
      rw [hcs, List.takeWhile_cons_of_neg (by simp [hb]), List.dropWhile_cons_of_neg (by simp [hb])]
      exact ⟨rfl, rfl⟩

/-- Of text in UTF-8 each match is a character. -/
theorem chunks_encode (cs : List Char) : chunks (encode cs) = cs.map String.utf8EncodeChar := by
  induction cs with
  | nil => rw [encode, List.flatMap_nil, chunks, List.map_nil]
  | cons c cs ih =>
      obtain ⟨b, bs, hencode, -, hconts, -⟩ := encodeChar_eq c
      obtain ⟨htake, hdrop⟩ := takeWhile_encode cs
      have hcs : encode (c :: cs) = b :: (bs ++ encode cs) := by
        rw [encode, List.flatMap_cons, hencode]
        rfl
      rw [hcs, chunks, List.takeWhile_append_of_pos hconts, List.dropWhile_append_of_pos hconts, htake, hdrop,
        List.append_nil, ih, List.map_cons, hencode]

theorem escaped_cons : escaped (c :: cs) = escapedChar c ++ escaped cs := List.flatMap_cons

theorem escapedChar_nul : escapedChar '\x00' = [] := by decide

/-- What is left is filled with the longest prefix of the characters that are left. -/
theorem fillBody_encode (hused : used ≤ max) : ∃ p, Longest (max - used) (dropNul cs) p ∧
    fillBody max used false (cs.map String.utf8EncodeChar) = escaped p := by
  induction cs generalizing used with
  | nil =>
      refine ⟨[], ⟨List.nil_prefix, Nat.zero_le _, fun q hq _ => hq⟩, rfl⟩
  | cons c cs ih =>
      rw [List.map_cons, fillBody_cons]
      by_cases hnul : c = '\x00'
      · subst hnul
        have hempty : escapeChunk (String.utf8EncodeChar '\x00') = [] := escapedChar_nul
        have hdrop : dropNul ('\x00' :: cs) = dropNul cs := rfl
        rw [hempty, hdrop, List.length_nil, Nat.add_zero, if_neg (Nat.not_lt.mpr hused)]
        exact ih hused
      · have hdrop : dropNul (c :: cs) = c :: dropNul cs := by
          rw [dropNul, List.filter_cons_of_pos (by simpa using hnul), dropNul]
        rw [hdrop]
        split_ifs with hfull
        · have hlong : max - used < (escapedChar c).length := by
            have hsize : max < used + (escapedChar c).length := hfull
            omega
          refine ⟨[], ⟨List.nil_prefix, Nat.zero_le _, fun q hq hfits => ?_⟩, rfl⟩
          cases q with
          | nil => exact List.nil_prefix
          | cons d q =>
              obtain ⟨rfl, -⟩ := List.cons_prefix_cons.mp hq
              rw [escaped_cons, List.length_append] at hfits
              omega
        · have hfits : used + (escapedChar c).length ≤ max := Nat.not_lt.mp hfull
          obtain ⟨p, hp, hfill⟩ := ih hfits
          have hleft : max - used = (escapedChar c).length + (max - (used + (escapedChar c).length)) := by omega
          refine ⟨c :: p, ⟨List.cons_prefix_cons.mpr ⟨rfl, hp.isPrefix⟩, ?_, fun q hq hq' => ?_⟩, ?_⟩
          · rw [escaped_cons, List.length_append, hleft]
            exact Nat.add_le_add_left hp.fits _
          · cases q with
            | nil => exact List.nil_prefix
            | cons d q =>
                obtain ⟨rfl, hrest⟩ := List.cons_prefix_cons.mp hq
                rw [escaped_cons, List.length_append, hleft] at hq'
                exact List.cons_prefix_cons.mpr ⟨rfl, hp.longest q hrest (Nat.le_of_add_le_add_left hq')⟩
          · rw [escaped_cons]
            exact congrArg _ hfill

theorem jsonBody_encode (cs : List Char) (max : Nat) :
    ∃ p, Longest max (dropNul cs) p ∧ jsonBody (encode cs) max = escaped p := by
  obtain ⟨p, hp, hfill⟩ := @fillBody_encode max 0 cs (Nat.zero_le max)
  rw [Nat.sub_zero] at hp
  refine ⟨p, hp, ?_⟩
  rw [jsonBody, chunks_encode, hfill]

end longest

end ThesadaApp.Rules
