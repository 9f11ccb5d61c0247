import ThesadaApp.CertIssue

/-!
The serial of a certificate as the CA records it, as a firmware signs it and as it is looked up: one text for each
number.
-/

namespace ThesadaApp.Pki

open Certs (canonicalCertSerial enrollSerialMaxLen)

/-- The value of a hexadecimal digit. -/
def hexValue (c : Char) : Nat := (EnrollApi.hexDigit c).getD 0

/-- The number a serial text denotes. -/
def serialNumber (s : String) : Nat := Numerals.value 16 (s.toList.map hexValue)

/-- The digits of a serial text that count, those after its leading zeros. -/
def significantDigits (s : String) : List Char := s.toList.dropWhile (· = '0')

section digits

theorem lowerHex_ascii {c : Char} (hc : lowerHex c = true) : c.toNat < 128 := by
  simp only [lowerHex, Bool.or_eq_true, Bool.and_eq_true, decide_eq_true_eq, Char.le_def, UInt32.le_iff_toNat_le]
    at hc
  rcases hc with ⟨-, hhigh⟩ | ⟨-, hhigh⟩
  · exact lt_of_le_of_lt hhigh (by decide)
  · exact lt_of_le_of_lt hhigh (by decide)

/-- A lowercase hexadecimal digit is the one written for its value. -/
theorem digitChar_hexValue {c : Char} (hc : lowerHex c = true) :
    hexValue c < 16 ∧ Nat.digitChar (hexValue c) = c := by
  have hall : ∀ n : Fin 128, lowerHex (Char.ofNat n) = true →
      hexValue (Char.ofNat n) < 16 ∧ Nat.digitChar (hexValue (Char.ofNat n)) = Char.ofNat n := by decide
  have hdigit := hall ⟨c.toNat, lowerHex_ascii hc⟩
  rw [Char.ofNat_toNat] at hdigit
  exact hdigit hc

theorem hexValue_digitChar {d : Nat} (hd : d < 16) :
    lowerHex (Nat.digitChar d) = true ∧ hexValue (Nat.digitChar d) = d := by
  have hall : ∀ d : Fin 16, lowerHex (Nat.digitChar d) = true ∧ hexValue (Nat.digitChar d) = d.val := by decide
  exact hall ⟨d, hd⟩

theorem hexValue_eq_zero {c : Char} (hc : lowerHex c = true) : hexValue c = 0 ↔ c = '0' := by
  constructor
  · intro hzero
    rw [← (digitChar_hexValue hc).2, hzero]
    rfl
  · rintro rfl
    decide

variable {cs cs' : List Char}

/-- The values of the digits that count are the significant ones. -/
theorem map_dropWhile (hcs : ∀ c ∈ cs, lowerHex c = true) :
    (cs.dropWhile (· = '0')).map hexValue = Numerals.significant (cs.map hexValue) := by
  induction cs with
  | nil => rfl
  | cons c cs ih =>
      have hc := hexValue_eq_zero (hcs c List.mem_cons_self)
      by_cases hzero : c = '0'
      · have hrest := ih fun c' hc' => hcs c' (List.mem_cons_of_mem c hc')
        rw [List.dropWhile_cons_of_pos (by simpa using hzero), hrest, Numerals.significant, Numerals.significant,
          List.map_cons, List.dropWhile_cons_of_pos (by simpa using hc.mpr hzero)]
      · rw [List.dropWhile_cons_of_neg (by simpa using hzero), Numerals.significant, List.map_cons,
          List.dropWhile_cons_of_neg (by simpa using mt hc.mp hzero)]

end digits

section printing

variable {n : Nat} {s t : String}

theorem hexText_toList : (hexText n).toList = Numerals.text 16 n := String.toList_ofList

theorem hexText_lowerHex {c : Char} (hc : c ∈ (hexText n).toList) : lowerHex c = true := by
  rw [hexText_toList] at hc
  obtain ⟨d, hd, rfl⟩ := Numerals.mem_text (by decide) hc
  exact (hexValue_digitChar hd).1

theorem hexText_ne_empty : hexText n ≠ "" := by
  intro hempty
  apply Numerals.text_ne_nil (b := 16) (n := n)
  rw [← hexText_toList, hempty]
  rfl

/-- A printed number is the number it denotes. -/
theorem serialNumber_hexText : serialNumber (hexText n) = n := by
  rw [serialNumber, hexText_toList]
  exact Numerals.value_text (by decide) fun d hd => (hexValue_digitChar hd).2

theorem significantDigits_hexText : (significantDigits (hexText n)).map hexValue = Numerals.digits 16 n := by
  rw [significantDigits, map_dropWhile fun c hc => hexText_lowerHex hc, hexText_toList,
    Numerals.map_text (by decide) fun d hd => (hexValue_digitChar hd).2]
  split_ifs with hn
  · rw [hn]
    rfl
  · exact Numerals.significant_digits (by decide)

/-- The digits that count are the digits of the number. -/
theorem digits_serialNumber (hs : ∀ c ∈ s.toList, lowerHex c = true) :
    Numerals.digits 16 (serialNumber s) = (significantDigits s).map hexValue := by
  have hlt : ∀ d ∈ s.toList.map hexValue, d < 16 := by
    intro d hd
    obtain ⟨c, hc, rfl⟩ := List.mem_map.mp hd
    exact (digitChar_hexValue (hs c hc)).1
  rw [serialNumber, Numerals.digits_value (by decide) hlt, significantDigits, map_dropWhile hs]

/-- The canonical text of a serial prints its number. -/
theorem hexText_serialNumber (hs : ∀ c ∈ s.toList, lowerHex c = true) :
    (hexText (serialNumber s)).toList = if significantDigits s = [] then ['0'] else significantDigits s := by
  have hdigits := digits_serialNumber hs
  rw [hexText_toList, Numerals.text]
  by_cases hzero : serialNumber s = 0
  · have hnil : significantDigits s = [] := by
      have hmap : (significantDigits s).map hexValue = [] := by
        rw [← hdigits, hzero]
        rfl
      exact List.map_eq_nil_iff.mp hmap
    rw [if_pos hzero, if_pos hnil]
  · have hne : significantDigits s ≠ [] := by
      intro hnil
      rw [hnil, List.map_nil] at hdigits
      exact Numerals.digits_ne_nil hzero hdigits
    have hback : ∀ c ∈ significantDigits s, (Nat.digitChar ∘ hexValue) c = id c := fun c hc =>
      (digitChar_hexValue (hs c ((List.dropWhile_sublist _).subset hc))).2
    rw [if_neg hzero, if_neg hne, hdigits, List.map_map]
    exact (List.map_congr_left hback).trans (List.map_id _)

/-- What is accepted, and what it is stored as. -/
theorem canonicalCertSerial_eq_some : canonicalCertSerial s = some t ↔
    (s ≠ "" ∧ (∀ c ∈ s.toList, lowerHex c = true) ∧ (significantDigits s).length ≤ enrollSerialMaxLen) ∧
      t = hexText (serialNumber s) := by
  unfold canonicalCertSerial
  by_cases hs : s ≠ "" ∧ ∀ c ∈ s.toList, lowerHex c = true
  · obtain ⟨hne, hhex⟩ := hs
    have hlength : enrollSerialMaxLen < (hexText (serialNumber s)).toList.length ↔
        ¬ (significantDigits s).length ≤ enrollSerialMaxLen := by
      rw [hexText_serialNumber hhex]
      split_ifs with hnil
      · simp [hnil, enrollSerialMaxLen]
      · exact Nat.not_le.symm
    have htext := hexText_serialNumber hhex
    rw [significantDigits] at htext
    rw [if_neg (by simpa [hne] using hhex)]
    simp only [← htext, hlength, String.ofList_toList]
    split_ifs with hlong
    · exact ⟨fun h => ⟨⟨hne, hhex, hlong⟩, (Option.some.inj h).symm⟩, fun h => congrArg some h.2.symm⟩
    · exact ⟨nofun, fun h => absurd h.1.2.2 hlong⟩
  · have hrefused : s = "" ∨ s.toList.all lowerHex = false := by
      by_cases hne : s = ""
      · exact .inl hne
      · refine .inr (Bool.eq_false_iff.mpr fun hall => hs ⟨hne, List.all_eq_true.mp hall⟩)
    rw [if_pos hrefused]
    exact ⟨nofun, fun h => absurd ⟨h.1.1, h.1.2.1⟩ hs⟩

theorem canonicalCertSerial_hexText (hlength : (Numerals.digits 16 n).length ≤ enrollSerialMaxLen) :
    canonicalCertSerial (hexText n) = some (hexText n) := by
  apply canonicalCertSerial_eq_some.mpr
  refine ⟨⟨hexText_ne_empty, fun c hc => hexText_lowerHex hc, ?_⟩, by rw [serialNumber_hexText]⟩
  rwa [← List.length_map hexValue, significantDigits_hexText]

variable {PrivateKey Certificate : Type} {X : X509 PrivateKey Certificate} {d : Draws PrivateKey Certificate}
  {ca : CA PrivateKey Certificate} {cn : String} {validity : Time} {c : EnrollApi.SignedCert}

/-- The serial of an issued certificate has at most 32 digits. -/
theorem canonical_of_signed (h : signDeviceCert X d ca cn validity = .ok c) :
    canonicalCertSerial c.serialHex = some c.serialHex := by
  obtain ⟨serial, -, hserial⟩ := signDeviceCert_ok h
  rw [hserial]
  apply canonicalCertSerial_hexText
  have hlt : serial.val < 16 ^ 32 := lt_of_lt_of_eq serial.isLt (by norm_num)
  exact le_trans (Numerals.digits_length_le (by decide) hlt) (by decide)

end printing

/-- The texts that are accepted, which of them are one serial, and that what is stored is in canonical form. -/
theorem canonicalCertSerial_spec :
    (∀ s, (canonicalCertSerial s).isSome = true ↔
      s ≠ "" ∧ (∀ c ∈ s.toList, lowerHex c = true) ∧ (significantDigits s).length ≤ 40) ∧
    (∀ s s' t t', canonicalCertSerial s = some t → canonicalCertSerial s' = some t' →
      (t = t' ↔ serialNumber s = serialNumber s')) ∧
    (∀ s t, canonicalCertSerial s = some t → canonicalCertSerial t = some t) ∧
    (∀ (PrivateKey Certificate : Type) (X : X509 PrivateKey Certificate) (d : Draws PrivateKey Certificate)
      (ca : CA PrivateKey Certificate) (cn : String) (validity : Time) (c : EnrollApi.SignedCert),
      signDeviceCert X d ca cn validity = .ok c → canonicalCertSerial c.serialHex = some c.serialHex) := by
  refine ⟨fun s => ?_, fun s s' t t' h h' => ?_, fun s t h => ?_, fun _ _ X d ca cn validity c h => ?_⟩
  · constructor
    · intro h
      obtain ⟨t, ht⟩ := Option.isSome_iff_exists.mp h
      exact (canonicalCertSerial_eq_some.mp ht).1
    · intro h
      exact Option.isSome_iff_exists.mpr ⟨_, canonicalCertSerial_eq_some.mpr ⟨h, rfl⟩⟩
  · obtain ⟨-, rfl⟩ := canonicalCertSerial_eq_some.mp h
    obtain ⟨-, rfl⟩ := canonicalCertSerial_eq_some.mp h'
    constructor
    · intro htext
      rw [← serialNumber_hexText (n := serialNumber s), htext, serialNumber_hexText]
    · exact congrArg hexText
  · obtain ⟨⟨-, hhex, hlength⟩, rfl⟩ := canonicalCertSerial_eq_some.mp h
    apply canonicalCertSerial_hexText
    rwa [digits_serialNumber hhex, List.length_map]
  · exact canonical_of_signed h

/-- A CA whose every body is empty. -/
def blankX509 : X509 Unit Unit where
  parsePKCS8PrivateKey _ := .ok (some ())
  parseECPrivateKey _ := .ok ()
  marshalPKCS8PrivateKey _ := .ok []
  parseCertificate _ := .ok ()
  encodeToMemory _ := []
  decode _ := none

def lowDraws : Draws Unit Unit where
  generateKey := .ok ()
  serial := .ok 255
  now := 0
  createCertificate _ _ _ _ := .ok []

theorem spec_low_serial :
    signDeviceCert blankX509 lowDraws ⟨(), [], ()⟩ "thesada-acme-pump" (seconds 60) = .ok ⟨"", "", "ff"⟩ ∧
      canonicalCertSerial "ff" = some "ff" ∧ canonicalCertSerial "00ff" = some "ff" ∧
      ("ff" = "ff" ↔ serialNumber "00ff" = serialNumber "ff") := by
  have hff : canonicalCertSerial "ff" = some "ff" := by decide
  have hzeros : canonicalCertSerial "00ff" = some "ff" := by decide
  have hsigned : signDeviceCert blankX509 lowDraws ⟨(), [], ()⟩ "thesada-acme-pump" (seconds 60) =
      .ok ⟨"", "", "ff"⟩ := by rfl
  exact ⟨hsigned, canonicalCertSerial_spec.2.2.2 _ _ _ _ _ _ _ _ hsigned, hzeros,
    canonicalCertSerial_spec.2.1 "00ff" "ff" "ff" "ff" hzeros hff⟩

end ThesadaApp.Pki
