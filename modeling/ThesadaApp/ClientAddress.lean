import ThesadaApp.NetIP

/-!
The client address behind trusted proxies. `ClientIP` reads one line of X-Forwarded-For, the first, and walks it from
the right to the first address that is not a trusted proxy's. A proxy that records the client's address on a line of
its own, after the lines of the client, records it where it is not read.
-/

namespace ThesadaApp.ClientAddress

open NetIP

def comma : UInt8 := ','.toUInt8

section trim

/-- The UTF-8 of the characters of `unicode.IsSpace`. -/
def spaces : List Bytes :=
  [[9], [10], [11], [12], [13], [32], [0xC2, 0x85], [0xC2, 0xA0], [0xE1, 0x9A, 0x80]] ++
    (List.range 11).map (fun i => [0xE2, 0x80, 0x80 + .ofNat i]) ++
    [[0xE2, 0x80, 0xA8], [0xE2, 0x80, 0xA9], [0xE2, 0x80, 0xAF], [0xE2, 0x81, 0x9F], [0xE3, 0x80, 0x80]]

/-- At most `n` of the words are taken away in front. -/
def trimLeft (words : List Bytes) : Nat → Bytes → Bytes
  | 0, s => s
  | n + 1, s =>
      match words.find? fun w => w.isPrefixOf s with
      | none => s
      | some w => trimLeft words n (s.drop w.length)

/-- `strings.TrimSpace`. -/
def trimSpace (s : Bytes) : Bytes :=
  let rest := trimLeft spaces s.length s
  (trimLeft (spaces.map List.reverse) rest.length rest.reverse).reverse

/-- Neither a byte of ASCII text nor one that can stand in the UTF-8 of it. -/
def beyondText (c : UInt8) : Bool := c ≤ 32 || 128 ≤ c

theorem trimLeft_of_text {words : List Bytes} (hwords : ∀ w ∈ words, w.head?.any beyondText = true) {n : Nat}
    {s : Bytes} (hs : ∀ c ∈ s, beyondText c = false) : trimLeft words n s = s := by
  cases n with
  | zero => rfl
  | succ n =>
      have hnone : (words.find? fun w => w.isPrefixOf s) = none := by
        rw [List.find?_eq_none]
        intro w hw hstart
        obtain ⟨c, hc, hbeyond⟩ := (Option.any_eq_true _ _).mp (hwords w hw)
        have hmem : c ∈ s := (List.isPrefixOf_iff_prefix.mp hstart).subset (List.mem_of_mem_head? hc)
        rw [hs c hmem] at hbeyond
        cases hbeyond
      rw [trimLeft, hnone]

theorem digitVal_of_beyondText {c : UInt8} (hc : beyondText c = true) :
    digitVal 16 c = none ∧ digitVal 10 c = none := by
  have hbytes : ∀ n < 256, beyondText (.ofNat n) = true →
      digitVal 16 (.ofNat n) = none ∧ digitVal 10 (.ofNat n) = none := by decide +kernel
  have h := hbytes c.toNat c.toNat_lt
  rw [UInt8.ofNat_toNat] at h
  exact h hc

/-- The text of an address has no space to trim. -/
theorem trimSpace_string (ip : IP) : trimSpace ip.string = ip.string := by
  have htext : ∀ c ∈ ip.string, beyondText c = false := by
    intro c hc
    by_contra hbeyond
    rw [Bool.not_eq_false] at hbeyond
    obtain ⟨hhex, hdecimal⟩ := digitVal_of_beyondText hbeyond
    refine not_mem_string ?_ ?_ hhex hdecimal ip hc
    · rintro rfl
      cases hbeyond
    · rintro rfl
      cases hbeyond
  have hreverse : ∀ c ∈ ip.string.reverse, beyondText c = false := fun c hc => htext c (List.mem_reverse.mp hc)
  rw [trimSpace, trimLeft_of_text (by decide) htext, trimLeft_of_text (by decide) hreverse, List.reverse_reverse]

end trim

/-- What `ClientIP` reads of a request: the peer, and the lines of X-Forwarded-For in the order they came. -/
structure Request where
  remoteAddr : Bytes
  forwardedFor : List Bytes

/-- `Header.Get`, of the header's lines. -/
def headerGet (lines : List Bytes) : Bytes := lines.head?.getD []

/-- Strips the port from a host:port address. -/
def hostOnly (addr : Bytes) : Bytes := (splitHostPort addr).elim addr Prod.fst

def ipInAny (ip : Option IP) (nets : List IPNet) : Bool := ip.any fun ip => nets.any fun n => n.contains ip

def reverseSplit (s : Bytes) : List Bytes := (s.splitOn comma).reverse

/-- The address of one part of the header, unless it is a trusted proxy's. -/
def untrustedHop (trusted : List IPNet) (part : Bytes) : Option IP :=
  (parseIP (trimSpace part)).filter fun ip => !ipInAny (some ip) trusted

def clientIP (r : Request) (trusted : List IPNet) : Bytes :=
  let peer := hostOnly r.remoteAddr
  if trusted = [] ∨ ipInAny (parseIP peer) trusted = false then peer
  else ((reverseSplit (headerGet r.forwardedFor)).findSome? (untrustedHop trusted)).elim peer IP.string

/-- How a trusted proxy records the address of its own peer. -/
inductive Recording where
  /-- At the end of the last line. -/
  | appended
  /-- On a line after the others. -/
  | line
  deriving DecidableEq

/-- The lines as the proxy sends them on. -/
def Recording.record (how : Recording) (lines : List Bytes) (text : Bytes) : List Bytes :=
  match how with
  | .line => lines ++ [text]
  | .appended =>
      match lines.getLast? with
      | none => [text]
      | some last => lines.dropLast ++ [last ++ comma :: text]

/-- A text that records an address: one part of the header, however it is spelled. -/
structure Record (ip : IP) where
  text : Bytes
  comma_not_mem : comma ∉ text
  parse : parseIP (trimSpace text) = some ip

/-- The record of a proxy that prints the address. -/
def Record.ofString (ip : IP) : Record ip where
  text := ip.string
  comma_not_mem := not_mem_string (by decide) (by decide) (by decide) (by decide) ip
  parse := by rw [trimSpace_string, parseIP_string]

/-- The last address of a line that is not a trusted proxy's. -/
def LastUntrusted (trusted : List IPNet) (line : Bytes) (ip : IP) : Prop :=
  ∃ front part back, line.splitOn comma = front ++ part :: back ∧ untrustedHop trusted part = some ip ∧
    ∀ other ∈ back, untrustedHop trusted other = none

/-- What a client address must be: the peer's own, or the one its proxy records. -/
def Honest (remoteAddr : Bytes) (trusted : List IPNet) (real : IP) (client : Bytes) : Prop :=
  if ipInAny (parseIP (hostOnly remoteAddr)) trusted then client = real.string else client = hostOnly remoteAddr

section walk

variable {trusted : List IPNet} {line : Bytes} {ip real : IP} {remoteAddr : Bytes} {lines : List Bytes}

/-- The walk finds the last untrusted address of its line. -/
theorem findSome?_reverseSplit :
    (reverseSplit line).findSome? (untrustedHop trusted) = some ip ↔ LastUntrusted trusted line ip := by
  rw [reverseSplit, List.findSome?_eq_some_iff]
  constructor
  · rintro ⟨back, part, front, hsplit, hpart, hback⟩
    refine ⟨front.reverse, part, back.reverse, ?_, hpart, fun other hother => hback other (List.mem_reverse.mp hother)⟩
    rw [← List.reverse_inj, hsplit]
    simp
  · rintro ⟨front, part, back, hsplit, hpart, hback⟩
    refine ⟨back.reverse, part, front.reverse, ?_, hpart, fun other hother => hback other (List.mem_reverse.mp hother)⟩
    rw [hsplit]
    simp

theorem clientIP_of_untrusted (hpeer : ipInAny (parseIP (hostOnly remoteAddr)) trusted = false) :
    clientIP ⟨remoteAddr, lines⟩ trusted = hostOnly remoteAddr :=
  if_pos (Or.inr hpeer)

theorem clientIP_of_trusted (hpeer : ipInAny (parseIP (hostOnly remoteAddr)) trusted = true) :
    clientIP ⟨remoteAddr, lines⟩ trusted =
      ((reverseSplit (headerGet lines)).findSome? (untrustedHop trusted)).elim (hostOnly remoteAddr) IP.string := by
  refine if_neg fun h => ?_
  rcases h with rfl | h
  · cases hip : parseIP (hostOnly remoteAddr) <;> simp [ipInAny, hip] at hpeer
  · rw [hpeer] at h
    cases h

/-- Behind a trusted proxy an untrusted address is answered just where it is the last one of the first line: the peer's
own text is not its text. -/
theorem clientIP_eq_string_iff (hpeer : ipInAny (parseIP (hostOnly remoteAddr)) trusted = true)
    (hreal : ipInAny (some real) trusted = false) :
    clientIP ⟨remoteAddr, lines⟩ trusted = real.string ↔ LastUntrusted trusted (headerGet lines) real := by
  rw [clientIP_of_trusted hpeer, ← findSome?_reverseSplit]
  cases (reverseSplit (headerGet lines)).findSome? (untrustedHop trusted) with
  | none =>
      refine ⟨fun h => ?_, fun h => by cases h⟩
      rw [Option.elim_none] at h
      rw [h, parseIP_string, hreal] at hpeer
      cases hpeer
  | some ip =>
      rw [Option.elim_some, IP.string_injective.eq_iff, Option.some_inj]

theorem untrustedHop_record (record : Record real) (hreal : ipInAny (some real) trusted = false) :
    untrustedHop trusted record.text = some real := by
  rw [untrustedHop, record.parse, Option.filter_some, if_pos (by rw [hreal]; rfl)]

theorem lastUntrusted_record (record : Record real) (hreal : ipInAny (some real) trusted = false) :
    LastUntrusted trusted record.text real :=
  ⟨[], record.text, [], List.splitOn_eq_singleton record.comma_not_mem, untrustedHop_record record hreal,
    fun _ h => absurd h List.not_mem_nil⟩

/-- A record is the last untrusted address of the line it is appended to. -/
theorem lastUntrusted_append (record : Record real) (hreal : ipInAny (some real) trusted = false) :
    LastUntrusted trusted (line ++ comma :: record.text) real := by
  refine ⟨line.splitOn comma, record.text, [], ?_, untrustedHop_record record hreal,
    fun _ h => absurd h List.not_mem_nil⟩
  rw [List.splitOn_append_cons_self, List.splitOn_eq_singleton record.comma_not_mem]

/-- Without a line of the client, or with one that the proxy appends to, the first line ends with the record; else it
is the client's own. -/
theorem headerGet_record (how : Recording) (lines : List Bytes) (text : Bytes) :
    headerGet (how.record lines text) =
      if lines = [] then text
      else if how = .appended ∧ lines.length = 1 then headerGet lines ++ comma :: text
      else headerGet lines := by
  match how, lines with
  | .line, [] => rfl
  | .line, _ :: _ => rfl
  | .appended, [] => rfl
  | .appended, [_] => rfl
  | .appended, l :: l' :: rest =>
      rw [Recording.record, List.getLast?_eq_some_getLast (List.cons_ne_nil l (l' :: rest))]
      rfl

/-- The client address is honest behind a trusted proxy if and only if the record is on the line that is read, or
that line has the same address for its last untrusted one anyway. -/
theorem clientIP_honest_iff (remoteAddr : Bytes) (trusted : List IPNet) (lines : List Bytes) (how : Recording)
    (record : Record real) (hreal : ipInAny (some real) trusted = false) :
    Honest remoteAddr trusted real (clientIP ⟨remoteAddr, how.record lines record.text⟩ trusted) ↔
      (ipInAny (parseIP (hostOnly remoteAddr)) trusted = true →
        lines = [] ∨ how = .appended ∧ lines.length = 1 ∨ LastUntrusted trusted (headerGet lines) real) := by
  unfold Honest
  split
  · next hpeer =>
      rw [clientIP_eq_string_iff hpeer hreal, headerGet_record, imp_iff_right hpeer]
      split_ifs with hnil hone
      · exact iff_of_true (lastUntrusted_record record hreal) (Or.inl hnil)
      · exact iff_of_true (lastUntrusted_append record hreal) (Or.inr (Or.inl hone))
      · rw [or_iff_right hnil, or_iff_right hone]
  · next hpeer =>
      rw [Bool.not_eq_true] at hpeer
      refine iff_of_true (clientIP_of_untrusted hpeer) fun htrusted => ?_
      rw [hpeer] at htrusted
      cases htrusted

end walk

def ascii (s : String) : Bytes := s.toList.map fun c => .ofNat c.toNat

/-- 10.0.0.0/8 -/
def proxies : List IPNet := [⟨[10, 0, 0, 0], [255, 0, 0, 0]⟩]

/-- 203.0.113.9 -/
def outside : IP := ⟨v4InV6 ++ [203, 0, 113, 9], by decide⟩

theorem appended_honest : Honest (ascii "10.0.0.1:4711") proxies outside
    (clientIP ⟨ascii "10.0.0.1:4711",
      Recording.record .appended [ascii "198.51.100.66, [junk], 10.1.2.3"] (Record.ofString outside).text⟩ proxies) :=
  (clientIP_honest_iff _ _ _ _ (Record.ofString outside) (by decide)).mpr fun _ => Or.inr (Or.inl ⟨rfl, rfl⟩)

/-- The proxy adds its line after the client's, and the client's is believed. -/
theorem line_not_honest : ipInAny (parseIP (hostOnly (ascii "10.0.0.1:4711"))) proxies = true ∧
    ipInAny (some outside) proxies = false ∧
    clientIP ⟨ascii "10.0.0.1:4711", Recording.record .line [ascii "198.51.100.66"] (Record.ofString outside).text⟩
      proxies = ascii "198.51.100.66" ∧
    ¬ Honest (ascii "10.0.0.1:4711") proxies outside
      (clientIP ⟨ascii "10.0.0.1:4711", Recording.record .line [ascii "198.51.100.66"] (Record.ofString outside).text⟩
        proxies) := by
  have hclient : clientIP ⟨ascii "10.0.0.1:4711",
      Recording.record .line [ascii "198.51.100.66"] (Record.ofString outside).text⟩ proxies =
        ascii "198.51.100.66" := by decide +kernel
  refine ⟨by decide +kernel, by decide, hclient, fun hhonest => ?_⟩
  rw [hclient, Honest, if_pos (by decide +kernel)] at hhonest
  exact absurd hhonest (by decide +kernel)

end ThesadaApp.ClientAddress
