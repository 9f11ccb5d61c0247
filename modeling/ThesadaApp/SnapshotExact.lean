import ThesadaApp.CliPages
import ThesadaApp.SnapshotPull

/-!
What a chunked pull stores. A device serves each request with the bytes at the offset it asks for, as many as it likes,
and may leave out how many there are and whether they are the last. With a hash to compare nothing but the file is
stored. Without one it is when the file is read to its end and no chunk cuts a character.
-/

namespace ThesadaApp.Snapshot

open Cli ConfigSecrets DeviceFiles Json Utf8

/-- How a request is served: with how many bytes at most, whether the length is told and the last chunk marked, and
whether the others are marked as not the last. -/
structure Serve where
  size : Nat
  reported : Bool
  marked : Bool
  pos : 0 < size
  max : size ≤ 2048
  deriving DecidableEq, Repr

/-- A request is served, or it fails: in time there is no response, or one that is not ok. -/
inductive Answer where
  | served (s : Serve)
  | failed (payloads : List (Option CLIResponse)) (h : ∀ resp, cliRequest payloads = some resp → resp.ok = false)

section device

variable (file : List UInt8) (plan : Nat → Answer)

def Serve.chunk (s : Serve) (offset : Nat) : List UInt8 := (file.drop offset).take s.size

def Serve.last (s : Serve) (offset : Nat) : Bool := file.length ≤ offset + s.size

/-- The response to a request that is served. -/
def Serve.response (s : Serve) (offset : Nat) : CLIResponse where
  cmd := "fs.cat"
  reqID := ""
  ok := true
  output := []
  page := none
  more := none
  total := some file.length
  offset := some offset
  length := if s.reported then some (s.chunk file offset).length else none
  done := if s.reported = false then none else if s.last file offset then some true
    else if s.marked then some false else none
  data := some (String.ofList (lossy (s.chunk file offset)))

/-- The device with its answers in the order of the requests. -/
def device : Device := fun n request =>
  match request with
  | .fsCat _ offset _ =>
      match plan n with
      | .served s => [some (s.response file offset.toNat)]
      | .failed payloads _ => payloads
  | _ => []

/-- The chunks that are read from a request on, and the bytes that are left unread. -/
inductive Reads : (n offset : Nat) → List (List UInt8) → List UInt8 → Prop
  | last {n offset : Nat} {s : Serve} (hplan : plan n = .served s) (hreported : s.reported = true)
      (hlast : s.last file offset = true) : Reads n offset [s.chunk file offset] []
  | bare {n offset : Nat} {s : Serve} (hplan : plan n = .served s) (hreported : s.reported = false) :
      Reads n offset [s.chunk file offset] (file.drop (offset + s.size))
  | next {n offset : Nat} {s : Serve} {cs : List (List UInt8)} {u : List UInt8} (hplan : plan n = .served s)
      (hreported : s.reported = true) (hlast : s.last file offset = false) (h : Reads (n + 1) (offset + s.size) cs u) :
      Reads n offset (s.chunk file offset :: cs) u

/-- A request fails before the pull is over. -/
inductive Fails : (n offset : Nat) → Prop
  | here {n offset : Nat} {payloads : List (Option CLIResponse)}
      {h : ∀ resp, cliRequest payloads = some resp → resp.ok = false} (hplan : plan n = .failed payloads h) :
      Fails n offset
  | next {n offset : Nat} {s : Serve} (hplan : plan n = .served s) (hreported : s.reported = true)
      (hlast : s.last file offset = false) (h : Fails (n + 1) (offset + s.size)) : Fails n offset

end device

section pull

variable (F : FloatFormat) (sha : Digest) (file : List UInt8) (plan : Nat → Answer) (tenant : Slug) (devicePk : UUID)
  (path source : String)

/-- The pull of the file, with the hash to compare. -/
def pull (fuel : Nat) (expectedSha : String) : Option (Option UpsertCall) :=
  pullAndSnapshot F sha (device file plan) fuel tenant devicePk path source expectedSha

/-- The hash that a device reports of the file, or none. -/
def expected (reported : Bool) : String := if reported then sha.hex file else ""

/-- The pull ends and stores nothing but the file, and nothing when a request fails or the hash differs. -/
structure PullsExactly (reported : Bool) : Prop where
  ends : ∀ fuel, file.length < fuel →
    (pull F sha file plan tenant devicePk path source fuel (expected sha file reported)).isSome
  same : ∀ fuel call, pull F sha file plan tenant devicePk path source fuel (expected sha file reported) =
    some (some call) → encode call.content.toList = file
  failed : Fails file plan 0 0 → ∀ fuel call,
    pull F sha file plan tenant devicePk path source fuel (expected sha file reported) ≠ some (some call)
  mismatch : ∀ expectedSha, expectedSha ≠ "" → ∀ fuel call,
    pull F sha file plan tenant devicePk path source fuel expectedSha = some (some call) →
      sha.hex (encode call.content.toList) = expectedSha

/-- A text that is not stored: its shape is refused, or a hash is compared and differs. -/
def Refused (reported : Bool) (text : List Char) : Prop :=
  validSnapshotContent F path (String.ofList text) = false ∨ reported = true ∧ sha.hex (encode text) ≠ sha.hex file

/-- The text that is read is refused, or the file is read to its end in chunks of whole characters, or it consists of
replacements from the first cut on and as many are read. -/
def Kept (reported : Bool) : Prop := ∀ cs u, Reads file plan 0 0 cs u →
  Refused F sha file path reported (cs.flatMap lossy) ∨ (u = [] ∧ ∀ c ∈ cs, IsText c) ∨ EndsReplaced cs u

end pull

section run

variable {file : List UInt8} {plan : Nat → Answer} {n offset fuel : Nat} {cs : List (List UInt8)} {u : List UInt8}
  {path buf : String}

theorem cliRequest_single {resp : CLIResponse} (hpage : resp.page = none) (hmore : resp.more = none) :
    cliRequest [some resp] = some resp := by
  rw [cliRequest, awaitPagedCLIResponse_single hpage hmore]

theorem Serve.chunk_of_last {s : Serve} (h : s.last file offset = true) : s.chunk file offset = file.drop offset := by
  have hlast : file.length ≤ offset + s.size := of_decide_eq_true h
  refine List.take_of_length_le ?_
  rw [List.length_drop]
  omega

theorem Serve.chunk_append (s : Serve) (file : List UInt8) (offset : Nat) :
    s.chunk file offset ++ file.drop (offset + s.size) = file.drop offset := by
  rw [Serve.chunk, ← List.drop_drop, List.take_append_drop]

theorem Serve.chunk_ne_nil (s : Serve) (h : offset < file.length) : s.chunk file offset ≠ [] := by
  refine List.ne_nil_of_length_pos ?_
  rw [Serve.chunk, List.length_take, List.length_drop]
  have := s.pos
  omega

theorem Reads.flatten (h : Reads file plan n offset cs u) : cs.flatten ++ u = file.drop offset := by
  induction h with
  | last hplan hreported hlast => rw [List.flatten_singleton, List.append_nil, Serve.chunk_of_last hlast]
  | bare hplan hreported => rw [List.flatten_singleton, Serve.chunk_append]
  | next hplan hreported hlast h ih => rw [List.flatten_cons, List.append_assoc, ih, Serve.chunk_append]

theorem Reads.nonempty (h : Reads file plan n offset cs u) (hoffset : offset < file.length) : ∀ c ∈ cs, c ≠ [] := by
  induction h with
  | @last n offset s hplan hreported hlast => exact List.forall_mem_singleton.mpr (s.chunk_ne_nil hoffset)
  | @bare n offset s hplan hreported => exact List.forall_mem_singleton.mpr (s.chunk_ne_nil hoffset)
  | @next n offset s cs u hplan hreported hlast h ih =>
      have hmore : offset + s.size < file.length := not_le.mp (of_decide_eq_false hlast)
      exact List.forall_mem_cons.mpr ⟨s.chunk_ne_nil hoffset, ih hmore⟩

theorem Serve.length_chunk {s : Serve} (h : s.last file offset = false) : (s.chunk file offset).length = s.size := by
  have hmore : offset + s.size < file.length := not_le.mp (of_decide_eq_false h)
  rw [Serve.chunk, List.length_take, List.length_drop]
  omega

theorem readChunks_failed {payloads : List (Option CLIResponse)}
    {h : ∀ resp, cliRequest payloads = some resp → resp.ok = false} (hplan : plan n = .failed payloads h) :
    readChunks (device file plan) path (fuel + 1) n offset buf = some none := by
  have hdevice : device file plan n (.fsCat path offset 2048) = payloads := by simp [device, hplan]
  rw [readChunks, hdevice]
  cases hresp : cliRequest payloads with
  | none => rfl
  | some resp => exact if_pos (h resp hresp)

/-- A request that is served, with another one after it or not. -/
theorem readChunks_served {s : Serve} (hplan : plan n = .served s) :
    readChunks (device file plan) path (fuel + 1) n offset buf =
      if s.reported = true ∧ s.last file offset = false then
        readChunks (device file plan) path fuel (n + 1) (offset + s.size : Nat)
          (buf ++ String.ofList (lossy (s.chunk file offset)))
      else some (some (buf ++ String.ofList (lossy (s.chunk file offset)))) := by
  have hdevice : device file plan n (.fsCat path offset 2048) = [some (s.response file offset)] := by
    simp [device, hplan]
  rw [readChunks, hdevice, cliRequest_single rfl rfl]
  dsimp only [Serve.response]
  rw [if_neg (by decide), Option.getD_some]
  by_cases hmore : s.reported = true ∧ s.last file offset = false
  · obtain ⟨hreported, hlast⟩ := hmore
    rw [hreported, hlast, Serve.length_chunk hlast]
    cases s.marked <;> simp
  · rw [if_neg hmore]
    cases hreported : s.reported with
    | false => simp
    | true =>
        have hlast : s.last file offset = true := by
          rw [← Bool.not_eq_false]
          exact fun h => hmore ⟨hreported, h⟩
        simp [hlast]

/-- The loop ends with what is read. -/
theorem Reads.readChunks_eq (h : Reads file plan n offset cs u) (hfuel : file.length < fuel + offset)
    (hoffset : offset ≤ file.length) : readChunks (device file plan) path fuel n offset buf =
      some (some (buf ++ String.ofList (cs.flatMap lossy))) := by
  induction h generalizing fuel buf with
  | @last n offset s hplan hreported hlast =>
      obtain ⟨fuel, rfl⟩ := Nat.exists_eq_succ_of_ne_zero (by omega : fuel ≠ 0)
      rw [readChunks_served hplan, if_neg (by simp [hlast]), List.flatMap_singleton]
  | @bare n offset s hplan hreported =>
      obtain ⟨fuel, rfl⟩ := Nat.exists_eq_succ_of_ne_zero (by omega : fuel ≠ 0)
      rw [readChunks_served hplan, if_neg (by simp [hreported]), List.flatMap_singleton]
  | @next n offset s cs u hplan hreported hlast h ih =>
      obtain ⟨fuel, rfl⟩ := Nat.exists_eq_succ_of_ne_zero (by omega : fuel ≠ 0)
      have hmore : offset + s.size < file.length := not_le.mp (of_decide_eq_false hlast)
      have hpos := s.pos
      rw [readChunks_served hplan, if_pos ⟨hreported, hlast⟩, ih (by omega) hmore.le, List.flatMap_cons,
        String.ofList_append, String.append_assoc]

/-- The loop ends with nothing if a request fails. -/
theorem Fails.readChunks_eq (h : Fails file plan n offset) (hfuel : file.length < fuel + offset)
    (hoffset : offset ≤ file.length) : readChunks (device file plan) path fuel n offset buf = some none := by
  induction h generalizing fuel buf with
  | here hplan =>
      obtain ⟨fuel, rfl⟩ := Nat.exists_eq_succ_of_ne_zero (by omega : fuel ≠ 0)
      exact readChunks_failed hplan
  | @next n offset s hplan hreported hlast h ih =>
      obtain ⟨fuel, rfl⟩ := Nat.exists_eq_succ_of_ne_zero (by omega : fuel ≠ 0)
      have hmore : offset + s.size < file.length := not_le.mp (of_decide_eq_false hlast)
      have hpos := s.pos
      rw [readChunks_served hplan, if_pos ⟨hreported, hlast⟩, ih (by omega) hmore.le]

/-- Every pull is over after finitely many requests. -/
theorem reads_or_fails (file : List UInt8) (plan : Nat → Answer) (n offset : Nat) :
    (∃ cs u, Reads file plan n offset cs u) ∨ Fails file plan n offset := by
  cases hplan : plan n with
  | failed payloads h => exact .inr (.here hplan)
  | served s =>
      cases hreported : s.reported with
      | false => exact .inl ⟨_, _, .bare hplan hreported⟩
      | true =>
          cases hlast : s.last file offset with
          | true => exact .inl ⟨_, _, .last hplan hreported hlast⟩
          | false =>
              have hmore : offset + s.size < file.length := not_le.mp (of_decide_eq_false hlast)
              have hpos := s.pos
              rcases reads_or_fails file plan (n + 1) (offset + s.size) with ⟨cs, u, h⟩ | h
              · exact .inl ⟨_, u, .next hplan hreported hlast h⟩
              · exact .inr (.next hplan hreported hlast h)
termination_by file.length - offset

/-- More fuel changes nothing. -/
theorem readChunks_mono {device : Device} {offset : Int} {result : Option String}
    (h : readChunks device path fuel n offset buf = some result) (more : Nat) :
    readChunks device path (fuel + more) n offset buf = some result := by
  induction fuel generalizing n offset buf with
  | zero => cases h
  | succ fuel ih =>
      rw [Nat.succ_add, readChunks]
      rw [readChunks] at h
      cases hresp : cliRequest (device n (.fsCat path offset 2048)) with
      | none => rwa [hresp] at h
      | some resp =>
          rw [hresp] at h
          dsimp only at h ⊢
          split_ifs at h ⊢
          · exact h
          · exact h
          · cases hlength : resp.length with
            | none => rwa [hlength] at h
            | some length =>
                rw [hlength] at h
                exact ih h

/-- From the first request on. -/
theorem Reads.start_eq (h : Reads file plan 0 0 cs u) (hfuel : file.length < fuel) :
    readChunks (device file plan) path fuel 0 0 "" = some (some (String.ofList (cs.flatMap lossy))) := by
  have heq : readChunks (device file plan) path fuel 0 0 "" =
      some (some ("" ++ String.ofList (cs.flatMap lossy))) := h.readChunks_eq hfuel (Nat.zero_le _)
  rwa [String.empty_append] at heq

theorem Fails.start_eq (h : Fails file plan 0 0) (hfuel : file.length < fuel) :
    readChunks (device file plan) path fuel 0 0 "" = some none := h.readChunks_eq hfuel (Nat.zero_le _)

/-- Whatever the fuel, a pull that is over has read the chunks. -/
theorem Reads.result_eq (h : Reads file plan 0 0 cs u) {result : Option String}
    (hread : readChunks (device file plan) path fuel 0 0 "" = some result) :
    result = some (String.ofList (cs.flatMap lossy)) := by
  have hlong := readChunks_mono hread (file.length + 1)
  rw [h.start_eq (by omega)] at hlong
  exact (Option.some.inj hlong).symm

theorem Fails.result_eq (h : Fails file plan 0 0) {result : Option String}
    (hread : readChunks (device file plan) path fuel 0 0 "" = some result) : result = none := by
  have hlong := readChunks_mono hread (file.length + 1)
  rw [h.start_eq (by omega)] at hlong
  exact (Option.some.inj hlong).symm

/-- What is read is the file, or not, by how it is cut. -/
theorem Reads.same_iff (h : Reads file plan 0 0 cs u) :
    encode (cs.flatMap lossy) = file ↔ (u = [] ∧ ∀ c ∈ cs, IsText c) ∨ EndsReplaced cs u := by
  have hflatten : cs.flatten ++ u = file := h.flatten
  rcases Nat.eq_zero_or_pos file.length with hzero | hpos
  · have hfile : file = [] := List.eq_nil_of_length_eq_zero hzero
    have hnil : cs.flatten ++ u = [] := hflatten.trans hfile
    obtain ⟨hcs, rfl⟩ := List.append_eq_nil_iff.mp hnil
    have hall : ∀ c ∈ cs, IsText c := by
      intro c hc
      rw [List.flatten_eq_nil_iff.mp hcs c hc]
      exact isText_encode []
    refine iff_of_true ?_ (.inl ⟨rfl, hall⟩)
    rw [encode_flatMap_lossy hall, hcs, hfile]
  · have hiff := encode_flatMap_lossy_iff (u := u) (h.nonempty hpos)
    rwa [hflatten] at hiff

end run

section stored

variable {F : FloatFormat} {sha : Digest} {file : List UInt8} {plan : Nat → Answer} {tenant : Slug} {devicePk : UUID}
  {path source expectedSha : String} {device : Device} {fuel : Nat} {call : UpsertCall} {reported : Bool}
  {cs : List (List UInt8)} {u : List UInt8}

theorem pulledContent_script (hpath : path ≠ "config.json") :
    pulledContent device fuel path = readChunks device path fuel 0 0 "" := if_neg hpath

/-- What is stored has been read, is of the shape and has the hash. -/
theorem pullAndSnapshot_eq_some
    (h : pullAndSnapshot F sha device fuel tenant devicePk path source expectedSha = some (some call)) :
    pulledContent device fuel path = some (some call.content) ∧ validSnapshotContent F path call.content = true ∧
      (expectedSha = "" ∨ sha.hex (encode call.content.toList) = expectedSha) ∧ call.path = path := by
  obtain ⟨_ | content, hcontent, hcall⟩ := Option.map_eq_some_iff.mp h
  · cases hcall
  · dsimp only at hcall
    split_ifs at hcall with hvalid hsha
    obtain rfl := Option.some.inj hcall
    refine ⟨hcontent, Bool.of_not_eq_false hvalid, ?_, rfl⟩
    rw [not_and_or, not_not, not_not] at hsha
    exact hsha

theorem pullAndSnapshot_of_content {content : String} (hcontent : pulledContent device fuel path = some (some content))
    (hvalid : validSnapshotContent F path content = true)
    (hsha : expectedSha = "" ∨ sha.hex (encode content.toList) = expectedSha) :
    pullAndSnapshot F sha device fuel tenant devicePk path source expectedSha =
      some (some ⟨tenant, devicePk, path, content, sha.hex (encode content.toList), source, none⟩) := by
  have hsame : ¬ (expectedSha ≠ "" ∧ sha.hex (encode content.toList) ≠ expectedSha) := by
    rw [not_and_or, not_not, not_not]
    exact hsha
  rw [pullAndSnapshot, hcontent, Option.map_some]
  dsimp only
  rw [if_neg (by rw [hvalid]; decide), if_neg hsame]

end stored

section exact

variable {F : FloatFormat} {sha : Digest} {file : List UInt8} {plan : Nat → Answer} {tenant : Slug} {devicePk : UUID}
  {path source : String} {fuel : Nat} {call : UpsertCall} {reported : Bool} {cs : List (List UInt8)} {u : List UInt8}

theorem hash_of_expected {text : List Char}
    (h : expected sha file reported = "" ∨ sha.hex (encode text) = expected sha file reported)
    (hreported : reported = true) : sha.hex (encode text) = sha.hex file := by
  subst hreported
  exact h.resolve_left (sha.ne_empty file)

/-- A pull that stores something has read it, without a failure. -/
theorem exists_reads (hpath : path ≠ "config.json") {expectedSha : String}
    (h : pull F sha file plan tenant devicePk path source fuel expectedSha = some (some call)) :
    ∃ cs u, Reads file plan 0 0 cs u ∧ call.content = String.ofList (cs.flatMap lossy) := by
  obtain ⟨hcontent, -⟩ := pullAndSnapshot_eq_some h
  rw [pulledContent_script hpath] at hcontent
  rcases reads_or_fails file plan 0 0 with ⟨cs, u, hreads⟩ | hfails
  · exact ⟨cs, u, hreads, Option.some.inj (hreads.result_eq hcontent)⟩
  · cases hfails.result_eq hcontent

theorem pull_isSome (hpath : path ≠ "config.json") (hfuel : file.length < fuel) (expectedSha : String) :
    (pull F sha file plan tenant devicePk path source fuel expectedSha).isSome := by
  rw [pull, pullAndSnapshot, Option.isSome_map, pulledContent_script hpath]
  rcases reads_or_fails file plan 0 0 with ⟨cs, u, hreads⟩ | hfails
  · rw [hreads.start_eq hfuel]
    rfl
  · rw [hfails.start_eq hfuel]
    rfl

/-- What is stored of the file is the file. -/
theorem Kept.same (hkept : Kept F sha file plan path reported) (hpath : path ≠ "config.json")
    (h : pull F sha file plan tenant devicePk path source fuel (expected sha file reported) = some (some call)) :
    encode call.content.toList = file := by
  obtain ⟨-, hvalid, hsha, -⟩ := pullAndSnapshot_eq_some h
  obtain ⟨cs, u, hreads, hcontent⟩ := exists_reads hpath h
  rw [hcontent, String.toList_ofList] at hsha ⊢
  rcases hkept cs u hreads with (hshape | ⟨hreported, hdiffers⟩) | hwhole
  · rw [hcontent, hshape] at hvalid
    cases hvalid
  · exact absurd (hash_of_expected hsha hreported) hdiffers
  · exact hreads.same_iff.mpr hwhole

/-- A text that is not refused is stored. -/
theorem Reads.pull_eq (tenant : Slug) (devicePk : UUID) (source : String) (h : Reads file plan 0 0 cs u)
    (hpath : path ≠ "config.json") (hrefused : ¬ Refused F sha file path reported (cs.flatMap lossy)) : ∃ call,
    pull F sha file plan tenant devicePk path source (file.length + 1) (expected sha file reported) = some (some call) ∧
      call.content = String.ofList (cs.flatMap lossy) := by
  obtain ⟨hshape, hhash⟩ := not_or.mp hrefused
  have hcontent : pulledContent (device file plan) (file.length + 1) path =
      some (some (String.ofList (cs.flatMap lossy))) := by
    rw [pulledContent_script hpath, h.start_eq (Nat.lt_succ_self _)]
  have hsha : expected sha file reported = "" ∨
      sha.hex (encode (String.ofList (cs.flatMap lossy)).toList) = expected sha file reported := by
    rw [String.toList_ofList]
    cases reported with
    | false => exact .inl rfl
    | true => exact .inr (not_not.mp fun hdiffers => hhash ⟨rfl, hdiffers⟩)
  exact ⟨_, pullAndSnapshot_of_content hcontent (Bool.of_not_eq_false hshape) hsha, rfl⟩

/-- A pull stores nothing but the file when the text that is read is refused, or the file is read to its end and no
chunk cuts a character, or all is replacements from the first cut on, and only then. -/
theorem pull_exact_iff (hpath : path ≠ "config.json") :
    PullsExactly F sha file plan tenant devicePk path source reported ↔ Kept F sha file plan path reported := by
  constructor
  · intro hexact cs u hreads
    by_cases hrefused : Refused F sha file path reported (cs.flatMap lossy)
    · exact .inl hrefused
    · obtain ⟨call, hcall, hcontent⟩ := hreads.pull_eq tenant devicePk source hpath hrefused
      have hsame := hexact.same _ call hcall
      rw [hcontent, String.toList_ofList] at hsame
      exact .inr (hreads.same_iff.mp hsame)
  · intro hkept
    constructor
    case ends => exact fun fuel hfuel => pull_isSome hpath hfuel _
    case same => exact fun fuel call hcall => hkept.same hpath hcall
    case failed =>
      intro hfails fuel call hcall
      obtain ⟨hcontent, -⟩ := pullAndSnapshot_eq_some hcall
      rw [pulledContent_script hpath] at hcontent
      cases hfails.result_eq hcontent
    case mismatch =>
      intro expectedSha hne fuel call hcall
      obtain ⟨-, -, hsha, -⟩ := pullAndSnapshot_eq_some hcall
      exact hsha.resolve_left hne

/-- `"-- é"`. -/
def comment : List UInt8 := [45, 45, 32, 195, 169]

/-- The hashes of `comment` and of what is read of it when the last character is cut. -/
def commentDigest : Digest where
  hex bs := if bs = comment then "22dd7485f730a205a290fa4e856720e4c69bfbb9e539a5daa39050622dbde01f"
    else "153aba26932e4039f8f089872e6e1592476922903a78c096fb534b8092801bb4"
  ne_empty bs := by split_ifs <;> decide

/-- Chunks of a size, with their length and the last one marked. -/
def wholeChunks : Serve := ⟨2048, true, false, by decide, by decide⟩

def shortChunks : Serve := ⟨4, true, false, by decide, by decide⟩

theorem kept_comment : Kept oneDigit commentDigest comment (fun _ => .served wholeChunks) "/scripts/a.lua" false := by
  intro cs u hreads
  have hall : cs = [comment] ∧ u = [] := by
    cases hreads with
    | last hplan hreported hlast =>
        cases hplan
        exact ⟨rfl, rfl⟩
    | bare hplan hreported =>
        cases hplan
        cases hreported
    | next hplan hreported hlast h =>
        cases hplan
        cases hlast
  obtain ⟨rfl, rfl⟩ := hall
  exact .inr (.inl ⟨rfl, by decide⟩)

/-- In one chunk the script is stored as it is. -/
theorem comment_pulled : PullsExactly oneDigit commentDigest comment (fun _ => .served wholeChunks) acme 7
    "/scripts/a.lua" "drift" false :=
  (pull_exact_iff (by decide)).mpr kept_comment

/-- In chunks of four bytes the last character is cut, and a script with two replacements in its place is stored. -/
theorem comment_replaced : ¬ ∀ (F : FloatFormat) (sha : Digest) (file : List UInt8) (plan : Nat → Answer)
    (tenant : Slug) (devicePk : UUID) (path source : String) (reported : Bool), path ≠ "config.json" →
      PullsExactly F sha file plan tenant devicePk path source reported := by
  intro hexact
  have hlast : Reads comment (fun _ => .served shortChunks) 1 4 [shortChunks.chunk comment 4] [] :=
    .last rfl rfl (by decide)
  have hreads : Reads comment (fun _ => .served shortChunks) 0 0
      [shortChunks.chunk comment 0, shortChunks.chunk comment 4] [] := .next rfl rfl (by decide) hlast
  have htext : [shortChunks.chunk comment 0, shortChunks.chunk comment 4].flatMap lossy =
      "-- \uFFFD\uFFFD".toList := by decide
  have hrefused : ¬ Refused oneDigit commentDigest comment "/scripts/a.lua" false
      ([shortChunks.chunk comment 0, shortChunks.chunk comment 4].flatMap lossy) := by
    rintro (hshape | ⟨hreported, -⟩)
    · have hvalid : validSnapshotContent oneDigit "/scripts/a.lua" "-- \uFFFD\uFFFD" = true := by
        decide +kernel
      rw [htext, String.ofList_toList, hvalid] at hshape
      cases hshape
    · cases hreported
  obtain ⟨call, hcall, hcontent⟩ := hreads.pull_eq acme 7 "drift" (by decide) hrefused
  have h := hexact oneDigit commentDigest comment (fun _ => .served shortChunks) acme 7 "/scripts/a.lua" "drift" false
    (by decide)
  have hsame := h.same _ _ hcall
  rw [hcontent, String.toList_ofList, htext] at hsame
  revert hsame
  decide

end exact

section discovery

variable {F : FloatFormat} {sha : Digest} {listing : List (Option CLIResponse)} {fuel : Nat} {tenant : Slug}
  {devicePk : UUID} {stored : String → Bool} {pullPath : String → Option UpsertCall} {lines : List String}
  {line path : String} {call : UpsertCall} {files : String → List UInt8} {plans : String → Nat → Answer}

theorem scriptPath_ne_config (h : scriptPath line = some path) : path ≠ "config.json" := by
  rintro rfl
  rw [scriptPath] at h
  split at h
  · split_ifs at h with hsuffix hslash
    · obtain rfl := Option.some.inj h
      exact absurd hslash (by decide)
    · have hhead := congrArg (fun s => s.toList.head?) (Option.some.inj h)
      simp at hhead
  · cases h

theorem mem_pullUntracked (h : call ∈ pullUntracked pullPath stored lines) :
    ∃ line ∈ lines, ∃ path, scriptPath line = some path ∧ pullPath path = some call := by
  induction lines generalizing stored with
  | nil => cases h
  | cons line lines ih =>
      have htail : ∀ stored, call ∈ pullUntracked pullPath stored lines →
          ∃ line' ∈ line :: lines, ∃ path, scriptPath line' = some path ∧ pullPath path = some call := by
        intro stored h
        obtain ⟨line', hline', hpath⟩ := ih h
        exact ⟨line', List.mem_cons_of_mem line hline', hpath⟩
      rw [pullUntracked] at h
      cases hscript : scriptPath line with
      | none =>
          rw [hscript] at h
          exact htail stored h
      | some path =>
          rw [hscript] at h
          dsimp only at h
          split_ifs at h with hstored
          · exact htail stored h
          · cases hpull : pullPath path with
            | none =>
                rw [hpull] at h
                exact htail stored h
            | some found =>
                rw [hpull] at h
                rcases List.mem_cons.mp h with rfl | h
                · exact ⟨line, List.mem_cons_self, path, hscript, hpull⟩
                · exact htail _ h

/-- Whatever the scripts that are found on a device, each is stored as it is if its pull keeps it. -/
theorem discovered_exact (hkept : ∀ path, Kept F sha (files path) (plans path) path false)
    (h : call ∈ discoverAndSnapshotScripts F sha listing (fun path => device (files path) (plans path)) fuel tenant
      devicePk stored) : encode call.content.toList = files call.path := by
  rw [discoverAndSnapshotScripts] at h
  cases hlisting : cliRequest listing with
  | none =>
      rw [hlisting] at h
      cases h
  | some resp =>
      rw [hlisting] at h
      dsimp only at h
      split_ifs at h with hok
      · cases h
      · obtain ⟨line, -, path, hscript, hjoin⟩ := mem_pullUntracked h
        have hpull := Option.join_eq_some_iff.mp hjoin
        obtain ⟨-, -, -, hpath⟩ := pullAndSnapshot_eq_some hpull
        rw [hpath]
        exact (hkept path).same (scriptPath_ne_config hscript) hpull

end discovery

end ThesadaApp.Snapshot
