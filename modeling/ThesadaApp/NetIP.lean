import Mathlib.Data.Nat.Digits.Lemmas
import ThesadaApp.PartialMap

/-!
Internet addresses and their text, as `net` has them. An address is 16 bytes, with IPv4 mapped into IPv6; its text is
dotted decimal or colon-separated hex with the first longest run of zeros left out. What is printed is parsed back.
Text is bytes, as it arrives.
-/

namespace NetIP

abbrev Bytes := List UInt8

def dot : UInt8 := '.'.toUInt8

def colon : UInt8 := ':'.toUInt8

def percent : UInt8 := '%'.toUInt8

section numbers

/-- The value of a digit, if it is one of the base. -/
def digitVal (base : Nat) (c : UInt8) : Option Nat :=
  (if '0'.toUInt8 ≤ c ∧ c ≤ '9'.toUInt8 then some (c.toNat - '0'.toNat)
    else if 'a'.toUInt8 ≤ c ∧ c ≤ 'f'.toUInt8 then some (c.toNat - 'a'.toNat + 10)
    else if 'A'.toUInt8 ≤ c ∧ c ≤ 'F'.toUInt8 then some (c.toNat - 'A'.toNat + 10)
    else none).filter (· < base)

def digitChar (d : Nat) : UInt8 := if d < 10 then '0'.toUInt8 + .ofNat d else 'a'.toUInt8 + .ofNat (d - 10)

def parseNat (base : Nat) (s : Bytes) : Option Nat :=
  (s.mapM (digitVal base)).map fun ds => ds.foldl (fun acc d => d + base * acc) 0

/-- The text of a number, without leading zeros. -/
def natText (base n : Nat) : Bytes := if n = 0 then [digitChar 0] else (base.digits n).reverse.map digitChar

theorem digitVal_digitChar {base d : Nat} (hd : d < base) (hbase : base ≤ 16) :
    digitVal base (digitChar d) = some d := by
  have hsmall : ∀ d < 16, digitVal 16 (digitChar d) = some d := by decide
  have h16 := (Option.filter_eq_some_iff.mp (hsmall d (lt_of_lt_of_le hd hbase))).1
  exact Option.filter_eq_some_iff.mpr ⟨h16, decide_eq_true hd⟩

theorem mapM_digitVal {base : Nat} (hbase : base ≤ 16) {ds : List Nat} (hds : ∀ d ∈ ds, d < base) :
    (ds.map digitChar).mapM (digitVal base) = some ds :=
  PartialMap.mapM_text fun d hd => digitVal_digitChar (hds d hd) hbase

theorem parseNat_natText {base : Nat} (hone : 1 < base) (hbase : base ≤ 16) (n : Nat) :
    parseNat base (natText base n) = some n := by
  unfold natText
  split
  · next hn =>
      have hzero : ([0].map digitChar).mapM (digitVal base) = some [0] := mapM_digitVal hbase fun d hd => by
        rw [List.mem_singleton.mp hd]
        exact Nat.zero_lt_of_lt hone
      rw [parseNat, show [digitChar 0] = [0].map digitChar from rfl, hzero, hn]
      rfl
  · have hdigits : ∀ d ∈ (base.digits n).reverse, d < base := fun d hd =>
      Nat.digits_lt_base hone (List.mem_reverse.mp hd)
    rw [parseNat, mapM_digitVal hbase hdigits, Option.map_some, List.foldl_reverse]
    exact congrArg some ((Nat.ofDigits_eq_foldr base _).symm.trans (Nat.ofDigits_digits base n))

theorem natText_ne_nil (base n : Nat) : natText base n ≠ [] := by
  unfold natText
  split
  · exact List.cons_ne_nil _ _
  · next hn =>
      intro hnil
      rw [List.map_eq_nil_iff, List.reverse_eq_nil_iff] at hnil
      exact hn (Nat.digits_eq_nil_iff_eq_zero.mp hnil)

theorem length_natText_le {base k n : Nat} (hone : 1 < base) (hk : 0 < k) (hn : n < base ^ k) :
    (natText base n).length ≤ k := by
  unfold natText
  split
  · exact hk
  · rw [List.length_map, List.length_reverse]
    exact (Nat.digits_length_le_iff hone n).mpr hn

/-- No leading zero, but for zero itself. -/
theorem head?_natText {base n : Nat} (hone : 1 < base) (hbase : base ≤ 16) (hn : n ≠ 0) :
    (natText base n).head? ≠ some (digitChar 0) := by
  rw [natText, if_neg hn, List.head?_map, List.head?_reverse]
  have hne : base.digits n ≠ [] := Nat.digits_ne_nil_iff_ne_zero.mpr hn
  rw [List.getLast?_eq_some_getLast hne, Option.map_some]
  intro heq
  have hlt := Nat.digits_lt_base hone (List.getLast_mem hne)
  have hzero := (digitVal_digitChar hlt hbase).symm.trans ((congrArg (digitVal base) (Option.some.inj heq)).trans
    (digitVal_digitChar (Nat.zero_lt_of_lt hone) hbase))
  exact Nat.getLast_digit_ne_zero base hn (Option.some.inj hzero)

/-- Every byte of a number is a digit. -/
theorem isSome_digitVal_of_mem {base n : Nat} (hone : 1 < base) (hbase : base ≤ 16) {c : UInt8}
    (hc : c ∈ natText base n) : (digitVal base c).isSome = true := by
  unfold natText at hc
  split at hc
  · rw [List.mem_singleton.mp hc, digitVal_digitChar (Nat.zero_lt_of_lt hone) hbase]
    rfl
  · obtain ⟨d, hd, rfl⟩ := List.mem_map.mp hc
    rw [digitVal_digitChar (Nat.digits_lt_base hone (List.mem_reverse.mp hd)) hbase]
    rfl

end numbers

/-- An address: an IPv4 address is the last four bytes after `::ffff:`. -/
structure IP where
  bytes : Bytes
  length_bytes : bytes.length = 16
  deriving DecidableEq

/-- Ten zeros and two bytes of ones. -/
def v4InV6 : Bytes := List.replicate 10 0 ++ [255, 255]

/-- `IP.To4`. -/
def IP.to4 (ip : IP) : Option Bytes := if ip.bytes.take 12 = v4InV6 then some (ip.bytes.drop 12) else none

/-- `IPNet`: what it takes from a list of networks need not be well-formed. -/
structure IPNet where
  ip : Bytes
  mask : Bytes
  deriving DecidableEq

/-- `networkNumberAndMask`. -/
def IPNet.numberAndMask (n : IPNet) : Option (Bytes × Bytes) :=
  let number := if n.ip.length = 16 ∧ n.ip.take 12 = v4InV6 then n.ip.drop 12 else n.ip
  if number.length ≠ 4 ∧ number.length ≠ 16 then none
  else if n.mask.length = number.length then some (number, n.mask)
  else if n.mask.length = 16 ∧ number.length = 4 then some (number, n.mask.drop 12)
  else none

/-- `IPNet.Contains`. -/
def IPNet.contains (n : IPNet) (ip : IP) : Bool :=
  let bytes := ip.to4.getD ip.bytes
  n.numberAndMask.any fun (number, mask) =>
    number.length = bytes.length && List.zipWith (· &&& ·) number mask = List.zipWith (· &&& ·) bytes mask

section groups

/-- Big-endian pairs of bytes. -/
def pairs : Bytes → List Nat
  | [] => []
  | [_] => []
  | a :: b :: rest => (a.toNat * 256 + b.toNat) :: pairs rest

def unpairs (gs : List Nat) : Bytes := gs.flatMap fun g => [.ofNat (g / 256), .ofNat g]

def IP.groups (ip : IP) : List Nat := pairs ip.bytes

def IP.ofGroups (gs : List Nat) (h : gs.length = 8) : IP :=
  ⟨unpairs gs, by rw [unpairs, List.length_flatMap]; simp [h]⟩

theorem length_pairs (l : Bytes) : (pairs l).length = l.length / 2 := by
  induction l using pairs.induct with
  | case1 => rfl
  | case2 a => simp [pairs]
  | case3 a b rest ih =>
      rw [pairs, List.length_cons, ih, List.length_cons, List.length_cons]
      omega

theorem IP.length_groups (ip : IP) : ip.groups.length = 8 := by
  rw [IP.groups, length_pairs, ip.length_bytes]

theorem pairs_lt (l : Bytes) : ∀ g ∈ pairs l, g < 65536 := by
  induction l using pairs.induct with
  | case1 => exact fun g hg => absurd hg List.not_mem_nil
  | case2 a => exact fun g hg => absurd hg List.not_mem_nil
  | case3 a b rest ih =>
      intro g hg
      rcases List.mem_cons.mp hg with rfl | hg
      · have := a.toNat_lt
        have := b.toNat_lt
        omega
      · exact ih g hg

theorem IP.group_lt (ip : IP) : ∀ g ∈ ip.groups, g < 65536 := pairs_lt ip.bytes

theorem unpairs_pairs (l : Bytes) (heven : l.length % 2 = 0) : unpairs (pairs l) = l := by
  induction l using pairs.induct with
  | case1 => rfl
  | case2 a => cases heven
  | case3 a b rest ih =>
      rw [List.length_cons, List.length_cons] at heven
      have hb := b.toNat_lt
      have hhigh : UInt8.ofNat ((a.toNat * 256 + b.toNat) / 256) = a := by
        rw [show (a.toNat * 256 + b.toNat) / 256 = a.toNat by omega, UInt8.ofNat_toNat]
      have hlow : UInt8.ofNat (a.toNat * 256 + b.toNat) = b := by
        apply UInt8.toNat_inj.mp
        rw [UInt8.toNat_ofNat']
        omega
      have hrest := ih (by omega)
      rw [unpairs] at hrest ⊢
      rw [pairs, List.flatMap_cons, hrest, hhigh, hlow]
      rfl

theorem IP.ofGroups_groups (ip : IP) {gs : List Nat} (hgs : gs = ip.groups) (h : gs.length = 8) :
    IP.ofGroups gs h = ip := by
  subst hgs
  have hbytes := unpairs_pairs ip.bytes (by rw [ip.length_bytes])
  obtain ⟨bytes, hlength⟩ := ip
  simpa [IP.ofGroups, IP.groups] using hbytes

end groups

section text

/-- Groups in hex, with colons between them. -/
def hexText (gs : List Nat) : Bytes := [colon].intercalate (gs.map (natText 16))

/-- Where the first longest run of two or more zeros starts, and how long it is. -/
def longestZeros (gs : List Nat) : Nat × Nat :=
  (List.range gs.length).foldl
    (fun best i =>
      let run := ((gs.drop i).takeWhile (· = 0)).length
      if 2 ≤ run ∧ best.2 < run then (i, run) else best)
    (0, 0)

/-- `IP.String`. -/
def IP.string (ip : IP) : Bytes :=
  match ip.to4 with
  | some fields => [dot].intercalate (fields.map fun b => natText 10 b.toNat)
  | none =>
      let zeros := longestZeros ip.groups
      if zeros.2 = 0 then hexText ip.groups
      else hexText (ip.groups.take zeros.1) ++ colon :: colon :: hexText (ip.groups.drop (zeros.1 + zeros.2))

/-- One decimal field: no leading zero, and at most 255. -/
def parseOctet (s : Bytes) : Option UInt8 :=
  if s = [] ∨ 1 < s.length ∧ s.head? = some '0'.toUInt8 then none
  else ((parseNat 10 s).filter (· ≤ 255)).map UInt8.ofNat

/-- `parseIPv4Fields`. -/
def parseFields (s : Bytes) : Option { fields : Bytes // fields.length = 4 } :=
  ((s.splitOn dot).mapM parseOctet).bind fun fields => if h : fields.length = 4 then some ⟨fields, h⟩ else none

/-- One to four hex digits. -/
def parseGroup (s : Bytes) : Option Nat := if s = [] ∨ 4 < s.length then none else parseNat 16 s

/-- The groups of an address or of one side of its `::`. The last field may be an IPv4 address at the end. -/
def parseGroups (atEnd : Bool) : List Bytes → Option (List Nat)
  | [] => some []
  | [s] =>
      if atEnd && dot ∈ s then (parseFields s).map fun fields => pairs fields.val
      else (parseGroup s).map fun g => [g]
  | s :: rest => (parseGroup s).bind fun g => (parseGroups atEnd rest).map fun gs => g :: gs

/-- The text before the first `::` and after it. -/
def cut : Bytes → Option (Bytes × Bytes)
  | a :: b :: rest =>
      if a = colon ∧ b = colon then some ([], rest) else (cut (b :: rest)).map fun sides => (a :: sides.1, sides.2)
  | _ => none

def fieldsOf (s : Bytes) : List Bytes := if s = [] then [] else s.splitOn colon

/-- `parseIPv6` of a text with a colon; `::` stands for at least one zero. -/
def parseIPv6 (s : Bytes) : Option IP :=
  let groups := match cut s with
    | none => parseGroups true (fieldsOf s)
    | some (front, back) =>
        (parseGroups false (fieldsOf front)).bind fun gs => (parseGroups true (fieldsOf back)).bind fun hs =>
          if gs.length + hs.length < 8 then some (gs ++ List.replicate (8 - (gs.length + hs.length)) 0 ++ hs) else none
  groups.bind fun gs => if h : gs.length = 8 then some (.ofGroups gs h) else none

/-- `ParseIP`, which knows no zones. -/
def parseIP (s : Bytes) : Option IP :=
  if percent ∈ s then none
  else match s.find? fun c => c = dot ∨ c = colon with
    | none => none
    | some c =>
        if c = dot then (parseFields s).map fun fields => ⟨v4InV6 ++ fields.val, by
          rw [List.length_append, fields.property]
          rfl⟩
        else parseIPv6 s

end text

section fields

variable {base n : Nat} {c : UInt8}

/-- Fields are read where they were written. -/
theorem not_mem_natText (hone : 1 < base) (hbase : base ≤ 16) (hc : digitVal base c = none) : c ∉ natText base n := by
  intro hmem
  have hdigit := isSome_digitVal_of_mem hone hbase hmem
  rw [hc] at hdigit
  cases hdigit

theorem parseOctet_natText (b : UInt8) : parseOctet (natText 10 b.toNat) = some b := by
  have hparse : parseNat 10 (natText 10 b.toNat) = some b.toNat := parseNat_natText (by decide) (by decide) b.toNat
  have hbyte := b.toNat_lt
  unfold parseOctet
  rw [if_neg, hparse, Option.filter_some, if_pos (decide_eq_true (by omega)), Option.map_some, UInt8.ofNat_toNat]
  rintro (hnil | ⟨hlong, hzero⟩)
  · exact natText_ne_nil 10 b.toNat hnil
  · by_cases hb : b.toNat = 0
    · rw [hb] at hlong
      exact absurd hlong (by decide)
    · exact head?_natText (by decide) (by decide) hb hzero

theorem parseFields_text {fields : Bytes} (h : fields.length = 4) :
    parseFields ([dot].intercalate (fields.map fun b => natText 10 b.toNat)) = some ⟨fields, h⟩ := by
  have hsplit : ([dot].intercalate (fields.map fun b => natText 10 b.toNat)).splitOn dot =
      fields.map fun b => natText 10 b.toNat := by
    refine List.splitOn_intercalate dot (fun s hs => ?_) fun hnil => ?_
    · obtain ⟨b, -, rfl⟩ := List.mem_map.mp hs
      exact not_mem_natText (by decide) (by decide) (by decide)
    · rw [List.map_eq_nil_iff] at hnil
      rw [hnil] at h
      cases h
  rw [parseFields, hsplit, PartialMap.mapM_text fun b _ => parseOctet_natText b]
  exact dif_pos h

theorem parseGroup_natText (hn : n < 65536) : parseGroup (natText 16 n) = some n := by
  have hlength : (natText 16 n).length ≤ 4 := length_natText_le (by decide) (by decide) hn
  rw [parseGroup, if_neg, parseNat_natText (by decide) (by decide)]
  rintro (hnil | hlong)
  · exact natText_ne_nil 16 n hnil
  · omega

theorem parseGroups_text (atEnd : Bool) {gs : List Nat} (hgs : ∀ g ∈ gs, g < 65536) :
    parseGroups atEnd (gs.map (natText 16)) = some gs := by
  induction gs with
  | nil => rfl
  | cons g gs ih =>
      have hg := parseGroup_natText (hgs g List.mem_cons_self)
      cases gs with
      | nil =>
          have hdot : dot ∉ natText 16 g := not_mem_natText (by decide) (by decide) (by decide)
          simp [parseGroups, hdot, hg]
      | cons g' rest =>
          have hrest := ih fun g'' hg'' => hgs g'' (List.mem_cons_of_mem g hg'')
          rw [List.map_cons, List.map_cons, parseGroups, hg, Option.bind_some, ← List.map_cons, hrest, Option.map_some]
          exact fun hnil => by cases hnil

theorem fieldsOf_hexText (gs : List Nat) : fieldsOf (hexText gs) = gs.map (natText 16) := by
  unfold fieldsOf hexText
  cases gs with
  | nil => rfl
  | cons g gs =>
      rw [if_neg, List.splitOn_intercalate colon fun s hs => ?_]
      · exact List.cons_ne_nil _ _
      · obtain ⟨g', -, rfl⟩ := List.mem_map.mp hs
        exact not_mem_natText (by decide) (by decide) (by decide)
      · intro hnil
        rw [List.map_cons] at hnil
        cases gs with
        | nil => exact natText_ne_nil 16 g (by simpa using hnil)
        | cons g' gs => exact natText_ne_nil 16 g (by simp [List.intercalate_cons_cons] at hnil)

end fields

section cut

variable {l r s : Bytes}

theorem cut_cons_of_ne {a : UInt8} (ha : a ≠ colon) :
    cut (a :: s) = (cut s).map fun sides => (a :: sides.1, sides.2) := by
  cases s with
  | nil => rfl
  | cons b rest => rw [cut, if_neg fun h => ha h.1]

theorem cut_colon_of_ne {b : UInt8} (hb : b ≠ colon) :
    cut (colon :: b :: s) = (cut (b :: s)).map fun sides => (colon :: sides.1, sides.2) := by
  rw [cut, if_neg fun h => hb h.2]

/-- A field without a colon is skipped. -/
theorem cut_append_of_not_mem (hl : colon ∉ l) : cut (l ++ s) = (cut s).map fun sides => (l ++ sides.1, sides.2) := by
  induction l with
  | nil => simp
  | cons a l ih =>
      rw [List.mem_cons, not_or] at hl
      obtain ⟨ha, hl⟩ := hl
      rw [List.cons_append, cut_cons_of_ne (Ne.symm ha), ih hl, Option.map_map]
      rfl

theorem hexText_cons (g : Nat) {gs : List Nat} (hgs : gs ≠ []) :
    hexText (g :: gs) = natText 16 g ++ colon :: hexText gs := by
  cases gs with
  | nil => exact absurd rfl hgs
  | cons g' gs => simp [hexText, List.intercalate_cons_cons]

theorem colon_not_mem_group (g : Nat) : colon ∉ natText 16 g := not_mem_natText (by decide) (by decide) (by decide)

/-- A group starts with a digit. -/
theorem hexText_cons_eq (g : Nat) (gs : List Nat) : ∃ b t, hexText (g :: gs) = b :: t ∧ b ≠ colon := by
  have hstart : ∃ b t, natText 16 g = b :: t ∧ b ≠ colon := by
    obtain ⟨b, t, hbt⟩ := List.exists_cons_of_ne_nil (natText_ne_nil 16 g)
    refine ⟨b, t, hbt, fun hb => colon_not_mem_group g ?_⟩
    rw [hbt, hb]
    exact List.mem_cons_self
  obtain ⟨b, t, hbt, hb⟩ := hstart
  by_cases hgs : gs = []
  · refine ⟨b, t, ?_, hb⟩
    rw [hgs, ← hbt]
    simp [hexText]
  · exact ⟨b, t ++ colon :: hexText gs, by rw [hexText_cons g hgs, hbt, List.cons_append], hb⟩

/-- Groups and what follows their `::`, if anything does, are cut where they were joined. -/
theorem cut_hexText (gs : List Nat) (back : Option Bytes) :
    cut (hexText gs ++ back.elim [] fun r => colon :: colon :: r) = back.map fun r => (hexText gs, r) := by
  induction gs with
  | nil =>
      cases back with
      | none => rfl
      | some r => simp [hexText, cut]
  | cons g gs ih =>
      by_cases hgs : gs = []
      · rw [hgs, show hexText [g] = natText 16 g by simp [hexText], cut_append_of_not_mem (colon_not_mem_group g)]
        cases back with
        | none => rfl
        | some r => simp [cut]
      · rw [hexText_cons g hgs, List.append_assoc, cut_append_of_not_mem (colon_not_mem_group g)]
        obtain ⟨g', gs', rfl⟩ := List.exists_cons_of_ne_nil hgs
        obtain ⟨b, t, hbt, hb⟩ := hexText_cons_eq g' gs'
        rw [hbt] at ih ⊢
        rw [List.cons_append] at ih
        rw [List.cons_append, List.cons_append, cut_colon_of_ne hb, ih]
        cases back with
        | none => rfl
        | some r => rfl

end cut

section roundTrip

theorem replicate_takeWhile_zero (l : List Nat) : List.replicate (l.takeWhile (· = 0)).length 0 ++
    l.drop (l.takeWhile (· = 0)).length = l := by
  induction l with
  | nil => rfl
  | cons a l ih =>
      by_cases ha : a = 0
      · subst ha
        rw [List.takeWhile_cons_of_pos rfl, List.length_cons, List.replicate_succ, List.cons_append,
          List.drop_succ_cons, ih]
      · rw [List.takeWhile_cons_of_neg (by simpa using ha)]
        rfl

/-- The part of the groups that a text may leave out. -/
def AreZeros (gs : List Nat) (zeros : Nat × Nat) : Prop :=
  gs.take zeros.1 ++ List.replicate zeros.2 0 ++ gs.drop (zeros.1 + zeros.2) = gs

theorem longestZeros_areZeros (gs : List Nat) : AreZeros gs (longestZeros gs) := by
  unfold longestZeros
  refine List.foldlRecOn (motive := AreZeros gs) _ _ (by simp [AreZeros]) fun best hbest i _ => ?_
  dsimp only
  split
  · rw [AreZeros, ← List.drop_drop, List.append_assoc, replicate_takeWhile_zero, List.take_append_drop]
  · exact hbest

variable {ip : IP}

theorem IP.bytes_of_to4 {fields : Bytes} (h : ip.to4 = some fields) : ip.bytes = v4InV6 ++ fields := by
  unfold IP.to4 at h
  split_ifs at h with hv4
  rw [← Option.some.inj h, ← hv4, List.take_append_drop]

theorem not_mem_intercalate {sep c : UInt8} {fields : List Bytes} (hsep : c ≠ sep) (hfields : ∀ s ∈ fields, c ∉ s) :
    c ∉ [sep].intercalate fields := by
  induction fields with
  | nil => exact List.not_mem_nil
  | cons s fields ih =>
      have hs := hfields s List.mem_cons_self
      have hrest := ih fun s' hs' => hfields s' (List.mem_cons_of_mem s hs')
      by_cases hnil : fields = []
      · rw [hnil, List.intercalate_singleton]
        exact hs
      · simp [List.intercalate_cons_of_ne_nil hnil, hsep, hs, hrest]

/-- The first dot or colon, which tells the two kinds of text apart. -/
theorem find?_separator {base : Nat} (hone : 1 < base) (hbase : base ≤ 16) (n : Nat) {sep : UInt8}
    (hsep : sep = dot ∨ sep = colon) (s : Bytes) :
    (natText base n ++ sep :: s).find? (fun c => c = dot ∨ c = colon) = some sep := by
  have hnone : (natText base n).find? (fun c => c = dot ∨ c = colon) = none := by
    rw [List.find?_eq_none]
    intro c hc hmatch
    have hdigit := isSome_digitVal_of_mem hone hbase hc
    have hnot : ∀ base c, c = dot ∨ c = colon → digitVal base c = none := by
      rintro base c (rfl | rfl) <;> rfl
    rw [hnot base c (of_decide_eq_true hmatch)] at hdigit
    cases hdigit
  rw [List.find?_append, hnone, Option.none_or]
  rcases hsep with rfl | rfl
  · rfl
  · rfl

theorem parseIP_v4 {fields : Bytes} (h : fields.length = 4) :
    parseIP ([dot].intercalate (fields.map fun b => natText 10 b.toNat)) =
      some ⟨v4InV6 ++ fields, by rw [List.length_append, h]; rfl⟩ := by
  have hpercent : percent ∉ [dot].intercalate (fields.map fun b => natText 10 b.toNat) := by
    refine not_mem_intercalate (by decide) fun s hs => ?_
    obtain ⟨b, -, rfl⟩ := List.mem_map.mp hs
    exact not_mem_natText (by decide) (by decide) (by decide)
  have hfind : ([dot].intercalate (fields.map fun b => natText 10 b.toNat)).find? (fun c => c = dot ∨ c = colon) =
      some dot := by
    match fields, h with
    | [a, b, c, d], _ =>
        rw [List.map_cons, List.map_cons, List.intercalate_cons_cons, List.append_assoc]
        exact find?_separator (by decide) (by decide) a.toNat (Or.inl rfl) _
  rw [parseIP, if_neg hpercent, hfind]
  dsimp only
  rw [if_pos rfl, parseFields_text h]
  rfl

theorem not_mem_hexText {c : UInt8} (hcolon : c ≠ colon) (hc : digitVal 16 c = none) (gs : List Nat) :
    c ∉ hexText gs := by
  refine not_mem_intercalate hcolon fun s hs => ?_
  obtain ⟨g, -, rfl⟩ := List.mem_map.mp hs
  exact not_mem_natText (by decide) (by decide) hc

theorem parseIP_of_colon {s : Bytes} (hpercent : percent ∉ s)
    (hfind : s.find? (fun c => c = dot ∨ c = colon) = some colon) : parseIP s = parseIPv6 s := by
  rw [parseIP, if_neg hpercent, hfind]
  rfl

theorem parseIP_groups (ip : IP) : parseIP (hexText ip.groups) = some ip := by
  have hlength := ip.length_groups
  have hfind : (hexText ip.groups).find? (fun c => c = dot ∨ c = colon) = some colon := by
    match ip.groups, hlength with
    | g :: g' :: gs, _ =>
        rw [hexText_cons g (List.cons_ne_nil g' gs)]
        exact find?_separator (by decide) (by decide) g (Or.inr rfl) _
  have hcut : cut (hexText ip.groups) = none := by
    have h := cut_hexText ip.groups none
    rwa [Option.elim_none, List.append_nil, Option.map_none] at h
  rw [parseIP_of_colon (not_mem_hexText (by decide) (by decide) _) hfind, parseIPv6, hcut]
  dsimp only
  rw [fieldsOf_hexText, parseGroups_text true ip.group_lt, Option.bind_some]
  exact (dif_pos hlength).trans (congrArg some (IP.ofGroups_groups ip rfl hlength))

theorem parseIP_shortened (ip : IP) {zeros : Nat × Nat} (hzeros : AreZeros ip.groups zeros) (hsome : zeros.2 ≠ 0) :
    parseIP (hexText (ip.groups.take zeros.1) ++ colon :: colon :: hexText (ip.groups.drop (zeros.1 + zeros.2))) =
      some ip := by
  have hsum : (ip.groups.take zeros.1).length + zeros.2 + (ip.groups.drop (zeros.1 + zeros.2)).length = 8 := by
    have h := congrArg List.length hzeros
    rwa [List.length_append, List.length_append, List.length_replicate, ip.length_groups] at h
  have hfind : (hexText (ip.groups.take zeros.1) ++
      colon :: colon :: hexText (ip.groups.drop (zeros.1 + zeros.2))).find? (fun c => c = dot ∨ c = colon) =
        some colon := by
    cases ip.groups.take zeros.1 with
    | nil => rfl
    | cons g gs =>
        by_cases hgs : gs = []
        · rw [hgs, show hexText [g] = natText 16 g by simp [hexText]]
          exact find?_separator (by decide) (by decide) g (Or.inr rfl) _
        · rw [hexText_cons g hgs, List.append_assoc]
          exact find?_separator (by decide) (by decide) g (Or.inr rfl) _
  have hpercent : percent ∉ hexText (ip.groups.take zeros.1) ++
      colon :: colon :: hexText (ip.groups.drop (zeros.1 + zeros.2)) := by
    have hcolon : percent ≠ colon := by decide
    simp [not_mem_hexText hcolon (by decide), hcolon]
  rw [parseIP_of_colon hpercent hfind, parseIPv6]
  have hcut := cut_hexText (ip.groups.take zeros.1) (some (hexText (ip.groups.drop (zeros.1 + zeros.2))))
  rw [Option.elim_some, Option.map_some] at hcut
  rw [hcut]
  dsimp only
  rw [fieldsOf_hexText, fieldsOf_hexText, parseGroups_text false fun g hg => ip.group_lt g (List.mem_of_mem_take hg),
    parseGroups_text true fun g hg => ip.group_lt g (List.mem_of_mem_drop hg), Option.bind_some, Option.bind_some,
    if_pos (by omega), Option.bind_some, show 8 - _ = zeros.2 by omega]
  refine (dif_pos ?_).trans (congrArg some (IP.ofGroups_groups ip hzeros ?_))
  · rw [hzeros]
    exact ip.length_groups
  · rw [hzeros]
    exact ip.length_groups

/-- What is printed is parsed back. -/
theorem parseIP_string (ip : IP) : parseIP ip.string = some ip := by
  unfold IP.string
  split
  · next fields h =>
      have hbytes := IP.bytes_of_to4 h
      have hlength : fields.length = 4 := by
        have h16 := ip.length_bytes
        rw [hbytes, List.length_append, show v4InV6.length = 12 from rfl] at h16
        omega
      rw [parseIP_v4 hlength]
      obtain ⟨bytes, _⟩ := ip
      exact congrArg some (by simp [← hbytes])
  · dsimp only
    split
    · exact parseIP_groups ip
    · next hsome => exact parseIP_shortened ip (longestZeros_areZeros _) hsome

theorem IP.string_injective : Function.Injective IP.string := fun a b h =>
  Option.some.inj ((parseIP_string a).symm.trans ((congrArg parseIP h).trans (parseIP_string b)))

end roundTrip

section hostPort

def openBracket : UInt8 := '['.toUInt8

def closeBracket : UInt8 := ']'.toUInt8

/-- The text before the last colon and after it. -/
def cutLastColon (s : Bytes) : Option (Bytes × Bytes) :=
  match s.reverse.dropWhile (· ≠ colon) with
  | [] => none
  | _ :: front => some (front.reverse, (s.reverse.takeWhile (· ≠ colon)).reverse)

/-- No bracket is allowed but the two around a host. -/
def noBracket (host port : Bytes) : Option (Bytes × Bytes) :=
  if openBracket ∈ host ++ port ∨ closeBracket ∈ host ++ port then none else some (host, port)

/-- `SplitHostPort`: a host may have colons if it is in brackets. -/
def splitHostPort (s : Bytes) : Option (Bytes × Bytes) :=
  (cutLastColon s).bind fun sides =>
    if sides.1.head? = some openBracket then
      if sides.1.tail.getLast? = some closeBracket then noBracket sides.1.tail.dropLast sides.2 else none
    else if colon ∈ sides.1 then none
    else noBracket sides.1 sides.2

/-- The text of an address is digits, dots and colons. -/
theorem not_mem_string {c : UInt8} (hdot : c ≠ dot) (hcolon : c ≠ colon) (hhex : digitVal 16 c = none)
    (hdecimal : digitVal 10 c = none) (ip : IP) : c ∉ ip.string := by
  unfold IP.string
  split
  · refine not_mem_intercalate hdot fun s hs => ?_
    obtain ⟨b, -, rfl⟩ := List.mem_map.mp hs
    exact not_mem_natText (by decide) (by decide) hdecimal
  · dsimp only
    split
    · exact not_mem_hexText hcolon hhex _
    · simp [not_mem_hexText hcolon hhex, hcolon]

end hostPort

end NetIP
