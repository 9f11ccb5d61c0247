import Mathlib.Data.List.TakeWhile
import ThesadaApp.DotSegments

/-!
Where a sign-in leads to: the check of the return path, the Location that `http.Redirect` writes for it and the origin
that a browser takes from that. The check looks at the first two bytes, but `path.Clean` moves another segment there.
-/

namespace ThesadaApp.ReturnTo

open DotSegments

section check

/-- `stringContainsCTLByte` -/
def isControl (b : UInt8) : Bool := b < 32 || b = 127

def isHex (b : UInt8) : Bool := 48 ≤ b && b ≤ 57 || 65 ≤ b && b ≤ 70 || 97 ≤ b && b ≤ 102

/-- Each `%` has two digits after it. -/
def validEscapes : List UInt8 → Bool
  | [] => true
  | b :: bs => (b ≠ 37 || match bs with
      | c :: d :: _ => isHex c && isHex d
      | _ => false) && validEscapes bs

/-- `url.Parse` takes a reference that begins with one slash: no control byte before the fragment, and the path and the
fragment unescape. -/
def parses (path : List UInt8) : Bool :=
  let u := path.takeWhile (· ≠ 35)
  let frag := (path.dropWhile (· ≠ 35)).drop 1
  !u.any isControl && validEscapes (u.takeWhile (· ≠ 63)) && validEscapes frag

def isSafeReturnTo (path : List UInt8) : Bool :=
  match path with
  | 47 :: rest => rest.head? ≠ some 47 && rest.head? ≠ some 92 && parses path
  | _ => false

/-- What `Start` stores of `rt`. -/
def startReturnTo (path : List UInt8) : List UInt8 := if isSafeReturnTo path then path else [47]

def safeReturn (path fallback : List UInt8) : List UInt8 := if isSafeReturnTo path then path else fallback

end check

section redirect

/-- A path element, to `path.Clean`. -/
def kind (segment : List UInt8) : Kind :=
  if segment = [] ∨ segment = [46] then .skip else if segment = [46, 46] then .up else .name

/-- `path.Clean` of a slash and what comes after it, without the slash. -/
def cleanRest (rest : List UInt8) : List UInt8 := [47].intercalate (clean kind (rest.splitOn 47))

/-- The part before the query: it is cleaned, and a slash at its end is kept. -/
def redirectPath (rest : List UInt8) : List UInt8 :=
  let cleaned := 47 :: cleanRest rest
  if (47 :: rest).getLast? = some 47 ∧ cleaned.getLast? ≠ some 47 then cleaned ++ [47] else cleaned

/-- The url that `http.Redirect` makes of one that begins with a slash and names no host. -/
def redirectUrl (path : List UInt8) : List UInt8 :=
  let url := path.takeWhile (· ≠ 63)
  redirectPath (url.drop 1) ++ path.dropWhile (· ≠ 63)

def hexDigit (n : Nat) : UInt8 := UInt8.ofNat (if n < 10 then 48 + n else 87 + n)

/-- A byte of the header: `hexEscapeNonASCII`, and line breaks are written as spaces. -/
def wireByte (b : UInt8) : List UInt8 :=
  if 128 ≤ b then [37, hexDigit (b.toNat / 16), hexDigit (b.toNat % 16)] else if b = 10 ∨ b = 13 then [32] else [b]

def location (path : List UInt8) : List UInt8 := (redirectUrl path).flatMap wireByte

end redirect

section browser

/-- A browser at the app's origin. Hosts and ports are read by `authority`, `none` where that is a failure, and
references that do not begin with a slash by `other`. -/
structure Browser (Origin : Type*) where
  own : Origin
  authority : List UInt8 → Option Origin
  other : List UInt8 → Option Origin

variable {Origin : Type*}

/-- Slash and backslash are the same. -/
def isSlash (b : UInt8) : Bool := b = 47 || b = 92

def isBlank (b : UInt8) : Bool := b ≤ 32

def isTabOrNewline (b : UInt8) : Bool := b = 9 || b = 10 || b = 13

/-- What is read of a reference: not the blanks at its ends, nor tabs and line breaks. -/
def readBytes (ref : List UInt8) : List UInt8 :=
  (((ref.dropWhile isBlank).reverse.dropWhile isBlank).reverse).filter fun b => !isTabOrNewline b

/-- The authority that stands behind the slashes. -/
def authorityText (bs : List UInt8) : List UInt8 :=
  (bs.dropWhile isSlash).takeWhile fun b => !isSlash b && b ≠ 63 && b ≠ 35

/-- The origin of a reference, resolved against the app's. -/
def Browser.resolve (b : Browser Origin) (ref : List UInt8) : Option Origin :=
  match readBytes ref with
  | [] => some b.own
  | c :: rest =>
      if isSlash c then if rest.head?.any isSlash then b.authority (authorityText rest) else some b.own
      else b.other (c :: rest)

/-- The browser goes to no other origin. -/
def Browser.StaysOn (b : Browser Origin) (ref : List UInt8) : Prop := ∀ o, b.resolve ref = some o → o = b.own

end browser

section condition

/-- The path of a return path, less its first slash, as segments. -/
def segmentsOf (path : List UInt8) : List (List UInt8) := ((path.takeWhile (· ≠ 63)).drop 1).splitOn 47

/-- A slash ends the path. -/
def slashEnd (path : List UInt8) : Bool := (path.takeWhile (· ≠ 63)).getLast? = some 47

/-- The first of the segments, tabs aside, does not begin with a backslash and is not empty with more after it. -/
def Harmless (slashEnd : Bool) : List (List UInt8) → Prop
  | [] => True
  | s :: more =>
      (s.filter (· ≠ 9)).head? ≠ some 92 ∧ (s.filter (· ≠ 9) = [] → more = [] ∧ slashEnd = false)

instance (slashEnd : Bool) : ∀ segments, Decidable (Harmless slashEnd segments)
  | [] => inferInstanceAs (Decidable True)
  | s :: more => inferInstanceAs (Decidable
      ((s.filter (· ≠ 9)).head? ≠ some 92 ∧ (s.filter (· ≠ 9) = [] → more = [] ∧ slashEnd = false)))

/-- The segments that survive put no second slash of any kind behind the first. -/
def FirstHarmless (path : List UInt8) : Prop := Harmless (slashEnd path) (survivors kind (segmentsOf path))

instance (path : List UInt8) : Decidable (FirstHarmless path) := inferInstanceAs (Decidable (Harmless _ _))

/-- What stands behind the first slash once the segments that do not survive are gone. -/
def remainder (path : List UInt8) : List UInt8 :=
  let segments := survivors kind (segmentsOf path)
  [47].intercalate segments ++ (if slashEnd path ∧ segments ≠ [] then [47] else []) ++ path.dropWhile (· ≠ 63)

/-- The host that the remainder names, if it begins with a slash of some kind. -/
def hostText (path : List UInt8) : List UInt8 :=
  authorityText (readBytes (47 :: (remainder path).flatMap wireByte)).tail

end condition

section location

variable {path rest w : List UInt8} {b c : UInt8} {segments : List (List UInt8)}

theorem intercalate_cons (s : List UInt8) (more : List (List UInt8)) (hne : more ≠ []) :
    [47].intercalate (s :: more) = s ++ 47 :: [47].intercalate more := by
  obtain ⟨s', more, rfl⟩ := List.exists_cons_of_ne_nil hne
  simp [List.intercalate]

theorem slash_notMem_segment {s : List UInt8} (h : s ∈ rest.splitOn 47) : 47 ∉ s := by
  rw [List.splitOn] at h
  induction rest generalizing s with
  | nil =>
      obtain rfl := List.mem_singleton.mp h
      exact List.not_mem_nil
  | cons b rest ih =>
      rw [List.splitOnP_cons_eq_if_modifyHead] at h
      split_ifs at h with hb
      · rcases List.mem_cons.mp h with rfl | hmem
        · exact List.not_mem_nil
        · exact ih hmem
      · cases hsplit : rest.splitOnP (· == 47) with
        | nil => exact absurd hsplit (List.splitOnP_ne_nil _ _)
        | cons t more =>
            rw [hsplit] at h ih
            rcases List.mem_cons.mp h with rfl | hmem
            · rw [List.mem_cons, not_or]
              exact ⟨fun heq => hb (by rw [← heq]; rfl), ih List.mem_cons_self⟩
            · exact ih (List.mem_cons_of_mem _ hmem)

theorem survivors_spec {s : List UInt8} (h : s ∈ survivors kind (segmentsOf path)) : s ≠ [] ∧ 47 ∉ s := by
  obtain ⟨hmem, hname⟩ := mem_of_mem_survivors h
  refine ⟨?_, slash_notMem_segment hmem⟩
  rintro rfl
  exact absurd hname (by decide)

/-- Segments that have a last byte end in it. -/
theorem getLast?_intercalate (hne : segments ≠ []) (hsegments : ∀ s ∈ segments, s ≠ [] ∧ 47 ∉ s) :
    ([47].intercalate segments).getLast? ≠ some 47 ∧ [47].intercalate segments ≠ [] := by
  induction segments with
  | nil => exact absurd rfl hne
  | cons s more ih =>
      obtain ⟨hs, hslash⟩ := hsegments s List.mem_cons_self
      by_cases hmore : more = []
      · subst hmore
        have hsingle : [47].intercalate [s] = s := by simp [List.intercalate]
        rw [hsingle]
        exact ⟨fun hlast => hslash (List.mem_of_getLast? hlast), hs⟩
      · obtain ⟨hlast, hnil⟩ := ih hmore fun t ht => hsegments t (List.mem_cons_of_mem _ ht)
        obtain ⟨b, bs, hbs⟩ := List.exists_cons_of_ne_nil hnil
        rw [intercalate_cons s more hmore]
        rw [hbs] at hlast ⊢
        refine ⟨?_, by simp⟩
        rwa [List.getLast?_append_of_ne_nil _ (List.cons_ne_nil _ _), List.getLast?_cons_cons]

/-- The url after its first slash is what survives. -/
theorem redirectUrl_eq (h : isSafeReturnTo path = true) : redirectUrl path = 47 :: remainder path := by
  obtain ⟨rest, rfl⟩ : ∃ rest, path = 47 :: rest := by
    unfold isSafeReturnTo at h
    split at h
    · exact ⟨_, rfl⟩
    · cases h
  have htake : (47 :: rest).takeWhile (· ≠ (63 : UInt8)) = 47 :: rest.takeWhile (· ≠ (63 : UInt8)) :=
    List.takeWhile_cons_of_pos (by decide)
  have hclean : cleanRest (rest.takeWhile (· ≠ (63 : UInt8))) = [47].intercalate
    (survivors kind (segmentsOf (47 :: rest))) := by
    rw [cleanRest, clean_eq_survivors, segmentsOf, htake]
    rfl
  have hlast : (47 :: cleanRest (rest.takeWhile (· ≠ (63 : UInt8)))).getLast? = some 47 ↔
      survivors kind (segmentsOf (47 :: rest)) = [] := by
    rw [hclean]
    constructor
    · intro heq
      by_contra hne
      obtain ⟨hend, hnil⟩ := getLast?_intercalate hne fun s hs => survivors_spec hs
      obtain ⟨b, bs, hbs⟩ := List.exists_cons_of_ne_nil hnil
      rw [hbs] at hend heq
      rw [List.getLast?_cons_cons] at heq
      exact hend heq
    · intro hnil
      rw [hnil]
      rfl
  have hcond : ((47 :: rest.takeWhile (· ≠ (63 : UInt8))).getLast? = some 47 ∧
      (47 :: cleanRest (rest.takeWhile (· ≠ (63 : UInt8)))).getLast? ≠ some 47) ↔
      (slashEnd (47 :: rest) = true ∧ survivors kind (segmentsOf (47 :: rest)) ≠ []) := by
    rw [Ne, hlast, slashEnd, htake, decide_eq_true_eq]
  rw [redirectUrl, htake, List.drop_succ_cons, List.drop_zero, redirectPath, remainder]
  simp only [hcond]
  rw [hclean]
  split_ifs
  · simp
  · simp

end location

section read

variable {path w : List UInt8} {b c : UInt8}

/-- A reference that begins with a slash is read without the blanks at its end, tabs and line breaks. -/
theorem readBytes_slash (w : List UInt8) : ∃ t suf, readBytes (47 :: w) = 47 :: t.filter (fun b => !isTabOrNewline b) ∧
    w = t ++ suf ∧ ∀ b ∈ suf, isBlank b = true := by
  have hsplit : w = (w.reverse.dropWhile isBlank).reverse ++ (w.reverse.takeWhile isBlank).reverse := by
    rw [← List.reverse_append, List.takeWhile_append_dropWhile, List.reverse_reverse]
  have hkeep : ∀ l : List UInt8, (l ++ [47]).dropWhile isBlank = l.dropWhile isBlank ++ [47] := by
    intro l
    rw [List.dropWhile_append]
    split_ifs with hempty
    · rw [List.isEmpty_iff.mp hempty]
      rfl
    · rfl
  refine ⟨_, _, ?_, hsplit, fun b hb => List.mem_takeWhile_imp (List.mem_reverse.mp hb)⟩
  rw [readBytes, List.dropWhile_cons_of_neg (by decide), List.reverse_cons, hkeep, List.reverse_append,
    List.reverse_singleton,
    List.singleton_append, List.filter_cons_of_pos (by decide)]

theorem isBlank_slash (hc : isSlash c = true) : isBlank c = false := by
  simp only [isSlash, Bool.or_eq_true, decide_eq_true_eq] at hc
  rcases hc with rfl | rfl <;> decide

/-- The blanks at the end are not what is read first. -/
theorem head_readBytes (w : List UInt8) : (readBytes (47 :: w)).tail.head?.any isSlash =
    (w.filter fun b => !isTabOrNewline b).head?.any isSlash := by
  obtain ⟨t, suf, hread, rfl, hsuf⟩ := readBytes_slash w
  rw [hread, List.tail_cons, List.filter_append]
  cases hfilter : t.filter fun b => !isTabOrNewline b with
  | cons => rfl
  | nil =>
      rw [List.nil_append]
      cases hrest : suf.filter fun b => !isTabOrNewline b with
      | nil => rfl
      | cons d ds =>
          have hmem : d ∈ suf.filter fun b => !isTabOrNewline b := by
            rw [hrest]
            exact List.mem_cons_self
          have hblank := hsuf d (List.mem_of_mem_filter hmem)
          cases hslash : isSlash d with
          | false => simp [hslash]
          | true =>
              rw [isBlank_slash hslash] at hblank
              cases hblank

theorem filter_wireByte (b : UInt8) :
    (wireByte b).filter (fun b => !isTabOrNewline b) = if b = 9 then [] else wireByte b := by
  have hall : ∀ n : Fin 256, (wireByte (UInt8.ofNat n.val)).filter (fun b => !isTabOrNewline b) =
      if UInt8.ofNat n.val = 9 then [] else wireByte (UInt8.ofNat n.val) := by decide +kernel
  have h := hall ⟨b.toNat, b.toNat_lt⟩
  rwa [UInt8.ofNat_toNat] at h

theorem filter_wire (w : List UInt8) : (w.flatMap wireByte).filter (fun b => !isTabOrNewline b) =
    (w.filter (· ≠ 9)).flatMap wireByte := by
  induction w with
  | nil => rfl
  | cons b w ih =>
      rw [List.flatMap_cons, List.filter_append, filter_wireByte, ih]
      by_cases hb : b = 9
      · rw [if_pos hb, List.filter_cons_of_neg (by simp [hb]), List.nil_append]
      · rw [if_neg hb, List.filter_cons_of_pos (by simp [hb]), List.flatMap_cons]

theorem head_wireByte (b : UInt8) : ∃ c cs, wireByte b = c :: cs ∧ isSlash c = isSlash b := by
  have hall : ∀ n : Fin 256, (wireByte (UInt8.ofNat n.val)).head?.map isSlash = some (isSlash (UInt8.ofNat n.val)) := by
    decide +kernel
  have h := hall ⟨b.toNat, b.toNat_lt⟩
  rw [UInt8.ofNat_toNat] at h
  obtain ⟨c, hhead, hslash⟩ := Option.map_eq_some_iff.mp h
  obtain ⟨cs, hcs⟩ := List.head?_eq_some_iff.mp hhead
  exact ⟨c, cs, hcs, hslash⟩

theorem head_wire (w : List UInt8) : (w.flatMap wireByte).head?.any isSlash = w.head?.any isSlash := by
  cases w with
  | nil => rfl
  | cons b w =>
      obtain ⟨c, cs, hwire, hslash⟩ := head_wireByte b
      rw [List.flatMap_cons, hwire]
      exact hslash

/-- The query is not what names a host. -/
theorem head_query (path : List UInt8) : ((path.dropWhile (· ≠ 63)).filter (· ≠ 9)).head?.any isSlash = false := by
  cases hquery : path.dropWhile (· ≠ (63 : UInt8)) with
  | nil => rfl
  | cons b query =>
      have hb := List.head?_dropWhile_not (· ≠ (63 : UInt8)) path
      rw [hquery] at hb
      have hvalue : b = 63 := by simpa using hb
      rw [hvalue, List.filter_cons_of_pos (by decide)]
      rfl

theorem head_segments {segments : List (List UInt8)} {trailing : Bool} {query : List UInt8}
    (hspec : ∀ s ∈ segments, 47 ∉ s) (hquery : (query.filter (· ≠ 9)).head?.any isSlash = false) :
    (([47].intercalate segments ++ (if trailing = true ∧ segments ≠ [] then [47] else []) ++ query).filter
      (· ≠ 9)).head?.any isSlash = true ↔ ¬ Harmless trailing segments := by
  have hslash : ∀ l : List UInt8, ((47 :: l).filter (· ≠ 9)).head?.any isSlash = true := by
    intro l
    rw [List.filter_cons_of_pos (by decide)]
    rfl
  cases segments with
  | nil =>
      have hempty : [47].intercalate ([] : List (List UInt8)) = [] := rfl
      rw [hempty, if_neg (fun h => h.2 rfl), List.append_nil, List.nil_append, hquery]
      exact iff_of_false Bool.false_ne_true (fun h => h trivial)
  | cons s more =>
      have hs := hspec s List.mem_cons_self
      have htext : ∃ l,
          [47].intercalate (s :: more) ++ (if trailing = true ∧ s :: more ≠ [] then [47] else []) ++ query =
          s ++ l ∧ ((l.filter (· ≠ 9)).head?.any isSlash = true ↔ ¬ (more = [] ∧ trailing = false)) := by
        by_cases hmore : more = []
        · subst hmore
          have hsingle : [47].intercalate [s] = s := by simp [List.intercalate]
          rw [hsingle]
          cases trailing with
          | true => exact ⟨47 :: query, by simp, iff_of_true (hslash _) (by simp)⟩
          | false => exact ⟨query, by simp, iff_of_false (by rw [hquery]; exact Bool.false_ne_true)
            (fun h => h ⟨rfl, rfl⟩)⟩
        · rw [intercalate_cons s more hmore, List.append_assoc, List.append_assoc, List.cons_append]
          exact ⟨_, rfl, iff_of_true (hslash _) (fun h => hmore h.1)⟩
      obtain ⟨l, htext, hl⟩ := htext
      rw [htext, List.filter_append, Harmless]
      cases hfilter : s.filter (· ≠ 9) with
      | nil => simpa using hl
      | cons c cs =>
          have hc : c ≠ 47 := by
            rintro rfl
            have hmem : 47 ∈ s.filter (· ≠ 9) := by
              rw [hfilter]
              exact List.mem_cons_self
            exact hs (List.mem_of_mem_filter hmem)
          simp [isSlash, hc]

/-- What is left names a host exactly if the first segment of it does harm. -/
theorem head_remainder (path : List UInt8) :
    ((remainder path).filter (· ≠ 9)).head?.any isSlash = true ↔ ¬ FirstHarmless path :=
  head_segments (fun _ hs => (survivors_spec hs).2) (head_query path)

end read

section stays

variable {Origin : Type*} {b : Browser Origin} {path fallback : List UInt8}

theorem location_eq (h : isSafeReturnTo path = true) : location path = 47 :: (remainder path).flatMap wireByte := by
  rw [location, redirectUrl_eq h, List.flatMap_cons]
  rfl

theorem resolve_location (h : isSafeReturnTo path = true) :
    FirstHarmless path ∧ b.resolve (location path) = some b.own ∨
    ¬ FirstHarmless path ∧ b.resolve (location path) = b.authority (hostText path) := by
  have hhead := head_readBytes ((remainder path).flatMap wireByte)
  rw [filter_wire, head_wire] at hhead
  obtain ⟨t, -, hread, -⟩ := readBytes_slash ((remainder path).flatMap wireByte)
  have hresolve : b.resolve (location path) = if (t.filter fun b => !isTabOrNewline b).head?.any isSlash = true then
      b.authority (hostText path) else some b.own := by
    rw [location_eq h, Browser.resolve, hostText, hread]
    rfl
  rw [hread, List.tail_cons] at hhead
  rw [hresolve, hhead]
  by_cases hharmless : FirstHarmless path
  · rw [if_neg (fun htrue => (head_remainder path).mp htrue hharmless)]
    exact .inl ⟨hharmless, rfl⟩
  · rw [if_pos ((head_remainder path).mpr hharmless)]
    exact .inr ⟨hharmless, rfl⟩

theorem returned_path (h : isSafeReturnTo path = true) : safeReturn (startReturnTo path) fallback = path := by
  rw [startReturnTo, if_pos h, safeReturn, if_pos h]

/-- After a sign-in the browser stays, unless what is left of the return path names another host. -/
theorem staysOn_iff (h : isSafeReturnTo path = true) : b.StaysOn (location (safeReturn (startReturnTo path) fallback)) ↔
    FirstHarmless path ∨ ∀ o, b.authority (hostText path) = some o → o = b.own := by
  rw [returned_path h, Browser.StaysOn]
  rcases resolve_location (b := b) h with ⟨hharmless, hresolve⟩ | ⟨hharmful, hresolve⟩
  · rw [hresolve]
    exact iff_of_true (fun o ho => (Option.some.inj ho).symm) (.inl hharmless)
  · rw [hresolve]
    exact ⟨.inr, fun hcond => hcond.resolve_left hharmful⟩

end stays

section evil

/-- A browser whose hosts are their text. -/
def textBrowser : Browser (List UInt8) where
  own := [97, 112, 112]
  authority text := if text = [] then none else some text
  other text := some text

/-- `/devices` -/
def devicesPath : List UInt8 := [47, 100, 101, 118, 105, 99, 101, 115]

/-- `/./\evil.com` -/
def evilPath : List UInt8 := [47, 46, 47, 92, 101, 118, 105, 108, 46, 99, 111, 109]

theorem staysOn_devices : textBrowser.StaysOn (location (safeReturn (startReturnTo devicesPath) [47])) :=
  (staysOn_iff (by decide +kernel)).mpr (.inl (by decide +kernel))

/-- The dot segment is accepted, and behind it there is a host. -/
theorem not_staysOn_evil : isSafeReturnTo evilPath = true ∧
    ¬ textBrowser.StaysOn (location (safeReturn (startReturnTo evilPath) devicesPath)) := by
  refine ⟨by decide +kernel, fun hstays => ?_⟩
  have hevil : textBrowser.resolve (location (safeReturn (startReturnTo evilPath) devicesPath)) =
      some [101, 118, 105, 108, 46, 99, 111, 109] := by decide +kernel
  exact absurd (hstays _ hevil) (by decide +kernel)

end evil

end ThesadaApp.ReturnTo
