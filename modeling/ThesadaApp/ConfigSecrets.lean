import Mathlib.Data.List.DropRight
import ThesadaApp.JsonPath
import ThesadaApp.JsonWrite
import ThesadaApp.SecretStore

/-!
`blankConfigSecrets`: the secrets of a config.json emptied before it is stored. Strings directly under a key that looks
sensitive are found wherever they are; a number, a boolean and an element of an array are not.
-/

namespace ThesadaApp.ConfigSecrets

open Json Secrets

/-- `unicode.IsSpace`. -/
def isSpace (c : Char) : Bool :=
  (9 ≤ c.toNat && c.toNat ≤ 13) || (0x2000 ≤ c.toNat && c.toNat ≤ 0x200A) ||
    [0x20, 0x85, 0xA0, 0x1680, 0x2028, 0x2029, 0x202F, 0x205F, 0x3000].contains c.toNat

/-- `strings.TrimSpace`. -/
def trimSpace (cs : List Char) : List Char := (cs.dropWhile isSpace).rdropWhile isSpace

/-- strings.Split(dotted, ".") -/
def split (dotted : String) : List String := (dotted.toList.splitOn '.').map String.ofList

/-- The letter that a character stands for when case is folded: two letters of the pattern have a third form. -/
def foldCase (c : Char) : Char := if c.toNat = 0x212A then 'k' else if c.toNat = 0x17F then 's' else c.toLower

def sensitiveSuffixes : List String := ["password", "secret", "token", "key", "passphrase", "credential"]

/-- `sensitiveConfigKeyRE.MatchString`. -/
def sensitiveConfigKey (k : String) : Bool :=
  sensitiveSuffixes.any fun suffix => suffix.toList.isSuffixOf (k.toList.map foldCase)

/-- The value after `blankPath`, and whether it blanked anything. -/
def blankPath : List String → Json → Json × Bool
  | [], m => (m, false)
  | [key], m =>
      match m.get key with
      | some (.string s) => if s = "" then (m, false) else (m.set key (.string ""), true)
      | _ => (m, false)
  | key :: seg :: segs, m =>
      match m.get key with
      | some child =>
          if child.isObject then (m.set key (blankPath (seg :: segs) child).1, (blankPath (seg :: segs) child).2)
          else (m, false)
      | none => (m, false)

/-- A member of a map: a string is blanked by its key, and everything else as it is blanked inside. -/
def blankMember (k : String) (v : Json) (inside : Json × Bool) : Json × Bool :=
  match v with
  | .string s => if s ≠ "" ∧ sensitiveConfigKey k then (.string "", true) else (.string s, false)
  | _ => inside

def blankSensitiveLeaves : Json → Json × Bool
  | .field k v rest =>
      let value := blankMember k v (blankSensitiveLeaves v)
      let others := blankSensitiveLeaves rest
      (.field k value.1 others.1, value.2 || others.2)
  | .cons head tail =>
      let item := blankSensitiveLeaves head
      let items := blankSensitiveLeaves tail
      (.cons item.1 items.1, item.2 || items.2)
  | j => (j, false)

/-- One blanking after another. -/
def andThen (r : Json × Bool) (blank : Json → Json × Bool) : Json × Bool := ((blank r.1).1, r.2 || (blank r.1).2)

/-- The allowlist first, then the backstop. -/
def blankObject (m : Json) : Json × Bool :=
  andThen (scalarSecretFields.foldl (fun r dotted => andThen r (blankPath (split dotted))) (m, false))
    blankSensitiveLeaves

/-- `json.Unmarshal` into a map. -/
def unmarshalMap (F : FloatFormat) (text : List Char) : Option Json := (unmarshal F text).filter Json.isMap

inductive BlankError where
  | parse
  deriving DecidableEq

def blankConfigSecrets (F : FloatFormat) (content : String) : Except BlankError (String × Bool) :=
  let trimmed := trimSpace content.toList
  if trimmed.head? ≠ some '{' then .ok (content, false)
  else
    match unmarshalMap F trimmed with
    | none => .error .parse
    | some m =>
        let blanked := blankObject m
        if blanked.2 then .ok (String.ofList (marshalIndent F blanked.1), true) else .ok (content, false)

/-- The place is directly under a key that looks sensitive. -/
def Direct (p : List Step) : Prop := ∃ k, p.getLast? = some (.key k) ∧ sensitiveConfigKey k = true

/-- The nearest key above the place, through the arrays in between. -/
def governing (p : List Step) : Option String :=
  (p.filterMap fun
    | .key k => some k
    | .index _ => none).getLast?

/-- The place is under a key that looks sensitive, or on the allowlist. -/
def Secret (p : List Step) : Prop :=
  (∃ k, governing p = some k ∧ sensitiveConfigKey k = true) ∨ ∃ f ∈ scalarSecretFields, p = (split f).map .key

/-- A scalar that is not empty. -/
def filled : Json → Bool
  | .string s => s ≠ ""
  | .number _ | .bool _ => true
  | _ => false

/-- No secret is left. -/
def Clean (m : Json) : Prop := ∀ p v, m.lookup p = some v → Secret p → filled v = false

/-- All keys and array lengths are as before, and every leaf that is no secret. -/
structure Preserved (m m' : Json) : Prop where
  shape : ∀ p, (m'.lookup p).map Json.shape = (m.lookup p).map Json.shape
  leaf : ∀ p v, ¬ Secret p → v.isLeaf = true → m.lookup p = some v → m'.lookup p = some v

/-- What the blanking of a content is to be, whose text names the object `m`, with every number as it is written. -/
def Blanked (F : FloatFormat) (content : String) (m : Json) : Prop :=
  ∃ out changed t', blankConfigSecrets F content = .ok (out, changed) ∧
    formOf (trimSpace out.toList) = some t' ∧ Clean t'.value ∧ Preserved m t'.value ∧ (Clean m → out = content) ∧
    blankConfigSecrets F out = .ok (out, false)

/-- The secrets that are there are strings directly under their keys. -/
def StringsOnly (m : Json) : Prop :=
  ∀ p v, m.lookup p = some v → Secret p → filled v = true → (∃ s, v = .string s) ∧ Direct p

/-- An object that the decoder takes, whose secrets are strings directly under their keys. If there is a secret at all,
every number is the one written for its float64. -/
structure Blankable (F : FloatFormat) (t : Form) : Prop where
  shallow : t.depth ≤ maxNestingDepth
  inRange : t.inRange F = true
  strings : StringsOnly t.value
  exact : ¬ Clean t.value → ∀ p x, t.value.lookup p = some (.number x) → F.written (F.nearest x) = x

section blanking

variable {j m : Json} {p : List Step}

theorem direct_cons (step : Step) (h : Direct p) : Direct (step :: p) := by
  obtain ⟨k, hlast, hk⟩ := h
  refine ⟨k, ?_, hk⟩
  rw [List.getLast?_cons, hlast]
  rfl

theorem direct_of_cons {step : Step} (h : Direct (step :: p)) (hp : p ≠ []) : Direct p := by
  obtain ⟨k, hlast, hk⟩ := h
  obtain ⟨last, hlast'⟩ := Option.ne_none_iff_exists'.mp fun hnone => hp (List.getLast?_eq_none_iff.mp hnone)
  rw [List.getLast?_cons, hlast'] at hlast
  exact ⟨k, hlast'.trans hlast, hk⟩

theorem direct_shift {i : Nat} (h : Direct (.index i :: p)) : Direct (.index (i + 1) :: p) := by
  refine direct_cons _ (direct_of_cons h ?_)
  rintro rfl
  obtain ⟨k, hlast, -⟩ := h
  cases hlast

/-- What one blanking of a part of a value does: it empties strings under sensitive keys, and tells whether there was
one. -/
structure Blanks (F : FloatFormat) (part : Part) (j : Json) (r : Json × Bool) : Prop where
  emptied : Emptied Direct j r.1
  same : r.2 = false → r.1 = j
  wellFormed : WellFormed F part r.1
  found : r.2 = true → ∃ p s, Direct p ∧ j.lookup p = some (.string s) ∧ s ≠ ""
  depth : r.1.depth ≤ j.depth

namespace Blanks

variable {F : FloatFormat} {part : Part} {r r' : Json × Bool}

theorem none (h : WellFormed F part j) : Blanks F part j (j, false) :=
  ⟨.refl _ j, fun _ => rfl, h, nofun, Nat.le_refl _⟩

theorem comp {blank : Json → Json × Bool} (h : Blanks F part j r) (h' : Blanks F part r.1 (blank r.1)) :
    Blanks F part j (andThen r blank) := by
  refine ⟨h.emptied.trans h'.emptied, fun hflag => ?_, h'.wellFormed, fun hflag => ?_, h'.depth.trans h.depth⟩
  · obtain ⟨hr, hr'⟩ := Bool.or_eq_false_iff.mp hflag
    exact (h'.same hr').trans (h.same hr)
  · rcases Bool.or_eq_true_iff.mp hflag with hr | hr'
    · exact h.found hr
    · obtain ⟨p, s, hp, hs, hne⟩ := h'.found hr'
      obtain ⟨v, hv, -, rfl | ⟨-, -, hempty⟩⟩ := h.emptied.leaf_inv hs rfl
      · exact ⟨p, s, hp, hv, hne⟩
      · cases hempty
        exact absurd rfl hne

/-- The value of a member is blanked as a value, or emptied. -/
theorem field {k : String} {v rest : Json} (hfield : WellFormed F part (.field k v rest))
    (hv : Blanks F .value v r ∨ sensitiveConfigKey k = true ∧ (∃ s, v = .string s ∧ s ≠ "") ∧ r = (.string "", true))
    (hrest : Blanks F .members rest r') : Blanks F part (.field k v rest) (.field k r.1 r'.1, r.2 || r'.2) := by
  obtain ⟨hpart, hlt, hvalue, hmembers⟩ := hfield
  have hemptied : Emptied (fun p => Direct (.key k :: p)) v r.1 := by
    rcases hv with hv | ⟨hk, ⟨s, rfl, -⟩, rfl⟩
    · exact hv.emptied.mono fun p => direct_cons _
    · exact .string ⟨k, rfl, hk⟩ s
  have hwell : WellFormed F .value r.1 := by
    rcases hv with hv | ⟨-, -, rfl⟩
    · exact hv.wellFormed
    · exact rfl
  have hdepth : r.1.depth ≤ v.depth := by
    rcases hv with hv | ⟨-, -, rfl⟩
    · exact hv.depth
    · exact Nat.zero_le _
  have hdepth' := hrest.depth
  refine ⟨hemptied.field hrest.emptied, fun hflag => ?_, ⟨hpart, ?_, hwell, hrest.wellFormed⟩, fun hflag => ?_,
    by simp only [Json.depth]; omega⟩
  · obtain ⟨hr, hr'⟩ := Bool.or_eq_false_iff.mp hflag
    have hvr : r.1 = v := by
      rcases hv with hv | ⟨-, -, rfl⟩
      · exact hv.same hr
      · cases hr
    rw [hvr, hrest.same hr']
  · rw [keys_of_shape hrest.emptied.shape_eq]
    exact hlt
  · rcases Bool.or_eq_true_iff.mp hflag with hr | hr'
    · rcases hv with hv | ⟨hk, ⟨s, rfl, hne⟩, -⟩
      · obtain ⟨p, s, hp, hs, hne⟩ := hv.found hr
        refine ⟨.key k :: p, s, direct_cons _ hp, ?_, hne⟩
        rw [lookup, Json.get, if_pos rfl]
        exact hs
      · refine ⟨[.key k], s, ⟨k, rfl, hk⟩, ?_, hne⟩
        rw [lookup, Json.get, if_pos rfl]
        rfl
    · obtain ⟨p, s, hp, hs, hne⟩ := hrest.found hr'
      refine ⟨p, s, hp, ?_, hne⟩
      cases p with
      | nil =>
          obtain ⟨k', hlast, -⟩ := hp
          cases hlast
      | cons step p =>
          cases step with
          | index i =>
              obtain ⟨x, hx, -⟩ := Option.bind_eq_some_iff.mp hs
              rw [index_of_members hmembers] at hx
              cases hx
          | key k' =>
              rw [lookup, Json.get, if_neg]
              · exact hs
              · rintro rfl
                obtain ⟨x, hx, -⟩ := Option.bind_eq_some_iff.mp hs
                exact absurd (hlt k (mem_keys_of_get hx)) (List.lt_irrefl _)

theorem cons {head tail : Json} (hcons : WellFormed F part (.cons head tail)) (hhead : Blanks F .value head r)
    (htail : Blanks F .elements tail r') : Blanks F part (.cons head tail) (.cons r.1 r'.1, r.2 || r'.2) := by
  have hdepth := hhead.depth
  have hdepth' := htail.depth
  refine ⟨(hhead.emptied.mono fun p => direct_cons _).cons htail.emptied fun i p => direct_shift, fun hflag => ?_,
    ⟨hcons.1, hhead.wellFormed, htail.wellFormed⟩, fun hflag => ?_, by simp only [Json.depth]; omega⟩
  · obtain ⟨hr, hr'⟩ := Bool.or_eq_false_iff.mp hflag
    rw [hhead.same hr, htail.same hr']
  · rcases Bool.or_eq_true_iff.mp hflag with hr | hr'
    · obtain ⟨p, s, hp, hs, hne⟩ := hhead.found hr
      exact ⟨.index 0 :: p, s, direct_cons _ hp, hs, hne⟩
    · obtain ⟨p, s, hp, hs, hne⟩ := htail.found hr'
      rcases p with _ | ⟨k' | i, p⟩
      · obtain ⟨k', hlast, -⟩ := hp
        cases hlast
      · obtain ⟨x, hx, -⟩ := Option.bind_eq_some_iff.mp hs
        rw [get_of_elements hcons.2.2] at hx
        cases hx
      · exact ⟨.index (i + 1) :: p, s, direct_shift hp, hs, hne⟩

theorem set {k : String} {v : Json} (hj : WellFormed F part j) (hk : j.get k = some v) (hr : Blanks F .value v r) :
    Blanks F part j (j.set k r.1, r.2) := by
  refine ⟨.set hk (hr.emptied.mono fun p => direct_cons _), fun hflag => ?_, wellFormed_set hj hr.wellFormed,
    fun hflag => ?_, depth_set_le hk hr.depth⟩
  · dsimp only
    rw [hr.same hflag, set_get hk]
  · obtain ⟨p, s, hp, hs, hne⟩ := hr.found hflag
    refine ⟨.key k :: p, s, direct_cons _ hp, ?_, hne⟩
    rw [lookup, hk]
    exact hs

end Blanks

variable {F : FloatFormat} {part : Part}

theorem blankPath_spec {segs : List String} {k : String} (hlast : segs.getLast? = some k)
    (hk : sensitiveConfigKey k = true) (hm : WellFormed F part m) : Blanks F part m (blankPath segs m) := by
  induction segs generalizing part m with
  | nil => cases hlast
  | cons key segs ih =>
      cases segs with
      | nil =>
          obtain rfl := Option.some.inj hlast
          rw [blankPath]
          split
          · next s hs =>
              split_ifs with hempty
              · exact .none hm
              · refine ⟨.set hs (.string ⟨key, rfl, hk⟩ s), (fun h => by cases h), wellFormed_set hm rfl, fun _ => ?_,
                  depth_set_le hs (Nat.zero_le _)⟩
                refine ⟨[.key key], s, ⟨key, rfl, hk⟩, ?_, hempty⟩
                rw [lookup, hs]
                rfl
          · exact .none hm
      | cons seg segs =>
          rw [blankPath]
          split
          · next child hchild =>
              split_ifs
              · exact .set hm hchild (ih hlast (wellFormed_get hm hchild))
              · exact .none hm
          · exact .none hm

theorem blankSensitiveLeaves_spec (hj : WellFormed F part j) : Blanks F part j (blankSensitiveLeaves j) := by
  induction j generalizing part with
  | field k v rest ihValue ihRest =>
      refine .field hj ?_ (ihRest hj.2.2.2)
      unfold blankMember
      split
      · next s =>
          split_ifs with hblank
          · exact .inr ⟨hblank.2, ⟨s, rfl, hblank.1⟩, rfl⟩
          · exact .inl (.none hj.2.2.1)
      · exact .inl (ihValue hj.2.2.1)
  | cons head tail ihHead ihTail => exact .cons hj (ihHead hj.2.1) (ihTail hj.2.2)
  | _ => exact .none hj

/-- The last key of a path of the allowlist looks sensitive. -/
theorem split_last {dotted : String} (h : dotted ∈ scalarSecretFields) :
    ∃ k, (split dotted).getLast? = some k ∧ sensitiveConfigKey k = true := by
  have hall : ∀ f ∈ scalarSecretFields, ((split f).getLast?.any sensitiveConfigKey) = true := by decide
  exact (Option.any_eq_true _ _).mp (hall dotted h)

theorem blankObject_spec (hm : WellFormed F .value m) : Blanks F .value m (blankObject m) := by
  have hfold : ∀ (fields : List String) r, (∀ f ∈ fields, f ∈ scalarSecretFields) → Blanks F .value m r →
      Blanks F .value m (fields.foldl (fun r dotted => andThen r (blankPath (split dotted))) r) := by
    intro fields
    induction fields with
    | nil => exact fun r _ hr => hr
    | cons f fields ih =>
        intro r hfields hr
        obtain ⟨k, hlast, hk⟩ := split_last (hfields f List.mem_cons_self)
        exact ih _ (fun f hf => hfields f (List.mem_cons_of_mem _ hf)) (hr.comp (blankPath_spec hlast hk hr.wellFormed))
  have hpaths := hfold scalarSecretFields (m, false) (fun f hf => hf) (.none hm)
  exact hpaths.comp (blankSensitiveLeaves_spec hpaths.wellFormed)

theorem get_blanked {k : String} {v' : Json} (h : (blankSensitiveLeaves j).1.get k = some v') :
    (∃ v, v' = (blankSensitiveLeaves v).1 ∧ ∀ s, v ≠ .string s) ∨
      ∃ s, v' = .string s ∧ (sensitiveConfigKey k = true → s = "") := by
  induction j with
  | field key v rest _ ih =>
      rw [blankSensitiveLeaves, Json.get] at h
      split_ifs at h with hkey
      · subst hkey
        obtain rfl := Option.some.inj h
        unfold blankMember
        split
        · split_ifs with hblank
          · exact .inr ⟨"", rfl, fun _ => rfl⟩
          · refine .inr ⟨_, rfl, fun hsensitive => ?_⟩
            by_contra hne
            exact hblank ⟨hne, hsensitive⟩
        · next hstring => exact .inl ⟨v, rfl, hstring⟩
      · exact ih h
  | _ => cases h

theorem index_blanked {i : Nat} {v' : Json} (h : (blankSensitiveLeaves j).1.index i = some v') :
    ∃ v, v' = (blankSensitiveLeaves v).1 := by
  induction j generalizing i with
  | cons head tail _ ih =>
      cases i with
      | zero => exact ⟨head, (Option.some.inj h).symm⟩
      | succ i => exact ih h
  | _ => cases h

theorem isString_of_blanked {v : Json} {s : String} (h : (blankSensitiveLeaves v).1 = .string s) : v = .string s := by
  cases v with
  | field => cases h
  | cons => cases h
  | _ => exact h

/-- The backstop leaves no string directly under a sensitive key. -/
theorem blankSensitiveLeaves_clears {s : String} (hp : Direct p)
    (hs : (blankSensitiveLeaves j).1.lookup p = some (.string s)) : s = "" := by
  induction p generalizing j with
  | nil =>
      obtain ⟨k, hlast, -⟩ := hp
      cases hlast
  | cons step p ih =>
      cases step with
      | key k =>
          obtain ⟨v', hv', hs⟩ := Option.bind_eq_some_iff.mp hs
          rcases get_blanked hv' with ⟨v, rfl, hv⟩ | ⟨s', rfl, hempty⟩
          · by_cases hnil : p = []
            · subst hnil
              exact absurd (isString_of_blanked (Option.some.inj hs)) (hv s)
            · exact ih (direct_of_cons hp hnil) hs
          · cases p with
            | nil =>
                obtain ⟨k', hlast, hk'⟩ := hp
                cases hlast
                cases hs
                exact hempty hk'
            | cons step p =>
                rw [lookup_leaf rfl] at hs
                cases hs
      | index i =>
          obtain ⟨v', hv', hs⟩ := Option.bind_eq_some_iff.mp hs
          obtain ⟨v, rfl⟩ := index_blanked hv'
          by_cases hnil : p = []
          · subst hnil
            obtain ⟨k, hlast, -⟩ := hp
            cases hlast
          · exact ih (direct_of_cons hp hnil) hs

theorem blankObject_clears {s : String} (hp : Direct p) (hs : (blankObject m).1.lookup p = some (.string s)) :
    s = "" := blankSensitiveLeaves_clears hp hs

/-- Blanking again finds nothing. -/
theorem blankObject_again (hm : WellFormed F .value m) :
    blankObject (blankObject m).1 = ((blankObject m).1, false) := by
  have hspec := blankObject_spec (blankObject_spec hm).wellFormed
  have hflag : (blankObject (blankObject m).1).2 = false := by
    by_contra htrue
    obtain ⟨p, s, hp, hs, hne⟩ := hspec.found (Bool.not_eq_false _ ▸ htrue)
    exact hne (blankObject_clears hp hs)
  exact Prod.ext (hspec.same hflag) hflag

theorem secret_of_direct (h : Direct p) : Secret p := by
  obtain ⟨k, hlast, hk⟩ := h
  obtain ⟨q, rfl⟩ := List.getLast?_eq_some_iff.mp hlast
  refine .inl ⟨k, ?_, hk⟩
  rw [governing, List.filterMap_append]
  exact List.getLast?_concat

theorem blankObject_of_clean (hm : WellFormed F .value m) (hclean : Clean m) : (blankObject m).2 = false := by
  by_contra htrue
  obtain ⟨p, s, hp, hs, hne⟩ := (blankObject_spec hm).found (Bool.not_eq_false _ ▸ htrue)
  have hempty := hclean p _ hs (secret_of_direct hp)
  simp only [filled, decide_eq_false_iff_not, not_not] at hempty
  exact hne hempty

theorem isLeaf_of_filled {v : Json} (h : filled v = true) : v.isLeaf = true := by
  cases v <;> first | rfl | cases h

theorem clean_iff (hm : WellFormed F .value m) : Clean (blankObject m).1 ↔ StringsOnly m := by
  have hspec := blankObject_spec hm
  constructor
  · intro hclean p v hv hp hfilled
    rcases hspec.emptied.leaf p v hv (isLeaf_of_filled hfilled) with hsame | ⟨hdirect, hstring, -⟩
    · have hempty := hclean p v hsame hp
      rw [hfilled] at hempty
      cases hempty
    · exact ⟨hstring, hdirect⟩
  · intro hstrings p v' hv' hp
    by_contra hfilled
    rw [Bool.not_eq_false] at hfilled
    obtain ⟨v, hv, -, rfl | ⟨-, -, rfl⟩⟩ := hspec.emptied.leaf_inv hv' (isLeaf_of_filled hfilled)
    · obtain ⟨⟨s, rfl⟩, hdirect⟩ := hstrings p v' hv hp hfilled
      obtain rfl := blankObject_clears hdirect hv'
      cases hfilled
    · cases hfilled

section mapNumbers

variable {f : Rat → Rat}

theorem filled_mapNumbers {v : Json} : filled (v.mapNumbers f) = filled v := by cases v <;> rfl

theorem clean_mapNumbers : Clean (m.mapNumbers f) ↔ Clean m := by
  constructor
  · intro hclean p v hv hp
    rw [← filled_mapNumbers (f := f)]
    exact hclean p _ (by rw [lookup_mapNumbers, hv, Option.map_some]) hp
  · intro hclean p v hv hp
    rw [lookup_mapNumbers] at hv
    obtain ⟨w, hw, rfl⟩ := Option.map_eq_some_iff.mp hv
    rw [filled_mapNumbers]
    exact hclean p w hw hp

theorem string_of_mapNumbers {v : Json} {s : String} (h : v.mapNumbers f = .string s) : v = .string s := by
  cases v <;> first | exact h | cases h

theorem stringsOnly_mapNumbers : StringsOnly (m.mapNumbers f) ↔ StringsOnly m := by
  constructor
  · intro hstrings p v hv hp hfilled
    obtain ⟨⟨s, hs⟩, hdirect⟩ := hstrings p (v.mapNumbers f) (by rw [lookup_mapNumbers, hv, Option.map_some]) hp
      (filled_mapNumbers.trans hfilled)
    exact ⟨⟨s, string_of_mapNumbers hs⟩, hdirect⟩
  · intro hstrings p v hv hp hfilled
    rw [lookup_mapNumbers] at hv
    obtain ⟨w, hw, rfl⟩ := Option.map_eq_some_iff.mp hv
    obtain ⟨⟨s, rfl⟩, hdirect⟩ := hstrings p w hw hp (filled_mapNumbers.symm.trans hfilled)
    exact ⟨⟨s, rfl⟩, hdirect⟩

end mapNumbers

/-- Written anew, a value keeps its shape, and its leaves but for the emptied strings and the numbers that are not
written as they were read. -/
theorem preserved_written {F : FloatFormat} {m : Json} {r : Json × Bool}
    (hspec : Blanks F .value (m.mapNumbers F.nearest) r)
    (hexact : ∀ p x, m.lookup p = some (.number x) → F.written (F.nearest x) = x) :
    Preserved m (r.1.mapNumbers F.written) := by
  constructor
  · intro p
    have hshape : ∀ {x : Json} {g : Rat → Rat}, (x.mapNumbers g).lookup p = none ∧ x.lookup p = none ∨
        ∃ y, (x.mapNumbers g).lookup p = some (y.mapNumbers g) ∧ x.lookup p = some y := by
      intro x g
      rw [lookup_mapNumbers]
      cases x.lookup p with
      | none => exact .inl ⟨rfl, rfl⟩
      | some y => exact .inr ⟨y, rfl, rfl⟩
    have hmap : ∀ {x : Json} {g : Rat → Rat},
        ((x.mapNumbers g).lookup p).map Json.shape = (x.lookup p).map Json.shape := by
      intro x g
      rcases hshape (x := x) (g := g) with ⟨h, h'⟩ | ⟨y, h, h'⟩
      · rw [h, h']
      · rw [h, h', Option.map_some, Option.map_some, shape_mapNumbers]
    rw [hmap, hspec.emptied.shape p, hmap]
  · intro p v hp hleaf hv
    have hread : (m.mapNumbers F.nearest).lookup p = some (v.mapNumbers F.nearest) := by
      rw [lookup_mapNumbers, hv, Option.map_some]
    rcases hspec.emptied.leaf p _ hread (isLeaf_mapNumbers.trans hleaf) with hsame | ⟨hdirect, -, -⟩
    · rw [lookup_mapNumbers, hsame, Option.map_some]
      cases v with
      | number x => rw [mapNumbers, mapNumbers, hexact p x hv]
      | cons => cases hleaf
      | field => cases hleaf
      | _ => rfl
    · exact absurd (secret_of_direct hdirect) hp

/-- A number that is kept is the one written for its float64. -/
theorem written_of_preserved {F : FloatFormat} {m : Json} {r : Json × Bool}
    (hspec : Blanks F .value (m.mapNumbers F.nearest) r) (hpreserved : Preserved m (r.1.mapNumbers F.written))
    (hstrings : StringsOnly m) {p : List Step} {x : Rat} (hx : m.lookup p = some (.number x)) :
    F.written (F.nearest x) = x := by
  have hp : ¬ Secret p := fun hp => by
    obtain ⟨⟨s, hs⟩, -⟩ := hstrings p _ hx hp rfl
    cases hs
  have hread : (m.mapNumbers F.nearest).lookup p = some (.number (F.nearest x)) := by
    rw [lookup_mapNumbers, hx]
    rfl
  have hwritten := hpreserved.leaf p _ hp rfl hx
  rcases hspec.emptied.leaf p _ hread rfl with hsame | ⟨hdirect, -, -⟩
  · rw [lookup_mapNumbers, hsame] at hwritten
    exact Json.number.inj (Option.some.inj hwritten)
  · exact absurd (secret_of_direct hdirect) hp

end blanking

section contents

variable {F : FloatFormat} {content : String} {m : Json}

theorem isSpace_of_isBlank {c : Char} (h : isBlank c = true) : isSpace c = true := by
  have hcases : c = ' ' ∨ c = '\t' ∨ c = '\n' ∨ c = '\r' := by
    simpa [isBlank, or_assoc] using h
  rcases hcases with rfl | rfl | rfl | rfl <;> decide

theorem head_trimSpace {cs : List Char} {c : Char} (h : (trimSpace cs).head? = some c) : isSpace c = false := by
  obtain ⟨ds, hds⟩ := List.head?_eq_some_iff.mp h
  obtain ⟨suffix, hsuffix⟩ : trimSpace cs <+: cs.dropWhile isSpace := List.rdropWhile_prefix _ _
  rw [hds, List.cons_append] at hsuffix
  have hfirst := List.head?_dropWhile_not isSpace cs
  rw [← hsuffix] at hfirst
  simpa using hfirst

theorem trimSpace_eq_self {c d : Char} {cs : List Char} (hc : isSpace c = false) (hd : isSpace d = false) :
    trimSpace (c :: (cs ++ [d])) = c :: (cs ++ [d]) := by
  rw [trimSpace, List.dropWhile_cons_of_neg (by rw [hc]; decide), ← List.cons_append,
    List.rdropWhile_concat_neg _ _ _ (by rw [hd]; decide)]

theorem wellFormed_members (h : WellFormed F .value m) (hobject : m.isObject = true) : WellFormed F .members m := by
  cases m with
  | empty => exact nofun
  | field => exact ⟨nofun, h.2⟩
  | _ => cases hobject

theorem isMap_of_isObject (h : m.isObject = true) : m.isMap = true := by
  cases m <;> first | rfl | cases h

/-- The text of an object starts with its brace once the space around it is gone. -/
theorem head_of_isObject {t : Form} (hform : formOf (trimSpace content.toList) = some t) (hobject : t.isObject = true) :
    (trimSpace content.toList).head? = some '{' := by
  obtain ⟨rest, hread, -⟩ := formOf_eq_some hform
  have hopen := token_of_isObject hread hobject
  cases hcs : trimSpace content.toList with
  | nil =>
      rw [hcs] at hopen
      cases hopen
  | cons c cs =>
      have hspace : isSpace c = false := head_trimSpace (by rw [hcs]; rfl)
      have hblank : isBlank c = false := by
        by_contra hc
        rw [isSpace_of_isBlank (Bool.not_eq_false _ ▸ hc)] at hspace
        cases hspace
      rw [hcs, token, skip_cons hblank] at hopen
      by_cases hc : c = '{'
      · rw [hc]
        rfl
      · simp [if_neg hc] at hopen

theorem isObject_insert {k : String} {v j : Json} : (Json.insert k v j).isObject = true := by
  cases j with
  | field k' v' rest =>
      rw [Json.insert]
      split_ifs <;> rfl
  | _ => rfl

theorem isObject_mapNumbers {f : Rat → Rat} : (m.mapNumbers f).isObject = m.isObject := by cases m <;> rfl

theorem isObject_value (t : Form) : t.value.isObject = t.isObject := by
  cases t with
  | field => exact isObject_insert
  | _ => rfl

theorem depth_of_unmarshal {text : List Char} (h : unmarshal F text = some m) : m.depth ≤ maxNestingDepth := by
  obtain ⟨t, hform, hdepth, -, rfl⟩ := unmarshal_eq_some.mp h
  obtain ⟨rest, hread, -⟩ := formOf_eq_some hform
  rw [depth_mapNumbers]
  exact (depth_value_le (readForm_eq_some hread).1).trans hdepth

theorem blankConfigSecrets_eq (hm : unmarshal F (trimSpace content.toList) = some m) (hobject : m.isObject = true) :
    blankConfigSecrets F content = if (blankObject m).2 then
      .ok (String.ofList (marshalIndent F (blankObject m).1), true) else .ok (content, false) := by
  have hmap : unmarshalMap F (trimSpace content.toList) = some m := by
    rw [unmarshalMap, hm]
    exact Option.filter_eq_some_iff.mpr ⟨rfl, isMap_of_isObject hobject⟩
  obtain ⟨t, hform, -, -, rfl⟩ := unmarshal_eq_some.mp hm
  have hhead := head_of_isObject hform (by rwa [isObject_mapNumbers, isObject_value] at hobject)
  simp only [blankConfigSecrets, hhead, hmap, ne_eq, not_true_eq_false, if_false]

theorem isObject_blankObject (hm : WellFormed F .value m) (hobject : m.isObject = true) :
    (blankObject m).1.isObject = true := by
  have hiff : ∀ x : Json, x.isObject = true ↔ ∃ ks, x.shape = .object ks := by
    intro x
    cases x <;> simp [isObject, shape]
  obtain ⟨ks, hks⟩ := (hiff m).mp hobject
  exact (hiff _).mpr ⟨ks, (blankObject_spec hm).emptied.shape_eq.trans hks⟩

/-- Blanking gives the text of the object blanked, or the content as it is if there is nothing to blank, and then finds
nothing more. -/
theorem blankConfigSecrets_spec (hm : unmarshal F (trimSpace content.toList) = some m) (hobject : m.isObject = true) :
    ∃ out changed, blankConfigSecrets F content = .ok (out, changed) ∧
      unmarshal F (trimSpace out.toList) = some (blankObject m).1 ∧ (Clean m → out = content) ∧
      blankConfigSecrets F out = .ok (out, false) := by
  have hwell := wellFormed_of_unmarshal hm
  have heq := blankConfigSecrets_eq hm hobject
  have hspec := blankObject_spec hwell
  cases hflag : (blankObject m).2 with
  | false =>
      rw [hflag] at heq
      refine ⟨content, false, heq, ?_, fun _ => rfl, heq⟩
      rw [hspec.same hflag]
      exact hm
  | true =>
      rw [hflag] at heq
      have hobject' := isObject_blankObject hwell hobject
      obtain ⟨cs, hcs⟩ := marshalIndent_isObject (wellFormed_members hspec.wellFormed hobject')
      have htext : unmarshal F (trimSpace (String.ofList (marshalIndent F (blankObject m).1)).toList) =
          some (blankObject m).1 := by
        rw [String.toList_ofList, hcs, trimSpace_eq_self (by decide) (by decide), ← hcs]
        exact unmarshal_marshalIndent hspec.wellFormed (hspec.depth.trans (depth_of_unmarshal hm))
      refine ⟨_, true, heq, htext, fun hclean => ?_, ?_⟩
      · rw [blankObject_of_clean hwell hclean] at hflag
        cases hflag
      · rw [blankConfigSecrets_eq htext hobject', blankObject_again hwell]
        rfl

/-- An object that the decoder refuses is not blanked. -/
theorem unmarshal_of_blanked {t : Form} {out : String} {changed : Bool}
    (hform : formOf (trimSpace content.toList) = some t)
    (hobject : t.isObject = true) (hout : blankConfigSecrets F content = .ok (out, changed)) :
    t.depth ≤ maxNestingDepth ∧ t.inRange F = true ∧
      unmarshal F (trimSpace content.toList) = some (t.value.mapNumbers F.nearest) := by
  cases hread : unmarshal F (trimSpace content.toList) with
  | none =>
      simp [blankConfigSecrets, head_of_isObject hform hobject, unmarshalMap, hread] at hout
  | some m =>
      obtain ⟨t', hform', hdepth, hrange, rfl⟩ := unmarshal_eq_some.mp hread
      obtain rfl := Option.some.inj (hform'.symm.trans hform)
      exact ⟨hdepth, hrange, rfl⟩

/-- The text of an object is JSON as it is, without space around it. -/
theorem formOf_written (hm : WellFormed F .value m) (hobject : m.isObject = true) :
    formOf (trimSpace (String.ofList (marshalIndent F m)).toList) = some (m.form F) := by
  obtain ⟨cs, hcs⟩ := marshalIndent_isObject (wellFormed_members hm hobject)
  rw [String.toList_ofList, hcs, trimSpace_eq_self (by decide) (by decide), ← hcs]
  exact formOf_marshalIndent hm

/-- The content of an object is blanked as it is to be exactly when it is blankable. -/
theorem blanked_iff {t : Form} (hform : formOf (trimSpace content.toList) = some t) (hobject : t.isObject = true) :
    Blanked F content t.value ↔ Blankable F t := by
  have hobject' : (t.value.mapNumbers F.nearest).isObject = true := by rwa [isObject_mapNumbers, isObject_value]
  constructor
  · rintro ⟨out, changed, t', hout, hform', hclean, hpreserved, -, -⟩
    obtain ⟨hdepth, hrange, hm⟩ := unmarshal_of_blanked hform hobject hout
    have hwell := wellFormed_of_unmarshal hm
    have hspec := blankObject_spec hwell
    have heq := blankConfigSecrets_eq hm hobject'
    rw [hout] at heq
    cases hflag : (blankObject (t.value.mapNumbers F.nearest)).2 with
    | false =>
        -- the content itself is clean
        rw [hflag] at heq
        cases heq
        obtain rfl := Option.some.inj (hform.symm.trans hform')
        have hblank := clean_mapNumbers (f := F.nearest) |>.mpr hclean
        rw [← hspec.same hflag] at hblank
        have hstrings := stringsOnly_mapNumbers.mp ((clean_iff hwell).mp hblank)
        exact ⟨hdepth, hrange, hstrings, fun hsecret => absurd hclean hsecret⟩
    | true =>
        rw [hflag] at heq
        cases heq
        rw [formOf_written hspec.wellFormed (isObject_blankObject hwell hobject')] at hform'
        obtain rfl := Option.some.inj hform'
        rw [value_form hspec.wellFormed] at hclean hpreserved
        have hstrings := stringsOnly_mapNumbers.mp ((clean_iff hwell).mp (clean_mapNumbers.mp hclean))
        exact ⟨hdepth, hrange, hstrings, fun _ p x hx => written_of_preserved hspec hpreserved hstrings hx⟩
  · intro h
    have hm : unmarshal F (trimSpace content.toList) = some (t.value.mapNumbers F.nearest) :=
      unmarshal_eq_some.mpr ⟨t, hform, h.shallow, h.inRange, rfl⟩
    have hwell := wellFormed_of_unmarshal hm
    have hspec := blankObject_spec hwell
    have hblank := (clean_iff hwell).mpr (stringsOnly_mapNumbers.mpr h.strings)
    obtain ⟨out, changed, hout, -, hidentical, hagain⟩ := blankConfigSecrets_spec hm hobject'
    have hsame : Clean t.value → out = content := fun hclean => hidentical (clean_mapNumbers.mpr hclean)
    have heq := blankConfigSecrets_eq hm hobject'
    rw [hout] at heq
    cases hflag : (blankObject (t.value.mapNumbers F.nearest)).2 with
    | false =>
        rw [hflag] at heq
        cases heq
        rw [hspec.same hflag, clean_mapNumbers] at hblank
        exact ⟨content, false, t, hout, hform, hblank, ⟨fun _ => rfl, fun _ _ _ _ hv => hv⟩, hsame, hagain⟩
    | true =>
        have hsecret : ¬ Clean t.value := fun hclean => by
          rw [blankObject_of_clean hwell (clean_mapNumbers.mpr hclean)] at hflag
          cases hflag
        rw [hflag] at heq
        cases heq
        refine ⟨_, true, _, hout, formOf_written hspec.wellFormed (isObject_blankObject hwell hobject'), ?_, ?_, hsame,
          hagain⟩
        · rw [value_form hspec.wellFormed]
          exact clean_mapNumbers.mpr hblank
        · rw [value_form hspec.wellFormed]
          exact preserved_written hspec (h.exact hsecret)

end contents

section digits

/-- The numbers of one digit. -/
def oneDigit : FloatFormat where
  round x := if x ∈ (List.range 10).map fun n : Nat => (n : Rat) then some x else none
  format x := [Char.ofNat ('0'.toNat + x.num.toNat)]
  format_accepted := by
    intro z x h
    split_ifs at h with hz
    cases h
    have hall : ∀ x ∈ (List.range 10).map fun n : Nat => (n : Rat),
        NumState.start.accepts [Char.ofNat ('0'.toNat + x.num.toNat)] = true := by decide
    exact hall z hz
  round_format := by
    intro z x h
    split_ifs at h with hz
    cases h
    have hall : ∀ x ∈ (List.range 10).map fun n : Nat => (n : Rat),
        decimal [Char.ofNat ('0'.toNat + x.num.toNat)] = x := by decide
    rw [hall z hz]
    exact if_pos hz

def wifiText : String := "\x7b\"wifi\":\x7b\"password\":\"x\"\x7d\x7d"

def wifiForm : Form := .field "wifi" (.field "password" (.string "x") .empty) .empty

/-- What stands in an object of one member. -/
theorem lookup_single {k : String} {v x : Json} {p : List Step} (h : (Json.field k v .empty).lookup p = some x) :
    x.isLeaf = false ∨ ∃ q, p = .key k :: q ∧ v.lookup q = some x := by
  match p with
  | [] =>
      obtain rfl := Option.some.inj h
      exact .inl rfl
  | .index _ :: _ => cases h
  | .key k' :: q =>
      rw [lookup, Json.get] at h
      split_ifs at h with hk
      · exact .inr ⟨q, by rw [hk], h⟩
      · cases h

/-- The one leaf of the form. -/
theorem wifiForm_leaf {p : List Step} {v : Json} (hv : wifiForm.value.lookup p = some v) :
    v.isLeaf = false ∨ p = [.key "wifi", .key "password"] ∧ v = .string "x" := by
  obtain hleaf | ⟨q, rfl, hv'⟩ := lookup_single hv
  · exact .inl hleaf
  · obtain hleaf | ⟨q', rfl, hv''⟩ := lookup_single hv'
    · exact .inl hleaf
    · cases q' with
      | nil => exact .inr ⟨rfl, (Option.some.inj hv'').symm⟩
      | cons step q' =>
          rw [lookup_leaf rfl] at hv''
          cases hv''

theorem wifiForm_blanked : Blanked oneDigit wifiText wifiForm.value := by
  refine (blanked_iff (by decide) rfl).mpr ⟨by decide, by decide, fun p v hv _ hfilled => ?_, fun _ p x hx => ?_⟩
  · obtain hleaf | ⟨rfl, rfl⟩ := wifiForm_leaf hv
    · rw [isLeaf_of_filled hfilled] at hleaf
      cases hleaf
    · exact ⟨⟨"x", rfl⟩, "password", rfl, by decide⟩
  · obtain hleaf | ⟨-, hstring⟩ := wifiForm_leaf hx
    · cases hleaf
    · cases hstring

/-- A key given as a number stays in the clear. -/
def numberText : String := "\x7b\"api_key\":7\x7d"

def numberForm : Form := .field "api_key" (.number ['7']) .empty

theorem numberForm_not_blanked : formOf (trimSpace numberText.toList) = some numberForm ∧
    ¬ Blanked oneDigit numberText numberForm.value := by
  have hform : formOf (trimSpace numberText.toList) = some numberForm := by decide
  refine ⟨hform, ?_⟩
  rintro ⟨out, changed, t', hout, hform', hclean, -⟩
  have hsame : blankConfigSecrets oneDigit numberText = .ok (numberText, false) := by decide
  rw [hsame] at hout
  cases hout
  rw [hform] at hform'
  cases hform'
  have hempty := hclean [.key "api_key"] (.number 7) (by decide) (.inl ⟨"api_key", rfl, by decide⟩)
  cases hempty

end digits

end ThesadaApp.ConfigSecrets
