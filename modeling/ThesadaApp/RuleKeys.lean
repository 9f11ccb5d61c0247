import ThesadaApp.RulesRuntime

/-!
The key of a rule is made of the fields of its condition. All battery conditions have the same, and the others differ
unless the fields that are in them are equal: all but the sustain of a temperature condition.
-/

namespace ThesadaApp.Rules

section text

variable {a a' b b' : List Char} {c : Char}

/-- What comes before and after the last `c`. -/
theorem append_last_inj (h : a ++ c :: b = a' ++ c :: b') (hb : c ∉ b) (hb' : c ∉ b') : a = a' ∧ b = b' := by
  rcases List.append_eq_append_iff.mp h with ⟨as, ha, hrest⟩ | ⟨as, ha, hrest⟩
  · cases as with
    | nil => exact ⟨by rw [ha, List.append_nil], (List.cons.inj hrest).2⟩
    | cons d as =>
        obtain ⟨rfl, rfl⟩ := List.cons.inj hrest
        exact absurd (List.mem_append_right _ List.mem_cons_self) hb
  · cases as with
    | nil => exact ⟨by rw [ha, List.append_nil], (List.cons.inj hrest).2.symm⟩
    | cons d as =>
        obtain ⟨rfl, rfl⟩ := List.cons.inj hrest
        exact absurd (List.mem_append_right _ List.mem_cons_self) hb'

theorem toString_injective {m n : Nat} (h : toString m = toString n) : m = n := by
  rw [Nat.toString_eq_repr, Nat.toString_eq_repr] at h
  have hdigits : Nat.toDigits 10 m = Nat.toDigits 10 n := by rw [← Nat.toList_repr, ← Nat.toList_repr, h]
  rw [← Nat.ofDigitChars_ten_toDigits (n := m), hdigits, Nat.ofDigitChars_ten_toDigits]

theorem notMem_toString {n : Nat} (hc : c.isDigit = false) : c ∉ (toString n).toList := fun hmem =>
  Bool.eq_false_iff.mp hc (isDigit_toString n c hmem)

theorem absText_injective {m n : Nat} (h : absText m = absText n) : m = n := by
  have hchars := congrArg String.toList h
  have hpoint : ∀ k, '.' ∉ (toString k).toList := fun k => notMem_toString (by decide)
  have hsplit : ∀ k l : Nat,
      (toString k ++ ("." ++ toString l)).toList = (toString k).toList ++ '.' :: (toString l).toList := by
    intro k l
    rw [String.toList_append, String.toList_append]
    rfl
  rw [absText, absText] at hchars
  split_ifs at hchars with hm hn hn
  · have hwhole := toString_injective (String.toList_inj.mp hchars)
    omega
  · rw [hsplit] at hchars
    exact absurd (hchars ▸ List.mem_append_right _ List.mem_cons_self) (hpoint _)
  · rw [hsplit] at hchars
    exact absurd (hchars ▸ List.mem_append_right _ List.mem_cons_self) (hpoint _)
  · rw [hsplit, hsplit] at hchars
    obtain ⟨hwhole, hpart⟩ := append_last_inj hchars (hpoint _) (hpoint _)
    have hdiv := toString_injective (String.toList_inj.mp hwhole)
    have hmod := toString_injective (String.toList_inj.mp hpart)
    omega

theorem notMem_absText {n : Nat} (hc : c.isDigit = false) (hpoint : c ≠ '.') : c ∉ (absText n).toList := by
  rw [absText]
  split_ifs
  · exact notMem_toString hc
  · simp only [String.toList_append, List.mem_append, not_or]
    exact ⟨notMem_toString hc, fun hmem => hpoint (List.mem_singleton.mp hmem), notMem_toString hc⟩

theorem tenthsText_injective {m n : Int} (h : tenthsText m = tenthsText n) : m = n := by
  have hminus : ∀ k : Nat, '-' ∉ (absText k).toList := fun k => notMem_absText (by decide) (by decide)
  have hneg : ∀ k : Nat, ("-" ++ absText k).toList = '-' :: (absText k).toList := by
    intro k
    rw [String.toList_append]
    rfl
  have hchars := congrArg String.toList h
  rw [tenthsText, tenthsText] at hchars
  split_ifs at hchars with hm hn hn
  · rw [hneg, hneg] at hchars
    have habs := absText_injective (String.toList_inj.mp (List.cons.inj hchars).2)
    omega
  · rw [hneg] at hchars
    exact absurd (hchars ▸ List.mem_cons_self) (hminus _)
  · rw [hneg] at hchars
    exact absurd (hchars ▸ List.mem_cons_self) (hminus _)
  · have habs := absText_injective (String.toList_inj.mp hchars)
    omega

theorem notMem_tenthsText {n : Int} (hc : c.isDigit = false) (hpoint : c ≠ '.') (hminus : c ≠ '-') :
    c ∉ (tenthsText n).toList := by
  rw [tenthsText]
  split_ifs
  · rw [String.toList_append, List.mem_append, not_or]
    exact ⟨fun hmem => hminus (List.mem_singleton.mp hmem), notMem_absText hc hpoint⟩
  · exact notMem_absText hc hpoint

end text

section keys

variable {s s' : String} {op op' : Op} {thresh thresh' : Int} {count count' : Nat}

/-- An operator and a number. -/
theorem limit_injective (h : op.text ++ tenthsText thresh = op'.text ++ tenthsText thresh') :
    op = op' ∧ thresh = thresh' := by
  have hchars := congrArg String.toList h
  rw [String.toList_append, String.toList_append] at hchars
  have hlength : ∀ op : Op, op.text.toList.length = 2 := fun op => by cases op <;> decide
  obtain ⟨hop, hthresh⟩ := List.append_inj hchars (by rw [hlength, hlength])
  refine ⟨?_, tenthsText_injective (String.toList_inj.mp hthresh)⟩
  revert hop
  cases op <;> cases op' <;> decide

theorem notMem_limit : ':' ∉ (op.text ++ tenthsText thresh).toList := by
  rw [String.toList_append, List.mem_append, not_or]
  exact ⟨by cases op <;> decide, notMem_tenthsText (by decide) (by decide) (by decide)⟩

theorem tempKey_toList : (tempKey s op thresh).toList =
    "temp:".toList ++ (s.toList ++ ':' :: (op.text ++ tenthsText thresh).toList) := by
  simp only [tempKey, String.append_assoc, String.toList_append]
  rfl

theorem currentKey_toList : (currentKey s op thresh count).toList = "current:".toList ++
    ((s.toList ++ ':' :: (op.text ++ tenthsText thresh).toList) ++ ':' :: (toString count).toList) := by
  simp only [currentKey, String.append_assoc, String.toList_append, List.append_assoc, List.cons_append]
  rfl

/-- A name, and a limit of it. -/
theorem limited_injective {a a' : List Char} (h : a ++ ':' :: (op.text ++ tenthsText thresh).toList =
    a' ++ ':' :: (op'.text ++ tenthsText thresh').toList) : a = a' ∧ op = op' ∧ thresh = thresh' := by
  obtain ⟨hname, hlimit⟩ := append_last_inj h notMem_limit notMem_limit
  exact ⟨hname, limit_injective (String.toList_inj.mp hlimit)⟩

theorem tempKey_injective (h : tempKey s op thresh = tempKey s' op' thresh') :
    s = s' ∧ op = op' ∧ thresh = thresh' := by
  have hchars := congrArg String.toList h
  rw [tempKey_toList, tempKey_toList] at hchars
  obtain ⟨hname, hlimit⟩ := limited_injective (List.append_cancel_left hchars)
  exact ⟨String.toList_inj.mp hname, hlimit⟩

theorem currentKey_injective (h : currentKey s op thresh count = currentKey s' op' thresh' count') :
    s = s' ∧ op = op' ∧ thresh = thresh' ∧ count = count' := by
  have hchars := congrArg String.toList h
  have hcolon : ∀ n : Nat, ':' ∉ (toString n).toList := fun n => notMem_toString (by decide)
  rw [currentKey_toList, currentKey_toList] at hchars
  obtain ⟨hlimited, hcount⟩ := append_last_inj (List.append_cancel_left hchars) (hcolon _) (hcolon _)
  obtain ⟨hname, hop, hthresh⟩ := limited_injective hlimited
  exact ⟨String.toList_inj.mp hname, hop, hthresh, toString_injective (String.toList_inj.mp hcount)⟩

/-- The fields of a condition that its key is made of. -/
def Condition.SameFields : Condition → Condition → Prop
  | .ifTemp s op thresh _, .ifTemp s' op' thresh' _ => s = s' ∧ op = op' ∧ thresh = thresh'
  | .ifCurrent s op thresh count, .ifCurrent s' op' thresh' count' =>
      s = s' ∧ op = op' ∧ thresh = thresh' ∧ count = count'
  | .ifBattery _, .ifBattery _ => True
  | _, _ => False

/-- The first character of a key tells the kind of its condition. -/
theorem key_head (c : Condition) : c.key.toList.head? = some (match c with
    | .ifTemp .. => 't'
    | .ifCurrent .. => 'c'
    | .ifBattery _ => 'b') := by
  cases c with
  | ifTemp => rw [Condition.key, tempKey_toList]; rfl
  | ifCurrent => rw [Condition.key, currentKey_toList]; rfl
  | ifBattery =>
      show "battery_low".toList.head? = some 'b'
      decide

theorem key_eq_iff (c c' : Condition) : c.key = c'.key ↔ c.SameFields c' := by
  have hhead : c.key = c'.key → c.key.toList.head? = c'.key.toList.head? := fun h => by rw [h]
  rw [key_head, key_head] at hhead
  cases c <;> cases c'
  case ifTemp.ifTemp s op thresh sustain s' op' thresh' sustain' =>
    constructor
    · intro h
      obtain ⟨hs, hop, hthresh⟩ := tempKey_injective h
      exact ⟨hs, hop, Subtype.ext hthresh⟩
    · rintro ⟨rfl, rfl, rfl⟩
      rfl
  case ifCurrent.ifCurrent s op thresh count s' op' thresh' count' =>
    constructor
    · intro h
      obtain ⟨hs, hop, hthresh, hcount⟩ := currentKey_injective h
      exact ⟨hs, hop, Subtype.ext hthresh, Subtype.ext hcount⟩
    · rintro ⟨rfl, rfl, rfl, rfl⟩
      rfl
  case ifBattery.ifBattery => exact iff_of_true rfl trivial
  all_goals exact iff_of_false (fun h => by simpa using hhead h) (fun h => h)

end keys

end ThesadaApp.Rules
