import Mathlib.Data.List.Induction
import ThesadaApp.RuleTables

/-!
A call of `temp_streak` answers by the history of its key: the streak it belongs to is counted from the last event that
ended one, and the tables are an incremental record of it.
-/

namespace ThesadaApp.Rules

/-- A call of `temp_streak` for one key. -/
structure Reading where
  time : Int
  isOver : Bool
  deriving DecidableEq

/-- The gaps between the readings of a key, the last first. -/
def gaps : List Reading → List Int
  | r :: last :: rs => (r.time - last.time) :: gaps (last :: rs)
  | _ => []

/-- The gap before a reading is longer than the larger of five minutes and three times the shortest earlier gap. -/
def Silent (r : Reading) (rs : List Reading) : Prop :=
  ∃ last ∈ rs.head?, 300000 < r.time - last.time ∧ ∀ shortest ∈ (gaps rs).min?, 3 * shortest < r.time - last.time

/-- A streak, as the times of its readings with the last first, of five readings or of five minutes. -/
def Complete (streak : List Int) : Prop :=
  5 ≤ streak.length ∨ ∃ last ∈ streak.head?, ∃ first ∈ streak.getLast?, 300000 ≤ last - first

instance (streak : List Int) : Decidable (Complete streak) :=
  inferInstanceAs (Decidable (_ ∨ ∃ last ∈ streak.head?, _))

instance (r : Reading) (rs : List Reading) : Decidable (Silent r rs) :=
  inferInstanceAs (Decidable (∃ last ∈ rs.head?, _))

/-- The current streak after the readings of a key, the last first. A reading that is not over the threshold ends a
streak, and so do a silent gap before a reading and a streak that is complete. -/
def streak : List Reading → List Int
  | [] => []
  | r :: rs =>
      if r.isOver = false then []
      else if Silent r rs ∨ Complete (streak rs) then [r.time]
      else r.time :: streak rs

/-- The part of the streak that the next reading may go on with. -/
def unfinished (rs : List Reading) : List Int := if Complete (streak rs) then [] else streak rs

/-- The tables record the readings of the key. -/
structure Tracks (rs : List Reading) (s : KeyState) : Prop where
  seen : s.tempSeen = rs.head?.map Reading.time
  gap : s.tempGap = (gaps rs).min?
  count : s.sustain.getD 0 = (unfinished rs).length
  start : s.tempSustainStart = (unfinished rs).getLast?

section readings

variable {rs : List Reading} {r : Reading} {s : KeyState} {now : Int} {isOver : Bool}

theorem Tracks.empty : Tracks [] .empty where
  seen := rfl
  gap := rfl
  count := by decide
  start := by decide

theorem unfinished_of_under (hunder : r.isOver = false) : unfinished (r :: rs) = [] := by
  have hstreak : streak (r :: rs) = [] := by rw [streak, if_pos hunder]
  rw [unfinished, hstreak]
  exact ite_self _

theorem streak_of_over (rs : List Reading) (hover : r.isOver = true) :
    streak (r :: rs) = r.time :: if Silent r rs then [] else unfinished rs := by
  rw [streak, if_neg (by rw [hover]; decide)]
  by_cases hsilent : Silent r rs
  · rw [if_pos (.inl hsilent), if_pos hsilent]
  · rw [if_neg hsilent, unfinished]
    by_cases hcomplete : Complete (streak rs)
    · rw [if_pos (.inr hcomplete), if_pos hcomplete]
    · rw [if_neg (not_or.mpr ⟨hsilent, hcomplete⟩), if_neg hcomplete]

/-- The limit of the code is the larger of the two. -/
theorem gapLimit_lt {shortest : Option Int} {g : Int} :
    gapLimit shortest < g ↔ 300000 < g ∧ ∀ x ∈ shortest, 3 * x < g := by
  cases shortest with
  | none => simp [gapLimit, tempSustainMs]
  | some x =>
      simp only [gapLimit, tempSustainMs, Option.mem_some_iff, forall_eq']
      split_ifs
      · omega
      · omega

theorem min?_gaps_cons (last : Reading) : (gaps (r :: last :: rs)).min? =
    some ((gaps (last :: rs)).min?.elim (r.time - last.time) (min (r.time - last.time))) :=
  List.min?_cons

/-- Before the reading is looked at, the tables hold the gap that it ends, and the streak that it may go on with. -/
theorem Tracks.silence (h : Tracks rs s) (now : Int) (isOver : Bool) :
    (tempSilence now s).tempSeen = some now ∧ (tempSilence now s).tempGap = (gaps (⟨now, isOver⟩ :: rs)).min? ∧
    (tempSilence now s).sustain.getD 0 = (if Silent ⟨now, isOver⟩ rs then [] else unfinished rs).length ∧
    (tempSilence now s).tempSustainStart = (if Silent ⟨now, isOver⟩ rs then [] else unfinished rs).getLast? ∧
    (tempSilence now s).cooldown = s.cooldown := by
  cases rs with
  | nil =>
      have hseen : s.tempSeen = none := h.seen
      have hsilent : ¬ Silent ⟨now, isOver⟩ [] := by
        rintro ⟨last, hlast, -⟩
        cases hlast
      rw [tempSilence, hseen, if_neg hsilent]
      exact ⟨rfl, h.gap, h.count, h.start, rfl⟩
  | cons last rs =>
      have hseen : s.tempSeen = some last.time := h.seen
      have hsilent : Silent ⟨now, isOver⟩ (last :: rs) ↔ gapLimit s.tempGap < now - last.time := by
        rw [gapLimit_lt, h.gap]
        constructor
        · rintro ⟨x, hx, hlimit⟩
          obtain rfl : last = x := Option.some.inj hx
          exact hlimit
        · exact fun hlimit => ⟨last, rfl, hlimit⟩
      have hgap : (if s.tempGap.all fun shortest => now - last.time < shortest then some (now - last.time)
          else s.tempGap) = (gaps (⟨now, isOver⟩ :: last :: rs)).min? := by
        rw [min?_gaps_cons, ← h.gap]
        cases s.tempGap with
        | none => rfl
        | some x =>
            simp only [Option.all_some, decide_eq_true_eq, Option.elim_some]
            split
            · next hlt => rw [Int.min_eq_left (Int.le_of_lt hlt)]
            · next hle => rw [Int.min_eq_right (Int.not_lt.mp hle)]
      unfold tempSilence
      rw [hseen]
      dsimp only
      by_cases hlimit : gapLimit s.tempGap < now - last.time
      · rw [if_pos hlimit, if_pos (hsilent.mpr hlimit)]
        exact ⟨rfl, hgap, rfl, rfl, rfl⟩
      · rw [if_neg hlimit, if_neg (mt hsilent.mp hlimit)]
        exact ⟨rfl, hgap, h.count, h.start, rfl⟩

theorem complete_cons {l : List Int} : Complete (now :: l) ↔
    tempSustainCount ≤ l.length + 1 ∨ tempSustainMs ≤ now - l.getLast?.getD now := by
  have hlast : (now :: l).getLast? = some (l.getLast?.getD now) := List.getLast?_cons
  simp [Complete, hlast, tempSustainCount, tempSustainMs]

/-- A reading over the threshold, of a key whose streak so far is `l`. -/
theorem tempSustained_spec {l : List Int} (hcount : s.sustain.getD 0 = l.length)
    (hstart : s.tempSustainStart = l.getLast?) : tempSustained now s =
    if Complete (now :: l) then (canAlert now s, tempClear s)
    else (false, { s with sustain := some (l.length + 1), tempSustainStart := (now :: l).getLast? }) := by
  have hlast : (now :: l).getLast? = some (l.getLast?.getD now) := List.getLast?_cons
  unfold tempSustained
  rw [hcount, hstart, hlast]
  exact if_congr complete_cons.symm rfl rfl

theorem Tracks.streak (h : Tracks rs s) (now : Int) (isOver : Bool) :
    Tracks (⟨now, isOver⟩ :: rs) (tempStreak now isOver s).2 := by
  obtain ⟨hseen, hgap, hcount, hstart, -⟩ := h.silence now isOver
  cases isOver with
  | false =>
      have hnone : unfinished (⟨now, false⟩ :: rs) = [] := unfinished_of_under rfl
      refine ⟨hseen, hgap, ?_, ?_⟩
      · rw [hnone]
        rfl
      · rw [hnone]
        rfl
  | true =>
      have hstreak := @streak_of_over ⟨now, true⟩ rs rfl
      rw [tempStreak, if_pos rfl, tempSustained_spec hcount hstart, ← hstreak]
      by_cases hcomplete : Complete (Rules.streak (⟨now, true⟩ :: rs))
      · have hnone : unfinished (⟨now, true⟩ :: rs) = [] := if_pos hcomplete
        rw [if_pos hcomplete]
        refine ⟨hseen, hgap, ?_, ?_⟩
        · rw [hnone]
          rfl
        · rw [hnone]
          rfl
      · have hsome : unfinished (⟨now, true⟩ :: rs) = Rules.streak (⟨now, true⟩ :: rs) := if_neg hcomplete
        rw [if_neg hcomplete]
        refine ⟨hseen, hgap, ?_, ?_⟩
        · rw [hsome, hstreak]
          rfl
        · rw [hsome]

/-- A call answers yes for a reading that completes a streak of a key that is not in cooldown. -/
theorem Tracks.answer (h : Tracks rs s) (now : Int) (isOver : Bool) : (tempStreak now isOver s).1 = true ↔
    isOver = true ∧ canAlert now s = true ∧ Complete (Rules.streak (⟨now, isOver⟩ :: rs)) := by
  obtain ⟨-, -, hcount, hstart, hcooldown⟩ := h.silence now isOver
  cases isOver with
  | false => simp [tempStreak]
  | true =>
      have hstreak := @streak_of_over ⟨now, true⟩ rs rfl
      have halert : canAlert now (tempSilence now s) = canAlert now s := by
        unfold canAlert
        rw [hcooldown]
      rw [tempStreak, if_pos rfl, tempSustained_spec hcount hstart, ← hstreak, halert]
      split_ifs with hcomplete
      · simp [hcomplete]
      · simp [hcomplete]

theorem Tracks.setCooldown (h : Tracks rs s) (now : Int) : Tracks rs (setCooldown now s) :=
  ⟨h.seen, h.gap, h.count, h.start⟩

end readings

/-- What the rules call on the tables. -/
inductive Call where
  | tempStreak (key : String) (isOver : Bool)
  | setCooldown (key : String)
  deriving DecidableEq

def Call.key : Call → String
  | .tempStreak key _ => key
  | .setCooldown key => key

def Call.exec (now : Int) (s : KeyState) : Call → Bool × KeyState
  | .tempStreak _ isOver => Rules.tempStreak now isOver s
  | .setCooldown _ => (false, Rules.setCooldown now s)

/-- A call, with its time, on the tables. -/
def RuleTables.call (t : RuleTables) (c : Int × Call) : RuleTables :=
  Function.update t c.2.key (c.2.exec c.1 (t c.2.key)).2

/-- The tables after calls. -/
def tablesAfter (calls : List (Int × Call)) : RuleTables := calls.foldl RuleTables.call .empty

def readingOf (key : String) : Int × Call → Option Reading
  | (time, .tempStreak k isOver) => if k = key then some ⟨time, isOver⟩ else none
  | _ => none

def cooldownOf (key : String) : Int × Call → Option Int
  | (time, .setCooldown k) => if k = key then some time else none
  | _ => none

/-- The readings of a key, the last first. -/
def readings (key : String) (calls : List (Int × Call)) : List Reading := (calls.filterMap (readingOf key)).reverse

/-- A cooldown of the key was set less than fifteen minutes ago. -/
def InCooldown (key : String) (now : Int) (calls : List (Int × Call)) : Prop :=
  ∃ time ∈ calls.filterMap (cooldownOf key), now - time < 900000

instance (key : String) (now : Int) (calls : List (Int × Call)) : Decidable (InCooldown key now calls) :=
  inferInstanceAs (Decidable (∃ time ∈ calls.filterMap (cooldownOf key), _))

section calls

variable {calls : List (Int × Call)} {c : Int × Call} {key : String} {now : Int}

theorem tablesAfter_concat : tablesAfter (calls ++ [c]) = (tablesAfter calls).call c := by
  rw [tablesAfter, List.foldl_append]
  rfl

theorem readings_concat : readings key (calls ++ [c]) = (readingOf key c).toList ++ readings key calls := by
  rw [readings, List.filterMap_append, List.reverse_append, readings]
  cases hreading : readingOf key c <;> simp [hreading]

theorem call_self : (tablesAfter calls).call c c.2.key = (c.2.exec c.1 (tablesAfter calls c.2.key)).2 :=
  Function.update_self _ _ _

theorem call_of_ne (hkey : c.2.key ≠ key) : (tablesAfter calls).call c key = tablesAfter calls key :=
  Function.update_of_ne (Ne.symm hkey) _ _

/-- The tables hold of each key its readings. -/
theorem tracks (calls : List (Int × Call)) (key : String) : Tracks (readings key calls) (tablesAfter calls key) := by
  induction calls using List.reverseRecOn with
  | nil => exact .empty
  | append_singleton calls c ih =>
      rw [tablesAfter_concat, readings_concat]
      obtain ⟨time, call⟩ := c
      by_cases hkey : call.key = key
      · subst hkey
        rw [call_self]
        cases call with
        | tempStreak k isOver =>
            have hself : readingOf k (time, .tempStreak k isOver) = some ⟨time, isOver⟩ := if_pos rfl
            show Tracks ((readingOf k (time, .tempStreak k isOver)).toList ++ _) _
            rw [hself]
            exact ih.streak time isOver
        | setCooldown k => exact ih.setCooldown time
      · rw [call_of_ne hkey]
        cases call with
        | tempStreak k isOver =>
            have hother : readingOf key (time, .tempStreak k isOver) = none := if_neg hkey
            rw [hother]
            exact ih
        | setCooldown k => exact ih

/-- A call of `temp_streak` sets no cooldown. -/
theorem cooldown_tempStreak {isOver : Bool} {s : KeyState} : (tempStreak now isOver s).2.cooldown = s.cooldown := by
  have hsilence : (tempSilence now s).cooldown = s.cooldown := by
    unfold tempSilence
    dsimp only
    split
    · rfl
    · split_ifs <;> rfl
  unfold tempStreak tempSustained
  dsimp only
  split_ifs <;> exact hsilence

/-- The tables hold of each key the last of its cooldowns. -/
theorem cooldown_tablesAfter (calls : List (Int × Call)) (key : String) :
    (tablesAfter calls key).cooldown = (calls.filterMap (cooldownOf key)).getLast? := by
  induction calls using List.reverseRecOn with
  | nil => rfl
  | append_singleton calls c ih =>
      rw [tablesAfter_concat, List.filterMap_append]
      obtain ⟨time, call⟩ := c
      by_cases hkey : call.key = key
      · subst hkey
        rw [call_self]
        cases call with
        | tempStreak k isOver =>
            refine cooldown_tempStreak.trans (ih.trans ?_)
            rw [List.filterMap_cons_none rfl, List.filterMap_nil, List.append_nil]
        | setCooldown k =>
            have hself : cooldownOf k (time, .setCooldown k) = some time := if_pos rfl
            show some time = (_ ++ List.filterMap (cooldownOf k) [(time, .setCooldown k)]).getLast?
            rw [List.filterMap_cons_some hself, List.filterMap_nil, List.getLast?_concat]
      · have hother : cooldownOf key (time, call) = none := by
          cases call with
          | tempStreak k isOver => rfl
          | setCooldown k => exact if_neg hkey
        rw [call_of_ne hkey, ih, List.filterMap_cons_none hother, List.filterMap_nil, List.append_nil]

theorem cooldownOf_eq_some {time : Int} (h : cooldownOf key c = some time) : time = c.1 := by
  obtain ⟨t, call⟩ := c
  cases call with
  | tempStreak k isOver => cases h
  | setCooldown k =>
      rw [cooldownOf] at h
      split_ifs at h
      exact (Option.some.inj h).symm

/-- At times that do not decrease, a key may alert unless one of its cooldowns is recent. -/
theorem canAlert_iff (hmono : (calls.map Prod.fst).Pairwise (· ≤ ·)) :
    canAlert now (tablesAfter calls key) = true ↔ ¬ InCooldown key now calls := by
  have hsorted : (calls.filterMap (cooldownOf key)).Pairwise (· ≤ ·) := by
    rw [List.pairwise_filterMap]
    refine (List.pairwise_map.mp hmono).imp fun hle t ht t' ht' => ?_
    rw [cooldownOf_eq_some ht, cooldownOf_eq_some ht']
    exact hle
  rw [canAlert, cooldown_tablesAfter, InCooldown]
  generalize calls.filterMap (cooldownOf key) = times at hsorted
  rcases List.eq_nil_or_concat times with rfl | ⟨init, last, rfl⟩
  · simp
  · rw [List.concat_eq_append] at hsorted ⊢
    have hlast : ∀ t ∈ init, t ≤ last := fun t ht => (List.pairwise_append.mp hsorted).2.2 t ht last (by simp)
    rw [List.getLast?_concat]
    rw [Bool.not_eq_true', decide_eq_false_iff_not, cooldownMs]
    simp only [List.mem_append, List.mem_singleton]
    constructor
    · rintro hfree ⟨t, ht | rfl, hlt⟩
      · have hle := hlast t ht
        omega
      · exact hfree hlt
    · exact fun hnone hlt => hnone ⟨last, .inr rfl, hlt⟩

/-- A call of `temp_streak` answers yes exactly when the reading is over the threshold, the key is not in cooldown, and
the current streak of the key is complete. -/
theorem tempStreak_iff (hmono : (calls.map Prod.fst).Pairwise (· ≤ ·)) (isOver : Bool) :
    (tempStreak now isOver (tablesAfter calls key)).1 = true ↔
      isOver = true ∧ ¬ InCooldown key now calls ∧ Complete (streak (⟨now, isOver⟩ :: readings key calls)) := by
  rw [(tracks calls key).answer, canAlert_iff hmono]

/-- Three readings at ten minutes each, between readings of another key. -/
theorem tempStreak_slow : (tempStreak 1201000 true (tablesAfter [(1000, .tempStreak "temp:supply:>=85" true),
    (600000, .tempStreak "temp:return:>=60" false), (601000, .tempStreak "temp:supply:>=85" true),
    (601000, .setCooldown "temp:return:>=60")] "temp:supply:>=85")).1 = true :=
  (tempStreak_iff (by decide) true).mpr ⟨rfl, by decide, by decide⟩

end calls

end ThesadaApp.Rules
