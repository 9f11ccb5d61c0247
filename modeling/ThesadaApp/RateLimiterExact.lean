import Mathlib.Data.List.Induction
import ThesadaApp.RateLimiter

/-!
What the limiter answers over every sequence of calls whose clock does not go back. An answer about a key depends on
the earlier calls of `Allow` for that key alone: those of them that were let through are never more than the maximum
in a window, and nothing else leaves a trace.
-/

namespace ThesadaApp.RateLimit

open SliceHeap SlidingWindow

section calls

inductive Call where
  | allow (key : String) (now : Time)
  | wouldAllow (key : String) (now : Time)
  | sweep (order : Order) (now : Time)

def Call.now : Call → Time
  | .allow _ now | .wouldAllow _ now | .sweep _ now => now

/-- The key a call is about. -/
def Call.key : Call → Option String
  | .allow key _ | .wouldAllow key _ => some key
  | .sweep .. => none

def Call.isAllow : Call → Bool
  | .allow .. => true
  | _ => false

/-- The verdict about a key. A sweep gives none, it counts the keys it deletes. -/
inductive Answer where
  | verdict (allowed : Bool)
  | deleted (n : Nat)
  deriving DecidableEq

def Answer.toOption : Answer → Option Bool
  | .verdict allowed => some allowed
  | .deleted _ => none

variable (extra : Nat → Nat)

def call (l : RateLimiter) : Call → RateLimiter × Answer
  | .allow key now => ((allow extra l now key).1, .verdict (allow extra l now key).2)
  | .wouldAllow key now => (l, .verdict (wouldAllow l now key))
  | .sweep order now => ((sweep extra order l now).1, .deleted (sweep extra order l now).2)

/-- The limiter after some calls. -/
def after (l : RateLimiter) (calls : List Call) : RateLimiter := calls.foldl (fun l c => (call extra l c).1) l

/-- The verdicts of those of some calls that `about` picks. -/
def verdicts (about : Call → Bool) : RateLimiter → List Call → List (Option Bool)
  | _, [] => []
  | l, c :: calls =>
      if about c then (call extra l c).2.toOption :: verdicts about (call extra l c).1 calls
      else verdicts about (call extra l c).1 calls

/-- The time of a call of `Allow` that lets a key through. -/
def allowedNow (key : String) (l : RateLimiter) : Call → List Time
  | .allow k now => if k = key ∧ (allow extra l now k).2 = true then [now] else []
  | _ => []

/-- The times at which `Allow` let a key through. -/
def allowedTimes (key : String) : RateLimiter → List Call → List Time
  | _, [] => []
  | l, c :: calls => allowedNow extra key l c ++ allowedTimes key (call extra l c).1 calls

/-- The clock does not go back. -/
def InOrder (calls : List Call) : Prop := calls.Pairwise fun c c' => c.now ≤ c'.now

end calls

section history

/-- One more call of `Allow`, let through while fewer than the maximum are recent. -/
def grant (window : Time) (max : Nat) (hits : List Time) (now : Time) : List Time :=
  if recent window id now hits < max then hits ++ [now] else hits

/-- The calls of `Allow` for one key that are let through, by the times of all of them. -/
def admitted (window : Time) (max : Nat) (times : List Time) : List Time := times.foldl (grant window max) []

/-- The time of a call of `Allow` for a key. -/
def allowTime (key : String) : Call → Option Time
  | .allow k now => if k = key then some now else none
  | _ => none

/-- The times of the calls of `Allow` for a key. -/
def allowTimes (key : String) (calls : List Call) : List Time := calls.filterMap (allowTime key)

/-- What a call is answered after the earlier ones. -/
def expected (window : Time) (max : Nat) (past : List Call) (c : Call) : Option Bool :=
  c.key.map fun key => decide (recent window id c.now (admitted window max (allowTimes key past)) < max)

variable {window now : Time} {max : Nat} {times : List Time} {past past' : List Call} {key : String} {c : Call}

theorem admitted_snoc : admitted window max (times ++ [now]) = grant window max (admitted window max times) now := by
  rw [admitted, List.foldl_append]
  rfl

/-- What is let through is never more than the maximum in a window. -/
theorem capped_admitted (times : List Time) : Capped window id max (admitted window max times) := by
  induction times using List.reverseRecOn with
  | nil => exact capped_nil
  | append_singleton times now ih =>
      rw [admitted_snoc, grant]
      split_ifs with hroom
      · exact ih.snoc hroom
      · exact ih

theorem allowTimes_snoc : allowTimes key (past ++ [c]) = allowTimes key past ++ allowTimes key [c] :=
  List.filterMap_append

theorem allowTimes_self : allowTimes key [.allow key now] = [now] := by
  simp [allowTimes, allowTime]

theorem allowTimes_other {k : String} (hk : k ≠ key) : allowTimes key [.allow k now] = [] := by
  simp [allowTimes, allowTime, hk]

/-- A call that is no `Allow` for a key leaves no trace of it. -/
theorem allowTimes_quiet (hc : c.key ≠ some key ∨ c.isAllow = false) :
    allowTimes key (past ++ [c]) = allowTimes key past := by
  rw [allowTimes_snoc]
  cases c with
  | allow k now =>
      rcases hc with hk | hno
      · rw [allowTimes_other fun heq => hk (congrArg some heq), List.append_nil]
      · cases hno
  | wouldAllow k now => exact List.append_nil _
  | sweep order now => exact List.append_nil _

theorem expected_congr (h : ∀ key, c.key = some key → allowTimes key past = allowTimes key past') :
    expected window max past c = expected window max past' c := by
  unfold expected
  cases hkey : c.key with
  | none => rfl
  | some key => rw [Option.map_some, Option.map_some, h key hkey]

end history

section runs

variable {extra : Nat → Nat} {window clock clock' now : Time} {max : Int} {past past' calls : List Call}
  {l l' : RateLimiter} {key : String} {c : Call}

/-- A limiter that has come, up to a point in time, through the calls that are past. -/
def Follows (window : Time) (max : Int) (past : List Call) (clock : Time) (l : RateLimiter) : Prop :=
  ∃ a, Refines l a ∧ a.Keeps window max.toNat (fun key => admitted window max.toNat (allowTimes key past)) clock

theorem follows_new (clock : Time) : Follows window max [] clock (new window max) :=
  ⟨_, refines_new window max, rfl, rfl, fun _ _ _ => rfl⟩

theorem Follows.later (h : Follows window max past clock l) (hclock : clock ≤ clock') :
    Follows window max past clock' l := by
  obtain ⟨a, href, hkeeps⟩ := h
  exact ⟨a, href, hkeeps.later hclock⟩

theorem Follows.wouldAllow (h : Follows window max past clock l) (hnow : clock ≤ now) :
    RateLimit.wouldAllow l now key =
      decide (recent window id now (admitted window max.toNat (allowTimes key past)) < max.toNat) := by
  obtain ⟨a, href, hkeeps⟩ := h
  rw [href.wouldAllow, hkeeps.wouldAllow hnow]

/-- `Allow` answers from the hits that it let through, and adds its own to them if it lets it through. -/
theorem Follows.allow (extra : Nat → Nat) (h : Follows window max past clock l) (hnow : clock ≤ now) :
    (RateLimit.allow extra l now key).2 =
        decide (recent window id now (admitted window max.toNat (allowTimes key past)) < max.toNat) ∧
      Follows window max (past ++ [.allow key now]) now (RateLimit.allow extra l now key).1 := by
  obtain ⟨a, href, hkeeps⟩ := h
  obtain ⟨hanswer, hnext⟩ := href.allow extra now key
  have htimes : (fun k => admitted window max.toNat (allowTimes k (past ++ [.allow key now]))) =
      Function.update (fun k => admitted window max.toNat (allowTimes k past)) key
        (grant window max.toNat (admitted window max.toNat (allowTimes key past)) now) := by
    funext k
    by_cases hk : k = key
    · rw [hk, Function.update_self, allowTimes_snoc, allowTimes_self, admitted_snoc]
    · rw [Function.update_of_ne hk, allowTimes_snoc, allowTimes_other (Ne.symm hk), List.append_nil]
  by_cases hroom : recent window id now (admitted window max.toNat (allowTimes key past)) < max.toNat
  · obtain ⟨a', ha', hkeeps'⟩ := hkeeps.granted hnow hroom
    rw [ha'] at hanswer hnext
    refine ⟨hanswer.trans (decide_eq_true hroom).symm, a', hnext, ?_⟩
    rw [htimes, grant, if_pos hroom]
    exact hkeeps'
  · obtain ⟨a', ha', hkeeps'⟩ := hkeeps.refused hnow (Nat.not_lt.mp hroom)
    rw [ha'] at hanswer hnext
    refine ⟨hanswer.trans (decide_eq_false hroom).symm, a', hnext, ?_⟩
    rw [htimes, grant, if_neg hroom, Function.update_eq_self]
    exact hkeeps'

/-- A call that is no `Allow` leaves the past as it was. -/
theorem Follows.quiet (h : Follows window max past clock l) (hc : c.isAllow = false) :
    Follows window max (past ++ [c]) clock l := by
  obtain ⟨a, href, hkeeps⟩ := h
  refine ⟨a, href, ?_⟩
  have htimes : (fun k => admitted window max.toNat (allowTimes k (past ++ [c]))) =
      fun k => admitted window max.toNat (allowTimes k past) :=
    funext fun k => by rw [allowTimes_quiet (.inr hc)]
  rw [htimes]
  exact hkeeps

/-- One call: its answer is the expected one, and the limiter goes on. -/
theorem Follows.call (extra : Nat → Nat) (h : Follows window max past clock l) (hnow : clock ≤ c.now) :
    (RateLimit.call extra l c).2.toOption = expected window max.toNat past c ∧
      Follows window max (past ++ [c]) c.now (RateLimit.call extra l c).1 := by
  cases c with
  | allow key now =>
      obtain ⟨hanswer, hnext⟩ := h.allow extra hnow
      exact ⟨congrArg some hanswer, hnext⟩
  | wouldAllow key now =>
      exact ⟨congrArg some (h.wouldAllow hnow), (h.quiet rfl).later hnow⟩
  | sweep order now =>
      refine ⟨rfl, ?_⟩
      have hswept : Follows window max past now (RateLimit.sweep extra order l now).1 := by
        obtain ⟨a, href, hkeeps⟩ := h
        exact ⟨a.sweep now, href.sweep order, hkeeps.sweep hnow⟩
      exact hswept.quiet rfl

/-- A sequence of calls leaves a limiter that has come through all of them. -/
theorem Follows.after (h : Follows window max past clock l) (hcalls : InOrder calls)
    (hclock : ∀ c ∈ calls, clock ≤ c.now) (hnow : clock ≤ now) (hlast : ∀ c ∈ calls, c.now ≤ now) :
    Follows window max (past ++ calls) now (RateLimit.after extra l calls) := by
  induction calls generalizing past l clock with
  | nil =>
      rw [List.append_nil]
      exact h.later hnow
  | cons c calls ih =>
      obtain ⟨hfirst, hrest⟩ := List.pairwise_cons.mp hcalls
      have hnext := (h.call extra (hclock c List.mem_cons_self)).2
      have hall := ih hnext hrest hfirst (hlast c List.mem_cons_self)
        fun c' hc' => hlast c' (List.mem_cons_of_mem c hc')
      rwa [List.append_assoc] at hall

/-- Two limiters whose pasts agree about some calls give those calls the same verdicts. -/
theorem verdicts_congr {about : Call → Bool} (h : Follows window max past clock l)
    (h' : Follows window max past' clock l') (hcalls : InOrder calls) (hclock : ∀ c ∈ calls, clock ≤ c.now)
    (hagree : ∀ c key, about c = true → c.key = some key → allowTimes key past = allowTimes key past') :
    verdicts extra about l calls = verdicts extra about l' calls := by
  induction calls generalizing past past' l l' clock with
  | nil => rfl
  | cons c calls ih =>
      obtain ⟨hfirst, hrest⟩ := List.pairwise_cons.mp hcalls
      obtain ⟨hanswer, hnext⟩ := h.call extra (hclock c List.mem_cons_self)
      obtain ⟨hanswer', hnext'⟩ := h'.call extra (hclock c List.mem_cons_self)
      have hlater := ih hnext hnext' hrest hfirst fun c' key hc' hkey => by
        rw [allowTimes_snoc, allowTimes_snoc, hagree c' key hc' hkey]
      rw [verdicts, verdicts, hlater]
      split_ifs with habout
      · rw [hanswer, hanswer', expected_congr fun key => hagree c key habout]
      · rfl

/-- One call is let through if it is admitted. -/
theorem allowedNow_eq (h : Follows window max past clock l) (hnow : clock ≤ c.now) :
    admitted window max.toNat (allowTimes key past) ++ allowedNow extra key l c =
      admitted window max.toNat (allowTimes key (past ++ [c])) := by
  cases c with
  | allow k now =>
      by_cases hk : k = key
      · subst hk
        have hanswer : (RateLimit.allow extra l now k).2 =
            decide (recent window id now (admitted window max.toNat (allowTimes k past)) < max.toNat) :=
          (h.allow extra hnow).1
        rw [allowTimes_snoc, allowTimes_self, admitted_snoc, grant, allowedNow, hanswer]
        simp only [true_and, decide_eq_true_eq]
        split_ifs with hroom
        · rfl
        · exact List.append_nil _
      · rw [allowTimes_snoc, allowTimes_other hk, List.append_nil, allowedNow, if_neg fun hboth => hk hboth.1,
          List.append_nil]
  | wouldAllow k now =>
      rw [allowTimes_quiet (.inr rfl)]
      exact List.append_nil _
  | sweep order now =>
      rw [allowTimes_quiet (.inr rfl)]
      exact List.append_nil _

/-- The calls that are let through are those admitted. -/
theorem allowedTimes_eq (h : Follows window max past clock l) (hcalls : InOrder calls)
    (hclock : ∀ c ∈ calls, clock ≤ c.now) :
    admitted window max.toNat (allowTimes key past) ++ allowedTimes extra key l calls =
      admitted window max.toNat (allowTimes key (past ++ calls)) := by
  induction calls generalizing past l clock with
  | nil => rw [allowedTimes, List.append_nil, List.append_nil]
  | cons c calls ih =>
      obtain ⟨hfirst, hrest⟩ := List.pairwise_cons.mp hcalls
      have hnow : clock ≤ c.now := hclock c List.mem_cons_self
      have hall := ih (h.call extra hnow).2 hrest hfirst
      rw [List.append_assoc, List.singleton_append] at hall
      rw [allowedTimes, ← List.append_assoc, allowedNow_eq h hnow, hall]

theorem InOrder.exists_clock (h : InOrder calls) : ∃ clock, ∀ c ∈ calls, clock ≤ c.now := by
  cases calls with
  | nil => exact ⟨0, fun c hc => absurd hc List.not_mem_nil⟩
  | cons c calls =>
      refine ⟨c.now, fun c' hc' => ?_⟩
      obtain heq | hmem := List.mem_cons.mp hc'
      · exact le_of_eq (congrArg Call.now heq).symm
      · exact (List.pairwise_cons.mp h).1 c' hmem

theorem follows_after (h : InOrder calls) (hlast : ∀ c ∈ calls, c.now ≤ now) :
    Follows window max calls now (after extra (new window max) calls) := by
  obtain ⟨clock, hclock⟩ := h.exists_clock
  have hfirst : ∀ c ∈ calls, min clock now ≤ c.now := fun c hc => (min_le_left clock now).trans (hclock c hc)
  exact (follows_new (min clock now)).after h hfirst (min_le_right clock now) hlast

theorem capped_allowedTimes (h : InOrder calls) :
    Capped window id max.toNat (allowedTimes extra key (new window max) calls) := by
  obtain ⟨clock, hclock⟩ := h.exists_clock
  have hall : admitted window max.toNat (allowTimes key []) ++ allowedTimes extra key (new window max) calls =
      admitted window max.toNat (allowTimes key ([] ++ calls)) := allowedTimes_eq (follows_new clock) h hclock
  rw [show admitted window max.toNat (allowTimes key []) = [] from rfl, List.nil_append] at hall
  rw [hall]
  exact capped_admitted _

variable {later : List Call}

/-- A call changes no later verdict about a key unless it is an `Allow` for it. -/
theorem verdicts_call {about : Call → Bool} (h : InOrder (calls ++ c :: later))
    (hquiet : ∀ c' key, about c' = true → c'.key = some key → c.key ≠ some key ∨ c.isAllow = false) :
    verdicts extra about (call extra (after extra (new window max) calls) c).1 later =
      verdicts extra about (after extra (new window max) calls) later := by
  obtain ⟨hbefore, hrest, hcross⟩ := List.pairwise_append.mp h
  obtain ⟨hfirst, hlater⟩ := List.pairwise_cons.mp hrest
  have hpast : Follows window max calls c.now (after extra (new window max) calls) :=
    follows_after hbefore fun c' hc' => hcross c' hc' c List.mem_cons_self
  have hcall := (hpast.call extra le_rfl).2
  refine verdicts_congr hcall hpast hlater hfirst fun c' key hc' hkey => ?_
  exact allowTimes_quiet (hquiet c' key hc' hkey)

end runs

section exact

/-- In every window each key is let through at most as often as the maximum says; `WouldAllow` answers what `Allow`
would and, like a sweep, changes no later verdict; and a call that is not about a key changes no later verdict about
it. The number a sweep returns is no verdict. A negative maximum lets nothing through. -/
theorem limiter_exact (extra : Nat → Nat) (window : Time) (max : Int) (calls : List Call) (h : InOrder calls) :
    (∀ key start,
      (allowedTimes extra key (new window max) calls).countP (fun t => start < t && t ≤ start + window) ≤ max.toNat ∧
      (allowedTimes extra key (new window max) calls).countP (fun t => start ≤ t && t < start + window) ≤ max.toNat) ∧
    (∀ key now, (∀ c ∈ calls, c.now ≤ now) →
      wouldAllow (after extra (new window max) calls) now key =
        (allow extra (after extra (new window max) calls) now key).2) ∧
    (∀ c later, InOrder (calls ++ c :: later) → c.isAllow = false →
      verdicts extra (fun _ => true) (call extra (after extra (new window max) calls) c).1 later =
        verdicts extra (fun _ => true) (after extra (new window max) calls) later) ∧
    ∀ c later key, InOrder (calls ++ c :: later) → c.key ≠ some key →
      verdicts extra (fun c' => c'.key = some key) (call extra (after extra (new window max) calls) c).1 later =
        verdicts extra (fun c' => c'.key = some key) (after extra (new window max) calls) later := by
  have hcap (key : String) : Capped window id max.toNat (allowedTimes extra key (new window max) calls) :=
    capped_allowedTimes h
  refine ⟨fun key start => ⟨(hcap key).afterStart start, (hcap key).fromStart start⟩, ?_, ?_, ?_⟩
  · intro key now hlast
    have hpast : Follows window max calls now (after extra (new window max) calls) := follows_after h hlast
    rw [hpast.wouldAllow le_rfl, (hpast.allow extra le_rfl).1]
  · intro c later horder hquiet
    exact verdicts_call horder fun c' key hc' hkey => .inr hquiet
  · intro c later key horder hkey
    refine verdicts_call horder fun c' key' hc' hkey' => .inl fun heq => hkey ?_
    rw [heq, ← hkey', of_decide_eq_true hc']

/-- One hit a minute, and a refused one. -/
theorem limiter_exact_minute :
    let extra : Nat → Nat := fun _ => 0
    let calls : List Call := [.allow "a" 0, .allow "a" 30]
    let l := after extra (new 60 1) calls
    (allowedTimes extra "a" (new 60 1) calls).countP (fun t => 0 ≤ t && t < 60) ≤ 1 ∧
    wouldAllow l 60 "a" = (allow extra l 60 "a").2 ∧
    verdicts extra (fun _ => true) (call extra l (.sweep ⟨id, .refl⟩ 60)).1 [.allow "a" 60] =
      verdicts extra (fun _ => true) l [.allow "a" 60] ∧
    verdicts extra (fun c => c.key = some "a") (call extra l (.allow "b" 60)).1 [.allow "a" 60] =
      verdicts extra (fun c => c.key = some "a") l [.allow "a" 60] := by
  obtain ⟨hcap, hwould, hquiet, hother⟩ := limiter_exact (fun _ => 0) 60 1 [.allow "a" 0, .allow "a" 30]
    (by simp [InOrder, Call.now])
  refine ⟨(hcap "a" 0).2, hwould "a" 60 (by simp [Call.now]), hquiet _ _ ?_ rfl, hother _ _ _ ?_ (by simp [Call.key])⟩
  · simp [InOrder, Call.now]
  · simp [InOrder, Call.now]

end exact

end ThesadaApp.RateLimit
