import ThesadaApp.MailCapped
import ThesadaApp.SliceHeap

/-!
The sliding-window limiter with the slices it keeps its hits in: each call prunes the slice of its key in place, and
the sweep does so for every key and drops those without hits. It answers like the limiter that keeps lists.
-/

namespace ThesadaApp.RateLimit

open SliceHeap

section model

/-- A map from strings to slices, by its keys. What is read at any other key is the nil slice. -/
structure Hits where
  keys : List String
  slice : String → Slice

def Hits.set (m : Hits) (key : String) (s : Slice) : Hits where
  keys := if key ∈ m.keys then m.keys else m.keys ++ [key]
  slice := Function.update m.slice key s

def Hits.delete (m : Hits) (key : String) : Hits where
  keys := m.keys.filter fun k => k ≠ key
  slice := Function.update m.slice key .nil

/-- The `Limiter` of the source, and the memory of its slices. -/
structure RateLimiter where
  window : Time
  max : Int
  heap : Heap Time
  hits : Hits

/-- `New`. -/
def new (window : Time) (max : Int) : RateLimiter := ⟨window, max, [], ⟨[], fun _ => .nil⟩⟩

/-- `WouldAllow`. -/
def wouldAllow (l : RateLimiter) (now : Time) (key : String) : Bool :=
  let cutoff := now - l.window
  let n : Nat := (view l.heap (l.hits.slice key)).foldl (fun n t => if cutoff < t then n + 1 else n) 0
  (n : Int) < l.max

variable (extra : Nat → Nat)

/-- `Allow`. -/
def allow (l : RateLimiter) (now : Time) (key : String) : RateLimiter × Bool :=
  let cutoff := now - l.window
  let kept := filterInPlace extra 0 (fun t => cutoff < t) l.heap (l.hits.slice key)
  if l.max ≤ kept.2.len then ({ l with heap := kept.1, hits := l.hits.set key kept.2 }, false)
  else
    let grown := append extra 0 kept.1 kept.2 now
    ({ l with heap := grown.1, hits := l.hits.set key grown.2 }, true)

/-- The turn of a key in a sweep, and how many keys were deleted so far. -/
def sweepKey (cutoff : Time) (x : RateLimiter × Nat) (key : String) : RateLimiter × Nat :=
  let kept := filterInPlace extra 0 (fun t => cutoff < t) x.1.heap (x.1.hits.slice key)
  if kept.2.len = 0 then ({ x.1 with heap := kept.1, hits := x.1.hits.delete key }, x.2 + 1)
  else ({ x.1 with heap := kept.1, hits := x.1.hits.set key kept.2 }, x.2)

/-- An order in which the keys of a map are iterated. -/
structure Order where
  keys : List String → List String
  perm (ks : List String) : (keys ks).Perm ks

/-- `sweep`. -/
def sweep (order : Order) (l : RateLimiter) (now : Time) : RateLimiter × Nat :=
  (order.keys l.hits.keys).foldl (sweepKey extra (now - l.window)) (l, 0)

end model

section refinement

/-- A limiter over slices that stands for one over lists: no two keys share memory, and a key that is not in the map
has no hits. -/
structure Refines (l : RateLimiter) (a : Limiter) : Prop where
  window : a.window = l.window
  max : a.max = l.max.toNat
  hits : (fun key => view l.heap (l.hits.slice key)) = a.hits
  owned : Owned l.heap l.hits.slice
  absent : ∀ key, key ∉ l.hits.keys → a.hits key = []

variable {extra : Nat → Nat} {l : RateLimiter} {a : Limiter} {now cutoff : Time} {key : String}

theorem refines_new (window : Time) (max : Int) : Refines (new window max) ⟨window, max.toNat, fun _ => []⟩ where
  window := rfl
  max := rfl
  hits := funext fun _ => view_of_len_zero rfl
  owned := ⟨fun _ => valid_nil, fun _ _ _ => apart_nil⟩
  absent _ _ := rfl

theorem mem_keys_set {m : Hits} {s : Slice} {k : String} : k ∈ (m.set key s).keys ↔ k ∈ m.keys ∨ k = key := by
  unfold Hits.set
  dsimp only
  split_ifs with hkey
  · exact ⟨.inl, fun h => h.elim id fun heq => heq ▸ hkey⟩
  · rw [List.mem_append, List.mem_singleton]

/-- The slice of a key is replaced by one with other hits. -/
theorem Refines.set (h : Refines l a) {heap : Heap Time} {s : Slice} {new : List Time}
    (hs : Replaces l.heap heap (l.hits.slice key) s) (hview : view heap s = new) :
    Refines { l with heap := heap, hits := l.hits.set key s } { a with hits := Function.update a.hits key new } where
  window := h.window
  max := h.max
  hits := by rw [← h.hits, ← hview]; exact h.owned.view_update hs
  owned := h.owned.update hs
  absent k hk := by
    rw [mem_keys_set, not_or] at hk
    show Function.update a.hits key new k = []
    rw [Function.update_of_ne hk.2]
    exact h.absent k hk.1

/-- A key without hits is deleted. -/
theorem Refines.delete (h : Refines l a) {heap : Heap Time} {s : Slice}
    (hs : Replaces l.heap heap (l.hits.slice key) s) :
    Refines { l with heap := heap, hits := l.hits.delete key } { a with hits := Function.update a.hits key [] } where
  window := h.window
  max := h.max
  hits := by
    have hview := h.owned.view_update hs.nil
    rw [h.hits, view_of_len_zero (s := .nil) rfl] at hview
    exact hview
  owned := h.owned.update hs.nil
  absent k hk := by
    show Function.update a.hits key [] k = []
    by_cases hne : k = key
    · rw [hne, Function.update_self]
    · rw [Function.update_of_ne hne]
      refine h.absent k fun hmem => hk ?_
      exact List.mem_filter.mpr ⟨hmem, decide_eq_true hne⟩

theorem Refines.kept (h : Refines l a) (extra : Nat → Nat) (cutoff : Time) (key : String) :
    Replaces l.heap (filterInPlace extra 0 (fun t => decide (cutoff < t)) l.heap (l.hits.slice key)).1
        (l.hits.slice key) (filterInPlace extra 0 (fun t => decide (cutoff < t)) l.heap (l.hits.slice key)).2 ∧
      view (filterInPlace extra 0 (fun t => decide (cutoff < t)) l.heap (l.hits.slice key)).1
        (filterInPlace extra 0 (fun t => decide (cutoff < t)) l.heap (l.hits.slice key)).2 =
          (a.hits key).filter fun t => cutoff < t := by
  have hvalid := h.owned.valid key
  exact ⟨replaces_filterInPlace hvalid, by rw [view_filterInPlace hvalid, ← h.hits]⟩

theorem foldl_count (p : Time → Bool) (ts : List Time) (n : Nat) :
    ts.foldl (fun n t => if p t then n + 1 else n) n = n + (ts.filter p).length := by
  induction ts generalizing n with
  | nil => rfl
  | cons t ts ih =>
      rw [List.foldl_cons, ih]
      by_cases ht : p t = true
      · rw [if_pos ht, List.filter_cons_of_pos ht, List.length_cons]
        omega
      · rw [if_neg ht, List.filter_cons_of_neg ht]

theorem Refines.wouldAllow (h : Refines l a) : RateLimit.wouldAllow l now key = a.wouldAllow now key := by
  have hcount := foldl_count (fun t => decide (now - a.window < t)) (a.hits key) 0
  simp only [decide_eq_true_eq, Nat.zero_add] at hcount
  have hview : view l.heap (l.hits.slice key) = a.hits key := by rw [← h.hits]
  rw [RateLimit.wouldAllow, hview, ← h.window, hcount, Limiter.wouldAllow, h.max]
  exact decide_eq_decide.mpr (by omega)

/-- A call of `Allow` answers as the limiter over lists does, and leaves a limiter that stands for what that one is
left as. -/
theorem Refines.allow (h : Refines l a) (extra : Nat → Nat) (now : Time) (key : String) :
    (RateLimit.allow extra l now key).2 = (a.allow now key).2 ∧
      Refines (RateLimit.allow extra l now key).1 (a.allow now key).1 := by
  obtain ⟨hkept, hview⟩ := h.kept extra (now - l.window) key
  have hlength := hkept.valid.length_view
  rw [hview] at hlength
  have hfull : l.max ≤ (filterInPlace extra 0 (fun t => decide (now - l.window < t)) l.heap
      (l.hits.slice key)).2.len ↔ a.max ≤ ((a.hits key).filter fun t => now - a.window < t).length := by
    rw [← hlength, h.max, h.window]
    omega
  rw [RateLimit.allow, Limiter.allow]
  dsimp only
  by_cases hroom : a.max ≤ ((a.hits key).filter fun t => now - a.window < t).length
  · rw [if_pos (hfull.mpr hroom), if_pos hroom]
    refine ⟨rfl, h.set hkept ?_⟩
    rw [hview, h.window]
  · rw [if_neg (mt hfull.mp hroom), if_neg hroom]
    refine ⟨rfl, h.set (hkept.trans (replaces_append hkept.valid)) ?_⟩
    rw [(append_spec hkept.valid).1, hview, h.window]

variable {x : RateLimiter × Nat}

/-- The turn of a key forgets what is not recent of it. -/
theorem Refines.sweepKey (h : Refines x.1 a) (extra : Nat → Nat) (cutoff : Time) (key : String) :
    Refines (RateLimit.sweepKey extra cutoff x key).1
      { a with hits := Function.update a.hits key ((a.hits key).filter fun t => cutoff < t) } := by
  obtain ⟨hkept, hview⟩ := h.kept extra cutoff key
  have hlength := hkept.valid.length_view
  rw [hview] at hlength
  rw [RateLimit.sweepKey]
  dsimp only
  split_ifs with hempty
  · have hnone : ((a.hits key).filter fun t => cutoff < t) = [] := List.length_eq_zero_iff.mp (hlength.trans hempty)
    rw [hnone]
    exact h.delete hkept
  · exact h.set hkept hview

/-- What is left of the hits after the turns of some keys. -/
def trimmed (hits : String → List Time) (cutoff : Time) (keys : List String) (key : String) : List Time :=
  if key ∈ keys then (hits key).filter fun t => cutoff < t else hits key

theorem trimmed_cons (hits : String → List Time) (keys : List String) :
    trimmed (Function.update hits key ((hits key).filter fun t => cutoff < t)) cutoff keys =
      trimmed hits cutoff (key :: keys) := by
  funext k
  unfold trimmed
  by_cases hk : k = key
  · subst hk
    rw [Function.update_self, if_pos List.mem_cons_self, List.filter_filter]
    simp only [Bool.and_self, ite_self]
  · rw [Function.update_of_ne hk]
    simp only [List.mem_cons, hk, false_or]

theorem Refines.sweepKeys (h : Refines x.1 a) (extra : Nat → Nat) (cutoff : Time) (keys : List String) :
    Refines (keys.foldl (RateLimit.sweepKey extra cutoff) x).1 { a with hits := trimmed a.hits cutoff keys } := by
  induction keys generalizing x a with
  | nil => exact h
  | cons key keys ih =>
      have hstep := ih (h.sweepKey extra cutoff key)
      rw [trimmed_cons] at hstep
      exact hstep

/-- A sweep does in whatever order what the limiter over lists does. -/
theorem Refines.sweep (h : Refines l a) (order : Order) :
    Refines (RateLimit.sweep extra order l now).1 (a.sweep now) := by
  have hall : trimmed a.hits (now - l.window) (order.keys l.hits.keys) = (a.sweep now).hits := by
    funext key
    unfold trimmed Limiter.sweep
    rw [h.window]
    split_ifs with hkey
    · rfl
    · have hnone := h.absent key fun hmem => hkey ((order.perm _).mem_iff.mpr hmem)
      show a.hits key = (a.hits key).filter _
      rw [hnone, List.filter_nil]
  have hsweep := h.sweepKeys extra (now - l.window) (x := (l, 0)) (order.keys l.hits.keys)
  rw [hall] at hsweep
  exact hsweep

end refinement

end ThesadaApp.RateLimit
