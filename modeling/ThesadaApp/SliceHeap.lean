import Mathlib.Data.List.GetD
import Mathlib.Logic.Function.Basic
import Mathlib.Tactic.Common

/-!
Slices over backing arrays that they may share. A slice has the first elements of an array and the room of the array
to grow into; appending writes there, or to a new array. Filtering a slice into itself writes only where it has read,
and slices of other arrays do not notice either.
-/

namespace SliceHeap

variable {α : Type*}

/-- The backing arrays by their number, each with all of its room. -/
abbrev Heap (α : Type*) := List (List α)

structure Slice where
  array : Nat
  len : Nat
  cap : Nat
  deriving DecidableEq, Repr

/-- The slice without an array. -/
def Slice.nil : Slice := ⟨0, 0, 0⟩

/-- `s[:0]`. -/
def Slice.emptied (s : Slice) : Slice := { s with len := 0 }

def contents (h : Heap α) (a : Nat) : List α := h.getD a []

/-- The elements of a slice. -/
def view (h : Heap α) (s : Slice) : List α := (contents h s.array).take s.len

def write (h : Heap α) (a i : Nat) (x : α) : Heap α := h.modify a (·.set i x)

/-- `append`. How much a new array is longer than it must be is up to the allocator, which fills it with `z`. -/
def append (extra : Nat → Nat) (z : α) (h : Heap α) (s : Slice) (x : α) : Heap α × Slice :=
  if s.len < s.cap then (write h s.array s.len x, { s with len := s.len + 1 })
  else
    (h ++ [view h s ++ x :: List.replicate (extra s.len) z], ⟨h.length, s.len + 1, s.len + 1 + extra s.len⟩)

/-- The loop over `n` elements of a slice from the `i`-th on that appends those of interest to `kept`. -/
def filterLoop (extra : Nat → Nat) (z : α) (p : α → Bool) (s : Slice) :
    Nat → Nat → Heap α → Slice → Heap α × Slice
  | 0, _, h, kept => (h, kept)
  | n + 1, i, h, kept =>
      match (contents h s.array)[i]? with
      | none => (h, kept)
      | some x =>
          if p x then
            let r := append extra z h kept x
            filterLoop extra z p s n (i + 1) r.1 r.2
          else filterLoop extra z p s n (i + 1) h kept

/-- `kept := s[:0]`, and the elements of interest of `s` appended to it. -/
def filterInPlace (extra : Nat → Nat) (z : α) (p : α → Bool) (h : Heap α) (s : Slice) : Heap α × Slice :=
  filterLoop extra z p s s.len 0 h s.emptied

/-- A slice stays within its array. -/
structure Valid (h : Heap α) (s : Slice) : Prop where
  len_le : s.len ≤ s.cap
  cap_le : s.cap ≤ (contents h s.array).length

/-- Two slices that share no element of an array. -/
def Apart (s t : Slice) : Prop := s.cap = 0 ∨ t.cap = 0 ∨ s.array ≠ t.array

section arrays

variable {h : Heap α} {s t : Slice} {x : α} {a b i : Nat}

theorem Apart.symm (hst : Apart s t) : Apart t s := by
  rcases hst with hs | ht | hne
  · exact .inr (.inl hs)
  · exact .inl ht
  · exact .inr (.inr hne.symm)

theorem valid_nil : Valid h .nil := ⟨Nat.le_refl 0, Nat.zero_le _⟩

theorem apart_nil : Apart s .nil := .inr (.inl rfl)

theorem view_of_len_zero (hs : s.len = 0) : view h s = [] := by
  rw [view, hs, List.take_zero]

theorem Valid.length_view (hs : Valid h s) : (view h s).length = s.len := by
  rw [view, List.length_take]
  exact Nat.min_eq_left (Nat.le_trans hs.len_le hs.cap_le)

/-- A slice with room has an array. -/
theorem Valid.array_lt (hs : Valid h s) (hcap : 0 < s.cap) : s.array < h.length := by
  by_contra hle
  have hnone : contents h s.array = [] := List.getD_eq_default _ _ (Nat.not_lt.mp hle)
  have hroom := hs.cap_le
  rw [hnone, List.length_nil] at hroom
  omega

theorem contents_write : contents (write h a i x) b =
    if a = b then (contents h b).set i x else contents h b := by
  simp only [contents, write, List.getD_eq_getElem?_getD, List.getElem?_modify]
  cases h[b]? with
  | none => split_ifs <;> rfl
  | some l => split_ifs <;> rfl

theorem contents_snoc {l : List α} (hb : b < h.length) : contents (h ++ [l]) b = contents h b := by
  rw [contents, List.getD_append _ _ _ _ hb, contents]

end arrays

/-- The slices that an operation on other arrays leaves as they are. -/
structure Kept (h h' : Heap α) (t : Slice) : Prop where
  view : view h' t = view h t
  valid : Valid h' t

section appending

variable {extra : Nat → Nat} {z x : α} {h : Heap α} {s t : Slice}

theorem kept_of_contents {h' : Heap α} (ht : Valid h t) (hsame : contents h' t.array = contents h t.array) :
    Kept h h' t where
  view := by rw [view, hsame, view]
  valid := ⟨ht.len_le, by rw [hsame]; exact ht.cap_le⟩

theorem kept_of_cap_zero {h' : Heap α} (ht : Valid h t) (hcap : t.cap = 0) : Kept h h' t where
  view := by
    have hlen : t.len = 0 := Nat.le_zero.mp (hcap ▸ ht.len_le)
    rw [view_of_len_zero hlen, view_of_len_zero hlen]
  valid := ⟨ht.len_le, by rw [hcap]; exact Nat.zero_le _⟩

/-- Appending adds one element at the end. -/
theorem append_spec (hs : Valid h s) :
    view (append extra z h s x).1 (append extra z h s x).2 = view h s ++ [x] ∧
      Valid (append extra z h s x).1 (append extra z h s x).2 := by
  unfold append
  split_ifs with hroom
  · have hlen : s.len < (contents h s.array).length := Nat.lt_of_lt_of_le hroom hs.cap_le
    have hcontents : contents (write h s.array s.len x) s.array = (contents h s.array).set s.len x := by
      rw [contents_write, if_pos rfl]
    constructor
    · have hset : s.len < ((contents h s.array).set s.len x).length := by
        rw [List.length_set]
        exact hlen
      calc view (write h s.array s.len x) { s with len := s.len + 1 }
          = ((contents h s.array).set s.len x).take (s.len + 1) := by rw [view, hcontents]
        _ = ((contents h s.array).set s.len x).take s.len ++ [x] := by
            rw [List.take_succ_eq_append_getElem hset, List.getElem_set_self]
        _ = view h s ++ [x] := by rw [List.take_set_of_le (Nat.le_refl _), view]
    · exact ⟨hroom, by rw [hcontents, List.length_set]; exact hs.cap_le⟩
  · have hcontents : contents (h ++ [view h s ++ x :: List.replicate (extra s.len) z]) h.length =
        view h s ++ x :: List.replicate (extra s.len) z := by
      rw [contents, List.getD_append_right _ _ _ _ (Nat.le_refl _), Nat.sub_self]
      rfl
    have hlength := hs.length_view
    constructor
    · rw [view, hcontents]
      show List.take (s.len + 1) _ = _
      rw [← hlength, List.take_length_add_append]
      rfl
    · refine ⟨Nat.le_add_right _ _, ?_⟩
      rw [hcontents, List.length_append, List.length_cons, List.length_replicate, hlength]
      show s.len + 1 + extra s.len ≤ _
      omega

/-- Appending is not noticed by slices of other arrays, which the result does not touch either. -/
theorem append_apart (ht : Valid h t) (hst : Apart s t) :
    Kept h (append extra z h s x).1 t ∧ Apart (append extra z h s x).2 t := by
  rcases Nat.eq_zero_or_pos t.cap with hcap | hcap
  · exact ⟨kept_of_cap_zero ht hcap, .inr (.inl hcap)⟩
  have hlt := ht.array_lt hcap
  unfold append
  split_ifs with hroom
  · have hne : s.array ≠ t.array := by
      rcases hst with hs0 | ht0 | hne
      · omega
      · omega
      · exact hne
    exact ⟨kept_of_contents ht (by rw [contents_write, if_neg hne]), .inr (.inr hne)⟩
  · exact ⟨kept_of_contents ht (contents_snoc hlt), .inr (.inr (Nat.ne_of_gt hlt))⟩

end appending

section filtering

variable {extra : Nat → Nat} {z x : α} {p : α → Bool} {h h₀ : Heap α} {s t kept : Slice} {i n : Nat}

/-- A filtering that has read the first `i` elements: those of interest stand at the beginning of the array, and the
rest of it is as it was. -/
structure Filtering (p : α → Bool) (h₀ : Heap α) (s : Slice) (i : Nat) (h : Heap α) (kept : Slice) : Prop where
  array : kept.array = s.array
  cap : kept.cap = s.cap
  len_le : kept.len ≤ i
  front : (contents h s.array).take kept.len = ((contents h₀ s.array).take i).filter p
  back : (contents h s.array).drop i = (contents h₀ s.array).drop i
  length : (contents h s.array).length = (contents h₀ s.array).length
  others : ∀ b, b ≠ s.array → contents h b = contents h₀ b

theorem filtering_start (h₀ : Heap α) (s : Slice) : Filtering p h₀ s 0 h₀ s.emptied where
  array := rfl
  cap := rfl
  len_le := Nat.le_refl 0
  front := rfl
  back := rfl
  length := rfl
  others _ _ := rfl

/-- The element that is read next is still the one that was there. -/
theorem Filtering.next (hf : Filtering p h₀ s i h kept) : (contents h s.array)[i]? = (contents h₀ s.array)[i]? := by
  have hhead := congrArg List.head? hf.back
  rwa [List.head?_drop, List.head?_drop] at hhead

theorem Filtering.skip (hf : Filtering p h₀ s i h kept) (hx : (contents h₀ s.array)[i]? = some x) (hp : p x = false) :
    Filtering p h₀ s (i + 1) h kept where
  array := hf.array
  cap := hf.cap
  len_le := Nat.le_succ_of_le hf.len_le
  front := by
    rw [List.take_add_one, hx, List.filter_append, hf.front]
    simp [hp]
  back := by rw [← List.drop_drop, hf.back, List.drop_drop]
  length := hf.length
  others := hf.others

theorem Filtering.take (hf : Filtering p h₀ s i h kept) (hs : Valid h₀ s) (hi : i < s.len)
    (hx : (contents h₀ s.array)[i]? = some x) (hp : p x = true) :
    Filtering p h₀ s (i + 1) (append extra z h kept x).1 (append extra z h kept x).2 := by
  have hlen := hf.len_le
  have hslen := hs.len_le
  have hscap := hs.cap_le
  have hlength := hf.length
  have hroom : kept.len < kept.cap := by
    rw [hf.cap]
    omega
  have hset : kept.len < ((contents h s.array).set kept.len x).length := by
    rw [List.length_set]
    omega
  have hcontents : ∀ b, contents (write h kept.array kept.len x) b =
      if s.array = b then (contents h b).set kept.len x else contents h b := fun b => by rw [contents_write, hf.array]
  rw [append, if_pos hroom]
  refine ⟨hf.array, hf.cap, Nat.succ_le_succ hlen, ?_, ?_, ?_, fun b hb => ?_⟩
  · rw [hcontents, if_pos rfl]
    calc ((contents h s.array).set kept.len x).take (kept.len + 1)
        = ((contents h s.array).set kept.len x).take kept.len ++ [x] := by
          rw [List.take_succ_eq_append_getElem hset, List.getElem_set_self]
      _ = ((contents h₀ s.array).take i).filter p ++ [x] := by
          rw [List.take_set_of_le (Nat.le_refl _), hf.front]
      _ = ((contents h₀ s.array).take (i + 1)).filter p := by
          rw [List.take_add_one, hx, List.filter_append]
          simp [hp]
  · rw [hcontents, if_pos rfl, List.drop_set_of_lt (by omega), ← List.drop_drop, hf.back, List.drop_drop]
  · rw [hcontents, if_pos rfl, List.length_set, hlength]
  · rw [hcontents, if_neg (Ne.symm hb), hf.others b hb]

/-- The loop reads to the end of the slice. -/
theorem filtering_loop (hf : Filtering p h₀ s i h kept) (hs : Valid h₀ s) (hn : i + n = s.len) :
    Filtering p h₀ s s.len (filterLoop extra z p s n i h kept).1 (filterLoop extra z p s n i h kept).2 := by
  induction n generalizing i h kept with
  | zero =>
      rw [Nat.add_zero] at hn
      rw [filterLoop]
      exact hn ▸ hf
  | succ n ih =>
      have hslen := hs.len_le
      have hscap := hs.cap_le
      have hlt : i < (contents h₀ s.array).length := by omega
      have hx := List.getElem?_eq_getElem hlt
      rw [filterLoop, hf.next, hx]
      dsimp only
      split_ifs with hp
      · exact ih (hf.take hs (by omega) hx hp) (by omega)
      · exact ih (hf.skip hx (Bool.eq_false_iff.mpr hp)) (by omega)

/-- Filtering a slice into itself leaves what is of interest, in the same array. -/
theorem filterInPlace_spec (extra : Nat → Nat) (z : α) (p : α → Bool) (hs : Valid h s) :
    Filtering p h s s.len (filterInPlace extra z p h s).1 (filterInPlace extra z p h s).2 :=
  filtering_loop (filtering_start h s) hs (Nat.zero_add _)

theorem view_filterInPlace (hs : Valid h s) :
    view (filterInPlace extra z p h s).1 (filterInPlace extra z p h s).2 = (view h s).filter p := by
  have hf := filterInPlace_spec extra z p hs
  rw [view, hf.array, hf.front, view]

theorem valid_filterInPlace (hs : Valid h s) :
    Valid (filterInPlace extra z p h s).1 (filterInPlace extra z p h s).2 := by
  have hf := filterInPlace_spec extra z p hs
  refine ⟨?_, ?_⟩
  · rw [hf.cap]
    exact Nat.le_trans hf.len_le hs.len_le
  · rw [hf.cap, hf.array, hf.length]
    exact hs.cap_le

/-- Filtering is not noticed by slices of other arrays. -/
theorem filterInPlace_apart (hs : Valid h s) (ht : Valid h t) (hst : Apart s t) :
    Kept h (filterInPlace extra z p h s).1 t ∧ Apart (filterInPlace extra z p h s).2 t := by
  have hf := filterInPlace_spec extra z p hs
  have hapart : Apart (filterInPlace extra z p h s).2 t := by
    rw [Apart, hf.cap, hf.array]
    exact hst
  refine ⟨?_, hapart⟩
  rcases hst with hcap | hcap | hne
  · -- a slice without room is empty, and nothing is read or written
    have hlen : s.len = 0 := Nat.le_zero.mp (hcap ▸ hs.len_le)
    have hsame : (filterInPlace extra z p h s).1 = h := by rw [filterInPlace, hlen, filterLoop]
    rw [hsame]
    exact ⟨rfl, ht⟩
  · exact kept_of_cap_zero ht hcap
  · exact kept_of_contents ht (hf.others t.array (Ne.symm hne))

end filtering

section families

variable {κ : Type*} {h h' h'' : Heap α} {f : κ → Slice} {s s' t : Slice} {k : κ}

/-- A family of slices no two of which share an element. -/
structure Owned (h : Heap α) (f : κ → Slice) : Prop where
  valid : ∀ k, Valid h (f k)
  apart : ∀ k k', k ≠ k' → Apart (f k) (f k')

/-- A slice that has taken the place of another and is noticed by none that was apart from that one. -/
structure Replaces (h h' : Heap α) (s s' : Slice) : Prop where
  valid : Valid h' s'
  others : ∀ t, Valid h t → Apart s t → Kept h h' t ∧ Apart s' t

theorem Replaces.trans {s'' : Slice} (hs : Replaces h h' s s') (hs' : Replaces h' h'' s' s'') :
    Replaces h h'' s s'' where
  valid := hs'.valid
  others t ht hst := by
    obtain ⟨hkept, hapart⟩ := hs.others t ht hst
    obtain ⟨hkept', hapart'⟩ := hs'.others t hkept.valid hapart
    exact ⟨⟨hkept'.view.trans hkept.view, hkept'.valid⟩, hapart'⟩

theorem Replaces.nil (hs : Replaces h h' s s') : Replaces h h' s .nil where
  valid := valid_nil
  others t ht hst := ⟨(hs.others t ht hst).1, apart_nil.symm⟩

theorem replaces_append {extra : Nat → Nat} {z x : α} (hs : Valid h s) :
    Replaces h (append extra z h s x).1 s (append extra z h s x).2 where
  valid := (append_spec hs).2
  others _ ht hst := append_apart ht hst

theorem replaces_filterInPlace {extra : Nat → Nat} {z : α} {p : α → Bool} (hs : Valid h s) :
    Replaces h (filterInPlace extra z p h s).1 s (filterInPlace extra z p h s).2 where
  valid := valid_filterInPlace hs
  others _ ht hst := filterInPlace_apart hs ht hst

variable [DecidableEq κ]

/-- A member of a family may be replaced. -/
theorem Owned.update (hf : Owned h f) (hs : Replaces h h' (f k) s') : Owned h' (Function.update f k s') where
  valid k' := by
    by_cases hk : k' = k
    · rw [hk, Function.update_self]
      exact hs.valid
    · rw [Function.update_of_ne hk]
      exact (hs.others _ (hf.valid k') (hf.apart k k' (Ne.symm hk))).1.valid
  apart k₁ k₂ hne := by
    by_cases hk₁ : k₁ = k
    · subst hk₁
      rw [Function.update_self, Function.update_of_ne (Ne.symm hne)]
      exact (hs.others _ (hf.valid k₂) (hf.apart _ _ hne)).2
    · rw [Function.update_of_ne hk₁]
      by_cases hk₂ : k₂ = k
      · subst hk₂
        rw [Function.update_self]
        exact (hs.others _ (hf.valid k₁) (hf.apart _ _ (Ne.symm hne))).2.symm
      · rw [Function.update_of_ne hk₂]
        exact hf.apart _ _ hne

/-- Only the member that is replaced looks different. -/
theorem Owned.view_update (hf : Owned h f) (hs : Replaces h h' (f k) s') :
    (fun k' => view h' (Function.update f k s' k')) = Function.update (fun k' => view h (f k')) k (view h' s') := by
  funext k'
  by_cases hk : k' = k
  · rw [hk, Function.update_self, Function.update_self]
  · rw [Function.update_of_ne hk, Function.update_of_ne hk]
    exact (hs.others _ (hf.valid k') (hf.apart k k' (Ne.symm hk))).1.view

end families

end SliceHeap
