import Mathlib.Data.List.Basic
import Mathlib.Data.List.Nodup
import Mathlib.Tactic.Common

/-!
Tables with a primary key: a list of rows in which no key occurs twice. Selections, updates that keep
the key, deletions and insertions are total; each comes with what it does to the row of a key, which
is all that reasoning about one row needs.
-/

/-- Rows of which no two share a key. -/
structure KeyedTable {ρ κ : Type*} (key : ρ → κ) where
  rows : List ρ
  nodup : (rows.map key).Nodup

namespace KeyedTable

variable {ρ κ : Type*} {key : ρ → κ}

instance : EmptyCollection (KeyedTable key) := ⟨⟨[], List.nodup_nil⟩⟩

instance : Membership ρ (KeyedTable key) := ⟨fun t r => r ∈ t.rows⟩

theorem ext_rows {t t' : KeyedTable key} (h : t.rows = t'.rows) : t = t' := by
  cases t
  cases t'
  cases h
  rfl

theorem mem_rows {t : KeyedTable key} {r : ρ} : r ∈ t.rows ↔ r ∈ t := Iff.rfl

theorem eq_of_key {t : KeyedTable key} {r r' : ρ} (hr : r ∈ t) (hr' : r' ∈ t) (hkey : key r = key r') :
    r = r' :=
  List.inj_on_of_nodup_map t.nodup hr hr' hkey

/-- UPDATE of every row that satisfies `p`, without touching the key. -/
def updateWhere (t : KeyedTable key) (p : ρ → Bool) (f : ρ → ρ)
    (hf : ∀ r, key (f r) = key r) : KeyedTable key where
  rows := t.rows.map fun r => if p r then f r else r
  nodup := by
    rw [List.map_map]
    have hkeys : key ∘ (fun r => if p r then f r else r) = key := by
      funext r
      by_cases hp : p r <;> simp [hp, hf]
    rw [hkeys]
    exact t.nodup

/-- DELETE of every row that satisfies `p`. -/
def deleteWhere (t : KeyedTable key) (p : ρ → Bool) : KeyedTable key where
  rows := t.rows.filter fun r => !p r
  nodup := t.nodup.sublist ((List.filter_sublist).map key)

theorem mem_deleteWhere {t : KeyedTable key} {p : ρ → Bool} {r : ρ} :
    r ∈ t.deleteWhere p ↔ r ∈ t ∧ p r = false := by
  rw [← mem_rows, deleteWhere, List.mem_filter, mem_rows, Bool.not_eq_true']

theorem mem_updateWhere {t : KeyedTable key} {p : ρ → Bool} {f : ρ → ρ} (hf : ∀ r, key (f r) = key r)
    {r : ρ} : r ∈ t.updateWhere p f hf ↔ ∃ old ∈ t, (if p old then f old else old) = r := by
  rw [← mem_rows, updateWhere, List.mem_map]
  rfl

/-- Fewer rows are counted when one no longer is. -/
theorem countP_lt {l : List ρ} {p q : ρ → Bool} {r : ρ} (hr : r ∈ l) (himp : ∀ x ∈ l, q x = true → p x = true)
    (hp : p r = true) (hq : q r = false) : l.countP q < l.countP p := by
  obtain ⟨pre, post, rfl⟩ := List.append_of_mem hr
  have hpre : pre.countP q ≤ pre.countP p := List.countP_mono_left fun x hx => himp x (List.mem_append_left _ hx)
  have hpost : post.countP q ≤ post.countP p :=
    List.countP_mono_left fun x hx => himp x (List.mem_append_right _ (List.mem_cons_of_mem _ hx))
  rw [List.countP_append, List.countP_append, List.countP_cons_of_pos hp,
    List.countP_cons_of_neg (Bool.eq_false_iff.mp hq)]
  omega

section find

variable [DecidableEq κ]

/-- An UPDATE of one row counts at most one row more. -/
theorem countP_updateWhere_le {t : KeyedTable key} {k : κ} {f : ρ → ρ} (hf : ∀ r, key (f r) = key r) (q : ρ → Bool) :
    (t.updateWhere (fun r => key r = k) f hf).rows.countP q ≤ t.rows.countP q + 1 := by
  obtain ⟨rows, hnodup⟩ := t
  show (rows.map _).countP q ≤ rows.countP q + 1
  rw [List.countP_map]
  induction rows with
  | nil => exact Nat.zero_le _
  | cons r rows ih =>
      rw [List.map_cons, List.nodup_cons] at hnodup
      rw [List.countP_cons, List.countP_cons]
      by_cases hr : key r = k
      · have hrest : rows.countP (q ∘ fun x => if decide (key x = k) = true then f x else x) = rows.countP q := by
          refine List.countP_congr fun x hx => ?_
          have hx : key x ≠ k := fun hk => hnodup.1 (by rw [hr, ← hk]; exact List.mem_map_of_mem hx)
          simp [hx]
        rw [hrest]
        split
        · split
          · omega
          · omega
        · omega
      · have hsame : (q ∘ fun x => if decide (key x = k) = true then f x else x) r = q r := by simp [hr]
        have hle := ih hnodup.2
        rw [hsame]
        omega

/-- SELECT by primary key. -/
def find (t : KeyedTable key) (k : κ) : Option ρ := t.rows.find? fun r => key r = k

theorem find_eq_some {t : KeyedTable key} {k : κ} {r : ρ} : t.find k = some r ↔ r ∈ t ∧ key r = k := by
  constructor
  · intro h
    exact ⟨List.mem_of_find?_eq_some h, by simpa using List.find?_some h⟩
  · rintro ⟨hr, rfl⟩
    rw [find]
    cases hfound : t.rows.find? fun x => key x = key r with
    | none => simpa using List.find?_eq_none.mp hfound r hr
    | some x =>
        have hx : key x = key r := by simpa using List.find?_some hfound
        rw [eq_of_key (List.mem_of_find?_eq_some hfound) hr hx]

theorem find_eq_none {t : KeyedTable key} {k : κ} : t.find k = none ↔ ∀ r ∈ t, key r ≠ k := by
  simp [find, List.find?_eq_none, mem_rows]

theorem find_key {t : KeyedTable key} {k : κ} {r : ρ} (h : t.find k = some r) : key r = k :=
  (find_eq_some.mp h).2

theorem find_mem {t : KeyedTable key} {k : κ} {r : ρ} (h : t.find k = some r) : r ∈ t :=
  (find_eq_some.mp h).1

theorem find_of_mem {t : KeyedTable key} {r : ρ} (h : r ∈ t) : t.find (key r) = some r :=
  find_eq_some.mpr ⟨h, rfl⟩

@[simp] theorem find_empty (k : κ) : (∅ : KeyedTable key).find k = none := rfl

/-- INSERT of a row whose key is free. -/
def insert (t : KeyedTable key) (r : ρ) (h : t.find (key r) = none) : KeyedTable key where
  rows := t.rows ++ [r]
  nodup := by
    rw [List.map_append, List.nodup_append]
    refine ⟨t.nodup, List.nodup_singleton _, ?_⟩
    simpa [mem_rows] using find_eq_none.mp h

theorem mem_insert {t : KeyedTable key} {r x : ρ} (h : t.find (key r) = none) :
    x ∈ t.insert r h ↔ x ∈ t ∨ x = r := by
  rw [← mem_rows, insert, List.mem_append, List.mem_singleton, mem_rows]

/-- INSERT … ON CONFLICT (key) DO UPDATE. -/
def upsert (t : KeyedTable key) (r : ρ) (f : ρ → ρ) (hf : ∀ r, key (f r) = key r) : KeyedTable key :=
  if h : t.find (key r) = none then t.insert r h else t.updateWhere (fun x => key x = key r) f hf

theorem find_updateWhere {t : KeyedTable key} {p : ρ → Bool} {f : ρ → ρ} (hf : ∀ r, key (f r) = key r)
    (k : κ) : (t.updateWhere p f hf).find k = (t.find k).map fun r => if p r then f r else r := by
  have hkey : ∀ r, key (if p r then f r else r) = key r := fun r => by
    by_cases hp : p r <;> simp [hp, hf]
  simp only [find, updateWhere, List.find?_map]
  congr 2
  funext r
  simp [hkey]

theorem find_deleteWhere {t : KeyedTable key} {p : ρ → Bool} (k : κ) :
    (t.deleteWhere p).find k = (t.find k).filter fun r => !p r := by
  ext r
  rw [find_eq_some, Option.filter_eq_some_iff, find_eq_some, mem_deleteWhere, Bool.not_eq_true',
    and_right_comm]

theorem find_insert {t : KeyedTable key} {r : ρ} (h : t.find (key r) = none) (k : κ) :
    (t.insert r h).find k = if k = key r then some r else t.find k := by
  simp only [find, insert, List.find?_append, List.find?_singleton]
  by_cases hk : k = key r
  · subst hk
    have hnone : t.rows.find? (fun x => key x = key r) = none := h
    simp [hnone]
  · simp [hk, Ne.symm hk]

theorem find_upsert {t : KeyedTable key} {r : ρ} {f : ρ → ρ} (hf : ∀ r, key (f r) = key r) (k : κ) :
    (t.upsert r f hf).find k = if k = key r then some ((t.find k).elim r f) else t.find k := by
  unfold upsert
  split
  · next hnone =>
      rw [find_insert]
      by_cases hk : k = key r
      · subst hk
        simp [hnone]
      · simp [hk]
  · next hsome =>
      rw [find_updateWhere]
      obtain ⟨old, hold⟩ := Option.ne_none_iff_exists'.mp hsome
      by_cases hk : k = key r
      · subst hk
        simp [hold, find_key hold]
      · simp only [hk, if_false]
        cases hfound : t.find k with
        | none => rfl
        | some x => simp [find_key hfound, hk]

/-- A row after an upsert is the one written, or was there before under another key. -/
theorem mem_upsert {t : KeyedTable key} {r x : ρ} {f : ρ → ρ} (hf : ∀ r, key (f r) = key r) :
    x ∈ t.upsert r f hf ↔ x = (t.find (key r)).elim r f ∨ x ∈ t ∧ key x ≠ key r := by
  have hkey : key ((t.find (key r)).elim r f) = key r := by
    cases hfound : t.find (key r) with
    | none => rfl
    | some old => exact (hf old).trans (find_key hfound)
  constructor
  · intro hx
    have hfind := find_of_mem hx
    rw [find_upsert] at hfind
    split at hfind
    · next hsame =>
        rw [hsame] at hfind
        exact .inl (Option.some.inj hfind).symm
    · next hne => exact .inr ⟨find_mem hfind, hne⟩
  · rintro (rfl | ⟨hx, hne⟩)
    · refine find_mem (k := key r) ?_
      rw [find_upsert, if_pos rfl]
    · refine find_mem (k := key x) ?_
      rw [find_upsert, if_neg hne]
      exact find_of_mem hx

end find

end KeyedTable
