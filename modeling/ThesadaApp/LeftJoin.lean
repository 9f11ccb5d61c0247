import Mathlib.Data.List.Nodup
import Mathlib.Tactic.Common

/-!
The left join of two lists of rows, and the count of its matches in each group. When the groups are the rows on the left,
a group counts the matches of its row.
-/

namespace LeftJoin

variable {α β κ : Type*}

/-- The rows of one row on the left: with each of its matches, or alone. -/
def joinRow (p : α → β → Bool) (r : List β) (a : α) : List (α × Option β) :=
  match r.filter (p a) with
  | [] => [(a, none)]
  | b :: bs => (b :: bs).map fun x => (a, some x)

/-- LEFT JOIN … ON -/
def leftJoin (p : α → β → Bool) (l : List α) (r : List β) : List (α × Option β) := l.flatMap (joinRow p r)

/-- SELECT key, count(…) … GROUP BY key: what the group of a key counts, if there is one. -/
def groupCount [DecidableEq κ] (key : α → κ) (rows : List (α × Option β)) (k : κ) : Option Nat :=
  let group := rows.filter fun x => key x.1 = k
  if group.isEmpty then none else some (group.countP fun x => x.2.isSome)

variable {p : α → β → Bool} {l : List α} {r : List β} {a : α}

theorem fst_of_mem_joinRow {x : α × Option β} (hx : x ∈ joinRow p r a) : x.1 = a := by
  unfold joinRow at hx
  split at hx
  · rw [List.mem_singleton.mp hx]
  · obtain ⟨b, -, rfl⟩ := List.mem_map.mp hx
    rfl

theorem joinRow_ne_nil : joinRow p r a ≠ [] := by
  unfold joinRow
  split
  · exact List.cons_ne_nil _ _
  · exact List.cons_ne_nil _ _

theorem countP_joinRow : (joinRow p r a).countP (fun x => x.2.isSome) = (r.filter (p a)).length := by
  unfold joinRow
  split
  · next hnil => rw [hnil]; rfl
  · next b bs hcons =>
      rw [hcons, List.countP_map]
      exact List.countP_eq_length.mpr fun _ _ => rfl

/-- A key that no two rows on the left share has the count of the row that has it. -/
theorem groupCount_leftJoin [DecidableEq κ] {key : α → κ} (hnodup : (l.map key).Nodup) (k : κ) :
    groupCount key (leftJoin p l r) k = (l.find? fun a => key a = k).map fun a => (r.filter (p a)).length := by
  induction l with
  | nil => rfl
  | cons a l ih =>
      rw [List.map_cons, List.nodup_cons] at hnodup
      have hsplit : leftJoin p (a :: l) r = joinRow p r a ++ leftJoin p l r := List.flatMap_cons
      have hgroup : ∀ b ∈ joinRow p r a, key b.1 = key a := fun b hb => by rw [fst_of_mem_joinRow hb]
      by_cases hkey : key a = k
      · have hown : (joinRow p r a).filter (fun x => key x.1 = k) = joinRow p r a :=
          List.filter_eq_self.mpr fun x hx => decide_eq_true ((hgroup x hx).trans hkey)
        have hrest : (leftJoin p l r).filter (fun x => key x.1 = k) = [] := by
          refine List.filter_eq_nil_iff.mpr fun x hx hxk => hnodup.1 ?_
          obtain ⟨b, hb, hxb⟩ := List.mem_flatMap.mp hx
          rw [hkey, ← of_decide_eq_true hxk, fst_of_mem_joinRow hxb]
          exact List.mem_map_of_mem hb
        rw [groupCount, hsplit, List.filter_append, hown, hrest, List.append_nil, countP_joinRow,
          if_neg (by simpa using joinRow_ne_nil), List.find?_cons_of_pos (by simpa using hkey)]
        rfl
      · have hown : (joinRow p r a).filter (fun x => key x.1 = k) = [] :=
          List.filter_eq_nil_iff.mpr fun x hx hxk => hkey ((hgroup x hx).symm.trans (of_decide_eq_true hxk))
        rw [groupCount, hsplit, List.filter_append, hown, List.nil_append, List.find?_cons_of_neg (by simpa using hkey)]
        exact ih hnodup.2

end LeftJoin
