import Mathlib.Data.List.Basic
import Mathlib.Tactic.Common

/-!
Partial machines with outputs and their runs. A machine refuses an action or moves to one next
state and emits one event, so a run is determined by its actions and leaves a log of events in
order. Properties of runs are stated about the log, the state and the step that comes next; a run
whose steps all meet a guard is a `RunIf`, and the rules below reduce a property of all its states
to one step.
-/

/-- A partial machine: `step s a` refuses the action or gives the next state and one event. -/
structure Machine (σ α ε : Type*) where
  step : σ → α → Option (σ × ε)

namespace Machine

/-- Where a mark occurs once in a log, the event that bears it is one. -/
theorem eq_of_nodup_marks {ε μ : Type*} {mark : ε → Option μ} {log : List ε} {e e' : ε} {m : μ}
    (h : (log.filterMap mark).Nodup) (he : e ∈ log) (he' : e' ∈ log) (hm : mark e = some m)
    (hm' : mark e' = some m) : e = e' := by
  induction log with
  | nil => cases he
  | cons x log ih =>
      have hmarks : ∀ {y : ε}, y ∈ log → mark y = some m → m ∈ log.filterMap mark := fun hy hmy =>
        List.mem_filterMap.mpr ⟨_, hy, hmy⟩
      obtain rfl | hrest := List.mem_cons.mp he
      · obtain heq | hrest' := List.mem_cons.mp he'
        · exact heq.symm
        · rw [List.filterMap_cons_some hm, List.nodup_cons] at h
          exact absurd (hmarks hrest' hm') h.1
      · obtain rfl | hrest' := List.mem_cons.mp he'
        · rw [List.filterMap_cons_some hm', List.nodup_cons] at h
          exact absurd (hmarks hrest hm) h.1
        · exact ih (h.sublist ((List.sublist_cons_self x log).filterMap mark)) hrest hrest'

/-- A new mark leaves every event with a mark of its own. -/
theorem nodup_marks_snoc {ε μ : Type*} {mark : ε → Option μ} {log : List ε} {e : ε}
    (h : (log.filterMap mark).Nodup) (hnew : ∀ m ∈ mark e, m ∉ log.filterMap mark) :
    ((log ++ [e]).filterMap mark).Nodup := by
  rw [List.filterMap_append]
  cases hm : mark e with
  | none =>
      rw [List.filterMap_cons_none hm, List.filterMap_nil, List.append_nil]
      exact h
  | some m =>
      rw [List.filterMap_cons_some hm, List.filterMap_nil, List.nodup_append]
      refine ⟨h, List.pairwise_singleton _ m, fun m' hm' n hn heq => ?_⟩
      rw [List.mem_singleton.mp hn] at heq
      exact hnew m hm (heq ▸ hm')

/-- Where marks are not repeated, the mark of an event is on no event before or after it. -/
theorem ne_mark_of_nodup_marks {ε μ : Type*} {mark : ε → Option μ} {pre post : List ε} {e e' : ε} {m : μ}
    (h : ((pre ++ e :: post).filterMap mark).Nodup) (hm : mark e = some m) (he' : e' ∈ pre ++ post) :
    mark e' ≠ some m := by
  intro hm'
  rw [List.filterMap_append, List.filterMap_cons_some hm, List.nodup_append, List.nodup_cons] at h
  obtain ⟨-, ⟨hpost, -⟩, hpre⟩ := h
  obtain hbefore | hafter := List.mem_append.mp he'
  · exact hpre m (List.mem_filterMap.mpr ⟨e', hbefore, hm'⟩) m List.mem_cons_self rfl
  · exact hpost (List.mem_filterMap.mpr ⟨e', hafter, hm'⟩)

/-- The parties of a state after one of them has moved. -/
theorem getElem?_set_cases {π : Type*} {parties : List π} {i j : Nat} {x y : π}
    (h : (parties.set i y)[j]? = some x) : (j = i ∧ x = y) ∨ (j ≠ i ∧ parties[j]? = some x) := by
  by_cases hij : i = j
  · subst hij
    rw [List.getElem?_set_self'] at h
    obtain ⟨_, -, rfl⟩ := Option.map_eq_some_iff.mp h
    exact .inl ⟨rfl, rfl⟩
  · rw [List.getElem?_set_ne hij] at h
    exact .inr ⟨Ne.symm hij, h⟩

/-- The parties of a state after a new one has come. -/
theorem getElem?_concat_cases {π : Type*} {parties : List π} {k : Nat} {x y : π}
    (h : (parties ++ [y])[k]? = some x) : parties[k]? = some x ∨ (k = parties.length ∧ x = y) := by
  rw [List.getElem?_append] at h
  split at h
  · exact .inl h
  · next hge =>
      obtain ⟨hlt, heq⟩ := List.getElem?_eq_some_iff.mp h
      rw [List.length_singleton] at hlt
      exact .inr ⟨by omega, by rw [← heq, List.getElem_singleton]⟩

variable {σ α ε τ β δ : Type*} (M : Machine σ α ε)

/-- The runs from `s₀` whose every step meets `ok`, given the log so far, the state and the
action. The log lists the events in the order they happened. -/
inductive RunIf (ok : List ε → σ → α → Prop) (s₀ : σ) : List ε → σ → Prop
  | nil : RunIf ok s₀ [] s₀
  | snoc {log : List ε} {s : σ} {a : α} {s' : σ} {e : ε} (hrun : RunIf ok s₀ log s)
      (hok : ok log s a) (hstep : M.step s a = some (s', e)) : RunIf ok s₀ (log ++ [e]) s'

/-- All runs from `s₀`. -/
abbrev Run (s₀ : σ) : List ε → σ → Prop := M.RunIf (fun _ _ _ => True) s₀

/-- Execute a list of actions after the log so far, as long as each step meets the guard. -/
def execIf (ok : List ε → σ → α → Prop) [∀ log s a, Decidable (ok log s a)] :
    List ε → σ → List α → Option (List ε × σ)
  | log, s, [] => some (log, s)
  | log, s, a :: as =>
      if ok log s a then
        match M.step s a with
        | none => none
        | some (s', e) => execIf ok (log ++ [e]) s' as
      else none

/-- Execute a list of actions. -/
def exec (s : σ) (as : List α) : Option (List ε × σ) := M.execIf (fun _ _ _ => True) [] s as

variable {M} {ok ok' : List ε → σ → α → Prop} {s₀ s s' : σ} {log : List ε}

/-- What holds at the start and is kept by every step holds at the end of a run. -/
theorem RunIf.invariant (P : List ε → σ → Prop) (hzero : P [] s₀)
    (hkeep : ∀ log s a s' e, P log s → ok log s a → M.step s a = some (s', e) → P (log ++ [e]) s')
    (hrun : M.RunIf ok s₀ log s) : P log s := by
  induction hrun with
  | nil => exact hzero
  | snoc _ hok hstep ih => exact hkeep _ _ _ _ _ ih hok hstep

/-- The same with the run so far at hand, for a property that needs an invariant already proved. -/
theorem RunIf.invariant_along (P : List ε → σ → Prop) (hzero : P [] s₀)
    (hkeep : ∀ log s a s' e, M.RunIf ok s₀ log s → P log s → ok log s a →
      M.step s a = some (s', e) → P (log ++ [e]) s')
    (hrun : M.RunIf ok s₀ log s) : P log s := by
  induction hrun with
  | nil => exact hzero
  | snoc hrun hok hstep ih => exact hkeep _ _ _ _ _ hrun ih hok hstep

/-- A run whose every step lessens a measure has no more steps than the measure allows. -/
theorem RunIf.length_le (w : σ → Nat) (hless : ∀ log s a s' e, ok log s a → M.step s a = some (s', e) → w s' < w s)
    (hrun : M.RunIf ok s₀ log s) : log.length + w s ≤ w s₀ := by
  induction hrun with
  | nil => exact Nat.le_of_eq (Nat.zero_add _)
  | snoc _ hok hstep ih =>
      have hone := hless _ _ _ _ _ hok hstep
      rw [List.length_append, List.length_singleton]
      omega

/-- A guard may be replaced by one that every step of such a run meets. -/
theorem RunIf.imp (himp : ∀ log s a s' e, M.RunIf ok s₀ log s → ok log s a →
      M.step s a = some (s', e) → ok' log s a)
    (hrun : M.RunIf ok s₀ log s) : M.RunIf ok' s₀ log s := by
  induction hrun with
  | nil => exact .nil
  | snoc hrun hok hstep ih => exact .snoc ih (himp _ _ _ _ _ hrun hok hstep) hstep

theorem RunIf.run (hrun : M.RunIf ok s₀ log s) : M.Run s₀ log s :=
  hrun.imp fun _ _ _ _ _ _ _ _ => trivial

theorem Run.trans {log' : List ε} (hrun : M.Run s₀ log s) (hrun' : M.Run s log' s') :
    M.Run s₀ (log ++ log') s' := by
  induction hrun' with
  | nil => simpa using hrun
  | snoc _ hok hstep ih =>
      rw [← List.append_assoc]
      exact .snoc ih hok hstep

/-- A run goes on from the state another has reached, under the guard that knows the log of both. -/
theorem RunIf.append {log' : List ε} (hrun : M.RunIf ok s₀ log s)
    (hrun' : M.RunIf (fun post => ok (log ++ post)) s log' s') : M.RunIf ok s₀ (log ++ log') s' := by
  induction hrun' with
  | nil => simpa using hrun
  | snoc _ hok hstep ih =>
      rw [← List.append_assoc]
      exact .snoc ih hok hstep

theorem Run.one {a : α} {e : ε} (hstep : M.step s a = some (s', e)) : M.Run s [e] s' :=
  .snoc (.nil : M.Run s [] s) trivial hstep

/-- An event of a log happened at a step of the run: what came before it is a run, and so is what
came after, under the guard that knows what came before. -/
theorem RunIf.split_at_event {pre post : List ε} {e : ε} (hrun : M.RunIf ok s₀ (pre ++ e :: post) s) :
    ∃ s₁ a s₂, M.RunIf ok s₀ pre s₁ ∧ ok pre s₁ a ∧ M.step s₁ a = some (s₂, e) ∧
      M.RunIf (fun log => ok (pre ++ [e] ++ log)) s₂ post s := by
  generalize hlog : pre ++ e :: post = full at hrun
  induction hrun generalizing post with
  | nil => simp at hlog
  | @snoc log s₁ a s₂ e' hrun hok hstep ih =>
      rcases List.eq_nil_or_concat post with rfl | ⟨post', last, rfl⟩
      · obtain ⟨rfl, heq⟩ := List.append_inj' hlog rfl
        obtain rfl : e = e' := by simpa using heq
        exact ⟨s₁, a, s₂, hrun, hok, hstep, .nil⟩
      · rw [List.concat_eq_append, ← List.cons_append, ← List.append_assoc] at hlog
        obtain ⟨hinit, heq⟩ := List.append_inj' hlog rfl
        obtain rfl : last = e' := by simpa using heq
        obtain ⟨t₁, b, t₂, hpre, hokb, hb, hpost⟩ := ih hinit
        refine ⟨t₁, b, t₂, hpre, hokb, hb, ?_⟩
        rw [List.concat_eq_append]
        refine .snoc hpost ?_ hstep
        rw [← hinit] at hok
        simpa using hok

theorem RunIf.at_event {pre post : List ε} {e : ε} (hrun : M.RunIf ok s₀ (pre ++ e :: post) s) :
    ∃ s₁ a s₂, M.RunIf ok s₀ pre s₁ ∧ ok pre s₁ a ∧ M.step s₁ a = some (s₂, e) ∧
      M.Run s₂ post s := by
  obtain ⟨s₁, a, s₂, hpre, hok, hstep, hpost⟩ := hrun.split_at_event
  exact ⟨s₁, a, s₂, hpre, hok, hstep, hpost.run⟩

/-- Executing actions under a guard continues a run that meets it. -/
theorem runIf_of_execIf [∀ log s a, Decidable (ok log s a)] {log' : List ε} {as : List α}
    (hrun : M.RunIf ok s₀ log s) (hexec : M.execIf ok log s as = some (log', s')) : M.RunIf ok s₀ log' s' := by
  induction as generalizing log s with
  | nil =>
      obtain ⟨rfl, rfl⟩ := Prod.mk.inj (Option.some.inj hexec)
      exact hrun
  | cons a as ih =>
      simp only [execIf] at hexec
      split at hexec
      · next hok =>
          split at hexec
          · cases hexec
          · next hstep => exact ih (hrun.snoc hok hstep) hexec
      · cases hexec

/-- A run to a state that passes a test, found by executing actions. -/
theorem exists_runIf_of_any [∀ log s a, Decidable (ok log s a)] {as : List α} {test : List ε × σ → Bool}
    (h : (M.execIf ok [] s₀ as).any test = true) :
    ∃ log s, M.RunIf ok s₀ log s ∧ test (log, s) = true := by
  obtain ⟨⟨log, s⟩, hexec, htest⟩ := (Option.any_eq_true test _).mp h
  exact ⟨log, s, runIf_of_execIf .nil hexec, htest⟩

theorem run_of_exec {as : List α} (hexec : M.exec s as = some (log, s')) : M.Run s log s' :=
  runIf_of_execIf .nil hexec

/-- Forward simulation: a concrete step is matched by a run of the abstract machine, so every run
is matched by one. -/
theorem RunIf.simulate {A : Machine τ β δ} {t₀ : τ} (R : σ → τ → Prop) (hzero : R s₀ t₀)
    (hsim : ∀ log s t a s' e, M.RunIf ok s₀ log s → R s t → ok log s a →
      M.step s a = some (s', e) → ∃ trace t', A.Run t trace t' ∧ R s' t')
    (hrun : M.RunIf ok s₀ log s) : ∃ trace t, A.Run t₀ trace t ∧ R s t := by
  induction hrun with
  | nil => exact ⟨[], t₀, .nil, hzero⟩
  | snoc hrun hok hstep ih =>
      obtain ⟨trace, t, hrunA, hR⟩ := ih
      obtain ⟨trace', t', hrunA', hR'⟩ := hsim _ _ _ _ _ _ hrun hR hok hstep
      exact ⟨trace ++ trace', t', hrunA.trans hrunA', hR'⟩

end Machine
