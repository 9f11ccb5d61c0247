import Mathlib.Logic.Function.Basic
import ThesadaApp.MachineRun

/-!
Machines whose state falls into parts. Every action belongs to one part; a step is a step of that
part alone, computed by a machine on parts, and leaves every other part as it was. Then a run of
the whole is one run for each part, and what a part sees of a run depends on its own start and its
own actions only.
-/

namespace Machine

variable {σ α ε ι π : Type*}

/-- The last step of a run. -/
theorem RunIf.last_step {M : Machine σ α ε} {ok : List ε → σ → α → Prop} {s₀ s : σ} {log : List ε}
    (hrun : M.RunIf ok s₀ log s) :
    log = [] ∧ s = s₀ ∨ ∃ pre s₁ a e, log = pre ++ [e] ∧ M.RunIf ok s₀ pre s₁ ∧ ok pre s₁ a ∧
      M.step s₁ a = some (s, e) := by
  cases hrun with
  | nil => exact .inl ⟨rfl, rfl⟩
  | snoc hrun hok hstep => exact .inr ⟨_, _, _, _, rfl, hrun, hok, hstep⟩

/-- A run is determined by its actions, where each event names the action it came from. -/
theorem Run.eq_of_actions {P : Machine π α ε} {act : ε → α} {p₀ p p' : π} {log log' : List ε}
    (hact : ∀ p a p' e, P.step p a = some (p', e) → act e = a) (hrun : P.Run p₀ log p)
    (hrun' : P.Run p₀ log' p') (hlogs : log.map act = log'.map act) : log = log' ∧ p = p' := by
  induction hrun generalizing log' p' with
  | nil =>
      obtain ⟨rfl, rfl⟩ | ⟨pre, _, _, e, rfl, _⟩ := hrun'.last_step
      · exact ⟨rfl, rfl⟩
      · simp at hlogs
  | @snoc log s a s₁ e hrun _ hstep ih =>
      obtain ⟨rfl, rfl⟩ | ⟨pre, s', a', e', rfl, hrun', _, hstep'⟩ := hrun'.last_step
      · simp at hlogs
      · rw [List.map_append, List.map_append] at hlogs
        obtain ⟨hinit, hlast⟩ := List.append_inj' hlogs rfl
        obtain ⟨rfl, rfl⟩ := ih hrun' hinit
        have ha : a = a' := by
          rw [← hact _ _ _ _ hstep, ← hact _ _ _ _ hstep']
          simpa using hlast
        subst ha
        obtain ⟨rfl, rfl⟩ := Prod.mk.inj (Option.some.inj (hstep.symm.trans hstep'))
        exact ⟨rfl, rfl⟩

/-- In the states that meet `I` a guarded step of `M` is a step of `P` on the part of its action,
and leaves the other parts alone. -/
structure Separates (M : Machine σ α ε) (ok : List ε → σ → α → Prop) (I : σ → Prop) (dom : α → ι)
    (part : ι → σ → π) (P : ι → Machine π α ε) : Prop where
  keep : ∀ {log s a s' e}, I s → ok log s a → M.step s a = some (s', e) → I s'
  own : ∀ {log s a s' e}, I s → ok log s a → M.step s a = some (s', e) →
    (P (dom a)).step (part (dom a) s) a = some (part (dom a) s', e)
  other : ∀ {log s a s' e i}, I s → ok log s a → M.step s a = some (s', e) → i ≠ dom a →
    part i s' = part i s

namespace Separates

variable {M : Machine σ α ε} {ok : List ε → σ → α → Prop} {I : σ → Prop}
  {dom : α → ι} {part : ι → σ → π} {P : ι → Machine π α ε} {act : ε → α} {s₀ t₀ s t : σ}
  {log log' : List ε}

theorem invariant (hsep : M.Separates ok I dom part P) (hrun : M.RunIf ok s₀ log s) (hI : I s₀) : I s :=
  hrun.invariant (fun _ s => I s) hI fun _ _ _ _ _ hs hok hstep => hsep.keep hs hok hstep

variable [DecidableEq ι]

/-- A run of the whole is, for each part, a run of that part with its own share of the log. -/
theorem run_part (hsep : M.Separates ok I dom part P)
    (hact : ∀ s a s' e, M.step s a = some (s', e) → act e = a) (hrun : M.RunIf ok s₀ log s)
    (hI : I s₀) (i : ι) :
    (P i).Run (part i s₀) (log.filter fun e => dom (act e) = i) (part i s) := by
  induction hrun with
  | nil => exact .nil
  | @snoc log s a s' e hrun hok hstep ih =>
      have hs : I s := hsep.invariant hrun hI
      have he : act e = a := hact _ _ _ _ hstep
      rw [List.filter_append]
      by_cases hi : i = dom a
      · subst hi
        rw [List.filter_cons_of_pos (by simp [he]), List.filter_nil]
        exact ih.snoc trivial (hsep.own hs hok hstep)
      · rw [List.filter_cons_of_neg (by simp [he, Ne.symm hi]), List.filter_nil, List.append_nil,
          hsep.other hs hok hstep hi]
        exact ih

/-- What a part sees of a run is decided by its start and its own actions. -/
theorem noninterference (hsep : M.Separates ok I dom part P)
    (hact : ∀ s a s' e, M.step s a = some (s', e) → act e = a)
    (hactP : ∀ i p a p' e, (P i).step p a = some (p', e) → act e = a) (hI : I s₀) (hI' : I t₀)
    (hrun : M.RunIf ok s₀ log s) (hrun' : M.RunIf ok t₀ log' t) (i : ι)
    (hstart : part i s₀ = part i t₀)
    (hsame : (log.filter fun e => dom (act e) = i).map act =
      (log'.filter fun e => dom (act e) = i).map act) :
    (log.filter fun e => dom (act e) = i) = (log'.filter fun e => dom (act e) = i) ∧
      part i s = part i t := by
  have hone := hsep.run_part hact hrun hI i
  have htwo := hsep.run_part hact hrun' hI' i
  rw [← hstart] at htwo
  exact hone.eq_of_actions (hactP i) htwo hsame

end Separates

end Machine
