import Mathlib.Data.Set.Basic
import Mathlib.Tactic.Common
import ThesadaApp.MachineRun

/-!
Resources kept in one store and recorded in another. A resource is recorded before it is made, so while
its maker is under way it is pending; it may be made only while it is pending, and its record may go only
while it is neither there nor pending. Steps that keep to this keep every resource recorded.
-/

/-- The keys that are recorded, those of the resources that are there, and those about to be made. -/
structure Ledger (κ : Type*) where
  recorded : Set κ
  live : Set κ
  pending : Set κ

namespace Ledger

variable {κ σ α ε : Type*}

/-- Whatever is there, or about to be, is recorded. -/
structure Covered (l : Ledger κ) : Prop where
  live : l.live ⊆ l.recorded
  pending : l.pending ⊆ l.recorded

/-- A step that keeps to the order: record, make, remove, forget. -/
structure Admits (l l' : Ledger κ) : Prop where
  forgets : ∀ k ∈ l.recorded, k ∈ l'.recorded ∨ (k ∉ l.live ∧ k ∉ l.pending)
  makes : ∀ k ∈ l'.live, k ∈ l.live ∨ k ∈ l.pending
  reserves : ∀ k ∈ l'.pending, k ∈ l.pending ∨ k ∈ l'.recorded

theorem Covered.step {l l' : Ledger κ} (h : Covered l) (hstep : Admits l l') : Covered l' := by
  have hkept : ∀ k, k ∈ l.live ∨ k ∈ l.pending → k ∈ l'.recorded := by
    intro k hk
    rcases hstep.forgets k (hk.elim (@h.live k) (@h.pending k)) with hrecorded | ⟨hlive, hpending⟩
    · exact hrecorded
    · exact absurd hk (not_or.mpr ⟨hlive, hpending⟩)
  refine ⟨fun k hk => hkept k (hstep.makes k hk), fun k hk => ?_⟩
  rcases hstep.reserves k hk with hpending | hrecorded
  · exact hkept k (.inr hpending)
  · exact hrecorded

/-- A step that keeps the record, makes nothing and starts nothing keeps to the order. -/
theorem Admits.of_subset {l l' : Ledger κ} (hrecorded : l.recorded ⊆ l'.recorded) (hlive : l'.live ⊆ l.live)
    (hpending : l'.pending ⊆ l.pending) : Admits l l' where
  forgets _ hk := .inl (hrecorded hk)
  makes _ hk := .inl (hlive hk)
  reserves _ hk := .inl (hpending hk)

/-- A machine whose guarded steps keep to the order keeps its ledger covered. -/
theorem covered_of_run {M : Machine σ α ε} {ok : List ε → σ → α → Prop} (ledger : σ → Ledger κ) {s₀ s : σ}
    {log : List ε} (hzero : Covered (ledger s₀))
    (hstep : ∀ log s a s' e, ok log s a → M.step s a = some (s', e) → Admits (ledger s) (ledger s'))
    (hrun : M.RunIf ok s₀ log s) : Covered (ledger s) :=
  hrun.invariant (fun _ s => Covered (ledger s)) hzero
    fun log s a s' e h hok hs => h.step (hstep log s a s' e hok hs)

end Ledger
