import Mathlib.Data.List.Nodup
import ThesadaApp.AdminJobsSafe

/-!
What the job page says about a job, read off what has happened: running until the result is in the
store, then the target of its own work to one poll, and unknown to the later ones, or to all once the
result has lain there for ten minutes.
-/

namespace ThesadaApp.AdminJobs

variable {s s' : Server} {log pre post : List Event} {k : Nat} {id : UUID} {job : Job}

def Event.enqueuedId : Event → Option UUID
  | .enqueued _ id => some id
  | _ => none

def Event.redirectId : Event → Option UUID
  | .polled id (.redirect _) => some id
  | _ => none

/-- `uuid.New` does not give an id twice. -/
def FreshId (log : List Event) (_ : Server) : Action → Prop
  | .job _ (.enqueue id) => id ∉ log.filterMap Event.enqueuedId
  | _ => True

/-- The result of a job is not in the store any more: it was shown, or pruned. -/
def Lost (log : List Event) (id : UUID) (t : Time) : Prop :=
  (∃ target, .polled id (.redirect target) ∈ log) ∨ ∃ cutoff, .pruned cutoff ∈ log ∧ t < cutoff

instance (log : List Event) (s : Server) : (a : Action) → Decidable (FreshId log s a)
  | .job _ (.enqueue id) => inferInstanceAs (Decidable (id ∉ log.filterMap Event.enqueuedId))
  | .job _ .spawn | .job _ (.report _) | .job _ .cancel | .job _ (.workReturns _) | .job _ .workPanics
  | .job _ .mark | .job _ .finish | .post _ _ | .drain _ | .drainReturns _ | .drainTimesOut _ | .poll _ | .prune
  | .tick _ => isTrue trivial

section phases

/-- What a job's phase says about the past. -/
def PhaseLog (log : List Event) (k : Nat) : Phase → Prop
  | .begun => ∀ id, .enqueued k id ∉ log
  | .enqueued id | .working id => .enqueued k id ∈ log ∧ ∀ id target t, .marked k id target t ∉ log
  | .returned id target => .enqueued k id ∈ log ∧ .returned k id target ∈ log ∧
      ∀ id target t, .marked k id target t ∉ log
  | .marked id | .finished id => .enqueued k id ∈ log

/-- An event that does not enqueue or mark job `k`. -/
def Event.Apart (k : Nat) (e : Event) : Prop :=
  (∀ id, e ≠ .enqueued k id) ∧ ∀ id target t, e ≠ .marked k id target t

theorem PhaseLog.snoc {p : Phase} (h : PhaseLog log k p) {e : Event} (he : e.Apart k) :
    PhaseLog (log ++ [e]) k p := by
  have hmarked : (∀ id target t, .marked k id target t ∉ log) →
      ∀ id target t, .marked k id target t ∉ log ++ [e] := by
    intro hno id target t hmem
    obtain hmem | hmem := List.mem_append.mp hmem
    · exact hno id target t hmem
    · exact he.2 id target t (List.mem_singleton.mp hmem).symm
  cases p with
  | begun =>
      intro id hmem
      obtain hmem | hmem := List.mem_append.mp hmem
      · exact h id hmem
      · exact he.1 id (List.mem_singleton.mp hmem).symm
  | enqueued id | working id => exact ⟨List.mem_append_left _ h.1, hmarked h.2⟩
  | returned id target => exact ⟨List.mem_append_left _ h.1, List.mem_append_left _ h.2.1, hmarked h.2.2⟩
  | marked id | finished id => exact List.mem_append_left _ h

/-- The jobs and the log. -/
structure Link (log : List Event) (s : Server) : Prop where
  phase : ∀ k job, s.started[k]? = some job → PhaseLog log k job.phase
  known : ∀ k id, .enqueued k id ∈ log → k < s.started.length
  marked : ∀ k id target t, .marked k id target t ∈ log → .enqueued k id ∈ log ∧ .returned k id target ∈ log
  distinct : (log.filterMap Event.enqueuedId).Nodup

theorem link_boot : Link [] boot where
  phase _ _ h := by cases h
  known _ _ h := absurd h List.not_mem_nil
  marked _ _ _ _ h := absurd h List.not_mem_nil
  distinct := List.nodup_nil

theorem enqueuedIds_snoc {e : Event} (he : e.enqueuedId = none) :
    (log ++ [e]).filterMap Event.enqueuedId = log.filterMap Event.enqueuedId := by
  rw [List.filterMap_append, List.filterMap_cons_none he, List.filterMap_nil, List.append_nil]

theorem Link.marked_snoc (h : Link log s) {e : Event} (he : ∀ k id target t, e ≠ .marked k id target t)
    (k : Nat) (id : UUID) (target : String) (t : Time) (hmem : .marked k id target t ∈ log ++ [e]) :
    .enqueued k id ∈ log ++ [e] ∧ .returned k id target ∈ log ++ [e] := by
  obtain hmem | hmem := List.mem_append.mp hmem
  · exact ⟨List.mem_append_left _ (h.marked k id target t hmem).1,
      List.mem_append_left _ (h.marked k id target t hmem).2⟩
  · exact absurd (List.mem_singleton.mp hmem).symm (he k id target t)

/-- A step that leaves every job in its phase. -/
theorem Link.keep (h : Link log s) {e : Event} (he : ∀ k, e.Apart k)
    (hphases : ∀ (k : Nat) (job : Job), s'.started[k]? = some job →
      ∃ old, s.started[k]? = some old ∧ old.phase = job.phase)
    (hlength : s.started.length ≤ s'.started.length) : Link (log ++ [e]) s' := by
  have hid : e.enqueuedId = none := by
    cases e with
    | enqueued k id => exact absurd rfl ((he k).1 id)
    | refused | begun | reported | cancelled | returned | marked | finished | draining | drained | polled
    | pruned | panicked | ticked => rfl
  refine ⟨?_, ?_, h.marked_snoc fun k => (he k).2, ?_⟩
  · intro k job hk
    obtain ⟨old, hold, hsame⟩ := hphases k job hk
    rw [← hsame]
    exact (h.phase k old hold).snoc (he k)
  · intro k id hmem
    obtain hmem | hmem := List.mem_append.mp hmem
    · exact Nat.lt_of_lt_of_le (h.known k id hmem) hlength
    · exact absurd (List.mem_singleton.mp hmem).symm ((he k).1 id)
  · rw [enqueuedIds_snoc hid]
    exact h.distinct

/-- A step of job `k` that enqueues nothing and marks nothing. -/
theorem Link.move (h : Link log s) {e : Event} {p : Phase} (jobs : Store String) (runner : Runner)
    (he : ∀ k, e.Apart k) (hp : PhaseLog (log ++ [e]) k p) :
    Link (log ++ [e]) ({ s with jobs, runner }.setPhase k p) := by
  have hid : e.enqueuedId = none := by
    cases e with
    | enqueued k id => exact absurd rfl ((he k).1 id)
    | refused | begun | reported | cancelled | returned | marked | finished | draining | drained | polled
    | pruned | panicked | ticked => rfl
  refine ⟨?_, ?_, h.marked_snoc fun k => (he k).2, ?_⟩
  · intro k' job hk'
    obtain ⟨rfl, _, -, hphase⟩ | ⟨-, hk'⟩ := job_setPhase hk'
    · rw [hphase]
      exact hp
    · exact (h.phase k' job hk').snoc (he k')
  · intro k' id hmem
    show k' < (s.started.modify k _).length
    rw [List.length_modify]
    obtain hmem | hmem := List.mem_append.mp hmem
    · exact h.known k' id hmem
    · exact absurd (List.mem_singleton.mp hmem).symm ((he k').1 id)
  · rw [enqueuedIds_snoc hid]
    exact h.distinct

theorem Link.enqueue_step (h : Link log s) (hk : s.started[k]? = some job)
    (hphase : job.phase = .begun) (hfresh : id ∉ log.filterMap Event.enqueuedId) {jobs : Store String} :
    Link (log ++ [.enqueued k id]) ({ s with jobs }.setPhase k (.enqueued id)) := by
  have hold := h.phase k job hk
  rw [hphase] at hold
  have hmarked : ∀ id' target t, .marked k id' target t ∉ log := fun id' target t hmem =>
    hold id' (h.marked k id' target t hmem).1
  refine ⟨?_, ?_, h.marked_snoc fun _ _ _ _ => by simp, ?_⟩
  · intro k' job' hk'
    obtain ⟨rfl, _, -, hp⟩ | ⟨hne, hk'⟩ := job_setPhase hk'
    · rw [hp]
      refine ⟨List.mem_append_right _ List.mem_cons_self, ?_⟩
      intro id' target t hmem
      obtain hmem | hmem := List.mem_append.mp hmem
      · exact hmarked id' target t hmem
      · cases List.mem_singleton.mp hmem
    · refine (h.phase k' job' hk').snoc ⟨?_, by simp⟩
      rintro id' heq
      cases heq
      exact hne rfl
  · intro k' id' hmem
    show k' < (s.started.modify k _).length
    rw [List.length_modify]
    obtain hmem | hmem := List.mem_append.mp hmem
    · exact h.known k' id' hmem
    · cases List.mem_singleton.mp hmem
      exact (List.getElem?_eq_some_iff.mp hk).1
  · refine Machine.nodup_marks_snoc h.distinct fun id' hid => ?_
    obtain rfl := Option.some.inj hid
    exact hfresh

theorem Link.mark_step (h : Link log s) {target : String} (hk : s.started[k]? = some job)
    (hphase : job.phase = .returned id target) {jobs : Store String} :
    Link (log ++ [.marked k id target s.now]) ({ s with jobs }.setPhase k (.marked id)) := by
  have hold := h.phase k job hk
  rw [hphase] at hold
  refine ⟨?_, ?_, ?_, ?_⟩
  · intro k' job' hk'
    obtain ⟨rfl, _, -, hp⟩ | ⟨hne, hk'⟩ := job_setPhase hk'
    · rw [hp]
      exact List.mem_append_left _ hold.1
    · refine (h.phase k' job' hk').snoc ⟨by simp, ?_⟩
      rintro id' target' t heq
      cases heq
      exact hne rfl
  · intro k' id' hmem
    show k' < (s.started.modify k _).length
    rw [List.length_modify]
    obtain hmem | hmem := List.mem_append.mp hmem
    · exact h.known k' id' hmem
    · cases List.mem_singleton.mp hmem
  · intro k' id' target' t hmem
    obtain hmem | hmem := List.mem_append.mp hmem
    · exact ⟨List.mem_append_left _ (h.marked k' id' target' t hmem).1,
        List.mem_append_left _ (h.marked k' id' target' t hmem).2⟩
    · cases List.mem_singleton.mp hmem
      exact ⟨List.mem_append_left _ hold.1, List.mem_append_left _ hold.2.1⟩
  · rw [enqueuedIds_snoc rfl]
    exact h.distinct

/-- Only `enqueue` draws an id. -/
theorem enqueued_action {a : Action} (h : system.step s a = some (s', .enqueued k id)) :
    a = .job k (.enqueue id) := by
  cases a with
  | job k' a =>
      obtain ⟨job, hk, hjob⟩ := Option.bind_eq_some_iff.mp h
      cases a with
      | enqueue id' =>
          simp only [stepJob] at hjob
          split at hjob
          · cases hjob
            rfl
          · cases hjob
      | spawn | report | workReturns | workPanics | mark =>
          simp only [stepJob] at hjob
          split at hjob
          · cases hjob
          · cases hjob
      | cancel =>
          simp only [stepJob] at hjob
          split at hjob
          · cases hjob
          · cases hjob
      | finish =>
          simp only [stepJob] at hjob
          split at hjob
          · split at hjob
            · cases hjob
            · cases hjob
          · cases hjob
  | post total failTarget =>
      simp only [system, step] at h
      split at h
      · cases h
      · cases h
  | drain deadline =>
      simp only [system, step] at h
      split at h
      · cases h
      · cases h
  | drainReturns i =>
      simp only [system, step] at h
      split at h
      · cases h
      · cases h
  | drainTimesOut i =>
      simp only [system, step] at h
      split at h
      · split at h
        · cases h
        · cases h
      · cases h
  | poll id => cases h
  | prune => cases h
  | tick d => cases h

theorem Link.begun_step (h : Link log s) {runner : Runner} (total : Int) (failTarget : String) :
    Link (log ++ [.begun s.started.length])
      { s with runner, started := s.started ++ [⟨total, failTarget, false, .begun⟩] } := by
  refine ⟨?_, ?_, h.marked_snoc fun _ _ _ _ => by simp, ?_⟩
  · intro k job hk
    obtain hk | ⟨rfl, rfl⟩ := Machine.getElem?_concat_cases hk
    · exact (h.phase k job hk).snoc ⟨by simp, by simp⟩
    · intro id hmem
      obtain hmem | hmem := List.mem_append.mp hmem
      · exact Nat.lt_irrefl _ (h.known _ id hmem)
      · cases List.mem_singleton.mp hmem
  · intro k id hmem
    rw [List.length_append]
    obtain hmem | hmem := List.mem_append.mp hmem
    · exact Nat.lt_of_lt_of_le (h.known k id hmem) (Nat.le_add_right _ _)
    · cases List.mem_singleton.mp hmem
  · rw [enqueuedIds_snoc rfl]
    exact h.distinct

theorem Link.step (h : Link log s) {a : Action} {e : Event} (hfresh : FreshId log s a)
    (hstep : system.step s a = some (s', e)) : Link (log ++ [e]) s' := by
  have hsame : ∀ {e : Event}, (∀ k, e.Apart k) → s'.started = s.started → Link (log ++ [e]) s' :=
    fun he hs => h.keep he (fun k job hk => ⟨job, hs ▸ hk, rfl⟩) (Nat.le_of_eq (by rw [hs]))
  cases step_does hstep with
  | refused => exact hsame (fun k => ⟨by simp, by simp⟩) rfl
  | begun total failTarget hbegin => exact h.begun_step total failTarget
  | enqueued id hk hphase =>
      rw [enqueued_action hstep] at hfresh
      exact h.enqueue_step hk hphase hfresh
  | @spawned k job id hk hphase =>
      have hold := h.phase k job hk
      rw [hphase] at hold
      exact h.move _ _ (fun k => ⟨by simp, by simp⟩) (PhaseLog.snoc (p := .working id) hold ⟨by simp, by simp⟩)
  | reported n hk hphase => exact hsame (fun k => ⟨by simp, by simp⟩) rfl
  | @cancelled k =>
      refine h.keep (fun k => ⟨by simp, by simp⟩) ?_ (by simp)
      intro k' job' hk'
      rw [List.getElem?_modify, Option.map_eq_map, Option.map_eq_some_iff] at hk'
      obtain ⟨old, hold, rfl⟩ := hk'
      exact ⟨old, hold, by split <;> rfl⟩
  | @returned k job id target hk hphase =>
      have hold := h.phase k job hk
      rw [hphase] at hold
      have hnew := PhaseLog.snoc (p := .working id) hold (e := .returned k id target) ⟨by simp, by simp⟩
      exact h.move s.jobs s.runner (fun k => ⟨by simp, by simp⟩)
        ⟨hnew.1, List.mem_append_right _ List.mem_cons_self, hnew.2⟩
  | marked hk hphase => exact h.mark_step hk hphase
  | @finished k job id hk hphase hwg =>
      have hold := h.phase k job hk
      rw [hphase] at hold
      exact h.move s.jobs _ (fun k => ⟨by simp, by simp⟩)
        (PhaseLog.snoc (p := .finished id) hold ⟨by simp, by simp⟩)
  | belowZero hk hphase hwg => exact hsame (fun k => ⟨by simp, by simp⟩) rfl
  | draining deadline hdrain => exact hsame (fun k => ⟨by simp, by simp⟩) rfl
  | closedTwice deadline hdrain => exact hsame (fun k => ⟨by simp, by simp⟩) rfl
  | drained hi hwg => exact hsame (fun k => ⟨by simp, by simp⟩) rfl
  | polled id => exact hsame (fun k => ⟨by simp, by simp⟩) rfl
  | pruned => exact hsame (fun k => ⟨by simp, by simp⟩) rfl
  | ticked d => exact hsame (fun k => ⟨by simp, by simp⟩) rfl

/-- An id is of one job. -/
theorem Link.enqueued_unique (h : Link log s) {k k' : Nat} (hk : .enqueued k id ∈ log)
    (hk' : .enqueued k' id ∈ log) : k = k' := by
  have heq := Machine.eq_of_nodup_marks h.distinct hk hk' rfl rfl
  cases heq
  rfl

end phases

section page

/-- The result of a job as the store keeps it, or what became of it. -/
def Result (log : List Event) (jobs : Store String) (id : UUID) (target : String) (t : Time) : Prop :=
  (∃ e, jobs id = some e ∧ e.status = .done ∧ e.response = target ∧ e.finishedAt = t) ∨
    jobs id = none ∧ Lost log id t

/-- The store and the log. -/
structure Page (log : List Event) (s : Server) : Prop where
  live : ∀ k id, .enqueued k id ∈ log → (∀ target t, .marked k id target t ∉ log) →
    ∃ e, s.jobs id = some e ∧ e.status = .pending
  marked : ∀ k id target t, .marked k id target t ∈ log → Result log s.jobs id target t
  redirects : ∀ id target, .polled id (.redirect target) ∈ log → s.jobs id = none ∧ ∃ k, .enqueued k id ∈ log
  once : (log.filterMap Event.redirectId).Nodup
  entries : ∀ id e, s.jobs id = some e → ∃ k, .enqueued k id ∈ log

theorem page_boot : Page [] boot where
  live _ _ h := absurd h List.not_mem_nil
  marked _ _ _ _ h := absurd h List.not_mem_nil
  redirects _ _ h := absurd h List.not_mem_nil
  once := List.nodup_nil
  entries _ _ h := by cases h

theorem Lost.snoc {t : Time} (h : Lost log id t) (e : Event) : Lost (log ++ [e]) id t :=
  h.imp (fun ⟨target, hmem⟩ => ⟨target, List.mem_append_left _ hmem⟩)
    fun ⟨cutoff, hmem, hlt⟩ => ⟨cutoff, List.mem_append_left _ hmem, hlt⟩

theorem polled_of_redirectId {e : Event} (h : e.redirectId = some id) : ∃ target, e = .polled id (.redirect target) := by
  cases e with
  | polled id' a =>
      cases a with
      | redirect target =>
          cases h
          exact ⟨target, rfl⟩
      | running | unknown => cases h
  | refused | begun | enqueued | reported | cancelled | returned | marked | finished | draining | drained | pruned
  | panicked | ticked => cases h

theorem mem_of_snoc {x e : Event} (hx : x ∈ log ++ [e]) (hne : x ≠ e) : x ∈ log := by
  obtain hpast | hnow := List.mem_append.mp hx
  · exact hpast
  · exact absurd (List.mem_singleton.mp hnow) hne

/-- A step that keeps what every entry says of its job. -/
theorem Page.keep (h : Page log s) {e : Event} (f : UUID → Entry String → Entry String)
    (hf : ∀ id x, (f id x).status = x.status ∧ (f id x).response = x.response ∧
      (f id x).finishedAt = x.finishedAt)
    (hjobs : ∀ id, s'.jobs id = (s.jobs id).map (f id)) (he : ∀ k, e.Apart k)
    (hpoll : ∀ id target, e ≠ .polled id (.redirect target)) : Page (log ++ [e]) s' := by
  refine ⟨?_, ?_, ?_, ?_, ?_⟩
  · intro k id hmem hnone
    obtain ⟨x, hx, hpending⟩ := h.live k id (mem_of_snoc hmem fun heq => (he k).1 id heq.symm)
      fun target t hmark => hnone target t (List.mem_append_left _ hmark)
    refine ⟨f id x, ?_, (hf id x).1.trans hpending⟩
    rw [hjobs, hx, Option.map_some]
  · intro k id target t hmem
    obtain ⟨x, hx, hdone, hresp, hfin⟩ | ⟨hnone, hlost⟩ :=
      h.marked k id target t (mem_of_snoc hmem fun heq => (he k).2 id target t heq.symm)
    · refine .inl ⟨f id x, ?_, (hf id x).1.trans hdone, (hf id x).2.1.trans hresp, (hf id x).2.2.trans hfin⟩
      rw [hjobs, hx, Option.map_some]
    · refine .inr ⟨?_, hlost.snoc e⟩
      rw [hjobs, hnone, Option.map_none]
  · intro id target hmem
    obtain ⟨hnone, k, hk⟩ := h.redirects id target (mem_of_snoc hmem fun heq => hpoll id target heq.symm)
    refine ⟨?_, k, List.mem_append_left _ hk⟩
    rw [hjobs, hnone, Option.map_none]
  · refine Machine.nodup_marks_snoc h.once fun id hid => ?_
    obtain ⟨target, rfl⟩ := polled_of_redirectId hid
    exact absurd rfl (hpoll id target)
  · intro id x hx
    rw [hjobs] at hx
    obtain ⟨y, hy, -⟩ := Option.map_eq_some_iff.mp hx
    obtain ⟨k, hk⟩ := h.entries id y hy
    exact ⟨k, List.mem_append_left _ hk⟩

theorem Page.same (h : Page log s) {e : Event} (hjobs : s'.jobs = s.jobs) (he : ∀ k, e.Apart k)
    (hpoll : ∀ id target, e ≠ .polled id (.redirect target)) : Page (log ++ [e]) s' := by
  refine h.keep (fun _ x => x) (fun _ _ => ⟨rfl, rfl, rfl⟩) ?_ he hpoll
  intro id
  rw [hjobs, Option.map_id']

theorem Page.progress_step (h : Page log s) {n total : Int} (hjobs : s'.jobs = progress s.jobs id n total) :
    Page (log ++ [.reported k id n]) s' := by
  refine h.keep (fun id' x => if id' = id then { x with done := n, total } else x) ?_ ?_
    (fun _ => ⟨by simp, by simp⟩) (by simp)
  · intro id' x
    split
    · exact ⟨rfl, rfl, rfl⟩
    · exact ⟨rfl, rfl, rfl⟩
  · intro id'
    rw [hjobs, progress]
    by_cases hid : id' = id
    · subst hid
      rw [Function.update_self]
      simp
    · rw [Function.update_of_ne hid]
      simp [hid]

theorem Page.enqueue_step (h : Page log s) (hlink : Link log s) (hfresh : id ∉ log.filterMap Event.enqueuedId)
    (hjobs : s'.jobs = enqueue s.jobs id s.now) : Page (log ++ [.enqueued k id]) s' := by
  have hnew : ∀ k, .enqueued k id ∉ log := fun k hk => hfresh (List.mem_filterMap.mpr ⟨_, hk, rfl⟩)
  have hother : ∀ id', id' ≠ id → s'.jobs id' = s.jobs id' := fun id' hne => by
    rw [hjobs, enqueue, Function.update_of_ne hne]
  refine ⟨?_, ?_, ?_, ?_, ?_⟩
  · intro k' id' hmem hnone
    by_cases hid : id' = id
    · subst hid
      exact ⟨_, by rw [hjobs, enqueue, Function.update_self], rfl⟩
    · rw [hother id' hid]
      refine h.live k' id' ?_ fun target t hmark => hnone target t (List.mem_append_left _ hmark)
      obtain hmem | hmem := List.mem_append.mp hmem
      · exact hmem
      · cases List.mem_singleton.mp hmem
        exact absurd rfl hid
  · intro k' id' target t hmem
    obtain hmem | hmem := List.mem_append.mp hmem
    · have hid : id' ≠ id := fun heq => hnew k' (heq ▸ (hlink.marked k' id' target t hmem).1)
      rw [Result, hother id' hid]
      exact (h.marked k' id' target t hmem).imp_right fun hlost => ⟨hlost.1, hlost.2.snoc _⟩
    · cases List.mem_singleton.mp hmem
  · intro id' target hmem
    obtain hmem | hmem := List.mem_append.mp hmem
    · obtain ⟨hnone, k', hk'⟩ := h.redirects id' target hmem
      have hid : id' ≠ id := fun heq => hnew k' (heq ▸ hk')
      rw [hother id' hid]
      exact ⟨hnone, k', List.mem_append_left _ hk'⟩
    · cases List.mem_singleton.mp hmem
  · exact Machine.nodup_marks_snoc h.once fun _ hid => by cases hid
  · intro id' x hx
    by_cases hid : id' = id
    · exact ⟨k, List.mem_append_right _ (List.mem_singleton.mpr (by rw [hid]))⟩
    · rw [hother id' hid] at hx
      obtain ⟨k', hk'⟩ := h.entries id' x hx
      exact ⟨k', List.mem_append_left _ hk'⟩

theorem Page.mark_step (h : Page log s) (hlink : Link log s) {target : String} (hk : s.started[k]? = some job)
    (hphase : job.phase = .returned id target) (hjobs : s'.jobs = markDone s.jobs id target s.now) :
    Page (log ++ [.marked k id target s.now]) s' := by
  have hold := hlink.phase k job hk
  rw [hphase] at hold
  obtain ⟨hmine, -, hunmarked⟩ := hold
  obtain ⟨x, hx, -⟩ := h.live k id hmine (hunmarked id)
  have hother : ∀ id', id' ≠ id → s'.jobs id' = s.jobs id' := fun id' hne => by
    rw [hjobs, markDone, Function.update_of_ne hne]
  have hself : s'.jobs id = some { x with status := .done, response := target, finishedAt := s.now } := by
    rw [hjobs, markDone, Function.update_self, hx, Option.map_some]
  refine ⟨?_, ?_, ?_, ?_, ?_⟩
  · intro k' id' hmem hnone
    have hpast : .enqueued k' id' ∈ log := by
      obtain hpast | hlast := List.mem_append.mp hmem
      · exact hpast
      · cases List.mem_singleton.mp hlast
    have hid : id' ≠ id := by
      rintro rfl
      obtain rfl := hlink.enqueued_unique hpast hmine
      exact hnone target s.now (List.mem_append_right _ List.mem_cons_self)
    rw [hother id' hid]
    exact h.live k' id' hpast fun target' t hmark => hnone target' t (List.mem_append_left _ hmark)
  · intro k' id' target' t hmem
    obtain hpast | hlast := List.mem_append.mp hmem
    · have hid : id' ≠ id := by
        rintro rfl
        obtain rfl := hlink.enqueued_unique (hlink.marked k' id' target' t hpast).1 hmine
        exact hunmarked id' target' t hpast
      rw [Result, hother id' hid]
      exact (h.marked k' id' target' t hpast).imp_right fun hlost => ⟨hlost.1, hlost.2.snoc _⟩
    · cases List.mem_singleton.mp hlast
      exact .inl ⟨_, hself, rfl, rfl, rfl⟩
  · intro id' target' hmem
    obtain hmem | hmem := List.mem_append.mp hmem
    · obtain ⟨hnone, k', hk'⟩ := h.redirects id' target' hmem
      have hid : id' ≠ id := by
        rintro rfl
        rw [hnone] at hx
        cases hx
      rw [hother id' hid]
      exact ⟨hnone, k', List.mem_append_left _ hk'⟩
    · cases List.mem_singleton.mp hmem
  · exact Machine.nodup_marks_snoc h.once fun _ hid => by cases hid
  · intro id' y hy
    by_cases hid : id' = id
    · exact ⟨k, List.mem_append_left _ (hid ▸ hmine)⟩
    · rw [hother id' hid] at hy
      obtain ⟨k', hk'⟩ := h.entries id' y hy
      exact ⟨k', List.mem_append_left _ hk'⟩

theorem Page.prune_step (h : Page log s) {cutoff : Time} (hjobs : s'.jobs = pruneBefore s.jobs cutoff) :
    Page (log ++ [.pruned cutoff]) s' := by
  have hnone : ∀ id, s.jobs id = none → s'.jobs id = none := fun id hid => by
    rw [hjobs, pruneBefore, hid, Option.filter_none]
  have hsome : ∀ id x, s'.jobs id = some x → s.jobs id = some x := fun id x hx => by
    rw [hjobs, pruneBefore, Option.filter_eq_some_iff] at hx
    exact hx.1
  refine ⟨?_, ?_, ?_, ?_, ?_⟩
  · intro k id hmem hunmarked
    obtain ⟨x, hx, hpending⟩ := h.live k id (mem_of_snoc hmem (by simp))
      fun target t hmark => hunmarked target t (List.mem_append_left _ hmark)
    refine ⟨x, ?_, hpending⟩
    rw [hjobs, pruneBefore, hx, Option.filter_some, if_pos (by simp [hpending])]
  · intro k id target t hmem
    obtain ⟨x, hx, hdone, hresp, rfl⟩ | ⟨hgone, hlost⟩ := h.marked k id target t (mem_of_snoc hmem (by simp))
    · by_cases hkept : cutoff ≤ x.finishedAt
      · refine .inl ⟨x, ?_, hdone, hresp, rfl⟩
        rw [hjobs, pruneBefore, hx, Option.filter_some, if_pos (by simp [hkept])]
      · refine .inr ⟨?_, .inr ⟨cutoff, List.mem_append_right _ List.mem_cons_self, Int.not_le.mp hkept⟩⟩
        rw [hjobs, pruneBefore, hx, Option.filter_some, if_neg (by simp [hdone, hkept])]
    · exact .inr ⟨hnone id hgone, hlost.snoc _⟩
  · intro id target hmem
    obtain ⟨hgone, k, hk⟩ := h.redirects id target (mem_of_snoc hmem (by simp))
    exact ⟨hnone id hgone, k, List.mem_append_left _ hk⟩
  · exact Machine.nodup_marks_snoc h.once fun _ hid => by cases hid
  · intro id x hx
    obtain ⟨k, hk⟩ := h.entries id x (hsome id x hx)
    exact ⟨k, List.mem_append_left _ hk⟩

/-- A poll of a finished job takes the result with it. -/
theorem Page.show_step (h : Page log s) {x : Entry String} (hx : s.jobs id = some x)
    (hdone : x.status ≠ .pending) (hjobs : s'.jobs = Function.update s.jobs id none) :
    Page (log ++ [.polled id (.redirect x.response)]) s' := by
  have hother : ∀ id', id' ≠ id → s'.jobs id' = s.jobs id' := fun id' hne => by
    rw [hjobs, Function.update_of_ne hne]
  have hself : s'.jobs id = none := by rw [hjobs, Function.update_self]
  have hlast : .polled id (.redirect x.response) ∈ log ++ [.polled id (.redirect x.response)] :=
    List.mem_append_right _ List.mem_cons_self
  refine ⟨?_, ?_, ?_, ?_, ?_⟩
  · intro k id' hmem hunmarked
    obtain ⟨y, hy, hpending⟩ := h.live k id' (mem_of_snoc hmem (by simp))
      fun target t hmark => hunmarked target t (List.mem_append_left _ hmark)
    have hid : id' ≠ id := by
      rintro rfl
      rw [hx] at hy
      cases hy
      exact hdone hpending
    exact ⟨y, (hother id' hid).trans hy, hpending⟩
  · intro k id' target t hmem
    have hres := h.marked k id' target t (mem_of_snoc hmem (by simp))
    by_cases hid : id' = id
    · subst hid
      exact .inr ⟨hself, .inl ⟨_, hlast⟩⟩
    · rw [Result, hother id' hid]
      exact hres.imp_right fun hlost => ⟨hlost.1, hlost.2.snoc _⟩
  · intro id' target hmem
    by_cases hid : id' = id
    · subst hid
      obtain ⟨k, hk⟩ := h.entries id' x hx
      exact ⟨hself, k, List.mem_append_left _ hk⟩
    · obtain ⟨hnone, k, hk⟩ := h.redirects id' target (mem_of_snoc hmem fun heq => by
        cases heq
        exact hid rfl)
      exact ⟨(hother id' hid).trans hnone, k, List.mem_append_left _ hk⟩
  · refine Machine.nodup_marks_snoc h.once fun v hv hpast => ?_
    obtain rfl := Option.some.inj hv
    obtain ⟨e, he, hmark⟩ := List.mem_filterMap.mp hpast
    obtain ⟨target, rfl⟩ := polled_of_redirectId hmark
    rw [(h.redirects id target he).1] at hx
    cases hx
  · intro id' y hy
    by_cases hid : id' = id
    · subst hid
      rw [hself] at hy
      cases hy
    · rw [hother id' hid] at hy
      obtain ⟨k, hk⟩ := h.entries id' y hy
      exact ⟨k, List.mem_append_left _ hk⟩

theorem Page.poll_step (h : Page log s) (id : UUID) :
    Page (log ++ [.polled id (answer (get s.jobs id).1)]) { s with jobs := (get s.jobs id).2 } := by
  unfold get
  cases hx : s.jobs id with
  | none => exact h.same rfl (fun _ => ⟨by simp, by simp⟩) (by simp [answer])
  | some x =>
      dsimp only
      by_cases hpending : x.status = .pending
      · rw [if_pos hpending]
        exact h.same rfl (fun _ => ⟨by simp, by simp⟩) (by simp [answer, hpending])
      · rw [if_neg hpending, answer, if_neg hpending]
        exact h.show_step hx hpending rfl

theorem Page.step (h : Page log s) (hlink : Link log s) {a : Action} {e : Event} (hfresh : FreshId log s a)
    (hstep : system.step s a = some (s', e)) : Page (log ++ [e]) s' := by
  cases step_does hstep with
  | enqueued id hk hphase =>
      rw [enqueued_action hstep] at hfresh
      exact h.enqueue_step hlink hfresh rfl
  | spawned hk hphase => exact h.progress_step rfl
  | reported n hk hphase => exact h.progress_step rfl
  | marked hk hphase => exact h.mark_step hlink hk hphase rfl
  | polled id => exact h.poll_step id
  | pruned => exact h.prune_step rfl
  | refused | begun | cancelled | returned | finished | belowZero | draining | closedTwice | drained
  | ticked => exact h.same rfl (fun _ => ⟨by simp, by simp⟩) (by simp)

theorem page_run (hrun : system.RunIf FreshId boot log s) : Link log s ∧ Page log s := by
  refine hrun.invariant (fun log s => Link log s ∧ Page log s) ⟨link_boot, page_boot⟩ ?_
  rintro log s a s' e ⟨hlink, hpage⟩ hok hstep
  exact ⟨hlink.step hok hstep, hpage.step hlink hok hstep⟩

end page

/-- DrainJobs without an error: every job begun before has left its result and ended, and none begins
afterwards. Nothing panics on the way. The results are in the store from then on, until they are shown or pruned. -/
theorem drained_stops (hrun : system.Run boot (pre ++ .drained true :: post) s) :
    (∀ k, .begun k ∈ pre → .finished k ∈ pre ∧ ∃ id target t, .marked k id target t ∈ pre ∧
        (system.RunIf FreshId boot (pre ++ .drained true :: post) s →
          Result (pre ++ .drained true :: post) s.jobs id target t)) ∧
      (∀ k, .begun k ∉ post) ∧ .panicked ∉ pre ++ .drained true :: post := by
  obtain ⟨s₁, a, s₂, hpre, -, hstep, hpost⟩ := hrun.at_event
  have hinv := runnerInv_run hpre
  have hdoes := step_does hstep
  generalize he : Event.drained true = e at hdoes
  cases hdoes with
  | @drained i ok hi hwg =>
      cases he
      have hstopped : s₁.runner.stopped = true := by
        refine hinv.drains ?_
        rintro hnil
        rw [hnil] at hi
        exact absurd hi (Nat.not_lt_zero _)
      refine ⟨?_, (stopped_run (s := { s₁ with drains := s₁.drains.eraseIdx i }) hstopped hpost).2,
        (runnerInv_run hrun).safe⟩
      intro k hk
      obtain ⟨job, hjob⟩ : ∃ job, s₁.started[k]? = some job :=
        ⟨_, List.getElem?_eq_getElem (hinv.begun k hk)⟩
      have hdone : job.phase.unfinished = false := by
        rw [Bool.eq_false_iff]
        intro hun
        have hpos := hinv.wg_pos hjob hun
        rw [hwg rfl] at hpos
        exact absurd hpos (Nat.lt_irrefl 0)
      refine ⟨hinv.done k _ hjob hdone, ?_⟩
      cases hphase : job.phase with
      | finished id =>
          obtain ⟨target, t, hmark⟩ := hinv.marked k _ id hjob (.inr hphase)
          exact ⟨id, target, t, hmark, fun hfresh =>
            (page_run hfresh).2.marked k id target t (List.mem_append_left _ hmark)⟩
      | begun | enqueued | working | returned | marked =>
          rw [hphase] at hdone
          cases hdone
  | refused | begun | enqueued | spawned | reported | cancelled | returned | marked | finished | belowZero
  | draining | closedTwice | polled | pruned | ticked => cases he

/-- A job that ends before the drain returns. -/
def drainedJob : List Action :=
  [.post 3 "/devices", .job 0 (.enqueue 7), .job 0 .spawn, .drain none, .post 1 "/rules", .job 0 .cancel,
    .job 0 (.workReturns "/devices?ok=1"), .job 0 .mark, .job 0 .finish, .drainReturns 0]

theorem drained_stops_drainedJob : ∃ pre post s, system.Run boot (pre ++ .drained true :: post) s ∧
    .begun 0 ∈ pre ∧ .finished 0 ∈ pre := by
  have hexec : (system.execIf (fun _ _ _ => True) [] boot drainedJob).any
      (fun out => out.1.head? = some (.begun 0) ∧ .drained true ∈ out.1.tail) = true := by decide +kernel
  obtain ⟨log, s, hrun, hlast⟩ := Machine.exists_runIf_of_any hexec
  obtain ⟨hbegun, hdrained⟩ := of_decide_eq_true hlast
  obtain ⟨e, rest, rfl⟩ : ∃ e rest, log = e :: rest := List.exists_cons_of_ne_nil fun hnil => by
    rw [hnil] at hbegun
    cases hbegun
  obtain ⟨pre, post, rfl⟩ := List.append_of_mem hdrained
  cases hbegun
  have hdrain : system.Run boot ((.begun 0 :: pre) ++ .drained true :: post) s := hrun
  exact ⟨.begun 0 :: pre, post, s, hdrain, List.mem_cons_self, ((drained_stops hdrain).1 0 List.mem_cons_self).1⟩

/-- What the page of job `k` says, by what has happened before and what happens after. -/
def PageSays (pre post : List Event) (k : Nat) (id : UUID) : Answer → Prop
  | .running _ _ => ∀ target t, .marked k id target t ∉ pre
  | .redirect target => .returned k id target ∈ pre ∧ ∀ target', .polled id (.redirect target') ∉ pre ++ post
  | .unknown => ∃ target t, .marked k id target t ∈ pre ∧ Lost pre id t

/-- Every poll of a job's page answers by what has happened to the job. -/
theorem polled_says {a : Answer} (hrun : system.RunIf FreshId boot (pre ++ .polled id a :: post) s)
    (hjob : .enqueued k id ∈ pre) : PageSays pre post k id a := by
  obtain ⟨s₁, act, s₂, hpre, -, hstep, -⟩ := hrun.at_event
  obtain ⟨hlink, hpage⟩ := page_run hpre
  have honce := (page_run hrun).2.once
  have hdoes := step_does hstep
  generalize he : Event.polled id a = e at hdoes
  cases hdoes with
  | polled id' =>
      cases he
      -- whether the result was there when the page asked
      by_cases hmarked : ∃ target t, .marked k id target t ∈ pre
      · obtain ⟨target, t, hmark⟩ := hmarked
        obtain ⟨x, hx, hdone, hresp, -⟩ | ⟨hnone, hlost⟩ := hpage.marked k id target t hmark
        · have hanswer : answer (get s₁.jobs id).1 = .redirect target := by
            simp [get, hx, answer, hdone, hresp]
          rw [hanswer] at honce ⊢
          refine ⟨(hlink.marked k id target t hmark).2, ?_⟩
          intro target' hmem
          exact Machine.ne_mark_of_nodup_marks honce rfl hmem rfl
        · have hanswer : answer (get s₁.jobs id).1 = .unknown := by
            simp [get, hnone, answer]
          rw [hanswer]
          exact ⟨target, t, hmark, hlost⟩
      · have hunmarked : ∀ target t, .marked k id target t ∉ pre := fun target t hmark =>
          hmarked ⟨target, t, hmark⟩
        obtain ⟨x, hx, hpending⟩ := hpage.live k id hjob hunmarked
        have hanswer : answer (get s₁.jobs id).1 = .running x.done x.total := by
          simp [get, hx, answer, hpending]
        rw [hanswer]
        exact hunmarked
  | refused | begun | enqueued | spawned | reported | cancelled | returned | marked | finished | belowZero
  | draining | closedTwice | drained | pruned | ticked => cases he

/-- A job whose page is opened before and after its work ends. -/
def polledJob : List Action :=
  [.post 3 "/devices", .job 0 (.enqueue 7), .job 0 .spawn, .poll 7, .job 0 (.workReturns "/devices?ok=1"),
    .job 0 .mark, .poll 7]

theorem polled_says_polledJob : ∃ pre s,
    system.RunIf FreshId boot (pre ++ [.polled 7 (.redirect "/devices?ok=1")]) s ∧
      PageSays pre [] 0 7 (.redirect "/devices?ok=1") := by
  have hexec : (system.execIf FreshId [] boot polledJob).any (fun out => .enqueued 0 7 ∈ out.1.dropLast ∧
      out.1.getLast? = some (.polled 7 (.redirect "/devices?ok=1"))) = true := by decide +kernel
  obtain ⟨log, s, hrun, hlast⟩ := Machine.exists_runIf_of_any hexec
  obtain ⟨hjob, hlast⟩ := of_decide_eq_true hlast
  obtain ⟨pre, rfl⟩ := List.getLast?_eq_some_iff.mp hlast
  rw [List.dropLast_concat] at hjob
  exact ⟨pre, s, hrun, polled_says hrun hjob⟩

end ThesadaApp.AdminJobs
