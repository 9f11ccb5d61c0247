import ThesadaApp.AdminJobs

/-!
What the job page and the shutdown can rely on. A drain that reports no error leaves no job running,
every job begun has its result in the store by then, and no job begins afterwards; the stop channel is
closed at most once and the wait group never goes below zero. A job's page says running until the
result is there, gives the target of the work, or the failure target after a panic, to one poll, and
loses it before only when nobody has polled for ten minutes.
-/

namespace ThesadaApp.AdminJobs

variable {s s' : Server} {log pre post : List Event} {k : Nat} {id : UUID} {job : Job}

section steps

/-- What a step can do. -/
inductive Does (s : Server) : Server → Event → Prop
  | refused (hstopped : s.runner.stopped = true) : Does s s .refused
  | begun {runner : Runner} (total : Int) (failTarget : String) (hbegin : s.runner.begin = some runner) :
      Does s { s with runner, started := s.started ++ [⟨total, failTarget, false, .begun⟩] }
        (.begun s.started.length)
  | enqueued {k : Nat} {job : Job} (id : UUID) (hk : s.started[k]? = some job) (hphase : job.phase = .begun) :
      Does s ({ s with jobs := enqueue s.jobs id s.now }.setPhase k (.enqueued id)) (.enqueued k id)
  | spawned {k : Nat} {job : Job} {id : UUID} (hk : s.started[k]? = some job)
      (hphase : job.phase = .enqueued id) :
      Does s ({ s with jobs := progress s.jobs id 0 job.total }.setPhase k (.working id)) (.reported k id 0)
  | reported {k : Nat} {job : Job} {id : UUID} (n : Int) (hk : s.started[k]? = some job)
      (hphase : job.phase = .working id) :
      Does s { s with jobs := progress s.jobs id n job.total } (.reported k id n)
  | cancelled {k : Nat} :
      Does s { s with started := s.started.modify k fun job => { job with cancelled := true } } (.cancelled k)
  | returned {k : Nat} {job : Job} {id : UUID} (target : String) (hk : s.started[k]? = some job)
      (hphase : job.phase = .working id) : Does s (s.setPhase k (.returned id target)) (.returned k id target)
  | marked {k : Nat} {job : Job} {id : UUID} {target : String} (hk : s.started[k]? = some job)
      (hphase : job.phase = .returned id target) :
      Does s ({ s with jobs := markDone s.jobs id target s.now }.setPhase k (.marked id))
        (.marked k id target s.now)
  | finished {k : Nat} {job : Job} {id : UUID} (hk : s.started[k]? = some job) (hphase : job.phase = .marked id)
      (hwg : s.runner.wg ≠ 0) :
      Does s ({ s with runner := { s.runner with wg := s.runner.wg - 1 } }.setPhase k (.finished id))
        (.finished k)
  | belowZero {k : Nat} {job : Job} {id : UUID} (hk : s.started[k]? = some job) (hphase : job.phase = .marked id)
      (hwg : s.runner.wg = 0) : Does s s .panicked
  | draining {runner : Runner} (deadline : Option Time) (hdrain : s.runner.drain deadline = some runner) :
      Does s { s with runner, drains := s.drains ++ [deadline] } .draining
  | closedTwice (deadline : Option Time) (hdrain : s.runner.drain deadline = none) : Does s s .panicked
  | drained {i : Nat} {ok : Bool} (hi : i < s.drains.length) (hwg : ok = true → s.runner.wg = 0) :
      Does s { s with drains := s.drains.eraseIdx i } (.drained ok)
  | polled (id : UUID) : Does s { s with jobs := (get s.jobs id).2 } (.polled id (answer (get s.jobs id).1))
  | pruned : Does s { s with jobs := pruneBefore s.jobs (s.now - entryTTL) } (.pruned (s.now - entryTTL))
  | ticked (d : Nat) : Does s { s with now := s.now + d } .ticked

theorem stepJob_does {a : JobAction} {e : Event} (hk : s.started[k]? = some job)
    (h : stepJob s k job a = some (s', e)) : Does s s' e := by
  cases a with
  | enqueue id =>
      simp only [stepJob] at h
      split at h
      · next hphase =>
          cases h
          exact .enqueued id hk hphase
      · cases h
  | spawn =>
      simp only [stepJob] at h
      split at h
      · next hphase =>
          cases h
          exact .spawned hk hphase
      · cases h
  | report n =>
      simp only [stepJob] at h
      split at h
      · next hphase =>
          cases h
          exact .reported n hk hphase
      · cases h
  | cancel =>
      simp only [stepJob] at h
      split at h
      · cases h
        exact .cancelled
      · cases h
  | workReturns target =>
      simp only [stepJob] at h
      split at h
      · next hphase =>
          cases h
          exact .returned target hk hphase
      · cases h
  | workPanics =>
      simp only [stepJob] at h
      split at h
      · next hphase =>
          cases h
          exact .returned job.failTarget hk hphase
      · cases h
  | mark =>
      simp only [stepJob] at h
      split at h
      · next hphase =>
          cases h
          exact .marked hk hphase
      · cases h
  | finish =>
      simp only [stepJob] at h
      split at h
      · next hphase =>
          split at h
          · next hwg =>
              cases h
              exact .belowZero hk hphase hwg
          · next hwg =>
              cases h
              exact .finished hk hphase hwg
      · cases h

theorem step_does {a : Action} {e : Event} (h : system.step s a = some (s', e)) : Does s s' e := by
  cases a with
  | post total failTarget =>
      simp only [system, step] at h
      split at h
      · next hbegin =>
          cases h
          refine .refused ?_
          unfold Runner.begin at hbegin
          split at hbegin
          · assumption
          · cases hbegin
      · next runner hbegin =>
          cases h
          exact .begun total failTarget hbegin
  | job k a =>
      obtain ⟨job, hk, hjob⟩ := Option.bind_eq_some_iff.mp h
      exact stepJob_does hk hjob
  | drain deadline =>
      simp only [system, step] at h
      split at h
      · next hdrain =>
          cases h
          exact .closedTwice deadline hdrain
      · next runner hdrain =>
          cases h
          exact .draining deadline hdrain
  | drainReturns i =>
      simp only [system, step] at h
      split at h
      · next hi =>
          cases h
          exact .drained hi.1 fun _ => hi.2
      · cases h
  | drainTimesOut i =>
      simp only [system, step] at h
      split at h
      · next d hd =>
          split at h
          · cases h
            exact .drained (List.getElem?_eq_some_iff.mp hd).1 (by simp)
          · cases h
      · cases h
  | poll id =>
      cases h
      exact .polled id
  | prune =>
      cases h
      exact .pruned
  | tick d =>
      cases h
      exact .ticked d

theorem job_setPhase {p : Phase} {k' : Nat} (h : (s.setPhase k p).started[k']? = some job) :
    k' = k ∧ (∃ old, s.started[k]? = some old ∧ job.phase = p) ∨ k' ≠ k ∧ s.started[k']? = some job := by
  unfold Server.setPhase at h
  dsimp only at h
  by_cases hk : k' = k
  · subst hk
    rw [List.getElem?_modify_eq, Option.map_eq_map, Option.map_eq_some_iff] at h
    obtain ⟨old, hold, rfl⟩ := h
    exact .inl ⟨rfl, old, hold, rfl⟩
  · rw [List.getElem?_modify_ne _ _ (Ne.symm hk)] at h
    exact .inr ⟨hk, h⟩

end steps

section shutdown

def Phase.unfinished : Phase → Bool
  | .finished _ => false
  | _ => true

theorem countP_modify {p : Job → Bool} {f : Job → Job} {l : List Job} (h : l[k]? = some job) :
    (l.modify k f).countP p + (if p job then 1 else 0) = l.countP p + if p (f job) then 1 else 0 := by
  induction l generalizing k with
  | nil => cases h
  | cons x l ih =>
      cases k with
      | zero =>
          cases h
          rw [List.modify_zero_cons, List.countP_cons, List.countP_cons]
          omega
      | succ k =>
          rw [List.modify_succ_cons, List.countP_cons, List.countP_cons]
          have hrest := ih h
          omega

/-- The runner and the jobs it counts. -/
structure RunnerInv (log : List Event) (s : Server) : Prop where
  wg : s.runner.wg = s.started.countP fun job => job.phase.unfinished
  closed : s.runner.stop = .closed → s.runner.stopped = true
  drains : s.drains ≠ [] → s.runner.stopped = true
  begun : ∀ k, .begun k ∈ log → k < s.started.length
  done : ∀ k job, s.started[k]? = some job → job.phase.unfinished = false → .finished k ∈ log
  marked : ∀ k job id, s.started[k]? = some job → job.phase = .marked id ∨ job.phase = .finished id →
    ∃ target t, .marked k id target t ∈ log
  safe : .panicked ∉ log

theorem runnerInv_boot : RunnerInv [] boot where
  wg := rfl
  closed h := by cases h
  drains h := absurd rfl h
  begun _ h := absurd h List.not_mem_nil
  done _ _ h := by cases h
  marked _ _ _ h := by cases h
  safe := List.not_mem_nil

/-- A step that leaves the runner and the jobs alone. -/
theorem RunnerInv.keep (h : RunnerInv log s) {e : Event} (hrunner : s'.runner = s.runner)
    (hstarted : s'.started = s.started) (hdrains : s'.drains ≠ [] → s.drains ≠ [])
    (hbegun : ∀ k, e ≠ .begun k) (hsafe : e ≠ .panicked) : RunnerInv (log ++ [e]) s' := by
  refine ⟨?_, ?_, ?_, ?_, ?_, ?_, ?_⟩
  · rw [hrunner, hstarted]
    exact h.wg
  · rw [hrunner]
    exact h.closed
  · rw [hrunner]
    exact fun hne => h.drains (hdrains hne)
  · intro k hk
    rw [hstarted]
    obtain hk | hk := List.mem_append.mp hk
    · exact h.begun k hk
    · exact absurd (List.mem_singleton.mp hk).symm (hbegun k)
  · intro k job hk hdone
    rw [hstarted] at hk
    exact List.mem_append_left _ (h.done k job hk hdone)
  · intro k job id hk hphase
    rw [hstarted] at hk
    obtain ⟨target, t, hmem⟩ := h.marked k job id hk hphase
    exact ⟨target, t, List.mem_append_left _ hmem⟩
  · rw [List.mem_append, not_or, List.mem_singleton]
    exact ⟨h.safe, Ne.symm hsafe⟩

/-- A step that moves job `k`, which is not finished, to another phase. -/
theorem RunnerInv.move (h : RunnerInv log s) {e : Event} {p : Phase} (jobs : Store String) {wg : Nat}
    (hk : s.started[k]? = some job) (hold : job.phase.unfinished = true)
    (hwg : wg + (if p.unfinished then 0 else 1) = s.runner.wg)
    (hbegun : ∀ k, e ≠ .begun k) (hsafe : e ≠ .panicked) (hdone : p.unfinished = false → e = .finished k)
    (hmarked : ∀ id, p = .marked id ∨ p = .finished id → ∃ target t, .marked k id target t ∈ log ++ [e]) :
    RunnerInv (log ++ [e]) ({ s with jobs, runner := { s.runner with wg } }.setPhase k p) := by
  refine ⟨?_, h.closed, h.drains, ?_, ?_, ?_, ?_⟩
  · have hcount := countP_modify (p := fun job => job.phase.unfinished)
      (f := fun job => { job with phase := p }) hk
    have hall := h.wg
    simp only [hold, if_true] at hcount
    show wg = (s.started.modify k fun job => { job with phase := p }).countP _
    cases hp : p.unfinished with
    | true =>
        rw [hp] at hwg hcount
        simp only [if_true] at hwg hcount
        omega
    | false =>
        rw [hp] at hwg hcount
        simp only [Bool.false_eq_true, if_false] at hwg hcount
        omega
  · intro k' hk'
    show k' < (s.started.modify k _).length
    rw [List.length_modify]
    obtain hk' | hk' := List.mem_append.mp hk'
    · exact h.begun k' hk'
    · exact absurd (List.mem_singleton.mp hk').symm (hbegun k')
  · intro k' job' hk' hfin
    obtain ⟨rfl, _, -, hp⟩ | ⟨-, hk'⟩ := job_setPhase hk'
    · rw [hp] at hfin
      rw [hdone hfin]
      exact List.mem_append_right _ List.mem_cons_self
    · exact List.mem_append_left _ (h.done k' job' hk' hfin)
  · intro k' job' id hk' hphase
    obtain ⟨rfl, _, -, hp⟩ | ⟨-, hk'⟩ := job_setPhase hk'
    · rw [hp] at hphase
      exact hmarked id hphase
    · obtain ⟨target, t, hmem⟩ := h.marked k' job' id hk' hphase
      exact ⟨target, t, List.mem_append_left _ hmem⟩
  · rw [List.mem_append, not_or, List.mem_singleton]
    exact ⟨h.safe, Ne.symm hsafe⟩

theorem RunnerInv.begun_step (h : RunnerInv log s) {runner : Runner} (total : Int) (failTarget : String)
    (hbegin : s.runner.begin = some runner) : RunnerInv (log ++ [.begun s.started.length])
      { s with runner, started := s.started ++ [⟨total, failTarget, false, .begun⟩] } := by
  unfold Runner.begin at hbegin
  split at hbegin
  · cases hbegin
  · next hstopped =>
      cases hbegin
      refine ⟨?_, ?_, fun hne => absurd (h.drains hne) hstopped, ?_, ?_, ?_, ?_⟩
      · show s.runner.wg + 1 = _
        rw [List.countP_append, ← h.wg]
        rfl
      · intro hclosed
        dsimp only at hclosed
        split at hclosed
        · cases hclosed
        · exact h.closed hclosed
      · intro k hk
        show k < (s.started ++ [_]).length
        rw [List.length_append, List.length_singleton]
        obtain hk | hk := List.mem_append.mp hk
        · exact Nat.lt_succ_of_lt (h.begun k hk)
        · cases List.mem_singleton.mp hk
          exact Nat.lt_succ_self _
      · intro k job hk hdone
        obtain hk | ⟨-, rfl⟩ := Machine.getElem?_concat_cases hk
        · exact List.mem_append_left _ (h.done k job hk hdone)
        · cases hdone
      · intro k job id hk hphase
        obtain hk | ⟨-, rfl⟩ := Machine.getElem?_concat_cases hk
        · obtain ⟨target, t, hmem⟩ := h.marked k job id hk hphase
          exact ⟨target, t, List.mem_append_left _ hmem⟩
        · simp at hphase
      · rw [List.mem_append, not_or, List.mem_singleton]
        exact ⟨h.safe, by simp⟩

theorem RunnerInv.draining_step (h : RunnerInv log s) {runner : Runner} (deadline : Option Time)
    (hdrain : s.runner.drain deadline = some runner) : RunnerInv (log ++ [.draining])
      { s with runner, drains := s.drains ++ [deadline] } := by
  have hrunner : runner.wg = s.runner.wg ∧ runner.stopped = true := by
    unfold Runner.drain at hdrain
    split at hdrain
    · next hstopped =>
        cases hdrain
        exact ⟨rfl, hstopped⟩
    · split at hdrain
      · cases hdrain
        exact ⟨rfl, rfl⟩
      · cases hdrain
        exact ⟨rfl, rfl⟩
      · cases hdrain
  have hmem : ∀ {e : Event}, e ∈ log → e ∈ log ++ [.draining] := fun he => List.mem_append_left _ he
  refine ⟨hrunner.1.trans h.wg, fun _ => hrunner.2, fun _ => hrunner.2, ?_, ?_, ?_, ?_⟩
  · intro k hk
    obtain hk | hk := List.mem_append.mp hk
    · exact h.begun k hk
    · cases List.mem_singleton.mp hk
  · exact fun k job hk hdone => hmem (h.done k job hk hdone)
  · intro k job id hk hphase
    obtain ⟨target, t, hmark⟩ := h.marked k job id hk hphase
    exact ⟨target, t, hmem hmark⟩
  · rw [List.mem_append, not_or, List.mem_singleton]
    exact ⟨h.safe, by simp⟩

theorem RunnerInv.cancelled_step (h : RunnerInv log s) (k : Nat) : RunnerInv (log ++ [.cancelled k])
    { s with started := s.started.modify k fun job => { job with cancelled := true } } := by
  have hphase : ∀ {k' : Nat} {job' : Job},
      (s.started.modify k fun job => { job with cancelled := true })[k']? = some job' →
      ∃ old, s.started[k']? = some old ∧ old.phase = job'.phase := by
    intro k' job' hk'
    rw [List.getElem?_modify, Option.map_eq_map, Option.map_eq_some_iff] at hk'
    obtain ⟨old, hold, rfl⟩ := hk'
    exact ⟨old, hold, by split <;> rfl⟩
  have hmem : ∀ {e : Event}, e ∈ log → e ∈ log ++ [.cancelled k] := fun he => List.mem_append_left _ he
  refine ⟨?_, h.closed, h.drains, ?_, ?_, ?_, ?_⟩
  · show s.runner.wg = (s.started.modify k _).countP _
    rw [h.wg]
    cases hk : s.started[k]? with
    | none => rw [List.modify_eq_self (by simpa using hk)]
    | some job =>
        have hcount := countP_modify (p := fun job => job.phase.unfinished)
          (f := fun job => { job with cancelled := true }) hk
        simp only at hcount
        omega
  · intro k' hk'
    show k' < (s.started.modify k _).length
    rw [List.length_modify]
    obtain hk' | hk' := List.mem_append.mp hk'
    · exact h.begun k' hk'
    · cases List.mem_singleton.mp hk'
  · intro k' job' hk' hdone
    obtain ⟨old, hold, hsame⟩ := hphase hk'
    exact hmem (h.done k' old hold (by rw [hsame]; exact hdone))
  · intro k' job' id hk' hp
    obtain ⟨old, hold, hsame⟩ := hphase hk'
    obtain ⟨target, t, hmark⟩ := h.marked k' old id hold (by rw [hsame]; exact hp)
    exact ⟨target, t, hmem hmark⟩
  · rw [List.mem_append, not_or, List.mem_singleton]
    exact ⟨h.safe, by simp⟩

/-- A job that has not finished is counted. -/
theorem RunnerInv.wg_pos (h : RunnerInv log s) (hk : s.started[k]? = some job)
    (hphase : job.phase.unfinished = true) : 0 < s.runner.wg := by
  rw [h.wg, List.countP_pos_iff]
  exact ⟨job, List.mem_of_getElem? hk, hphase⟩

theorem RunnerInv.step (h : RunnerInv log s) {e : Event} (hdoes : Does s s' e) : RunnerInv (log ++ [e]) s' := by
  cases hdoes with
  | refused => exact h.keep rfl rfl (fun hne => hne) (by simp) (by simp)
  | begun total failTarget hbegin => exact h.begun_step total failTarget hbegin
  | enqueued id hk hphase =>
      exact h.move _ hk (by rw [hphase]; rfl) rfl (by simp) (by simp) (fun hno => by cases hno) (by simp)
  | spawned hk hphase =>
      exact h.move _ hk (by rw [hphase]; rfl) rfl (by simp) (by simp) (fun hno => by cases hno) (by simp)
  | reported n hk hphase => exact h.keep rfl rfl (fun hne => hne) (by simp) (by simp)
  | cancelled => exact h.cancelled_step _
  | returned target hk hphase =>
      exact h.move s.jobs hk (by rw [hphase]; rfl) rfl (by simp) (by simp) (fun hno => by cases hno)
        (by simp)
  | @marked k job id target hk hphase =>
      refine h.move _ hk (by rw [hphase]; rfl) rfl (by simp) (by simp) (fun hno => by cases hno) ?_
      intro id' hid
      obtain rfl : id = id' := by simpa using hid
      exact ⟨target, s.now, List.mem_append_right _ List.mem_cons_self⟩
  | @finished k job id hk hphase hwg =>
      refine h.move s.jobs hk (by rw [hphase]; rfl) ?_ (by simp) (by simp) (fun _ => rfl) ?_
      · show s.runner.wg - 1 + 1 = s.runner.wg
        omega
      · intro id' hid
        obtain rfl : id = id' := by simpa using hid
        obtain ⟨target, t, hmark⟩ := h.marked k job id hk (.inl hphase)
        exact ⟨target, t, List.mem_append_left _ hmark⟩
  | belowZero hk hphase hwg =>
      have hpos := h.wg_pos hk (by rw [hphase]; rfl)
      omega
  | draining deadline hdrain => exact h.draining_step deadline hdrain
  | closedTwice deadline hdrain =>
      exfalso
      unfold Runner.drain at hdrain
      split at hdrain
      · cases hdrain
      · next hstopped =>
          split at hdrain
          · cases hdrain
          · cases hdrain
          · next hclosed => exact hstopped (h.closed hclosed)
  | drained hi hwg =>
      refine h.keep rfl rfl ?_ (by simp) (by simp)
      intro hne hnil
      rw [hnil] at hi
      exact absurd hi (Nat.not_lt_zero _)
  | polled id => exact h.keep rfl rfl (fun hne => hne) (by simp) (by simp)
  | pruned => exact h.keep rfl rfl (fun hne => hne) (by simp) (by simp)
  | ticked d => exact h.keep rfl rfl (fun hne => hne) (by simp) (by simp)

theorem runnerInv_run (hrun : system.Run boot log s) : RunnerInv log s :=
  hrun.invariant (fun log s => RunnerInv log s) runnerInv_boot fun _ _ _ _ _ h _ hstep => h.step (step_does hstep)

/-- Once the runner has stopped, nothing begins. -/
theorem stopped_run (hstopped : s.runner.stopped = true) (hrun : system.Run s log s') :
    s'.runner.stopped = true ∧ ∀ k, .begun k ∉ log := by
  refine hrun.invariant (fun log s => s.runner.stopped = true ∧ ∀ k, .begun k ∉ log)
    ⟨hstopped, fun _ => List.not_mem_nil⟩ ?_
  rintro log s a s' e ⟨hs, hnone⟩ - hstep
  have hdoes := step_does hstep
  have hlog : (∀ k, e ≠ .begun k) → ∀ k, .begun k ∉ log ++ [e] := by
    intro he k hk
    obtain hk | hk := List.mem_append.mp hk
    · exact hnone k hk
    · exact he k (List.mem_singleton.mp hk).symm
  cases hdoes with
  | begun total failTarget hbegin =>
      unfold Runner.begin at hbegin
      rw [if_pos hs] at hbegin
      cases hbegin
  | draining deadline hdrain =>
      unfold Runner.drain at hdrain
      rw [if_pos hs] at hdrain
      cases hdrain
      exact ⟨hs, hlog (by simp)⟩
  | refused | enqueued | spawned | reported | cancelled | returned | marked | finished | belowZero
  | closedTwice | drained | polled | pruned | ticked => exact ⟨hs, hlog (by simp)⟩

end shutdown

end ThesadaApp.AdminJobs
