import ThesadaApp.MachineLock
import ThesadaApp.WebConfigWrite

/-!
One staged write per device. The slot map has no owners: `releaseDeviceWrite` deletes whatever entry
is there, and `runCLIWrite` calls it twice on every path that does not panic. While every deferred
release that follows an explicit one finds the slot free, the map refines a table of locks and a
device has one write at a time; the first deferred release that finds it taken frees the slot of
another write.
-/

namespace ThesadaApp.ConfigWrite

/-- The device whose slot write `w` claimed and has not released. -/
def Server.holds (s : Server) (w : Nat) : Option DevicePk :=
  s.writes[w]?.bind fun wr => if wr.phase.holding then some wr.device else none

/-- Write `w` has claimed device `id` and not finished its `stagedWrite`. -/
def Server.Unfinished (s : Server) (w : Nat) (id : DevicePk) : Prop :=
  ∃ wr, s.writes[w]? = some wr ∧ wr.device = id ∧ wr.phase.unfinished = true

/-- At most one write of a device has not finished its `stagedWrite`. -/
def OneWritePerDevice (s : Server) : Prop :=
  ∀ id w w', s.Unfinished w id → s.Unfinished w' id → w = w'

/-- A step that releases a taken slot is a step of the one write that holds it. -/
def FreesOwnSlot (cfg : Config) (s : Server) (a : Action) : Prop :=
  ∀ s' w id, step cfg s a = some (s', .released w id) → id ∈ s.deviceWrites →
    ∀ w', s.holds w' = some id → w' = w

/-- The claimed guarantee at one step of a run. -/
def Exclusive (cfg : Config) (_log : List Event) (s : Server) (a : Action) : Prop :=
  OneWritePerDevice s ∧ FreesOwnSlot cfg s a

/-- A deferred release whose write has already released explicitly finds the slot free. -/
def DeferredFindsFree (_log : List Event) (s : Server) (a : Action) : Prop :=
  ∀ w wr panicked, a = .write w .releaseDeferred → s.writes[w]? = some wr →
    wr.phase = .returning true panicked → wr.device ∉ s.deviceWrites

variable {cfg : Config} {s s' : Server} {log : List Event} {a : Action} {e : Event}

theorem Server.Unfinished.holds {w : Nat} {id : DevicePk} (h : s.Unfinished w id) :
    s.holds w = some id := by
  obtain ⟨wr, hwr, rfl, hphase⟩ := h
  simp [Server.holds, hwr, Phase.holding_of_unfinished hphase]

theorem holds_modify (f : Write → Write) {w : Nat} {wr : Write} (hwr : s.writes[w]? = some wr)
    (hwrites : s'.writes = s.writes.modify w f) :
    s'.holds = Function.update s.holds w (if (f wr).phase.holding then some (f wr).device else none) := by
  funext w'
  by_cases hw : w' = w
  · subst hw
    simp [Server.holds, hwrites, hwr]
  · simp [Server.holds, hwrites, hw, Ne.symm hw]

theorem holds_of_write {w : Nat} {wr : Write} (hwr : s.writes[w]? = some wr) :
    s.holds w = if wr.phase.holding then some wr.device else none := by
  simp [Server.holds, hwr]

/-- What a step can do to the slots: a claim takes a free one for a new write, a release deletes the
slot of its write's device, and every other step leaves the map and its holders alone. A release is
the first of its write, or the deferred one after an explicit one. -/
inductive Effect (s s' : Server) (a : Action) (e : Event) : Prop
  | quiet (hslots : s'.deviceWrites = s.deviceWrites) (hheld : s'.holds = s.holds)
      (hevent : ∀ w id, e ≠ .released w id)
  | claim (id : DevicePk) (hfree : id ∉ s.deviceWrites) (hslots : s'.deviceWrites = insert id s.deviceWrites)
      (hnone : s.holds s.writes.length = none)
      (hheld : s'.holds = Function.update s.holds s.writes.length (some id))
      (hevent : ∀ w id, e ≠ .released w id)
  | release (w : Nat) (id : DevicePk) (hown : s.holds w = some id)
      (hslots : s'.deviceWrites = s.deviceWrites.erase id)
      (hheld : s'.holds = Function.update s.holds w none) (hevent : e = .released w id)
  | releaseAgain (w : Nat) (wr : Write) (panicked : Bool) (hact : a = .write w .releaseDeferred)
      (hwr : s.writes[w]? = some wr) (hphase : wr.phase = .returning true panicked)
      (hslots : s'.deviceWrites = s.deviceWrites.erase wr.device) (hheld : s'.holds = s.holds)
      (hevent : e = .released w wr.device)

theorem update_holds_self {w : Nat} {x : Option DevicePk} (hx : s.holds w = x) :
    Function.update s.holds w x = s.holds := by
  rw [← hx, Function.update_eq_self]

/-- A write that changes phase without touching the map. -/
theorem Effect.of_quiet {w : Nat} {wr : Write} (f : Write → Write) (hwr : s.writes[w]? = some wr)
    (hdevice : (f wr).device = wr.device) (hphase : (f wr).phase.holding = wr.phase.holding)
    (hslots : s'.deviceWrites = s.deviceWrites) (hwrites : s'.writes = s.writes.modify w f)
    (hevent : ∀ w id, e ≠ .released w id) : Effect s s' a e := by
  refine .quiet hslots ?_ hevent
  rw [holds_modify f hwr hwrites, hdevice, hphase]
  exact update_holds_self (holds_of_write hwr)

/-- A write that releases its slot for the first time. -/
theorem Effect.of_release {w : Nat} {wr : Write} (p : Phase) (hwr : s.writes[w]? = some wr)
    (hholding : wr.phase.holding = true) (hp : p.holding = false) :
    Effect s ((releaseDeviceWrite s wr.device).setPhase w p) a (.released w wr.device) := by
  refine .release w wr.device (by simp [holds_of_write hwr, hholding]) rfl ?_ rfl
  rw [holds_modify (fun wr => { wr with phase := p }) hwr rfl]
  simp [hp]

theorem stepWrite_effect {w : Nat} {wr : Write} {wa : WriteAction} (hwr : s.writes[w]? = some wr)
    (hstep : stepWrite cfg s w wr wa = some (s', e)) : Effect s s' (.write w wa) e := by
  cases wa with
  | enqueue =>
      simp only [stepWrite, Option.ite_none_right_eq_some, Option.some.injEq, Prod.mk.injEq] at hstep
      obtain ⟨hphase, rfl, rfl⟩ := hstep
      exact .of_quiet _ hwr rfl (by simp [hphase, Phase.holding]) rfl rfl (by simp)
  | stagedWriteReturns err =>
      simp only [stepWrite, Option.ite_none_right_eq_some, Option.some.injEq, Prod.mk.injEq] at hstep
      obtain ⟨hphase, rfl, rfl⟩ := hstep
      exact .of_quiet _ hwr rfl (by cases err <;> simp [hphase, Phase.holding]) rfl rfl (by simp)
  | upsertReturns err =>
      simp only [stepWrite, Option.ite_none_right_eq_some, Option.some.injEq, Prod.mk.injEq] at hstep
      obtain ⟨hphase, rfl, rfl⟩ := hstep
      exact .of_quiet _ hwr rfl (by simp [hphase, Phase.holding]) rfl rfl (by simp)
  | releaseExplicit =>
      simp only [stepWrite] at hstep
      split at hstep
      · next err hphase =>
          obtain ⟨rfl, rfl⟩ := Prod.mk.inj (Option.some.inj hstep)
          exact .of_release _ hwr (by simp [hphase, Phase.holding]) rfl
      · next hphase =>
          obtain ⟨rfl, rfl⟩ := Prod.mk.inj (Option.some.inj hstep)
          exact .of_release _ hwr (by simp [hphase, Phase.holding]) rfl
      · cases hstep
  | mark =>
      simp only [stepWrite] at hstep
      split at hstep
      · next err hphase =>
          obtain ⟨rfl, rfl⟩ := Prod.mk.inj (Option.some.inj hstep)
          exact .of_quiet _ hwr rfl (by simp [hphase, Phase.holding]) rfl rfl (by simp)
      · next hphase =>
          obtain ⟨rfl, rfl⟩ := Prod.mk.inj (Option.some.inj hstep)
          exact .of_quiet _ hwr rfl (by simp [hphase, Phase.holding]) rfl rfl (by simp)
      · cases hstep
  | panics =>
      simp only [stepWrite, Option.ite_none_right_eq_some, Option.some.injEq, Prod.mk.injEq] at hstep
      obtain ⟨-, rfl, rfl⟩ := hstep
      refine .of_quiet _ hwr rfl ?_ rfl rfl (by simp)
      cases hholding : wr.phase.holding <;> simp [Phase.holding]
  | releaseDeferred =>
      simp only [stepWrite] at hstep
      split at hstep
      · next released panicked hphase =>
          obtain ⟨rfl, rfl⟩ := Prod.mk.inj (Option.some.inj hstep)
          have hp : (if panicked then Phase.unwound else .finished).holding = false := by
            cases panicked <;> rfl
          cases released with
          | false => exact .of_release _ hwr (by simp [hphase, Phase.holding]) hp
          | true =>
              refine .releaseAgain w wr panicked rfl hwr hphase rfl ?_ rfl
              rw [holds_modify _ hwr rfl]
              refine update_holds_self ?_
              rw [holds_of_write hwr, hphase, hp]
              rfl
      · cases hstep
  | failPending =>
      simp only [stepWrite, Option.ite_none_right_eq_some, Option.some.injEq, Prod.mk.injEq] at hstep
      obtain ⟨hphase, rfl, rfl⟩ := hstep
      exact .of_quiet _ hwr rfl (by simp [hphase, Phase.holding]) rfl rfl (by simp)

theorem step_effect (hstep : step cfg s a = some (s', e)) : Effect s s' a e := by
  cases a with
  | write w wa =>
      obtain ⟨wr, hwr, hstep⟩ := Option.bind_eq_some_iff.mp hstep
      exact stepWrite_effect hwr hstep
  | post r =>
      simp only [step] at hstep
      split at hstep
      · obtain ⟨rfl, rfl⟩ := Prod.mk.inj (Option.some.inj hstep)
        exact .quiet rfl rfl (by simp)
      · next id req _ =>
          split at hstep
          · obtain ⟨rfl, rfl⟩ := Prod.mk.inj (Option.some.inj hstep)
            exact .quiet rfl rfl (by simp)
          · next s₁ hclaim =>
              obtain ⟨rfl, rfl⟩ := Prod.mk.inj (Option.some.inj hstep)
              simp only [claimDeviceWrite, Option.ite_none_left_eq_some, Option.some.injEq] at hclaim
              obtain ⟨hfree, rfl⟩ := hclaim
              refine .claim id hfree rfl (by simp [Server.holds]) ?_ (by simp)
              funext w
              rcases Nat.lt_trichotomy w s.writes.length with hw | rfl | hw
              · simp [Server.holds, List.getElem?_append_left hw, Nat.ne_of_lt hw]
              · simp [Server.holds, Phase.holding]
              · have hold : s.writes[w]? = none := List.getElem?_eq_none hw.le
                have hnew : ∀ wr, (s.writes ++ [wr])[w]? = none := fun wr => List.getElem?_eq_none (by simp; omega)
                simp [Server.holds, hold, hnew, hw.ne']

/-- Whatever the order of releases, a taken slot has a holder: whoever claimed it last. -/
theorem exists_holder (hrun : (machine cfg).Run .initial log s) :
    ∀ id ∈ s.deviceWrites, ∃ w, s.holds w = some id := by
  refine Machine.RunIf.invariant (fun _ s => ∀ id ∈ s.deviceWrites, ∃ w, s.holds w = some id) ?_ ?_ hrun
  · simp [Server.initial]
  · intro log s a s' e ih _ hstep id hid
    cases step_effect hstep with
    | quiet hslots hheld =>
        rw [hslots] at hid
        rw [hheld]
        exact ih id hid
    | claim id' hfree hslots hnone hheld =>
        rw [hslots, Finset.mem_insert] at hid
        rcases hid with rfl | hid
        · exact ⟨s.writes.length, by simp [hheld]⟩
        · obtain ⟨w, hw⟩ := ih id hid
          have hne : w ≠ s.writes.length := by
            rintro rfl
            rw [hnone] at hw
            cases hw
          exact ⟨w, by simp [hheld, hne, hw]⟩
    | release w id' hown hslots hheld =>
        rw [hslots, Finset.mem_erase] at hid
        obtain ⟨w', hw'⟩ := ih id hid.2
        have hne : w' ≠ w := by
          rintro rfl
          rw [hown] at hw'
          exact hid.1 (Option.some.inj hw').symm
        exact ⟨w', by simp [hheld, hne, hw']⟩
    | releaseAgain w wr panicked _ _ _ hslots hheld =>
        rw [hslots, Finset.mem_erase] at hid
        rw [hheld]
        exact ih id hid.2

/-- Under the condition the slot map is a lock table: each step takes a free lock, gives up an own
one, or changes neither. -/
theorem refines_lockTable (hrun : (machine cfg).RunIf DeferredFindsFree .initial log s) :
    ∃ trace t, (LockTable.machine DevicePk Nat).Run (fun _ => none) trace t ∧
      LockTable.Refines s.holds (· ∈ s.deviceWrites) t := by
  refine Machine.RunIf.simulate (fun s t => LockTable.Refines s.holds (· ∈ s.deviceWrites) t) ?_ ?_ hrun
  · exact ⟨by simp [Server.initial, Server.holds], by simp [Server.initial]⟩
  · intro log s t a s' e _ href hok hstep
    cases step_effect hstep with
    | quiet hslots hheld =>
        refine ⟨[], t, .nil, ?_⟩
        rw [hslots, hheld]
        exact href
    | claim id hfree hslots hnone hheld =>
        have hnoOwner : t id = none := by
          by_contra howner
          exact hfree ((href.taken_iff id).mpr howner)
        refine ⟨[()], _, LockTable.acquire_run _ hnoOwner, href.acquire hfree hnone hheld ?_⟩
        simp [hslots]
    | release w id hown hslots hheld =>
        refine ⟨[()], _, LockTable.release_run ((href.owner_iff id w).mpr hown), href.release hown hheld ?_⟩
        simp [hslots]
    | releaseAgain w wr panicked hact hwr hphase hslots hheld =>
        have hfree := hok w wr panicked hact hwr hphase
        refine ⟨[], t, .nil, ?_⟩
        rw [hslots, hheld, Finset.erase_eq_of_notMem hfree]
        exact href

theorem exclusive_of_refines {t : LockTable DevicePk Nat}
    (href : LockTable.Refines s.holds (· ∈ s.deviceWrites) t) : OneWritePerDevice s :=
  fun _ _ _ hw hw' => href.unique hw.holds hw'.holds

/-- A deferred release that finds the slot taken frees the slot of another write. -/
theorem not_freesOwnSlot_of_taken (hrun : (machine cfg).Run .initial log s) {w : Nat} {wr : Write}
    {panicked : Bool} (hwr : s.writes[w]? = some wr) (hphase : wr.phase = .returning true panicked)
    (htaken : wr.device ∈ s.deviceWrites) : ¬ FreesOwnSlot cfg s (.write w .releaseDeferred) := by
  intro hown
  obtain ⟨w', hw'⟩ := exists_holder hrun wr.device htaken
  have hstep : step cfg s (.write w .releaseDeferred) =
      some ((releaseDeviceWrite s wr.device).setPhase w (if panicked then .unwound else .finished),
        .released w wr.device) := by
    simp [step, hwr, stepWrite, hphase]
  obtain rfl := hown _ _ _ hstep htaken w' hw'
  simp [holds_of_write hwr, hphase, Phase.holding] at hw'

/-- One write per device, and no release that frees another write's slot, hold along exactly the runs
in which every deferred release after an explicit one finds the slot free. -/
theorem exclusive_iff_deferredFindsFree (cfg : Config) (log : List Event) (s : Server) :
    ((machine cfg).RunIf (Exclusive cfg) .initial log s ∧ OneWritePerDevice s) ↔
      (machine cfg).RunIf DeferredFindsFree .initial log s := by
  constructor
  · rintro ⟨hrun, -⟩
    refine hrun.imp ?_
    rintro log s a s' e hrun ⟨-, hown⟩ hstep w wr panicked rfl hwr hphase htaken
    exact not_freesOwnSlot_of_taken hrun.run hwr hphase htaken hown
  · intro hrun
    obtain ⟨-, t, -, href⟩ := refines_lockTable hrun
    refine ⟨hrun.imp ?_, exclusive_of_refines href⟩
    intro log s a s' e hrun hok hstep
    obtain ⟨-, t, -, href⟩ := refines_lockTable hrun
    refine ⟨exclusive_of_refines href, ?_⟩
    intro s₁ w id hrel htaken w' hw'
    rw [show step cfg s a = some (s', e) from hstep] at hrel
    obtain ⟨rfl, rfl⟩ := Prod.mk.inj (Option.some.inj hrel)
    cases step_effect hstep with
    | quiet _ _ hevent => exact absurd rfl (hevent w id)
    | claim _ _ _ _ _ hevent => exact absurd rfl (hevent w id)
    | release w₁ id₁ hown _ _ hevent =>
        obtain ⟨rfl, rfl⟩ := Event.released.inj hevent
        exact href.unique hw' hown
    | releaseAgain w₁ wr panicked hact hwr hphase _ _ hevent =>
        obtain ⟨rfl, rfl⟩ := Event.released.inj hevent
        exact absurd htaken (hok w wr panicked hact hwr hphase)

/-- A post of content "x" to device 1. -/
def postOne : Action := .post ⟨some 1, .found, some ⟨"/config.json", "x"⟩⟩

/-- The first write has released explicitly and marked its entry, so the browser posts a second
write, the first one's deferred release frees the second one's slot, and a third is accepted. -/
def overlap : List Action :=
  [postOne, .write 0 .enqueue, .write 0 (.stagedWriteReturns none), .write 0 (.upsertReturns none),
    .write 0 .releaseExplicit, .write 0 .mark, postOne, .write 1 .enqueue, .write 0 .releaseDeferred,
    postOne, .write 2 .enqueue]

/-- The second and the third write of device 1 then run at once. -/
theorem overlap_not_exclusive :
    ∃ log s, (machine ⟨30 * 1000000000⟩).Run .initial log s ∧ ¬ OneWritePerDevice s := by
  have hexec : ((machine ⟨30 * 1000000000⟩).exec .initial overlap).isSome := by decide
  refine ⟨_, _, Machine.run_of_exec (Option.some_get hexec).symm, fun hone => ?_⟩
  have hsecond : Server.Unfinished (Option.get _ hexec).2 1 1 :=
    ⟨⟨1, 1, 1, .staging⟩, rfl, rfl, rfl⟩
  have hthird : Server.Unfinished (Option.get _ hexec).2 2 1 :=
    ⟨⟨1, 1, 2, .staging⟩, rfl, rfl, rfl⟩
  exact absurd (hone 1 1 2 hsecond hthird) (by decide)

end ThesadaApp.ConfigWrite
