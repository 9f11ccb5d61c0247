import Mathlib.Data.List.Lattice
import Mathlib.Data.List.Nodup
import Mathlib.Data.List.Pairwise
import Mathlib.Data.List.TakeWhile
import ThesadaApp.RulesRuntime

/-!
The firings of a rule are those that its own readings give. The tables are shared, so this takes that no other rule
writes under its key, and that the rules before it let the event through to it.
-/

namespace ThesadaApp.Rules

/-- What a rule is shown of an event. -/
structure Own where
  uptime : Int
  met : List Bool
  sent : Nat → Nat → Bool

/-- The readings of an event for a rule whose subscriber is for `event`, `none` where it has none. -/
def Rule.view (r : Rule) (event : SensorEvent) (u : Update) : Option Own :=
  if u.event = event ∧ event.passes u = true ∧ r.condition.fails u = false ∧ r.condition.met u ≠ [] then
    some ⟨u.uptime, r.condition.met u, u.sent r.id⟩
  else none

/-- The rule is in a subscriber for `event`. -/
def Workspace.Places (ws : Workspace) (event : SensorEvent) (r : Rule) : Prop :=
  ∃ h ∈ ws.handlers, h.event = event ∧ r ∈ h.rules

/-- A condition that counts its readings. -/
def Condition.counts : Condition → Bool
  | .ifTemp _ _ _ sustain => sustain
  | .ifCurrent .. => true
  | .ifBattery _ => false

/-- A rule writes nothing at an event: it counts no reading, and no reading meets its condition of which a message is
sent. -/
structure Rule.Quiet (o : Rule) (u : Update) : Prop where
  uncounted : o.condition.counts = true → o.condition.met u = []
  unsent : ∀ i, (o.condition.met u)[i]? = some true → ∀ j < o.actions.length, u.sent o.id i j = false

/-- At an event no other rule writes under the key of the rule, and no rule before it ends its subscriber. -/
structure Undisturbed (contained : Bool) (ws : Workspace) (event : SensorEvent) (r : Rule) (u : Update) : Prop where
  quiet : ∀ o ∈ reached contained u ws.handlers, o.id ≠ r.id → o.key = r.key → o.Quiet u
  heard : (r.view event u).isSome = true → r ∈ reached contained u ws.handlers

/-- The rule by itself. -/
def Rule.solo (r : Rule) (st : KeyState × List Firing) (own : Own) : KeyState × List Firing :=
  let out := r.readAll own.uptime own.sent 0 own.met st.1
  (out.1, st.2 ++ out.2)

section reading

variable {r o : Rule} {now : Int} {s : KeyState} {u : Update} {i : Nat} {mets : List Bool} {sent : Nat → Nat → Bool}

theorem readAll_rule : ∀ f ∈ (r.readAll now sent i mets s).2, f.rule = r.id := by
  induction mets generalizing i s with
  | nil => exact fun f hf => absurd hf List.not_mem_nil
  | cons met mets ih =>
      intro f hf
      rw [Rule.readAll] at hf
      rcases List.mem_append.mp hf with hfirst | hrest
      · rw [Rule.read] at hfirst
        split_ifs at hfirst
        · rw [List.mem_singleton.mp hfirst]
        · exact absurd hfirst List.not_mem_nil
      · exact ih f hrest

theorem runActions_unsent {actions : List Action} {sent : Nat → Bool}
    (h : ∀ j, i ≤ j → j < i + actions.length → sent j = false) :
    runActions now sent i actions s = s := by
  induction actions generalizing i with
  | nil => rfl
  | cons a actions ih =>
      have hlength : (a :: actions).length = actions.length + 1 := List.length_cons
      rw [runActions, h i (Nat.le_refl i) (by omega), if_neg Bool.false_ne_true]
      exact ih fun j hle hlt => h j (by omega) (by omega)

/-- A reading that is not counted, and of which no message is sent. -/
theorem read_quiet {met : Bool} {sent : Nat → Bool} (hcounts : r.condition.counts = false)
    (hsent : met = true → ∀ j < r.actions.length, sent j = false) : (r.read now sent i met s).1 = s := by
  have hcheck : r.condition.check now met s = (met && canAlert now s, s) := by
    cases hcondition : r.condition with
    | ifTemp sensor op thresh sustain =>
        rw [hcondition, Condition.counts] at hcounts
        rw [hcounts]
        rfl
    | ifCurrent => rw [hcondition, Condition.counts] at hcounts; cases hcounts
    | ifBattery => rfl
  have hfired : ∀ s, r.condition.fired s = s := by
    intro s
    cases hcondition : r.condition with
    | ifTemp => rfl
    | ifCurrent => rw [hcondition, Condition.counts] at hcounts; cases hcounts
    | ifBattery => rfl
  rw [Rule.read, hcheck]
  dsimp only
  split_ifs with hfires
  · have hmet : met = true := (Bool.and_eq_true_iff.mp hfires).1
    have hnone := hsent hmet
    dsimp only
    rw [runActions_unsent (fun j _ hlt => hnone j (by omega)), hfired]
  · rfl

theorem readAll_quiet (hcounts : r.condition.counts = false)
    (hsent : ∀ k, mets[k]? = some true → ∀ j < r.actions.length, sent (i + k) j = false) :
    (r.readAll now sent i mets s).1 = s := by
  induction mets generalizing i s with
  | nil => rfl
  | cons met mets ih =>
      have hfirst : (r.read now (sent i) i met s).1 = s := by
        refine read_quiet hcounts fun hmet => hsent 0 ?_
        rw [hmet, List.getElem?_cons_zero]
      rw [Rule.readAll]
      dsimp only
      rw [hfirst]
      refine ih fun k hk j hj => ?_
      have hnext := hsent (k + 1) (by rwa [List.getElem?_cons_succ]) j hj
      rwa [show i + 1 + k = i + (k + 1) by omega]

theorem Rule.Quiet.readAll (h : o.Quiet u) : (o.readAll now (u.sent o.id) 0 (o.condition.met u) s).1 = s := by
  cases hcounts : o.condition.counts with
  | true => rw [h.uncounted hcounts]; rfl
  | false =>
      refine readAll_quiet hcounts fun k hk j hj => ?_
      rw [Nat.zero_add]
      exact h.unsent k hk j hj

end reading

/-- What a run state holds for a rule: its part of the tables, and its firings. -/
def RunState.of (st : RunState) (r : Rule) : KeyState × List Firing :=
  (st.tables r.key, st.fired.filter fun f => f.rule = r.id)

section event

variable {r o : Rule} {u : Update} {st : RunState} {rs : List Rule} {hs : List OnSensor} {contained : Bool}
  {event : SensorEvent} {ws : Workspace}

theorem run_other (hid : o.id ≠ r.id) (hquiet : o.key = r.key → o.Quiet u) : (o.run u st).of r = st.of r := by
  have hfired : ∀ fs : List Firing, (∀ f ∈ fs, f.rule = o.id) → fs.filter (fun f => f.rule = r.id) = [] := by
    intro fs hfs
    refine List.filter_eq_nil_iff.mpr fun f hf => ?_
    rw [hfs f hf, decide_eq_true_eq]
    exact hid
  refine Prod.ext ?_ ?_
  · show Function.update st.tables o.key _ r.key = st.tables r.key
    by_cases hkey : o.key = r.key
    · rw [hkey, Function.update_self, ← hkey]
      exact (hquiet hkey).readAll
    · exact Function.update_of_ne (Ne.symm hkey) _ _
  · show (st.fired ++ _).filter _ = st.fired.filter _
    rw [List.filter_append, hfired _ readAll_rule, List.append_nil]

theorem run_own : (r.run u st).of r = r.solo (st.of r) ⟨u.uptime, r.condition.met u, u.sent r.id⟩ := by
  have hfired : ∀ fs : List Firing, (∀ f ∈ fs, f.rule = r.id) → fs.filter (fun f => f.rule = r.id) = fs := by
    intro fs hfs
    exact List.filter_eq_self.mpr fun f hf => decide_eq_true (hfs f hf)
  refine Prod.ext ?_ ?_
  · exact Function.update_self r.key _ st.tables
  · show (st.fired ++ _).filter _ = _
    rw [List.filter_append, hfired _ readAll_rule]
    rfl

theorem fold_others (h : ∀ o ∈ rs, o.id ≠ r.id ∧ (o.key = r.key → o.Quiet u)) :
    (rs.foldl (fun st o => o.run u st) st).of r = st.of r := by
  induction rs generalizing st with
  | nil => rfl
  | cons o rs ih =>
      obtain ⟨hid, hquiet⟩ := h o List.mem_cons_self
      rw [List.foldl_cons, ih fun p hp => h p (List.mem_cons_of_mem _ hp), run_other hid hquiet]

/-- The rule runs once, among others. -/
theorem fold_own (hnodup : (rs.map Rule.id).Nodup) (hmem : r ∈ rs)
    (hquiet : ∀ o ∈ rs, o.id ≠ r.id → o.key = r.key → o.Quiet u) :
    (rs.foldl (fun st o => o.run u st) st).of r = r.solo (st.of r) ⟨u.uptime, r.condition.met u, u.sent r.id⟩ := by
  obtain ⟨before, after, rfl⟩ := List.append_of_mem hmem
  rw [List.map_append, List.map_cons] at hnodup
  obtain ⟨-, hnext, hdisjoint⟩ := List.nodup_append.mp hnodup
  have hbefore : ∀ o ∈ before, o.id ≠ r.id ∧ (o.key = r.key → o.Quiet u) := by
    intro o ho
    have hid := hdisjoint o.id (List.mem_map_of_mem ho) r.id List.mem_cons_self
    exact ⟨hid, hquiet o (List.mem_append_left _ ho) hid⟩
  have hafter : ∀ o ∈ after, o.id ≠ r.id ∧ (o.key = r.key → o.Quiet u) := by
    intro o ho
    have hid : o.id ≠ r.id := fun heq =>
      (List.nodup_cons.mp hnext).1 (heq ▸ List.mem_map_of_mem ho)
    exact ⟨hid, hquiet o (List.mem_append_right _ (List.mem_cons_of_mem _ ho)) hid⟩
  rw [List.foldl_append, List.foldl_cons, fold_others hafter, run_own, fold_others hbefore]

theorem reached_sublist : (reached contained u hs).Sublist (hs.flatMap OnSensor.rules) := by
  induction hs with
  | nil => exact List.Sublist.refl _
  | cons h hs ih =>
      rw [reached, List.flatMap_cons]
      have hrest : ∀ p : Prop, [Decidable p] →
          (if p then [] else reached contained u hs).Sublist (hs.flatMap OnSensor.rules) := by
        intro p _
        split_ifs
        · exact List.nil_sublist _
        · exact ih
      by_cases hpasses : h.event = u.event ∧ h.event.passes u = true
      · rw [if_pos hpasses]
        exact (List.takeWhile_sublist _).append (hrest _)
      · rw [if_neg hpasses]
        exact ih.trans (List.sublist_append_right _ _)

theorem mem_reached (h : r ∈ reached contained u hs) : ∃ on ∈ hs, on.event = u.event ∧ on.event.passes u = true ∧
    r ∈ on.rules ∧ r.condition.fails u = false := by
  induction hs with
  | nil => exact absurd h List.not_mem_nil
  | cons on hs ih =>
      have hlater : r ∈ reached contained u hs → ∃ on' ∈ on :: hs, on'.event = u.event ∧ on'.event.passes u = true ∧
          r ∈ on'.rules ∧ r.condition.fails u = false := by
        intro hr
        obtain ⟨on', hmem, hon⟩ := ih hr
        exact ⟨on', List.mem_cons_of_mem _ hmem, hon⟩
      rw [reached] at h
      by_cases hpasses : on.event = u.event ∧ on.event.passes u = true
      · rw [if_pos hpasses] at h
        rcases List.mem_append.mp h with htake | hrest
        · have hfails := List.mem_takeWhile_imp htake
          rw [Bool.not_eq_true'] at hfails
          exact ⟨on, List.mem_cons_self, hpasses.1, hpasses.2, (List.takeWhile_sublist _).subset htake, hfails⟩
        · split_ifs at hrest
          · exact absurd hrest List.not_mem_nil
          · exact hlater hrest
      · rw [if_neg hpasses] at h
        exact hlater h

/-- A rule is in subscribers for one event only. -/
theorem Workspace.Places.event_eq (hnodup : (ws.rules.map Rule.id).Nodup) (h : ws.Places event r) {on : OnSensor}
    (hon : on ∈ ws.handlers) (hr : r ∈ on.rules) : on.event = event := by
  obtain ⟨on', hon', rfl, hr'⟩ := h
  by_contra hne
  have hne' : on ≠ on' := fun heq => hne (by rw [heq])
  rw [Workspace.rules, List.map_flatMap, List.nodup_flatMap] at hnodup
  have hsymm : Std.Symm (Function.onFun List.Disjoint fun on : OnSensor => on.rules.map Rule.id) :=
    ⟨fun _ _ hab => hab.symm⟩
  have hdisjoint := hnodup.2.forall hon hon' hne'
  exact hdisjoint (List.mem_map_of_mem hr) (List.mem_map_of_mem hr')

theorem publish_of (st : RunState) (hnodup : (ws.rules.map Rule.id).Nodup) (hplaces : ws.Places event r)
    (h : Undisturbed contained ws event r u) :
    (publish contained ws st u).of r = (r.view event u).elim (st.of r) (r.solo (st.of r)) := by
  have hreached : ((reached contained u ws.handlers).map Rule.id).Nodup := hnodup.sublist (reached_sublist.map _)
  by_cases hmem : r ∈ reached contained u ws.handlers
  · have hrun : (publish contained ws st u).of r = _ := fold_own hreached hmem h.quiet
    obtain ⟨on, hon, hevent, hpasses, hr, hfails⟩ := mem_reached hmem
    have hfor : on.event = event := hplaces.event_eq hnodup hon hr
    rw [hfor] at hevent hpasses
    rw [hrun, Rule.view]
    split_ifs with hview
    · rfl
    · have hmet : r.condition.met u = [] := by
        by_contra hne
        exact hview ⟨hevent.symm, hpasses, hfails, hne⟩
      rw [hmet, Option.elim_none, Rule.solo, Rule.readAll, List.append_nil]
  · have hview : r.view event u = none := by
      by_contra hne
      exact hmem (h.heard (Option.isSome_iff_ne_none.mpr hne))
    rw [hview, Option.elim_none]
    refine fold_others fun o ho => ?_
    have hid : o.id ≠ r.id := by
      intro heq
      obtain ⟨on, hon, -, hr⟩ := hplaces
      have hrule : r ∈ ws.rules := List.mem_flatMap.mpr ⟨on, hon, hr⟩
      exact hmem (List.inj_on_of_nodup_map hnodup (reached_sublist.subset ho) hrule heq ▸ ho)
    exact ⟨hid, h.quiet o ho hid⟩

end event

section runs

variable {contained contained' : Bool} {r : Rule} {event : SensorEvent} {ws ws' : Saved} {us us' : List Update}

theorem foldl_publish_of (st : RunState) (hplaces : ws.blocks.Places event r)
    (h : ∀ u ∈ us, Undisturbed contained ws.blocks event r u) :
    (us.foldl (publish contained ws.blocks) st).of r = (us.filterMap (r.view event)).foldl r.solo (st.of r) := by
  induction us generalizing st with
  | nil => rfl
  | cons u us ih =>
      have hstep := publish_of st ws.ids_nodup hplaces (h u List.mem_cons_self)
      rw [List.foldl_cons, ih _ fun v hv => h v (List.mem_cons_of_mem _ hv), hstep]
      cases hview : r.view event u with
      | none => rw [List.filterMap_cons_none hview, Option.elim_none]
      | some own => rw [List.filterMap_cons_some hview, Option.elim_some, List.foldl_cons]

/-- The firings of a rule that nothing disturbs are those of the rule by itself. -/
theorem firings_solo (hplaces : ws.blocks.Places event r) (h : ∀ u ∈ us, Undisturbed contained ws.blocks event r u) :
    firings contained ws.blocks r.id us =
      if ws.blocks.loads then ((us.filterMap (r.view event)).foldl r.solo (.empty, [])).2 else [] := by
  have hrun := congrArg Prod.snd (foldl_publish_of .initial hplaces h)
  rw [firings]
  split_ifs
  · exact hrun
  · rfl

/-- Two workspaces with the rule, and two runs that show it the same readings. -/
theorem firings_independent (hplaces : ws.blocks.Places event r) (hplaces' : ws'.blocks.Places event r)
    (hviews : us.filterMap (r.view event) = us'.filterMap (r.view event)) (hloads : ws.blocks.loads = ws'.blocks.loads)
    (h : ∀ u ∈ us, Undisturbed contained ws.blocks event r u)
    (h' : ∀ u ∈ us', Undisturbed contained' ws'.blocks event r u) :
    firings contained ws.blocks r.id us = firings contained' ws'.blocks r.id us' := by
  rw [firings_solo hplaces h, firings_solo hplaces' h', hviews, hloads]

end runs

theorem loads_of_oneLine {ws : Workspace} (h : ∀ text ∈ ws.texts, Lua.OneLine text) : ws.loads = true := by
  rw [Workspace.loads, lex_generateLua h]
  rfl

section battery

def lowAt (id : String) (pct : Whole 0 100) : Rule where
  id := id
  condition := .ifBattery pct
  actions := [.notify "Battery low"]
  fits a ha := by
    rw [List.mem_singleton.mp ha]
    rfl

theorem ten_le_hundred : 0 ≤ 10 ∧ 10 ≤ 100 := by decide

theorem twenty_le_hundred : 0 ≤ 20 ∧ 20 ≤ 100 := by decide

/-- Warnings at 20% and at 10%. -/
def lowTwice : Saved where
  blocks := [.rulesRoot [⟨.battery, [lowAt "a" ⟨20, twenty_le_hundred⟩, lowAt "b" ⟨10, ten_le_hundred⟩]⟩]]
  ids_nodup := by decide

/-- The warning at 20% is removed. -/
def lowOnce : Saved where
  blocks := [.rulesRoot [⟨.battery, [lowAt "b" ⟨10, ten_le_hundred⟩]⟩]]
  ids_nodup := by decide

/-- The battery at 15%, and at 8% a minute later. -/
def draining : List Update :=
  [⟨.battery, 0, none, none, true, some 15, false, fun _ _ _ => true⟩,
    ⟨.battery, 60000, none, none, true, some 8, false, fun _ _ _ => true⟩]

/-- The first warning keeps the second from being given. -/
theorem lowTwice_interferes : lowTwice.blocks.Places .battery (lowAt "b" ⟨10, ten_le_hundred⟩) ∧
    lowOnce.blocks.Places .battery (lowAt "b" ⟨10, ten_le_hundred⟩) ∧ draining.Pairwise (fun u v => u.uptime ≤ v.uptime) ∧
    firings true lowTwice.blocks "b" draining = [] ∧ firings true lowOnce.blocks "b" draining = [⟨"b", 60000, 0⟩] := by
  have htwice : lowTwice.blocks.loads = true := loads_of_oneLine (by decide)
  have honce : lowOnce.blocks.loads = true := loads_of_oneLine (by decide)
  refine ⟨⟨_, List.mem_singleton.mpr rfl, rfl, by decide⟩, ⟨_, List.mem_singleton.mpr rfl, rfl, by decide⟩, by decide,
    ?_, ?_⟩
  · rw [firings, htwice]
    decide
  · rw [firings, honce]
    decide

/-- Another rule, on another sensor. -/
def overheat : Rule where
  id := "c"
  condition := .ifTemp "supply" .ge ⟨850, by decide⟩ true
  actions := [.notifyTemp "Overheat!"]
  fits _ _ := rfl

/-- The warning at 10%, and a temperature rule. -/
def lowAndHot : Saved where
  blocks := [.rulesRoot [⟨.temperature, [overheat]⟩, ⟨.battery, [lowAt "b" ⟨10, ten_le_hundred⟩]⟩]]
  ids_nodup := by decide

theorem undisturbed_alone {ws : Workspace} {r : Rule} {u : Update} (h : reached true u ws.handlers = [r]) :
    Undisturbed true ws .battery r u where
  quiet o ho hid := by
    rw [h] at ho
    exact absurd (by rw [List.mem_singleton.mp ho]) hid
  heard _ := by
    rw [h]
    exact List.mem_singleton.mpr rfl

theorem lowAndHot_independent :
    firings true lowAndHot.blocks "b" draining = firings true lowOnce.blocks "b" draining := by
  have hloads : lowAndHot.blocks.loads = true := loads_of_oneLine (by decide)
  have honce : lowOnce.blocks.loads = true := loads_of_oneLine (by decide)
  have hreached : ∀ u ∈ draining, reached true u lowAndHot.blocks.handlers = [lowAt "b" ⟨10, ten_le_hundred⟩] ∧
      reached true u lowOnce.blocks.handlers = [lowAt "b" ⟨10, ten_le_hundred⟩] := by decide
  exact @firings_independent true true (lowAt "b" ⟨10, ten_le_hundred⟩) .battery lowAndHot lowOnce draining draining
    ⟨_, List.mem_cons_of_mem _ List.mem_cons_self, rfl, List.mem_singleton.mpr rfl⟩
    ⟨_, List.mem_singleton.mpr rfl, rfl, List.mem_singleton.mpr rfl⟩ rfl (hloads.trans honce.symm)
    (fun u hu => undisturbed_alone (hreached u hu).1) (fun u hu => undisturbed_alone (hreached u hu).2)

end battery

end ThesadaApp.Rules
