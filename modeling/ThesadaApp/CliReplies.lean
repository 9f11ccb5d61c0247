import ThesadaApp.CliRequests

/-!
The reply that a call returns is its own, as long as no call taps the topic while a command of an earlier one with the
same name is unanswered and one of the two is raw. Two enveloped calls never take each other's replies.
-/

namespace ThesadaApp.Cli

/-- The commands that are still to be answered, and those whose reply is still to come. -/
def State.inTransit (s : State) : List Command := s.pending ++ s.replies.map Reply.of

/-- Every response was assembled from replies to its own command. -/
def Answered (s : State) : Prop :=
  ∀ i c read resp, s.calls i = some c → c.stage = .returned read (some resp) →
    awaitPagedCLIResponse (read.map Reply.parsed) = .response resp ∧ ∀ f ∈ read, f.of.origin = i

/-- When a call taps the topic, no command in transit has its name (or none) and has no id to tell it by. -/
def Settled (s : State) : Action → Prop
  | .next i .tap => ∀ c ∈ s.calls i, ∀ m ∈ s.inTransit,
      m.reqID = "" ∨ c.raw = true → m.command ≠ "" ∧ m.command ≠ c.command
  | _ => True

instance (s : State) : DecidablePred (Settled s)
  | .next i .tap => inferInstanceAs (Decidable (∀ c ∈ s.calls i, ∀ m ∈ s.inTransit,
      m.reqID = "" ∨ c.raw = true → m.command ≠ "" ∧ m.command ≠ c.command))
  | .next _ .lock | .next _ (.publish ..) | .next _ .read | .next _ .fail | .call .. | .execute .. | .loseCommand _
  | .deliver .. | .loseReply _ => isTrue trivial

def Stage.held : Stage → Bool
  | .locked | .tapped .. => true
  | .waiting | .returned .. => false

/-- The replies a call has heard. -/
def Stage.heard : Stage → List Reply
  | .tapped ch read _ => ch ++ read
  | .returned read _ => read
  | .waiting | .locked => []

variable (u : Uuids)

/-- A reply to the command is not taken for one of the call. -/
def Command.Apart (m : Command) (i : Nat) (c : Call) : Prop :=
  cliMatchesRequest (some ⟨m.reqID, m.command⟩) (c.reqID u i) c.command = false

structure CallOk (lock : Option Nat) (transit : List Command) (i : Nat) (c : Call) : Prop where
  holds : c.stage.held = true → lock = some i
  own : ∀ f ∈ c.stage.heard, f.of.origin = i
  apart : ∀ ch read published, c.stage = .tapped ch read published → ∀ m ∈ transit, m.origin ≠ i → m.Apart u i c
  assembled : ∀ read resp, c.stage = .returned read (some resp) →
    awaitPagedCLIResponse (read.map Reply.parsed) = .response resp

structure Inv (s : State) : Prop where
  calls : ∀ i c, s.calls i = some c → CallOk u s.lock s.inTransit i c
  ids : ∀ m ∈ s.inTransit, m.reqID = "" ∨ m.reqID = u.newString m.origin

section calls

variable {u} {s s' : State} {lock lock' : Option Nat} {transit transit' : List Command} {i : Nat} {c c' : Call}
  {stage : Stage} {ch read : List Reply} {f : Reply} {published retained : Bool}

theorem CallOk.mono (h : CallOk u lock transit i c) (hsub : ∀ m ∈ transit', m ∈ transit) : CallOk u lock transit' i c :=
  { h with apart := fun ch read p hstage m hm => h.apart ch read p hstage m (hsub m hm) }

/-- A call that does not hold the lock does not depend on it, nor on what is in transit. -/
theorem CallOk.of_idle (h : CallOk u lock transit i c) (hidle : c.stage.held = false) :
    CallOk u lock' transit' i c where
  holds hheld := by rw [hidle] at hheld; cases hheld
  own := h.own
  apart ch read p hstage := by rw [hstage] at hidle; cases hidle
  assembled := h.assembled

/-- While one call holds the lock, no other does. -/
theorem CallOk.idle {j : Nat} (h : CallOk u lock transit j c) (hlock : lock = none ∨ lock = some i) (hj : j ≠ i) :
    c.stage.held = false := by
  rw [Bool.eq_false_iff]
  intro hheld
  have hown := h.holds hheld
  rcases hlock with hnone | hsome
  · rw [hnone] at hown
    cases hown
  · rw [hsome] at hown
    exact hj (Option.some.inj hown).symm

/-- A call changes its own entry, when it holds the lock or no call does. -/
theorem Inv.update (h : Inv u s) (hlock : s.lock = none ∨ s.lock = some i)
    (hcalls : s'.calls = Function.update s.calls i (some c)) (hc : CallOk u s'.lock s'.inTransit i c)
    (hids : ∀ m ∈ s'.inTransit, m.reqID = "" ∨ m.reqID = u.newString m.origin) : Inv u s' := by
  refine ⟨fun j d hd => ?_, hids⟩
  rw [hcalls] at hd
  by_cases hj : j = i
  · rw [hj, Function.update_self, Option.some.injEq] at hd
    rw [hj, ← hd]
    exact hc
  · rw [Function.update_of_ne hj] at hd
    exact (h.calls j d hd).of_idle ((h.calls j d hd).idle hlock hj)

/-- The call that taps the topic hears nothing of what is in transit. -/
theorem apart_of_settled (hids : ∀ m ∈ s.inTransit, m.reqID = "" ∨ m.reqID = u.newString m.origin)
    (hc : s.calls i = some c) (hsettled : Settled s (.next i .tap)) :
    ∀ m ∈ s.inTransit, m.origin ≠ i → m.Apart u i c := by
  intro m hm hne
  have hm' := hsettled c hc m hm
  by_cases hplain : m.reqID = "" ∨ c.raw = true
  · obtain ⟨hempty, hname⟩ := hm' hplain
    have hnone : ¬ (m.reqID ≠ "" ∧ c.reqID u i ≠ "") := by
      rintro ⟨hid, hreq⟩
      refine hreq ?_
      rw [Call.reqID, if_pos (hplain.resolve_left hid)]
    simp [Command.Apart, cliMatchesRequest, hnone, hempty, hname]
  · rw [not_or] at hplain
    have hreq : c.reqID u i = u.newString i := if_neg hplain.2
    have hid := (hids m hm).resolve_left hplain.1
    have hdiff : u.newString m.origin ≠ u.newString i := fun heq => hne (u.injective heq)
    simp [Command.Apart, cliMatchesRequest, hreq, hid, u.ne_empty, hdiff]

/-- What a tap lets through is for the call. -/
theorem CallOk.hear (h : CallOk u lock transit i c) (hf : f.of ∈ transit) :
    CallOk u lock transit i (c.hear u i f retained) := by
  cases hstage : c.stage with
  | tapped ch read published =>
      rw [Call.hear, hstage]
      dsimp only
      split_ifs with hheard
      · simp only [Bool.and_eq_true, decide_eq_true_eq] at hheard
        have hown : f.of.origin = i := by
          by_contra hne
          have happart := h.apart ch read published hstage f.of hf hne
          rw [Command.Apart, ← Reply.probe, hheard.1.2] at happart
          cases happart
        refine ⟨fun _ => h.holds (by rw [hstage]; rfl), fun g hg => ?_, fun _ _ _ _ => h.apart ch read published hstage,
          fun _ _ heq => by cases heq⟩
        have hheardIff : g ∈ c.stage.heard ↔ g ∈ ch ∨ g ∈ read := by
          rw [hstage]
          exact List.mem_append
        rcases List.mem_append.mp hg with hch | hread
        · rcases List.mem_append.mp hch with hold | hnew
          · exact h.own g (hheardIff.mpr (.inl hold))
          · rw [List.mem_singleton.mp hnew]
            exact hown
        · exact h.own g (hheardIff.mpr (.inr hread))
      · exact h
  | waiting =>
      rw [Call.hear, hstage]
      exact h
  | locked =>
      rw [Call.hear, hstage]
      exact h
  | returned =>
      rw [Call.hear, hstage]
      exact h

end calls

section steps

variable {u} {s s' : State} {i : Nat} {c : Call} {stage : Stage} {log : List Unit}

/-- The call that has the lock goes on. -/
theorem Inv.put (h : Inv u s) (hc : s.calls i = some c) (hheld : c.stage.held = true)
    (hok : CallOk u s.lock s.inTransit i { c with stage := stage }) : Inv u (s.put i c stage) :=
  h.update (.inr ((h.calls i c hc).holds hheld)) rfl hok h.ids

/-- It returns with what it has heard for it. -/
theorem Inv.leave {read : List Reply} {resp : Option CLIResponse} (h : Inv u s) (hc : s.calls i = some c)
    (hheld : c.stage.held = true) (hown : ∀ f ∈ read, f ∈ c.stage.heard)
    (hresp : ∀ r, resp = some r → awaitPagedCLIResponse (read.map Reply.parsed) = .response r) :
    Inv u (s.leave i c read resp) := by
  have hok := h.calls i c hc
  refine h.update (.inr (hok.holds hheld)) rfl ⟨fun hreturned => (by cases hreturned), ?_,
      fun _ _ _ hstage => (by cases hstage), ?_⟩ h.ids
  · exact fun f hf => hok.own f (hown f hf)
  · intro read' resp' hstage
    obtain ⟨rfl, rfl⟩ := Stage.returned.inj hstage
    exact hresp resp' rfl

/-- Fewer commands in transit, and taps that hear a reply to one of them. -/
theorem Inv.transit (h : Inv u s) (hsub : ∀ m ∈ s'.inTransit, m ∈ s.inTransit) (hlock : s'.lock = s.lock)
    (hcalls : ∀ i c, s'.calls i = some c → CallOk u s.lock s.inTransit i c) : Inv u s' := by
  refine ⟨fun i c hc => ?_, fun m hm => h.ids m (hsub m hm)⟩
  rw [hlock]
  exact (hcalls i c hc).mono hsub

theorem message_ids (c : Call) (i : Nat) : (c.message u i).reqID = "" ∨ (c.message u i).reqID = u.newString i := by
  rw [Call.message, Call.reqID]
  split_ifs
  · exact .inl rfl
  · exact .inr rfl

/-- The call's own command is on its way. -/
theorem Inv.publish (h : Inv u s) (hc : s.calls i = some c) (hheld : c.stage.held = true) :
    Inv u (s.send (c.message u i)) := by
  have hmem : ∀ m ∈ (s.send (c.message u i)).inTransit, m ∈ s.inTransit ∨ m = c.message u i := by
    intro m hm
    simp only [State.inTransit, State.send, List.append_assoc, List.mem_append, List.mem_singleton] at hm ⊢
    tauto
  have hlock := (h.calls i c hc).holds hheld
  refine ⟨fun j d hd => ?_, fun m hm => ?_⟩
  · by_cases hj : j = i
    · rw [hj] at hd ⊢
      have hok := h.calls i d hd
      refine ⟨hok.holds, hok.own, fun ch read p hstage m hm hne => ?_, hok.assembled⟩
      rcases hmem m hm with hold | rfl
      · exact hok.apart ch read p hstage m hold hne
      · exact absurd rfl hne
    · exact (h.calls j d hd).of_idle ((h.calls j d hd).idle (.inr hlock) hj)
  · rcases hmem m hm with hold | rfl
    · exact h.ids m hold
    · exact message_ids c i

theorem Inv.stepCall (h : Inv u s) {op : Op} (hsettled : Settled s (.next i op)) (hc : s.calls i = some c)
    (hstep : stepCall u s i c op = some s') : Inv u s' := by
  have hok := h.calls i c hc
  cases op with
  | lock =>
      simp only [Cli.stepCall, Option.ite_none_right_eq_some, Option.some.injEq] at hstep
      obtain ⟨⟨hstage, hlock⟩, rfl⟩ := hstep
      refine h.update (.inl hlock) rfl ⟨fun _ => rfl, fun f hf => absurd hf List.not_mem_nil,
        fun _ _ _ heq => (by cases heq),
        fun _ _ heq => (by cases heq)⟩ h.ids
  | tap =>
      simp only [Cli.stepCall, Option.ite_none_right_eq_some, Option.some.injEq] at hstep
      obtain ⟨hstage, rfl⟩ := hstep
      have hheld : c.stage.held = true := by rw [hstage]; rfl
      refine h.put hc hheld ⟨fun _ => hok.holds hheld, fun f hf => absurd hf List.not_mem_nil, fun _ _ _ _ => ?_,
        fun _ _ heq => (by cases heq)⟩
      exact apart_of_settled (c := c) h.ids hc hsettled
  | publish sent error =>
      simp only [Cli.stepCall] at hstep
      split at hstep
      next ch read hstage =>
        obtain rfl := Option.some.inj hstep
        have hheld : c.stage.held = true := by rw [hstage]; rfl
        have hnext : ∀ t : State, Inv u t → t.calls i = some c →
            Inv u (if error then t.leave i c read none else t.put i c (.tapped ch read true)) := by
          intro t ht hct
          have hokt := ht.calls i c hct
          split_ifs
          · refine ht.leave hct hheld (fun f hf => ?_) fun r heq => (by cases heq)
            rw [hstage]
            exact List.mem_append_right _ hf
          · refine ht.put hct hheld ⟨fun _ => hokt.holds hheld, fun f hf => ?_, fun _ _ _ _ =>
              hokt.apart ch read false hstage,
              fun _ _ heq => (by cases heq)⟩
            exact hokt.own f (by rw [hstage]; exact hf)
        by_cases hsent : sent = true
        · rw [if_pos hsent]
          exact hnext _ (h.publish hc hheld) hc
        · rw [if_neg hsent]
          exact hnext _ h hc
      next => cases hstep
  | read =>
      simp only [Cli.stepCall] at hstep
      split at hstep
      next f ch read hstage =>
        obtain rfl := Option.some.inj hstep
        have hheld : c.stage.held = true := by rw [hstage]; rfl
        have hsub : ∀ g ∈ read ++ [f], g ∈ c.stage.heard := by
          intro g hg
          rw [hstage]
          simp only [Stage.heard, List.mem_append, List.mem_cons] at hg ⊢
          tauto
        split
        next hawait =>
          refine h.put hc hheld ⟨fun _ => hok.holds hheld, fun g hg => ?_, fun _ _ _ _ => hok.apart _ _ _ hstage,
            fun _ _ heq => (by cases heq)⟩
          rcases List.mem_append.mp hg with hch | hread
          · refine hok.own g ?_
            rw [hstage]
            exact List.mem_append_left _ (List.mem_cons_of_mem _ hch)
          · exact hok.own g (hsub g hread)
        next hawait => exact h.leave hc hheld hsub fun r heq => (by cases heq)
        next resp hawait =>
          refine h.leave hc hheld hsub fun r heq => ?_
          rw [hawait, Option.some.inj heq]
      next => cases hstep
  | fail =>
      simp only [Cli.stepCall] at hstep
      split at hstep
      next hstage =>
        obtain rfl := Option.some.inj hstep
        exact h.leave hc (by rw [hstage]; rfl) (fun f hf => absurd hf List.not_mem_nil) fun r heq => (by cases heq)
      next ch read published hstage =>
        obtain rfl := Option.some.inj hstep
        refine h.leave hc (by rw [hstage]; rfl) (fun f hf => ?_) fun r heq => (by cases heq)
        rw [hstage]
        exact List.mem_append_right _ hf
      next => cases hstep

theorem Inv.step (h : Inv u s) {a : Action} (hsettled : Settled s a) (hstep : stepState u s a = some s') :
    Inv u s' := by
  cases a with
  | call i command raw =>
      simp only [stepState, Option.ite_none_right_eq_some, Option.some.injEq] at hstep
      obtain ⟨hfresh, rfl⟩ := hstep
      refine ⟨fun j d hd => ?_, h.ids⟩
      by_cases hj : j = i
      · have hd' : d = ⟨command, raw, .waiting⟩ := by
          rw [hj] at hd
          simpa [State.put] using hd.symm
        rw [hd']
        exact ⟨fun hheld => (by cases hheld), fun f hf => absurd hf List.not_mem_nil, fun _ _ _ heq => (by cases heq),
          fun _ _ heq => (by cases heq)⟩
      · exact h.calls j d ((Function.update_of_ne hj _ _).symm.trans hd)
  | next i op =>
      obtain ⟨c, hc, hop⟩ := Option.bind_eq_some_iff.mp hstep
      exact h.stepCall hsettled hc hop
  | execute n answers =>
      obtain ⟨m, hm, rfl⟩ := Option.map_eq_some_iff.mp hstep
      refine h.transit (fun m' hm' => ?_) rfl h.calls
      simp only [State.inTransit, List.map_append, List.map_map, List.mem_append] at hm' ⊢
      rcases hm' with hpending | hreplies | hnew
      · exact .inl (List.mem_of_mem_eraseIdx hpending)
      · exact .inr hreplies
      · obtain ⟨body, -, rfl⟩ := List.mem_map.mp hnew
        exact .inl (List.mem_of_getElem? hm)
  | loseCommand n =>
      obtain ⟨m, -, rfl⟩ := Option.map_eq_some_iff.mp hstep
      refine h.transit (fun m' hm' => ?_) rfl h.calls
      rcases List.mem_append.mp hm' with hpending | hreplies
      · exact List.mem_append_left _ (List.mem_of_mem_eraseIdx hpending)
      · exact List.mem_append_right _ hreplies
  | deliver n retained =>
      obtain ⟨f, hf, rfl⟩ := Option.map_eq_some_iff.mp hstep
      have hof : f.of ∈ s.inTransit := List.mem_append_right _ (List.mem_map_of_mem (List.mem_of_getElem? hf))
      refine h.transit (fun m' hm' => ?_) rfl fun i c hc => ?_
      · rcases List.mem_append.mp hm' with hpending | hreplies
        · exact List.mem_append_left _ hpending
        · obtain ⟨g, hg, rfl⟩ := List.mem_map.mp hreplies
          exact List.mem_append_right _ (List.mem_map_of_mem (List.mem_of_mem_eraseIdx hg))
      · obtain ⟨d, hd, rfl⟩ := Option.map_eq_some_iff.mp hc
        exact (h.calls i d hd).hear hof
  | loseReply n =>
      obtain ⟨f, -, rfl⟩ := Option.map_eq_some_iff.mp hstep
      refine h.transit (fun m' hm' => ?_) rfl h.calls
      rcases List.mem_append.mp hm' with hpending | hreplies
      · exact List.mem_append_left _ hpending
      · obtain ⟨g, hg, rfl⟩ := List.mem_map.mp hreplies
        exact List.mem_append_right _ (List.mem_map_of_mem (List.mem_of_mem_eraseIdx hg))

theorem inv_start : Inv u .start := ⟨fun _ _ hc => (by cases hc), fun _ hm => absurd hm List.not_mem_nil⟩

theorem inv_run (hrun : (system u).RunIf (fun _ => Settled) .start log s) : Inv u s := by
  refine hrun.invariant (fun _ => Inv u) inv_start fun log s a s' e h hok hstep => ?_
  obtain ⟨s₁, hs₁, heq⟩ := Option.map_eq_some_iff.mp hstep
  rw [← (Prod.mk.inj heq).1]
  exact h.step hok hs₁

theorem replies_own (hrun : (system u).RunIf (fun _ => Settled) .start log s) : Answered s := by
  intro i c read resp hc hstage
  have hok := (inv_run hrun).calls i c hc
  refine ⟨hok.assembled read resp hstage, fun f hf => hok.own f ?_⟩
  rw [hstage]
  exact hf

end steps

section upload

/-- Ids that differ in their length. -/
def unaryUuids : Uuids where
  newString i := String.ofList (List.replicate (i + 1) 'a')
  injective i j h := by
    have hlist := String.ofList_inj.mp h
    have hlength := congrArg List.length hlist
    simpa using hlength
  ne_empty i h := by
    have hlist := String.ofList_eq_empty_iff.mp h
    simp at hlist

def accepted (output : String) : Body := ⟨true, [output], none, none, none, none, none, none, none⟩

/-- A call that times out, the next one, and the device executes the first command only then. -/
def lateAppend (raw : Bool) : List Action :=
  [.call 0 "fs.append" raw, .next 0 .lock, .next 0 .tap, .next 0 (.publish true false), .next 0 .fail,
    .call 1 "fs.append" raw, .next 1 .lock, .next 1 .tap, .next 1 (.publish true false),
    .execute 0 [some (accepted "ok")], .deliver 0 false]

/-- The second call has a response from another call. -/
def takesLate (s : State) : Bool :=
  (s.calls 1).any fun c =>
    match c.stage with
    | .returned read resp => resp.isSome && read.any fun f => f.of.origin ≠ 1
    | _ => false

theorem not_answered_of_takesLate {s : State} (h : takesLate s = true) : ¬ Answered s := by
  intro hanswered
  obtain ⟨c, hc, hlate⟩ := (Option.any_eq_true _ _).mp h
  split at hlate
  next read resp hstage =>
    simp only [Bool.and_eq_true, List.any_eq_true, decide_eq_true_eq] at hlate
    obtain ⟨hsome, f, hf, hne⟩ := hlate
    obtain ⟨r, rfl⟩ := Option.isSome_iff_exists.mp hsome
    exact hne ((hanswered 1 c read r hc hstage).2 f hf)
  next => cases hlate

/-- The second chunk of a file is taken as written when the first is. -/
theorem not_answered_append : ∃ log s, (system unaryUuids).Run .start log s ∧ ¬ Answered s := by
  have hexec : ((system unaryUuids).execIf (fun _ _ _ => True) [] .start (lateAppend true ++ [.next 1 .read])).any
      (fun out => takesLate out.2) = true := by decide +kernel
  obtain ⟨log, s, hrun, hlate⟩ := Machine.exists_runIf_of_any hexec
  exact ⟨log, s, hrun, not_answered_of_takesLate hlate⟩

/-- Enveloped, the same calls keep their replies apart. -/
theorem answered_append : ∃ log s, (system unaryUuids).RunIf (fun _ => Settled) .start log s ∧ Answered s ∧
    (s.calls 1).map Call.stage = some (.returned [⟨⟨1, "fs.append", "aa"⟩, some (accepted "ok")⟩]
      (some ⟨accepted "ok", "fs.append", "aa"⟩)) := by
  have hexec : ((system unaryUuids).execIf (fun _ => Settled) [] .start
      (lateAppend false ++ [.execute 0 [some (accepted "ok")], .deliver 0 false, .next 1 .read])).any
      (fun out => (out.2.calls 1).map Call.stage = some (.returned [⟨⟨1, "fs.append", "aa"⟩, some (accepted "ok")⟩]
        (some ⟨accepted "ok", "fs.append", "aa"⟩))) = true := by decide +kernel
  obtain ⟨log, s, hrun, hstage⟩ := Machine.exists_runIf_of_any hexec
  exact ⟨log, s, hrun, replies_own hrun, of_decide_eq_true hstage⟩

end upload

end ThesadaApp.Cli
