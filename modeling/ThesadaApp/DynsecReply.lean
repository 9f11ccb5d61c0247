import ThesadaApp.MachineRun

/-!
The wait for a dynamic-security reply: the tap hands every message of the shared response topic over through a channel
of one slot, and the loop takes them off until one answers its command or its context ends.
-/

namespace ThesadaApp.DynsecReply

section model

structure Item where
  command : String
  error : String
  correlationData : String
  data : String
  deriving DecidableEq

/-- A message of the response topic; `none` is one that does not parse. -/
abbrev Message := Option (List Item)

inductive Outcome where
  | parseError
  | brokerError (text : String)
  | data (raw : String)
  | contextError
  deriving DecidableEq

/-- The command that is sent, and the number it is told by. -/
structure Command where
  name : String
  seq : Nat

def Command.correlationData (c : Command) : String := "thesada-app-" ++ toString c.seq

def Command.answers (c : Command) (items : List Item) : Bool := items.any fun r => r.correlationData = c.correlationData

/-- What the first item for the command comes to. -/
def Command.answer (c : Command) (items : List Item) : Option Outcome :=
  (items.find? fun r => r.correlationData = c.correlationData).map fun r =>
    if r.error ≠ "" then .brokerError ("dynsec " ++ c.name ++ ": " ++ r.error) else .data r.data

/-- What the loop returns for a message it reads, if it does not go on. -/
def Command.receive (c : Command) : Message → Option Outcome
  | none => some .parseError
  | some items => c.answer items

inductive Stage where
  | publishing
  | waiting
  | returned (outcome : Outcome)
  deriving DecidableEq

/-- The reply that the broker sends to the command. -/
structure Reply where
  items : List Item
  /-- The context had not ended. -/
  inTime : Bool
  deriving DecidableEq

structure State where
  ch : List Message
  ctxDone : Bool
  stage : Stage
  reply : Option Reply
  deriving DecidableEq

/-- The tap is registered, and the command on its way. -/
def State.start : State := ⟨[], false, .publishing, none⟩

inductive Action where
  | published
  /-- A message reaches the tap. The broker answers a command once. -/
  | deliver (m : Message)
  | read
  | contextEnds
  | giveUp

def Stage.isReturned : Stage → Bool
  | .returned _ => true
  | .publishing | .waiting => false

/-- The tap: a full channel drops the message, and a call that has returned has no tap. -/
def State.hear (s : State) (m : Message) : List Message :=
  if s.stage.isReturned || 1 ≤ s.ch.length then s.ch else s.ch ++ [m]

variable (c : Command)

def stepState (s : State) : Action → Option State
  | .published => if s.stage = .publishing then some { s with stage := .waiting } else none
  | .deliver m =>
      match m with
      | some items =>
          if c.answers items then
            if s.reply = none then some { s with ch := s.hear m, reply := some ⟨items, !s.ctxDone⟩ } else none
          else some { s with ch := s.hear m }
      | none => some { s with ch := s.hear m }
  | .read =>
      match s.stage, s.ch with
      | .waiting, m :: ch =>
          some { s with
            ch := ch
            stage := match c.receive m with
              | some outcome => .returned outcome
              | none => .waiting }
      | _, _ => none
  | .contextEnds => some { s with ctxDone := true }
  | .giveUp =>
      if s.stage = .waiting ∧ s.ctxDone = true then some { s with stage := .returned .contextError } else none

def system : Machine State Action Unit where
  step s a := (stepState c s a).map fun s' => (s', ())

end model

/-- A reply that has come in time is what the call returns, or what it reads next. -/
def Kept (c : Command) (s : State) : Prop :=
  ∀ reply ∈ s.reply, reply.inTime = true →
    if s.stage.isReturned then ∀ outcome ∈ c.answer reply.items, s.stage = .returned outcome
    else s.ch = [some reply.items]

/-- The channel is empty when the reply comes, nothing that does not parse gets into it while the call is there, and
the call does not give up while the reply is in it. -/
def Roomy (c : Command) (s : State) : Action → Prop
  | .deliver (some items) => c.answers items = true → s.ch = []
  | .deliver none => s.stage.isReturned = true ∨ s.ch ≠ []
  | .giveUp => ∀ items, some items ∈ s.ch → c.answers items = false
  | .published | .read | .contextEnds => True

instance (c : Command) (s : State) : DecidablePred (Roomy c s)
  | .deliver (some items) => inferInstanceAs (Decidable (c.answers items = true → s.ch = []))
  | .deliver none => inferInstanceAs (Decidable (s.stage.isReturned = true ∨ s.ch ≠ []))
  | .giveUp => decidable_of_iff (∀ m ∈ s.ch, m.any c.answers = false) ⟨fun h items hm => h _ hm, fun h m hm => by
      cases m with
      | none => rfl
      | some items => exact h items hm⟩
  | .published | .read | .contextEnds => isTrue trivial

section invariant

variable (c : Command)

structure Inv (s : State) : Prop where
  parsed : s.stage.isReturned = false → none ∉ s.ch
  foreign : s.reply = none → ∀ items, some items ∈ s.ch → c.answers items = false
  there : s.reply = none → s.ctxDone = false → s.stage.isReturned = false
  answered : ∀ reply ∈ s.reply, c.answers reply.items = true
  kept : Kept c s

variable {c} {s s' : State} {m : Message} {items : List Item}

theorem answer_eq_none (h : c.answers items = false) : c.answer items = none := by
  rw [Command.answer, Option.map_eq_none_iff, List.find?_eq_none]
  exact List.any_eq_false.mp h

theorem isSome_answer (h : c.answers items = true) : (c.answer items).isSome = true := by
  rw [Command.answer, Option.isSome_map, List.find?_isSome]
  exact List.any_eq_true.mp h

theorem hear_of_full (h : s.ch ≠ []) : s.hear m = s.ch := by
  have hlength : 1 ≤ s.ch.length := List.length_pos_iff.mpr h
  rw [State.hear, if_pos (by simp [hlength])]

theorem hear_of_returned (h : s.stage.isReturned = true) : s.hear m = s.ch := by
  rw [State.hear, if_pos (by simp [h])]

theorem mem_hear {m' : Message} (h : m' ∈ s.hear m) : m' ∈ s.ch ∨ m' = m := by
  rw [State.hear] at h
  split_ifs at h
  · exact .inl h
  · exact (List.mem_append.mp h).imp_right List.mem_singleton.mp

/-- A reply in time fills the channel, so nothing else gets in. -/
theorem Inv.kept_hear (h : Inv c s) : Kept c { s with ch := s.hear m } := by
  intro reply hreply htime
  have hkept := h.kept reply hreply htime
  show if s.stage.isReturned then _ else s.hear m = _
  split_ifs at hkept ⊢ with hreturned
  · exact hkept
  · rw [hear_of_full (by rw [hkept]; exact List.cons_ne_nil _ _), hkept]

/-- A message that does not answer the command is heard. -/
theorem Inv.hear_foreign (h : Inv c s) (hforeign : c.answers items = false) :
    Inv c { s with ch := s.hear (some items) } where
  parsed hstage hmem := by
    rcases mem_hear hmem with hmem | heq
    · exact h.parsed hstage hmem
    · cases heq
  foreign hreply other hmem := by
    rcases mem_hear hmem with hmem | heq
    · exact h.foreign hreply other hmem
    · cases heq
      exact hforeign
  there := h.there
  answered := h.answered
  kept := h.kept_hear

/-- The reply is heard, in an empty channel. -/
theorem Inv.hear_reply (h : Inv c s) (hitems : c.answers items = true) (hreply : s.reply = none) (hempty : s.ch = []) :
    Inv c { s with ch := s.hear (some items), reply := some ⟨items, !s.ctxDone⟩ } where
  parsed hstage hmem := by
    rcases mem_hear hmem with hmem | heq
    · exact h.parsed hstage hmem
    · cases heq
  foreign hnone := by cases hnone
  there hnone := by cases hnone
  answered reply hmem := by
    cases hmem
    exact hitems
  kept reply hmem htime := by
    cases hmem
    have hthere := h.there hreply (by simpa using htime)
    show if s.stage.isReturned then _ else s.hear (some items) = _
    rw [hthere, State.hear, hempty, hthere]
    rfl

/-- The loop takes the next message. -/
theorem Inv.read (h : Inv c s) {ch : List Message} (hch : s.ch = m :: ch) (hstage : s.stage = .waiting) :
    Inv c { s with ch := ch, stage := match c.receive m with
      | some outcome => .returned outcome
      | none => .waiting } := by
  have hwaiting : s.stage.isReturned = false := by rw [hstage]; rfl
  have hparsed := h.parsed hwaiting
  rw [hch] at hparsed
  have htail : none ∉ ch := fun hmem => hparsed (List.mem_cons_of_mem m hmem)
  rcases Option.eq_none_or_eq_some s.reply with hreply | ⟨reply, hreply⟩
  · -- a message of somebody else
    have hforeign := h.foreign hreply
    rw [hch] at hforeign
    cases m with
    | none => exact absurd List.mem_cons_self hparsed
    | some items =>
        have hnone : c.receive (some items) = none := answer_eq_none (hforeign items List.mem_cons_self)
        rw [hnone]
        refine ⟨fun _ => htail, fun _ other hmem => hforeign other (List.mem_cons_of_mem _ hmem), fun _ _ => rfl,
          h.answered, ?_⟩
        intro reply hmem
        cases hreply.symm.trans hmem
  · refine ⟨fun _ => htail, fun hnone => ?_, fun hnone => ?_, h.answered, ?_⟩
    · cases hreply.symm.trans hnone
    · cases hreply.symm.trans hnone
    · intro reply' hmem htime
      have hkept := h.kept reply' hmem htime
      rw [hwaiting, hch] at hkept
      obtain ⟨rfl, rfl⟩ := List.cons.inj (hkept : m :: ch = [some reply'.items])
      obtain ⟨outcome, houtcome⟩ := Option.isSome_iff_exists.mp (isSome_answer (h.answered reply' hmem))
      have hreceive : c.receive (some reply'.items) = some outcome := houtcome
      rw [hreceive]
      intro outcome' houtcome'
      rw [houtcome] at houtcome'
      cases houtcome'
      rfl

/-- The publish is over, and the wait begins. -/
theorem Inv.publish (h : Inv c s) (hstage : s.stage = .publishing) : Inv c { s with stage := .waiting } := by
  have hpublishing : s.stage.isReturned = false := by rw [hstage]; rfl
  refine ⟨fun _ => h.parsed hpublishing, h.foreign, fun _ _ => rfl, h.answered, ?_⟩
  intro reply hmem htime
  have hkept := h.kept reply hmem htime
  rw [hpublishing] at hkept
  exact hkept

/-- The call gives up, with no reply in the channel. -/
theorem Inv.giveUp (h : Inv c s) (hstage : s.stage = .waiting) (hdone : s.ctxDone = true)
    (hroomy : Roomy c s .giveUp) : Inv c { s with stage := .returned .contextError } := by
  refine ⟨fun hreturned => (by cases hreturned), h.foreign, fun _ hnot => ?_, h.answered, ?_⟩
  · rw [hdone] at hnot
    cases hnot
  · intro reply hmem htime
    have hkept := h.kept reply hmem htime
    rw [hstage] at hkept
    have hin : some reply.items ∈ s.ch := by
      rw [(hkept : s.ch = [some reply.items])]
      exact List.mem_singleton_self _
    have hnot := hroomy reply.items hin
    rw [h.answered reply hmem] at hnot
    cases hnot

theorem Inv.step (h : Inv c s) {a : Action} (hroomy : Roomy c s a) (hstep : stepState c s a = some s') : Inv c s' := by
  cases a with
  | published =>
      simp only [stepState, Option.ite_none_right_eq_some, Option.some.injEq] at hstep
      obtain ⟨hstage, rfl⟩ := hstep
      exact h.publish hstage
  | deliver m =>
      cases m with
      | none =>
          cases hstep
          have hsame : s.hear none = s.ch := by
            rcases hroomy with hreturned | hfull
            · exact hear_of_returned hreturned
            · exact hear_of_full hfull
          rw [hsame]
          exact h
      | some items =>
          simp only [stepState] at hstep
          split_ifs at hstep with hitems hreply
          · cases hstep
            exact h.hear_reply hitems hreply (hroomy hitems)
          · cases hstep
            exact h.hear_foreign (Bool.eq_false_iff.mpr hitems)
  | read =>
      simp only [stepState] at hstep
      split at hstep
      · next m ch hstage hch =>
          cases hstep
          exact h.read hch hstage
      · cases hstep
  | contextEnds =>
      cases hstep
      exact ⟨h.parsed, h.foreign, fun _ hdone => (by cases hdone), h.answered, h.kept⟩
  | giveUp =>
      simp only [stepState, Option.ite_none_right_eq_some, Option.some.injEq] at hstep
      obtain ⟨⟨hstage, hdone⟩, rfl⟩ := hstep
      exact h.giveUp hstage hdone hroomy

theorem inv_start (c : Command) : Inv c .start :=
  ⟨fun _ => List.not_mem_nil, fun _ _ hmem => absurd hmem List.not_mem_nil, fun _ _ => rfl,
    fun _ hmem => (by cases hmem), fun _ hmem => (by cases hmem)⟩

/-- The reply in the channel is what the call returns next. -/
theorem Inv.read_reply (h : Inv c s) {reply : Reply} (hreply : reply ∈ s.reply) (htime : reply.inTime = true)
    (hstage : s.stage = .waiting) :
    ∃ s' outcome, stepState c s .read = some s' ∧ c.answer reply.items = some outcome ∧
      s'.stage = .returned outcome := by
  have hkept := h.kept reply hreply htime
  rw [hstage] at hkept
  obtain ⟨outcome, houtcome⟩ := Option.isSome_iff_exists.mp (isSome_answer (h.answered reply hreply))
  have hreceive : c.receive (some reply.items) = some outcome := houtcome
  refine ⟨{ s with ch := [], stage := .returned outcome }, outcome, ?_, houtcome, rfl⟩
  have hch : s.ch = [some reply.items] := hkept
  simp only [stepState, hstage, hch, hreceive]

/-- In a run in which the channel has room for the reply, holds nothing that does not parse, and is not given up while
it holds the reply, a reply that comes before the context ends is kept: it is what the call returns, or has returned. -/
theorem reply_kept {log : List Unit} (hrun : (system c).RunIf (fun _ => Roomy c) .start log s) :
    Kept c s ∧ ∀ reply ∈ s.reply, reply.inTime = true → s.stage = .waiting →
      ∃ s' outcome, stepState c s .read = some s' ∧ c.answer reply.items = some outcome ∧
        s'.stage = .returned outcome := by
  have hinv : Inv c s := by
    refine hrun.invariant (fun _ s => Inv c s) (inv_start c) ?_
    intro _ s a s' _ ih hok hstep
    obtain ⟨t, ht, heq⟩ := Option.map_eq_some_iff.mp hstep
    cases heq
    exact ih.step hok ht
  exact ⟨hinv.kept, fun reply hreply htime hstage => hinv.read_reply hreply htime hstage⟩

end invariant

def createRole : Command := ⟨"createRole", 7⟩

/-- A reply without an error to the command of a number. -/
def replyTo (seq : Nat) : List Item := [⟨"createRole", "", "thesada-app-" ++ toString seq, "ok"⟩]

/-- The reply comes after a message to somebody else has been read. -/
theorem reply_kept_after_foreign : ∃ log s, (system createRole).RunIf (fun _ => Roomy createRole) .start log s ∧
    Kept createRole s ∧ s.stage = .returned (.data "ok") := by
  have hexec : ((system createRole).execIf (fun _ => Roomy createRole) [] .start
      [.published, .deliver (some (replyTo 6)), .read, .deliver (some (replyTo 7)), .read]).any
      (fun x => x.2.stage = .returned (.data "ok")) = true := by
    decide +kernel
  obtain ⟨log, s, hrun, hstage⟩ := Machine.exists_runIf_of_any hexec
  exact ⟨log, s, hrun, (reply_kept hrun).1, of_decide_eq_true hstage⟩

/-- The reply comes while a message to somebody else is in the channel, and the call waits until its context ends. -/
theorem not_kept_behind_foreign : ∃ log s, (system createRole).Run .start log s ∧ ¬ Kept createRole s ∧
    s.stage = .returned .contextError := by
  have hexec : ((system createRole).execIf (fun _ _ _ => True) [] .start
      [.published, .deliver (some (replyTo 6)), .deliver (some (replyTo 7)), .read, .contextEnds, .giveUp]).any
      (fun x => x.2.stage = .returned .contextError ∧ x.2.reply = some ⟨replyTo 7, true⟩) = true := by
    decide +kernel
  obtain ⟨log, s, hrun, htest⟩ := Machine.exists_runIf_of_any hexec
  obtain ⟨hstage, hreply⟩ := of_decide_eq_true htest
  refine ⟨log, s, hrun, fun hkept => ?_, hstage⟩
  have hlost := hkept ⟨replyTo 7, true⟩ hreply rfl
  rw [hstage] at hlost
  have hanswer : createRole.answer (replyTo 7) = some (.data "ok") := by decide +kernel
  cases hlost _ hanswer

end ThesadaApp.DynsecReply
