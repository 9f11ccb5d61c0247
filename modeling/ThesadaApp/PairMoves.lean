import ThesadaApp.CertMoves
import ThesadaApp.PairIssue

/-!
The steps of a pairing: what each can do to the store and to its request, and what the log of a request says by where
the request is.
-/

namespace ThesadaApp.PairIssue

open Certs (Certificate CertStatus)

variable {cfg : Config} {s s' : State} {log pre post : List Event} {k : Nat} {att : Attempt} {e : Event}

section fresh

/-- The serial drawn for a signature, by a request or by another caller whose row was stored. -/
def Event.drawn : Event → Option String
  | .began _ serialHex => some serialHex
  | .certs (.issued c _) => some c.serialHex
  | _ => none

/-- The id of a row that was stored. -/
def Event.rowID : Event → Option Nat
  | .persisted _ e _ | .certs e => e.newRow.map Certificate.id
  | _ => none

def Action.draws : Action → Option String
  | .post _ _ signed => signed.map EnrollApi.SignedCert.serialHex
  | .next _ _ => none
  | .certs a => a.serial

def Action.rowID : Action → Option Nat
  | .next _ (.persist _ id _) => some id
  | .certs a => a.rowID
  | _ => none

/-- A signature draws a new serial and a row gets a new id. -/
def Fresh (log : List Event) (_ : State) (a : Action) : Prop :=
  (∀ serial ∈ a.draws, serial ∉ log.filterMap Event.drawn) ∧ ∀ id ∈ a.rowID, id ∉ log.filterMap Event.rowID

instance (log : List Event) (s : State) (a : Action) : Decidable (Fresh log s a) :=
  inferInstanceAs (Decidable ((∀ serial ∈ a.draws, serial ∉ log.filterMap Event.drawn) ∧
    ∀ id ∈ a.rowID, id ∉ log.filterMap Event.rowID))

end fresh

section steps

/-- A step of a request that leaves the store as it is. -/
inductive Move (cfg : Config) (k : Nat) (att : Attempt) : Point → Event → Prop
  | persistDown (hp : att.point = .persist) : Move cfg k att .answered (.down k)
  | pushed {ssids : List String} {c : Command} {stage : String × Flash} {next : Point}
      (hpush : pushStep cfg att ssids att.point = some (c, stage, next)) :
      Move cfg k att next (.pushed k (Cascade.cliCommandTopic (deviceTopicPrefix cfg att.device) c.name) c .ok)
  | pushFailed {ssids : List String} {c : Command} {stage : String × Flash} {next : Point} {reply : Reply}
      (hpush : pushStep cfg att ssids att.point = some (c, stage, next)) :
      Move cfg k att (.failing stage.1 stage.2)
        (.pushed k (Cascade.cliCommandTopic (deviceTopicPrefix cfg att.device) c.name) c reply)
  | secretSkipped {primarySSID field : String} {fields : List String}
      (hp : att.point = .secrets primarySSID (field :: fields)) :
      Move cfg k att (afterSecret primarySSID fields) (.skipped k)
  | secretAborted {primarySSID : String} {fields : List String} {flash : Flash}
      (hp : att.point = .secrets primarySSID fields) :
      Move cfg k att (.failing "secret_provision" flash) (.skipped k)
  | secretPushed {primarySSID field fwField : String} {fields : List String} {value : List UInt8}
      (hp : att.point = .secrets primarySSID (field :: fields)) :
      Move cfg k att (afterSecret primarySSID fields)
        (.pushed k (Cascade.cliCommandTopic (deviceTopicPrefix cfg att.device) "secret.set")
          (.secretSet fwField value) .ok)
  | secretFailed {primarySSID fwField : String} {fields : List String} {value : List UInt8} {flash : Flash}
      {reply : Reply} (hp : att.point = .secrets primarySSID fields) :
      Move cfg k att (.failing "secret_provision" flash)
        (.pushed k (Cascade.cliCommandTopic (deviceTopicPrefix cfg att.device) "secret.set")
          (.secretSet fwField value) reply)
  | provisioned (hp : att.point = .dynsec) : Move cfg k att .activate (.provisioned k none)
  | provisionFailed {failed : String} (hp : att.point = .dynsec) :
      Move cfg k att (.failing failed .dynsecFailed) (.provisioned k (some failed))
  | activateDown (hp : att.point = .activate) : Move cfg k att (.failing "activate" .activateFailed) (.down k)
  | restarted {published : Bool} (hp : att.point = .restart) :
      Move cfg k att (.audit "active" "" .paired)
        (.restarted k (Cascade.cliCommandTopic (deviceTopicPrefix cfg att.device) "restart") .restart published)
  | markDown {stage : String} {flash : Flash} (hp : att.point = .failing stage flash) :
      Move cfg k att (.audit "flip_failed" stage flash) (.down k)
  | audited {status stage : String} {flash : Flash} (hp : att.point = .audit status stage flash) :
      Move cfg k att .answered (.audited k status stage flash)
  | unaudited {status stage : String} {flash : Flash} (hp : att.point = .audit status stage flash) :
      Move cfg k att .answered (.unaudited k)

/-- What a step can do. -/
inductive Does (cfg : Config) (log : List Event) (s : State) : State → Event → Prop
  | refused (flash : Option Flash) : Does cfg log s s (.refused flash)
  | began {device : Device} {signed : EnrollApi.SignedCert}
      (hfresh : signed.serialHex ∉ log.filterMap Event.drawn) :
      Does cfg log s { s with attempts := s.attempts ++ [⟨device, signed, 0, .persist⟩] }
        (.began s.attempts.length signed.serialHex)
  | moved {k : Nat} {att : Attempt} {p : Point} {e : Event} (hk : s.attempts[k]? = some att)
      (hmove : Move cfg k att p e) :
      Does cfg log s (s.put k (att.to p)) e
  | persisted {k : Nat} {att : Attempt} {id : Nat} {now : Time} {store : Certs.Store} {c : Certificate}
      {deviceID : String} {answered : Bool} (hk : s.attempts[k]? = some att) (hp : att.point = .persist)
      (hcall : call cfg s.store (.issuePending att.device.tenantID att.device.id now ⟨id, att.signed.serialHex, att.cn⟩) =
        some (store, .issued c deviceID))
      (hid : id ∉ log.filterMap Event.rowID) :
      Does cfg log s ({ s with store }.put k { att with certID := id, point := if answered then .clientCert else .answered })
        (.persisted k (.issued c deviceID) answered)
  | persistFailed {k : Nat} {att : Attempt} {id : Nat} {now : Time} {store : Certs.Store} {e : Certs.Event}
      {answered : Bool} (hk : s.attempts[k]? = some att) (hp : att.point = .persist)
      (hcall : call cfg s.store (.issuePending att.device.tenantID att.device.id now ⟨id, att.signed.serialHex, att.cn⟩) =
        some (store, e))
      (he : ∀ c deviceID, e ≠ .issued c deviceID) :
      Does cfg log s ({ s with store }.put k (att.to .answered)) (.persisted k e answered)
  | activated {k : Nat} {att : Attempt} {now : Time} {store : Certs.Store} {e : Certs.Event} {answered : Bool}
      (hk : s.attempts[k]? = some att) (hp : att.point = .activate)
      (hcall : call cfg s.store (.activate att.device.tenantID att.certID att.device.id now) = some (store, e)) :
      Does cfg log s ({ s with store }.put k (att.to
        (if e = Certs.Event.changed ∧ answered then .restart else .failing "activate" .activateFailed)))
          (.activated k e answered)
  | marked {k : Nat} {att : Attempt} {stage : String} {flash : Flash} {store : Certs.Store} {e : Certs.Event}
      {answered : Bool} (hk : s.attempts[k]? = some att) (hp : att.point = .failing stage flash)
      (hcall : call cfg s.store (.markFailed att.device.tenantID att.certID) = some (store, e)) :
      Does cfg log s ({ s with store }.put k (att.to (.audit (failedStatus e answered) stage flash)))
        (.markedFailed k e answered)
  | certs {a : Certs.Action} {store : Certs.Store} {e : Certs.Event} (hforeign : foreign a = true)
      (hcall : call cfg s.store a = some (store, e)) (hserial : ∀ serial ∈ a.serial, serial ∉ log.filterMap Event.drawn)
      (hid : ∀ id ∈ a.rowID, id ∉ log.filterMap Event.rowID) : Does cfg log s { s with store } (.certs e)

/-- The insert of the row. -/
theorem persist_does {commit : Commit} {id : Nat} {now : Time} (hfresh : Fresh log s (.next k (.persist commit id now)))
    (hk : s.attempts[k]? = some att) (h : stepAttempt cfg s k att (.persist commit id now) = some (s', e)) :
    Does cfg log s s' e := by
  simp only [stepAttempt] at h
  split at h
  · next hp =>
      split at h
      · cases h
        exact .moved hk (.persistDown hp)
      · obtain ⟨r, hcall, heq⟩ := Option.map_eq_some_iff.mp h
        obtain ⟨store, ev⟩ := r
        cases ev with
        | issued c deviceID =>
            cases heq
            exact .persisted hk hp hcall (hfresh.2 id rfl)
        | deleted id | changed | failed err =>
            cases heq
            exact .persistFailed hk hp hcall (by simp)
  · cases h

/-- A secret that is revealed and pushed, or passed over. -/
theorem secret_does {revealed : Option (Option (List UInt8))} {reply : Reply} (hk : s.attempts[k]? = some att)
    (h : stepAttempt cfg s k att (.secret revealed reply) = some (s', e)) : Does cfg log s s' e := by
  simp only [stepAttempt] at h
  split at h
  · next primarySSID field fields hp =>
      split at h
      · cases h
        exact .moved hk (.secretAborted hp)
      · cases h
        exact .moved hk (.secretSkipped hp)
      · next value =>
          split at h
          · cases h
            exact .moved hk (.secretSkipped hp)
          · next fwField hfield =>
              cases h
              by_cases hok : reply = .ok
              · rw [if_pos hok, hok]
                exact .moved hk (.secretPushed hp)
              · rw [if_neg hok]
                exact .moved hk (.secretFailed hp)
  · cases h

theorem stepAttempt_does {a : Step} (hfresh : Fresh log s (.next k a)) (hk : s.attempts[k]? = some att)
    (h : stepAttempt cfg s k att a = some (s', e)) :
    Does cfg log s s' e := by
  cases a with
  | persist commit id now => exact persist_does hfresh hk h
  | push reply ssids =>
      simp only [stepAttempt] at h
      obtain ⟨⟨c, stage, next⟩, hpush, heq⟩ := Option.map_eq_some_iff.mp h
      cases heq
      by_cases hok : reply = .ok
      · rw [if_pos hok, hok]
        exact .moved hk (.pushed hpush)
      · rw [if_neg hok]
        exact .moved hk (.pushFailed hpush)
  | secret revealed reply => exact secret_does hk h
  | dynsec failed =>
      simp only [stepAttempt] at h
      split at h
      · next hp =>
          cases h
          cases failed with
          | none => exact .moved hk (.provisioned hp)
          | some failed => exact .moved hk (.provisionFailed hp)
      · cases h
  | activate commit now =>
      simp only [stepAttempt] at h
      split at h
      · next hp =>
          split at h
          · cases h
            exact .moved hk (.activateDown hp)
          · obtain ⟨r, hcall, heq⟩ := Option.map_eq_some_iff.mp h
            cases heq
            exact .activated hk hp hcall
      · cases h
  | restart published =>
      simp only [stepAttempt] at h
      split at h
      · next hp =>
          cases h
          exact .moved hk (.restarted hp)
      · cases h
  | markFailed commit =>
      simp only [stepAttempt] at h
      split at h
      · next stage flash hp =>
          split at h
          · cases h
            exact .moved hk (.markDown hp)
          · obtain ⟨r, hcall, heq⟩ := Option.map_eq_some_iff.mp h
            cases heq
            exact .marked hk hp hcall
      · cases h
  | audit commit =>
      simp only [stepAttempt] at h
      split at h
      · next status stage flash hp =>
          cases h
          split
          · exact .moved hk (.unaudited hp)
          · exact .moved hk (.audited hp)
      · cases h

theorem step_does {a : Action} (hfresh : Fresh log s a) (h : (system cfg).step s a = some (s', e)) :
    Does cfg log s s' e := by
  cases a with
  | post devicePk caReady signed =>
      simp only [system, step] at h
      split at h
      · cases h
        exact .refused none
      · split at h
        · split at h
          · cases h
            exact .refused _
          · cases h
            exact .began (hfresh.1 _ rfl)
        · cases h
          exact .refused _
  | next k a =>
      obtain ⟨att, hk, h⟩ := Option.bind_eq_some_iff.mp h
      exact stepAttempt_does hfresh hk h
  | certs a =>
      simp only [system, step] at h
      split at h
      · next hforeign =>
          obtain ⟨r, hcall, heq⟩ := Option.map_eq_some_iff.mp h
          cases heq
          exact .certs hforeign hcall hfresh.1 hfresh.2
      · cases h

end steps

section own

/-- The request that an event belongs to. -/
def Event.request : Event → Option Nat
  | .began k _ | .persisted k _ _ | .pushed k _ _ _ | .skipped k | .provisioned k _ | .activated k _ _
  | .restarted k _ _ _ | .markedFailed k _ _ | .down k | .audited k _ _ _ | .unaudited k => some k
  | .refused _ | .certs _ => none

/-- What has happened to request `k`. -/
def own (log : List Event) (k : Nat) : List Event := log.filter fun e => e.request = some k

theorem mem_own : e ∈ own log k ↔ e ∈ log ∧ e.request = some k := by
  rw [own, List.mem_filter, decide_eq_true_eq]

theorem own_snoc (he : e.request = some k) : own (log ++ [e]) k = own log k ++ [e] := by
  have hone : [e].filter (fun e => e.request = some k) = [e] := List.filter_cons_of_pos (by simpa using he)
  rw [own, List.filter_append, hone, own]

theorem own_other (he : e.request ≠ some k) : own (log ++ [e]) k = own log k := by
  have hone : [e].filter (fun e => e.request = some k) = [] := List.filter_cons_of_neg (by simpa using he)
  rw [own, List.filter_append, hone, List.append_nil, own]

/-- The commands that were sent, with their replies. -/
def sent (l : List Event) : List (Command × Reply) := l.filterMap fun e =>
  match e with
  | .pushed _ _ c reply => some (c, reply)
  | _ => none

/-- What was written into the audit. -/
def audits (l : List Event) : List (String × String × Flash) := l.filterMap fun e =>
  match e with
  | .audited _ status stage flash => some (status, stage, flash)
  | _ => none

/-- The commands before the secrets. -/
def base (cfg : Config) (att : Attempt) : List Command :=
  [.certSet "client_cert" att.signed.certPEM, .certSet "client_key" att.signed.keyPEM,
    .configSet ("mqtt.port " ++ toString cfg.mqttDeviceMTLSPort)]

/-- The device has acknowledged the first `n` commands, and after the third any number of secrets. -/
def Acked (cfg : Config) (l : List Event) (att : Attempt) (n : Nat) : Prop :=
  ∃ secrets : List Command, (∀ c ∈ secrets, c.name = "secret.set") ∧ (n < 3 → secrets = []) ∧
    sent l = ((base cfg att).take n ++ secrets).map fun c => (c, .ok)

/-- The device has acknowledged every command, and then the broker was set up. -/
def Confirmed (cfg : Config) (l : List Event) (k : Nat) (att : Attempt) : Prop :=
  Acked cfg l att 3 ∧ .provisioned k none ∈ l

/-- The row of the request as it is inserted. -/
def Attempt.Row (att : Attempt) (row : Certificate) : Prop :=
  Certs.Issued .pending att.device.id ⟨att.certID, att.signed.serialHex, att.cn⟩ row

/-- The request has stored its row. -/
structure Stored (l : List Event) (k : Nat) (att : Attempt) : Prop where
  persisted : ∃ row deviceID answered, .persisted k (.issued row deviceID) answered ∈ l
  row : ∀ row deviceID answered, .persisted k (.issued row deviceID) answered ∈ l → att.Row row

/-- Neither call has changed the row, and nothing was audited. -/
structure Undecided (l : List Event) (k : Nat) : Prop where
  activated : ∀ answered, .activated k .changed answered ∉ l
  markedFailed : ∀ answered, .markedFailed k .changed answered ∉ l
  audits : audits l = []

structure NoRow (l : List Event) (k : Nat) : Prop where
  persisted : ∀ row deviceID answered, .persisted k (.issued row deviceID) answered ∉ l
  sent : sent l = []
  undecided : Undecided l k

/-- `Activate` has changed the row, and the request was not told. -/
structure ActiveLost (cfg : Config) (l : List Event) (k : Nat) (att : Attempt) : Prop where
  activated : .activated k .changed false ∈ l
  markedFailed : ∀ answered, .markedFailed k .changed answered ∉ l
  confirmed : Confirmed cfg l k att

/-- What the status in the audit row stands for. Two of them may hide a change that the request was not told of. -/
inductive Verdict (cfg : Config) (l : List Event) (k : Nat) (att : Attempt) : String → Prop
  | active (hactivated : .activated k .changed true ∈ l) (hanswered : .activated k .changed false ∉ l)
      (hmarked : ∀ answered, .markedFailed k .changed answered ∉ l) (hconfirmed : Confirmed cfg l k att) :
      Verdict cfg l k att "active"
  | failed (hactivated : ∀ answered, .activated k .changed answered ∉ l) (hmarked : .markedFailed k .changed true ∈ l)
      (hanswered : .markedFailed k .changed false ∉ l) : Verdict cfg l k att "failed"
  | kept {status : String} (hstatus : status = "superseded" ∨ status = "flip_failed")
      (hactivated : ∀ answered, .activated k .changed answered ∉ l)
      (hmarked : ∀ answered, .markedFailed k .changed answered ∉ l) : Verdict cfg l k att status
  | activeLost {status : String} (hstatus : status = "superseded" ∨ status = "flip_failed")
      (hlost : ActiveLost cfg l k att) : Verdict cfg l k att status
  | failedLost (hactivated : ∀ answered, .activated k .changed answered ∉ l)
      (hmarked : .markedFailed k .changed false ∈ l) : Verdict cfg l k att "flip_failed"

/-- What has happened to a request by where it is. -/
def PointLog (cfg : Config) (l : List Event) (k : Nat) (att : Attempt) : Prop :=
  match att.point with
  | .persist => NoRow l k
  | .clientCert => Stored l k att ∧ Undecided l k ∧ Acked cfg l att 0
  | .clientKey => Stored l k att ∧ Undecided l k ∧ Acked cfg l att 1
  | .port => Stored l k att ∧ Undecided l k ∧ Acked cfg l att 2
  | .secrets _ _ | .dynsec => Stored l k att ∧ Undecided l k ∧ Acked cfg l att 3
  | .activate => Stored l k att ∧ Undecided l k ∧ Confirmed cfg l k att
  | .failing _ _ => Stored l k att ∧ (Undecided l k ∨ ActiveLost cfg l k att ∧ audits l = [])
  | .restart => Stored l k att ∧ Verdict cfg l k att "active" ∧ audits l = []
  | .audit status _ _ => Stored l k att ∧ Verdict cfg l k att status ∧ audits l = []
  | .answered => NoRow l k ∨
      (Stored l k att ∧ Undecided l k ∧ ∀ row deviceID, .persisted k (.issued row deviceID) true ∉ l) ∨
      (Stored l k att ∧ ∃ status, Verdict cfg l k att status ∧
        (audits l = [] ∧ .unaudited k ∈ l ∨ ∃ stage flash, audits l = [(status, stage, flash)]))

variable {l : List Event} {p : Point}

theorem mem_snoc_of_ne {x : Event} (hx : x ≠ e) : x ∈ l ++ [e] ↔ x ∈ l := by
  rw [List.mem_append, List.mem_singleton, or_iff_left hx]

theorem Stored.snoc (h : Stored l k att)
    (he : ∀ row deviceID answered, e ≠ .persisted k (.issued row deviceID) answered) : Stored (l ++ [e]) k att where
  persisted := by
    obtain ⟨row, deviceID, answered, hmem⟩ := h.persisted
    exact ⟨row, deviceID, answered, List.mem_append_left _ hmem⟩
  row row deviceID answered hmem :=
    h.row row deviceID answered ((mem_snoc_of_ne (he row deviceID answered).symm).mp hmem)

theorem audits_snoc : audits (l ++ [e]) = audits l ++ audits [e] := List.filterMap_append

theorem audits_quiet (h : audits l = []) (he : audits [e] = []) : audits (l ++ [e]) = [] := by
  rw [audits_snoc, h, he, List.append_nil]

/-- An event that flips no row of the request. -/
def Event.Steady (k : Nat) (e : Event) : Prop :=
  (∀ answered, e ≠ .activated k .changed answered) ∧ ∀ answered, e ≠ .markedFailed k .changed answered

/-- An event that decides nothing. -/
def Event.Idle (k : Nat) (e : Event) : Prop := e.Steady k ∧ audits [e] = []

theorem Undecided.snoc (h : Undecided l k) (he : e.Idle k) : Undecided (l ++ [e]) k where
  activated answered hmem := h.activated answered ((mem_snoc_of_ne (he.1.1 answered).symm).mp hmem)
  markedFailed answered hmem := h.markedFailed answered ((mem_snoc_of_ne (he.1.2 answered).symm).mp hmem)
  audits := audits_quiet h.audits he.2

theorem sent_snoc_of_quiet (he : sent [e] = []) : sent (l ++ [e]) = sent l := by
  have hsent : sent (l ++ [e]) = sent l ++ sent [e] := List.filterMap_append
  rw [hsent, he, List.append_nil]

theorem Acked.quiet {n : Nat} (h : Acked cfg l att n) (he : sent [e] = []) : Acked cfg (l ++ [e]) att n := by
  obtain ⟨secrets, hname, hnone, hsent⟩ := h
  exact ⟨secrets, hname, hnone, (sent_snoc_of_quiet he).trans hsent⟩

theorem Confirmed.quiet (h : Confirmed cfg l k att) (he : sent [e] = []) : Confirmed cfg (l ++ [e]) k att :=
  ⟨h.1.quiet he, List.mem_append_left _ h.2⟩

theorem ActiveLost.snoc (h : ActiveLost cfg l k att) (he : sent [e] = []) (hsteady : e.Steady k) :
    ActiveLost cfg (l ++ [e]) k att where
  activated := List.mem_append_left _ h.activated
  markedFailed answered hmem := h.markedFailed answered ((mem_snoc_of_ne (hsteady.2 answered).symm).mp hmem)
  confirmed := h.confirmed.quiet he

theorem Verdict.snoc {status : String} (h : Verdict cfg l k att status) (he : sent [e] = []) (hsteady : e.Steady k) :
    Verdict cfg (l ++ [e]) k att status := by
  have hactivated : ∀ {answered}, .activated k .changed answered ∉ l → .activated k .changed answered ∉ l ++ [e] :=
    fun hnot hmem => hnot ((mem_snoc_of_ne (hsteady.1 _).symm).mp hmem)
  have hmarked : ∀ {answered}, .markedFailed k .changed answered ∉ l → .markedFailed k .changed answered ∉ l ++ [e] :=
    fun hnot hmem => hnot ((mem_snoc_of_ne (hsteady.2 _).symm).mp hmem)
  cases h with
  | active ha hn hm hc =>
      exact .active (List.mem_append_left _ ha) (hactivated hn) (fun answered => hmarked (hm answered)) (hc.quiet he)
  | failed ha hm hn => exact .failed (fun answered => hactivated (ha answered)) (List.mem_append_left _ hm) (hmarked hn)
  | kept hs ha hm => exact .kept hs (fun answered => hactivated (ha answered)) fun answered => hmarked (hm answered)
  | activeLost hs hl => exact .activeLost hs (hl.snoc he hsteady)
  | failedLost ha hm => exact .failedLost (fun answered => hactivated (ha answered)) (List.mem_append_left _ hm)

/-- An acknowledged command is the next of the list. -/
theorem Acked.push {n : Nat} {topic : String} {c : Command} (h : Acked cfg l att n) (hn : n < 3)
    (hc : (base cfg att)[n]? = some c) : Acked cfg (l ++ [.pushed k topic c .ok]) att (n + 1) := by
  obtain ⟨secrets, -, hnone, hsent⟩ := h
  obtain rfl := hnone hn
  refine ⟨[], fun c hc => absurd hc List.not_mem_nil, fun _ => rfl, ?_⟩
  have happend : sent (l ++ [.pushed k topic c .ok]) = sent l ++ [(c, .ok)] := List.filterMap_append
  rw [happend, hsent, List.append_nil, List.append_nil, List.take_add_one, hc, Option.toList_some, List.map_append,
    List.map_singleton]

theorem Acked.secret {topic fwField : String} {value : List UInt8} (h : Acked cfg l att 3) :
    Acked cfg (l ++ [.pushed k topic (.secretSet fwField value) .ok]) att 3 := by
  obtain ⟨secrets, hname, -, hsent⟩ := h
  refine ⟨secrets ++ [.secretSet fwField value], ?_, fun h => absurd h (Nat.lt_irrefl 3), ?_⟩
  · intro c hc
    obtain hc | hc := List.mem_append.mp hc
    · exact hname c hc
    · rw [List.mem_singleton.mp hc]
      rfl
  · have happend : sent (l ++ [.pushed k topic (.secretSet fwField value) .ok]) =
        sent l ++ [(.secretSet fwField value, .ok)] := List.filterMap_append
    calc sent (l ++ [.pushed k topic (.secretSet fwField value) .ok])
        = ((base cfg att).take 3 ++ secrets).map (fun c => (c, .ok)) ++ [(.secretSet fwField value, .ok)] := by
          rw [happend, hsent]
      _ = ((base cfg att).take 3 ++ (secrets ++ [Command.secretSet fwField value])).map fun c => (c, .ok) := by
          simp only [List.map_append, List.map_cons, List.map_nil, List.append_assoc]

/-- The point does not matter for what the log says of the row. -/
theorem Stored.to (h : Stored l k att) : Stored l k (att.to p) := ⟨h.persisted, h.row⟩

theorem ActiveLost.to (h : ActiveLost cfg l k att) : ActiveLost cfg l k (att.to p) :=
  ⟨h.activated, h.markedFailed, h.confirmed⟩

theorem Verdict.to {status : String} (h : Verdict cfg l k att status) : Verdict cfg l k (att.to p) status := by
  cases h with
  | active ha hn hm hc => exact .active ha hn hm hc
  | failed ha hm hn => exact .failed ha hm hn
  | kept hs ha hm => exact .kept hs ha hm
  | activeLost hs hl => exact .activeLost hs hl.to
  | failedLost ha hm => exact .failedLost ha hm

/-- The points of the pushes. -/
theorem pushStep_point {ssids : List String} {c : Command} {stage : String × Flash} {next : Point}
    (hpush : pushStep cfg att ssids att.point = some (c, stage, next)) (h : PointLog cfg l k att) :
    ∃ n, n < 3 ∧ Stored l k att ∧ Undecided l k ∧ Acked cfg l att n ∧ (base cfg att)[n]? = some c ∧
      ∀ l', Stored l' k att → Undecided l' k → Acked cfg l' att (n + 1) → PointLog cfg l' k (att.to next) := by
  unfold PointLog at h
  generalize hp : att.point = p at h hpush
  cases p with
  | clientCert =>
      cases hpush
      exact ⟨0, by omega, h.1, h.2.1, h.2.2, rfl, fun l' hs hu ha => ⟨hs.to, hu, ha⟩⟩
  | clientKey =>
      cases hpush
      exact ⟨1, by omega, h.1, h.2.1, h.2.2, rfl, fun l' hs hu ha => ⟨hs.to, hu, ha⟩⟩
  | port =>
      cases hpush
      refine ⟨2, by omega, h.1, h.2.1, h.2.2, rfl, fun l' hs hu ha => ?_⟩
      by_cases henabled : cfg.secretsEnabled = true
      · rw [if_pos henabled]
        exact ⟨hs.to, hu, ha⟩
      · rw [if_neg henabled]
        exact ⟨hs.to, hu, ha⟩
  | persist | secrets | dynsec | activate | restart | failing | audit | answered => cases hpush

theorem pointLog_afterSecret {primarySSID : String} {fields : List String} (hs : Stored l k att) (hu : Undecided l k)
    (ha : Acked cfg l att 3) : PointLog cfg l k (att.to (afterSecret primarySSID fields)) := by
  by_cases hnil : fields = []
  · rw [afterSecret, if_pos hnil]
    exact ⟨hs.to, hu, ha⟩
  · rw [afterSecret, if_neg hnil]
    exact ⟨hs.to, hu, ha⟩

theorem Move.pointLog (hmove : Move cfg k att p e) (h : PointLog cfg l k att) :
    PointLog cfg (l ++ [e]) k (att.to p) := by
  cases hmove with
  | persistDown hp =>
      rw [PointLog, hp] at h
      refine .inl ⟨fun row deviceID answered hmem => ?_, (sent_snoc_of_quiet rfl).trans h.sent,
        h.undecided.snoc ⟨⟨by simp, by simp⟩, rfl⟩⟩
      exact h.persisted row deviceID answered ((mem_snoc_of_ne (by simp)).mp hmem)
  | pushed hpush =>
      obtain ⟨n, hn, hs, hu, ha, hc, hnext⟩ := pushStep_point hpush h
      exact hnext _ (hs.snoc (by simp)) (hu.snoc ⟨⟨by simp, by simp⟩, rfl⟩) (ha.push hn hc)
  | pushFailed hpush =>
      obtain ⟨n, hn, hs, hu, ha, hc, hnext⟩ := pushStep_point hpush h
      exact ⟨(hs.snoc (by simp)).to, .inl (hu.snoc ⟨⟨by simp, by simp⟩, rfl⟩)⟩
  | secretSkipped hp =>
      rw [PointLog, hp] at h
      exact pointLog_afterSecret (h.1.snoc (by simp)) (h.2.1.snoc ⟨⟨by simp, by simp⟩, rfl⟩) (h.2.2.quiet rfl)
  | secretAborted hp =>
      rw [PointLog, hp] at h
      exact ⟨(h.1.snoc (by simp)).to, .inl (h.2.1.snoc ⟨⟨by simp, by simp⟩, rfl⟩)⟩
  | secretPushed hp =>
      rw [PointLog, hp] at h
      exact pointLog_afterSecret (h.1.snoc (by simp)) (h.2.1.snoc ⟨⟨by simp, by simp⟩, rfl⟩) h.2.2.secret
  | secretFailed hp =>
      rw [PointLog, hp] at h
      exact ⟨(h.1.snoc (by simp)).to, .inl (h.2.1.snoc ⟨⟨by simp, by simp⟩, rfl⟩)⟩
  | provisioned hp =>
      rw [PointLog, hp] at h
      exact ⟨(h.1.snoc (by simp)).to, h.2.1.snoc ⟨⟨by simp, by simp⟩, rfl⟩, h.2.2.quiet rfl,
        List.mem_append_right _ List.mem_cons_self⟩
  | provisionFailed hp =>
      rw [PointLog, hp] at h
      exact ⟨(h.1.snoc (by simp)).to, .inl (h.2.1.snoc ⟨⟨by simp, by simp⟩, rfl⟩)⟩
  | activateDown hp =>
      rw [PointLog, hp] at h
      exact ⟨(h.1.snoc (by simp)).to, .inl (h.2.1.snoc ⟨⟨by simp, by simp⟩, rfl⟩)⟩
  | restarted hp =>
      rw [PointLog, hp] at h
      exact ⟨(h.1.snoc (by simp)).to, (h.2.1.snoc rfl ⟨by simp, by simp⟩).to, audits_quiet h.2.2 rfl⟩
  | @markDown stage flash hp =>
      rw [PointLog, hp] at h
      obtain ⟨hstored, hundecided | ⟨hlost, haudits⟩⟩ := h
      · have hu : Undecided (l ++ [.down k]) k := hundecided.snoc ⟨⟨by simp, by simp⟩, rfl⟩
        exact ⟨(hstored.snoc (by simp)).to, .kept (.inr rfl) hu.activated hu.markedFailed, hu.audits⟩
      · exact ⟨(hstored.snoc (by simp)).to, .activeLost (.inr rfl) (hlost.snoc rfl ⟨by simp, by simp⟩).to,
          audits_quiet haudits rfl⟩
  | @audited status stage flash hp =>
      rw [PointLog, hp] at h
      refine .inr (.inr ⟨(h.1.snoc (by simp)).to, status, (h.2.1.snoc rfl ⟨by simp, by simp⟩).to,
        .inr ⟨stage, flash, ?_⟩⟩)
      rw [audits_snoc, h.2.2]
      rfl
  | @unaudited status stage flash hp =>
      rw [PointLog, hp] at h
      exact .inr (.inr ⟨(h.1.snoc (by simp)).to, status, (h.2.1.snoc rfl ⟨by simp, by simp⟩).to,
        .inl ⟨audits_quiet h.2.2 rfl, List.mem_append_right _ List.mem_cons_self⟩⟩)

end own

end ThesadaApp.PairIssue
