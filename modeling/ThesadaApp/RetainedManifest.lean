import ThesadaApp.DynsecAcl
import ThesadaApp.KeyedTable
import ThesadaApp.MachineRun
import ThesadaApp.MqttIngest

/-!
The retained-topic manifests. A device lists the topics it keeps retained in a message of its own; the
client stores the list as it came and, when the device is deleted, publishes an empty retained message on
each topic of it. The broker lets each device publish what its ACLs allow and the client everything, so the
clear stays in the device's tree only as long as every list that is stored does.
-/

namespace ThesadaApp.Retained

open TopicFilter

/-- One entry of the cache: a topic prefix and its topics. -/
abbrev Manifest := String × List String

/-- A running `ClearDeviceRetained`: the topics of its snapshot still to come, and its two counts. -/
structure Clear where
  topicPrefix : String
  topics : List String
  cleared : Nat
  failed : Nat
  returned : Bool
  deriving DecidableEq

structure Client where
  retainedTopics : KeyedTable (Prod.fst : Manifest → String)
  clears : List Clear

def Client.initial : Client := ⟨∅, []⟩

/-- How a `PublishRaw` ends. -/
inductive PublishResult where
  | notConnected
  /-- The broker gets the message; `failed` is the token's error. -/
  | sent (failed : Bool)
  deriving DecidableEq, Repr

inductive Action where
  /-- A device with a topic prefix publishes a message, which reaches the client if its ACLs allow it. -/
  | receive (publisher : String) (m : Message) (l : Lookups)
  | clearStart (topicPrefix : String)
  /-- The next turn of a clear: whether its context has ended, and how the publish ends. -/
  | clearNext (i : Nat) (ctxEnded : Bool) (r : PublishResult)

inductive Event where
  | received (r : Route)
  | started (topicPrefix : String)
  | noManifest (topicPrefix : String)
  /-- The clear of a prefix published an empty retained message on a topic. -/
  | emptied (topicPrefix topic : String)
  | notSent (topicPrefix topic : String)
  | stopped (cleared failed : Nat)
  | finished (cleared failed : Nat)
  deriving DecidableEq

/-- The deployment's topic root, and `json.Unmarshal` into a list of strings. -/
structure Config where
  root : String
  decode : List UInt8 → Option (List String)

def Client.setManifests (c : Client) (t : KeyedTable (Prod.fst : Manifest → String)) : Client :=
  { c with retainedTopics := t }

def dropManifest (c : Client) (topicPrefix : String) : Client :=
  c.setManifests (c.retainedTopics.deleteWhere fun e => e.1 = topicPrefix)

/-- An empty payload drops the entry, and one that does not parse leaves it. -/
def cacheRetainedManifest (cfg : Config) (c : Client) (topicPrefix : String) (payload : List UInt8) : Client :=
  if payload = [] then dropManifest c topicPrefix
  else
    match cfg.decode payload with
    | none => c
    | some topics =>
        c.setManifests (c.retainedTopics.upsert (topicPrefix, topics) (fun e => (e.1, topics)) fun _ => rfl)

def getRetainedManifest (c : Client) (topicPrefix : String) : Option (List String) :=
  (c.retainedTopics.find topicPrefix).map Prod.snd

/-- Publishing on a topic is allowed to the device of a prefix, in whatever tenant it was paired. -/
def Granted (cfg : Config) (topicPrefix topic : String) : Prop :=
  ∀ tenantID broadRead, mayPublish (dynsecDeviceACLs cfg.root tenantID topicPrefix broadRead) topic = true

def Client.setClear (c : Client) (i : Nat) (r : Clear) : Client := { c with clears := c.clears.set i r }

/-- One turn of the loop of `ClearDeviceRetained`, or its end. -/
def clearTurn (c : Client) (i : Nat) (r : Clear) (ctxEnded : Bool) (p : PublishResult) : Client × Event :=
  match r.topics with
  | [] => ((dropManifest c r.topicPrefix).setClear i { r with returned := true }, .finished r.cleared r.failed)
  | t :: topics =>
      if ctxEnded then (c.setClear i { r with returned := true }, .stopped r.cleared r.failed)
      else
        match p with
        | .notConnected => (c.setClear i { r with topics, failed := r.failed + 1 }, .notSent r.topicPrefix t)
        | .sent true => (c.setClear i { r with topics, failed := r.failed + 1 }, .emptied r.topicPrefix t)
        | .sent false => (c.setClear i { r with topics, cleared := r.cleared + 1 }, .emptied r.topicPrefix t)

instance (cfg : Config) (topicPrefix topic : String) : Decidable (Granted cfg topicPrefix topic) :=
  decidable_of_iff ((matchesTopic (topicPrefix ++ "/#") topic || matchesTopic discoveryTree topic) = true)
    ⟨fun h _ _ => (mayPublish_dynsecDeviceACLs ..).trans h,
      fun h => (mayPublish_dynsecDeviceACLs cfg.root "" topicPrefix topic false).symm.trans (h "" false)⟩

def step (cfg : Config) (c : Client) : Action → Option (Client × Event)
  | .receive publisher m l =>
      if Granted cfg publisher m.topic then
        match route l m with
        | .manifest topicPrefix => some (cacheRetainedManifest cfg c topicPrefix m.payload, .received (route l m))
        | r => some (c, .received r)
      else none
  | .clearStart topicPrefix =>
      match getRetainedManifest c topicPrefix with
      | none => some (c, .noManifest topicPrefix)
      | some topics => some ({ c with clears := c.clears ++ [⟨topicPrefix, topics, 0, 0, false⟩] }, .started topicPrefix)
  | .clearNext i ctxEnded p =>
      match c.clears[i]? with
      | none => none
      | some r => if r.returned then none else some (clearTurn c i r ctxEnded p)

def machine (cfg : Config) : Machine Client Action Event where
  step := step cfg

/-- The manifest an action stores: a topic prefix and the topics listed. -/
def storedManifest (cfg : Config) : Action → Option Manifest
  | .receive _ m l =>
      match route l m with
      | .manifest topicPrefix => if m.payload = [] then none else (cfg.decode m.payload).map (topicPrefix, ·)
      | _ => none
  | _ => none

/-- A manifest that is about to be stored lists only topics its device may publish on. -/
def ListsOwn (cfg : Config) (_log : List Event) (_c : Client) (a : Action) : Prop :=
  ∀ e ∈ storedManifest cfg a, ∀ t ∈ e.2, Granted cfg e.1 t

instance (cfg : Config) (log : List Event) (c : Client) (a : Action) : Decidable (ListsOwn cfg log c a) :=
  inferInstanceAs (Decidable (∀ e ∈ storedManifest cfg a, ∀ t ∈ e.2, Granted cfg e.1 t))

/-- Every topic that is emptied is one the device of the prefix may publish on. -/
def ClearsOwn (cfg : Config) (e : Event) : Prop :=
  ∀ topicPrefix topic, e = .emptied topicPrefix topic → Granted cfg topicPrefix topic

/-- What is stored, and what is still to be cleared, is in the tree of its device. -/
structure OwnTopics (cfg : Config) (c : Client) : Prop where
  cached : ∀ e ∈ c.retainedTopics, ∀ t ∈ e.2, Granted cfg e.1 t
  clearing : ∀ r ∈ c.clears, ∀ t ∈ r.topics, Granted cfg r.topicPrefix t

variable {cfg : Config} {c c' : Client} {a : Action} {e : Event} {log : List Event}

theorem OwnTopics.dropManifest (h : OwnTopics cfg c) (topicPrefix : String) :
    OwnTopics cfg (dropManifest c topicPrefix) where
  cached e he := h.cached e (KeyedTable.mem_deleteWhere.mp he).1
  clearing := h.clearing

theorem OwnTopics.cacheRetainedManifest (h : OwnTopics cfg c) {topicPrefix : String} {payload : List UInt8}
    (hown : ∀ topics, payload ≠ [] → cfg.decode payload = some topics → ∀ t ∈ topics, Granted cfg topicPrefix t) :
    OwnTopics cfg (cacheRetainedManifest cfg c topicPrefix payload) := by
  unfold Retained.cacheRetainedManifest
  split
  · exact h.dropManifest topicPrefix
  · next hpayload =>
    split
    · exact h
    · next topics hdecode =>
        refine ⟨fun e he => ?_, h.clearing⟩
        rcases (KeyedTable.mem_upsert _).mp he with rfl | ⟨hold, -⟩
        · cases hfound : c.retainedTopics.find topicPrefix with
          | none => exact hown topics hpayload hdecode
          | some old =>
              obtain rfl : old.1 = topicPrefix := KeyedTable.find_key hfound
              exact hown topics hpayload hdecode
        · exact h.cached e hold

theorem OwnTopics.setClear (h : OwnTopics cfg c) (i : Nat) {r : Clear}
    (hr : ∀ t ∈ r.topics, Granted cfg r.topicPrefix t) : OwnTopics cfg (c.setClear i r) where
  cached := h.cached
  clearing x hx := by
    rcases List.mem_or_eq_of_mem_set hx with hx | rfl
    · exact h.clearing x hx
    · exact hr

/-- A turn of a clear takes topics away and empties only topics of the clear. -/
theorem OwnTopics.clearTurn (h : OwnTopics cfg c) {i : Nat} {r : Clear} (hr : r ∈ c.clears) (ctxEnded : Bool)
    (p : PublishResult) : OwnTopics cfg (clearTurn c i r ctxEnded p).1 ∧
      ClearsOwn cfg (Retained.clearTurn c i r ctxEnded p).2 := by
  have hown := h.clearing r hr
  unfold Retained.clearTurn
  cases htopics : r.topics with
  | nil =>
      rw [htopics] at hown
      exact ⟨(h.dropManifest r.topicPrefix).setClear i hown, nofun⟩
  | cons t topics =>
      rw [htopics] at hown
      have hrest : ∀ x ∈ topics, Granted cfg r.topicPrefix x := fun x hx => hown x (List.mem_cons_of_mem _ hx)
      have hfirst : ClearsOwn cfg (.emptied r.topicPrefix t) := by
        intro topicPrefix topic heq
        obtain ⟨rfl, rfl⟩ := Event.emptied.inj heq
        exact hown t List.mem_cons_self
      dsimp only
      split_ifs
      · exact ⟨h.setClear i hown, nofun⟩
      · cases p with
        | notConnected => exact ⟨h.setClear i hrest, nofun⟩
        | sent failed => cases failed <;> exact ⟨h.setClear i hrest, hfirst⟩

/-- A step whose manifest lists only its device's topics keeps what is stored in the tree of its device. -/
theorem OwnTopics.kept (h : OwnTopics cfg c) (hok : ListsOwn cfg log c a) (hstep : step cfg c a = some (c', e)) :
    OwnTopics cfg c' := by
  cases a with
  | receive publisher m l =>
      simp only [step] at hstep
      split at hstep
      · split at hstep
        · next topicPrefix hroute =>
            obtain ⟨rfl, rfl⟩ := Prod.mk.inj (Option.some.inj hstep)
            refine h.cacheRetainedManifest fun topics hpayload hdecode => hok (topicPrefix, topics) ?_
            simp [storedManifest, hroute, hpayload, hdecode]
        · obtain ⟨rfl, rfl⟩ := Prod.mk.inj (Option.some.inj hstep)
          exact h
      · cases hstep
  | clearStart topicPrefix =>
      simp only [step] at hstep
      split at hstep
      · obtain ⟨rfl, rfl⟩ := Prod.mk.inj (Option.some.inj hstep)
        exact h
      · next topics hmanifest =>
          obtain ⟨rfl, rfl⟩ := Prod.mk.inj (Option.some.inj hstep)
          obtain ⟨entry, hfound, rfl⟩ := Option.map_eq_some_iff.mp hmanifest
          obtain rfl : entry.1 = topicPrefix := KeyedTable.find_key hfound
          refine ⟨h.cached, fun r hr => ?_⟩
          rcases List.mem_append.mp hr with hr | hr
          · exact h.clearing r hr
          · obtain rfl := List.mem_singleton.mp hr
            exact h.cached entry (KeyedTable.find_mem hfound)
  | clearNext i ctxEnded p =>
      simp only [step] at hstep
      split at hstep
      · cases hstep
      · next r hr =>
          split at hstep
          · cases hstep
          · obtain ⟨rfl, rfl⟩ := Prod.mk.inj (Option.some.inj hstep)
            exact (h.clearTurn (List.mem_of_getElem? hr) ctxEnded p).1

/-- Only a turn of a clear empties a topic. -/
theorem OwnTopics.clearsOwn (h : OwnTopics cfg c) (hstep : step cfg c a = some (c', e)) : ClearsOwn cfg e := by
  cases a with
  | receive publisher m l =>
      simp only [step] at hstep
      split at hstep
      · split at hstep <;> obtain ⟨rfl, rfl⟩ := Prod.mk.inj (Option.some.inj hstep) <;> nofun
      · cases hstep
  | clearStart topicPrefix =>
      simp only [step] at hstep
      split at hstep <;> obtain ⟨rfl, rfl⟩ := Prod.mk.inj (Option.some.inj hstep) <;> nofun
  | clearNext i ctxEnded p =>
      simp only [step] at hstep
      split at hstep
      · cases hstep
      · next r hr =>
          split at hstep
          · cases hstep
          · obtain ⟨rfl, rfl⟩ := Prod.mk.inj (Option.some.inj hstep)
            exact (h.clearTurn (List.mem_of_getElem? hr) ctxEnded p).2

/-- In every run whose stored manifests list only topics their devices may publish on, every topic a clear
empties is one the ACLs of that prefix grant. -/
theorem clear_stays_in_tree (hrun : (machine cfg).RunIf (ListsOwn cfg) .initial log c) :
    ∀ a c' e, (machine cfg).step c a = some (c', e) → ClearsOwn cfg e := by
  have hown : OwnTopics cfg c := by
    refine Machine.RunIf.invariant (fun _ c => OwnTopics cfg c) ⟨?_, ?_⟩ ?_ hrun
    · exact fun e he => nomatch (List.not_mem_nil he)
    · exact fun r hr => nomatch (List.not_mem_nil hr)
    · exact fun log c a c' e h hok hstep => h.kept hok hstep
  exact fun a c' e hstep => hown.clearsOwn hstep

/-- A device of tenant acme, and a topic of a device of another tenant. -/
def pumpPrefix : String := "thesada/acme/pump"

def boilerTopic : String := "thesada/default/boiler/info"

/-- The bytes of a JSON array of one string. -/
def jsonOf (topic : String) : List UInt8 := ("[\"" ++ topic ++ "\"]").toUTF8.toList

/-- The decoder on the manifests below. -/
def pumpConfig : Config where
  root := "thesada"
  decode payload :=
    if payload = jsonOf boilerTopic then some [boilerTopic]
    else if payload = jsonOf (pumpPrefix ++ "/info") then some [pumpPrefix ++ "/info"]
    else none

/-- Both tenants exist, nothing is paired and nothing deleted. -/
def pumpLookups : Lookups where
  tenantExists t := t = "acme" || t = "default"
  activePairingTenants _ := some []
  isTombstoned _ _ := some false

/-- The device's manifest lists a topic and the device is deleted. -/
def listed (topic : String) : List Action :=
  [.receive pumpPrefix ⟨pumpPrefix ++ "/info/retained_topics", jsonOf topic, true⟩ pumpLookups,
    .clearStart pumpPrefix]

/-- The next turn of the clear empties a topic. -/
def empties (topic : String) (r : List Event × Client) : Bool :=
  ((machine pumpConfig).step r.2 (.clearNext 0 false (.sent false))).any fun r' => r'.2 = .emptied pumpPrefix topic

theorem listed_runs : ((machine pumpConfig).execIf (ListsOwn pumpConfig) [] .initial
    (listed (pumpPrefix ++ "/info"))).any (empties (pumpPrefix ++ "/info")) = true := by
  decide +kernel

theorem listed_clearsOwn : ∃ c a c', (machine pumpConfig).step c a =
    some (c', .emptied pumpPrefix (pumpPrefix ++ "/info")) ∧
      ClearsOwn pumpConfig (.emptied pumpPrefix (pumpPrefix ++ "/info")) := by
  obtain ⟨log, c, hrun, htest⟩ := Machine.exists_runIf_of_any listed_runs
  obtain ⟨⟨c', e⟩, hstep, he⟩ := (Option.any_eq_true _ _).mp htest
  obtain rfl := of_decide_eq_true he
  exact ⟨c, _, c', hstep, clear_stays_in_tree hrun _ c' _ hstep⟩

theorem listedOther_runs : ((machine pumpConfig).execIf (fun _ _ _ => True) [] .initial
    (listed boilerTopic)).any (empties boilerTopic) = true := by
  decide +kernel

/-- The device's manifest lists the topic of another tenant's device, and the clear empties it. -/
theorem listedOther_not_clearsOwn : ∃ log c a c' e, (machine pumpConfig).Run .initial log c ∧
    (machine pumpConfig).step c a = some (c', e) ∧ ¬ ClearsOwn pumpConfig e := by
  obtain ⟨log, c, hrun, htest⟩ := Machine.exists_runIf_of_any listedOther_runs
  obtain ⟨⟨c', e⟩, hstep, he⟩ := (Option.any_eq_true _ _).mp htest
  refine ⟨log, c, _, c', e, hrun, hstep, fun hown => ?_⟩
  exact absurd (hown pumpPrefix boilerTopic (of_decide_eq_true he)) (by decide +kernel)

end ThesadaApp.Retained
