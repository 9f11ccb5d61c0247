import ThesadaApp.Basic
import ThesadaApp.TopicFilter

/-!
The dispatch of inbound MQTT messages: which tenant, device and kind a topic names, and where a message
goes after the tenant, pairing and tombstone gates. The answers of the other services to one message come
with it.
-/

namespace ThesadaApp

open TopicFilter

/-- The kinds of ingest topics. -/
inductive Kind where
  | status
  | alert
  | sensor
  | info
  deriving DecidableEq, Repr

/-- `isKind`, with the kind it recognises. -/
def kindOf (level : String) : Option Kind :=
  if level = "status" then some .status
  else if level = "alert" then some .alert
  else if level = "sensor" then some .sensor
  else if level = "info" then some .info
  else none

/-- The level that names a kind. -/
def Kind.level : Kind → String
  | .status => "status"
  | .alert => "alert"
  | .sensor => "sensor"
  | .info => "info"

theorem kindOf_level (k : Kind) : kindOf k.level = some k := by
  cases k <;> decide

/-- No tenant is called as a kind. -/
theorem kindOf_slug (t : Slug) : kindOf t.val = none := by
  have hreserved := t.not_reserved
  simp only [reservedSlugs, List.mem_cons, not_or] at hreserved
  simp [kindOf, hreserved]

theorem slug_level (t : Slug) : levels t.val = [t.val] ∧ Plain t.val := by
  have hchar : ∀ c, slugChar c = false → c ∉ t.val.toList := by
    intro c hc hmem
    simp [Slug.char_of_mem hmem] at hc
  exact ⟨levels_of_not_mem (hchar _ (by decide)), hchar _ (by decide), hchar _ (by decide)⟩

structure ParsedTopic where
  tenant : String
  device : String
  kind : Kind
  sub : String
  topicPrefix : String
  deriving DecidableEq

/-- `parseTopic` on the levels of a topic: the 3-level shape is recognised first. -/
def parseLevels : List String → Option ParsedTopic
  | p₀ :: p₁ :: p₂ :: rest =>
      match kindOf p₂ with
      | some kind => some ⟨"default", p₁, kind, join rest, p₀ ++ "/" ++ p₁⟩
      | none =>
          match rest with
          | [] => none
          | p₃ :: rest =>
              (kindOf p₃).map fun kind => ⟨p₁, p₂, kind, join rest, p₀ ++ "/" ++ p₁ ++ "/" ++ p₂⟩
  | _ => none

def parseTopic (topic : String) : Option ParsedTopic := parseLevels (levels topic)

structure Message where
  topic : String
  payload : List UInt8
  retained : Bool
  deriving DecidableEq

/-- What the other services answer while one message is handled. -/
structure Lookups where
  /-- `ExistsBySlug`. -/
  tenantExists : String → Bool
  /-- `ActivePairingTenants`; `none` is an error. -/
  activePairingTenants : String → Option (List String)
  /-- `IsTombstoned`; `none` is an error. -/
  isTombstoned : String → String → Option Bool

/-- Where `onMessage` sends a message. -/
inductive Route where
  | dropped
  /-- A retained replay of a deleted device: an empty retained message is published on its topic. -/
  | clearReplay (topic : String)
  | status (tenant device topicPrefix : String)
  | info (tenant device topicPrefix : String)
  | manifest (topicPrefix : String)
  | alert (tenant device : String)
  | sensor (tenant device metric : String)
  deriving DecidableEq

/-- The handler of a message that has passed the gates. -/
def routeKind (p : ParsedTopic) (retained : Bool) : Route :=
  match p.kind with
  | .status => if p.sub = "" then .status p.tenant p.device p.topicPrefix else .dropped
  | .info =>
      if p.sub = "" then .info p.tenant p.device p.topicPrefix
      else if p.sub = "retained_topics" && retained then .manifest p.topicPrefix
      else .dropped
  | .alert => if p.sub = "" then .alert p.tenant p.device else .dropped
  | .sensor => if p.sub ≠ "" then .sensor p.tenant p.device p.sub else .dropped

/-- `onMessage` up to its handlers. -/
def route (l : Lookups) (m : Message) : Route :=
  match parseTopic m.topic with
  | none => .dropped
  | some p =>
      if l.tenantExists p.tenant = false then .dropped
      else
        match l.activePairingTenants p.device with
        | none => .dropped
        | some paired =>
            if paired ≠ [] ∧ p.tenant ∉ paired then .dropped
            else if l.isTombstoned p.tenant p.device = some true ∧ m.retained then .clearReplay m.topic
            else routeKind p m.retained

/-- The tenant gate and the pairing gate. -/
def passes (l : Lookups) (p : ParsedTopic) : Bool :=
  l.tenantExists p.tenant &&
    match l.activePairingTenants p.device with
    | none => false
    | some paired => paired = [] || p.tenant ∈ paired

/-- A message that passes both. -/
def admitted (l : Lookups) (m : Message) : Option ParsedTopic := (parseTopic m.topic).filter (passes l)

/-- What is not admitted is dropped, and the rest goes by the tombstone. -/
theorem route_eq (l : Lookups) (m : Message) : route l m =
    match admitted l m with
    | none => .dropped
    | some p =>
        if l.isTombstoned p.tenant p.device = some true ∧ m.retained then .clearReplay m.topic
        else routeKind p m.retained := by
  unfold route admitted
  cases hparse : parseTopic m.topic with
  | none => rfl
  | some p =>
      rw [Option.filter_some]
      dsimp only
      cases hexists : l.tenantExists p.tenant with
      | false => rw [if_pos rfl, passes, hexists, Bool.false_and, if_neg Bool.false_ne_true]
      | true =>
          rw [if_neg Bool.noConfusion, passes, hexists, Bool.true_and]
          cases hpaired : l.activePairingTenants p.device with
          | none => rfl
          | some paired =>
              by_cases hin : paired = [] ∨ p.tenant ∈ paired
              · have hout : ¬ (paired ≠ [] ∧ p.tenant ∉ paired) := by tauto
                simp only [if_neg hout, hin, decide_eq_true_eq, Bool.or_eq_true, if_true]
              · have hout : paired ≠ [] ∧ p.tenant ∉ paired := not_or.mp hin
                simp only [if_pos hout, hin, decide_eq_true_eq, Bool.or_eq_true, if_false]

theorem routeKind_device {p : ParsedTopic} {retained : Bool} {tenant device pre : String}
    (h : routeKind p retained = .status tenant device pre ∨ routeKind p retained = .info tenant device pre) :
    p.tenant = tenant ∧ p.device = device ∧ p.topicPrefix = pre := by
  unfold routeKind at h
  cases hkind : p.kind with
  | alert | sensor =>
      rw [hkind] at h
      dsimp only at h
      split at h <;> rcases h with h | h <;> cases h
  | status =>
      rw [hkind] at h
      dsimp only at h
      split at h <;> rcases h with h | h <;> cases h
      exact ⟨rfl, rfl, rfl⟩
  | info =>
      rw [hkind] at h
      dsimp only at h
      split at h
      · rcases h with h | h <;> cases h
        exact ⟨rfl, rfl, rfl⟩
      · split at h <;> rcases h with h | h <;> cases h

/-- A status or info message is handled under the tenant, the device and the prefix of its topic, and
only for a tenant that exists. -/
theorem route_device {l : Lookups} {m : Message} {tenant device pre : String}
    (h : route l m = .status tenant device pre ∨ route l m = .info tenant device pre) :
    ∃ p, parseTopic m.topic = some p ∧ p.tenant = tenant ∧ p.device = device ∧ p.topicPrefix = pre ∧
      l.tenantExists tenant = true := by
  unfold route at h
  split at h
  · rcases h with h | h <;> cases h
  · next p hparse =>
      split at h
      · rcases h with h | h <;> cases h
      · next hexists =>
          split at h
          · rcases h with h | h <;> cases h
          · split at h
            · rcases h with h | h <;> cases h
            split at h
            · rcases h with h | h <;> cases h
            obtain ⟨rfl, hdevice, hprefix⟩ := routeKind_device h
            exact ⟨p, hparse, rfl, hdevice, hprefix, by simpa using hexists⟩

end ThesadaApp
