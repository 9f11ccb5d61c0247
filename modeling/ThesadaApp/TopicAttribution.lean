import ThesadaApp.DynsecAcl
import ThesadaApp.EnrollPolicy
import ThesadaApp.MqttIngest

/-!
The topic grammar of the prefix builder against that of the parser. The builder writes root, tenant and
device; the parser first looks for the legacy shape, whose third level is the kind, so the two agree on a
device id exactly when it is not itself called as a kind.
-/

namespace ThesadaApp

open TopicFilter

/-- The topic of a message of a device: its prefix, the kind, and the sub-path if there is one. -/
def deviceTopic (root tenantID deviceID : String) (kind : Kind) : Option String → String
  | none => deviceTopicPrefix root tenantID deviceID ++ "/" ++ kind.level
  | some sub => deviceTopicPrefix root tenantID deviceID ++ "/" ++ kind.level ++ "/" ++ sub

/-- The subscription of the ingest. -/
def ingestFilter (root : String) : String := root ++ "/#"

section attribution

variable {root deviceID topic : String} {tenantID : Slug} {p : ParsedTopic}

theorem levels_deviceTopicPrefix (hroot : '/' ∉ root.toList) (hdevice : '/' ∉ deviceID.toList) :
    levels (deviceTopicPrefix root tenantID.val deviceID) =
      [if root = "" then "thesada" else root, tenantID.val, deviceID] := by
  have hlevel : levels (if root = "" then "thesada" else root) = [if root = "" then "thesada" else root] := by
    split
    · decide
    · exact levels_of_not_mem hroot
  rw [deviceTopicPrefix, levels_append, levels_append, hlevel, (slug_level tenantID).1, levels_of_not_mem hdevice]
  rfl

theorem levels_deviceTopic (hroot : '/' ∉ root.toList) (hdevice : '/' ∉ deviceID.toList) (kind : Kind)
    (sub : Option String) : levels (deviceTopic root tenantID.val deviceID kind sub) =
      [if root = "" then "thesada" else root, tenantID.val, deviceID, kind.level] ++ (sub.map levels).getD [] := by
  have hkind : levels kind.level = [kind.level] := by
    cases kind <;> decide
  cases sub with
  | none => rw [deviceTopic, levels_append, levels_deviceTopicPrefix hroot hdevice, hkind]; rfl
  | some sub =>
      rw [deviceTopic, levels_append, levels_append, levels_deviceTopicPrefix hroot hdevice, hkind]
      rfl

/-- The parser reads a device's own topic as the builder wrote it exactly if the device id is not called as a
kind. -/
theorem parseTopic_deviceTopic_iff (hroot : '/' ∉ root.toList) (hdevice : '/' ∉ deviceID.toList) (kind : Kind)
    (sub : Option String) : parseTopic (deviceTopic root tenantID.val deviceID kind sub) =
        some ⟨tenantID.val, deviceID, kind, sub.getD "", deviceTopicPrefix root tenantID.val deviceID⟩ ↔
      kindOf deviceID = none := by
  rw [parseTopic, levels_deviceTopic hroot hdevice]
  simp only [List.cons_append, List.nil_append, parseLevels]
  cases hkind : kindOf deviceID with
  | none =>
      have hjoin : join ((sub.map levels).getD []) = sub.getD "" := by
        cases sub with
        | none => rfl
        | some sub => exact join_levels sub
      simp [kindOf_level, hjoin, deviceTopicPrefix]
  | some k =>
      constructor
      · intro h
        -- the legacy reading takes the tenant for the device
        have hslug : tenantID.val = deviceID := congrArg ParsedTopic.device (Option.some.inj h)
        rw [← hslug, kindOf_slug] at hkind
        cases hkind
      · nofun

/-- What the publish rights of a device match in its own tree is read as that device's. -/
theorem attributed_of_ownTree (hroot : '/' ∉ root.toList) (hdevice : '/' ∉ deviceID.toList)
    (hplain : Plain deviceID) (hkind : kindOf deviceID = none)
    (hmatch : matchesTopic (deviceTopicPrefix root tenantID.val deviceID ++ "/#") topic = true)
    (hparse : parseTopic topic = some p) : p.tenant = tenantID.val ∧ p.device = deviceID := by
  have hself : ∀ l : String, levels l = [l] → Plain l → l ≠ "+" ∧ l ≠ "#" := by
    intro l hl hp
    exact hp.level (by rw [hl]; exact List.mem_singleton_self l)
  rw [matchesTopic, Bool.and_eq_true, levels_subtree, levels_deviceTopicPrefix hroot hdevice] at hmatch
  obtain ⟨t, rest, hlevels, hprefix⟩ := matchLevels_below (by simp) (by
    intro l hl
    rcases List.mem_cons.mp hl with rfl | hl
    · exact hself _ (slug_level tenantID).1 (slug_level tenantID).2
    · rw [List.mem_singleton.mp hl]
      exact hself _ (levels_of_not_mem hdevice) hplain) hmatch.2
  obtain ⟨below, rfl⟩ := hprefix
  rw [parseTopic, hlevels, List.cons_append, List.cons_append, List.nil_append] at hparse
  cases below with
  | nil => simp only [parseLevels, hkind] at hparse; cases hparse
  | cons k below =>
      simp only [parseLevels, hkind] at hparse
      obtain ⟨kind, -, rfl⟩ := Option.map_eq_some_iff.mp hparse
      exact ⟨rfl, rfl⟩

/-- No topic of the discovery tree reaches the ingest, unless the root is that tree or any level. -/
theorem not_ingest_of_discovery (hroot : '/' ∉ root.toList) (hshared : root ≠ "homeassistant") (hany : root ≠ "+")
    (hmatch : matchesTopic discoveryTree topic = true) : matchesTopic (ingestFilter root) topic = false := by
  have htree : levels "homeassistant" <+: levels topic :=
    (matches_subtree_iff (p := "homeassistant") (by decide)).mp hmatch
  obtain ⟨rest, hrest⟩ := htree
  rw [matchesTopic, ingestFilter, levels_subtree, levels_of_not_mem hroot, ← hrest]
  have hdiscovery : levels "homeassistant" = ["homeassistant"] := levels_of_not_mem (by decide)
  simp [hdiscovery, matchLevels, hshared, hany]

/-- Prefix builder, publish rights and parser agree on a device whose id is not called as a kind: its own
topics are read as its own, and whatever it may publish that reaches the ingest is read as its own, as long as
the root is not the discovery tree that all devices share. -/
theorem attribution_agrees (root : String) (tenantID : Slug) (deviceID : String) (hroot : '/' ∉ root.toList)
    (hdevice : '/' ∉ deviceID.toList) (hplain : Plain deviceID) (hkind : kindOf deviceID = none) :
    (∀ kind sub, parseTopic (deviceTopic root tenantID.val deviceID kind sub) =
      some ⟨tenantID.val, deviceID, kind, sub.getD "", deviceTopicPrefix root tenantID.val deviceID⟩) ∧
    (root ≠ "homeassistant" → root ≠ "+" → ∀ broadRead topic p,
      mayPublish (dynsecDeviceACLs root tenantID.val (deviceTopicPrefix root tenantID.val deviceID) broadRead)
        topic = true →
      matchesTopic (ingestFilter root) topic = true → parseTopic topic = some p →
      p.tenant = tenantID.val ∧ p.device = deviceID) := by
  constructor
  · intro kind sub
    exact (parseTopic_deviceTopic_iff hroot hdevice kind sub).mpr hkind
  · intro hshared hany broadRead topic p hmay hingest hparse
    rw [mayPublish_dynsecDeviceACLs, Bool.or_eq_true] at hmay
    rcases hmay with hown | htree
    · exact attributed_of_ownTree hroot hdevice hplain hkind hown hparse
    · rw [not_ingest_of_discovery hroot hshared hany htree] at hingest
      cases hingest

theorem pump_attributed :
    parseTopic "thesada/acme/pump/sensor/flow" =
      some ⟨"acme", "pump", .sensor, "flow", "thesada/acme/pump"⟩ ∧
    (⟨"acme", "pump", .alert, "", "thesada/acme/pump"⟩ : ParsedTopic).device = "pump" := by
  have hagrees := attribution_agrees "thesada" acme "pump" (by decide) (by decide) (by decide) (by decide)
  exact ⟨hagrees.1 .sensor (some "flow"),
    (hagrees.2 (by decide) (by decide) true "thesada/acme/pump/alert" _ (by decide +kernel) (by decide +kernel)
      (by decide +kernel)).2⟩

/-- A device called as a kind publishes under its own rights what is read as a device of the default tenant,
and with the discovery tree for a root every device may write the topics of every other. -/
theorem status_not_attributed :
    (mayPublish (dynsecDeviceACLs "thesada" "acme" (deviceTopicPrefix "thesada" "acme" "status") false)
        (deviceTopic "thesada" "acme" "status" .info none) = true ∧
      matchesTopic (ingestFilter "thesada") (deviceTopic "thesada" "acme" "status" .info none) = true ∧
      parseTopic (deviceTopic "thesada" "acme" "status" .info none) =
        some ⟨"default", "acme", .status, "info", "thesada/acme"⟩) ∧
    (mayPublish (dynsecDeviceACLs "homeassistant" "acme" (deviceTopicPrefix "homeassistant" "acme" "pump") false)
        "homeassistant/beta/boiler/info" = true ∧
      matchesTopic (ingestFilter "homeassistant") "homeassistant/beta/boiler/info" = true ∧
      parseTopic "homeassistant/beta/boiler/info" =
        some ⟨"beta", "boiler", .info, "", "homeassistant/beta/boiler"⟩) := by
  decide +kernel

end attribution

end ThesadaApp
