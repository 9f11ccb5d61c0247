import ThesadaApp.DeviceIngest
import ThesadaApp.EnrollLifecycle

/-!
Where a device may publish. The stored topic prefix of a row places it in a tenant: the parser attributes
every ingest topic below it to the row's device id there. A message stores the prefix of its own topic and a
claim builds one, so a prefix is stored in the row's tenant; from then on only a reassign can take the two
apart.
-/

namespace ThesadaApp.Rights

open TopicFilter

variable {cfg : Config} {devices devices' : DeviceTable} {a : Action} {e : Event} {log : List Event}
  {tenantID : Slug} {deviceID topicPrefix topic : String} {p : ParsedTopic}

/-- A prefix below which every ingest topic belongs to the device id in the tenant, or to no tenant. -/
inductive Homed (cfg : Config) (tenantID : Slug) (deviceID topicPrefix : String) : Prop
  | tree (roots : List String) (hlevels : levels topicPrefix = roots ++ [tenantID.val, deviceID])
      (hroots : roots ≠ []) (hkinds : ∀ l ∈ roots.drop 2, kindOf l = none) (hdevice : kindOf deviceID = none)
  | legacy (first : String) (hlevels : levels topicPrefix = [first, deviceID]) (htenant : tenantID.val = "default")
      (hapart : cfg.tenantExists deviceID = false)

/-- Where the kind comes after the tenant and the device, the parser reads both. -/
theorem parseLevels_tree {roots rest : List String} (hroots : roots ≠ []) (hkinds : ∀ l ∈ roots.drop 2, kindOf l = none)
    (hdevice : kindOf deviceID = none) (hparse : parseLevels (roots ++ [tenantID.val, deviceID] ++ rest) = some p) :
    p.tenant = tenantID.val ∧ p.device = deviceID := by
  have htenant := kindOf_slug tenantID
  match roots with
  | [] => exact absurd rfl hroots
  | [x] =>
      cases rest with
      | nil => simp [parseLevels, hdevice] at hparse
      | cons k rest =>
          simp only [parseLevels, List.cons_append, List.nil_append, hdevice] at hparse
          obtain ⟨kind, -, rfl⟩ := Option.map_eq_some_iff.mp hparse
          exact ⟨rfl, rfl⟩
  | [x, y] => simp [parseLevels, htenant, hdevice] at hparse
  | [x, y, z] => simp [parseLevels, hkinds z (by simp), htenant] at hparse
  | x :: y :: z :: w :: roots => simp [parseLevels, hkinds z (by simp), hkinds w (by simp)] at hparse

/-- Where the kind comes after the device, the parser reads the device in the default tenant; otherwise it
takes the device for a tenant. -/
theorem parseLevels_legacy {first : String} {rest : List String}
    (hparse : parseLevels ([first, deviceID] ++ rest) = some p) :
    (p.tenant = "default" ∧ p.device = deviceID) ∨ p.tenant = deviceID := by
  cases rest with
  | nil => simp [parseLevels] at hparse
  | cons k rest =>
      simp only [parseLevels, List.cons_append, List.nil_append] at hparse
      split at hparse
      · obtain rfl := Option.some.inj hparse
        exact .inl ⟨rfl, rfl⟩
      · split at hparse
        · cases hparse
        · obtain ⟨kind, -, rfl⟩ := Option.map_eq_some_iff.mp hparse
          exact .inr rfl

theorem Homed.parse (h : Homed cfg tenantID deviceID topicPrefix) (hbelow : levels topicPrefix <+: levels topic)
    (hparse : parseTopic topic = some p) :
    (p.tenant = tenantID.val ∧ p.device = deviceID) ∨ cfg.tenantExists p.tenant = false := by
  obtain ⟨rest, hrest⟩ := hbelow
  rw [parseTopic, ← hrest] at hparse
  cases h with
  | tree roots hlevels hroots hkinds hdevice =>
      rw [hlevels] at hparse
      exact .inl (parseLevels_tree hroots hkinds hdevice hparse)
  | legacy first hlevels htenant hapart =>
      rw [hlevels] at hparse
      rcases parseLevels_legacy hparse with hown | hother
      · rw [htenant]
        exact .inl hown
      · rw [hother]
        exact .inr hapart

/-- A prefix on its way into a row: it has no wildcard and a home. -/
structure Placed (cfg : Config) (tenantID : Slug) (deviceID topicPrefix : String) : Prop where
  plain : Plain topicPrefix
  homed : Homed cfg tenantID deviceID topicPrefix

theorem Placed.ne_empty (h : Placed cfg tenantID deviceID topicPrefix) : topicPrefix ≠ "" := by
  rintro rfl
  have hlevels : levels "" = [""] := levels_of_not_mem (by simp)
  cases h.homed with
  | tree roots htree hroots =>
      have hlength := congrArg List.length (hlevels.symm.trans htree)
      simp at hlength
  | legacy first hlegacy => simp [hlevels] at hlegacy

/-- The prefix of an ingest topic has its home in the tenant and the device the parser reads. -/
theorem placed_of_parse (hplain : Plain topic) (hparse : parseTopic topic = some p) (htenant : p.tenant = tenantID.val)
    (hapart : (levels p.topicPrefix).length = 2 → cfg.tenantExists p.device = false) :
    Placed cfg tenantID p.device p.topicPrefix := by
  have hlevel : ∀ l ∈ levels topic, levels l = [l] ∧ Plain l := fun l hl => ⟨levels_of_mem hl, hplain.of_mem hl⟩
  unfold parseTopic at hparse
  match hsplit : levels topic with
  | [] | [_] | [_, _] => simp [hsplit, parseLevels] at hparse
  | p₀ :: p₁ :: p₂ :: rest =>
      simp only [hsplit, List.mem_cons, forall_eq_or_imp] at hlevel
      obtain ⟨⟨hl₀, hp₀⟩, ⟨hl₁, hp₁⟩, ⟨hl₂, hp₂⟩, -⟩ := hlevel
      simp only [hsplit, parseLevels] at hparse
      split at hparse
      · obtain rfl := Option.some.inj hparse
        have hlevels : levels (p₀ ++ "/" ++ p₁) = [p₀, p₁] := by
          rw [levels_append, hl₀, hl₁]
          rfl
        refine ⟨hp₀.append hp₁, .legacy p₀ hlevels htenant.symm (hapart ?_)⟩
        rw [hlevels]
        rfl
      · next hkind =>
          split at hparse
          · cases hparse
          · obtain ⟨kind, -, rfl⟩ := Option.map_eq_some_iff.mp hparse
            refine ⟨(hp₀.append hp₁).append hp₂, .tree [p₀] ?_ (by simp) (by simp) hkind⟩
            rw [levels_append, levels_append, hl₀, hl₁, hl₂, ← htenant]
            rfl

theorem deviceID_level (h : validDeviceID deviceID = true) :
    levels deviceID = [deviceID] ∧ Plain deviceID ∧ kindOf deviceID = none := by
  obtain ⟨hbegins, -, hhex⟩ : deviceIDPrefix.toList <+: deviceID.toList ∧
      (deviceID.toList.drop deviceIDPrefix.toList.length).length = deviceIDHexLen ∧
      (deviceID.toList.drop deviceIDPrefix.toList.length).all lowerHex = true := by
    simpa [validDeviceID] using h
  obtain ⟨rest, hrest⟩ := hbegins
  rw [← hrest, List.drop_left] at hhex
  have hchar : ∀ c, c ∉ deviceIDPrefix.toList → lowerHex c = false → c ∉ deviceID.toList := by
    intro c hbegins hc hmem
    rw [← hrest] at hmem
    rcases List.mem_append.mp hmem with hmem | hmem
    · exact hbegins hmem
    · simp [List.all_eq_true.mp hhex c hmem] at hc
  refine ⟨levels_of_not_mem (hchar _ (by decide) (by decide)),
    ⟨hchar _ (by decide) (by decide), hchar _ (by decide) (by decide)⟩, ?_⟩
  have hne : ∀ k : String, validDeviceID k = false → deviceID ≠ k := by
    rintro k hk rfl
    simp [h] at hk
  simp [kindOf, hne "status" (by decide), hne "alert" (by decide), hne "sensor" (by decide), hne "info" (by decide)]

/-- The prefix a claim builds has its home in the claiming tenant. -/
theorem placed_of_claim (hvalid : validDeviceID deviceID = true) :
    Placed cfg tenantID deviceID (deviceTopicPrefix cfg.root.val tenantID.val deviceID) := by
  obtain ⟨htenant, hplainTenant⟩ := slug_level tenantID
  obtain ⟨hdevice, hplainDevice, hkind⟩ := deviceID_level hvalid
  have hbuilt : ∀ root : String, Plain root → (∀ l ∈ (levels root).drop 2, kindOf l = none) →
      Placed cfg tenantID deviceID (root ++ "/" ++ tenantID.val ++ "/" ++ deviceID) := by
    intro root hplain hkinds
    refine ⟨(hplain.append hplainTenant).append hplainDevice, .tree (levels root) ?_ (levels_ne_nil root) hkinds hkind⟩
    rw [levels_append, levels_append, htenant, hdevice]
    simp
  unfold deviceTopicPrefix
  split_ifs
  · refine hbuilt "thesada" (by decide) ?_
    rw [levels_of_not_mem (by decide)]
    simp
  · exact hbuilt cfg.root.val cfg.root.plain cfg.root.noKind

/-- Every ingest topic the ACLs of the row allow, those of the discovery tree aside, is read as the row's
device id in the tenant, or as a tenant that does not exist. -/
def RightsIn (cfg : Config) (d : Device) (tenantID : Slug) : Prop :=
  ∀ broadRead, ∀ a ∈ provisionedACLs cfg d broadRead, a.topic ≠ discoveryTree → ∀ topic p, a.publishes topic = true →
    parseTopic topic = some p →
      (p.tenant = tenantID.val ∧ p.device = d.deviceID) ∨ cfg.tenantExists p.tenant = false

theorem rightsIn_of_placed {d : Device} (hstored : d.mqttTopicPrefix = some topicPrefix)
    (h : Placed cfg tenantID d.deviceID topicPrefix) : RightsIn cfg d tenantID := by
  intro broadRead a ha hdiscovery topic p hpublishes hparse
  have hbegins : storedTopicPrefix cfg.root.val d = topicPrefix := by
    simp [storedTopicPrefix, hstored, h.ne_empty]
  rw [provisionedACLs, hbegins] at ha
  simp only [DynsecACL.publishes, Bool.and_eq_true, decide_eq_true_eq] at hpublishes
  obtain ⟨⟨hsend, -⟩, hmatches⟩ := hpublishes
  have hown : a.topic = topicPrefix ++ "/#" := by
    simp only [dynsecDeviceACLs, List.mem_cons, List.not_mem_nil, or_false] at ha
    rcases ha with rfl | rfl | rfl | rfl | rfl | rfl | rfl | rfl <;> first | rfl | exact absurd rfl hdiscovery | cases hsend
  rw [hown, matches_subtree_iff h.plain] at hmatches
  exact h.homed.parse hmatches hparse

/-- A row's prefix was last written while the row was in a tenant, and these events came since. -/
def StoredIn (log : List Event) (id : UUID) (tenantID : Slug) (since : List Event) : Prop :=
  ∃ before, log = before ++ .stored id tenantID :: since ∧ ∀ t, .stored id t ∉ since

theorem storedIn_last (log : List Event) (id : UUID) (tenantID : Slug) :
    StoredIn (log ++ [.stored id tenantID]) id tenantID [] :=
  ⟨log, rfl, fun _ => List.not_mem_nil⟩

theorem StoredIn.append {id : UUID} {since : List Event} (h : StoredIn log id tenantID since)
    (he : ∀ t, e ≠ .stored id t) : StoredIn (log ++ [e]) id tenantID (since ++ [e]) := by
  obtain ⟨before, rfl, hsince⟩ := h
  refine ⟨before, by simp, fun t hmem => ?_⟩
  rcases List.mem_append.mp hmem with hmem | hmem
  · exact hsince t hmem
  · exact he t (List.mem_singleton.mp hmem).symm

/-- The row's prefix has a home in the tenant it was written in, which is the row's own until a reassign. -/
def HasHome (cfg : Config) (log : List Event) (d : Device) : Prop :=
  ∃ tenantID since topicPrefix, StoredIn log d.id tenantID since ∧ (.reassigned d.id ∉ since → d.tenantID = tenantID) ∧
    d.mqttTopicPrefix = some topicPrefix ∧ Placed cfg tenantID d.deviceID topicPrefix

/-- What a step can do to the rows: it keeps ids, device ids and prefixes, and the tenants of all rows but a
reassigned one; or it writes a prefix that has its home in the tenant of its row. -/
inductive RowsChange (cfg : Config) (devices devices' : DeviceTable) (e : Event) : Prop
  | kept (hevent : ∀ id t, e ≠ .stored id t)
      (hrows : ∀ d' ∈ devices', ∃ d ∈ devices, d'.id = d.id ∧ d'.deviceID = d.deviceID ∧
        d'.mqttTopicPrefix = d.mqttTopicPrefix ∧ (d'.tenantID = d.tenantID ∨ e = .reassigned d.id))
  | stored (id : UUID) (tenantID : Slug) (deviceID topicPrefix : String) (hevent : e = .stored id tenantID)
      (hplaced : Placed cfg tenantID deviceID topicPrefix)
      (hrows : ∀ d' ∈ devices', (d'.id = id ∧ d'.tenantID = tenantID ∧ d'.deviceID = deviceID ∧
        d'.mqttTopicPrefix = some topicPrefix) ∨ (d' ∈ devices ∧ d'.id ≠ id))

theorem RowsChange.refl (hevent : ∀ id t, e ≠ .stored id t) : RowsChange cfg devices devices e :=
  .kept hevent fun d hd => ⟨d, hd, rfl, rfl, rfl, .inl rfl⟩

theorem RowsChange.refused : RowsChange cfg devices devices .refused := .refl fun _ _ h => by cases h

/-- An upsert that writes a prefix with a home in the tenant it writes to. -/
theorem RowsChange.of_upsert {fresh id : UUID} {set : Device → Device}
    (hupsert : devices.upsertRow tenantID deviceID fresh set = some (devices', id))
    (hset : ∀ d, (set d).id = d.id ∧ (set d).tenantID = d.tenantID ∧ (set d).deviceID = d.deviceID ∧
      (set d).mqttTopicPrefix = some topicPrefix)
    (hplaced : Placed cfg tenantID deviceID topicPrefix) : RowsChange cfg devices devices' (.stored id tenantID) := by
  obtain ⟨old, rfl, rfl, rfl, hmem, -, hiff⟩ := DeviceTable.upsertRow_spec hupsert
  refine .stored old.id old.tenantID old.deviceID topicPrefix rfl hplaced fun d' hd' => ?_
  by_cases hold : d' = set old
  · rw [hold]
    exact .inl (hset old)
  · refine .inr ⟨((hiff d').mp hd').resolve_left hold |>.1, fun hid => hold ?_⟩
    exact DeviceTable.eq_of_id hd' hmem (hid.trans (hset old).1.symm)

/-- A legacy message that stores its prefix is of a device id that is no tenant's slug. -/
def LegacyApart (cfg : Config) (_log : List Event) (_devices : DeviceTable) : Action → Prop
  | .message m l _ => ∀ u ∈ messageUpsert cfg m l, (levels u.2.2).length = 2 → cfg.tenantExists u.2.1 = false
  | _ => True

instance (log : List Event) (devices : DeviceTable) (a : Action) : Decidable (LegacyApart cfg log devices a) :=
  match a with
  | .message m l _ =>
      inferInstanceAs (Decidable (∀ u ∈ messageUpsert cfg m l, (levels u.2.2).length = 2 → cfg.tenantExists u.2.1 = false))
  | .claim .. | .reassign .. | .pair .. => inferInstanceAs (Decidable True)

/-- What a message stores is what the parser reads in its topic. -/
theorem messageUpsert_parse {m : Message} {l : Lookups} {tenant device pre : String}
    (h : messageUpsert cfg m l = some (tenant, device, pre)) :
    ∃ p, parseTopic m.topic = some p ∧ p.tenant = tenant ∧ p.device = device ∧ p.topicPrefix = pre := by
  unfold messageUpsert at h
  generalize hroute : route { l with tenantExists := cfg.tenantExists } m = r at h
  cases r with
  | dropped | clearReplay | manifest | alert | sensor => cases h
  | status tenant' device' pre' =>
      simp only [upsertOf] at h
      split_ifs at h
      cases h
      obtain ⟨p, hparse, htenant, hdevice, hbegins, -⟩ := route_device (.inl hroute)
      exact ⟨p, hparse, htenant, hdevice, hbegins⟩
  | info tenant' device' pre' =>
      simp only [upsertOf] at h
      split_ifs at h
      cases h
      obtain ⟨p, hparse, htenant, hdevice, hbegins, -⟩ := route_device (.inr hroute)
      exact ⟨p, hparse, htenant, hdevice, hbegins⟩

theorem storeMessage_change {fresh : UUID} {tenant device pre : String}
    (hplaced : ∀ t : Slug, t.val = tenant → Placed cfg t device pre) :
    RowsChange cfg devices (storeMessage cfg devices fresh tenant device pre).1
      (storeMessage cfg devices fresh tenant device pre).2 := by
  unfold storeMessage upsertCore
  cases hfind : cfg.tenants.find? fun t => t.val = tenant with
  | none => exact .refl nofun
  | some tenantID =>
      have hnamed : tenantID.val = tenant := by simpa using List.find?_some hfind
      have hbegins := (hplaced tenantID hnamed).ne_empty
      dsimp only
      split_ifs
      · exact .refl nofun
      · cases hupsert : devices.upsertRow tenantID device fresh (setPrefix pre) with
        | none => exact .refl nofun
        | some r =>
            exact .of_upsert hupsert (fun d => ⟨rfl, rfl, rfl, if_neg hbegins⟩) (hplaced tenantID hnamed)

theorem claim_change (enrollments : KeyedTable Enrollment.key) (clock : Clock) (fresh : UUID)
    (deviceID pubkeyHex : String) (tenantID : Slug) (ownerUserID : UUID) :
    RowsChange cfg devices (claim cfg devices enrollments clock fresh deviceID pubkeyHex tenantID ownerUserID).1
      (claim cfg devices enrollments clock fresh deviceID pubkeyHex tenantID ownerUserID).2 := by
  unfold claim
  split_ifs with hvalid
  · exact .refused
  · dsimp only
    split
    · exact .refused
    · next db id hclaim =>
        have hclaimed := Enroll.claimInto_ok hclaim
        obtain ⟨row, hrow, ⟨hretry, rfl, -⟩ | ⟨hallowed, hupsert⟩⟩ := hclaimed
        · have hreplayed : (enrollments.find (deviceID, pubkeyHex)).any
              (fun e => claimRetryAllowed e.claimedAt e.claimedByTenant tenantID) = true := by
            rw [show enrollments.find (deviceID, pubkeyHex) = some row from hrow]
            exact hretry
          simp only [hreplayed, if_true]
          exact .refl fun _ _ h => by cases h
        · have hreplayed : (enrollments.find (deviceID, pubkeyHex)).any
              (fun e => claimRetryAllowed e.claimedAt e.claimedByTenant tenantID) = false := by
            rw [show enrollments.find (deviceID, pubkeyHex) = some row from hrow]
            simp [claimRetryAllowed, (claimAllowed_iff.mp hallowed).2]
          simp only [hreplayed, Bool.false_eq_true, if_false]
          exact .of_upsert hupsert (fun d => ⟨rfl, rfl, rfl, rfl⟩) (placed_of_claim (by simpa using hvalid))

theorem step_change (hok : LegacyApart cfg log devices a) (hstep : step cfg devices a = some (devices', e)) :
    RowsChange cfg devices devices' e := by
  cases a with
  | message m l fresh =>
      simp only [step] at hstep
      split_ifs at hstep with hplain
      split at hstep
      · cases hstep
        exact .refl nofun
      · next tenant device pre hupsert =>
          obtain ⟨rfl, rfl⟩ := Prod.mk.inj (Option.some.inj hstep)
          obtain ⟨p, hparse, htenant, rfl, rfl⟩ := messageUpsert_parse hupsert
          exact storeMessage_change fun t ht =>
            placed_of_parse hplain hparse (htenant.trans ht.symm) (hok _ hupsert)
  | claim enrollments clock fresh deviceID pubkeyHex tenantID ownerUserID =>
      obtain ⟨rfl, rfl⟩ := Prod.mk.inj (Option.some.inj hstep)
      exact claim_change ..
  | reassign id targetTenant =>
      simp only [step] at hstep
      split at hstep
      · cases hstep
        exact .refl nofun
      · next hreassign =>
          cases hstep
          refine .kept nofun fun d' hd' => ?_
          obtain ⟨d, hd, rfl | ⟨rfl, rfl⟩⟩ := reassign_rows hreassign d' hd'
          · exact ⟨d', hd, rfl, rfl, rfl, .inl rfl⟩
          · exact ⟨d, hd, rfl, rfl, rfl, .inr rfl⟩
  | pair id =>
      simp only [step] at hstep
      split at hstep
      · cases hstep
        exact .refl nofun
      · split at hstep
        · cases hstep
          exact .refl nofun
        · next hreserve =>
            cases hstep
            refine .kept nofun fun d' hd' => ?_
            obtain ⟨d, hd, rfl | ⟨_, _, rfl⟩⟩ := reserveBrokerIdentity_rows hreserve d' hd'
            · exact ⟨d', hd, rfl, rfl, rfl, .inl rfl⟩
            · exact ⟨d, hd, rfl, rfl, rfl, .inl rfl⟩

/-- A step keeps every row at a home. -/
theorem RowsChange.hasHome (h : RowsChange cfg devices devices' e) (hhome : ∀ d ∈ devices, HasHome cfg log d) :
    ∀ d' ∈ devices', HasHome cfg (log ++ [e]) d' := by
  intro d' hd'
  cases h with
  | kept hevent hrows =>
      obtain ⟨d, hd, hid, hdevice, hbegins, htenant⟩ := hrows d' hd'
      obtain ⟨tenantID, since, topicPrefix, hstored, hmoved, hown, hplaced⟩ := hhome d hd
      refine ⟨tenantID, since ++ [e], topicPrefix, hid ▸ hstored.append (hevent d.id), ?_, hbegins.trans hown,
        hdevice ▸ hplaced⟩
      intro hsince
      rw [hid, List.mem_append, List.mem_singleton, not_or] at hsince
      rw [htenant.resolve_right fun he => hsince.2 he.symm]
      exact hmoved hsince.1
  | stored id tenantID deviceID topicPrefix hevent hplaced hrows =>
      rcases hrows d' hd' with ⟨rfl, rfl, rfl, hbegins⟩ | ⟨hd, hne⟩
      · rw [hevent]
        exact ⟨d'.tenantID, [], topicPrefix, storedIn_last log d'.id d'.tenantID, fun _ => rfl, hbegins, hplaced⟩
      · obtain ⟨t, since, pre, hstored, hmoved, hown, hplaced⟩ := hhome d' hd
        have hother : ∀ t, e ≠ .stored d'.id t := by
          rintro t rfl
          exact hne (Event.stored.inj hevent).1
        refine ⟨t, since ++ [e], pre, hstored.append hother, fun hsince => hmoved fun hmem => ?_, hown, hplaced⟩
        exact hsince (List.mem_append_left _ hmem)

/-- In every run whose legacy messages are of device ids that are no tenant's slug, the ACLs of a row let its
device publish only as itself in the tenant the row was in when its prefix was last written, which is the
row's own tenant unless it was reassigned since. -/
theorem rights_stay_home (hrun : (system cfg).RunIf (LegacyApart cfg) ∅ log devices) :
    ∀ d ∈ devices, ∃ tenantID since, StoredIn log d.id tenantID since ∧
      (.reassigned d.id ∉ since → d.tenantID = tenantID) ∧ RightsIn cfg d tenantID := by
  have hhome : ∀ d ∈ devices, HasHome cfg log d := by
    refine Machine.RunIf.invariant (fun log devices => ∀ d ∈ devices, HasHome cfg log d) ?_ ?_ hrun
    · intro d hd
      exact absurd hd List.not_mem_nil
    · exact fun log devices a devices' e hhome hok hstep => (step_change hok hstep).hasHome hhome
  intro d hd
  obtain ⟨tenantID, since, topicPrefix, hstored, hmoved, hown, hplaced⟩ := hhome d hd
  exact ⟨tenantID, since, hstored, hmoved, rightsIn_of_placed hown hplaced⟩

/-- Two tenants beside the default one, and a decoder that takes every payload for an object. -/
def pumpConfig : Config where
  root := ⟨"thesada", by decide, by decide⟩
  tenants := [defaultTenant, acme, beta]
  enroll := ⟨⟨fun _ => "", fun _ _ => "", fun _ _ _ => false⟩, "", 0, true⟩
  isPresence _ := false
  isObject _ := true

/-- An info message of an unpaired device on a topic. -/
def published (topic : String) (fresh : UUID) : Action :=
  .message ⟨topic, [], false⟩ ⟨fun _ => true, fun _ => some [], fun _ _ => some false⟩ fresh

/-- The row of a device that published on a topic of acme and was reassigned to beta. -/
def movedPump : Device := ⟨1, beta, "pump", none, some "thesada/acme/pump", none, []⟩

theorem moved_runs : ((system pumpConfig).execIf (fun _ _ _ => True) [] ∅
    [published "thesada/acme/pump/info" 1, .reassign 1 beta, .pair 1]).any
      (fun r => r.2.rows.contains { movedPump with brokerTenantID := some beta }) = true := by
  decide +kernel

/-- Paired in beta, the device may still publish as a device of acme. -/
theorem moved_not_rightsIn : ∃ log devices, (system pumpConfig).Run ∅ log devices ∧
    ∃ d ∈ devices, ¬ RightsIn pumpConfig d d.tenantID := by
  obtain ⟨log, devices, hrun, htest⟩ := Machine.exists_runIf_of_any moved_runs
  refine ⟨log, devices, hrun, _, List.contains_iff_mem.mp htest, fun hrights => ?_⟩
  have hread := hrights false ⟨.publishClientSend, "thesada/acme/pump/#", true⟩ (by decide) (by decide)
    "thesada/acme/pump/info" ⟨"acme", "pump", .info, "", "thesada/acme/pump"⟩ (by decide) (by decide)
  exact absurd hread (by decide)

/-- A legacy device, and one that publishes under its new tenant after a reassign. -/
theorem republished_runs : ((system pumpConfig).execIf (LegacyApart pumpConfig) [] ∅
    [published "thesada/boiler/info" 1, published "thesada/acme/pump/info" 2, .reassign 2 beta,
      published "thesada/beta/pump/status" 3, .pair 2]).any
      (fun r => r.1.contains (.stored 2 beta) && r.2.rows.contains
        { movedPump with id := 2, mqttTopicPrefix := some "thesada/beta/pump", brokerTenantID := some beta }) = true := by
  decide +kernel

theorem republished_rightsIn : ∃ log devices, (system pumpConfig).Run ∅ log devices ∧ ∃ d ∈ devices,
    d.tenantID = beta ∧ ∃ tenantID since, StoredIn log d.id tenantID since ∧
      (.reassigned d.id ∉ since → d.tenantID = tenantID) ∧ RightsIn pumpConfig d tenantID := by
  obtain ⟨log, devices, hrun, htest⟩ := Machine.exists_runIf_of_any republished_runs
  obtain ⟨-, hrow⟩ := Bool.and_eq_true_iff.mp htest
  have hmem := List.contains_iff_mem.mp hrow
  exact ⟨log, devices, hrun.run, _, hmem, rfl, rights_stay_home hrun _ hmem⟩

end ThesadaApp.Rights
