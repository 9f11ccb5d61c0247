import ThesadaApp.BrokerProvision
import ThesadaApp.CertStore
import ThesadaApp.RetainedManifest

/-!
The deletion of a device: what is sent to it, revoked, torn down at the broker and deleted, in that order. Each step may
fail; some failures end the cascade and others are only logged.
-/

namespace ThesadaApp.Cascade

open Broker (Dynsec Reply dynsecTeardownAttempts)

/-- The device as the caller has read it. -/
structure Target where
  id : UUID
  tenantID : Slug
  deviceID : String
  pairedAt : Option Time
  mqttTopicPrefix : Option String
  deriving DecidableEq

/-- The topic prefix, if there is one. -/
def Target.topicPrefix (device : Target) : Option String := device.mqttTopicPrefix.filter fun p => p ≠ ""

/-- A row of `deleted_device_tombstones`. -/
structure Tombstone where
  tenantID : Slug
  deviceID : String
  topicPrefix : String
  deriving DecidableEq

def Tombstone.key (t : Tombstone) : Slug × String := (t.tenantID, t.deviceID)

/-- The tables, the broker and the manifests of the client. -/
structure World where
  certs : Certs.Store
  enrollments : KeyedTable Enrollment.key
  tenants : List Slug
  tombstones : KeyedTable Tombstone.key
  dynsec : Dynsec
  manifests : KeyedTable (Prod.fst : Retained.Manifest → String)

/-- The tables as the enrollment service reads them. -/
def World.enrollDb (w : World) : Db :=
  ⟨w.enrollments, w.certs.devices, w.certs.certs.rows.map fun c => ⟨c.devicePk, c.pubkeyHex, c.revoked⟩, w.tenants⟩

/-- What the order of the cascade is about: its publishes, and its calls that came back without an error. -/
inductive Effect where
  /-- A call of `PublishRaw` with a CLI command, and whether it returned without an error. -/
  | command (topic payload : String) (published : Bool)
  | revoked
  | tornDown
  | emptied (topic : String) (published : Bool)
  | forgotten
  | deleted
  | enrollmentReset
  | tombstoned
  deriving DecidableEq

/-- One of these, with the world before it and after it. -/
structure Done where
  before : World
  effect : Effect
  after : World

/-- How each step ends. -/
structure Steps where
  published : String → Bool
  revokeFails : Bool
  identityLookupFails : Bool
  /-- The replies to the tries to delete the client and the role of an identity. -/
  deleteClient : Slug → Nat → Reply
  deleteRole : Slug → Nat → Reply
  forgetFails : Slug → Bool
  /-- The publish on a retained topic; `none` is a context that has ended. -/
  empty : String → Option Bool
  cancelled : Bool
  nearDeadline : Bool
  deleteFails : Bool
  resetFails : Bool
  tombstoneFails : Bool
  revokedAt : Time

inductive Verdict where
  | ok
  | okSealed
  | refused
  | failed
  | stopped
  deriving DecidableEq

structure Outcome where
  world : World
  done : List Done
  verdict : Verdict
  /-- False when the broker client may still be live. -/
  brokerClean : Bool

def destructiveAllowed (paired usable override : Bool) : Bool := !paired || usable || override

/-- `CLICommandTopic`. -/
def cliCommandTopic (topicPrefix command : String) : String := topicPrefix ++ "/cli/" ++ command

def mqttPortPassword : Nat := 8883

/-- `pub`: an empty payload is sent as an empty object. -/
def pub (f : Steps) (topicPrefix cmd payload : String) : Effect :=
  .command (cliCommandTopic topicPrefix cmd) (if payload = "" then "{}" else payload) (f.published cmd)

/-- Each command is a precondition for the next. -/
def preemptiveCertClear (f : Steps) (device : Target) (usable : Bool) : List Effect :=
  match device.topicPrefix with
  | none => []
  | some p =>
      if usable = false then []
      else
        pub f p "config.set" ("mqtt.port " ++ toString mqttPortPassword) ::
          if f.published "config.set" = false then []
          else pub f p "cert.clear" "" :: if f.published "cert.clear" = false then [] else [pub f p "restart" ""]

/-- `Certificates.Revoke`; `none` is an error. -/
def World.revoke (w : World) (f : Steps) (device : Target) : Option World :=
  if f.revokeFails then none
  else
    match Certs.revoke w.certs device.tenantID device.id f.revokedAt with
    | .error _ => none
    | .ok certs => some { w with certs }

/-- The tries that are left. It is gone when the broker answers, also that it does not know it. -/
def retryDynsecDelete (run : Dynsec → Dynsec) : List Reply → Dynsec → Dynsec × Bool
  | [], b => (b, false)
  | reply :: replies, b =>
      let b' := if reply.ran then run b else b
      match reply with
      | .answered => (b', true)
      | .failed _ => retryDynsecDelete run replies b'
      | .ctxEnded => (b', false)

def attempts (replies : Nat → Reply) : List Reply := (List.range dynsecTeardownAttempts).map replies

def deleteDynsecIdentity (f : Steps) (deviceID : String) (identity : Slug) (b : Dynsec) : Dynsec × Bool :=
  let client := retryDynsecDelete (·.deleteClient (deviceCertCN identity.val deviceID)) (attempts (f.deleteClient identity)) b
  let role := retryDynsecDelete (·.deleteRole (dynsecDeviceRoleName identity.val deviceID))
    (attempts (f.deleteRole identity)) client.1
  (role.1, client.2)

/-- `ForgetBrokerIdentity`, whose error is only logged. -/
def World.forget (w : World) (f : Steps) (device : Target) (identity : Slug) : World :=
  if f.forgetFails identity then w
  else
    match forgetBrokerIdentity w.certs.devices device.tenantID device.id identity with
    | .error _ => w
    | .ok devices => { w with certs := { w.certs with devices } }

def deleteStaleIdentities (f : Steps) (device : Target) : List Slug → World → World × Bool
  | [], w => (w, true)
  | identity :: rest, w =>
      let deleted := deleteDynsecIdentity f device.deviceID identity w.dynsec
      let w' := { w with dynsec := deleted.1 }
      if deleted.2 then deleteStaleIdentities f device rest (w'.forget f device identity)
      else ((deleteStaleIdentities f device rest w').1, false)

def teardownDeviceDynsec (f : Steps) (device : Target) (w : World) : World × Bool :=
  if f.identityLookupFails then (w, false)
  else
    match brokerIdentityOf w.certs.devices device.id device.tenantID with
    | .error _ => (w, false)
    | .ok id => deleteStaleIdentities f device id.tenants w

/-- The topics of a manifest in turn, and whether the loop came to its end. -/
def emptyTopics (f : Steps) : List String → List Effect × Bool
  | [] => ([], true)
  | t :: topics =>
      match f.empty t with
      | none => ([], false)
      | some published => (.emptied t published :: (emptyTopics f topics).1, (emptyTopics f topics).2)

/-- What is published while the tables stay as they are. -/
def World.publishes (w : World) (effects : List Effect) : List Done := effects.map fun e => ⟨w, e, w⟩

def clearDeviceRetained (f : Steps) (device : Target) (w : World) : World × List Done :=
  match device.topicPrefix.bind w.manifests.find with
  | none => (w, [])
  | some (p, topics) =>
      let emptied := emptyTopics f topics
      if emptied.2 then
        let w' := { w with manifests := w.manifests.deleteWhere fun e => e.1 = p }
        (w', w.publishes emptied.1 ++ [⟨w, .forgotten, w'⟩])
      else (w, w.publishes emptied.1)

/-- `DeleteByID`; `none` is an error. A row that is not in the tenant is no error, and stays. -/
def World.deleteByID (w : World) (f : Steps) (device : Target) : Option World :=
  if f.deleteFails then none
  else
    match Certs.deleteByID w.certs device.tenantID device.id with
    | .error _ => none
    | .ok (certs, _) => some { w with certs }

def resetDeviceEnrollment (cfg : EnrollConfig) (f : Steps) (device : Target) (w : World) : World × List Done :=
  if f.resetFails then (w, [])
  else
    let w' := { w with enrollments := (Enroll.reset cfg w.enrollDb device.deviceID device.tenantID).enrollments }
    (w', [⟨w, .enrollmentReset, w'⟩])

def World.tombstone (w : World) (f : Steps) (device : Target) : World × List Done :=
  if f.tombstoneFails then (w, [])
  else
    let topicPrefix := device.mqttTopicPrefix.getD ""
    let tombstones := w.tombstones.upsert ⟨device.tenantID, device.deviceID, topicPrefix⟩
      (fun t => { t with topicPrefix }) fun _ => rfl
    ({ w with tombstones }, [⟨w, .tombstoned, { w with tombstones }⟩])

def cascadeDeleteOne (cfg : EnrollConfig) (f : Steps) (device : Target) (usable override : Bool) (w : World) : Outcome :=
  if destructiveAllowed device.pairedAt.isSome usable override = false then ⟨w, [], .refused, true⟩
  else
    let commands := w.publishes (preemptiveCertClear f device usable)
    match w.revoke f device with
    | none => ⟨w, commands, .failed, true⟩
    | some revoked =>
        let torn := teardownDeviceDynsec f device revoked
        let cleared := clearDeviceRetained f device torn.1
        let done := commands ++ ⟨w, .revoked, revoked⟩ :: ⟨revoked, .tornDown, torn.1⟩ :: cleared.2
        if f.cancelled && f.nearDeadline then ⟨cleared.1, done, .stopped, torn.2⟩
        else
          match cleared.1.deleteByID f device with
          | none => ⟨cleared.1, done, .failed, torn.2⟩
          | some gone =>
              let reset := resetDeviceEnrollment cfg f device gone
              let tombstoned := reset.1.tombstone f device
              ⟨tombstoned.1, done ++ ⟨cleared.1, .deleted, gone⟩ :: (reset.2 ++ tombstoned.2),
                if f.resetFails then .okSealed else .ok, torn.2⟩

/-- The id and the tenant of every row of `devices`. -/
def World.homes (w : World) : List (UUID × Slug) := w.certs.devices.rows.map fun d => (d.id, d.tenantID)

/-- The device is in the tenant that it was read in. -/
def World.AtHome (w : World) (device : Target) : Prop := (device.id, device.tenantID) ∈ w.homes

/-- The row of the device is there before, and not after. -/
def Done.Deletes (x : Done) (device : Target) : Prop :=
  (∃ t, (device.id, t) ∈ x.before.homes) ∧ ∀ t, (device.id, t) ∉ x.after.homes

/-- Each thing is done in the world that the one before it has left. -/
def Chain : World → List Done → World → Prop
  | w, [], w' => w' = w
  | w, x :: done, w' => x.before = w ∧ Chain x.after done w'

/-- The enrollment is reset and the tombstone written only after the row of the device has been deleted. -/
def ResetAfterDeletion (device : Target) (o : Outcome) : Prop :=
  ∀ pre x post, o.done = pre ++ x :: post → x.effect = .enrollmentReset ∨ x.effect = .tombstoned →
    ∃ y ∈ pre, y.Deletes device

/-- What holds of the deletion of a device in a world. -/
structure Ordered (device : Target) (usable override : Bool) (w : World) (o : Outcome) : Prop where
  refused : destructiveAllowed device.pairedAt.isSome usable override = false → o = ⟨w, [], .refused, true⟩
  chain : Chain w o.done o.world
  /-- Each table is changed only by what is to change it, and no row but that of the device goes away or moves. -/
  kept : ∀ x ∈ o.done, (x.effect ≠ .deleted → x.after.homes = x.before.homes) ∧
    (x.effect ≠ .enrollmentReset → x.after.enrollments = x.before.enrollments) ∧
    (x.effect ≠ .tombstoned → x.after.tombstones = x.before.tombstones) ∧
    ∀ h : UUID × Slug, h.1 ≠ device.id → (h ∈ x.after.homes ↔ h ∈ x.before.homes)
  /-- A row is deleted once the revoke has committed, with every certificate of it revoked. -/
  revokedFirst : ∀ pre x post, o.done = pre ++ x :: post → x.Deletes device →
    (∃ y ∈ pre, y.effect = .revoked) ∧ ∀ c ∈ x.before.certs.certs, c.devicePk = device.id → c.revoked = true
  /-- At the reset and at the tombstone `DeleteByID` has come back, and has left no row of the device in its tenant. -/
  deletedFirst : ∀ pre x post, o.done = pre ++ x :: post → x.effect = .enrollmentReset ∨ x.effect = .tombstoned →
    (∃ y ∈ pre, y.effect = .deleted) ∧ ¬ x.before.AtHome device
  atHome : w.AtHome device → ResetAfterDeletion device o
  stopped : o.verdict = .refused ∨ o.verdict = .failed ∨ o.verdict = .stopped → o.world.homes = w.homes
  certClear : ∀ p pre x payload sent post, device.topicPrefix = some p → o.done = pre ++ x :: post →
    x.effect = .command (cliCommandTopic p "cert.clear") payload sent →
      usable = true ∧ ∃ y ∈ pre,
        y.effect = .command (cliCommandTopic p "config.set") ("mqtt.port " ++ toString mqttPortPassword) true

section lists

variable {α : Type} {l₁ l₂ pre post : List α} {x y : α}

/-- An entry of a list is before another one, is that one, or comes after it. -/
theorem split_cases (h : l₁ ++ y :: l₂ = pre ++ x :: post) :
    x ∈ l₁ ∨ x = y ∧ pre = l₁ ∨ x ∈ l₂ ∧ y ∈ pre ∧ ∀ z ∈ l₁, z ∈ pre := by
  rcases List.append_eq_append_iff.mp h with ⟨c, rfl, hc⟩ | ⟨c, rfl, hc⟩
  · cases c with
    | nil =>
        obtain ⟨rfl, -⟩ := List.cons.inj hc
        exact .inr (.inl ⟨rfl, by simp⟩)
    | cons z c =>
        obtain ⟨rfl, rfl⟩ := List.cons.inj hc
        exact .inr (.inr ⟨by simp, by simp, fun z hz => List.mem_append_left _ hz⟩)
  · cases c with
    | nil =>
        obtain ⟨rfl, -⟩ := List.cons.inj hc
        exact .inr (.inl ⟨rfl, by simp⟩)
    | cons z c =>
        obtain ⟨rfl, -⟩ := List.cons.inj hc
        exact .inl (by simp)

end lists

section steps

variable {cfg : EnrollConfig} {f : Steps} {device : Target} {usable override : Bool} {w w' : World} {x : Effect}

/-- The sequence ends where a publish fails. -/
theorem preemptiveCertClear_cases (f : Steps) (device : Target) (usable : Bool) :
    preemptiveCertClear f device usable = [] ∨
    ∃ p rest, device.topicPrefix = some p ∧ usable = true ∧
      preemptiveCertClear f device usable = pub f p "config.set" ("mqtt.port " ++ toString mqttPortPassword) :: rest ∧
      (f.published "config.set" = false → rest = []) ∧ ∀ x ∈ rest, ∃ cmd, x = pub f p cmd "" := by
  unfold preemptiveCertClear
  cases hp : device.topicPrefix with
  | none => exact .inl rfl
  | some p =>
      cases usable with
      | false => exact .inl rfl
      | true =>
          refine .inr ⟨p, _, rfl, rfl, rfl, fun hfailed => if_pos hfailed, fun x hx => ?_⟩
          split at hx
          · cases hx
          · rcases List.mem_cons.mp hx with rfl | hx
            · exact ⟨_, rfl⟩
            · split at hx
              · cases hx
              · obtain rfl := List.mem_singleton.mp hx
                exact ⟨_, rfl⟩

theorem mem_preemptiveCertClear (h : x ∈ preemptiveCertClear f device usable) :
    ∃ topic payload published, x = .command topic payload published := by
  rcases preemptiveCertClear_cases f device usable with hnil | ⟨p, rest, -, -, heq, -, hrest⟩
  · rw [hnil] at h
    cases h
  · rw [heq] at h
    rcases List.mem_cons.mp h with rfl | hx
    · exact ⟨_, _, _, rfl⟩
    · obtain ⟨cmd, rfl⟩ := hrest x hx
      exact ⟨_, _, _, rfl⟩

theorem mem_emptyTopics {topics : List String} (h : x ∈ (emptyTopics f topics).1) :
    ∃ topic published, x = .emptied topic published := by
  induction topics with
  | nil => cases h
  | cons t topics ih =>
      unfold emptyTopics at h
      split at h
      · cases h
      · rcases List.mem_cons.mp h with rfl | hrest
        · exact ⟨_, _, rfl⟩
        · exact ih hrest

theorem cliCommandTopic_ne {p : String} {cmd cmd' : String} (h : cmd ≠ cmd') :
    cliCommandTopic p cmd ≠ cliCommandTopic p cmd' := by
  intro heq
  have hlists := congrArg String.toList heq
  simp only [cliCommandTopic, String.toList_append, List.append_cancel_left_eq] at hlists
  exact h (String.toList_injective hlists)

/-- cert.clear goes out after the port flip, and only over a usable path. -/
theorem certClear_after_flip {p payload : String} {published : Bool} {pre post tail : List Effect}
    (hp : device.topicPrefix = some p) (htail : ∀ t q b, .command t q b ∉ tail)
    (h : preemptiveCertClear f device usable ++ tail =
      pre ++ .command (cliCommandTopic p "cert.clear") payload published :: post) :
    usable = true ∧ .command (cliCommandTopic p "config.set") ("mqtt.port " ++ toString mqttPortPassword) true ∈ pre := by
  rcases preemptiveCertClear_cases f device usable with
    hnil | ⟨q, rest, hq, husable, heq, hfailed, -⟩
  · rw [hnil, List.nil_append] at h
    exact absurd (h ▸ List.mem_append_right pre List.mem_cons_self) (htail _ _ _)
  · obtain rfl : q = p := Option.some.inj (hq.symm.trans hp)
    rw [heq] at h
    have hne : Effect.command (cliCommandTopic q "cert.clear") payload published ≠
        pub f q "config.set" ("mqtt.port " ++ toString mqttPortPassword) := by
      intro hx
      injection hx with htopic
      exact cliCommandTopic_ne (by decide) htopic
    have hsplit : [] ++ pub f q "config.set" ("mqtt.port " ++ toString mqttPortPassword) :: (rest ++ tail) =
        pre ++ .command (cliCommandTopic q "cert.clear") payload published :: post := h
    have hflip : pub f q "config.set" ("mqtt.port " ++ toString mqttPortPassword) ∈ pre := by
      rcases split_cases hsplit with hnil | ⟨heq, -⟩ | ⟨-, hmem, -⟩
      · cases hnil
      · exact absurd heq hne
      · exact hmem
    cases hpublished : f.published "config.set" with
    | true =>
        rw [pub, hpublished, if_neg (by decide)] at hflip
        exact ⟨husable, hflip⟩
    | false =>
        rw [hfailed hpublished] at h
        cases pre with
        | nil => cases hflip
        | cons y pre =>
            obtain ⟨-, hrest⟩ := List.cons.inj h
            have hmem : Effect.command (cliCommandTopic q "cert.clear") payload published ∈ tail := by
              have hrest : tail = pre ++ .command (cliCommandTopic q "cert.clear") payload published :: post := hrest
              simp [hrest]
            exact absurd hmem (htail _ _ _)

/-- What the steps before the deletion leave alone. -/
structure Keeps (w w' : World) : Prop where
  homes : w'.homes = w.homes
  enrollments : w'.enrollments = w.enrollments
  tombstones : w'.tombstones = w.tombstones

theorem Keeps.refl (w : World) : Keeps w w := ⟨rfl, rfl, rfl⟩

theorem Keeps.trans {w'' : World} (h : Keeps w w') (h' : Keeps w' w'') : Keeps w w'' :=
  ⟨h'.homes.trans h.homes, h'.enrollments.trans h.enrollments, h'.tombstones.trans h.tombstones⟩

theorem mem_homes {h : UUID × Slug} : h ∈ w.homes ↔ ∃ d ∈ w.certs.devices, d.id = h.1 ∧ d.tenantID = h.2 := by
  simp [World.homes, DeviceTable.mem_rows, Prod.ext_iff]

theorem visible_of_atHome (h : w.AtHome device) : w.certs.visible device.tenantID device.id = true := by
  obtain ⟨d, hd, hid, htenant⟩ := mem_homes.mp h
  rw [Certs.Store.visible, DeviceTable.get_eq_some.mpr ⟨hd, hid⟩]
  simp [htenant]

/-- Every certificate of the device is revoked. -/
def AllRevoked (device : Target) (w : World) : Prop := ∀ c ∈ w.certs.certs, c.devicePk = device.id → c.revoked = true

/-- A revoke that commits has revoked every certificate of a device that is in the tenant. -/
theorem revoke_spec (h : w.revoke f device = some w') :
    Keeps w w' ∧ (w.AtHome device → AllRevoked device w') := by
  unfold World.revoke at h
  split at h
  · cases h
  split at h
  · cases h
  next certs hrevoke =>
    obtain rfl := Option.some.inj h
    unfold Certs.revoke at hrevoke
    split at hrevoke
    · obtain ⟨s, hset, rfl⟩ := map_eq_ok hrevoke
      unfold Certs.setCerts at hset
      split at hset
      · cases hset
      next table hcommit =>
        obtain rfl := Except.ok.inj hset
        refine ⟨⟨rfl, rfl, rfl⟩, fun _ c hc hdevice => ?_⟩
        have hc' : c ∈ table.rows := hc
        rw [Certs.CertTable.commit_eq_some hcommit, List.mem_map] at hc'
        obtain ⟨old, -, rfl⟩ := hc'
        unfold Certs.revokeRow at hdevice ⊢
        split at hdevice
        · next hrow => rw [if_pos hrow]
        · next hrow =>
            rw [if_neg hrow]
            by_contra hunrevoked
            exact hrow ⟨hdevice, Bool.eq_false_iff.mpr hunrevoked⟩
    · next hhidden =>
        obtain rfl := Except.ok.inj hrevoke
        exact ⟨.refl w, fun hhome => absurd (visible_of_atHome hhome) hhidden⟩

/-- What the broker's part of the cascade leaves alone. -/
def KeepsCerts (w w' : World) : Prop := Keeps w w' ∧ w'.certs.certs = w.certs.certs

theorem KeepsCerts.refl (w : World) : KeepsCerts w w := ⟨.refl w, rfl⟩

theorem KeepsCerts.trans {w'' : World} (h : KeepsCerts w w') (h' : KeepsCerts w' w'') : KeepsCerts w w'' :=
  ⟨h.1.trans h'.1, h'.2.trans h.2⟩

theorem forget_keeps {identity : Slug} : KeepsCerts w (w.forget f device identity) := by
  unfold World.forget
  split
  · exact .refl w
  split
  · exact .refl w
  · next devices hforget =>
      refine ⟨⟨?_, rfl, rfl⟩, rfl⟩
      have hrows := DeviceTable.commit_eq_some (forgetBrokerIdentity_spec hforget)
      show devices.rows.map _ = _
      rw [hrows, List.map_map]
      refine List.map_congr_left fun d _ => ?_
      dsimp only [Function.comp_apply]
      split <;> rfl

theorem deleteStaleIdentities_keeps {identities : List Slug} :
    KeepsCerts w (deleteStaleIdentities f device identities w).1 := by
  induction identities generalizing w with
  | nil => exact .refl w
  | cons identity rest ih =>
      unfold deleteStaleIdentities
      have hdynsec (b : Dynsec) : KeepsCerts w { w with dynsec := b } := ⟨⟨rfl, rfl, rfl⟩, rfl⟩
      dsimp only
      split
      · exact ((hdynsec _).trans forget_keeps).trans ih
      · exact (hdynsec _).trans ih

theorem teardownDeviceDynsec_keeps (f : Steps) (device : Target) (w : World) :
    KeepsCerts w (teardownDeviceDynsec f device w).1 := by
  unfold teardownDeviceDynsec
  split
  · exact .refl w
  split
  · exact .refl w
  · exact deleteStaleIdentities_keeps

section chains

variable {done done' : List Done} {w'' : World} {x : Done}

theorem Chain.append (h : Chain w done w') (h' : Chain w' done' w'') : Chain w (done ++ done') w'' := by
  induction done generalizing w with
  | nil =>
      obtain rfl := h
      exact h'
  | cons x done ih => exact ⟨h.1, ih h.2⟩

theorem chain_publishes (effects : List Effect) : Chain w (w.publishes effects) w := by
  induction effects with
  | nil => rfl
  | cons e effects ih => exact ⟨rfl, ih⟩

theorem mem_publishes {effects : List Effect} (h : x ∈ w.publishes effects) :
    x.effect ∈ effects ∧ KeepsCerts x.before x.after := by
  obtain ⟨e, he, rfl⟩ := List.mem_map.mp h
  exact ⟨he, .refl w⟩

end chains

/-- One thing that is done before the deletion. -/
def Quiet (x : Done) : Prop :=
  Keeps x.before x.after ∧ x.effect ≠ .deleted ∧ x.effect ≠ .enrollmentReset ∧ x.effect ≠ .tombstoned

theorem clearDeviceRetained_spec (f : Steps) (device : Target) (w : World) :
    KeepsCerts w (clearDeviceRetained f device w).1 ∧
      Chain w (clearDeviceRetained f device w).2 (clearDeviceRetained f device w).1 ∧
      ∀ x ∈ (clearDeviceRetained f device w).2, Quiet x ∧ ∀ t q b, x.effect ≠ .command t q b := by
  have hemptied : ∀ {topics : List String}, ∀ x ∈ w.publishes (emptyTopics f topics).1,
      Quiet x ∧ ∀ t q b, x.effect ≠ .command t q b := by
    intro topics x hx
    obtain ⟨heffect, hkeeps⟩ := mem_publishes hx
    obtain ⟨topic, sent, heq⟩ := mem_emptyTopics heffect
    simp [Quiet, heq, hkeeps.1]
  unfold clearDeviceRetained
  split
  · exact ⟨.refl w, rfl, by simp⟩
  dsimp only
  split
  · refine ⟨⟨⟨rfl, rfl, rfl⟩, rfl⟩, (chain_publishes _).append ⟨rfl, rfl⟩, fun x hx => ?_⟩
    rcases List.mem_append.mp hx with hx | hx
    · exact hemptied x hx
    · obtain rfl := List.mem_singleton.mp hx
      exact ⟨⟨⟨rfl, rfl, rfl⟩, by simp, by simp, by simp⟩, by simp⟩
  · exact ⟨.refl w, chain_publishes _, hemptied⟩

/-- No row of the device is left in the tenant, and the other rows are as they were. -/
theorem deleteByID_spec (h : w.deleteByID f device = some w') :
    ¬ w'.AtHome device ∧ (w.AtHome device → ∀ t, (device.id, t) ∉ w'.homes) ∧ (¬ w.AtHome device → w' = w) ∧
      (∀ x : UUID × Slug, x.1 ≠ device.id → (x ∈ w'.homes ↔ x ∈ w.homes)) ∧
      w'.enrollments = w.enrollments ∧ w'.tombstones = w.tombstones := by
  unfold World.deleteByID at h
  split at h
  · cases h
  split at h
  · cases h
  next certs visible hdelete =>
    obtain rfl := Option.some.inj h
    unfold Certs.deleteByID at hdelete
    split at hdelete
    · next hnone =>
        obtain ⟨rfl, -⟩ := Prod.mk.inj (Except.ok.inj hdelete)
        have haway : ¬ w.AtHome device := by
          intro hhome
          obtain ⟨d, hd, hid, -⟩ := mem_homes.mp hhome
          rw [DeviceTable.get_eq_some.mpr ⟨hd, hid⟩] at hnone
          cases hnone
        exact ⟨haway, fun hhome => absurd hhome haway, fun _ => rfl, fun x _ => Iff.rfl, rfl, rfl⟩
    next d hd =>
    obtain ⟨hmem, hid⟩ := DeviceTable.get_eq_some.mp hd
    split at hdelete
    · next hother =>
        obtain ⟨rfl, -⟩ := Prod.mk.inj (Except.ok.inj hdelete)
        have haway : ¬ w.AtHome device := by
          intro hhome
          obtain ⟨d', hd', hid', htenant⟩ := mem_homes.mp hhome
          rw [DeviceTable.eq_of_id hmem hd' (hid.trans hid'.symm)] at hother
          exact hother htenant
        exact ⟨haway, fun hhome => absurd hhome haway, fun _ => rfl, fun x _ => Iff.rfl, rfl, rfl⟩
    next hhome =>
    split at hdelete
    · cases hdelete
    · obtain ⟨rfl, -⟩ := Prod.mk.inj (Except.ok.inj hdelete)
      have hgone : ∀ d' ∈ w.certs.devices.delete device.id, d'.id ≠ device.id := fun d' hd' =>
        (DeviceTable.mem_delete.mp hd').2
      refine ⟨fun hleft => ?_, fun _ t hleft => ?_, fun haway => absurd ?_ haway, fun x hx => ?_, rfl, rfl⟩
      · obtain ⟨d', hd', hid', -⟩ := mem_homes.mp hleft
        exact hgone d' hd' hid'
      · obtain ⟨d', hd', hid', -⟩ := mem_homes.mp hleft
        exact hgone d' hd' hid'
      · exact mem_homes.mpr ⟨d, hmem, hid, not_not.mp hhome⟩
      · rw [mem_homes, mem_homes]
        refine exists_congr fun d' => and_congr_left fun h => ?_
        show d' ∈ w.certs.devices.delete device.id ↔ _
        rw [DeviceTable.mem_delete, h.1]
        exact and_iff_left hx

/-- One thing that is done after the deletion leaves the certificates, and writes one of the two tables. -/
def Closing (w : World) (x : Done) : Prop :=
  x.before.certs = w.certs ∧ x.after.certs = w.certs ∧
    (x.effect = .enrollmentReset ∧ x.after.tombstones = x.before.tombstones ∨
      x.effect = .tombstoned ∧ x.after.enrollments = x.before.enrollments)

theorem resetDeviceEnrollment_spec (cfg : EnrollConfig) (f : Steps) (device : Target) (w : World) :
    (resetDeviceEnrollment cfg f device w).1.certs = w.certs ∧
      Chain w (resetDeviceEnrollment cfg f device w).2 (resetDeviceEnrollment cfg f device w).1 ∧
      ∀ x ∈ (resetDeviceEnrollment cfg f device w).2, Closing w x := by
  unfold resetDeviceEnrollment
  split
  · exact ⟨rfl, rfl, by simp⟩
  · refine ⟨rfl, ⟨rfl, rfl⟩, fun x hx => ?_⟩
    obtain rfl := List.mem_singleton.mp hx
    exact ⟨rfl, rfl, .inl ⟨rfl, rfl⟩⟩

theorem tombstone_spec (f : Steps) (device : Target) (w : World) :
    Chain w (w.tombstone f device).2 (w.tombstone f device).1 ∧ ∀ x ∈ (w.tombstone f device).2, Closing w x := by
  unfold World.tombstone
  split
  · exact ⟨rfl, by simp⟩
  · refine ⟨⟨rfl, rfl⟩, fun x hx => ?_⟩
    obtain rfl := List.mem_singleton.mp hx
    exact ⟨rfl, rfl, .inr ⟨rfl, rfl⟩⟩

theorem Quiet.kept {x : Done} (h : Quiet x) : (x.effect ≠ .deleted → x.after.homes = x.before.homes) ∧
    (x.effect ≠ .enrollmentReset → x.after.enrollments = x.before.enrollments) ∧
    (x.effect ≠ .tombstoned → x.after.tombstones = x.before.tombstones) ∧
    ∀ h : UUID × Slug, h.1 ≠ device.id → (h ∈ x.after.homes ↔ h ∈ x.before.homes) :=
  ⟨fun _ => h.1.homes, fun _ => h.1.enrollments, fun _ => h.1.tombstones, fun y _ => by rw [h.1.homes]⟩

theorem Quiet.not_deletes {x : Done} (h : Quiet x) : ¬ x.Deletes device := by
  rintro ⟨⟨t, ht⟩, hgone⟩
  exact hgone t (h.1.homes ▸ ht)

/-- cert.clear in what is done. -/
theorem certClear_done {p payload : String} {sent : Bool} {pre post tail : List Done} {x : Done}
    (hp : device.topicPrefix = some p) (htail : ∀ y ∈ tail, ∀ t q b, y.effect ≠ .command t q b)
    (h : w.publishes (preemptiveCertClear f device usable) ++ tail = pre ++ x :: post)
    (hx : x.effect = .command (cliCommandTopic p "cert.clear") payload sent) :
    usable = true ∧ ∃ y ∈ pre,
      y.effect = .command (cliCommandTopic p "config.set") ("mqtt.port " ++ toString mqttPortPassword) true := by
  have heffects := congrArg (List.map Done.effect) h
  have hcommands : (w.publishes (preemptiveCertClear f device usable)).map Done.effect =
      preemptiveCertClear f device usable := by
    simp [World.publishes, Function.comp_def]
  rw [List.map_append, List.map_append, List.map_cons, hcommands, hx] at heffects
  obtain ⟨husable, hmem⟩ := certClear_after_flip hp (fun t q b hmem => by
    obtain ⟨y, hy, heq⟩ := List.mem_map.mp hmem
    exact htail y hy t q b heq) heffects
  exact ⟨husable, List.mem_map.mp hmem⟩

/-- The gate leaves everything as it was. -/
theorem ordered_of_refused : Ordered device usable override w ⟨w, [], .refused, true⟩ where
  refused _ := rfl
  chain := rfl
  kept x hx := absurd hx List.not_mem_nil
  revokedFirst pre x post hsplit := absurd hsplit (by simp)
  deletedFirst pre x post hsplit := absurd hsplit (by simp)
  atHome _ pre x post hsplit := absurd hsplit (by simp)
  stopped _ := rfl
  certClear p pre x payload sent post _ hsplit := absurd hsplit (by simp)

/-- A cascade that ends before the deletion is as it is to be. -/
theorem ordered_of_quiet {o : Outcome} {tail : List Done}
    (hallowed : destructiveAllowed device.pairedAt.isSome usable override = true) (hchain : Chain w o.done o.world)
    (hdone : o.done = w.publishes (preemptiveCertClear f device usable) ++ tail) (hquiet : ∀ x ∈ o.done, Quiet x)
    (htail : ∀ y ∈ tail, ∀ t q b, y.effect ≠ .command t q b) (hkeeps : Keeps w o.world) :
    Ordered device usable override w o where
  refused h := by
    rw [hallowed] at h
    cases h
  chain := hchain
  kept x hx := (hquiet x hx).kept
  revokedFirst pre x post h hdeletes := absurd hdeletes (hquiet x (by simp [h])).not_deletes
  deletedFirst pre x post h hx := by
    obtain ⟨-, -, hreset, htombstoned⟩ := hquiet x (by simp [h])
    exact absurd hx (not_or.mpr ⟨hreset, htombstoned⟩)
  atHome _ pre x post h hx := by
    obtain ⟨-, -, hreset, htombstoned⟩ := hquiet x (by simp [h])
    exact absurd hx (not_or.mpr ⟨hreset, htombstoned⟩)
  stopped _ := hkeeps.homes
  certClear p pre x payload sent post hp h hx := certClear_done hp htail (hdone.symm.trans h) hx

/-- A cascade that comes to the deletion is as it is to be. -/
theorem ordered_of_deleted {o : Outcome} {tail after : List Done} {w₁ w₂ : World}
    (hallowed : destructiveAllowed device.pairedAt.isSome usable override = true) (hchain : Chain w o.done o.world)
    (hdone : o.done = w.publishes (preemptiveCertClear f device usable) ++ tail ++ ⟨w₁, .deleted, w₂⟩ :: after)
    (hquiet : ∀ x ∈ w.publishes (preemptiveCertClear f device usable) ++ tail, Quiet x)
    (htail : ∀ y ∈ tail, ∀ t q b, y.effect ≠ .command t q b) (hrevoked : ∃ y ∈ tail, y.effect = .revoked)
    (hhomes : w₁.homes = w.homes) (hall : w.AtHome device → AllRevoked device w₁)
    (hdelete : w₁.deleteByID f device = some w₂) (hclosing : ∀ x ∈ after, Closing w₂ x)
    (hverdict : o.verdict = .ok ∨ o.verdict = .okSealed) : Ordered device usable override w o := by
  obtain ⟨haway, hgone, hunchanged, hothers, henrollments, htombstones⟩ := deleteByID_spec hdelete
  have hatHome : w₁.AtHome device ↔ w.AtHome device := by rw [World.AtHome, hhomes, World.AtHome]
  have hafter : ∀ {x : Done}, x ∈ after → x.before.homes = w₂.homes ∧ x.after.homes = w₂.homes := fun hx =>
    ⟨by rw [World.homes, (hclosing _ hx).1, World.homes], by rw [World.homes, (hclosing _ hx).2.1, World.homes]⟩
  -- what comes at the reset or the tombstone comes after the deletion
  have hlater : ∀ {pre x post}, o.done = pre ++ x :: post → x.effect = .enrollmentReset ∨ x.effect = .tombstoned →
      x ∈ after ∧ ⟨w₁, .deleted, w₂⟩ ∈ pre := by
    intro pre x post h hx
    rcases split_cases (hdone.symm.trans h) with hbefore | ⟨rfl, -⟩ | ⟨hmem, hdeleted, -⟩
    · obtain ⟨-, -, hreset, htombstoned⟩ := hquiet x hbefore
      exact absurd hx (not_or.mpr ⟨hreset, htombstoned⟩)
    · rcases hx with hx | hx <;> cases hx
    · exact ⟨hmem, hdeleted⟩
  refine ⟨fun h => ?_, hchain, fun x hx => ?_, fun pre x post h hdeletes => ?_, fun pre x post h hx => ?_,
    fun hhome pre x post h hx => ?_, fun h => ?_, fun p pre x payload sent post hp h hx => ?_⟩
  · rw [hallowed] at h
    cases h
  · rw [hdone] at hx
    rcases List.mem_append.mp hx with hx | hx
    · exact (hquiet x hx).kept
    · rcases List.mem_cons.mp hx with rfl | hx
      · exact ⟨fun h => absurd rfl h, fun _ => henrollments, fun _ => htombstones, hothers⟩
      · obtain ⟨hbefore, hsame⟩ := hafter hx
        have hequal : x.after.homes = x.before.homes := hsame.trans hbefore.symm
        obtain ⟨-, -, ⟨heffect, heq⟩ | ⟨heffect, heq⟩⟩ := hclosing x hx
        · exact ⟨fun _ => hequal, fun h => absurd heffect h, fun _ => heq, fun y _ => by rw [hequal]⟩
        · exact ⟨fun _ => hequal, fun _ => heq, fun h => absurd heffect h, fun y _ => by rw [hequal]⟩
  · rcases split_cases (hdone.symm.trans h) with hbefore | ⟨rfl, rfl⟩ | ⟨hmem, -, -⟩
    · exact absurd hdeletes (hquiet x hbefore).not_deletes
    · obtain ⟨y, hy, heffect⟩ := hrevoked
      refine ⟨⟨y, List.mem_append_right _ hy, heffect⟩, ?_⟩
      by_cases hhome : w₁.AtHome device
      · exact hall (hatHome.mp hhome)
      · obtain ⟨⟨t, ht⟩, hnone⟩ := hdeletes
        obtain rfl := hunchanged hhome
        exact absurd ht (hnone t)
    · obtain ⟨hbefore, hsame⟩ := hafter hmem
      obtain ⟨⟨t, ht⟩, hnone⟩ := hdeletes
      rw [hbefore] at ht
      exact absurd (hsame ▸ ht) (hnone t)
  · obtain ⟨hmem, hdeleted⟩ := hlater h hx
    refine ⟨⟨_, hdeleted, rfl⟩, ?_⟩
    rw [World.AtHome, (hafter hmem).1]
    exact haway
  · obtain ⟨-, hdeleted⟩ := hlater h hx
    have hhome₁ := hatHome.mpr hhome
    exact ⟨_, hdeleted, ⟨_, hhome₁⟩, hgone hhome₁⟩
  · rcases hverdict with hv | hv <;> simp [hv] at h
  · rw [hdone, List.append_assoc] at h
    refine certClear_done hp (fun y hy t q b heq => ?_) h hx
    rcases List.mem_append.mp hy with hy | hy
    · exact htail y hy t q b heq
    · rcases List.mem_cons.mp hy with rfl | hy
      · cases heq
      · obtain ⟨-, -, ⟨heffect, -⟩ | ⟨heffect, -⟩⟩ := hclosing y hy <;> simp [heffect] at heq

end steps

/-- Every step goes well, but for a second publish that fails. -/
def steps (publishes : Bool) : Steps where
  published cmd := cmd ≠ "cert.clear" || publishes
  revokeFails := false
  identityLookupFails := false
  deleteClient _ _ := .answered
  deleteRole _ _ := .answered
  forgetFails _ := false
  empty _ := some true
  cancelled := false
  nearDeadline := false
  deleteFails := false
  resetFails := false
  tombstoneFails := false
  revokedAt := 0

def plainConfig : EnrollConfig := ⟨⟨fun _ => "", fun _ _ => "", fun _ _ _ => false⟩, "", 0, true⟩

/-- A device that is read in the tenant acme. -/
def readDevice : Target := ⟨1, acme, "dev-1", none, some "thesada/acme/dev-1"⟩

/-- The broker knows nothing of the device, whose row is gone. -/
def bareWorld : World := ⟨Certs.init, ∅, [acme], ∅, ⟨∅, ∅⟩, ∅⟩

/-- The restart is not sent after a cert.clear that was not. -/
example : (cascadeDeleteOne plainConfig (steps false) readDevice true false bareWorld).done.map Done.effect =
    [.command "thesada/acme/dev-1/cli/config.set" "mqtt.port 8883" true,
      .command "thesada/acme/dev-1/cli/cert.clear" "{}" false, .revoked, .tornDown, .deleted, .enrollmentReset,
      .tombstoned] := by
  rfl

/-- Its row has moved to the tenant beta. -/
def movedWorld : World :=
  ⟨{ Certs.init with devices := ⟨[⟨1, beta, "dev-1", none, some "thesada/acme/dev-1", none, []⟩], by decide⟩ }, ∅,
    [acme, beta], ∅, ⟨∅, ∅⟩, ∅⟩

end ThesadaApp.Cascade
