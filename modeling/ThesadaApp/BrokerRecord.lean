import ThesadaApp.BrokerProvision

/-!
No broker client escapes its record. The rows and the broker, seen as a ledger of identities, keep to its
order at every step but one: a forget that takes an identity off its last record while the client is there
again, or about to be. A run without such a forget leaves every client where a teardown finds it.
-/

namespace ThesadaApp.Broker

variable {cfg : Config} {s s' : State} {a : Action} {e : Event} {log : List Event} {i : Nat} {r : Request}
  {reply : Reply} {t : Slug}

/-- The identities on record, those with a client on the broker, and those reserved by a provisioning that
has not made its client yet. -/
def ledger (cfg : Config) (s : State) : Ledger Slug where
  recorded := {t | Recorded s.devices cfg.deviceID t}
  live := {t | s.dynsec.hasClient (cfg.cn t) = true}
  pending := {t | ∃ r ∈ s.requests, r.tenantID = t ∧ r.phase.provisioning = true}

/-- Every row that records the identity is the one row the forget writes. -/
def LastRecord (cfg : Config) (s : State) (r : Request) (identity : Slug) : Prop :=
  ∀ d ∈ s.devices.rows, d.deviceID = cfg.deviceID → d.Records identity → d.id = r.devicePk ∧ d.tenantID = r.tenantID

instance (identity : Slug) : Decidable (LastRecord cfg s r identity) :=
  inferInstanceAs (Decidable (∀ d ∈ s.devices.rows, _ → _ → _))

/-- The identity has no client on the broker, and no provisioning of it stands between its reservation and
its client. -/
def Gone (cfg : Config) (s : State) (identity : Slug) : Prop :=
  s.dynsec.hasClient (cfg.cn identity) = false ∧
    ∀ r ∈ s.requests, r.tenantID = identity → r.phase.provisioning = false

instance (identity : Slug) : Decidable (Gone cfg s identity) :=
  inferInstanceAs (Decidable (_ ∧ _))

/-- What a step forgets: the request and the identity of a forget that takes effect. -/
def forgets (s : State) : Action → Option (Request × Slug)
  | .next i reply =>
      s.requests[i]?.bind fun r =>
        match r.phase with
        | .forget identity _ => if reply.ran then some (r, identity) else none
        | _ => none
  | _ => none

/-- A forget takes an identity off its last record only once it is gone. -/
def ForgetsGone (cfg : Config) (_log : List Event) (s : State) (a : Action) : Prop :=
  ∀ f ∈ forgets s a, LastRecord cfg s f.1 f.2 → Gone cfg s f.2

instance (log : List Event) : Decidable (ForgetsGone cfg log s a) :=
  inferInstanceAs (Decidable (∀ f ∈ forgets s a, _ → _))

/-- Every client of the device id is among the identities a teardown of some row of it deletes. -/
def NoneEscapes (cfg : Config) (s : State) : Prop :=
  ∀ t, s.dynsec.hasClient (cfg.cn t) = true → ∃ d ∈ s.devices, d.deviceID = cfg.deviceID ∧
    ∃ id, brokerIdentityOf s.devices d.id d.tenantID = .ok id ∧ t ∈ id.tenants

theorem cn_injective (cfg : Config) : Function.Injective cfg.cn := by
  intro t t' h
  have hchars := congrArg String.toList h
  simp only [Config.cn, deviceCertCN, String.toList_append, List.append_assoc] at hchars
  have htail := List.append_cancel_left hchars
  exact Slug.ext (String.toList_inj.mp (List.append_cancel_right htail))

/-- What the next call of request `i` does: the request goes on under its tenant, never back before its
client; the rows change only by its forget, and the only client it makes is its own. -/
structure RequestSpec (cfg : Config) (s s' : State) (i : Nat) (r : Request) (reply : Reply) : Prop where
  requests : ∃ r', s'.requests = s.requests.set i r' ∧ r'.tenantID = r.tenantID ∧
    (r'.phase.provisioning = true → r.phase.provisioning = true)
  devices : s'.devices = s.devices ∨ ∃ identity todo, r.phase = .forget identity todo ∧ reply.ran = true ∧
    forgetBrokerIdentity s.devices r.tenantID r.devicePk identity = .ok s'.devices
  clients : ∀ n, s'.dynsec.hasClient n = true →
    s.dynsec.hasClient n = true ∨ (n = cfg.cn r.tenantID ∧ r.phase.provisioning = true)

/-- A broker command, after which the request goes on. -/
theorem RequestSpec.command {run : Dynsec → Dynsec} {r' : Request} (htenant : r'.tenantID = r.tenantID)
    (hphase : r'.phase.provisioning = true → r.phase.provisioning = true)
    (hclients : ∀ n, (run s.dynsec).hasClient n = true →
      s.dynsec.hasClient n = true ∨ (n = cfg.cn r.tenantID ∧ r.phase.provisioning = true)) :
    RequestSpec cfg s ((s.command reply run).setRequest i r') i r reply := by
  unfold State.command
  split_ifs
  · exact ⟨⟨r', rfl, htenant, hphase⟩, .inl rfl, hclients⟩
  · exact ⟨⟨r', rfl, htenant, hphase⟩, .inl rfl, fun n hn => .inl hn⟩

theorem provisioning_nextIdentity (todo : List Slug) : (nextIdentity todo).provisioning = false := by
  cases todo <;> rfl

theorem stepRequest_spec (hstep : stepRequest cfg s i r reply = some (s', e)) : RequestSpec cfg s s' i r reply := by
  unfold stepRequest at hstep
  cases hphase : r.phase with
  | createRole stale =>
      have hprovisioning : r.phase.provisioning = true := by rw [hphase]; rfl
      simp only [hphase] at hstep
      split_ifs at hstep <;> cases hstep <;>
        exact .command rfl (fun _ => hprovisioning) fun _ hn => .inl hn
  | setRoleACLs stale =>
      have hprovisioning : r.phase.provisioning = true := by rw [hphase]; rfl
      simp only [hphase] at hstep
      split_ifs at hstep <;> cases hstep <;>
        exact .command rfl (fun _ => hprovisioning) fun _ hn => .inl hn
  | createClient stale =>
      have hprovisioning : r.phase.provisioning = true := by rw [hphase]; rfl
      simp only [hphase] at hstep
      split_ifs at hstep <;> cases hstep <;>
        exact .command rfl (fun _ => hprovisioning) fun n hn =>
          (Dynsec.hasClient_createClient hn).symm.imp_right fun h => ⟨h, hprovisioning⟩
  | deleteClient attempt identity todo =>
      simp only [hphase] at hstep
      split_ifs at hstep <;> cases hstep <;>
        exact .command rfl nofun fun _ hn => .inl (Dynsec.hasClient_deleteClient hn)
  | deleteRole attempt clientGone identity todo =>
      simp only [hphase] at hstep
      split_ifs at hstep <;> cases hstep
      · exact .command rfl nofun fun _ hn => .inl hn
      · exact .command rfl nofun fun _ hn => .inl hn
      · exact .command rfl (fun h => by simp [provisioning_nextIdentity] at h) fun _ hn => .inl hn
  | forget identity todo =>
      have hrequest : ∃ r', s.requests.set i { r with phase := nextIdentity todo } = s.requests.set i r' ∧
          r'.tenantID = r.tenantID ∧ (r'.phase.provisioning = true → r.phase.provisioning = true) :=
        ⟨_, rfl, rfl, fun h => by simp [provisioning_nextIdentity] at h⟩
      simp only [hphase] at hstep
      split at hstep
      · cases hstep
        exact ⟨hrequest, .inl rfl, fun n hn => .inl hn⟩
      · next hforget =>
          split_ifs at hstep with hran <;> cases hstep
          · exact ⟨hrequest, .inr ⟨identity, todo, hphase, hran, hforget⟩, fun n hn => .inl hn⟩
          · exact ⟨hrequest, .inl rfl, fun n hn => .inl hn⟩
  | returned => simp [hphase] at hstep

theorem mem_pending {r : Request} (hr : r ∈ s.requests) (hphase : r.phase.provisioning = true) :
    r.tenantID ∈ (ledger cfg s).pending :=
  ⟨r, hr, rfl, hphase⟩

theorem gone_of_forgetsGone (hok : ForgetsGone cfg log s a) {identity : Slug} (hforgets : (r, identity) ∈ forgets s a)
    (hlast : LastRecord cfg s r identity) :
    identity ∉ (ledger cfg s).live ∧ identity ∉ (ledger cfg s).pending := by
  obtain ⟨hclient, hrequests⟩ := hok _ hforgets hlast
  refine ⟨fun hlive => ?_, ?_⟩
  · exact Bool.false_ne_true (hclient.symm.trans hlive)
  · rintro ⟨r', hr', htenant, hphase⟩
    exact Bool.false_ne_true ((hrequests r' hr' htenant).symm.trans hphase)

/-- The next call of a request keeps to the ledger's order, its forget by the guard. -/
theorem RequestSpec.admits (h : RequestSpec cfg s s' i r reply) (hr : s.requests[i]? = some r)
    (hok : ForgetsGone cfg log s (.next i reply)) : (ledger cfg s).Admits (ledger cfg s') where
  forgets := by
    rintro t ⟨d, hd, hdevice, hrecords⟩
    rcases h.devices with hdevices | ⟨identity, todo, hphase, hran, hforget⟩
    · exact .inl ⟨d, hdevices ▸ hd, hdevice, hrecords⟩
    · have hforgets : (r, identity) ∈ Broker.forgets s (.next i reply) := by
        simp [Broker.forgets, hr, hphase, hran]
      by_cases hkept : ∃ o ∈ s.devices, o.deviceID = cfg.deviceID ∧ o.Records t ∧
          (t = identity → ¬ (o.id = r.devicePk ∧ o.tenantID = r.tenantID))
      · obtain ⟨o, ho, hodevice, horecords, hother⟩ := hkept
        have hrecorded := forgetBrokerIdentity_recorded hforget ho horecords hother
        rw [hodevice] at hrecorded
        exact .inl hrecorded
      · push Not at hkept
        obtain rfl : t = identity := (hkept d hd hdevice hrecords).1
        exact .inr (gone_of_forgetsGone hok hforgets fun o ho hodevice horecords =>
          (hkept o ho hodevice horecords).2)
  makes := by
    intro t ht
    rcases h.clients _ ht with hlive | ⟨hcn, hprovisioning⟩
    · exact .inl hlive
    · obtain rfl := cn_injective cfg hcn
      exact .inr (mem_pending (List.mem_of_getElem? hr) hprovisioning)
  reserves := by
    rintro t ⟨x, hx, rfl, hphase⟩
    obtain ⟨r', hrequests, htenant, hprovisioning⟩ := h.requests
    rw [hrequests] at hx
    rcases List.mem_or_eq_of_mem_set hx with hx | rfl
    · exact .inl (mem_pending hx hphase)
    · rw [htenant]
      exact .inl (mem_pending (List.mem_of_getElem? hr) (hprovisioning hphase))

/-- Every guarded step keeps to the ledger's order. -/
theorem step_admits (hok : ForgetsGone cfg log s a) (hstep : step cfg s a = some (s', e)) :
    (ledger cfg s).Admits (ledger cfg s') := by
  cases a with
  | provision tenantID topicPrefix broadRead reply =>
      simp only [step] at hstep
      split at hstep
      · cases hstep
        exact .of_subset subset_rfl subset_rfl subset_rfl
      · next devices id hreserve =>
          obtain ⟨hown, hkept⟩ := reserveBrokerIdentity_recorded hreserve
          split_ifs at hstep with hanswered hran hran <;> cases hstep
          · refine ⟨fun t ht => .inl (hkept t ht), fun t ht => .inl ht, ?_⟩
            rintro t ⟨x, hx, rfl, hphase⟩
            rcases List.mem_append.mp hx with hx | hx
            · exact .inl (mem_pending hx hphase)
            · obtain rfl := List.mem_singleton.mp hx
              exact .inr hown
          · rw [hanswered] at hran
            exact absurd rfl hran
          · exact .of_subset hkept subset_rfl subset_rfl
          · exact .of_subset subset_rfl subset_rfl subset_rfl
  | teardown devicePk tenantID reply =>
      simp only [step] at hstep
      split at hstep
      · cases hstep
        exact .of_subset subset_rfl subset_rfl subset_rfl
      · split_ifs at hstep <;> cases hstep
        · refine .of_subset subset_rfl subset_rfl ?_
          rintro t ⟨x, hx, rfl, hphase⟩
          rcases List.mem_append.mp hx with hx | hx
          · exact mem_pending hx hphase
          · obtain rfl := List.mem_singleton.mp hx
            simp [provisioning_nextIdentity] at hphase
        · exact .of_subset subset_rfl subset_rfl subset_rfl
  | next i reply =>
      obtain ⟨r, hr, hnext⟩ := Option.bind_eq_some_iff.mp hstep
      exact (stepRequest_spec hnext).admits hr hok
  | reassign id targetTenant reply =>
      simp only [step] at hstep
      split at hstep
      · cases hstep
        exact .of_subset subset_rfl subset_rfl subset_rfl
      · next devices hreassign =>
          obtain ⟨rfl, -⟩ := Prod.mk.inj (Option.some.inj hstep)
          split_ifs
          · exact .of_subset (fun t ht => reassign_recorded hreassign ht) subset_rfl subset_rfl
          · exact .of_subset subset_rfl subset_rfl subset_rfl

theorem noneEscapes_of_covered (h : (ledger cfg s).Covered) : NoneEscapes cfg s := by
  intro t ht
  obtain ⟨d, hd, hdevice, hrecords⟩ := h.live ht
  exact ⟨d, hd, hdevice, brokerIdentityOf_records hd hrecords⟩

/-- From a state at rest in which every client of the device id is recorded, and while no forget takes an
identity off its last record before it is gone, a teardown of the rows finds every client. -/
theorem no_client_escapes {s₀ : State} (hidle : s₀.requests = [])
    (hrecorded : ∀ t, s₀.dynsec.hasClient (cfg.cn t) = true → Recorded s₀.devices cfg.deviceID t)
    (hrun : (system cfg).RunIf (ForgetsGone cfg) s₀ log s) : NoneEscapes cfg s := by
  refine noneEscapes_of_covered (Ledger.covered_of_run (ledger cfg) ⟨hrecorded, ?_⟩ ?_ hrun)
  · rintro t ⟨r, hr, -⟩
    rw [hidle] at hr
    cases hr
  · exact fun log s a s' e hok hstep => step_admits hok hstep

def pumpConfig : Config where
  deviceID := "pump"
  root := "thesada"
  quotaDevices := 0
  tenants := [acme, beta]

/-- A row of tenant acme and a broker without clients. -/
def unpaired : State where
  devices := ⟨[⟨1, acme, "pump", none, none, none, []⟩], by decide⟩
  dynsec := ⟨∅, ∅⟩
  requests := []

theorem unpaired_recorded (t : Slug) (h : unpaired.dynsec.hasClient (pumpConfig.cn t) = true) :
    Recorded unpaired.devices pumpConfig.deviceID t := by
  cases h

def provisioned (tenantID : Slug) : Action :=
  .provision tenantID ("thesada/" ++ tenantID.val ++ "/pump") false .answered

/-- The device is paired, reassigned and paired again, which deletes and forgets its old identity. -/
def movedActions : List Action :=
  [provisioned acme, .next 0 .answered, .next 0 .answered, .reassign 1 beta .answered, provisioned beta,
    .next 1 .answered, .next 1 .answered, .next 1 .answered, .next 1 .answered, .next 1 .answered]

theorem moved_runs : ((system pumpConfig).execIf (ForgetsGone pumpConfig) [] unpaired movedActions).any
    (fun r => r.2.dynsec.hasClient (pumpConfig.cn beta) && r.1.contains (.returned 1 true)) = true := by
  decide +kernel

theorem moved_noneEscapes : ∃ log s, .returned 1 true ∈ log ∧ s.dynsec.hasClient (pumpConfig.cn beta) = true ∧
    NoneEscapes pumpConfig s ∧ (system pumpConfig).Run unpaired log s := by
  obtain ⟨log, s, hrun, htest⟩ := Machine.exists_runIf_of_any moved_runs
  obtain ⟨hclient, hlog⟩ := Bool.and_eq_true_iff.mp htest
  exact ⟨log, s, List.contains_iff_mem.mp hlog, hclient, no_client_escapes rfl unpaired_recorded hrun, hrun.run⟩

/-- Between a teardown's delete and its forget the device is paired again; then it is reassigned. -/
def pairedAgainActions : List Action :=
  [provisioned acme, .next 0 .answered, .next 0 .answered,
    .teardown 1 acme .answered, .next 1 .answered, .next 1 .answered,
    provisioned acme, .next 2 .answered, .next 2 .answered,
    .next 1 .answered, .reassign 1 beta .answered]

/-- The identity has a client that no row's teardown deletes. -/
def escaped (cfg : Config) (identity : Slug) (s : State) : Bool :=
  s.dynsec.hasClient (cfg.cn identity) &&
    s.devices.rows.all fun d =>
      match brokerIdentityOf s.devices d.id d.tenantID with
      | .error _ => true
      | .ok id => !id.tenants.contains identity

theorem pairedAgain_runs : ((system pumpConfig).execIf (fun _ _ _ => True) [] unpaired pairedAgainActions).any
    (fun r => escaped pumpConfig acme r.2) = true := by
  decide +kernel

/-- The client of the second pairing is on the broker and on no row's record. -/
theorem pairedAgain_escapes : ∃ log s, unpaired.requests = [] ∧
    (∀ t, unpaired.dynsec.hasClient (pumpConfig.cn t) = true → Recorded unpaired.devices pumpConfig.deviceID t) ∧
    (system pumpConfig).Run unpaired log s ∧ ¬ NoneEscapes pumpConfig s := by
  obtain ⟨log, s, hrun, htest⟩ := Machine.exists_runIf_of_any pairedAgain_runs
  obtain ⟨hclient, hrows⟩ := Bool.and_eq_true_iff.mp htest
  refine ⟨log, s, rfl, unpaired_recorded, hrun, fun hnone => ?_⟩
  obtain ⟨d, hd, -, id, hid, hmem⟩ := hnone acme hclient
  have hrow := List.all_eq_true.mp hrows d hd
  rw [hid] at hrow
  simp [hmem] at hrow

end ThesadaApp.Broker
