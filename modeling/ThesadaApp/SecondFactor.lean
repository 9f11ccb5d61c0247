import ThesadaApp.LoginFlow

/-!
The second factor over whole runs of logins. A session or a token of a user with a secret is traced back to
the acceptance of the code of the same request, and that to a first factor of the same user: the request's
own, or the one after which the challenge it presented was issued. The steps of one user's acceptances grow,
so no code counts twice.
-/

namespace ThesadaApp.Login

/-- The stored secret of a user. -/
def totpSecretOf (users : KeyedTable User.id) (user : UUID) : Option String :=
  (users.find user).bind User.totpSecret

/-- The action does not change the stored secret of the user. -/
def KeepsSecret (user : UUID) (_ : List Event) (s : State) : Action → Prop
  | .writeUsers users => totpSecretOf users user = totpSecretOf s.users user
  | _ => True

instance (user : UUID) (log : List Event) (s : State) (a : Action) : Decidable (KeepsSecret user log s a) := by
  cases a <;> unfold KeepsSecret <;> infer_instance

/-- A user's first factor came before the code of request `i`: in the request itself, or before the challenge
that carries the code was issued to the user. -/
def Carried (log : List Event) (i : Nat) (user : UUID) : Option String → Prop
  | none => ∃ kind, Event.firstFactor i user kind ∈ log
  | some hash => ∃ req kind, List.Sublist [.firstFactor req user kind, .challengeIssued req hash user] log

/-- The code of request `i` was accepted for the user's secret, at a step later than every step accepted for
the user before, and was carried by a first factor of the user. -/
def SecondFactor (cfg : Config) (user : UUID) (secret : String) (log : List Event) (i : Nat) (code : String) : Prop :=
  ∃ before step carrier after, log = before ++ .codeAccepted i user step carrier :: after ∧
    (∀ req step' carrier', .codeAccepted req user step' carrier' ∈ before → step' < step) ∧
    (∃ now, cfg.totp.Accepts secret code now step) ∧ Carried before i user carrier

/-- The request and the user of an event that logs in. -/
def Event.grants : Event → Option (Nat × UUID)
  | .sessionCreated i user _ | .tokenIssued i user => some (i, user)
  | _ => none

section invariant

variable {cfg : Config} {user : UUID} {secret : String} {log : List Event} {s t : State} {i : Nat} {r : Request}
  {e : Event}

theorem Carried.mono {carrier : Option String} {log' : List Event} (h : Carried log i user carrier) :
    Carried (log ++ log') i user carrier := by
  cases carrier with
  | none =>
      obtain ⟨kind, hmem⟩ := h
      exact ⟨kind, List.mem_append_left _ hmem⟩
  | some hash =>
      obtain ⟨req, kind, hsub⟩ := h
      exact ⟨req, kind, hsub.trans (List.sublist_append_left _ _)⟩

theorem SecondFactor.mono {code : String} {log' : List Event} (h : SecondFactor cfg user secret log i code) :
    SecondFactor cfg user secret (log ++ log') i code := by
  obtain ⟨before, step, carrier, after, rfl, hrest⟩ := h
  exact ⟨before, step, carrier, after ++ log', by simp, hrest⟩

/-- What a request that is about to make its next call has shown, if the call is about the user. -/
def PcInv (cfg : Config) (user : UUID) (secret : String) (log : List Event) (i : Nat) (input : Input) : Pc → Prop
  | .start | .finishRead _ | .answered _ => True
  | .enrolledTOTP u _ | .beginTOTPLogin u _ => u = user → Carried log i user none
  | .acceptTOTPLogin u secret' => u = user → secret' = secret ∧ Carried log i user none
  | .finishWrite challenge u secret' _ =>
      u = user → secret' = some secret ∧ Carried log i user (some (cfg.sha256 challenge))
  | .createSession u _ | .issueToken u _ => u = user → SecondFactor cfg user secret log i input.code

theorem PcInv.mono {input : Input} {pc : Pc} {log' : List Event} (h : PcInv cfg user secret log i input pc) :
    PcInv cfg user secret (log ++ log') i input pc := by
  cases pc with
  | start | finishRead | answered => trivial
  | enrolledTOTP | beginTOTPLogin => exact fun hu => (h hu).mono
  | acceptTOTPLogin | finishWrite => exact fun hu => ⟨(h hu).1, (h hu).2.mono⟩
  | createSession | issueToken => exact fun hu => (h hu).mono

/-- What the tables say of the user: the secret, where the challenges come from, and that the last step bounds
every step accepted. -/
structure Tables (user : UUID) (secret : String) (log : List Event) (s : State) : Prop where
  stored : totpSecretOf s.users user = some secret
  issued : ∀ c ∈ s.challenges, c.userID = user → ∃ req kind,
    List.Sublist [.firstFactor req user kind, .challengeIssued req c.tokenHash user] log
  bounded : ∀ req step carrier, Event.codeAccepted req user step carrier ∈ log →
    ∃ last, s.totpLastStep user = some last ∧ step ≤ last

/-- The invariant of a run in which the user's secret does not change. -/
structure Inv (cfg : Config) (user : UUID) (secret : String) (log : List Event) (s : State) : Prop where
  tables : Tables user secret log s
  requests : ∀ (i : Nat) (r : Request), s.requests[i]? = some r → PcInv cfg user secret log i r.input r.pc

/-- An event that accepts no code of the user leaves what the tables say. -/
theorem Tables.event (h : Tables user secret log s) (he : ∀ req step carrier, e ≠ .codeAccepted req user step carrier) :
    Tables user secret (log ++ [e]) s where
  stored := h.stored
  issued c hc hu := by
    obtain ⟨req, kind, hsub⟩ := h.issued c hc hu
    exact ⟨req, kind, hsub.trans (List.sublist_append_left _ _)⟩
  bounded req step carrier hmem := by
    rcases List.mem_append.mp hmem with hmem | hmem
    · exact h.bounded req step carrier hmem
    · exact absurd (List.mem_singleton.mp hmem).symm (he req step carrier)

/-- Challenges may be deleted, and counted on. -/
theorem Tables.of_challenges (h : Tables user secret log s)
    (husers : totpSecretOf t.users user = totpSecretOf s.users user)
    (hlast : t.totpLastStep = s.totpLastStep)
    (hrows : ∀ c ∈ t.challenges, ∃ old ∈ s.challenges, old.tokenHash = c.tokenHash ∧ old.userID = c.userID) :
    Tables user secret log t where
  stored := husers.trans h.stored
  issued c hc hu := by
    obtain ⟨old, hold, hhash, huser⟩ := hrows c hc
    exact hhash ▸ h.issued old hold (huser.trans hu)
  bounded req step carrier hmem := hlast ▸ h.bounded req step carrier hmem

/-- The tables after an action that is not a call of a request. -/
theorem Tables.went (h : Tables user secret log s) (husers : totpSecretOf t.users user = totpSecretOf s.users user)
    (hlast : t.totpLastStep = s.totpLastStep) (hrows : ∀ c ∈ t.challenges, c ∈ s.challenges) :
    Tables user secret (log ++ [.went]) t :=
  (h.of_challenges husers hlast fun c hc => ⟨c, hrows c hc, rfl, rfl⟩).event nofun

theorem Tables.deleteChallenge (h : Tables user secret log s) (challenge : String) :
    Tables user secret log (deleteChallenge cfg s challenge) :=
  h.of_challenges rfl rfl fun c hc => ⟨c, (KeyedTable.mem_deleteWhere.mp hc).1, rfl, rfl⟩

theorem Tables.noteWrongTOTP (h : Tables user secret log s) (challenge : String) :
    Tables user secret log (noteWrongTOTP cfg s challenge) := by
  have hcounted : Tables user secret log { s with
      challenges := s.challenges.updateWhere (fun c => c.tokenHash = cfg.sha256 challenge) missRow missRow_tokenHash } := by
    refine h.of_challenges rfl rfl fun c hc => ?_
    obtain ⟨old, hold, rfl⟩ := (KeyedTable.mem_updateWhere missRow_tokenHash).mp hc
    exact ⟨old, hold, by split <;> exact ⟨rfl, rfl⟩⟩
  unfold Login.noteWrongTOTP
  dsimp only
  split
  · exact hcounted.deleteChallenge challenge
  · exact hcounted

/-- A step recorded for a user is later than those accepted before. -/
theorem Tables.recordStep (h : Tables user secret log s) {u : UUID} {step : Int} (hnew : stepIsNew s u step = true)
    (carrier : Option String) : Tables user secret (log ++ [.codeAccepted i u step carrier]) (recordStep s u step) where
  stored := h.stored
  issued c hc hu := by
    obtain ⟨req, kind, hsub⟩ := h.issued c hc hu
    exact ⟨req, kind, hsub.trans (List.sublist_append_left _ _)⟩
  bounded req step' carrier' hmem := by
    simp only [Login.recordStep, Function.update_apply]
    rcases List.mem_append.mp hmem with hmem | hmem
    · obtain ⟨last, hlast, hle⟩ := h.bounded req step' carrier' hmem
      by_cases hu : user = u
      · have hlt : last < step := by
          have hall := (Bool.and_eq_true_iff.mp hnew).2
          rw [← hu, hlast] at hall
          simpa using hall
        exact ⟨step, if_pos hu, by omega⟩
      · exact ⟨last, by rw [if_neg hu]; exact hlast, hle⟩
    · cases List.mem_singleton.mp hmem
      exact ⟨step, if_pos rfl, le_rfl⟩

/-- A code that is accepted at a new step counts as the user's second factor. -/
theorem Tables.secondFactor (h : Tables user secret log s) {code : String} {now : Time} {step : Int}
    {carrier : Option String} (hnew : stepIsNew s user step = true)
    (haccepts : cfg.totp.checkStep secret code now = .ok (some step)) (hcarried : Carried log i user carrier) :
    SecondFactor cfg user secret (log ++ [.codeAccepted i user step carrier]) i code := by
  refine ⟨log, step, carrier, [], rfl, ?_, ⟨now, haccepts⟩, hcarried⟩
  intro req step' carrier' hmem
  obtain ⟨last, hlast, hle⟩ := h.bounded req step' carrier' hmem
  have hall := (Bool.and_eq_true_iff.mp hnew).2
  rw [hlast] at hall
  have hlt : last < step := by simpa using hall
  omega

/-- The invariant after a step, given what the step gives. -/
def After (cfg : Config) (user : UUID) (secret : String) (log : List Event) (p : State × Event) : Prop :=
  Inv cfg user secret (log ++ [p.2]) p.1

/-- A call keeps the invariant if what it writes agrees with the tables and the request may go on as it does. -/
theorem Inv.after (h : Inv cfg user secret log s) {pc : Pc} (htables : Tables user secret (log ++ [e]) t)
    (hpc : PcInv cfg user secret (log ++ [e]) i r.input pc) (hreqs : t.requests = s.requests) :
    After cfg user secret log (t.setPc i r pc, e) where
  tables := htables.of_challenges rfl rfl fun c hc => ⟨c, hc, rfl, rfl⟩
  requests j q hq := by
    simp only [State.setPc, hreqs, List.getElem?_set] at hq
    split_ifs at hq with hij hlt
    · cases hq
      exact hij ▸ hpc
    · exact (h.requests j q hq).mono

/-- A call without an event of its own. -/
theorem Inv.goOn (h : Inv cfg user secret log s) {pc : Pc} (htables : Tables user secret log t)
    (hpc : PcInv cfg user secret log i r.input pc) (hreqs : t.requests = s.requests) :
    After cfg user secret log (goOn t i r pc) :=
  h.after (htables.event nofun) hpc.mono hreqs

theorem Inv.answer (h : Inv cfg user secret log s) (status : Nat) :
    After cfg user secret log (Login.goOn s i r (.answered status)) :=
  h.goOn h.tables trivial rfl

theorem apply_tables {env : CallEnv} {s' : State} (h : Tables user secret log s) (h' : Tables user secret log s') :
    Tables user secret log (env.apply s s') := by
  unfold CallEnv.apply
  split
  · exact h'
  · exact h

theorem apply_requests {env : CallEnv} {s' : State} (h : s'.requests = s.requests) :
    (env.apply s s').requests = s.requests := by
  unfold CallEnv.apply
  split
  · exact h
  · rfl

/-- An acknowledged transaction took effect. -/
theorem CallEnv.event_of_acked {env : CallEnv} (h : env.commit = .acked) (e : Event) : env.event e = e := by
  simp [CallEnv.event, CallEnv.ran, h]

theorem event_ne {env : CallEnv} (he : ∀ req step carrier, e ≠ .codeAccepted req user step carrier)
    (req : Nat) (step : Int) (carrier : Option String) : env.event e ≠ .codeAccepted req user step carrier := by
  unfold CallEnv.event
  split
  · exact he req step carrier
  · nofun

/-- A transaction that accepts a code, or issues a challenge: either it took effect with its event, or nothing
happened. -/
theorem apply_event_tables {env : CallEnv} {s' : State} (h : Tables user secret log s)
    (h' : Tables user secret (log ++ [e]) s') : Tables user secret (log ++ [env.event e]) (env.apply s s') := by
  unfold CallEnv.apply CallEnv.event
  split
  · exact h'
  · exact h.event nofun

theorem carried_of_event {kind : FirstFactor} {u : UUID} (hu : u = user) :
    Carried (log ++ [.firstFactor i u kind]) i user none :=
  ⟨kind, by simp [hu]⟩

theorem after_stepVerifyPassword (h : Inv cfg user secret log s) (env : CallEnv) (email password : String) :
    After cfg user secret log (stepVerifyPassword cfg s i r env email password) := by
  unfold stepVerifyPassword
  split_ifs
  · exact h.answer _
  · exact h.answer _
  · split
    · exact h.answer _
    · exact h.after (h.tables.event nofun) carried_of_event rfl

theorem after_stepConsumeMagicLink (h : Inv cfg user secret log s) (env : CallEnv) (token : String) :
    After cfg user secret log (stepConsumeMagicLink cfg s i r env token) := by
  unfold stepConsumeMagicLink
  split
  · exact h.answer _
  · next magicLinks u _ =>
      have htables : Tables user secret log { s with magicLinks } :=
        h.tables.of_challenges rfl rfl fun c hc => ⟨c, hc, rfl, rfl⟩
      split
      · exact h.after (htables.event nofun) carried_of_event rfl
      · exact h.goOn (apply_tables h.tables htables) trivial (apply_requests rfl)

theorem after_stepStart (h : Inv cfg user secret log s) (env : CallEnv) :
    After cfg user secret log (stepStart cfg s i r env) := by
  unfold stepStart
  cases hinput : r.input with
  | webLogin email password | apiLogin email password code =>
      dsimp only
      split
      · exact h.answer _
      · exact after_stepVerifyPassword h env email password
  | webMagicLinkVerify token | apiMagicLinkVerify token code =>
      dsimp only
      split
      · exact h.answer _
      · exact after_stepConsumeMagicLink h env token
  | webTotpSubmit challenge code | apiTotp challenge code =>
      dsimp only
      split_ifs
      · exact h.answer _
      · exact h.answer _
      · exact h.goOn h.tables trivial rfl

theorem totpSecretOf_eq {u : User} (hfind : s.users.find user = some u) : totpSecretOf s.users user = u.totpSecret := by
  rw [totpSecretOf, hfind, Option.bind_some]

/-- A lookup of the user that did not fail finds the secret: an account without the factor is another one. -/
theorem enrolledTOTP_of_stored (hstored : totpSecretOf s.users user = some secret) (hset : secret ≠ "") :
    enrolledTOTP s user = some (some secret) := by
  obtain ⟨u, hfind, hsecret⟩ := Option.bind_eq_some_iff.mp hstored
  simp [enrolledTOTP, hfind, hsecret, hset]

theorem after_stepEnrolledTOTP (h : Inv cfg user secret log s) (hset : secret ≠ "") (env : CallEnv) {u : UUID}
    {method : String} (hpc : PcInv cfg user secret log i r.input (.enrolledTOTP u method)) :
    After cfg user secret log (stepEnrolledTOTP s i r env u method) := by
  unfold stepEnrolledTOTP
  split
  · exact h.answer _
  · split
    · exact h.answer _
    · next hnone =>
        refine h.goOn h.tables (fun hu => ?_) rfl
        rw [hu, enrolledTOTP_of_stored h.tables.stored hset] at hnone
        cases hnone
    · next secret' hsome =>
        refine h.goOn h.tables ?_ rfl
        unfold challenged
        split
        · split
          · trivial
          · intro hu
            rw [hu, enrolledTOTP_of_stored h.tables.stored hset] at hsome
            cases hsome
            exact ⟨rfl, hpc hu⟩
        · exact hpc

theorem after_stepBeginTOTPLogin (h : Inv cfg user secret log s) (env : CallEnv) {u : UUID} {method : String}
    (hpc : PcInv cfg user secret log i r.input (.beginTOTPLogin u method)) :
    After cfg user secret log (stepBeginTOTPLogin cfg s i r env u method) := by
  unfold stepBeginTOTPLogin
  split
  · exact h.answer _
  · next token _ =>
      dsimp only
      split
      · exact h.answer _
      · split
        · exact h.answer _
        · split
          · next hfree =>
              refine h.after (apply_event_tables h.tables ⟨h.tables.stored, ?_, ?_⟩) ?_ (apply_requests rfl)
              · intro c hc hu
                rcases (KeyedTable.mem_insert hfree).mp hc with hc | rfl
                · obtain ⟨req, kind, hsub⟩ := h.tables.issued c hc hu
                  exact ⟨req, kind, hsub.trans (List.sublist_append_left _ _)⟩
                · obtain ⟨kind, hmem⟩ := hpc hu
                  refine ⟨i, kind, ?_⟩
                  rw [← hu]
                  exact (List.singleton_sublist.mpr (hu ▸ hmem)).append (List.Sublist.refl _)
              · intro req step carrier hmem
                have hold : Event.codeAccepted req user step carrier ∈ log := by simpa using hmem
                exact h.tables.bounded req step carrier hold
              · split
                · unfold challengeStored
                  split
                  · split <;> trivial
                  · trivial
                · trivial
          · exact h.answer _

theorem after_stepAcceptTOTPLogin (h : Inv cfg user secret log s) (env : CallEnv) {u : UUID} {secret' : String}
    (hpc : PcInv cfg user secret log i r.input (.acceptTOTPLogin u secret')) :
    After cfg user secret log (stepAcceptTOTPLogin cfg s i r env u secret') := by
  unfold stepAcceptTOTPLogin
  split
  · exact h.answer _
  · exact h.answer _
  · next step haccepts =>
      split
      · next hnew =>
          refine h.after (apply_event_tables h.tables (h.tables.recordStep hnew none)) ?_ (apply_requests rfl)
          split
          · next hacked =>
              intro hu
              obtain ⟨rfl, hcarried⟩ := hpc hu
              rw [CallEnv.event_of_acked hacked]
              subst hu
              exact h.tables.secondFactor hnew haccepts hcarried
          · trivial
      · exact h.answer _

theorem after_stepFinishRead (h : Inv cfg user secret log s) (env : CallEnv) (challenge : String) :
    After cfg user secret log (stepFinishRead cfg s i r env challenge) := by
  unfold stepFinishRead
  split
  · exact h.answer _
  · split
    · exact h.answer _
    · next c hc =>
        split
        · split
          · exact h.answer _
          · next u hfind =>
              refine h.goOn h.tables (fun hu => ⟨?_, ?_⟩) rfl
              · rw [← totpSecretOf_eq hfind, hu]
                exact h.tables.stored
              · rw [← KeyedTable.find_key hc]
                exact h.tables.issued c (KeyedTable.find_mem hc) hu
        · exact h.answer _

theorem after_rejectCode (h : Inv cfg user secret log s) (env : CallEnv) (challenge : String) :
    After cfg user secret log (rejectCode cfg s i r env challenge) := by
  unfold rejectCode
  split
  · exact h.answer _
  · refine h.goOn (apply_tables h.tables (h.tables.noteWrongTOTP challenge)) trivial (apply_requests ?_)
    unfold noteWrongTOTP
    dsimp only
    split <;> rfl

theorem after_stepFinishWrite (h : Inv cfg user secret log s) (env : CallEnv) {challenge : String}
    {u : UUID} {secret' : Option String} {method : String}
    (hpc : PcInv cfg user secret log i r.input (.finishWrite challenge u secret' method)) :
    After cfg user secret log (stepFinishWrite cfg s i r env challenge u secret' method) := by
  unfold stepFinishWrite
  split
  · exact h.goOn (apply_tables h.tables (h.tables.deleteChallenge challenge)) trivial (apply_requests rfl)
  · next secret'' hfilter =>
      split
      · exact h.answer _
      · exact after_rejectCode h env challenge
      · next step haccepts =>
          split
          · exact after_rejectCode h env challenge
          · next hold =>
              have hnew : stepIsNew s u step = true := Bool.eq_true_of_not_eq_false hold
              split
              · exact h.answer _
              · refine h.after (apply_event_tables h.tables
                  ((h.tables.recordStep hnew _).deleteChallenge challenge)) ?_ (apply_requests rfl)
                split
                · next hacked =>
                    intro hu
                    obtain ⟨rfl, hcarried⟩ := hpc hu
                    obtain ⟨rfl, -⟩ : secret = secret'' ∧ secret'' ≠ "" := by
                      simpa [Option.filter_eq_some_iff] using hfilter
                    subst hu
                    rw [CallEnv.event_of_acked hacked]
                    exact h.tables.secondFactor hnew haccepts hcarried
                · trivial

theorem after_stepCreateSession (h : Inv cfg user secret log s) (env : CallEnv) {u : UUID} {method : String}
    (hpc : PcInv cfg user secret log i r.input (.createSession u method)) :
    After cfg user secret log (stepCreateSession s i r env u method) := by
  unfold stepCreateSession
  split
  · exact h.answer _
  · refine h.after (h.tables.event (event_ne fun _ _ _ h => by cases h)) ?_ rfl
    split
    · trivial
    · split
      · exact hpc.mono
      · trivial

theorem after_stepIssueToken (h : Inv cfg user secret log s) (env : CallEnv) (u : UUID) :
    After cfg user secret log (stepIssueToken s i r env u) := by
  unfold stepIssueToken
  split
  · exact h.answer _
  · exact h.after (h.tables.event (event_ne fun _ _ _ h => by cases h)) trivial rfl

theorem after_stepRequest (h : Inv cfg user secret log s) (hset : secret ≠ "") (hr : s.requests[i]? = some r)
    (env : CallEnv) {p : State × Event} (hp : stepRequest cfg s i r env = some p) : After cfg user secret log p := by
  have hpc := h.requests i r hr
  unfold stepRequest at hp
  cases hcase : r.pc with
  | start =>
      rw [hcase] at hp
      exact Option.some.inj hp ▸ after_stepStart h env
  | enrolledTOTP u method =>
      rw [hcase] at hp hpc
      exact Option.some.inj hp ▸ after_stepEnrolledTOTP h hset env hpc
  | beginTOTPLogin u method =>
      rw [hcase] at hp hpc
      exact Option.some.inj hp ▸ after_stepBeginTOTPLogin h env hpc
  | acceptTOTPLogin u secret' =>
      rw [hcase] at hp hpc
      exact Option.some.inj hp ▸ after_stepAcceptTOTPLogin h env hpc
  | finishRead challenge =>
      rw [hcase] at hp
      exact Option.some.inj hp ▸ after_stepFinishRead h env challenge
  | finishWrite challenge u secret' method =>
      rw [hcase] at hp hpc
      exact Option.some.inj hp ▸ after_stepFinishWrite h env hpc
  | createSession u method =>
      rw [hcase] at hp hpc
      exact Option.some.inj hp ▸ after_stepCreateSession h env hpc
  | issueToken u method =>
      rw [hcase] at hp
      exact Option.some.inj hp ▸ after_stepIssueToken h env u
  | answered status =>
      rw [hcase] at hp
      cases hp

theorem after_step (h : Inv cfg user secret log s) (hset : secret ≠ "") {a : Action} (hkeeps : KeepsSecret user log s a)
    {p : State × Event} (hp : step cfg s a = some p) : After cfg user secret log p := by
  cases a with
  | arrive input =>
      cases hp
      refine ⟨h.tables.went rfl rfl fun c hc => hc, fun j q hq => ?_⟩
      rw [List.getElem?_append] at hq
      split at hq
      · exact (h.requests j q hq).mono
      · obtain rfl := List.mem_singleton.mp (List.mem_of_getElem? hq)
        trivial
  | next i env =>
      obtain ⟨r, hr, hrequest⟩ := Option.bind_eq_some_iff.mp hp
      exact after_stepRequest h hset hr env hrequest
  | sendLink link =>
      simp only [step] at hp
      split at hp
      · cases hp
        exact ⟨h.tables.went rfl rfl fun c hc => hc, fun j q hq => (h.requests j q hq).mono⟩
      · cases hp
  | writeUsers users =>
      cases hp
      exact ⟨h.tables.went hkeeps rfl fun c hc => (KeyedTable.mem_deleteWhere.mp hc).1,
        fun j q hq => (h.requests j q hq).mono⟩

/-- The invariant holds along every run from empty tables in which the secret of the user does not change. -/
theorem inv_of_run {s₀ : State} (hchallenges : s₀.challenges = ∅) (hrequests : s₀.requests = [])
    (hstored : totpSecretOf s₀.users user = some secret) (hset : secret ≠ "")
    (hrun : (system cfg).RunIf (KeepsSecret user) s₀ log s) : Inv cfg user secret log s := by
  refine Machine.RunIf.invariant (Inv cfg user secret) ?_ ?_ hrun
  · refine ⟨⟨hstored, ?_, fun req step carrier hmem => absurd hmem List.not_mem_nil⟩, ?_⟩
    · intro c hc
      rw [hchallenges] at hc
      exact absurd hc List.not_mem_nil
    · intro i r hr
      rw [hrequests] at hr
      cases hr
  · intro log s a s' e hinv hkeeps hstep
    exact after_step hinv hset hkeeps hstep

/-- What the request shows as a first factor of the user: the password of an account of the email, or an open
login link. -/
def Shows (cfg : Config) (s : State) (input : Input) (user : UUID) : FirstFactor → Prop
  | .password => ∃ email password, (input = .webLogin email password ∨ ∃ code, input = .apiLogin email password code) ∧
      ∃ u ∈ s.users, u.id = user ∧ cfg.sameEmail u.email email = true ∧
        ∃ hash, u.passwordHash = some hash ∧ cfg.bcrypt hash password = true
  | .magicLink => ∃ token, (input = .webMagicLinkVerify token ∨ ∃ code, input = .apiMagicLinkVerify token code) ∧
      ∃ l ∈ s.magicLinks, l.tokenHash = cfg.sha256 token ∧ l.userID = user ∧ l.consumedAt = none ∧ l.purpose = "login"

theorem verifyPasswordAnyTenant_some {email password : String} {u : User}
    (h : verifyPasswordAnyTenant cfg s email password = some u) :
    u ∈ s.users ∧ cfg.sameEmail u.email email = true ∧
      ∃ hash, u.passwordHash = some hash ∧ cfg.bcrypt hash password = true := by
  have hmatch := List.find?_some h
  have hcandidate := List.mem_of_mem_take (List.mem_of_find?_eq_some h)
  rw [List.mem_insertionSort, List.mem_filter, Bool.and_eq_true] at hcandidate
  obtain ⟨hash, hhash, htest⟩ := (Option.any_eq_true _ _).mp hmatch
  rw [Bool.and_eq_true] at htest
  exact ⟨hcandidate.1, hcandidate.2.1, hash, hhash, htest.2⟩

theorem consumeMagicLink_some {clock : Clock} {token : String} {links : KeyedTable MagicLink.tokenHash} {u : UUID}
    (h : consumeMagicLink cfg s clock token = some (links, u)) :
    ∃ l ∈ s.magicLinks, l.tokenHash = cfg.sha256 token ∧ l.userID = u ∧ l.consumedAt = none ∧ l.purpose = "login" := by
  unfold consumeMagicLink at h
  split at h
  · cases h
  · next l hfind =>
      split at h
      · next hopen =>
          obtain ⟨-, rfl⟩ := Prod.mk.inj (Option.some.inj h)
          exact ⟨l, KeyedTable.find_mem hfind, KeyedTable.find_key hfind, rfl, hopen.1, hopen.2.2.1⟩
      · cases h

theorem event_cases (env : CallEnv) (e : Event) : env.event e = .went ∨ env.event e = e := by
  unfold CallEnv.event
  split
  · exact .inr rfl
  · exact .inl rfl

theorem stepStart_event (env : CallEnv) : (stepStart cfg s i r env).2 = .went ∨
    ∃ u kind, (stepStart cfg s i r env).2 = .firstFactor i u kind ∧ Shows cfg s r.input u kind := by
  have hpassword : ∀ email password,
      (r.input = .webLogin email password ∨ ∃ code, r.input = .apiLogin email password code) →
      (stepVerifyPassword cfg s i r env email password).2 = .went ∨
        ∃ u kind, (stepVerifyPassword cfg s i r env email password).2 = .firstFactor i u kind ∧
          Shows cfg s r.input u kind := by
    intro email password hinput
    unfold stepVerifyPassword
    split
    · exact .inl rfl
    · split
      · exact .inl rfl
      · split
        · exact .inl rfl
        · next u hu =>
            obtain ⟨hmem, hemail, hhash⟩ := verifyPasswordAnyTenant_some hu
            exact .inr ⟨u.id, .password, rfl, email, password, hinput, u, hmem, rfl, hemail, hhash⟩
  have hlink : ∀ token,
      (r.input = .webMagicLinkVerify token ∨ ∃ code, r.input = .apiMagicLinkVerify token code) →
      (stepConsumeMagicLink cfg s i r env token).2 = .went ∨
        ∃ u kind, (stepConsumeMagicLink cfg s i r env token).2 = .firstFactor i u kind ∧
          Shows cfg s r.input u kind := by
    intro token hinput
    unfold stepConsumeMagicLink
    split
    · exact .inl rfl
    · next hconsume =>
        split
        · exact .inr ⟨_, .magicLink, rfl, token, hinput, consumeMagicLink_some hconsume⟩
        · exact .inl rfl
  unfold stepStart
  split
  · next email password hinput =>
      split
      · exact .inl rfl
      · exact hpassword email password (.inl hinput)
  · next token hinput =>
      split
      · exact .inl rfl
      · exact hlink token (.inl hinput)
  · split_ifs <;> exact .inl rfl
  · next email password code hinput =>
      split
      · exact .inl rfl
      · exact hpassword email password (.inr ⟨code, hinput⟩)
  · next token code hinput =>
      split
      · exact .inl rfl
      · exact hlink token (.inr ⟨code, hinput⟩)
  · split_ifs <;> exact .inl rfl

theorem stepEnrolledTOTP_event (env : CallEnv) (u : UUID) (method : String) :
    (stepEnrolledTOTP s i r env u method).2 = .went := by
  unfold stepEnrolledTOTP
  split
  · rfl
  · split <;> rfl

theorem stepBeginTOTPLogin_event (env : CallEnv) (u : UUID) (method : String) :
    (stepBeginTOTPLogin cfg s i r env u method).2 = .went ∨
      ∃ hash, (stepBeginTOTPLogin cfg s i r env u method).2 = .challengeIssued i hash u := by
  unfold stepBeginTOTPLogin
  split
  · exact .inl rfl
  · dsimp only
    split
    · exact .inl rfl
    · split
      · exact .inl rfl
      · split
        · exact (event_cases env _).imp_right fun h => ⟨_, h⟩
        · exact .inl rfl

theorem stepAcceptTOTPLogin_event (env : CallEnv) (u : UUID) (secret' : String) :
    (stepAcceptTOTPLogin cfg s i r env u secret').2 = .went ∨
      ∃ step, (stepAcceptTOTPLogin cfg s i r env u secret').2 = .codeAccepted i u step none := by
  unfold stepAcceptTOTPLogin
  split
  · exact .inl rfl
  · exact .inl rfl
  · split
    · exact (event_cases env _).imp_right fun h => ⟨_, h⟩
    · exact .inl rfl

theorem stepFinishRead_event (env : CallEnv) (challenge : String) :
    (stepFinishRead cfg s i r env challenge).2 = .went := by
  unfold stepFinishRead
  split
  · rfl
  · split
    · rfl
    · split
      · split <;> rfl
      · rfl

theorem rejectCode_event (env : CallEnv) (challenge : String) : (rejectCode cfg s i r env challenge).2 = .went := by
  unfold rejectCode
  split <;> rfl

theorem stepFinishWrite_event (env : CallEnv) (challenge : String) (u : UUID) (secret' : Option String)
    (method : String) : (stepFinishWrite cfg s i r env challenge u secret' method).2 = .went ∨
      ∃ step carrier, (stepFinishWrite cfg s i r env challenge u secret' method).2 = .codeAccepted i u step carrier := by
  unfold stepFinishWrite
  split
  · exact .inl rfl
  · split
    · exact .inl rfl
    · exact .inl (rejectCode_event env challenge)
    · split
      · exact .inl (rejectCode_event env challenge)
      · split
        · exact .inl rfl
        · exact (event_cases env _).imp_right fun h => ⟨_, _, h⟩

theorem stepCreateSession_event (env : CallEnv) (u : UUID) (method : String) :
    (stepCreateSession s i r env u method).2 = .went ∨
      (stepCreateSession s i r env u method).2 = .sessionCreated i u method := by
  unfold stepCreateSession
  split
  · exact .inl rfl
  · exact event_cases env _

theorem stepIssueToken_event (env : CallEnv) (u : UUID) :
    (stepIssueToken s i r env u).2 = .went ∨ (stepIssueToken s i r env u).2 = .tokenIssued i u := by
  unfold stepIssueToken
  split
  · exact .inl rfl
  · exact event_cases env _

/-- The events of a request are its own: what each of its calls can leave in the log. -/
theorem stepRequest_event {env : CallEnv} {p : State × Event} (hp : stepRequest cfg s i r env = some p) :
    p.2 = .went ∨ (∃ u kind, p.2 = .firstFactor i u kind ∧ Shows cfg s r.input u kind) ∨
      (∃ hash u, p.2 = .challengeIssued i hash u) ∨ (∃ u step carrier, p.2 = .codeAccepted i u step carrier) ∨
      ∃ u method, (r.pc = .createSession u method ∧ p.2 = .sessionCreated i u method) ∨
        (r.pc = .issueToken u method ∧ p.2 = .tokenIssued i u) := by
  unfold stepRequest at hp
  split at hp <;> cases hp
  · exact (stepStart_event env).imp_right .inl
  · exact .inl (stepEnrolledTOTP_event env _ _)
  · exact (stepBeginTOTPLogin_event env _ _).imp_right fun ⟨hash, h⟩ => .inr (.inl ⟨hash, _, h⟩)
  · exact (stepAcceptTOTPLogin_event env _ _).imp_right fun ⟨step, h⟩ => .inr (.inr (.inl ⟨_, step, none, h⟩))
  · exact .inl (stepFinishRead_event env _)
  · exact (stepFinishWrite_event env _ _ _ _).imp_right fun ⟨step, carrier, h⟩ =>
      .inr (.inr (.inl ⟨_, step, carrier, h⟩))
  · next hpc =>
      exact (stepCreateSession_event env _ _).imp_right fun h => .inr (.inr (.inr ⟨_, _, .inl ⟨hpc, h⟩⟩))
  · next hpc =>
      exact (stepIssueToken_event env _).imp_right fun h => .inr (.inr (.inr ⟨_, _, .inr ⟨hpc, h⟩⟩))

/-- Only the creation of a session or of a token logs a user in, and only for its own request and user. -/
theorem grants_of_stepRequest {env : CallEnv} {p : State × Event} (hp : stepRequest cfg s i r env = some p)
    {j : Nat} (hgrants : p.2.grants = some (j, user)) :
    j = i ∧ ∃ method, r.pc = .createSession user method ∨ r.pc = .issueToken user method := by
  rcases stepRequest_event hp with h | ⟨u, kind, h, -⟩ | ⟨hash, u, h⟩ | ⟨u, step, carrier, h⟩ |
      ⟨u, method, ⟨hpc, h⟩ | ⟨hpc, h⟩⟩ <;> rw [h] at hgrants <;> cases hgrants
  · exact ⟨rfl, method, .inl hpc⟩
  · exact ⟨rfl, method, .inr hpc⟩

/-- A first factor of the log is one that the request has shown. -/
theorem firstFactor_shown {a : Action} {s' : State} {kind : FirstFactor}
    (hstep : step cfg s a = some (s', .firstFactor i user kind)) :
    ∃ r, s.requests[i]? = some r ∧ Shows cfg s r.input user kind := by
  cases a with
  | arrive | writeUsers => cases hstep
  | sendLink =>
      simp only [step] at hstep
      split at hstep <;> cases hstep
  | next j env =>
      obtain ⟨r, hr, hrequest⟩ := Option.bind_eq_some_iff.mp hstep
      rcases stepRequest_event hrequest with h | ⟨u, kind, h, hshows⟩ | ⟨hash, u, h⟩ | ⟨u, step, carrier, h⟩ |
          ⟨u, method, ⟨-, h⟩ | ⟨-, h⟩⟩ <;> cases h
      exact ⟨r, hr, hshows⟩

/-- Each first factor in the log of a run was shown by its request when it was logged. -/
def FirstFactorsShown (cfg : Config) (user : UUID) (s₀ : State) (log : List Event) (s : State) : Prop :=
  ∀ before req kind after, log = before ++ .firstFactor req user kind :: after → ∃ s₁ a s₂ r,
    (system cfg).RunIf (KeepsSecret user) s₀ before s₁ ∧
      (system cfg).step s₁ a = some (s₂, .firstFactor req user kind) ∧ (system cfg).Run s₂ after s ∧
      s₁.requests[req]? = some r ∧ Shows cfg s₁ r.input user kind

theorem firstFactorsShown_of_run {s₀ : State} (hrun : (system cfg).RunIf (KeepsSecret user) s₀ log s) :
    FirstFactorsShown cfg user s₀ log s := by
  intro before req kind after hlog
  rw [hlog] at hrun
  obtain ⟨s₁, a, s₂, hbefore, -, hstep, hafter⟩ := hrun.at_event
  obtain ⟨r, hr, hshows⟩ := firstFactor_shown hstep
  exact ⟨s₁, a, s₂, r, hbefore, hstep, hafter, hr, hshows⟩

/-- The second factor cannot be skipped. In every run of logins from empty tables in which the user's secret,
which is set, does not change, each step that creates a session or a token for the user belongs to a request
whose own code was accepted for the secret, at a step not accepted before, after a first factor of the user. -/
theorem secondFactor_not_skipped {s₀ s' : State} {a : Action} (hchallenges : s₀.challenges = ∅)
    (hrequests : s₀.requests = []) (hstored : totpSecretOf s₀.users user = some secret) (hset : secret ≠ "")
    (hrun : (system cfg).RunIf (KeepsSecret user) s₀ log s) (hstep : (system cfg).step s a = some (s', e))
    (hgrants : e.grants = some (i, user)) :
    (∃ r, s.requests[i]? = some r ∧ SecondFactor cfg user secret log i r.input.code) ∧
      FirstFactorsShown cfg user s₀ log s := by
  refine ⟨?_, firstFactorsShown_of_run hrun⟩
  have hinv := inv_of_run hchallenges hrequests hstored hset hrun
  have hstep' : step cfg s a = some (s', e) := hstep
  cases a with
  | arrive | writeUsers =>
      cases hstep'
      cases hgrants
  | sendLink =>
      simp only [step] at hstep'
      split at hstep' <;> cases hstep'
      cases hgrants
  | next j env =>
      obtain ⟨r, hr, hrequest⟩ := Option.bind_eq_some_iff.mp hstep'
      obtain ⟨rfl, method, hpc | hpc⟩ := grants_of_stepRequest hrequest hgrants
      · have hshown := hinv.requests i r hr
        rw [hpc] at hshown
        exact ⟨r, hr, hshown rfl⟩
      · have hshown := hinv.requests i r hr
        rw [hpc] at hshown
        exact ⟨r, hr, hshown rfl⟩

end invariant

/-- The functions the runs below call, on the values they are called with. -/
def loginCfg : Config where
  sha256 token :=
    if token = "AQEBAQEBAQEBAQEBAQEBAQEBAQEBAQEBAQEBAQEBAQE" then
      "56d5fa7333f6d747db42c239407e5da4c32f4c79f35d092b134fd35a402d9c5c"
    else ""
  totp :=
    { decodeKey := fun secret =>
        if secret = "JBSWY3DPEHPK3PXP" then some [72, 101, 108, 108, 111, 33, 222, 173, 190, 239] else none
      digits := fun _ counter =>
        if counter = 1 then "996554" else if counter = 2 then "602287" else if counter = 3 then "143627" else "" }
  bcrypt hash password := hash = "$2a$05$CCCCCCCCCCCCCCCCCCCCC.E5YPO9kmyuRGyh0XouQYb4YMJKvyOeW" && password = "U*U"
  sameEmail a b := a.toLower = b.toLower

/-- One user, with a password and a secret. -/
def loginState : State where
  users := ⟨[⟨7, acme, "u@acme.test", some "$2a$05$CCCCCCCCCCCCCCCCCCCCC.E5YPO9kmyuRGyh0XouQYb4YMJKvyOeW",
    some "JBSWY3DPEHPK3PXP", 0⟩], by decide⟩
  totpLastStep _ := none
  challenges := ∅
  magicLinks := ∅
  requests := []

def loginEnv : CallEnv where
  clock := ⟨seconds 60, seconds 60⟩
  allowed := true
  fresh := some freshToken
  commit := .acked

/-- A password login that is challenged, and the request that presents the challenge with its code. -/
def challengedLogin : List Action :=
  [.arrive (.webLogin "u@acme.test" "U*U"), .next 0 loginEnv, .next 0 loginEnv, .next 0 loginEnv,
    .arrive (.webTotpSubmit "AQEBAQEBAQEBAQEBAQEBAQEBAQEBAQEBAQEBAQEBAQE" "602287"), .next 1 loginEnv,
    .next 1 loginEnv, .next 1 loginEnv]

theorem challengedLogin_runs : (((system loginCfg).execIf (KeepsSecret 7) [] loginState challengedLogin).any fun p =>
    ((system loginCfg).step p.2 (.next 1 loginEnv)).any fun q => q.2.grants = some (1, 7)) = true := by
  decide +kernel

theorem challengedLogin_secondFactor : ∃ log s s' e, (system loginCfg).RunIf (KeepsSecret 7) loginState log s ∧
    (system loginCfg).step s (.next 1 loginEnv) = some (s', e) ∧ e.grants = some (1, 7) ∧
    ∃ r, s.requests[1]? = some r ∧ SecondFactor loginCfg 7 "JBSWY3DPEHPK3PXP" log 1 r.input.code := by
  obtain ⟨log, s, hrun, htest⟩ := Machine.exists_runIf_of_any challengedLogin_runs
  obtain ⟨⟨s', e⟩, hstep, hgrants⟩ := (Option.any_eq_true _ _).mp htest
  have hgrants : e.grants = some (1, 7) := by simpa using hgrants
  exact ⟨log, s, s', e, hrun, hstep, hgrants,
    (secondFactor_not_skipped rfl rfl (by decide +kernel) (by decide) hrun hstep hgrants).1⟩

end ThesadaApp.Login
