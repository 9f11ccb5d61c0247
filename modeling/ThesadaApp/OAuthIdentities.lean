import Mathlib.Data.List.Nodup
import ThesadaApp.Basic
import ThesadaApp.MachineRun

/-!
Sign-in through OIDC providers: the identities of `user_oauth_identities`, the callback that signs a user in by one or
links one, and the request that unlinks one. Every statement of a handler is a transaction of its own, so handlers run
between each other's statements. Who a provider says has signed in is an input.
-/

namespace ThesadaApp.OAuth

section tables

inductive ProviderKind where
  | oidc
  | oauth2
  deriving DecidableEq

/-- A row of `oauth_providers`. -/
structure Provider where
  id : UUID
  tenantID : Option Slug
  slug : String
  kind : ProviderKind
  issuerURL : String
  clientSecret : String
  enabled : Bool
  deriving DecidableEq

/-- What is read of a row of `users`. -/
structure User where
  id : UUID
  tenantID : Slug
  email : String
  passwordHash : Option String
  deriving DecidableEq

/-- The providers, in the order of their ids, and the users. Emails are CITEXT: they are compared folded. -/
structure Config where
  providers : List Provider
  users : List User
  fold : String → String
  providers_sorted : providers.Pairwise fun p q => p.id < q.id
  slug_unique : providers.Pairwise fun p q => (p.tenantID, p.slug) ≠ (q.tenantID, q.slug)
  users_unique : users.Pairwise fun u v => u.id ≠ v.id ∧ (u.tenantID, fold u.email) ≠ (v.tenantID, fold v.email)

def Config.provider (w : Config) (id : UUID) : Option Provider := w.providers.find? fun p => p.id = id

def Config.user (w : Config) (id : UUID) : Option User := w.users.find? fun u => u.id = id

/-- A row of `user_oauth_identities`. -/
structure Identity where
  id : Nat
  userID : UUID
  providerID : UUID
  subject : String
  email : Option String
  deriving DecidableEq

/-- The identities. Ids come from a counter: the database draws one that is not in use. -/
structure Identities (w : Config) where
  rows : List Identity
  nextID : Nat
  ids : (rows.map Identity.id).Nodup
  fresh : ∀ r ∈ rows, r.id < nextID
  unique : (rows.map fun r => (r.providerID, r.subject)).Nodup
  user_ref : ∀ r ∈ rows, ∃ u ∈ w.users, u.id = r.userID
  provider_ref : ∀ r ∈ rows, ∃ p ∈ w.providers, p.id = r.providerID

/-- What `Exchange` returns of a sign-in at the provider. -/
structure Claims where
  subject : String
  email : String
  emailVerified : Bool
  subject_ne : subject ≠ ""

/-- A row of `oauth_auth_requests`. -/
structure AuthRequest where
  state : String
  providerID : UUID
  linkingUserID : Option UUID
  expiresAt : Time
  deriving DecidableEq

end tables

section config

variable {w : Config}

theorem user_mem {id : UUID} {u : User} (h : w.user id = some u) : u ∈ w.users ∧ u.id = id :=
  ⟨List.mem_of_find?_eq_some h, by simpa using List.find?_some h⟩

theorem providers_inj {p q : Provider} (hp : p ∈ w.providers) (hq : q ∈ w.providers) (hid : p.id = q.id) : p = q :=
  List.inj_on_of_nodup_map (List.pairwise_map.mpr (w.providers_sorted.imp fun hlt => Nat.ne_of_lt hlt)) hp hq hid

theorem provider_eq {p : Provider} (hp : p ∈ w.providers) : w.provider p.id = some p := by
  cases hfind : w.provider p.id with
  | none => simpa using List.find?_eq_none.mp hfind p hp
  | some q =>
      have hid : q.id = p.id := by simpa using List.find?_some hfind
      rw [providers_inj (List.mem_of_find?_eq_some hfind) hp hid]

theorem users_inj {u v : User} (hu : u ∈ w.users) (hv : v ∈ w.users) (hid : u.id = v.id) : u = v :=
  List.inj_on_of_nodup_map (List.pairwise_map.mpr (w.users_unique.imp fun h => h.1)) hu hv hid

theorem user_eq {u : User} (hu : u ∈ w.users) : w.user u.id = some u := by
  cases hfind : w.user u.id with
  | none => simpa using List.find?_eq_none.mp hfind u hu
  | some v =>
      have hv := user_mem hfind
      rw [users_inj hv.1 hu hv.2]

end config

section statements

variable {w : Config}

def Provider.usable (p : Provider) : Bool := p.enabled && p.clientSecret ≠ ""

def loadProviderBySlug (w : Config) (slug : String) (tenantHint : Option Slug) : Option Provider :=
  w.providers.find? fun p => p.slug = slug && p.usable && (tenantHint.isNone || p.tenantID = tenantHint)

def loadProviderByID (w : Config) (id : UUID) : Option Provider :=
  w.providers.find? fun p => p.id = id && p.usable

/-- The identities of a user, joined with the providers that row-level security shows the user's tenant. -/
def listIdentitiesForUser (t : Identities w) (u : User) : List Identity :=
  t.rows.filter fun r => r.userID = u.id && (w.provider r.providerID).any fun p => p.tenantID = some u.tenantID

def hasPassword (u : User) : Bool := u.passwordHash.isSome

/-- Providers with the slug of that one. -/
def Config.sameSlug (w : Config) (providerID id : UUID) : Bool :=
  (w.provider providerID).any fun p => (w.provider id).any fun q => q.slug = p.slug

/-- The users that `FindUserByIdentity` selects from. -/
def identityUsers (t : Identities w) (providerID : UUID) (subject : String) : List User :=
  (t.rows.filter fun r => r.subject = subject && w.sameSlug providerID r.providerID).filterMap fun r => w.user r.userID

/-- LIMIT 1 without an order is any of them; `none` is `ErrNotFound`. -/
inductive FindUserByIdentity (t : Identities w) (providerID : UUID) (subject : String) : Option User → Prop
  | notFound (h : identityUsers t providerID subject = []) : FindUserByIdentity t providerID subject none
  | found (u : User) (h : u ∈ identityUsers t providerID subject) : FindUserByIdentity t providerID subject (some u)

def findUserByEmail (w : Config) (providerTenantID : Option Slug) (email : String) : Option User :=
  providerTenantID.bind fun tenantID => w.users.find? fun u => w.fold u.email = w.fold email && u.tenantID = tenantID

theorem not_mem_keys {t : Identities w} {providerID : UUID} {subject : String}
    (h : ∀ r ∈ t.rows, ¬ (r.providerID = providerID ∧ r.subject = subject)) :
    (providerID, subject) ∉ t.rows.map fun r => (r.providerID, r.subject) := by
  intro hmem
  obtain ⟨r, hr, heq⟩ := List.mem_map.mp hmem
  exact h r hr (Prod.mk.inj heq)

/-- INSERT of an identity, unless the pair of provider and subject is in the table or a reference is not. -/
def linkIdentity (t : Identities w) (userID providerID : UUID) (subject : String) (email : Option String) :
    Option (Identities w) :=
  if h : (∃ u ∈ w.users, u.id = userID) ∧ (∃ p ∈ w.providers, p.id = providerID) ∧
      ∀ r ∈ t.rows, ¬ (r.providerID = providerID ∧ r.subject = subject) then
    some {
      rows := t.rows ++ [⟨t.nextID, userID, providerID, subject, email⟩]
      nextID := t.nextID + 1
      ids := by
        rw [List.map_append, List.nodup_append]
        refine ⟨t.ids, List.nodup_singleton _, fun i hi j hj heq => ?_⟩
        obtain ⟨r, hr, rfl⟩ := List.mem_map.mp hi
        have hlt := t.fresh r hr
        rw [heq, List.mem_singleton.mp hj] at hlt
        exact Nat.lt_irrefl _ hlt
      fresh := by
        intro r hr
        rcases List.mem_append.mp hr with hold | hnew
        · exact Nat.lt_succ_of_lt (t.fresh r hold)
        · rw [List.mem_singleton.mp hnew]
          exact Nat.lt_succ_self _
      unique := by
        rw [List.map_append, List.nodup_append]
        refine ⟨t.unique, List.nodup_singleton _, fun i hi j hj heq => ?_⟩
        rw [List.mem_singleton.mp hj] at heq
        rw [heq] at hi
        exact not_mem_keys h.2.2 hi
      user_ref := by
        intro r hr
        rcases List.mem_append.mp hr with hold | hnew
        · exact t.user_ref r hold
        · rw [List.mem_singleton.mp hnew]
          exact h.1
      provider_ref := by
        intro r hr
        rcases List.mem_append.mp hr with hold | hnew
        · exact t.provider_ref r hold
        · rw [List.mem_singleton.mp hnew]
          exact h.2.1 }
  else none

theorem linkIdentity_rows {t t' : Identities w} {userID providerID : UUID} {subject : String} {email : Option String}
    (h : linkIdentity t userID providerID subject email = some t') :
    t'.rows = t.rows ++ [⟨t.nextID, userID, providerID, subject, email⟩] := by
  unfold linkIdentity at h
  split_ifs at h
  rw [← Option.some.inj h]

/-- UNIQUE (provider_id, subject): what is linked was not in the table. -/
theorem linkIdentity_unique {t t' : Identities w} {userID providerID : UUID} {subject : String} {email : Option String}
    (h : linkIdentity t userID providerID subject email = some t') :
    ∀ r ∈ t.rows, ¬ (r.providerID = providerID ∧ r.subject = subject) := by
  unfold linkIdentity at h
  split_ifs at h with hlinks
  exact hlinks.2.2

/-- DELETE of an identity, if it is one of the user's. -/
def deleteIdentity (t : Identities w) (userID : UUID) (id : Nat) : Identities w where
  rows := t.rows.filter fun r => !(r.id = id && r.userID = userID)
  nextID := t.nextID
  ids := t.ids.sublist (List.filter_sublist.map _)
  fresh r hr := t.fresh r (List.mem_of_mem_filter hr)
  unique := t.unique.sublist (List.filter_sublist.map _)
  user_ref r hr := t.user_ref r (List.mem_of_mem_filter hr)
  provider_ref r hr := t.provider_ref r (List.mem_of_mem_filter hr)

end statements

section handlers

/-- `AuthRequestTTL` -/
def authRequestTTL : Time := seconds 600

/-- `!hasPassword && len(identities) <= 1` -/
def lastCredential (u : User) (identities : List Identity) : Bool := !hasPassword u && identities.length ≤ 1

/-- The statement a handler is at. -/
inductive Stage where
  | exchange (p : Provider) (linking : Option UUID)
  /-- LinkIdentity for the session's user, or for the user whose email matches -/
  | link (p : Provider) (claims : Claims) (user : UUID) (auto : Bool)
  | find (p : Provider) (claims : Claims)
  | email (p : Provider) (claims : Claims)
  | list (u : User) (id : Nat)
  | password (u : User) (id : Nat) (identities : List Identity)
  | delete (u : User) (id : Nat) (identities : List Identity)
  /-- The response, and the user it starts a session for. -/
  | done (signedIn : Option UUID)

structure State (w : Config) where
  identities : Identities w
  requests : List AuthRequest
  handlers : Nat → Option Stage

def start {w : Config} (t : Identities w) : State w := ⟨t, [], fun _ => none⟩

inductive Action where
  /-- `handleOIDCStart`, with the session's user -/
  | start (session : Option UUID) (slug : String) (linking : Bool) (state : String) (now : Time)
  /-- `handleOIDCCallback`, up to the provider -/
  | callback (k : Nat) (state : String) (now : Time)
  | exchange (k : Nat) (claims : Claims)
  /-- FindUserByIdentity, with the row that LIMIT leaves -/
  | find (k : Nat) (pick : Nat)
  /-- `handleIdentityUnlink` of the session's user -/
  | unlink (k : Nat) (session : UUID) (id : Nat)
  | next (k : Nat)
  /-- An error, and a response that says so. -/
  | fail (k : Nat)

variable {w : Config}

def State.put (s : State w) (k : Nat) (stage : Stage) : State w :=
  { s with handlers := Function.update s.handlers k (some stage) }

def State.setIdentities (s : State w) (t : Identities w) : State w := { s with identities := t }

/-- The requests once a flow has started, with the one of the flow unless it is refused. -/
def handleOIDCStart (w : Config) (requests : List AuthRequest) (session : Option UUID) (slug : String) (linking : Bool)
    (state : String) (now : Time) : List AuthRequest :=
  let u := session.bind w.user
  match (loadProviderBySlug w slug (u.map User.tenantID)).filter fun p => p.kind = .oidc with
  | none => requests
  | some p =>
      if linking && u.isNone then requests
      else
        let requests := requests.filter fun r => now ≤ r.expiresAt
        if (requests.any fun r => r.state = state) then requests
        else requests ++ [⟨state, p.id, if linking then u.map User.id else none, now + authRequestTTL⟩]

/-- The request of a state, taken out of the table. -/
def lookupState (requests : List AuthRequest) (state : String) (now : Time) : Option AuthRequest × List AuthRequest :=
  ((requests.find? fun r => r.state = state).filter fun r => now ≤ r.expiresAt,
    requests.filter fun r => r.state ≠ state)

/-- How the callback goes on with a request. -/
def handleOIDCCallback (w : Config) (pending : Option AuthRequest) : Stage :=
  match pending with
  | none => .done none
  | some r =>
      match (loadProviderByID w r.providerID).filter fun p => p.kind = .oidc with
      | none => .done none
      | some p => .exchange p r.linkingUserID

/-- The email that is stored with an identity. -/
def Claims.emailArg (c : Claims) : Option String := if c.email = "" then none else some c.email

/-- A user that an email match has linked is signed in. -/
def link (s : State w) (k : Nat) (p : Provider) (claims : Claims) (user : UUID) (auto : Bool) : State w :=
  match linkIdentity s.identities user p.id claims.subject claims.emailArg with
  | none => s.put k (.done none)
  | some t => (s.setIdentities t).put k (.done (if auto then some user else none))

def stepHandler (s : State w) (k : Nat) : Stage → Option (State w)
  | .link p claims user auto => some (link s k p claims user auto)
  | .email p claims =>
      some (match findUserByEmail w p.tenantID claims.email with
        | none => s.put k (.done none)
        | some u => s.put k (.link p claims u.id true))
  | .list u id => some (s.put k (.password u id (listIdentitiesForUser s.identities u)))
  | .password u id identities =>
      some (if lastCredential u identities then s.put k (.done none) else s.put k (.delete u id identities))
  | .delete u id _ => some ((s.setIdentities (deleteIdentity s.identities u.id id)).put k (.done none))
  | .exchange .. | .find .. | .done _ => none

def step (s : State w) : Action → Option (State w)
  | .start session slug linking state now =>
      some { s with requests := handleOIDCStart w s.requests session slug linking state now }
  | .callback k state now =>
      if s.handlers k = none then
        some ({ s with requests := (lookupState s.requests state now).2 }.put k
          (handleOIDCCallback w (lookupState s.requests state now).1))
      else none
  | .exchange k claims => (s.handlers k).bind fun
      | .exchange p linking => some (match linking with
          | some user => s.put k (.link p claims user false)
          | none => s.put k (.find p claims))
      | _ => none
  | .find k pick => (s.handlers k).bind fun
      | .find p claims =>
          match identityUsers s.identities p.id claims.subject with
          | [] =>
              some (if claims.email ≠ "" && claims.emailVerified then s.put k (.email p claims)
                else s.put k (.done none))
          | users => (users[pick]?).map fun u => s.put k (.done (some u.id))
      | _ => none
  | .unlink k session id =>
      if s.handlers k = none then (w.user session).map fun u => s.put k (.list u id) else none
  | .next k => (s.handlers k).bind (stepHandler s k)
  | .fail k => (s.handlers k).map fun _ => s.put k (.done none)

def system (w : Config) : Machine (State w) Action Unit where
  step s a := (step s a).map fun s' => (s', ())

/-- What a step does to the identities: it links one, unlinks one or leaves them. -/
theorem step_identities {s s' : State w} {a : Action} (h : step s a = some s') :
    s'.identities = s.identities ∨
    (∃ k p claims user auto, a = .next k ∧ s.handlers k = some (.link p claims user auto) ∧
      linkIdentity s.identities user p.id claims.subject claims.emailArg = some s'.identities) ∨
    ∃ k u id listed, a = .next k ∧ s.handlers k = some (.delete u id listed) ∧
      s'.identities = deleteIdentity s.identities u.id id := by
  cases a with
  | start session slug linking state now =>
      obtain rfl := Option.some.inj h
      exact .inl rfl
  | callback k state now =>
      simp only [step, Option.ite_none_right_eq_some, Option.some.injEq] at h
      rw [← h.2]
      exact .inl rfl
  | exchange k claims =>
      obtain ⟨stage, -, hstep⟩ := Option.bind_eq_some_iff.mp h
      split at hstep
      · obtain rfl := Option.some.inj hstep
        split
        · exact .inl rfl
        · exact .inl rfl
      · cases hstep
  | find k pick =>
      obtain ⟨stage, -, hstep⟩ := Option.bind_eq_some_iff.mp h
      split at hstep
      · split at hstep
        · obtain rfl := Option.some.inj hstep
          split_ifs
          · exact .inl rfl
          · exact .inl rfl
        · obtain ⟨u, -, rfl⟩ := Option.map_eq_some_iff.mp hstep
          exact .inl rfl
      · cases hstep
  | unlink k session id =>
      simp only [step, Option.ite_none_right_eq_some] at h
      obtain ⟨u, -, rfl⟩ := Option.map_eq_some_iff.mp h.2
      exact .inl rfl
  | next k =>
      obtain ⟨stage, hstage, hstep⟩ := Option.bind_eq_some_iff.mp h
      cases stage with
      | link p claims user auto =>
          obtain rfl := Option.some.inj hstep
          cases hlink : linkIdentity s.identities user p.id claims.subject claims.emailArg with
          | none =>
              refine .inl ?_
              simp only [link, hlink]
              rfl
          | some t =>
              refine .inr (.inl ⟨k, p, claims, user, auto, rfl, hstage, ?_⟩)
              simp only [link, hlink]
              rfl
      | delete u id listed =>
          obtain rfl := Option.some.inj hstep
          exact .inr (.inr ⟨k, u, id, listed, rfl, hstage, rfl⟩)
      | email p claims =>
          obtain rfl := Option.some.inj hstep
          split
          · exact .inl rfl
          · exact .inl rfl
      | list u id =>
          obtain rfl := Option.some.inj hstep
          exact .inl rfl
      | password u id identities =>
          obtain rfl := Option.some.inj hstep
          split_ifs
          · exact .inl rfl
          · exact .inl rfl
      | exchange p linking => cases hstep
      | find p claims => cases hstep
      | done signedIn => cases hstep
  | fail k =>
      obtain ⟨stage, -, rfl⟩ := Option.map_eq_some_iff.mp h
      exact .inl rfl

/-- A handler works on rows of the configuration, and has passed the check when it is at its DELETE. -/
def Stage.Ok (w : Config) : Stage → Prop
  | .exchange p _ | .link p .. | .find p _ | .email p _ => p ∈ w.providers
  | .list u _ | .password u .. => u ∈ w.users
  | .delete u _ identities => u ∈ w.users ∧ lastCredential u identities = false
  | .done _ => True

theorem callback_ok (pending : Option AuthRequest) : (handleOIDCCallback w pending).Ok w := by
  unfold handleOIDCCallback
  split
  · trivial
  · split
    · trivial
    · next p hp => exact List.mem_of_find?_eq_some (Option.filter_eq_some_iff.mp hp).1

/-- The next stage of a handler is one of these too. -/
theorem step_ok {s s' : State w} {a : Action} (h : step s a = some s')
    (hok : ∀ k stage, s.handlers k = some stage → stage.Ok w)
    (k : Nat) (stage : Stage) (hstage : s'.handlers k = some stage) : stage.Ok w := by
  have hput : ∀ {t : State w} {j : Nat} {new : Stage}, s' = t.put j new → t.handlers = s.handlers → new.Ok w →
      stage.Ok w := by
    rintro t j new rfl ht hnew
    replace hstage : Function.update s.handlers j (some new) k = some stage := by
      rw [← ht]
      exact hstage
    by_cases hk : k = j
    · rw [hk, Function.update_self] at hstage
      rwa [← Option.some.inj hstage]
    · rw [Function.update_of_ne hk] at hstage
      exact hok k stage hstage
  cases a with
  | start session slug linking state now =>
      obtain rfl := Option.some.inj h
      exact hok k stage hstage
  | callback j state now =>
      simp only [step, Option.ite_none_right_eq_some, Option.some.injEq] at h
      exact hput h.2.symm rfl (callback_ok _)
  | exchange j claims =>
      obtain ⟨old, hold, hstep⟩ := Option.bind_eq_some_iff.mp h
      have hmem := hok j old hold
      split at hstep
      · obtain heq := Option.some.inj hstep
        split at heq
        · exact hput heq.symm rfl hmem
        · exact hput heq.symm rfl hmem
      · cases hstep
  | find j pick =>
      obtain ⟨old, hold, hstep⟩ := Option.bind_eq_some_iff.mp h
      have hmem := hok j old hold
      split at hstep
      · split at hstep
        · have heq := Option.some.inj hstep
          split_ifs at heq
          · exact hput heq.symm rfl hmem
          · exact hput heq.symm rfl trivial
        · obtain ⟨u, -, heq⟩ := Option.map_eq_some_iff.mp hstep
          exact hput heq.symm rfl trivial
      · cases hstep
  | unlink j session id =>
      simp only [step, Option.ite_none_right_eq_some] at h
      obtain ⟨u, hu, heq⟩ := Option.map_eq_some_iff.mp h.2
      exact hput heq.symm rfl (user_mem hu).1
  | next j =>
      obtain ⟨old, hold, hstep⟩ := Option.bind_eq_some_iff.mp h
      have hmem := hok j old hold
      cases old with
      | link p claims user auto =>
          have heq := Option.some.inj hstep
          unfold link at heq
          split at heq
          · exact hput heq.symm rfl trivial
          · exact hput heq.symm rfl trivial
      | delete u id listed =>
          exact hput (Option.some.inj hstep).symm rfl trivial
      | email p claims =>
          have heq := Option.some.inj hstep
          split at heq
          · exact hput heq.symm rfl trivial
          · exact hput heq.symm rfl hmem
      | list u id => exact hput (Option.some.inj hstep).symm rfl hmem
      | password u id listed =>
          have heq := Option.some.inj hstep
          split_ifs at heq with hlast
          · exact hput heq.symm rfl trivial
          · exact hput heq.symm rfl ⟨hmem, Bool.eq_false_iff.mpr hlast⟩
      | exchange p linking => cases hstep
      | find p claims => cases hstep
      | done signedIn => cases hstep
  | fail j =>
      obtain ⟨old, -, heq⟩ := Option.map_eq_some_iff.mp h
      exact hput heq.symm rfl trivial

variable {ok : List Unit → State w → Action → Prop} {log : List Unit} {s s' : State w} {t : Identities w} {a : Action}
  {e : Unit}

theorem step_of_system (h : (system w).step s a = some (s', e)) : step s a = some s' := by
  obtain ⟨s₁, hs₁, heq⟩ := Option.map_eq_some_iff.mp h
  rw [hs₁, (Prod.mk.inj heq).1]

theorem stages_ok (hrun : (system w).RunIf ok (start t) log s) (k : Nat) (stage : Stage)
    (hstage : s.handlers k = some stage) : stage.Ok w := by
  refine hrun.invariant (fun _ s => ∀ k stage, s.handlers k = some stage → stage.Ok w) (fun _ _ hnone => ?_)
    (fun log s a s' e hok _ hstep => step_ok (step_of_system hstep) hok) k stage hstage
  cases hnone

end handlers

end ThesadaApp.OAuth
