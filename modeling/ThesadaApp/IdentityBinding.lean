import ThesadaApp.OAuthIdentities

/-!
Whose an external identity is. The table keeps a pair of provider row and subject for one user; the lookup goes by the
slug of the provider, which every tenant chooses for itself. Both agree on the issuer as long as slugs and issuers do
where an identity is linked, and nobody links one that another user has linked at another provider of the issuer.
-/

namespace ThesadaApp.OAuth

variable {w : Config}

/-- The user has linked the subject at some provider of the issuer. -/
def Linked (t : Identities w) (issuer subject : String) (userID : UUID) : Prop :=
  ∃ r ∈ t.rows, ∃ p ∈ w.providers, p.id = r.providerID ∧ p.issuerURL = issuer ∧ r.subject = subject ∧ r.userID = userID

/-- An identity of an issuer is one user's, and that user is who the lookup finds. -/
structure Bound (t : Identities w) : Prop where
  one_user : ∀ issuer subject u v, Linked t issuer subject u → Linked t issuer subject v → u = v
  lookup : ∀ p ∈ w.providers, ∀ subject found, FindUserByIdentity t p.id subject found →
    ∀ u ∈ w.users, found = some u ↔ Linked t p.issuerURL subject u.id

/-- The providers with the slug of this one are those of its issuer. -/
def SlugIsIssuer (w : Config) (p : Provider) : Prop := ∀ q ∈ w.providers, q.slug = p.slug ↔ q.issuerURL = p.issuerURL

/-- The slug of the provider stands for its issuer, and no other user has linked the subject at another provider of that
issuer. Of the provider itself the table keeps a subject once. -/
def Stage.Unambiguous (t : Identities w) : Stage → Prop
  | .link p claims user _ => SlugIsIssuer w p ∧ ∀ r ∈ t.rows, ∀ q ∈ w.providers,
      q.id = r.providerID → q.id ≠ p.id → q.issuerURL = p.issuerURL → r.subject = claims.subject → r.userID = user
  | _ => True

def Unambiguous (s : State w) : Action → Prop
  | .next k => ∀ stage ∈ s.handlers k, stage.Unambiguous s.identities
  | _ => True

instance (t : Identities w) : DecidablePred (Stage.Unambiguous t)
  | .link p claims user _ => inferInstanceAs (Decidable
      ((∀ q ∈ w.providers, q.slug = p.slug ↔ q.issuerURL = p.issuerURL) ∧ ∀ r ∈ t.rows, ∀ q ∈ w.providers,
        q.id = r.providerID → q.id ≠ p.id → q.issuerURL = p.issuerURL → r.subject = claims.subject → r.userID = user))
  | .exchange .. | .find .. | .email .. | .list .. | .password .. | .delete .. | .done _ => isTrue trivial

instance (s : State w) : DecidablePred (Unambiguous s)
  | .next k => inferInstanceAs (Decidable (∀ stage ∈ s.handlers k, stage.Unambiguous s.identities))
  | .start .. | .callback .. | .exchange .. | .find .. | .unlink .. | .fail _ => isTrue trivial

section binding

variable {t t' : Identities w} {p : Provider} {userID : UUID} {subject issuer : String} {email : Option String}

/-- What the lookup selects: identities with the subject at a provider with the slug. -/
theorem mem_identityUsers (hp : p ∈ w.providers) {u : User} (hu : u ∈ w.users) : u ∈ identityUsers t p.id subject ↔
    ∃ r ∈ t.rows, ∃ q ∈ w.providers, q.id = r.providerID ∧ q.slug = p.slug ∧ r.subject = subject ∧ r.userID = u.id := by
  simp only [identityUsers, List.mem_filterMap, List.mem_filter, Bool.and_eq_true, decide_eq_true_eq, Config.sameSlug,
    provider_eq hp, Option.any_some]
  constructor
  · rintro ⟨r, ⟨hr, hsubject, hslug⟩, huser⟩
    obtain ⟨q, hq, hqslug⟩ := (Option.any_eq_true _ _).mp hslug
    exact ⟨r, hr, q, List.mem_of_find?_eq_some hq, by simpa using List.find?_some hq, of_decide_eq_true hqslug,
      hsubject,
      (user_mem huser).2.symm⟩
  · rintro ⟨r, hr, q, hq, hid, hslug, hsubject, huser⟩
    refine ⟨r, ⟨hr, hsubject, ?_⟩, ?_⟩
    · rw [← hid, provider_eq hq, Option.any_some]
      exact decide_eq_true hslug
    · rw [huser]
      exact user_eq hu

/-- The table as the runs keep it: where an identity is linked, slug and issuer mean the same. -/
structure Consistent (t : Identities w) : Prop where
  one_user : ∀ issuer subject u v, Linked t issuer subject u → Linked t issuer subject v → u = v
  slugs : ∀ r ∈ t.rows, ∀ p ∈ w.providers, p.id = r.providerID → SlugIsIssuer w p

/-- Then the lookup by slug is a lookup by issuer. -/
theorem Consistent.lookup (h : Consistent t) (hp : p ∈ w.providers) {u : User} (hu : u ∈ w.users) :
    u ∈ identityUsers t p.id subject ↔ Linked t p.issuerURL subject u.id := by
  rw [mem_identityUsers hp hu]
  constructor
  · rintro ⟨r, hr, q, hq, hid, hslug, hrest⟩
    exact ⟨r, hr, q, hq, hid, ((h.slugs r hr q hq hid p hp).mp hslug.symm).symm, hrest⟩
  · rintro ⟨r, hr, q, hq, hid, hissuer, hrest⟩
    exact ⟨r, hr, q, hq, hid, ((h.slugs r hr q hq hid p hp).mpr hissuer.symm).symm, hrest⟩

theorem Consistent.bound (h : Consistent t) : Bound t := by
  refine ⟨h.one_user, fun p hp subject found hfound u hu => ?_⟩
  rw [← h.lookup hp hu]
  cases hfound with
  | notFound hnone =>
      rw [hnone]
      exact iff_of_false (by simp) List.not_mem_nil
  | found v hv =>
      obtain ⟨r, -, huser⟩ := List.mem_filterMap.mp hv
      have hvmem := (user_mem huser).1
      constructor
      · intro heq
        rwa [← Option.some.inj heq]
      · intro hmem
        have hid := h.one_user _ _ _ _ ((h.lookup hp hvmem).mp hv) ((h.lookup hp hu).mp hmem)
        rw [users_inj hvmem hu hid]

theorem consistent_of_subset (h : Consistent t) (hsub : ∀ r ∈ t'.rows, r ∈ t.rows) : Consistent t' := by
  have hlinked : ∀ issuer subject u, Linked t' issuer subject u → Linked t issuer subject u := by
    rintro issuer subject u ⟨r, hr, hrest⟩
    exact ⟨r, hsub r hr, hrest⟩
  refine ⟨fun issuer subject u v hu hv => ?_, fun r hr => h.slugs r (hsub r hr)⟩
  exact h.one_user issuer subject u v (hlinked _ _ _ hu) (hlinked _ _ _ hv)

/-- A link keeps it consistent if it is unambiguous. -/
theorem Consistent.link (h : Consistent t) (hp : p ∈ w.providers) {claims : Claims} {auto : Bool}
    (hclear : (Stage.link p claims userID auto).Unambiguous t)
    (hlink : linkIdentity t userID p.id claims.subject email = some t') : Consistent t' := by
  have hrows := linkIdentity_rows hlink
  have hlinked : ∀ issuer subject v, Linked t' issuer subject v →
      Linked t issuer subject v ∨ issuer = p.issuerURL ∧ subject = claims.subject ∧ v = userID := by
    rintro issuer subject v ⟨r, hr, q, hq, hid, hissuer, hsubject, huser⟩
    rw [hrows] at hr
    rcases List.mem_append.mp hr with hold | hnew
    · exact .inl ⟨r, hold, q, hq, hid, hissuer, hsubject, huser⟩
    · rw [List.mem_singleton.mp hnew] at hid hsubject huser
      obtain rfl := providers_inj hq hp hid
      exact .inr ⟨hissuer.symm, hsubject.symm, huser.symm⟩
  have hold : ∀ v, Linked t p.issuerURL claims.subject v → v = userID := by
    rintro v ⟨r, hr, q, hq, hid, hissuer, hsubject, rfl⟩
    have hother : q.id ≠ p.id := fun heq => linkIdentity_unique hlink r hr ⟨hid.symm.trans heq, hsubject⟩
    exact hclear.2 r hr q hq hid hother hissuer hsubject
  refine ⟨fun issuer subject u v hu hv => ?_, fun r hr q hq hid => ?_⟩
  · rcases hlinked _ _ _ hu with hu | ⟨rfl, rfl, rfl⟩
    · rcases hlinked _ _ _ hv with hv | ⟨rfl, rfl, rfl⟩
      · exact h.one_user _ _ _ _ hu hv
      · exact hold u hu
    · rcases hlinked _ _ _ hv with hv | ⟨-, -, rfl⟩
      · exact (hold v hv).symm
      · rfl
  · rw [hrows] at hr
    rcases List.mem_append.mp hr with hr | hnew
    · exact h.slugs r hr q hq hid
    · rw [List.mem_singleton.mp hnew] at hid
      rw [providers_inj hq hp hid]
      exact hclear.1

end binding

section runs

variable {s s' : State w} {a : Action} {log : List Unit}

/-- No identity is linked yet. -/
def noIdentities (w : Config) : Identities w where
  rows := []
  nextID := 0
  ids := List.nodup_nil
  fresh _ h := absurd h List.not_mem_nil
  unique := List.nodup_nil
  user_ref _ h := absurd h List.not_mem_nil
  provider_ref _ h := absurd h List.not_mem_nil

theorem consistent_noIdentities : Consistent (noIdentities w) :=
  ⟨fun _ _ _ _ hu => by obtain ⟨r, hr, -⟩ := hu; exact absurd hr List.not_mem_nil,
    fun _ hr => absurd hr List.not_mem_nil⟩

theorem consistent_step (hok : ∀ k stage, s.handlers k = some stage → stage.Ok w) (hclear : Unambiguous s a)
    (h : Consistent s.identities) (hstep : step s a = some s') : Consistent s'.identities := by
  rcases step_identities hstep with hsame | ⟨k, p, claims, user, auto, rfl, hstage, hlink⟩ | ⟨k, u, id, listed, rfl, -,
    hdelete⟩
  · rw [hsame]
    exact h
  · exact h.link (hok k _ hstage) (hclear _ hstage) hlink
  · refine consistent_of_subset h fun r hr => ?_
    rw [hdelete] at hr
    exact List.mem_of_mem_filter hr

/-- In every run whose links are unambiguous. -/
theorem bound_run (hrun : (system w).RunIf (fun _ => Unambiguous) (start (noIdentities w)) log s) :
    Bound s.identities := by
  refine Consistent.bound ?_
  refine hrun.invariant_along (fun _ s => Consistent s.identities) consistent_noIdentities
    fun log s a s' e hsofar h hclear hstep => ?_
  exact consistent_step (stages_ok hsofar) hclear h (step_of_system hstep)

end runs

section collision

theorem acme_ne_beta : acme ≠ beta := by decide

/-- Two tenants with a provider each, of one slug; alice is a user of the first. -/
def twoTenants (issuer : String) : Config where
  providers := [⟨1, some acme, "sso", .oidc, "https://idp.acme.test", "s1", true⟩,
    ⟨2, some beta, "sso", .oidc, issuer, "s2", true⟩]
  users := [⟨10, acme, "alice@acme.test", none⟩]
  fold := id
  providers_sorted := by simp
  slug_unique := by simp [acme_ne_beta]
  users_unique := by decide

def signedInAs (subject : String) (h : subject ≠ "") : Claims := ⟨subject, "", false, h⟩

/-- Alice links the subject that her tenant's provider gives her. -/
def linksSubject : List Action :=
  [.start (some 10) "sso" true "state" 0, .callback 0 "state" 1, .exchange 0 (signedInAs "7" (by decide)), .next 0]

/-- The other tenant's provider signs somebody in as subject 7: the lookup finds alice, who has no account there. -/
theorem not_bound_otherIssuer : ∃ log s, (system (twoTenants "https://idp.beta.test")).Run
    (start (noIdentities (twoTenants "https://idp.beta.test"))) log s ∧ ¬ Bound s.identities := by
  have hexec : ((system (twoTenants "https://idp.beta.test")).execIf (fun _ _ _ => True) []
      (start (noIdentities (twoTenants "https://idp.beta.test"))) linksSubject).any
      (fun out => out.2.identities.rows = [⟨0, 10, 1, "7", none⟩]) = true := by decide +kernel
  obtain ⟨log, s, hrun, hrows⟩ := Machine.exists_runIf_of_any hexec
  replace hrows : s.identities.rows = [⟨0, 10, 1, "7", none⟩] := of_decide_eq_true hrows
  refine ⟨log, s, hrun, fun hbound => ?_⟩
  let beta : Provider := ⟨2, some beta, "sso", .oidc, "https://idp.beta.test", "s2", true⟩
  let alice : User := ⟨10, acme, "alice@acme.test", none⟩
  have hbeta : beta ∈ (twoTenants "https://idp.beta.test").providers := List.mem_cons_of_mem _ List.mem_cons_self
  have halice : alice ∈ (twoTenants "https://idp.beta.test").users := List.mem_cons_self
  have hfound : FindUserByIdentity s.identities beta.id "7" (some alice) := by
    refine .found alice ((mem_identityUsers hbeta halice).mpr ⟨⟨0, 10, 1, "7", none⟩, ?_,
      ⟨1, some acme, "sso", .oidc, "https://idp.acme.test", "s1", true⟩, List.mem_cons_self, rfl, rfl, rfl, rfl⟩)
    rw [hrows]
    exact List.mem_cons_self
  obtain ⟨r, hr, p, hp, hid, hissuer, -, -⟩ := (hbound.lookup beta hbeta "7" (some alice) hfound alice halice).mp rfl
  rw [hrows] at hr
  obtain rfl := List.mem_singleton.mp hr
  simp only [twoTenants, List.mem_cons, List.not_mem_nil, or_false] at hp
  rcases hp with rfl | rfl
  · exact absurd hissuer (by decide)
  · exact absurd hid (by decide)

/-- Where both providers are of one issuer, the lookup by slug is the one by issuer. -/
theorem bound_sameIssuer : ∃ log s, (system (twoTenants "https://idp.acme.test")).RunIf (fun _ => Unambiguous)
    (start (noIdentities (twoTenants "https://idp.acme.test"))) log s ∧
    s.identities.rows = [⟨0, 10, 1, "7", none⟩] ∧ Bound s.identities := by
  have hexec : ((system (twoTenants "https://idp.acme.test")).execIf (fun _ => Unambiguous) []
      (start (noIdentities (twoTenants "https://idp.acme.test"))) linksSubject).any
      (fun out => out.2.identities.rows = [⟨0, 10, 1, "7", none⟩]) = true := by decide +kernel
  obtain ⟨log, s, hrun, hrows⟩ := Machine.exists_runIf_of_any hexec
  exact ⟨log, s, hrun, of_decide_eq_true hrows, bound_run hrun⟩

end collision

end ThesadaApp.OAuth
