import Mathlib.Data.List.Perm.Basic
import ThesadaApp.OidcFlow

/-!
A flow ends in the browser that started it. The claims that a callback goes on with are those of a
sign-in at the provider's issuer for the authorize URL of a request that the same browser started at
most ten minutes before, whose cookie was the last one it had received; a request that links an
identity names the user of that browser's session at the start. No request is accepted twice, whoever
sends the callbacks and in whatever order the answers arrive.
-/

namespace ThesadaApp.OidcFlow

open OAuth (Provider User Config Claims loadProviderBySlug loadProviderByID authRequestTTL)

variable {w : Config} {sha256 : List UInt8 → List UInt8} {s s' : Sys} {log pre post : List Event}
  {b : Nat} {row : AuthRow} {p : Provider} {c : Code}

section log

def Event.startedState : Event → Option String
  | .started _ _ _ _ _ row => some row.state
  | _ => none

def Event.consumedState : Event → Option String
  | .consumed _ row _ => some row.state
  | _ => none

def Event.acceptedState : Event → Option String
  | .accepted _ row _ _ => some row.state
  | _ => none

/-- `rand.Read` does not draw a state twice. -/
def Fresh (log : List Event) (_ : Sys) : Action → Prop
  | .start _ _ _ _ draw _ => rawURLEncode draw.state ∉ log.filterMap Event.startedState
  | _ => True

instance (log : List Event) (s : Sys) : DecidablePred (Fresh log s)
  | .start _ _ _ _ draw _ => inferInstanceAs (Decidable (rawURLEncode draw.state ∉ log.filterMap _))
  | .session .. | .deliver _ | .forget _ | .authorize _ | .callback .. | .exchange _ | .tick _ =>
      isTrue trivial

end log

section steps

/-- A step that adds nothing to what the app, the browsers and the providers hold. -/
structure Quiet (s s' : Sys) : Prop where
  rows : ∀ row ∈ s'.rows, row ∈ s.rows
  jar : ∀ b v, s'.jar b = some v → s.jar b = some v
  answers : ∀ b v, (b, some v) ∈ s'.answers → (b, some v) ∈ s.answers
  codes : ∀ c ∈ s'.codes, c ∈ s.codes
  handlers : s'.handlers.Sublist s.handlers

theorem Quiet.refl (s : Sys) : Quiet s s :=
  ⟨fun _ h => h, fun _ _ h => h, fun _ _ h => h, fun _ h => h, .refl _⟩

/-- What a step can do. -/
inductive Does (w : Config) (sha256 : List UInt8 → List UInt8) (s : Sys) : Action → Sys → Event → Prop
  | quiet {a : Action} {s' : Sys} (h : Quiet s s') : Does w sha256 s a s' .other
  | start {b slug linking rt draw s'} (p : Provider)
      (hp : loadProviderBySlug w slug ((s.user b).map User.tenantID) = some p)
      (hlinking : linking = true → s.user b ≠ none)
      (hrows : ∀ row ∈ s'.rows, row ∈ s.rows ∨ row = newRow p (s.user b) linking rt draw s.now)
      (hanswers : s'.answers = s.answers ++ [(b, some (rawURLEncode draw.state))])
      (hjar : s'.jar = s.jar) (hcodes : s'.codes = s.codes) (hhandlers : s'.handlers = s.handlers) :
      Does w sha256 s (.start b slug linking rt draw true) s'
        (.started b (s.user b) slug linking s.now (newRow p (s.user b) linking rt draw s.now))
  | deliver {i b cookie s'} (hmem : (b, cookie) ∈ s.answers)
      (hanswers : ∀ x ∈ s'.answers, x ∈ s.answers) (hjar : s'.jar = Function.update s.jar b cookie)
      (hrows : s'.rows = s.rows) (hcodes : s'.codes = s.codes) (hhandlers : s'.handlers = s.handlers) :
      Does w sha256 s (.deliver i) s' (.stored b cookie)
  | authorize {c : Code} : Does w sha256 s (.authorize c) { s with codes := s.codes ++ [c] } (.authorized c)
  | callback {b slug code row reachable s'} (hjar : s.jar b = some row.state) (hrow : row ∈ s.rows)
      (hfresh : s.now ≤ row.expiresAt) (hrows : s'.rows = s.rows.deleteWhere fun r => r.state = row.state)
      (hanswers : s'.answers = s.answers ++ [(b, none)]) (hsame : s'.jar = s.jar) (hcodes : s'.codes = s.codes)
      (hhandlers : s'.handlers = s.handlers ∨ ∃ p, loadProviderByID w row.providerID = some p ∧
        p.kind = .oidc ∧ s'.handlers = s.handlers ++ [⟨b, row, p, code⟩]) :
      Does w sha256 s (.callback b slug code row.state reachable) s' (.consumed b row s.now)
  | exchange {i : Nat} {h : Handler} {c : Code} {s'} (hi : s.handlers[i]? = some h) (hc : c ∈ s.codes)
      (hissuer : c.issuerURL = h.p.issuerURL) (hcode : c.code = h.code)
      (hchallenge : c.challenge = pkceChallenge sha256 h.row.pkceVerifier)
      (hnonce : c.nonce = h.row.nonce) (hcodes : ∀ x ∈ s'.codes, x ∈ s.codes)
      (hhandlers : s'.handlers = s.handlers.eraseIdx i) (hrows : s'.rows = s.rows) (hjar : s'.jar = s.jar)
      (hanswers : s'.answers = s.answers) :
      Does w sha256 s (.exchange i) s' (.accepted h.browser h.row h.p c)

theorem quiet_sweep (s : Sys) (p : AuthRow → Bool) : Quiet s { s with rows := s.rows.deleteWhere p } :=
  { Quiet.refl s with rows := fun _ h => (KeyedTable.mem_deleteWhere.mp h).1 }

theorem start_does {slug : String} {linking : Bool} {rt : List UInt8} {draw : Draw} {reachable : Bool}
    {e : Event} (h : handleOIDCStart w s b slug linking rt draw reachable = (s', e)) :
    Does w sha256 s (.start b slug linking rt draw reachable) s' e := by
  unfold handleOIDCStart at h
  split at h
  · cases h
    exact .quiet (.refl s)
  · split at h
    · cases h
      exact .quiet (.refl s)
    · next p hp =>
        split at h
        · cases h
          exact .quiet (.refl s)
        · next hkind =>
            obtain rfl : reachable = true := by
              by_contra hno
              exact hkind (.inr (by simpa using hno))
            split at h
            · cases h
              exact .quiet (.refl s)
            · next hlinking =>
                dsimp only at h
                split at h
                · next hfree =>
                    cases h
                    refine .start p hp (fun hl hnone => hlinking ⟨hl, hnone⟩) ?_ rfl rfl rfl rfl
                    intro row hrow
                    exact ((KeyedTable.mem_insert hfree).mp hrow).imp_left fun hold =>
                      (KeyedTable.mem_deleteWhere.mp hold).1
                · cases h
                  exact .quiet (quiet_sweep s _)

theorem callback_does {slug code state : String} {reachable : Bool} {e : Event}
    (h : handleOIDCCallback w s b slug code state reachable = (s', e)) :
    Does w sha256 s (.callback b slug code state reachable) s' e := by
  have hclear : ∀ rows : KeyedTable AuthRow.state, (∀ row ∈ rows, row ∈ s.rows) →
      Quiet s { s with answers := s.answers ++ [(b, none)], rows := rows } := by
    intro rows hrows
    refine { Quiet.refl s with rows := hrows, answers := ?_ }
    intro b' v hv
    obtain hv | hv := List.mem_append.mp hv
    · exact hv
    · simp at hv
  unfold handleOIDCCallback at h
  split at h
  · cases h
    exact .quiet (.refl s)
  · split at h
    · cases h
      exact .quiet (.refl s)
    · next hmatch =>
        dsimp only at h
        split at h
        · cases h
          exact .quiet (hclear s.rows fun _ hrow => hrow)
        · next row hrow =>
            obtain ⟨hmem, rfl⟩ := KeyedTable.find_eq_some.mp hrow
            have hjar : s.jar b = some row.state := by
              simp only [oidcStateMatches, Bool.not_eq_false, Option.any_eq_true, Bool.and_eq_true,
                decide_eq_true_eq] at hmatch
              obtain ⟨v, hv, -, rfl⟩ := hmatch
              exact hv
            split at h
            · cases h
              exact .quiet (hclear _ fun _ hrow => (KeyedTable.mem_deleteWhere.mp hrow).1)
            · next hexpired =>
                have hfresh : s.now ≤ row.expiresAt := Int.not_lt.mp hexpired
                split at h
                · cases h
                  exact .callback hjar hmem hfresh rfl rfl rfl rfl (.inl rfl)
                · next p hp =>
                    split at h
                    · cases h
                      exact .callback hjar hmem hfresh rfl rfl rfl rfl (.inl rfl)
                    · next hkind =>
                        cases h
                        refine .callback hjar hmem hfresh rfl rfl rfl rfl (.inr ⟨p, hp, ?_, rfl⟩)
                        by_contra hno
                        exact hkind (.inl hno)

theorem exchange_does {i : Nat} {h : Handler} {e : Event} (hi : s.handlers[i]? = some h)
    (hex : exchange sha256 { s with handlers := s.handlers.eraseIdx i } h = (s', e)) :
    Does w sha256 s (.exchange i) s' e := by
  have hdrop : Quiet s { s with handlers := s.handlers.eraseIdx i } :=
    { Quiet.refl s with handlers := List.eraseIdx_sublist _ _ }
  unfold exchange at hex
  split at hex
  · cases hex
    exact .quiet hdrop
  · next c hc =>
      have hmem : c ∈ s.codes := List.mem_of_find?_eq_some hc
      have hbound := List.find?_some hc
      rw [Bool.and_eq_true, decide_eq_true_eq, decide_eq_true_eq] at hbound
      have hcodes : ∀ x ∈ s.codes.filter fun x => !(x.issuerURL = c.issuerURL && x.code = c.code), x ∈ s.codes :=
        fun x hx => List.mem_of_mem_filter hx
      dsimp only at hex
      split at hex
      · cases hex
        exact .quiet { hdrop with codes := hcodes }
      · next hchallenge =>
          split at hex
          · cases hex
            exact .quiet { hdrop with codes := hcodes }
          · next hnonce =>
              cases hex
              exact .exchange hi hmem hbound.1 hbound.2 (not_not.mp hchallenge) (not_not.mp hnonce) hcodes
                rfl rfl rfl rfl

theorem step_does {a : Action} {e : Event} (h : (system w sha256).step s a = some (s', e)) :
    Does w sha256 s a s' e := by
  cases a with
  | session b u =>
      cases h
      exact .quiet { Quiet.refl s with }
  | start b slug linking rt draw reachable => exact start_does (Option.some.inj h)
  | deliver i =>
      obtain ⟨⟨b, cookie⟩, hi, hout⟩ := Option.map_eq_some_iff.mp h
      cases hout
      exact .deliver (List.mem_of_getElem? hi) (fun x hx => List.mem_of_mem_eraseIdx hx) rfl rfl rfl rfl
  | forget b =>
      cases h
      refine .quiet { Quiet.refl s with jar := ?_ }
      intro b' v hv
      by_cases hb : b' = b
      · subst hb
        simp at hv
      · simpa [hb] using hv
  | authorize c =>
      simp only [system, Option.ite_none_left_eq_some] at h
      cases h.2
      exact .authorize
  | callback b slug code state reachable => exact callback_does (Option.some.inj h)
  | exchange i =>
      obtain ⟨h', hi, hout⟩ := Option.map_eq_some_iff.mp h
      exact exchange_does hi hout
  | tick d =>
      cases h
      exact .quiet { Quiet.refl s with }

end steps

section invariant

/-- The browser started a flow with this state. -/
def Opened (log : List Event) (b : Nat) (v : String) : Prop :=
  ∃ u slug linking t row, .started b u slug linking t row ∈ log ∧ row.state = v

/-- The last cookie the browser received is that of a flow it had started. -/
def Holds (log : List Event) (b : Nat) (v : String) : Prop :=
  ∃ pre mid, log = pre ++ .stored b (some v) :: mid ∧ (∀ cookie, .stored b cookie ∉ mid) ∧ Opened pre b v

/-- The browser started the request, in time, and its cookie was the last one received. -/
def BoundTo (log : List Event) (b : Nat) (row : AuthRow) (t : Time) : Prop :=
  ∃ pre mid u slug linking t₀, log = pre ++ .stored b (some row.state) :: mid ∧
    (∀ cookie, .stored b cookie ∉ mid) ∧ .started b u slug linking t₀ row ∈ pre ∧ t ≤ row.expiresAt

/-- The request was taken by a callback of the browser bound to it. -/
def TakenBy (log : List Event) (b : Nat) (row : AuthRow) : Prop :=
  ∃ pre mid t, log = pre ++ .consumed b row t :: mid ∧ BoundTo pre b row t

theorem Opened.append (h : Opened log b row.state) (e : Event) : Opened (log ++ [e]) b row.state := by
  obtain ⟨u, slug, linking, t, r, hmem, hstate⟩ := h
  exact ⟨u, slug, linking, t, r, List.mem_append_left _ hmem, hstate⟩

theorem TakenBy.append (h : TakenBy log b row) (e : Event) : TakenBy (log ++ [e]) b row := by
  obtain ⟨pre, mid, t, rfl, hbound⟩ := h
  exact ⟨pre, mid ++ [e], t, by simp, hbound⟩

/-- A cookie stays the last one until another arrives. -/
theorem Holds.append {v : String} (h : Holds log b v) {e : Event} (he : ∀ cookie, e ≠ .stored b cookie) :
    Holds (log ++ [e]) b v := by
  obtain ⟨pre, mid, rfl, hlast, hopened⟩ := h
  refine ⟨pre, mid ++ [e], by simp, ?_, hopened⟩
  intro cookie hmem
  obtain hmem | hmem := List.mem_append.mp hmem
  · exact hlast cookie hmem
  · exact he cookie (List.mem_singleton.mp hmem).symm

/-- A state is of one start. -/
theorem started_unique (hdistinct : (log.filterMap Event.startedState).Nodup) {b b' : Nat}
    {u u' : Option User} {slug slug' : String} {l l' : Bool} {t t' : Time} {row row' : AuthRow}
    (h : .started b u slug l t row ∈ log) (h' : .started b' u' slug' l' t' row' ∈ log)
    (hstate : row.state = row'.state) : b = b' ∧ row = row' := by
  have heq := Machine.eq_of_nodup_marks hdistinct h h' rfl (congrArg some hstate.symm)
  cases heq
  exact ⟨rfl, rfl⟩

/-- What holds along a run, of the log and of what is kept. -/
structure Inv (w : Config) (log : List Event) (s : Sys) : Prop where
  started : ∀ b u slug linking t row, .started b u slug linking t row ∈ log → ∃ p rt draw,
    loadProviderBySlug w slug (u.map User.tenantID) = some p ∧ (linking = true → u ≠ none) ∧
      row = newRow p u linking rt draw t
  distinct : (log.filterMap Event.startedState).Nodup
  rows : ∀ row ∈ s.rows, (∃ b u slug linking t, .started b u slug linking t row ∈ log) ∧
    row.state ∉ log.filterMap Event.consumedState
  answers : ∀ b v, (b, some v) ∈ s.answers → Opened log b v
  jar : ∀ b v, s.jar b = some v → Holds log b v
  codes : ∀ c ∈ s.codes, .authorized c ∈ log
  handlers : ∀ h ∈ s.handlers, TakenBy log h.browser h.row ∧
    loadProviderByID w h.row.providerID = some h.p ∧ h.p.kind = .oidc
  once : (log.filterMap Event.acceptedState ++ s.handlers.map fun h => h.row.state).Nodup
  taken : ∀ v ∈ log.filterMap Event.acceptedState ++ s.handlers.map fun h => h.row.state,
    v ∈ log.filterMap Event.consumedState
  consumed : ∀ v ∈ log.filterMap Event.consumedState, v ∈ log.filterMap Event.startedState

theorem inv_boot : Inv w [] boot where
  started _ _ _ _ _ _ he := absurd he List.not_mem_nil
  distinct := List.nodup_nil
  rows _ hrow := absurd hrow List.not_mem_nil
  answers _ _ hv := absurd hv List.not_mem_nil
  jar _ _ hv := absurd hv (by simp [boot])
  codes _ hc := absurd hc List.not_mem_nil
  handlers _ hx := absurd hx List.not_mem_nil
  once := List.nodup_nil
  taken _ hv := absurd hv List.not_mem_nil
  consumed _ hv := absurd hv List.not_mem_nil

theorem mem_snoc {e e' : Event} (h : e ∈ log) : e ∈ log ++ [e'] := List.mem_append_left _ h

theorem Opened.snoc {v : String} (h : Opened log b v) (e : Event) : Opened (log ++ [e]) b v := by
  obtain ⟨u, slug, linking, t, r, hmem, hstate⟩ := h
  exact ⟨u, slug, linking, t, r, mem_snoc hmem, hstate⟩

theorem marks_none {f : Event → Option String} {e : Event} (h : f e = none) :
    (log ++ [e]).filterMap f = log.filterMap f := by
  rw [List.filterMap_append, List.filterMap_cons_none h, List.filterMap_nil, List.append_nil]

theorem marks_some {f : Event → Option String} {e : Event} {v : String} (h : f e = some v) :
    (log ++ [e]).filterMap f = log.filterMap f ++ [v] := by
  rw [List.filterMap_append, List.filterMap_cons_some h, List.filterMap_nil]

/-- The parts of the invariant that an event without a state of its own leaves, for a system that
keeps no more requests and handlers than before. -/
theorem Inv.unmarked (h : Inv w log s) {e : Event} (hstarted : e.startedState = none)
    (hconsumed : e.consumedState = none) (haccepted : e.acceptedState = none)
    (hrows : ∀ row ∈ s'.rows, row ∈ s.rows) (hhandlers : s'.handlers.Sublist s.handlers)
    (hanswers : ∀ b v, (b, some v) ∈ s'.answers → (b, some v) ∈ s.answers)
    (hjar : ∀ b v, s'.jar b = some v → Holds (log ++ [e]) b v)
    (hcodes : ∀ c ∈ s'.codes, .authorized c ∈ log ++ [e]) : Inv w (log ++ [e]) s' := by
  have hsub : (log.filterMap Event.acceptedState ++ s'.handlers.map fun h => h.row.state).Sublist
      (log.filterMap Event.acceptedState ++ s.handlers.map fun h => h.row.state) :=
    (List.Sublist.refl _).append (hhandlers.map _)
  refine ⟨?_, ?_, ?_, ?_, hjar, hcodes, ?_, ?_, ?_, ?_⟩
  · intro b u slug linking t row he
    obtain he | he := List.mem_append.mp he
    · exact h.started b u slug linking t row he
    · cases List.mem_singleton.mp he
      cases hstarted
  · rw [marks_none hstarted]
    exact h.distinct
  · intro row hrow
    obtain ⟨⟨b, u, slug, linking, t, hstart⟩, hleft⟩ := h.rows row (hrows row hrow)
    rw [marks_none hconsumed]
    exact ⟨⟨b, u, slug, linking, t, mem_snoc hstart⟩, hleft⟩
  · intro b v hv
    exact (h.answers b v (hanswers b v hv)).snoc e
  · intro x hx
    obtain ⟨htaken, hload⟩ := h.handlers x (hhandlers.subset hx)
    exact ⟨htaken.append e, hload⟩
  · rw [marks_none haccepted]
    exact h.once.sublist hsub
  · rw [marks_none haccepted, marks_none hconsumed]
    intro v hv
    exact h.taken v (hsub.subset hv)
  · rw [marks_none hconsumed, marks_none hstarted]
    exact h.consumed

theorem Inv.quiet (h : Inv w log s) (hquiet : Quiet s s') : Inv w (log ++ [.other]) s' := by
  refine h.unmarked rfl rfl rfl hquiet.rows hquiet.handlers hquiet.answers ?_ ?_
  · intro b v hv
    exact (h.jar b v (hquiet.jar b v hv)).append fun _ => by simp
  · intro c hc
    exact mem_snoc (h.codes c (hquiet.codes c hc))

/-- A cookie arrives: it is the last one, and the browser had started its flow. -/
theorem Inv.deliver (h : Inv w log s) {cookie : Option String} (hmem : (b, cookie) ∈ s.answers)
    (hanswers : ∀ x ∈ s'.answers, x ∈ s.answers) (hjar : s'.jar = Function.update s.jar b cookie)
    (hrows : s'.rows = s.rows) (hcodes : s'.codes = s.codes) (hhandlers : s'.handlers = s.handlers) :
    Inv w (log ++ [.stored b cookie]) s' := by
  refine h.unmarked rfl rfl rfl (fun row hrow => hrows ▸ hrow) (by rw [hhandlers])
    (fun b' v hv => hanswers _ hv) ?_ (fun c hc => mem_snoc (h.codes c (hcodes ▸ hc)))
  intro b' v hv
  rw [hjar] at hv
  by_cases hb : b' = b
  · subst hb
    rw [Function.update_self] at hv
    subst hv
    exact ⟨log, [], rfl, fun _ => List.not_mem_nil, h.answers b' v hmem⟩
  · rw [Function.update_of_ne hb] at hv
    refine (h.jar b' v hv).append ?_
    rintro c' heq
    cases heq
    exact hb rfl

theorem Inv.start (h : Inv w log s) {slug : String} {linking : Bool} {rt : List UInt8} {draw : Draw}
    (hfresh : rawURLEncode draw.state ∉ log.filterMap Event.startedState)
    (hp : loadProviderBySlug w slug ((s.user b).map User.tenantID) = some p)
    (hlinking : linking = true → s.user b ≠ none)
    (hrows : ∀ row ∈ s'.rows, row ∈ s.rows ∨ row = newRow p (s.user b) linking rt draw s.now)
    (hanswers : s'.answers = s.answers ++ [(b, some (rawURLEncode draw.state))])
    (hjar : s'.jar = s.jar) (hcodes : s'.codes = s.codes) (hhandlers : s'.handlers = s.handlers) :
    Inv w (log ++ [.started b (s.user b) slug linking s.now (newRow p (s.user b) linking rt draw s.now)]) s' := by
  have hlast : Event.started b (s.user b) slug linking s.now (newRow p (s.user b) linking rt draw s.now) ∈
      log ++ [.started b (s.user b) slug linking s.now (newRow p (s.user b) linking rt draw s.now)] :=
    List.mem_append_right _ List.mem_cons_self
  refine ⟨?_, ?_, ?_, ?_, ?_, ?_, ?_, ?_, ?_, ?_⟩
  · intro b' u slug' linking' t row he
    obtain he | he := List.mem_append.mp he
    · exact h.started b' u slug' linking' t row he
    · cases List.mem_singleton.mp he
      exact ⟨p, rt, draw, hp, hlinking, rfl⟩
  · rw [marks_some rfl, List.nodup_append]
    refine ⟨h.distinct, List.nodup_singleton _, ?_⟩
    rintro v hv v' hv' rfl
    rw [List.mem_singleton] at hv'
    rw [hv'] at hv
    exact hfresh hv
  · intro row hrow
    rw [marks_none rfl]
    obtain hold | rfl := hrows row hrow
    · obtain ⟨⟨b', u, slug', linking', t, hstart⟩, hleft⟩ := h.rows row hold
      exact ⟨⟨b', u, slug', linking', t, mem_snoc hstart⟩, hleft⟩
    · exact ⟨⟨b, _, slug, linking, s.now, hlast⟩, fun hmem => hfresh (h.consumed _ hmem)⟩
  · intro b' v hv
    rw [hanswers] at hv
    obtain hv | hv := List.mem_append.mp hv
    · exact (h.answers b' v hv).snoc _
    · cases List.mem_singleton.mp hv
      exact ⟨_, slug, linking, s.now, _, hlast, rfl⟩
  · intro b' v hv
    rw [hjar] at hv
    exact (h.jar b' v hv).append fun _ => by simp
  · intro c hc
    rw [hcodes] at hc
    exact mem_snoc (h.codes c hc)
  · intro x hx
    rw [hhandlers] at hx
    obtain ⟨htaken, hload⟩ := h.handlers x hx
    exact ⟨htaken.append _, hload⟩
  · rw [marks_none rfl, hhandlers]
    exact h.once
  · rw [marks_none rfl, marks_none rfl, hhandlers]
    exact h.taken
  · rw [marks_none rfl, marks_some rfl]
    intro v hv
    exact List.mem_append_left _ (h.consumed v hv)

/-- A request in the table that matches the cookie is one the browser itself has started. -/
theorem Inv.boundTo (h : Inv w log s) (hjar : s.jar b = some row.state) (hrow : row ∈ s.rows)
    (hfresh : s.now ≤ row.expiresAt) : BoundTo log b row s.now := by
  obtain ⟨pre, mid, hlog, hlast, u, slug, linking, t, row', hstart, hstate⟩ := h.jar b _ hjar
  obtain ⟨⟨b', u', slug', linking', t', hstart'⟩, -⟩ := h.rows row hrow
  have hstartlog : .started b u slug linking t row' ∈ log := by
    rw [hlog]
    exact List.mem_append_left _ hstart
  obtain ⟨rfl, rfl⟩ := started_unique h.distinct hstartlog hstart' hstate
  exact ⟨pre, mid, u, slug, linking, t, hlog, hlast, hstart, hfresh⟩

theorem Inv.callback (h : Inv w log s) {code : String} (hjar : s.jar b = some row.state) (hrow : row ∈ s.rows)
    (hfresh : s.now ≤ row.expiresAt) (hrows : s'.rows = s.rows.deleteWhere fun r => r.state = row.state)
    (hanswers : s'.answers = s.answers ++ [(b, none)]) (hsame : s'.jar = s.jar) (hcodes : s'.codes = s.codes)
    (hhandlers : s'.handlers = s.handlers ∨ ∃ p, loadProviderByID w row.providerID = some p ∧
      p.kind = .oidc ∧ s'.handlers = s.handlers ++ [⟨b, row, p, code⟩]) :
    Inv w (log ++ [.consumed b row s.now]) s' := by
  have hbound := h.boundTo hjar hrow hfresh
  obtain ⟨⟨b₀, u₀, slug₀, linking₀, t₀, hstart₀⟩, hleft⟩ := h.rows row hrow
  have hnew : row.state ∉ log.filterMap Event.acceptedState ++ s.handlers.map fun h => h.row.state :=
    fun hmem => hleft (h.taken _ hmem)
  refine ⟨?_, ?_, ?_, ?_, ?_, ?_, ?_, ?_, ?_, ?_⟩
  · intro b' u slug linking t row' he
    obtain he | he := List.mem_append.mp he
    · exact h.started b' u slug linking t row' he
    · cases List.mem_singleton.mp he
  · rw [marks_none rfl]
    exact h.distinct
  · intro row' hrow'
    rw [hrows] at hrow'
    obtain ⟨hold, hne⟩ := KeyedTable.mem_deleteWhere.mp hrow'
    obtain ⟨⟨b', u, slug, linking, t, hstart⟩, hleft'⟩ := h.rows row' hold
    refine ⟨⟨b', u, slug, linking, t, mem_snoc hstart⟩, ?_⟩
    rw [marks_some rfl, List.mem_append, not_or, List.mem_singleton]
    exact ⟨hleft', of_decide_eq_false hne⟩
  · intro b' v hv
    rw [hanswers] at hv
    obtain hv | hv := List.mem_append.mp hv
    · exact (h.answers b' v hv).snoc _
    · simp at hv
  · intro b' v hv
    rw [hsame] at hv
    exact (h.jar b' v hv).append fun _ => by simp
  · intro c hc
    rw [hcodes] at hc
    exact mem_snoc (h.codes c hc)
  · intro x hx
    obtain heq | ⟨p, hp, hkind, heq⟩ := hhandlers
    · rw [heq] at hx
      obtain ⟨htaken, hload⟩ := h.handlers x hx
      exact ⟨htaken.append _, hload⟩
    · rw [heq] at hx
      obtain hx | hx := List.mem_append.mp hx
      · obtain ⟨htaken, hload⟩ := h.handlers x hx
        exact ⟨htaken.append _, hload⟩
      · rw [List.mem_singleton.mp hx]
        exact ⟨⟨log, [], s.now, rfl, hbound⟩, hp, hkind⟩
  · rw [marks_none rfl]
    obtain heq | ⟨p, -, -, heq⟩ := hhandlers
    · rw [heq]
      exact h.once
    · rw [heq, List.map_append, ← List.append_assoc, List.nodup_append]
      refine ⟨h.once, List.nodup_singleton _, ?_⟩
      rintro v hv v' hv' rfl
      rw [List.map_singleton, List.mem_singleton] at hv'
      rw [hv'] at hv
      exact hnew hv
  · rw [marks_none rfl, marks_some rfl]
    intro v hv
    obtain heq | ⟨p, -, -, heq⟩ := hhandlers
    · rw [heq] at hv
      exact List.mem_append_left _ (h.taken v hv)
    · rw [heq, List.map_append, ← List.append_assoc] at hv
      exact (List.mem_append.mp hv).elim (fun hv => List.mem_append_left _ (h.taken v hv))
        fun hv => List.mem_append_right _ hv
  · rw [marks_some rfl, marks_none rfl]
    intro v hv
    obtain hv | hv := List.mem_append.mp hv
    · exact h.consumed v hv
    · rw [List.mem_singleton.mp hv]
      exact List.mem_filterMap.mpr ⟨_, hstart₀, rfl⟩

/-- A handler's exchange moves its state from the handlers to the accepted requests. -/
theorem Inv.exchange (h : Inv w log s) {i : Nat} {x : Handler} (hi : s.handlers[i]? = some x)
    (hcodes : ∀ c ∈ s'.codes, c ∈ s.codes) (hhandlers : s'.handlers = s.handlers.eraseIdx i)
    (hrows : s'.rows = s.rows) (hjar : s'.jar = s.jar) (hanswers : s'.answers = s.answers) :
    Inv w (log ++ [.accepted x.browser x.row x.p c]) s' := by
  obtain ⟨hlt, rfl⟩ := List.getElem?_eq_some_iff.mp hi
  have hperm : (log.filterMap Event.acceptedState ++ [(s.handlers[i]).row.state] ++
      (s.handlers.eraseIdx i).map fun h => h.row.state).Perm
      (log.filterMap Event.acceptedState ++ s.handlers.map fun h => h.row.state) := by
    rw [List.append_assoc]
    refine List.Perm.append_left _ ?_
    have herase := (List.getElem_cons_eraseIdx_perm hlt).map fun h : Handler => h.row.state
    simpa using herase
  refine ⟨?_, ?_, ?_, ?_, ?_, ?_, ?_, ?_, ?_, ?_⟩
  · intro b' u slug linking t row' he
    obtain he | he := List.mem_append.mp he
    · exact h.started b' u slug linking t row' he
    · cases List.mem_singleton.mp he
  · rw [marks_none rfl]
    exact h.distinct
  · intro row' hrow'
    rw [hrows] at hrow'
    obtain ⟨⟨b', u, slug, linking, t, hstart⟩, hleft⟩ := h.rows row' hrow'
    rw [marks_none rfl]
    exact ⟨⟨b', u, slug, linking, t, mem_snoc hstart⟩, hleft⟩
  · intro b' v hv
    rw [hanswers] at hv
    exact (h.answers b' v hv).snoc _
  · intro b' v hv
    rw [hjar] at hv
    exact (h.jar b' v hv).append fun _ => by simp
  · intro c' hc'
    exact mem_snoc (h.codes c' (hcodes c' hc'))
  · intro y hy
    rw [hhandlers] at hy
    obtain ⟨htaken, hload⟩ := h.handlers y (List.mem_of_mem_eraseIdx hy)
    exact ⟨htaken.append _, hload⟩
  · rw [marks_some rfl, hhandlers]
    exact (List.Perm.nodup_iff hperm).mpr h.once
  · rw [marks_some rfl, marks_none rfl, hhandlers]
    intro v hv
    exact h.taken v (hperm.subset hv)
  · rw [marks_none rfl, marks_none rfl]
    exact h.consumed

theorem Inv.step (h : Inv w log s) {a : Action} {e : Event} (hfresh : Fresh log s a)
    (hdoes : Does w sha256 s a s' e) : Inv w (log ++ [e]) s' := by
  cases hdoes with
  | quiet hquiet => exact h.quiet hquiet
  | start p hp hlinking hrows hanswers hjar hcodes hhandlers =>
      exact h.start hfresh hp hlinking hrows hanswers hjar hcodes hhandlers
  | deliver hmem hanswers hjar hrows hcodes hhandlers =>
      exact h.deliver hmem hanswers hjar hrows hcodes hhandlers
  | @authorize c =>
      refine h.unmarked rfl rfl rfl (fun _ hrow => hrow) (.refl _) (fun _ _ hv => hv)
        (fun b v hv => (h.jar b v hv).append fun _ => by simp) ?_
      intro c' hc'
      exact (List.mem_append.mp hc').elim (fun hold => mem_snoc (h.codes c' hold)) fun hnew =>
        List.mem_append_right _ (List.mem_singleton.mpr (congrArg _ (List.mem_singleton.mp hnew)))
  | callback hjar hrow hin hrows hanswers hsame hcodes hhandlers =>
      exact h.callback hjar hrow hin hrows hanswers hsame hcodes hhandlers
  | exchange hi hc _ _ _ _ hcodes hhandlers hrows hjar hanswers =>
      exact h.exchange hi hcodes hhandlers hrows hjar hanswers

theorem inv_run (hrun : (system w sha256).RunIf Fresh boot log s) : Inv w log s := by
  refine hrun.invariant (fun log s => Inv w log s) inv_boot ?_
  intro log s a s' e h hok hstep
  exact h.step hok (step_does hstep)

end invariant

/-- What an accepted sign-in or link rests on. -/
structure Agreement (w : Config) (sha256 : List UInt8 → List UInt8) (log : List Event) (b : Nat)
    (row : AuthRow) (p : Provider) (c : Code) : Prop where
  /-- The browser started the request, and took it with the last cookie it had received. -/
  flow : TakenBy log b row
  /-- The request is what the start stored: for a link, it names the session's user. -/
  request : ∃ u slug linking t p₀ rt draw, .started b u slug linking t row ∈ log ∧
    loadProviderBySlug w slug (u.map User.tenantID) = some p₀ ∧ (linking = true → u ≠ none) ∧
      row = newRow p₀ u linking rt draw t
  provider : loadProviderByID w row.providerID = some p
  /-- Somebody signed in at the issuer for the authorize URL of this request. -/
  signIn : .authorized c ∈ log ∧ c.issuerURL = p.issuerURL ∧ c.nonce = row.nonce ∧
    c.challenge = pkceChallenge sha256 row.pkceVerifier

/-- Whatever codes and states the callbacks carry, an accepted sign-in agrees with a flow of the same
browser, and no other is accepted for that flow. -/
theorem accepted_agrees (hrun : (system w sha256).RunIf Fresh boot (pre ++ .accepted b row p c :: post) s) :
    Agreement w sha256 pre b row p c ∧
      ∀ b' row' p' c', .accepted b' row' p' c' ∈ pre ++ post → row'.state ≠ row.state := by
  constructor
  · obtain ⟨s₁, a, s₂, hpre, -, hstep, -⟩ := hrun.at_event
    have hinv := inv_run hpre
    have hdoes := step_does hstep
    generalize he : Event.accepted b row p c = e at hdoes
    cases hdoes with
    | @exchange i x c' s' hi hc hissuer hcode hchallenge hnonce =>
        cases he
        obtain ⟨htaken, hload, -⟩ := hinv.handlers x (List.mem_of_getElem? hi)
        refine ⟨htaken, ?_, hload, hinv.codes c hc, hissuer, hnonce, hchallenge⟩
        obtain ⟨pre', mid, t, hlog, pre₁, mid₁, u, slug, linking, t₀, hlog', -, hstart, -⟩ := htaken
        have hmem : .started x.browser u slug linking t₀ x.row ∈ pre := by
          rw [hlog, hlog']
          simp [hstart]
        obtain ⟨p₀, rt, draw, hp₀, hlinking, hrow⟩ := hinv.started _ _ _ _ _ _ hmem
        exact ⟨u, slug, linking, t₀, p₀, rt, draw, hmem, hp₀, hlinking, hrow⟩
    | quiet => cases he
    | start => cases he
    | deliver => cases he
    | authorize => cases he
    | callback => cases he
  · have honce := (inv_run hrun).once.sublist (List.sublist_append_left _ _)
    intro b' row' p' c' hmem hstate
    exact Machine.ne_mark_of_nodup_marks honce rfl hmem (congrArg some hstate)

/-- A tenant-free provider. -/
def oneProvider : Config where
  providers := [⟨1, none, "sso", .oidc, "https://idp.acme.test", "s1", true⟩]
  users := []
  fold := id
  providers_sorted := by simp
  slug_unique := by simp
  users_unique := by simp

/-- SHA-256 of the verifier of `aDraw`. -/
def aDigest : List UInt8 :=
  [34, 49, 9, 154, 109, 7, 22, 152, 69, 112, 235, 123, 89, 198, 185, 166, 159, 171, 31, 64, 221, 156,
    126, 213, 93, 102, 6, 158, 53, 190, 35, 87]

def aDraw : Draw := ⟨List.replicate 32 0, List.replicate 32 1, List.replicate 64 2⟩

theorem aSubject_ne : "7" ≠ "" := by decide

def aCode : Code :=
  ⟨"https://idp.acme.test", "code", rawURLEncode aDraw.nonce, rawURLEncode aDigest, ⟨"7", "", false, aSubject_ne⟩⟩

/-- A sign-in, and a callback from another browser that comes too early and lacks the cookie. -/
def aSignIn : List Action :=
  [.start 0 "sso" false [47] aDraw true, .deliver 0, .authorize aCode,
    .callback 5 "sso" "code" (rawURLEncode aDraw.state) true,
    .callback 0 "sso" "code" (rawURLEncode aDraw.state) true, .exchange 0]

def isAccepted : Event → Bool
  | .accepted .. => true
  | _ => false

theorem accepted_agrees_aSignIn : ∃ log b row p c, Agreement oneProvider (fun _ => aDigest) log b row p c := by
  have hexec : ((system oneProvider fun _ => aDigest).execIf Fresh [] boot aSignIn).any
      (fun out => out.1.any isAccepted) = true := by decide +kernel
  obtain ⟨log, s, hrun, htest⟩ := Machine.exists_runIf_of_any hexec
  obtain ⟨e, he, haccepted⟩ := List.any_eq_true.mp htest
  obtain ⟨pre, post, rfl⟩ := List.append_of_mem he
  cases e with
  | accepted b row p c => exact ⟨pre, b, row, p, c, (accepted_agrees hrun).1⟩
  | started | stored | authorized | consumed | other => cases haccepted

end ThesadaApp.OidcFlow
