import ThesadaApp.LinkStatements

/-!
An emailed link has one winner. The UPDATE that consumes it holds the row until its transaction ends, so the link is
still unconsumed when a transaction that has consumed it commits; a reset writes the password in that transaction.
-/

namespace ThesadaApp.Links

/-- The commit consumes the link. -/
def Event.consumes (tokenHash : String) : Event → Bool
  | .ended (.consumed h _ _ _) => h = tokenHash
  | _ => false

/-- The commit sets the user's password. -/
def Event.resets (user : UUID) : Event → Bool
  | .ended (.consumed _ u .reset _) => u = user
  | _ => false

def Tables.passwordHash (d : Tables) (user : UUID) : Option String := (d.users user).bind UserRow.passwordHash

/-- Each link is consumed at most once, by a call for its purpose that began before it expired, and is otherwise as it
was; passwords change by a reset only, and sessions not at all. -/
structure SingleWinner (d : Tables) (log : List Event) (d' : Tables) : Prop where
  once : ∀ h, log.countP (Event.consumes h) ≤ 1
  valid : ∀ h u p now, .ended (.consumed h u p now) ∈ log → ∃ l, d.links h = some l ∧ l.userID = u ∧ l.purpose = p ∧
    l.consumedAt = none ∧ now < l.expiresAt ∧ d'.links h = some { l with consumedAt := some now }
  unconsumed : ∀ h, log.countP (Event.consumes h) = 0 → d'.links h = d.links h
  password : ∀ u, log.countP (Event.resets u) = 0 → d'.passwordHash u = d.passwordHash u
  sessions : d'.sessions = d.sessions

/-- What is known of a transaction at each of its statements. -/
def PointInv (t : Txn) : Point → Prop
  | .start | .classify => t.link = none ∧ t.user = none
  | .consumeRow => t.link = none ∧ t.user = none ∧ ∀ token, t.call ≠ .consumeResetLink token
  | .updateUser u then' | .updateUserRow u then' => t.user = none ∧
      (then' = .touched ∧ t.link = none ∧ (∃ tenantID user, t.call = .touchLastLogin tenantID user) ∨
        ∃ h w, then' = .consumed h u .reset t.now ∧ t.link = some (h, w) ∧ w.userID = u ∧
          ∃ token password hash, t.call = .resetPassword token password hash)
  | .commit (.consumed h u p now) => p = t.call.purpose ∧ now = t.now ∧ (∃ w, t.link = some (h, w) ∧ w.userID = u) ∧
      (p = .reset → (∃ token password hash, t.call = .resetPassword token password hash) ∧ ∃ w, t.user = some (u, w))
  | .commit .touched => t.link = none ∧ ∃ tenantID user, t.call = .touchLastLogin tenantID user
  | .commit (.peeked _) | .commit (.refused _) => t.link = none ∧ t.user = none

/-- A transaction holds the rows it has written, which are committed as it found them. -/
structure TxnInv (d : Tables) (held : Lock → Prop) (t : Txn) : Prop where
  link : ∀ h w, t.link = some (h, w) → held (.link h) ∧ ∃ l, d.links h = some l ∧ l.consumedAt = none ∧
    t.now < l.expiresAt ∧ l.purpose = t.call.purpose ∧ w = { l with consumedAt := some t.now }
  user : ∀ u w, t.user = some (u, w) → held (.user u) ∧ ∃ r, d.users u = some r ∧ w = t.call.set t.now r
  point : PointInv t t.point

/-- The rows that are held do not change. -/
structure Kept (d d' : Tables) (held : Lock → Prop) : Prop where
  link : ∀ h, held (.link h) → d'.links h = d.links h
  user : ∀ u, held (.user u) → d'.users u = d.users u

section txn

variable {d d' : Tables} {held held' : Lock → Prop} {t : Txn}

theorem TxnInv.kept (h : Kept d d' held) (ht : TxnInv d held t) : TxnInv d' held t := by
  refine ⟨fun c w hw => ?_, fun u w hw => ?_, ht.point⟩
  · obtain ⟨hheld, hrow⟩ := ht.link c w hw
    exact ⟨hheld, by rw [h.link c hheld]; exact hrow⟩
  · obtain ⟨hheld, hrow⟩ := ht.user u w hw
    exact ⟨hheld, by rw [h.user u hheld]; exact hrow⟩

/-- A transaction that has written nothing. -/
theorem TxnInv.unwritten (hlink : t.link = none) (huser : t.user = none) (hpoint : PointInv t t.point) :
    TxnInv d held t :=
  ⟨fun _ _ hw => absurd (hlink.symm.trans hw) (Option.some_ne_none _).symm,
    fun _ _ hw => absurd (huser.symm.trans hw) (Option.some_ne_none _).symm, hpoint⟩

theorem Txn.apply_links_self {h : String} {w : Link} (hw : t.link = some (h, w)) : (t.apply d).links h = some w := by
  simp only [Txn.apply, hw, Option.elim_some]
  exact Function.update_self _ _ _

theorem Txn.apply_links_of_ne {h : String} (hne : ∀ w, t.link ≠ some (h, w)) : (t.apply d).links h = d.links h := by
  unfold Txn.apply
  cases hlink : t.link with
  | none => rfl
  | some w =>
      refine Function.update_of_ne (fun heq => hne w.2 ?_) _ _
      rw [hlink, heq]

theorem Txn.apply_users_self {u : UUID} {w : UserRow} (hw : t.user = some (u, w)) : (t.apply d).users u = some w := by
  simp only [Txn.apply, hw, Option.elim_some]
  exact Function.update_self _ _ _

theorem Txn.apply_users_of_ne {u : UUID} (hne : ∀ w, t.user ≠ some (u, w)) : (t.apply d).users u = d.users u := by
  unfold Txn.apply
  cases huser : t.user with
  | none => rfl
  | some w =>
      refine Function.update_of_ne (fun heq => hne w.2 ?_) _ _
      rw [huser, heq]

/-- A commit leaves the rows of the others alone. -/
theorem TxnInv.kept_apply (h : TxnInv d held t) (hdisjoint : ∀ k, held k → ¬ held' k) : Kept d (t.apply d) held' := by
  refine ⟨fun c hc => ?_, fun u hu => ?_⟩
  · exact Txn.apply_links_of_ne fun w hw => hdisjoint _ (h.link c w hw).1 hc
  · exact Txn.apply_users_of_ne fun w hw => hdisjoint _ (h.user u w hw).1 hu

/-- What is known at a point is about what was written. -/
theorem PointInv.goTo {p : Point} (q : Point) (h : PointInv t p) : PointInv { t with point := q } p := by
  cases p with
  | commit outcome => cases outcome <;> exact h
  | _ => exact h

end txn

section winner

variable {d d' d'' : Tables} {log : List Event} {e : Event}

/-- An event that consumes no link and leaves links and passwords as they are. -/
theorem SingleWinner.snoc_plain (h : SingleWinner d log d') (hconsumes : ∀ c, e.consumes c = false)
    (hlinks : d''.links = d'.links) (hpassword : ∀ u, d''.passwordHash u = d'.passwordHash u)
    (hsessions : d''.sessions = d'.sessions) : SingleWinner d (log ++ [e]) d'' := by
  refine ⟨fun c => ?_, fun c u p now hmem => ?_, fun c hc => ?_, fun u hu => ?_, hsessions.trans h.sessions⟩
  · rw [List.countP_append, List.countP_singleton, hconsumes]
    exact h.once c
  · rcases List.mem_append.mp hmem with hmem | hmem
    · rw [hlinks]
      exact h.valid c u p now hmem
    · obtain rfl := List.mem_singleton.mp hmem
      have hself := hconsumes c
      rw [Event.consumes, decide_eq_false_iff_not] at hself
      exact absurd rfl hself
  · rw [List.countP_append, Nat.add_eq_zero_iff] at hc
    rw [hlinks]
    exact h.unconsumed c hc.1
  · rw [List.countP_append, Nat.add_eq_zero_iff] at hu
    rw [hpassword]
    exact h.password u hu.1

/-- A link that is consumed while it is still unconsumed. -/
theorem SingleWinner.snoc_consumed (h : SingleWinner d log d') {c : String} {l : Link} {now : Time}
    (hrow : d'.links c = some l) (hopen : l.consumedAt = none) (hvalid : now < l.expiresAt)
    (hlink : d''.links c = some { l with consumedAt := some now }) (hother : ∀ c', c' ≠ c → d''.links c' = d'.links c')
    (hpassword : ∀ u, ¬ (l.userID = u ∧ l.purpose = .reset) → d''.passwordHash u = d'.passwordHash u)
    (hsessions : d''.sessions = d'.sessions) :
    SingleWinner d (log ++ [.ended (.consumed c l.userID l.purpose now)]) d'' := by
  have hfirst : ∀ u p at', Event.ended (.consumed c u p at') ∉ log := by
    intro u p at' hmem
    obtain ⟨l', -, -, -, -, -, hl'⟩ := h.valid c u p at' hmem
    obtain rfl := Option.some.inj (hrow.symm.trans hl')
    cases hopen
  have hzero : log.countP (Event.consumes c) = 0 := by
    rw [List.countP_eq_zero]
    intro e he hconsumes
    match e with
    | .ended (.consumed c' u p at') =>
        obtain rfl := of_decide_eq_true hconsumes
        exact hfirst u p at' he
    | .ended (.peeked _) | .ended (.refused _) | .ended .touched | .statement | .failed _ => cases hconsumes
  refine ⟨fun c' => ?_, fun c' u p at' hmem => ?_, fun c' hc' => ?_, fun u hu => ?_, hsessions.trans h.sessions⟩
  · rw [List.countP_append, List.countP_singleton]
    split
    · next hc' =>
        obtain rfl := of_decide_eq_true hc'
        exact Nat.le_of_eq (by rw [hzero])
    · exact h.once c'
  · rcases List.mem_append.mp hmem with hold | hnew
    · have hne : c' ≠ c := by
        rintro rfl
        exact hfirst u p at' hold
      rw [hother c' hne]
      exact h.valid c' u p at' hold
    · obtain ⟨rfl, rfl, rfl, rfl⟩ : c' = c ∧ u = l.userID ∧ p = l.purpose ∧ at' = now := by
        simpa using List.mem_singleton.mp hnew
      exact ⟨l, (h.unconsumed c' hzero).symm.trans hrow, rfl, rfl, hopen, hvalid, hlink⟩
  · rw [List.countP_append, Nat.add_eq_zero_iff] at hc'
    have hne : c' ≠ c := by
      rintro rfl
      have hself := hc'.2
      rw [List.countP_singleton, Event.consumes, if_pos (decide_eq_true rfl)] at hself
      cases hself
    rw [hother c' hne]
    exact h.unconsumed c' hc'.1
  · rw [List.countP_append, Nat.add_eq_zero_iff] at hu
    rw [hpassword u fun hreset => ?_]
    · exact h.password u hu.1
    · have hself := hu.2
      rw [List.countP_singleton, hreset.2, Event.resets, if_pos (decide_eq_true hreset.1)] at hself
      cases hself

end winner

structure Inv (d : Tables) (log : List Event) (s : State) : Prop where
  each : s.txns.Each TxnInv s.tables
  winner : SingleWinner d log s.tables

/-- A reset that commits has set the password it came with. -/
def SetsPassword (s s' : State) (e : Event) : Prop :=
  ∀ h u now, e = .ended (.consumed h u .reset now) → ∃ tx t token password, s.txns.txn tx = some t ∧
    t.call = .resetPassword token password (s'.tables.passwordHash u)

/-- What a step of a run keeps, and that one which consumes no link leaves links and passwords as they were. -/
structure StepSpec (d : Tables) (log : List Event) (s : State) (r : State × Event) : Prop where
  inv : Inv d (log ++ [r.2]) r.1
  unconsumed : (∀ h, r.2.consumes h = false) → r.1.tables.links = s.tables.links ∧
    ∀ u, r.1.tables.passwordHash u = s.tables.passwordHash u
  password : SetsPassword s r.1 r.2

section steps

variable {sha256 : String → String} {d₀ d : Tables} {log : List Event} {s : State} {tx : Nat} {t : Txn}
  {held : Lock → Prop} {r : State × Event}

/-- A step that commits nothing. -/
theorem Inv.uncommitted (h : Inv d log s) {txns : Txns Lock Txn} (heach : txns.Each TxnInv s.tables) {e : Event}
    (he : ∀ outcome, e ≠ .ended outcome) : StepSpec d log s (⟨s.tables, txns⟩, e) := by
  have hconsumes : ∀ c, e.consumes c = false := by
    intro c
    match e with
    | .statement | .failed _ => rfl
    | .ended outcome => exact absurd rfl (he outcome)
  exact ⟨⟨heach, h.winner.snoc_plain hconsumes rfl (fun _ => rfl) rfl⟩, fun _ => ⟨rfl, fun _ => rfl⟩,
    fun _ _ _ heq => absurd heq (he _)⟩

theorem Inv.fail (h : Inv d log s) (tx : Nat) (err : LinkError) : StepSpec d log s (s.fail tx err) :=
  h.uncommitted (h.each.close fun _ _ _ _ hj => hj) fun _ heq => by cases heq

theorem Inv.put (h : Inv d log s) (ht : TxnInv s.tables (s.txns.Held tx) t) : StepSpec d log s (s.put tx t) :=
  h.uncommitted (h.each.put ht) fun _ heq => by cases heq

theorem Inv.lockPut (h : Inv d log s) {k : Lock} (hfree : s.txns.mayLock tx k = true)
    (ht : TxnInv s.tables ((s.txns.lock tx k).Held tx) t) : StepSpec d log s ((s.lock tx k).put tx t) :=
  h.uncommitted (h.each.lockPut hfree ht) fun _ heq => by cases heq

/-- A transaction that goes on without a write. -/
theorem Inv.goTo (h : Inv d log s) (ht : TxnInv s.tables (s.txns.Held tx) t) {p : Point} (hp : PointInv t p) :
    StepSpec d log s (s.put tx { t with point := p }) :=
  h.put ⟨ht.link, ht.user, hp.goTo p⟩

theorem stepStart_spec (h : Inv d log s) (ht : TxnInv s.tables (s.txns.Held tx) t) (hlink : t.link = none)
    (huser : t.user = none) (appNow : Time) : StepSpec d log s (stepStart sha256 s tx t appNow) := by
  have hclassify : StepSpec d log s (s.put tx { t with point := .classify }) := h.goTo ht ⟨hlink, huser⟩
  unfold stepStart
  split
  · next token hcall =>
      split
      · refine h.goTo ht ⟨hlink, huser, fun token' => ?_⟩
        rw [hcall]
        exact Call.noConfusion
      · exact hclassify
  · next token password hash hcall =>
      split
      · refine h.goTo ht ⟨hlink, huser, fun token' => ?_⟩
        rw [hcall]
        exact Call.noConfusion
      · exact hclassify
  · split
    · exact h.fail tx _
    · refine h.goTo ht ?_
      split
      · exact ⟨hlink, huser⟩
      · exact ⟨hlink, huser⟩
  · next tenantID user hcall => exact h.goTo ht ⟨huser, Or.inl ⟨rfl, hlink, tenantID, user, hcall⟩⟩

/-- The UPDATE that consumes a link holds it from now on. -/
theorem TxnInv.consume (huser : t.user = none) (hpeek : ∀ token, t.call ≠ .consumeResetLink token) {tokenHash : String}
    {l : Link} (hl : (s.tables.links tokenHash).filter (t.call.consumes t.now) = some l) :
    TxnInv s.tables ((s.txns.lock tx (.link tokenHash)).Held tx) { t with
      link := some (tokenHash, { l with consumedAt := some t.now })
      point := t.call.consumed l.userID (.consumed tokenHash l.userID t.call.purpose t.now) } := by
  obtain ⟨hrow, hconsumes⟩ := Option.filter_eq_some_iff.mp hl
  obtain ⟨hopen, hpurpose⟩ := Bool.and_eq_true_iff.mp hconsumes
  obtain ⟨hunconsumed, hvalid⟩ := Bool.and_eq_true_iff.mp hopen
  refine ⟨fun c w hw => ?_, fun u w hw => absurd (huser.symm.trans hw) (Option.some_ne_none _).symm, ?_⟩
  · obtain ⟨rfl, rfl⟩ := Prod.mk.inj (Option.some.inj hw)
    exact ⟨Txns.held_lock, l, hrow, of_decide_eq_true hunconsumed, of_decide_eq_true hvalid,
      of_decide_eq_true hpurpose, rfl⟩
  · cases hcall : t.call with
    | resetPassword token password hash =>
        exact ⟨huser, Or.inr ⟨tokenHash, _, rfl, rfl, rfl, token, password, hash, rfl⟩⟩
    | consumeMagicLink token => exact ⟨rfl, rfl, ⟨_, rfl, rfl⟩, fun hreset => by cases hreset⟩
    | consumeResetLink token => exact absurd hcall (hpeek token)
    | touchLastLogin tenantID user => exact ⟨rfl, rfl, ⟨_, rfl, rfl⟩, fun hreset => by cases hreset⟩

/-- The UPDATE of the user. -/
theorem TxnInv.updateUser (ht : TxnInv s.tables (s.txns.Held tx) t) {user : UUID} {then' : Outcome}
    (hpoint : t.point = .updateUserRow user then') {u : UserRow} (hu : s.tables.users user = some u) :
    TxnInv s.tables ((s.txns.lock tx (.user user)).Held tx)
      { t with user := some (user, t.call.set t.now u), point := .commit then' } := by
  refine ⟨fun c w hw => (ht.link c w hw).imp Txns.Held.lock fun hrow => hrow, fun u' w hw => ?_, ?_⟩
  · obtain ⟨rfl, rfl⟩ := Prod.mk.inj (Option.some.inj hw)
    exact ⟨Txns.held_lock, u, hu, rfl⟩
  · have hp := ht.point
    rw [hpoint] at hp
    obtain ⟨-, ⟨rfl, htouch⟩ | ⟨h, w, rfl, hlink, hown, token, password, hash, hcall⟩⟩ := hp
    · exact htouch
    · refine ⟨?_, rfl, ⟨w, hlink, hown⟩, fun _ => ⟨⟨token, password, hash, hcall⟩, _, rfl⟩⟩
      show Purpose.reset = t.call.purpose
      rw [hcall]
      rfl

theorem updatedNone_spec (h : Inv d log s) (ht : TxnInv s.tables (s.txns.Held tx) t) {user : UUID} {then' : Outcome}
    (hp : PointInv t (.updateUser user then')) : StepSpec d log s (updatedNone s tx t then') := by
  unfold updatedNone
  split
  · next htouched =>
      obtain ⟨-, ⟨-, htouch⟩ | ⟨c, w, hconsumed, -⟩⟩ := hp
      · exact h.goTo ht htouch
      · cases htouched.symm.trans hconsumed
  · exact h.fail tx _

/-- Only a reset that commits changes the hash of a user. -/
theorem TxnInv.passwordHash_apply (h : TxnInv d held t) {outcome : Outcome} (hp : PointInv t (.commit outcome))
    {u : UUID} (hother : ∀ c now, outcome ≠ .consumed c u .reset now) : (t.apply d).passwordHash u = d.passwordHash u := by
  unfold Tables.passwordHash
  by_cases hwrites : ∃ w, t.user = some (u, w)
  · obtain ⟨w, hw⟩ := hwrites
    obtain ⟨-, r, hr, rfl⟩ := h.user u w hw
    rw [Txn.apply_users_self hw, hr]
    cases hcall : t.call with
    | resetPassword token password hash =>
        cases outcome with
        | consumed c u' p now =>
            obtain ⟨rfl, -, -, hreset⟩ := hp
            have hpurpose : t.call.purpose = .reset := by rw [hcall]; rfl
            obtain ⟨-, w', hw'⟩ := hreset hpurpose
            obtain ⟨rfl, -⟩ := Prod.mk.inj (Option.some.inj (hw'.symm.trans hw))
            exact absurd (by rw [hpurpose]) (hother c now)
        | peeked _ => cases hp.2.symm.trans hw
        | refused _ => cases hp.2.symm.trans hw
        | touched =>
            obtain ⟨-, tenantID, user, htouch⟩ := hp
            cases hcall.symm.trans htouch
    | consumeMagicLink token => rfl
    | consumeResetLink token => rfl
    | touchLastLogin tenantID user => rfl
  · rw [Txn.apply_users_of_ne fun w hw => hwrites ⟨w, hw⟩]

/-- A commit that consumes nothing has written no link. -/
theorem PointInv.link_eq_none {outcome : Outcome} (hp : PointInv t (.commit outcome))
    (hconsumes : ∀ c, (Event.ended outcome).consumes c = false) : t.link = none := by
  cases outcome with
  | consumed c u p now => exact absurd (decide_eq_true rfl) (Bool.eq_false_iff.mp (hconsumes c))
  | peeked _ => exact hp.1
  | refused _ => exact hp.1
  | touched => exact hp.1

theorem TxnInv.winner_ended (h : TxnInv d held t) {outcome : Outcome} (hpoint : t.point = .commit outcome)
    (hwinner : SingleWinner d₀ log d) : SingleWinner d₀ (log ++ [.ended outcome]) (t.apply d) := by
  have hp := h.point
  rw [hpoint] at hp
  by_cases hconsumes : ∀ c, (Event.ended outcome).consumes c = false
  · have hlink := hp.link_eq_none hconsumes
    refine hwinner.snoc_plain hconsumes (funext fun c => ?_) (fun u => ?_) rfl
    · exact Txn.apply_links_of_ne fun w hw => absurd (hlink.symm.trans hw) (Option.some_ne_none _).symm
    · refine h.passwordHash_apply hp fun c now heq => ?_
      have hfalse := hconsumes c
      rw [heq, Event.consumes, decide_eq_false_iff_not] at hfalse
      exact hfalse rfl
  · cases outcome with
    | consumed c u p now =>
        obtain ⟨rfl, rfl, ⟨w, hw, rfl⟩, -⟩ := id hp
        obtain ⟨-, l, hl, hopen, hvalid, hpurpose, rfl⟩ := h.link c w hw
        rw [← hpurpose]
        refine hwinner.snoc_consumed (l := l) hl hopen hvalid (Txn.apply_links_self hw) (fun c' hne => ?_)
          (fun u hother => ?_) rfl
        · refine Txn.apply_links_of_ne fun w' hw' => hne ?_
          exact (Prod.mk.inj (Option.some.inj (hw'.symm.trans hw))).1
        · refine h.passwordHash_apply hp fun c' now' heq => hother ?_
          obtain ⟨-, huser, hreset, -⟩ := Outcome.consumed.inj heq
          exact ⟨huser, hpurpose.trans hreset⟩
    | peeked _ => exact absurd (fun _ => rfl) hconsumes
    | refused _ => exact absurd (fun _ => rfl) hconsumes
    | touched => exact absurd (fun _ => rfl) hconsumes

theorem commit_spec (h : Inv d₀ log s) (htxn : s.txns.txn tx = some t) {outcome : Outcome}
    (hpoint : t.point = .commit outcome) (appNow : Time) :
    StepSpec d₀ log s (⟨t.apply s.tables, afterCommit s tx t outcome appNow⟩, .ended outcome) := by
  have ht := h.each tx t htxn
  have hp := ht.point
  rw [hpoint] at hp
  have hclosed : (s.txns.close tx).Each TxnInv (t.apply s.tables) :=
    h.each.close fun j x hj _ hx => hx.kept (ht.kept_apply fun _ hk hk' => hj (hk'.unique hk))
  refine ⟨⟨?_, ht.winner_ended hpoint h.winner⟩, fun hconsumes => ⟨funext fun c => ?_, fun u => ?_⟩,
    fun c u now heq => ?_⟩
  · unfold afterCommit
    split
    · split
      · exact hclosed
      · exact hclosed.put (.unwritten rfl rfl ⟨rfl, rfl⟩)
    · exact hclosed
  · have hlink := hp.link_eq_none hconsumes
    exact Txn.apply_links_of_ne fun w hw => absurd (hlink.symm.trans hw) (Option.some_ne_none _).symm
  · refine ht.passwordHash_apply hp fun c now heq => ?_
    have hfalse := hconsumes c
    rw [heq, Event.consumes, decide_eq_false_iff_not] at hfalse
    exact hfalse rfl
  · obtain rfl := Event.ended.inj heq
    obtain ⟨-, -, -, hreset⟩ := hp
    obtain ⟨⟨token, password, hash, hcall⟩, w, hw⟩ := hreset rfl
    obtain ⟨-, r, hr, rfl⟩ := ht.user u w hw
    refine ⟨tx, t, token, password, htxn, ?_⟩
    rw [Tables.passwordHash, Txn.apply_users_self hw, hcall]
    rfl

theorem stepTxn_spec (h : Inv d₀ log s) (htxn : s.txns.txn tx = some t) {appNow : Time}
    (hstep : stepTxn sha256 s tx t appNow = some r) : StepSpec d₀ log s r := by
  have ht := h.each tx t htxn
  have hp := ht.point
  unfold stepTxn at hstep
  dsimp only at hstep
  split at hstep
  · next hpoint =>
      obtain rfl := Option.some.inj hstep
      rw [hpoint] at hp
      exact stepStart_spec h ht hp.1 hp.2 appNow
  · next hpoint =>
      rw [hpoint] at hp
      obtain ⟨hlink, huser, hpeek⟩ := hp
      split at hstep
      · next hfree =>
          obtain rfl := Option.some.inj hstep
          split
          · exact h.goTo ht ⟨hlink, huser⟩
          · next l hl => exact h.lockPut hfree (.consume huser hpeek hl)
      · cases hstep
  · next hpoint =>
      obtain rfl := Option.some.inj hstep
      rw [hpoint] at hp
      exact h.goTo ht hp
  · next user then' hpoint =>
      obtain rfl := Option.some.inj hstep
      rw [hpoint] at hp
      split
      · exact h.goTo ht hp
      · exact updatedNone_spec h ht hp
  · next user then' hpoint =>
      rw [hpoint] at hp
      split at hstep
      · next hfree =>
          obtain rfl := Option.some.inj hstep
          split
          · exact updatedNone_spec h ht hp
          · next u hu => exact h.lockPut hfree (ht.updateUser hpoint (Option.filter_eq_some_iff.mp hu).1)
      · cases hstep
  · next outcome hpoint =>
      obtain rfl := Option.some.inj hstep
      exact commit_spec h htxn hpoint appNow

theorem step_spec (h : Inv d₀ log s) {a : Action} (hstep : step sha256 s a = some r) : StepSpec d₀ log s r := by
  cases a with
  | begin tx now call =>
      simp only [step] at hstep
      split at hstep
      · cases hstep
      · split at hstep
        · obtain rfl := Option.some.inj hstep
          exact h.uncommitted h.each fun _ heq => by cases heq
        · obtain rfl := Option.some.inj hstep
          exact h.put (.unwritten rfl rfl ⟨rfl, rfl⟩)
  | next tx appNow =>
      obtain ⟨t, ht, hstep⟩ := Option.bind_eq_some_iff.mp hstep
      exact stepTxn_spec h ht hstep
  | rollback tx =>
      simp only [step] at hstep
      split at hstep
      · cases hstep
      · obtain rfl := Option.some.inj hstep
        exact h.fail tx _

theorem inv_start (d : Tables) : Inv d [] (start d) :=
  ⟨Txns.Each.idle, fun _ => Nat.zero_le 1, fun _ _ _ _ hmem => absurd hmem List.not_mem_nil, fun _ _ => rfl,
    fun _ _ => rfl, rfl⟩

end steps

section runs

variable {sha256 : String → String} {d : Tables} {log : List Event} {s : State}

theorem inv_run (hrun : (system sha256).Run (start d) log s) : Inv d log s :=
  hrun.invariant (Inv d) (inv_start d) fun _ _ _ _ _ hinv _ hstep => (step_spec hinv hstep).inv

/-- Under every interleaving of the calls: each link has one winner, of its purpose and before it expires; a step that
consumes no link, and so every step of a reset that fails, leaves links and passwords as they were; and a reset that
consumes its link has set the password. -/
theorem link_single_winner (hrun : (system sha256).Run (start d) log s) :
    SingleWinner d log s.tables ∧
      ∀ a s' e, step sha256 s a = some (s', e) →
        ((∀ h, e.consumes h = false) → s'.tables.links = s.tables.links ∧
          ∀ u, s'.tables.passwordHash u = s.tables.passwordHash u) ∧ SetsPassword s s' e := by
  have hinv := inv_run hrun
  exact ⟨hinv.winner, fun _ _ _ hstep => ⟨(step_spec hinv hstep).unconsumed, (step_spec hinv hstep).password⟩⟩

end runs

/-- One user, with a reset link and a login link. -/
def twoLinks : Tables where
  links := Function.update (Function.update (fun _ => none) "5c9f" (some ⟨7, seconds 1860, none, .reset⟩))
    "a3d0" (some ⟨7, seconds 960, none, .login⟩)
  users := Function.update (fun _ => none) 7 (some ⟨acme, "u@acme.test", none, none⟩)
  sessions := ∅

/-- The hashes of the two tokens of the run below. -/
def tokenHash (token : String) : String := if token = "reset" then "5c9f" else "a3d0"

/-- A reset that is rolled back after it has consumed its link; a login that tries the reset link; two more resets,
of which the second waits for the first; and a login. -/
def racingResets : List Action :=
  [.begin 0 (seconds 60) (.resetPassword "reset" "first-password" (some "$2a$10$first")), .next 0 0, .next 0 0,
    .rollback 0,
    .begin 1 (seconds 61) (.consumeMagicLink "reset"), .next 1 (seconds 61), .next 1 (seconds 61), .next 1 (seconds 61),
    .begin 2 (seconds 62) (.resetPassword "reset" "second-password" (some "$2a$10$second")),
    .begin 3 (seconds 63) (.resetPassword "reset" "third-password" (some "$2a$10$third")),
    .next 2 0, .next 3 0, .next 2 0, .next 2 0, .next 2 0, .next 2 0, .next 3 0, .next 3 (seconds 64),
    .next 3 (seconds 64),
    .begin 4 (seconds 65) (.consumeMagicLink "login"), .next 4 0, .next 4 0, .next 4 (seconds 66), .next 4 0, .next 4 0,
    .next 4 0, .next 4 0]

theorem racingResets_runs : ((system tokenHash).execIf (fun _ _ _ => True) [] (start twoLinks) racingResets).any
    (fun r => decide (r.1.countP (Event.consumes "5c9f") = 1) && decide (r.1.countP (Event.consumes "a3d0") = 1) &&
      decide (r.2.tables.passwordHash 7 = some "$2a$10$second")) = true := by
  decide +kernel

theorem racingResets_single_winner : ∃ log s, (system tokenHash).Run (start twoLinks) log s ∧
    SingleWinner twoLinks log s.tables ∧ log.countP (Event.consumes "5c9f") = 1 ∧
    s.tables.passwordHash 7 = some "$2a$10$second" := by
  obtain ⟨log, s, hrun, htest⟩ := Machine.exists_runIf_of_any racingResets_runs
  obtain ⟨hcounts, hpassword⟩ := Bool.and_eq_true_iff.mp htest
  exact ⟨log, s, hrun, (link_single_winner hrun).1, of_decide_eq_true (Bool.and_eq_true_iff.mp hcounts).1,
    of_decide_eq_true hpassword⟩

end ThesadaApp.Links
