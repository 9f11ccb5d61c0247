import ThesadaApp.PairMoves

/-!
What a pairing leaves behind, whatever runs beside it. Every command that was sent to a device has had its row before;
the row is live only when the device has acknowledged each command and the broker was set up; and the audit row says
what became of it, but for a change whose answer was lost.
-/

namespace ThesadaApp.PairIssue

open Certs (Certificate CertStatus)

variable {cfg : Config} {s s' : State} {log pre post : List Event} {k : Nat} {att : Attempt} {e : Event}

section system

def Event.certsEvent : Event → Option Certs.Event
  | .persisted _ e _ | .activated _ e _ | .markedFailed _ e _ | .certs e => some e
  | _ => none

/-- What the calls have done to the certificates. -/
def certsLog (log : List Event) : List Certs.Event := log.filterMap Event.certsEvent

/-- The status of the row of a request, by what has happened to it. -/
def decided (l : List Event) (k : Nat) : CertStatus :=
  if ∃ answered, .activated k .changed answered ∈ l then .active
  else if ∃ answered, .markedFailed k .changed answered ∈ l then .failed
  else .pending

/-- The requests, the certificates and the log. -/
structure Inv (cfg : Config) (log : List Event) (s : State) : Prop where
  certs : (Certs.system cfg.certs).RunIf Certs.FreshSerial Certs.init (certsLog log) s.store
  point : ∀ k att, s.attempts[k]? = some att → PointLog cfg (own log k) k att
  began : ∀ k att, s.attempts[k]? = some att → .began k att.signed.serialHex ∈ log
  known : ∀ e ∈ log, ∀ k, e.request = some k → k < s.attempts.length
  drawn : (log.filterMap Event.drawn).Nodup
  ids : (log.filterMap Event.rowID).Nodup
  flips : ∀ k e answered, .activated k e answered ∈ log ∨ .markedFailed k e answered ∈ log → e.newRow = none
  row : ∀ k att, s.attempts[k]? = some att → ∀ c ∈ s.store.certs, c.serialHex = att.signed.serialHex →
    c.id = att.certID ∧ c.status = decided (own log k) k

variable {c : Certificate} {dev : String} {p : Point}

theorem inv_boot : Inv cfg [] boot where
  certs := .nil
  point _ _ h := by cases h
  began _ _ h := by cases h
  known _ h := absurd h List.not_mem_nil
  drawn := List.nodup_nil
  ids := List.nodup_nil
  flips _ _ _ h := by cases h <;> exact absurd ‹_› List.not_mem_nil
  row _ _ h := by cases h

/-- A row that is in the tables was stored by a request or by another caller. -/
theorem Inv.issued_by (h : Inv cfg log s) (hissued : .issued c dev ∈ certsLog log) :
    (∃ k answered, .persisted k (.issued c dev) answered ∈ log) ∨ .certs (.issued c dev) ∈ log := by
  obtain ⟨e, he, hcerts⟩ := List.mem_filterMap.mp hissued
  cases e with
  | persisted k e answered =>
      cases hcerts
      exact .inl ⟨k, answered, he⟩
  | certs e =>
      cases hcerts
      exact .inr he
  | activated k e answered =>
      cases hcerts
      cases h.flips k _ answered (.inl he)
  | markedFailed k e answered =>
      cases hcerts
      cases h.flips k _ answered (.inr he)
  | began | refused | pushed | skipped | provisioned | restarted | down | audited | unaudited => cases hcerts

theorem PointLog.noRow {l : List Event} (h : PointLog cfg l k att) (hp : att.point = .persist) : NoRow l k := by
  rwa [PointLog, hp] at h

/-- What a request has stored is its own. -/
theorem PointLog.persisted {l : List Event} {answered : Bool} (h : PointLog cfg l k att)
    (hmem : .persisted k (.issued c dev) answered ∈ l) : att.Row c := by
  unfold PointLog at h
  cases hp : att.point with
  | persist =>
      rw [hp] at h
      exact absurd hmem (h.persisted c dev answered)
  | answered =>
      rw [hp] at h
      obtain hnone | hstored | hstored := h
      · exact absurd hmem (hnone.persisted c dev answered)
      · exact hstored.1.row c dev answered hmem
      · exact hstored.1.row c dev answered hmem
  | clientCert | clientKey | port | secrets | dynsec | activate | failing | restart | audit =>
      rw [hp] at h
      exact h.1.row c dev answered hmem

theorem mem_drawn {serial : String} (he : e ∈ log) (hdrawn : e.drawn = some serial) :
    serial ∈ log.filterMap Event.drawn := List.mem_filterMap.mpr ⟨e, he, hdrawn⟩

theorem Inv.attempt (h : Inv cfg log s) (he : e ∈ log) (hk : e.request = some k) : ∃ att, s.attempts[k]? = some att :=
  ⟨_, List.getElem?_eq_getElem (h.known e he k hk)⟩

/-- Two requests do not share a serial. -/
theorem Inv.eq_of_serial (h : Inv cfg log s) {k' : Nat} {att' : Attempt} (hk : s.attempts[k]? = some att)
    (hk' : s.attempts[k']? = some att') (hserial : att'.signed.serialHex = att.signed.serialHex) : k' = k := by
  have heq := Machine.eq_of_nodup_marks h.drawn (h.began k' att' hk') (h.began k att hk) rfl
    (congrArg some hserial.symm)
  exact (Event.began.inj heq).1

theorem certsLog_snoc {ev : Certs.Event} (he : e.certsEvent = some ev) :
    certsLog (log ++ [e]) = certsLog log ++ [ev] := by
  rw [certsLog, List.filterMap_append, List.filterMap_cons_some he, List.filterMap_nil, certsLog]

theorem certsLog_quiet (he : e.certsEvent = none) : certsLog (log ++ [e]) = certsLog log := by
  rw [certsLog, List.filterMap_append, List.filterMap_cons_none he, List.filterMap_nil, List.append_nil, certsLog]

theorem Inv.certs_snoc (h : Inv cfg log s) {a : Certs.Action} {store : Certs.Store} {ev : Certs.Event}
    (hcall : call cfg s.store a = some (store, ev)) (he : e.certsEvent = some ev)
    (hfresh : ∀ serial ∈ a.serial, serial ∉ Certs.serials (certsLog log)) :
    (Certs.system cfg.certs).RunIf Certs.FreshSerial Certs.init (certsLog (log ++ [e])) store := by
  rw [certsLog_snoc he]
  exact h.certs.snoc (a := a) hfresh hcall

theorem decided_snoc {l : List Event} (h : e.Steady k) : decided (l ++ [e]) k = decided l k := by
  simp only [decided, mem_snoc_of_ne (h.1 _).symm, mem_snoc_of_ne (h.2 _).symm]

theorem decided_active {l : List Event} {answered : Bool} (h : .activated k .changed answered ∈ l) :
    decided l k = .active := if_pos ⟨answered, h⟩

theorem decided_failed {l : List Event} {answered : Bool} (hactivated : ∀ answered, .activated k .changed answered ∉ l)
    (h : .markedFailed k .changed answered ∈ l) : decided l k = .failed := by
  rw [decided, if_neg (not_exists.mpr hactivated), if_pos ⟨answered, h⟩]

theorem decided_pending {l : List Event} (hactivated : ∀ answered, .activated k .changed answered ∉ l)
    (hmarked : ∀ answered, .markedFailed k .changed answered ∉ l) : decided l k = .pending := by
  rw [decided, if_neg (not_exists.mpr hactivated), if_neg (not_exists.mpr hmarked)]

theorem get_put {k' : Nat} {att' found : Attempt} (h : (s.put k att').attempts[k']? = some found) :
    (k' = k ∧ found = att') ∨ (k' ≠ k ∧ s.attempts[k']? = some found) := Machine.getElem?_set_cases h

/-- The serial of a row was drawn. -/
theorem Inv.serial_of_issued (h : Inv cfg log s) (hissued : .issued c dev ∈ certsLog log) :
    (∃ k att answered, s.attempts[k]? = some att ∧ .persisted k (.issued c dev) answered ∈ log ∧ att.Row c) ∨
      .certs (.issued c dev) ∈ log := by
  obtain ⟨k, answered, hk⟩ | hcerts := h.issued_by hissued
  · obtain ⟨att, hatt⟩ := h.attempt hk rfl
    exact .inl ⟨k, att, answered, hatt, hk, (h.point k att hatt).persisted (mem_own.mpr ⟨hk, rfl⟩)⟩
  · exact .inr hcerts

theorem Inv.drawn_of_serial (h : Inv cfg log s) {serial : String} (hmem : serial ∈ Certs.serials (certsLog log)) :
    serial ∈ log.filterMap Event.drawn := by
  obtain ⟨ev, hev, hserial⟩ := List.mem_filterMap.mp hmem
  cases ev with
  | issued c dev =>
      cases hserial
      obtain ⟨k, att, answered, hatt, -, hrow⟩ | hcerts := h.serial_of_issued hev
      · exact mem_drawn (h.began k att hatt) (congrArg some hrow.serialHex.symm)
      · exact mem_drawn hcerts rfl
  | deleted | changed | failed => cases hserial

/-- A request without a row has a serial that nobody has stored. -/
theorem Inv.not_stored (h : Inv cfg log s) (hk : s.attempts[k]? = some att)
    (hnone : ∀ row dev answered, .persisted k (.issued row dev) answered ∉ log) :
    att.signed.serialHex ∉ Certs.serials (certsLog log) := by
  intro hmem
  obtain ⟨ev, hev, hserial⟩ := List.mem_filterMap.mp hmem
  cases ev with
  | issued c dev =>
      have hsame : c.serialHex = att.signed.serialHex := Option.some.inj hserial
      obtain ⟨k', att', answered, hatt', hpersisted, hrow⟩ | hcerts := h.serial_of_issued hev
      · obtain rfl := h.eq_of_serial hk hatt' (hrow.serialHex.symm.trans hsame)
        exact hnone c dev answered hpersisted
      · cases Machine.eq_of_nodup_marks h.drawn hcerts (h.began k att hk) (congrArg some hsame) rfl
  | deleted | changed | failed => cases hserial

theorem Inv.undrawn (h : Inv cfg log s) (hk : s.attempts[k]? = some att) (hnone : NoRow (own log k) k) :
    att.signed.serialHex ∉ Certs.serials (certsLog log) :=
  h.not_stored hk fun row dev answered hmem => hnone.persisted row dev answered (mem_own.mpr ⟨hmem, rfl⟩)

theorem Inv.mem_serials (h : Inv cfg log s) (hc : c ∈ s.store.certs) : c.serialHex ∈ Certs.serials (certsLog log) := by
  obtain ⟨c₀, d, hissued, hkept, -⟩ := (Certs.inv_run h.certs).row c hc
  rw [hkept.serialHex]
  exact Certs.mem_serials hissued

/-- A row with the serial of a request is the one it has stored. -/
theorem Inv.stored_of_row (h : Inv cfg log s) (hk : s.attempts[k]? = some att) (hc : c ∈ s.store.certs)
    (hserial : c.serialHex = att.signed.serialHex) :
    ∃ row dev answered, .persisted k (.issued row dev) answered ∈ log ∧ att.Row row := by
  by_contra hnone
  refine h.not_stored hk (fun row dev answered hmem => hnone ⟨row, dev, answered, hmem, ?_⟩)
    (hserial ▸ h.mem_serials hc)
  exact (h.point k att hk).persisted (mem_own.mpr ⟨hmem, rfl⟩)

/-- Two requests do not share a row. -/
theorem Inv.eq_of_certID (h : Inv cfg log s) {k' : Nat} {row row' : Certificate} {dev dev' : String}
    {answered answered' : Bool} (hrow : .persisted k (.issued row dev) answered ∈ log)
    (hrow' : .persisted k' (.issued row' dev') answered' ∈ log) (hid : row.id = row'.id) : k = k' :=
  (Event.persisted.inj (Machine.eq_of_nodup_marks h.ids hrow hrow' rfl (congrArg some hid.symm))).1

/-- The row with the id that a request holds is the one with its serial. -/
theorem Inv.serial_of_certID (h : Inv cfg log s) (hstored : Stored (own log k) k att) (hc : c ∈ s.store.certs)
    (hid : c.id = att.certID) : c.serialHex = att.signed.serialHex := by
  obtain ⟨row, dev, answered, hmem⟩ := hstored.persisted
  have hmine := hstored.row row dev answered hmem
  obtain ⟨row', dev', hissued, hid', hserial'⟩ := Certs.issued_of_row h.certs hc
  have hsame : row'.id = row.id := hid'.trans (hid.trans hmine.id.symm)
  obtain ⟨k', answered', hpersisted⟩ | hcerts := h.issued_by hissued
  · have heq := Machine.eq_of_nodup_marks h.ids hpersisted (mem_own.mp hmem).1 rfl (congrArg some hsame.symm)
    obtain rfl := (Certs.Event.issued.inj (Event.persisted.inj heq).2.1).1
    exact hserial'.symm.trans hmine.serialHex
  · cases Machine.eq_of_nodup_marks h.ids hcerts (mem_own.mp hmem).1 rfl (congrArg some hsame.symm)

/-- A call that flips no status, and inserts no row of the request. -/
theorem Inv.row_kept (h : Inv cfg log s) {a : Certs.Action} {store : Certs.Store} {ev : Certs.Event}
    (hcall : call cfg s.store a = some (store, ev)) (hsets : ∀ old status, ¬ a.sets old status)
    (hk : s.attempts[k]? = some att) (hnew : ∀ row ∈ ev.newRow, row.serialHex ≠ att.signed.serialHex)
    (hc : c ∈ store.certs) (hserial : c.serialHex = att.signed.serialHex) :
    c.id = att.certID ∧ c.status = decided (own log k) k := by
  obtain ⟨old, hold, hmoved⟩ | hissued := (Certs.step_rows hcall).1 c hc
  · obtain ⟨hid, hstatus⟩ := h.row k att hk old hold (hmoved.kept.serialHex.symm.trans hserial)
    exact ⟨hmoved.id.trans hid, (hmoved.status.resolve_right (hsets old _)).trans hstatus⟩
  · exact absurd hserial (hnew c hissued)

/-- A step of a request, put together. -/
theorem Inv.request_step (h : Inv cfg log s) (hk : s.attempts[k]? = some att) (he : e.request = some k)
    {att' : Attempt} (store : Certs.Store) (hsigned : att'.signed = att.signed)
    (hpoint : PointLog cfg (own log k ++ [e]) k att')
    (hcerts : (Certs.system cfg.certs).RunIf Certs.FreshSerial Certs.init (certsLog (log ++ [e])) store)
    (hdrawn : e.drawn = none) (hids : ∀ id ∈ e.rowID, id ∉ log.filterMap Event.rowID)
    (hflips : ∀ k ev answered, e = .activated k ev answered ∨ e = .markedFailed k ev answered → ev.newRow = none)
    (hmine : ∀ c ∈ store.certs, c.serialHex = att.signed.serialHex →
      c.id = att'.certID ∧ c.status = decided (own log k ++ [e]) k)
    (hothers : ∀ k' att'', k' ≠ k → s.attempts[k']? = some att'' → ∀ c ∈ store.certs,
      c.serialHex = att''.signed.serialHex → c.id = att''.certID ∧ c.status = decided (own log k') k') :
    Inv cfg (log ++ [e]) ({ s with store }.put k att') := by
  have hother : ∀ k', k' ≠ k → e.request ≠ some k' := fun k' hne heq =>
    hne (Option.some.inj (heq.symm.trans he))
  refine ⟨hcerts, ?_, ?_, ?_, ?_, ?_, ?_, ?_⟩
  · intro k' found hfound
    obtain ⟨rfl, rfl⟩ | ⟨hne, hfound⟩ := get_put hfound
    · rw [own_snoc he]
      exact hpoint
    · rw [own_other (hother k' hne)]
      exact h.point k' found hfound
  · intro k' found hfound
    obtain ⟨rfl, rfl⟩ | ⟨hne, hfound⟩ := get_put hfound
    · rw [hsigned]
      exact List.mem_append_left _ (h.began k' att hk)
    · exact List.mem_append_left _ (h.began k' found hfound)
  · intro e' he' k' hk'
    have hlength : ({ s with store }.put k att').attempts.length = s.attempts.length := List.length_set
    rw [hlength]
    obtain hpast | hnow := List.mem_append.mp he'
    · exact h.known e' hpast k' hk'
    · rw [List.mem_singleton.mp hnow, he] at hk'
      obtain rfl := Option.some.inj hk'
      exact (List.getElem?_eq_some_iff.mp hk).1
  · refine Machine.nodup_marks_snoc h.drawn fun serial hserial => ?_
    rw [hdrawn] at hserial
    cases hserial
  · exact Machine.nodup_marks_snoc h.ids hids
  · intro k' ev answered hmem
    obtain hmem | hmem := hmem
    · obtain hpast | hnow := List.mem_append.mp hmem
      · exact h.flips k' ev answered (.inl hpast)
      · exact hflips k' ev answered (.inl (List.mem_singleton.mp hnow).symm)
    · obtain hpast | hnow := List.mem_append.mp hmem
      · exact h.flips k' ev answered (.inr hpast)
      · exact hflips k' ev answered (.inr (List.mem_singleton.mp hnow).symm)
  · intro k' found hfound c hc hserial
    obtain ⟨rfl, rfl⟩ | ⟨hne, hfound⟩ := get_put hfound
    · rw [own_snoc he]
      exact hmine c hc (hserial.trans (congrArg EnrollApi.SignedCert.serialHex hsigned))
    · rw [own_other (hother k' hne)]
      exact hothers k' found hne hfound c hc hserial

/-- A step of a request that leaves the rows as they are. -/
theorem Inv.idle_step (h : Inv cfg log s) (hk : s.attempts[k]? = some att) (he : e.request = some k)
    {att' : Attempt} (hsigned : att'.signed = att.signed) (hcertID : att'.certID = att.certID)
    (hpoint : PointLog cfg (own log k ++ [e]) k att')
    (hcerts : (Certs.system cfg.certs).RunIf Certs.FreshSerial Certs.init (certsLog (log ++ [e])) s.store)
    (hdrawn : e.drawn = none) (hid : e.rowID = none)
    (hflips : ∀ k ev answered, e = .activated k ev answered ∨ e = .markedFailed k ev answered → ev.newRow = none)
    (hsteady : e.Steady k) :
    Inv cfg (log ++ [e]) (s.put k att') := by
  refine h.request_step hk he s.store hsigned hpoint hcerts hdrawn ?_ hflips ?_ ?_
  · intro id hmem
    rw [hid] at hmem
    cases hmem
  · intro c hc hserial
    rw [decided_snoc hsteady, hcertID]
    exact h.row k att hk c hc hserial
  · intro k' att'' hne hk' c hc hserial
    exact h.row k' att'' hk' c hc hserial

/-- A step of a request that calls nothing. -/
theorem Inv.moved_step (h : Inv cfg log s) (hk : s.attempts[k]? = some att) (hmove : Move cfg k att p e) :
    Inv cfg (log ++ [e]) (s.put k (att.to p)) := by
  have hquiet : e.request = some k ∧ e.certsEvent = none ∧ e.drawn = none ∧ e.rowID = none ∧
      ∀ k ev answered, e ≠ .activated k ev answered ∧ e ≠ .markedFailed k ev answered := by
    cases hmove <;> simp [Event.request, Event.certsEvent, Event.drawn, Event.rowID]
  obtain ⟨he, hcerts, hdrawn, hid, hflips⟩ := hquiet
  have hsteady : e.Steady k := ⟨fun answered => (hflips k _ answered).1, fun answered => (hflips k _ answered).2⟩
  refine h.idle_step hk he rfl rfl (hmove.pointLog (h.point k att hk)) ?_ hdrawn hid ?_ hsteady
  · rw [certsLog_quiet hcerts]
    exact h.certs
  · rintro k ev answered (heq | heq)
    · exact absurd heq (hflips k ev answered).1
    · exact absurd heq (hflips k ev answered).2

/-- A call of `Activate` or `MarkFailed` by request `k`, and what it does to the rows of all requests. -/
theorem Inv.flip_rows (h : Inv cfg log s) {a : Certs.Action} {store : Certs.Store} {status : CertStatus}
    (hk : s.attempts[k]? = some att) (hstored : Stored (own log k) k att) {ev : Certs.Event}
    (hcall : call cfg s.store a = some (store, ev)) (hflip : Certs.Flipped s.store store att.certID status)
    (hsets : ∀ old st, a.sets old st → old.id = att.certID) (hnew : ev.newRow = none) :
    (∀ c ∈ store.certs, c.serialHex = att.signed.serialHex → c.id = att.certID ∧ c.status = status) ∧
      ∀ k' att'', k' ≠ k → s.attempts[k']? = some att'' → ∀ c ∈ store.certs,
        c.serialHex = att''.signed.serialHex → c.id = att''.certID ∧ c.status = decided (own log k') k' := by
  constructor
  · intro c hc hserial
    obtain ⟨old, hold, hmoved⟩ | hissued := (Certs.step_rows hcall).1 c hc
    · have hid := (h.row k att hk old hold (hmoved.kept.serialHex.symm.trans hserial)).1
      exact ⟨hmoved.id.trans hid, hflip.flipped c hc (hmoved.id.trans hid)⟩
    · rw [hnew] at hissued
      cases hissued
  · intro k' att'' hne hk' c hc hserial
    obtain ⟨old, hold, hmoved⟩ | hissued := (Certs.step_rows hcall).1 c hc
    · have hserial' := hmoved.kept.serialHex.symm.trans hserial
      obtain ⟨hid, hstatus⟩ := h.row k' att'' hk' old hold hserial'
      refine ⟨hmoved.id.trans hid, (hmoved.status.resolve_right fun hset => ?_).trans hstatus⟩
      -- the row would be of both requests
      obtain ⟨row, dev, answered, hpersisted⟩ := hstored.persisted
      obtain ⟨row', dev', answered', hpersisted', hrow'⟩ := h.stored_of_row hk' hold hserial'
      have hmine := hstored.row row dev answered hpersisted
      exact hne (h.eq_of_certID hpersisted' (mem_own.mp hpersisted).1
        (hrow'.id.trans (hid.symm.trans ((hsets old _ hset).trans hmine.id.symm))))
    · rw [hnew] at hissued
      cases hissued

theorem Inv.persisted_step (h : Inv cfg log s) {id : Nat} {now : Time} {store : Certs.Store} {answered : Bool}
    (hk : s.attempts[k]? = some att) (hp : att.point = .persist)
    (hcall : call cfg s.store (.issuePending att.device.tenantID att.device.id now ⟨id, att.signed.serialHex, att.cn⟩) =
      some (store, .issued c dev)) (hid : id ∉ log.filterMap Event.rowID) :
    Inv cfg (log ++ [.persisted k (.issued c dev) answered])
      ({ s with store }.put k { att with certID := id, point := if answered then .clientCert else .answered }) := by
  have hissued := Certs.issuePending_issued hcall
  have hpoint := (h.point k att hk).noRow hp
  have hfresh := h.undrawn hk hpoint
  have hstored : ∀ point, Stored (own log k ++ [.persisted k (.issued c dev) answered]) k
      { att with certID := id, point } := by
    refine fun point => ⟨⟨c, dev, answered, List.mem_append_right _ List.mem_cons_self⟩,
      fun row deviceID answered' hmem => ?_⟩
    obtain hpast | hnow := List.mem_append.mp hmem
    · exact absurd hpast (hpoint.persisted row deviceID answered')
    · cases List.mem_singleton.mp hnow
      exact hissued
  have hundecided : Undecided (own log k ++ [.persisted k (.issued c dev) answered]) k :=
    hpoint.undecided.snoc ⟨⟨by simp, by simp⟩, rfl⟩
  have hnext : PointLog cfg (own log k ++ [.persisted k (.issued c dev) answered]) k
      { att with certID := id, point := if answered then .clientCert else .answered } := by
    cases answered with
    | true =>
        exact ⟨hstored _, hundecided, [], fun c hc => absurd hc List.not_mem_nil, fun _ => rfl,
          (sent_snoc_of_quiet rfl).trans hpoint.sent⟩
    | false =>
        refine .inr (.inl ⟨hstored _, hundecided, fun row deviceID hmem => ?_⟩)
        exact hpoint.persisted row deviceID true ((mem_snoc_of_ne (by simp)).mp hmem)
  refine h.request_step hk rfl _ rfl hnext ?_ rfl ?_ ?_ ?_ ?_
  · refine h.certs_snoc hcall rfl fun serial hserial hmem => ?_
    obtain rfl := Option.some.inj hserial
    exact hfresh hmem
  · intro id' hid'
    obtain rfl : c.id = id' := Option.some.inj hid'
    rw [hissued.id]
    exact hid
  · rintro k' ev answered' (heq | heq) <;> cases heq
  · intro c' hc' hserial
    rw [decided_pending hundecided.activated hundecided.markedFailed]
    obtain ⟨old, hold, hmoved⟩ | hnew := (Certs.step_rows hcall).1 c' hc'
    · exact absurd (h.mem_serials hold) (by rw [← hmoved.kept.serialHex, hserial]; exact hfresh)
    · obtain rfl := Option.some.inj hnew
      exact ⟨hissued.id, hissued.status⟩
  · intro k' att'' hne hk' c' hc' hserial
    refine h.row_kept hcall (fun old status hset => hset) hk' (fun row hrow heq => hne ?_) hc' hserial
    obtain rfl := Option.some.inj hrow
    exact (h.eq_of_serial hk' hk (hissued.serialHex.symm.trans heq)).symm

theorem Inv.persistFailed_step (h : Inv cfg log s) {id : Nat} {now : Time} {store : Certs.Store}
    {ev : Certs.Event} {answered : Bool} (hk : s.attempts[k]? = some att) (hp : att.point = .persist)
    (hcall : call cfg s.store (.issuePending att.device.tenantID att.device.id now ⟨id, att.signed.serialHex, att.cn⟩) =
      some (store, ev)) (hev : ∀ c dev, ev ≠ .issued c dev) :
    Inv cfg (log ++ [.persisted k ev answered]) ({ s with store }.put k (att.to .answered)) := by
  have hpoint := (h.point k att hk).noRow hp
  have hfresh := h.undrawn hk hpoint
  have hnew : ev.newRow = none := by
    cases ev with
    | issued c dev => exact absurd rfl (hev c dev)
    | deleted | changed | failed => rfl
  have hnone : ∀ {serial}, ∀ row ∈ ev.newRow, row.serialHex ≠ serial := by
    intro serial row hrow
    rw [hnew] at hrow
    cases hrow
  have hidle : (Event.persisted k ev answered).Idle k := ⟨⟨by simp, by simp⟩, rfl⟩
  refine h.request_step hk rfl _ rfl (.inl ⟨?_, ?_, ?_⟩) ?_ rfl ?_ ?_ ?_ ?_
  · intro row deviceID answered' hmem
    obtain hpast | hnow := List.mem_append.mp hmem
    · exact hpoint.persisted row deviceID answered' hpast
    · exact hev row deviceID (Event.persisted.inj (List.mem_singleton.mp hnow)).2.1.symm
  · rw [sent_snoc_of_quiet rfl]
    exact hpoint.sent
  · exact hpoint.undecided.snoc hidle
  · refine h.certs_snoc hcall rfl fun serial hserial hmem => ?_
    obtain rfl := Option.some.inj hserial
    exact hfresh hmem
  · intro id hid
    rw [Event.rowID, hnew] at hid
    cases hid
  · rintro k' ev' answered' (heq | heq) <;> cases heq
  · intro c hc hserial
    rw [decided_snoc hidle.1]
    have hkept := h.row_kept hcall (fun old status hset => hset) hk hnone hc hserial
    exact hkept
  · intro k' att'' hne hk' c hc hserial
    exact h.row_kept hcall (fun old status hset => hset) hk' hnone hc hserial

/-- A failed call of `Activate` or `MarkFailed` leaves the store as it is. -/
theorem changed_or_same {store : Certs.Store} {ev : Certs.Event} {r : Except Certs.CertError Certs.Store}
    (hcall : some (Certs.changeOutcome s.store r) = some (store, ev)) :
    ev.newRow = none ∧ ((r = .ok store ∧ ev = .changed) ∨ (store = s.store ∧ ev ≠ .changed)) := by
  obtain ⟨hr, rfl⟩ | ⟨rfl, err, -, rfl⟩ := Certs.changeOutcome_cases hcall
  · exact ⟨rfl, .inl ⟨hr, rfl⟩⟩
  · exact ⟨rfl, .inr ⟨rfl, by simp⟩⟩

theorem Inv.activated_step (h : Inv cfg log s) {now : Time} {store : Certs.Store} {ev : Certs.Event} {answered : Bool}
    (hk : s.attempts[k]? = some att) (hp : att.point = .activate)
    (hcall : call cfg s.store (.activate att.device.tenantID att.certID att.device.id now) = some (store, ev)) :
    Inv cfg (log ++ [.activated k ev answered]) ({ s with store }.put k (att.to
      (if ev = Certs.Event.changed ∧ answered then .restart else .failing "activate" .activateFailed))) := by
  have hpoint := h.point k att hk
  rw [PointLog, hp] at hpoint
  obtain ⟨hstored, hundecided, hconfirmed⟩ := hpoint
  have hstored' : Stored (own log k ++ [.activated k ev answered]) k att := hstored.snoc (by simp)
  obtain ⟨hnew, hcases⟩ := changed_or_same hcall
  have hcerts := h.certs_snoc (e := .activated k ev answered) hcall rfl fun serial hserial => by cases hserial
  have hflips : ∀ k' ev' answered', Event.activated k ev answered = .activated k' ev' answered' ∨
      Event.activated k ev answered = .markedFailed k' ev' answered' → ev'.newRow = none := by
    rintro k' ev' answered' (heq | heq) <;> cases heq
    exact hnew
  obtain ⟨hok, rfl⟩ | ⟨rfl, hne⟩ := hcases
  · obtain ⟨hmine, hothers⟩ := h.flip_rows hk hstored hcall (Certs.activate_flipped hok)
      (fun old st hset => hset.1) hnew
    have hmem : .activated k .changed answered ∈ own log k ++ [.activated k .changed answered] :=
      List.mem_append_right _ List.mem_cons_self
    have hmarked : ∀ answered', .markedFailed k .changed answered' ∉ own log k ++ [.activated k .changed answered] :=
      fun answered' hmem => hundecided.markedFailed answered' ((mem_snoc_of_ne (by simp)).mp hmem)
    have hnext : PointLog cfg (own log k ++ [.activated k .changed answered]) k (att.to
        (if Certs.Event.changed = Certs.Event.changed ∧ answered then .restart
          else .failing "activate" .activateFailed)) := by
      cases answered with
      | true =>
          refine ⟨hstored'.to, .active hmem (fun hmem => ?_) hmarked (hconfirmed.quiet rfl),
            audits_quiet hundecided.audits rfl⟩
          exact hundecided.activated false ((mem_snoc_of_ne (by simp)).mp hmem)
      | false =>
          exact ⟨hstored'.to, .inr ⟨⟨hmem, hmarked, hconfirmed.quiet rfl⟩, audits_quiet hundecided.audits rfl⟩⟩
    refine h.request_step hk rfl _ rfl hnext hcerts rfl (fun id hid => by cases hid) hflips ?_ hothers
    intro c hc hserial
    rw [decided_active hmem]
    exact hmine c hc hserial
  · rw [if_neg fun hand => hne hand.1]
    have hidle : (Event.activated k ev answered).Idle k := ⟨⟨by simpa using fun h => absurd h hne, by simp⟩, rfl⟩
    exact h.idle_step hk rfl rfl rfl ⟨hstored'.to, .inl (hundecided.snoc hidle)⟩ hcerts rfl rfl hflips hidle.1

/-- A row whose activation was not answered is not marked as failed. -/
theorem Inv.not_pending (h : Inv cfg log s) (hk : s.attempts[k]? = some att) (hstored : Stored (own log k) k att)
    (hlost : ActiveLost cfg (own log k) k att) {store : Certs.Store} {status : CertStatus} :
    ¬ Certs.Flipped s.store store att.certID status := by
  intro hflip
  obtain ⟨c, hc, hid, hpending, -⟩ := hflip.pending
  have hstatus := (h.row k att hk c hc (h.serial_of_certID hstored hc hid)).2
  rw [decided_active hlost.activated, hpending] at hstatus
  cases hstatus

theorem Inv.marked_step (h : Inv cfg log s) {stage : String} {flash : Flash} {store : Certs.Store} {ev : Certs.Event}
    {answered : Bool} (hk : s.attempts[k]? = some att) (hp : att.point = .failing stage flash)
    (hcall : call cfg s.store (.markFailed att.device.tenantID att.certID) = some (store, ev)) :
    Inv cfg (log ++ [.markedFailed k ev answered])
      ({ s with store }.put k (att.to (.audit (failedStatus ev answered) stage flash))) := by
  have hpoint := h.point k att hk
  rw [PointLog, hp] at hpoint
  obtain ⟨hstored, hpoint⟩ := hpoint
  have hstored' : Stored (own log k ++ [.markedFailed k ev answered]) k att := hstored.snoc (by simp)
  obtain ⟨hnew, hcases⟩ := changed_or_same hcall
  have hcerts := h.certs_snoc (e := .markedFailed k ev answered) hcall rfl fun serial hserial => by cases hserial
  have hflips : ∀ k' ev' answered', Event.markedFailed k ev answered = .activated k' ev' answered' ∨
      Event.markedFailed k ev answered = .markedFailed k' ev' answered' → ev'.newRow = none := by
    rintro k' ev' answered' (heq | heq) <;> cases heq
    exact hnew
  have haudits : audits (own log k ++ [.markedFailed k ev answered]) = [] :=
    audits_quiet (hpoint.elim Undecided.audits And.right) rfl
  obtain ⟨hok, rfl⟩ | ⟨rfl, hne⟩ := hcases
  · have hundecided : Undecided (own log k) k :=
      hpoint.resolve_right fun hlost => h.not_pending hk hstored hlost.1 (Certs.markFailed_flipped hok)
    obtain ⟨hmine, hothers⟩ := h.flip_rows hk hstored hcall (Certs.markFailed_flipped hok)
      (fun old st hset => hset.1) hnew
    have hmem : .markedFailed k .changed answered ∈ own log k ++ [.markedFailed k .changed answered] :=
      List.mem_append_right _ List.mem_cons_self
    have hactivated : ∀ answered', .activated k .changed answered' ∉ own log k ++ [.markedFailed k .changed answered] :=
      fun answered' hmem => hundecided.activated answered' ((mem_snoc_of_ne (by simp)).mp hmem)
    have hverdict : ∀ p, Verdict cfg (own log k ++ [.markedFailed k .changed answered]) k (att.to p)
        (failedStatus .changed answered) := by
      cases answered with
      | true =>
          refine fun p => .failed hactivated hmem fun hmem => ?_
          exact hundecided.markedFailed false ((mem_snoc_of_ne (by simp)).mp hmem)
      | false => exact fun p => .failedLost hactivated hmem
    refine h.request_step hk rfl _ rfl ⟨hstored'.to, hverdict _, haudits⟩ hcerts rfl
      (fun id hid => by cases hid) hflips ?_ hothers
    intro c hc hserial
    rw [decided_failed hactivated hmem]
    exact hmine c hc hserial
  · have hsteady : (Event.markedFailed k ev answered).Steady k := ⟨by simp, by simpa using fun h => absurd h hne⟩
    have hstatus : failedStatus ev answered = "superseded" ∨ failedStatus ev answered = "flip_failed" := by
      unfold failedStatus
      rw [if_neg hne]
      split
      · exact .inl rfl
      · exact .inr rfl
    have hverdict : ∀ p, Verdict cfg (own log k ++ [.markedFailed k ev answered]) k (att.to p)
        (failedStatus ev answered) := by
      obtain hundecided | ⟨hlost, -⟩ := hpoint
      · have hundecided' : Undecided (own log k ++ [.markedFailed k ev answered]) k := hundecided.snoc ⟨hsteady, rfl⟩
        exact fun p => .kept hstatus hundecided'.activated hundecided'.markedFailed
      · exact fun p => .activeLost hstatus (hlost.snoc rfl hsteady).to
    exact h.idle_step hk rfl rfl rfl ⟨hstored'.to, hverdict _, haudits⟩ hcerts rfl rfl hflips hsteady

/-- A step that is of no request. -/
theorem Inv.outside (h : Inv cfg log s) (he : e.request = none) {store : Certs.Store}
    (hcerts : (Certs.system cfg.certs).RunIf Certs.FreshSerial Certs.init (certsLog (log ++ [e])) store)
    (hdrawn : ∀ serial ∈ e.drawn, serial ∉ log.filterMap Event.drawn)
    (hids : ∀ id ∈ e.rowID, id ∉ log.filterMap Event.rowID)
    (hrow : ∀ k att, s.attempts[k]? = some att → ∀ c ∈ store.certs, c.serialHex = att.signed.serialHex →
      c.id = att.certID ∧ c.status = decided (own log k) k) : Inv cfg (log ++ [e]) { s with store } := by
  have hown : ∀ k, own (log ++ [e]) k = own log k := fun k => own_other (by simp [he])
  refine ⟨hcerts, ?_, ?_, ?_, ?_, ?_, ?_, ?_⟩
  · intro k att hk
    rw [hown]
    exact h.point k att hk
  · intro k att hk
    exact List.mem_append_left _ (h.began k att hk)
  · intro e' he' k hk
    obtain hpast | hnow := List.mem_append.mp he'
    · exact h.known e' hpast k hk
    · rw [List.mem_singleton.mp hnow, he] at hk
      cases hk
  · exact Machine.nodup_marks_snoc h.drawn hdrawn
  · exact Machine.nodup_marks_snoc h.ids hids
  · intro k ev answered hmem
    refine h.flips k ev answered (hmem.imp ?_ ?_)
    · exact fun hmem => (mem_snoc_of_ne (by rintro rfl; cases he)).mp hmem
    · exact fun hmem => (mem_snoc_of_ne (by rintro rfl; cases he)).mp hmem
  · intro k att hk c hc hserial
    rw [hown]
    exact hrow k att hk c hc hserial

theorem Inv.certs_step (h : Inv cfg log s) {a : Certs.Action} {store : Certs.Store} {ev : Certs.Event}
    (hforeign : foreign a = true) (hcall : call cfg s.store a = some (store, ev))
    (hserial : ∀ serial ∈ a.serial, serial ∉ log.filterMap Event.drawn)
    (hid : ∀ id ∈ a.rowID, id ∉ log.filterMap Event.rowID) : Inv cfg (log ++ [.certs ev]) { s with store } := by
  have hsets : ∀ old status, ¬ a.sets old status := by
    intro old status hset
    cases a with
    | activate | markFailed => cases hforeign
    | issue | issueWithIdentity | issuePending | revoke | deleteByID | reassign | upsert => exact hset
  have hnew := (Certs.step_rows hcall).2
  refine h.outside rfl ?_ ?_ ?_ ?_
  · exact h.certs_snoc hcall rfl fun serial hmem hold => hserial serial hmem (h.drawn_of_serial hold)
  · intro serial hs
    cases ev with
    | issued c dev =>
        obtain rfl := Option.some.inj hs
        exact hserial c.serialHex (hnew c rfl).2
    | deleted | changed | failed => cases hs
  · intro id hs
    obtain ⟨row, hrow, rfl⟩ := Option.map_eq_some_iff.mp hs
    exact hid row.id (hnew row hrow).1
  · intro k att hk c hc hsame
    refine h.row_kept hcall hsets hk (fun row hrow heq => ?_) hc hsame
    exact hserial row.serialHex (hnew row hrow).2 (heq ▸ mem_drawn (h.began k att hk) rfl)

theorem Inv.began_step (h : Inv cfg log s) {device : Device} {signed : EnrollApi.SignedCert}
    (hfresh : signed.serialHex ∉ log.filterMap Event.drawn) :
    Inv cfg (log ++ [.began s.attempts.length signed.serialHex])
      { s with attempts := s.attempts ++ [⟨device, signed, 0, .persist⟩] } := by
  have hother : ∀ {k : Nat} {att : Attempt}, s.attempts[k]? = some att →
      own (log ++ [.began s.attempts.length signed.serialHex]) k = own log k := fun hk =>
    own_other fun heq => by
      obtain rfl := Option.some.inj heq
      exact Nat.lt_irrefl _ (List.getElem?_eq_some_iff.mp hk).1
  have hnobody : ∀ e ∈ log, e.request ≠ some s.attempts.length := fun e he hk =>
    absurd (h.known e he _ hk) (Nat.lt_irrefl _)
  have hnone : own log s.attempts.length = [] := List.filter_eq_nil_iff.mpr fun e he => by
    simpa using hnobody e he
  have hlength : (s.attempts ++ [(⟨device, signed, 0, .persist⟩ : Attempt)]).length = s.attempts.length + 1 :=
    List.length_append
  refine ⟨?_, ?_, ?_, ?_, ?_, ?_, ?_, ?_⟩
  · rw [certsLog_quiet rfl]
    exact h.certs
  · intro k att hk
    obtain hk | ⟨rfl, rfl⟩ := Machine.getElem?_concat_cases hk
    · rw [hother hk]
      exact h.point k att hk
    · rw [own_snoc rfl, hnone]
      exact ⟨by simp, rfl, by simp, by simp, rfl⟩
  · intro k att hk
    obtain hk | ⟨rfl, rfl⟩ := Machine.getElem?_concat_cases hk
    · exact List.mem_append_left _ (h.began k att hk)
    · exact List.mem_append_right _ List.mem_cons_self
  · intro e he k hk
    show k < (s.attempts ++ [_]).length
    rw [hlength]
    obtain hpast | hnow := List.mem_append.mp he
    · exact Nat.lt_succ_of_lt (h.known e hpast k hk)
    · rw [List.mem_singleton.mp hnow] at hk
      obtain rfl := Option.some.inj hk
      exact Nat.lt_succ_self _
  · refine Machine.nodup_marks_snoc h.drawn fun serial hs => ?_
    obtain rfl := Option.some.inj hs
    exact hfresh
  · exact Machine.nodup_marks_snoc h.ids fun id hs => by cases hs
  · intro k ev answered hmem
    refine h.flips k ev answered (hmem.imp ?_ ?_)
    · exact fun hmem => (mem_snoc_of_ne (by simp)).mp hmem
    · exact fun hmem => (mem_snoc_of_ne (by simp)).mp hmem
  · intro k att hk c hc hserial
    obtain hk | ⟨rfl, rfl⟩ := Machine.getElem?_concat_cases hk
    · rw [hother hk]
      exact h.row k att hk c hc hserial
    · exact absurd (h.drawn_of_serial (hserial ▸ h.mem_serials hc)) hfresh

theorem Inv.step (h : Inv cfg log s) (hdoes : Does cfg log s s' e) : Inv cfg (log ++ [e]) s' := by
  cases hdoes with
  | refused flash =>
      refine h.outside rfl ?_ (fun serial hs => by cases hs) (fun id hs => by cases hs) h.row
      rw [certsLog_quiet rfl]
      exact h.certs
  | began hfresh => exact h.began_step hfresh
  | moved hk hmove => exact h.moved_step hk hmove
  | persisted hk hp hcall hid => exact h.persisted_step hk hp hcall hid
  | persistFailed hk hp hcall he => exact h.persistFailed_step hk hp hcall he
  | activated hk hp hcall => exact h.activated_step hk hp hcall
  | marked hk hp hcall => exact h.marked_step hk hp hcall
  | certs hforeign hcall hserial hid => exact h.certs_step hforeign hcall hserial hid

theorem inv_run (hrun : (system cfg).RunIf Fresh boot log s) : Inv cfg log s :=
  hrun.invariant (Inv cfg) inv_boot fun _ _ _ _ _ h hfresh hstep => h.step (step_does hfresh hstep)

/-- The request, the topic and the command of what is sent to a device. -/
def Event.sends : Event → Option (Nat × String × Command)
  | .pushed k topic c _ | .restarted k topic c _ => some (k, topic, c)
  | _ => none

/-- The commands of a request are its own. -/
def Sends (cfg : Config) (log : List Event) (s : State) : Prop :=
  ∀ k att, s.attempts[k]? = some att → ∀ e ∈ log, ∀ topic c, e.sends = some (k, topic, c) →
    topic = Cascade.cliCommandTopic (deviceTopicPrefix cfg att.device) c.name ∧
      (c ∈ base cfg att ∨ c.name = "secret.set" ∨ c = .restart)

/-- A request sends after its row is stored, and restarts the device after the row is active. -/
structure Sent (cfg : Config) (log : List Event) (k : Nat) (att : Attempt) (topic : String) (c : Command) : Prop where
  stored : Stored (own log k) k att
  topic : topic = Cascade.cliCommandTopic (deviceTopicPrefix cfg att.device) c.name
  command : c ∈ base cfg att ∨ c.name = "secret.set" ∨ c = .restart ∧ .activated k .changed true ∈ log

theorem Verdict.activated {l : List Event} (h : Verdict cfg l k att "active") : .activated k .changed true ∈ l := by
  generalize hactive : "active" = status at h
  cases h with
  | active ha => exact ha
  | kept hs | activeLost hs =>
      subst hactive
      exact absurd hs (by decide)
  | failed | failedLost => exact absurd hactive (by decide)

theorem Move.sends {k' : Nat} {topic : String} {c : Command} (h : Move cfg k att p e)
    (hpoint : PointLog cfg (own log k) k att) (he : e.sends = some (k', topic, c)) :
    k' = k ∧ Sent cfg log k att topic c := by
  cases h with
  | pushed hpush | pushFailed hpush =>
      cases he
      obtain ⟨n, -, hstored, -, -, hbase, -⟩ := pushStep_point hpush hpoint
      exact ⟨rfl, hstored, rfl, .inl (List.mem_of_getElem? hbase)⟩
  | secretPushed hp | secretFailed hp =>
      cases he
      rw [PointLog, hp] at hpoint
      exact ⟨rfl, hpoint.1, rfl, .inr (.inl rfl)⟩
  | restarted hp =>
      cases he
      rw [PointLog, hp] at hpoint
      exact ⟨rfl, hpoint.1, rfl, .inr (.inr ⟨rfl, (mem_own.mp hpoint.2.1.activated).1⟩)⟩
  | persistDown | secretSkipped | secretAborted | provisioned | provisionFailed | activateDown | markDown | audited
  | unaudited => cases he

theorem Does.moved_of_sends {topic : String} {c : Command} (h : Does cfg log s s' e)
    (he : e.sends = some (k, topic, c)) :
    ∃ k' att p, s.attempts[k']? = some att ∧ s' = s.put k' (att.to p) ∧ Move cfg k' att p e := by
  cases h with
  | moved hk hmove => exact ⟨_, _, _, hk, rfl, hmove⟩
  | refused | began | persisted | persistFailed | activated | marked | certs => cases he

/-- A request stays with its device and its certificate. -/
theorem Does.request {k' : Nat} {found : Attempt} (h : Does cfg log s s' e) (hk : s'.attempts[k']? = some found) :
    (∃ att, s.attempts[k']? = some att ∧ found.signed = att.signed ∧ found.device = att.device) ∨
      s.attempts[k']? = none := by
  cases h with
  | refused | certs => exact .inl ⟨found, hk, rfl, rfl⟩
  | began =>
      by_cases hlt : k' < s.attempts.length
      · rw [List.getElem?_append_left hlt] at hk
        exact .inl ⟨found, hk, rfl, rfl⟩
      · exact .inr (List.getElem?_eq_none (Nat.le_of_not_lt hlt))
  | moved hatt | persisted hatt | persistFailed hatt | activated hatt | marked hatt =>
      obtain ⟨rfl, rfl⟩ | ⟨hne, hfound⟩ := get_put hk
      · exact .inl ⟨_, hatt, rfl, rfl⟩
      · exact .inl ⟨found, hfound, rfl, rfl⟩

theorem sends_run (hrun : (system cfg).RunIf Fresh boot log s) : Sends cfg log s := by
  refine hrun.invariant_along (Sends cfg) (fun k att hk => by cases hk) ?_
  intro log s a s' e hrun ih hfresh hstep k found hk e' hmem topic c he
  have hdoes := step_does hfresh hstep
  obtain hpast | hnow := List.mem_append.mp hmem
  · obtain ⟨att, hatt, hsigned, hdevice⟩ | hnone := hdoes.request hk
    · rw [hdevice, base, hsigned]
      exact ih k att hatt e' hpast topic c he
    · have hrequest : e'.request = some k := by
        cases e' <;> cases he <;> rfl
      rw [List.getElem?_eq_getElem ((inv_run hrun).known _ hpast k hrequest)] at hnone
      cases hnone
  · obtain rfl := List.mem_singleton.mp hnow
    obtain ⟨k', att, p, hatt, rfl, hmove⟩ := hdoes.moved_of_sends he
    obtain ⟨rfl, hsent⟩ := hmove.sends ((inv_run hrun).point k' att hatt) he
    obtain ⟨-, rfl⟩ | ⟨hne, -⟩ := get_put hk
    · exact ⟨hsent.topic, hsent.command.imp_right (Or.imp_right And.left)⟩
    · exact absurd rfl hne

end system

/-- Where a command goes, its certificate has been stored, and stays so while the device does. -/
theorem pushed_known {topic : String} {c : Command} (hsends : e.sends = some (k, topic, c))
    (hrun : (system cfg).RunIf Fresh boot (pre ++ e :: post) s) :
    ∃ att row deviceID answered, s.attempts[k]? = some att ∧ .persisted k (.issued row deviceID) answered ∈ pre ∧
      att.Row row ∧ topic = Cascade.cliCommandTopic (deviceTopicPrefix cfg att.device) c.name ∧
      (c ∈ base cfg att ∨ c.name = "secret.set" ∨ c = .restart ∧ .activated k .changed true ∈ pre) ∧
      ((∃ c' ∈ s.store.certs, Certs.Kept row c') ∨ .deleted row.devicePk ∈ certsLog (pre ++ e :: post)) := by
  obtain ⟨s₁, a, s₂, hpre, hfresh, hstep, -⟩ := hrun.split_at_event
  have hinv := inv_run hrun
  -- what holds when it is sent
  obtain ⟨k', att₁, p, hk, -, hmove⟩ := (step_does hfresh hstep).moved_of_sends hsends
  obtain ⟨rfl, hsent⟩ := hmove.sends ((inv_run hpre).point k' att₁ hk) hsends
  obtain ⟨row, dev, answered, hown⟩ := hsent.stored.persisted
  have hrow := (mem_own.mp hown).1
  have hlater : .persisted k (.issued row dev) answered ∈ pre ++ e :: post := List.mem_append_left _ hrow
  obtain ⟨att, hatt⟩ := hinv.attempt hlater rfl
  obtain ⟨htopic, hcommand⟩ := sends_run hrun k att hatt e (List.mem_append_right _ List.mem_cons_self) topic c hsends
  have hmine := (hinv.point k att hatt).persisted (mem_own.mpr ⟨hlater, rfl⟩)
  refine ⟨att, row, dev, answered, hatt, hrow, hmine, htopic, ?_,
    Certs.issued_kept hinv.certs (List.mem_filterMap.mpr ⟨_, hlater, rfl⟩)⟩
  obtain hbase | hsecret | rfl := hcommand
  · exact .inl hbase
  · exact .inr (.inl hsecret)
  · obtain hbase | hsecret | hrestart := hsent.command
    · exact absurd hbase (by simp [base])
    · exact absurd hsecret (by decide)
    · exact .inr (.inr hrestart)

/-- The status of the row that an audit status stands for, unless the answer to a change was lost. -/
def statusOf (log : List Event) (k : Nat) (status : String) : CertStatus :=
  if .activated k .changed false ∈ log then .active
  else if .markedFailed k .changed false ∈ log then .failed
  else if status = "active" then .active
  else if status = "failed" then .failed
  else .pending

/-- Two statuses of the audit may hide a change. -/
structure Hides (log : List Event) (k : Nat) (status : String) : Prop where
  activated : .activated k .changed false ∈ log → status = "superseded" ∨ status = "flip_failed"
  markedFailed : .markedFailed k .changed false ∈ log → status = "flip_failed"

/-- What the tables and the audit say of a request. -/
structure Truthful (cfg : Config) (log : List Event) (s : State) (k : Nat) (att : Attempt) : Prop where
  /-- The audit row says what has become of the certificate. -/
  audited : ∀ status stage flash, .audited k status stage flash ∈ log → Hides log k status ∧
    ∀ c ∈ s.store.certs, c.serialHex = att.signed.serialHex → c.status = statusOf log k status
  /-- There is at most one. -/
  once : (audits (own log k)).length ≤ 1
  /-- It is missing where its insert failed, or where the request was not told that its row is stored. -/
  answered : att.point = .answered → audits (own log k) = [] →
    .unaudited k ∈ log ∨ ∀ row deviceID, .persisted k (.issued row deviceID) true ∉ log
  /-- A live certificate was acknowledged by the device. -/
  live : ∀ c ∈ s.store.certs, c.serialHex = att.signed.serialHex → c.status = .active →
    Confirmed cfg (own log k) k att

section truth

variable {l : List Event} {status : String}

theorem Verdict.hides (h : Verdict cfg l k att status) : Hides l k status := by
  cases h with
  | active ha hn hm => exact ⟨fun hmem => absurd hmem hn, fun hmem => absurd hmem (hm false)⟩
  | failed ha hm hn => exact ⟨fun hmem => absurd hmem (ha false), fun hmem => absurd hmem hn⟩
  | kept hs ha hm => exact ⟨fun hmem => absurd hmem (ha false), fun hmem => absurd hmem (hm false)⟩
  | activeLost hs hl => exact ⟨fun _ => hs, fun hmem => absurd hmem (hl.markedFailed false)⟩
  | failedLost ha hm => exact ⟨fun hmem => absurd hmem (ha false), fun _ => rfl⟩

theorem Verdict.decided (h : Verdict cfg l k att status) : decided l k = statusOf l k status := by
  unfold statusOf
  cases h with
  | active ha hn hm => rw [decided_active ha, if_neg hn, if_neg (hm false), if_pos rfl]
  | failed ha hm hn =>
      rw [decided_failed ha hm, if_neg (ha false), if_neg hn, if_neg (by decide), if_pos rfl]
  | kept hs ha hm =>
      have hne : status ≠ "active" ∧ status ≠ "failed" := by
        obtain rfl | rfl := hs <;> decide
      rw [decided_pending ha hm, if_neg (ha false), if_neg (hm false), if_neg hne.1, if_neg hne.2]
  | activeLost hs hl => rw [decided_active hl.activated, if_pos hl.activated]
  | failedLost ha hm => rw [decided_failed ha hm, if_neg (ha false), if_pos hm]

/-- A row that is active was confirmed. -/
theorem Verdict.confirmed (h : Verdict cfg l k att status) {answered : Bool}
    (hmem : .activated k .changed answered ∈ l) :
    Confirmed cfg l k att := by
  cases h with
  | active ha hn hm hc => exact hc
  | activeLost hs hl => exact hl.confirmed
  | failed ha | kept _ ha | failedLost ha => exact absurd hmem (ha answered)

/-- What the log of a request says of its audit. -/
theorem PointLog.audits_cases (h : PointLog cfg l k att) : (audits l = [] ∧
      (att.point = .answered → .unaudited k ∈ l ∨ ∀ row deviceID, .persisted k (.issued row deviceID) true ∉ l)) ∨
    ∃ status stage flash, Verdict cfg l k att status ∧ audits l = [(status, stage, flash)] := by
  unfold PointLog at h
  cases hp : att.point with
  | persist =>
      rw [hp] at h
      exact .inl ⟨h.undecided.audits, by simp⟩
  | clientCert | clientKey | port | secrets | dynsec | activate =>
      rw [hp] at h
      exact .inl ⟨h.2.1.audits, by simp⟩
  | failing =>
      rw [hp] at h
      exact .inl ⟨h.2.elim Undecided.audits And.right, by simp⟩
  | restart | audit =>
      rw [hp] at h
      exact .inl ⟨h.2.2, by simp⟩
  | answered =>
      rw [hp] at h
      obtain hnone | ⟨-, hundecided, hinsert⟩ | ⟨-, status, hverdict, ⟨hnone, hunaudited⟩ | ⟨stage, flash, hone⟩⟩ := h
      · exact .inl ⟨hnone.undecided.audits, fun _ => .inr fun row deviceID => hnone.persisted row deviceID true⟩
      · exact .inl ⟨hundecided.audits, fun _ => .inr hinsert⟩
      · exact .inl ⟨hnone, fun _ => .inl hunaudited⟩
      · exact .inr ⟨status, stage, flash, hverdict, hone⟩

/-- A row that is active was confirmed. -/
theorem PointLog.confirmed (h : PointLog cfg l k att) {answered : Bool} (hmem : .activated k .changed answered ∈ l) :
    Confirmed cfg l k att := by
  unfold PointLog at h
  cases hp : att.point with
  | persist =>
      rw [hp] at h
      exact absurd hmem (h.undecided.activated answered)
  | clientCert | clientKey | port | secrets | dynsec | activate =>
      rw [hp] at h
      exact absurd hmem (h.2.1.activated answered)
  | failing =>
      rw [hp] at h
      obtain hundecided | ⟨hlost, -⟩ := h.2
      · exact absurd hmem (hundecided.activated answered)
      · exact hlost.confirmed
  | restart | audit =>
      rw [hp] at h
      exact h.2.1.confirmed hmem
  | answered =>
      rw [hp] at h
      obtain hnone | ⟨-, hundecided, -⟩ | ⟨-, status, hverdict, -⟩ := h
      · exact absurd hmem (hnone.undecided.activated answered)
      · exact absurd hmem (hundecided.activated answered)
      · exact hverdict.confirmed hmem

theorem mem_audits {stage : String} {flash : Flash} (h : .audited k status stage flash ∈ l) :
    (status, stage, flash) ∈ audits l := List.mem_filterMap.mpr ⟨_, h, rfl⟩

theorem statusOf_own : statusOf (own log k) k status = statusOf log k status := by
  have hactivated : .activated k .changed false ∈ own log k ↔ .activated k .changed false ∈ log :=
    mem_own.trans (and_iff_left rfl)
  have hmarked : .markedFailed k .changed false ∈ own log k ↔ .markedFailed k .changed false ∈ log :=
    mem_own.trans (and_iff_left rfl)
  simp only [statusOf, hactivated, hmarked]

end truth

theorem pairing_truthful (hrun : (system cfg).RunIf Fresh boot log s) (hk : s.attempts[k]? = some att) :
    Truthful cfg log s k att := by
  have hinv := inv_run hrun
  have hpoint := hinv.point k att hk
  refine ⟨?_, ?_, ?_, ?_⟩
  · intro status stage flash hmem
    have haudit := mem_audits (mem_own.mpr ⟨hmem, rfl⟩ : .audited k status stage flash ∈ own log k)
    obtain ⟨hnone, -⟩ | ⟨status', stage', flash', hverdict, hone⟩ := hpoint.audits_cases
    · rw [hnone] at haudit
      exact absurd haudit List.not_mem_nil
    · rw [hone] at haudit
      obtain ⟨rfl, -⟩ := Prod.mk.inj (List.mem_singleton.mp haudit)
      refine ⟨⟨?_, ?_⟩, fun c hc hserial => ?_⟩
      · exact fun hlost => hverdict.hides.activated (mem_own.mpr ⟨hlost, rfl⟩)
      · exact fun hlost => hverdict.hides.markedFailed (mem_own.mpr ⟨hlost, rfl⟩)
      · exact (hinv.row k att hk c hc hserial).2.trans (hverdict.decided.trans statusOf_own)
  · obtain ⟨hnone, -⟩ | ⟨status, stage, flash, -, hone⟩ := hpoint.audits_cases
    · rw [hnone]
      exact Nat.zero_le 1
    · rw [hone]
      exact Nat.le_refl 1
  · intro hanswered hempty
    obtain ⟨-, hwhy⟩ | ⟨status, stage, flash, -, hone⟩ := hpoint.audits_cases
    · obtain hunaudited | hinsert := hwhy hanswered
      · exact .inl (mem_own.mp hunaudited).1
      · exact .inr fun row deviceID hmem => hinsert row deviceID (mem_own.mpr ⟨hmem, rfl⟩)
    · rw [hempty] at hone
      cases hone
  · intro c hc hserial hactive
    have hdecided : decided (own log k) k = .active := (hinv.row k att hk c hc hserial).2.symm.trans hactive
    have hactivated : ∃ answered, .activated k .changed answered ∈ own log k := by
      by_contra hnot
      rw [decided, if_neg hnot] at hdecided
      split at hdecided <;> cases hdecided
    exact hpoint.confirmed hactivated.choose_spec

def lab : Config := ⟨⟨0, [acme]⟩, "thesada", 8884, false⟩

/-- A pairing that is not told that its row is active, and another that goes through. -/
def pairedAgain : List Action :=
  [.certs (.upsert acme Certs.unitID "" 1), .post 1 true (some ⟨"cert1", "key1", "1f"⟩),
    .next 0 (.persist .answered 1 10), .next 0 (.push .ok []), .next 0 (.push .ok []), .next 0 (.push .ok []),
    .next 0 (.dynsec none), .next 0 (.activate .lost 15), .next 0 (.markFailed .answered),
    .post 1 true (some ⟨"cert2", "key2", "2e"⟩), .next 0 (.audit .answered), .next 1 (.persist .answered 2 20),
    .next 1 (.push .ok []), .next 1 (.push .ok []), .next 1 (.push .ok []), .next 1 (.dynsec none),
    .next 1 (.activate .answered 30), .next 1 (.restart true), .next 1 (.audit .answered)]

theorem pairing_truthful_pairedAgain : ∃ log s att, (system lab).RunIf Fresh boot log s ∧ Truthful lab log s 0 att ∧
    .audited 0 "superseded" "activate" .activateFailed ∈ log ∧ .activated 0 .changed false ∈ log ∧
    .audited 1 "active" "" .paired ∈ log := by
  have hexec : ((system lab).execIf Fresh [] boot pairedAgain).any (fun out => 0 < out.2.attempts.length ∧
      .audited 0 "superseded" "activate" .activateFailed ∈ out.1 ∧ .activated 0 .changed false ∈ out.1 ∧
        .audited 1 "active" "" .paired ∈ out.1) = true := by decide +kernel
  obtain ⟨log, s, hrun, htest⟩ := Machine.exists_runIf_of_any hexec
  obtain ⟨hlength, hsuperseded, hlost, hactive⟩ := of_decide_eq_true htest
  exact ⟨log, s, _, hrun, pairing_truthful hrun (List.getElem?_eq_getElem hlength), hsuperseded, hlost, hactive⟩

/-- The restart after the second pairing. -/
def isRestart : Event → Bool
  | .restarted k _ c _ => k = 1 ∧ c = .restart
  | _ => false

theorem pushed_known_pairedAgain : ∃ pre e post s row deviceID answered topic, e.sends = some (1, topic, .restart) ∧
    .persisted 1 (.issued row deviceID) answered ∈ pre ∧ (system lab).RunIf Fresh boot (pre ++ e :: post) s := by
  have hexec : ((system lab).execIf Fresh [] boot pairedAgain).any (fun out => out.1.any isRestart) = true := by
    decide +kernel
  obtain ⟨log, s, hrun, htest⟩ := Machine.exists_runIf_of_any hexec
  obtain ⟨e, he, hrestart⟩ := List.any_eq_true.mp htest
  obtain ⟨pre, post, rfl⟩ := List.append_of_mem he
  cases e with
  | restarted k topic c published =>
      obtain ⟨rfl, rfl⟩ := of_decide_eq_true hrestart
      obtain ⟨att, row, deviceID, answered, -, hrow, -⟩ := pushed_known rfl hrun
      exact ⟨pre, _, post, s, row, deviceID, answered, topic, rfl, hrow, hrun⟩
  | began | refused | persisted | pushed | skipped | provisioned | activated | markedFailed | down | audited | unaudited
  | certs => cases hrestart

end ThesadaApp.PairIssue
