import ThesadaApp.SecretStore

/-!
The DEKs as they are wrapped: a DEK that a tenant has stays its DEK through every mint and every rotation of the root
key, and after a rotation the new key wraps all of them.
-/

namespace ThesadaApp.Secrets

variable {ν β : Type} {A : Gcm ν β} {fleet : Fleet} {s s' : Store β} {t : Slug} {kek dek dek' : Key} {draw : Draw ν}

/-- The row holds the DEK, wrapped under some root key. -/
def Wraps (A : Gcm ν β) (row : DekRow β) (dek : Key) : Prop :=
  ∃ kek nonce, row.wrappedDEK = wrapDEK A kek nonce dek (dekAAD row.tenantID)

def Store.HasDEK (A : Gcm ν β) (s : Store β) (t : Slug) (dek : Key) : Prop :=
  ∃ row, s.tenantDEK.find t = some row ∧ Wraps A row dek

/-- The root key is the one that wraps the DEK of the tenant. -/
def wrappedUnder (A : Gcm ν β) (rows : DekTable β) (t : Slug) (kek : Key) : Bool :=
  (rows.find t).any fun row => (unwrapDEK A kek row.wrappedDEK (dekAAD t)).isSome

theorem Wraps.unwrap {row : DekRow β} (h : Wraps A row dek)
    (hunwrap : unwrapDEK A kek row.wrappedDEK (dekAAD row.tenantID) = some dek') : dek' = dek := by
  obtain ⟨kek', nonce, hwrapped⟩ := h
  rw [hwrapped] at hunwrap
  by_cases hkey : kek = kek'
  · subst hkey
    rw [unwrapDEK_wrapDEK] at hunwrap
    exact (Option.some.inj hunwrap).symm
  · rw [unwrapDEK_of_key_ne hkey] at hunwrap
    cases hunwrap

/-- The DEKs that are there stay, and the secrets. -/
structure KeepsDEKs (A : Gcm ν β) (s s' : Store β) : Prop where
  secrets : s'.secrets = s.secrets
  keeps : ∀ t dek, s.HasDEK A t dek → s'.HasDEK A t dek
  wrapped : (∀ row ∈ s.tenantDEK, ∃ dek, Wraps A row dek) → ∀ row ∈ s'.tenantDEK, ∃ dek, Wraps A row dek

theorem KeepsDEKs.refl (s : Store β) : KeepsDEKs A s s := ⟨rfl, fun _ _ h => h, id⟩

theorem ensureTenantDEKTx_find (h : ensureTenantDEKTx A fleet kek draw s t = .ok s') {t' : Slug} {row : DekRow β}
    (hrow : s.tenantDEK.find t' = some row) : s'.tenantDEK.find t' = some row := by
  unfold ensureTenantDEKTx at h
  split at h
  · next hnone =>
      split at h
      · obtain rfl := Except.ok.inj h
        rw [KeyedTable.find_insert, if_neg]
        · exact hrow
        · rintro rfl
          rw [hnone] at hrow
          cases hrow
      · cases h
  · obtain rfl := Except.ok.inj h
    exact hrow

theorem ensureTenantDEKTx_spec (h : ensureTenantDEKTx A fleet kek draw s t = .ok s') : KeepsDEKs A s s' := by
  have hkeeps : ∀ t dek, s.HasDEK A t dek → s'.HasDEK A t dek := fun _ _ ⟨row, hrow, hwraps⟩ =>
    ⟨row, ensureTenantDEKTx_find h hrow, hwraps⟩
  unfold ensureTenantDEKTx at h
  split at h
  · next hnone =>
      split at h
      · obtain rfl := Except.ok.inj h
        refine ⟨rfl, hkeeps, fun hall row hrow => ?_⟩
        rcases (KeyedTable.mem_insert hnone).mp hrow with hold | rfl
        · exact hall row hold
        · exact ⟨draw.dek, kek, draw.dekNonce, rfl⟩
      · cases h
  · obtain rfl := Except.ok.inj h
    exact .refl s

theorem tenantDEK_spec (h : tenantDEK A fleet kek draw s t = .ok (dek, s')) :
    KeepsDEKs A s s' ∧ ((∀ row ∈ s.tenantDEK, ∃ dek, Wraps A row dek) → s'.HasDEK A t dek) := by
  obtain ⟨s₁, hensure, h⟩ := bind_eq_ok h
  have hspec := ensureTenantDEKTx_spec hensure
  cases hrow : s₁.tenantDEK.find t with
  | none =>
      rw [hrow] at h
      cases h
  | some row =>
      simp only [hrow] at h
      have htenant : row.tenantID = t := KeyedTable.find_key hrow
      split at h
      · cases h
      · next dek₁ hunwrap =>
          obtain ⟨rfl, rfl⟩ := Prod.mk.inj (Except.ok.inj h)
          refine ⟨hspec, fun hall => ⟨row, hrow, ?_⟩⟩
          obtain ⟨dek₀, hwraps⟩ := hspec.wrapped hall row (KeyedTable.find_mem hrow)
          obtain rfl := hwraps.unwrap (htenant ▸ hunwrap)
          exact hwraps

/-- When the DEK is there and the root key wraps it, there is nothing to mint; with another root key it is no use. -/
theorem tenantDEK_eq (h : s.HasDEK A t dek) : tenantDEK A fleet kek draw s t =
    if wrappedUnder A s.tenantDEK t kek then .ok (dek, s) else .error .unwrap := by
  obtain ⟨row, hrow, hwraps⟩ := h
  have htenant : row.tenantID = t := KeyedTable.find_key hrow
  have hensure : ensureTenantDEKTx A fleet kek draw s t = .ok s := by
    rw [ensureTenantDEKTx, dif_neg (by rw [hrow]; exact Option.some_ne_none _)]
  rw [tenantDEK, hensure, Except.bind, wrappedUnder, hrow]
  cases hunwrap : unwrapDEK A kek row.wrappedDEK (dekAAD t) with
  | none => simp [hunwrap]
  | some dek' =>
      obtain rfl := hwraps.unwrap (htenant ▸ hunwrap)
      simp [hunwrap]

/-- An UPDATE leaves the rows of the other tenants. -/
theorem find_rewrap {rows : DekTable β} {tenantID : Slug} {rewrapped : β} : (rewrap rows tenantID rewrapped).find t =
    if t = tenantID then (rows.find t).map fun row =>
      { row with wrappedDEK := rewrapped, kekVersion := row.kekVersion + 1 }
    else rows.find t := by
  rw [rewrap, KeyedTable.find_updateWhere]
  cases hfound : rows.find t with
  | none => simp
  | some row =>
      have htenant : row.tenantID = t := KeyedTable.find_key hfound
      by_cases hown : t = tenantID
      · simp [htenant, hown]
      · simp [htenant, hown]

/-- What the loop leaves of the rows: each wraps what it wrapped. -/
def Rewrapped (A : Gcm ν β) (rows rows' : DekTable β) : Prop :=
  ∀ t, Option.Rel (fun row row' => ∀ dek, Wraps A row dek → Wraps A row' dek) (rows.find t) (rows'.find t)

section rotation

variable {newKEK : Key} {nonce : Slug → ν} {rows rows' : DekTable β} {acc acc' : RotationResult × DekTable β}

theorem Rewrapped.refl (rows : DekTable β) : Rewrapped A rows rows := by
  intro t
  cases rows.find t with
  | none => exact .none
  | some row => exact .some fun _ h => h

theorem rotateRow_rewrapped {row : DekRow β} (hrow : row ∈ rows) (hacc : Rewrapped A rows acc.2)
    (h : rotateRow A kek newKEK nonce acc row = .ok acc') : Rewrapped A rows acc'.2 := by
  unfold rotateRow at h
  split at h
  · split at h
    · obtain rfl := Except.ok.inj h
      exact hacc
    · cases h
  · next dek hunwrap =>
      obtain rfl := Except.ok.inj h
      intro t
      have hrel := hacc t
      rw [find_rewrap]
      split
      · next hown =>
          -- the row of the loop
          have hold : rows.find t = some row := by rw [hown, KeyedTable.find_of_mem hrow]
          rw [hold] at hrel ⊢
          generalize hfound : acc.2.find t = found at hrel
          cases hrel with
          | @some _ x hkeeps =>
              refine .some fun dek' hwraps => ?_
              obtain rfl := hwraps.unwrap hunwrap
              have hx : x.tenantID = row.tenantID := (KeyedTable.find_key hfound).trans hown
              exact ⟨newKEK, nonce row.tenantID, by rw [hx]⟩
      · exact hrel

theorem rotateLoop_rewrapped {l : List (DekRow β)} (hmem : ∀ row ∈ l, row ∈ rows) (hacc : Rewrapped A rows acc.2)
    (h : l.foldlM (rotateRow A kek newKEK nonce) acc = .ok acc') : Rewrapped A rows acc'.2 := by
  induction l generalizing acc with
  | nil =>
      obtain rfl := Except.ok.inj h
      exact hacc
  | cons row l ih =>
      rw [List.foldlM_cons] at h
      obtain ⟨next, hrow, hrest⟩ := bind_eq_ok h
      exact ih (fun x hx => hmem x (List.mem_cons_of_mem _ hx))
        (rotateRow_rewrapped (hmem row List.mem_cons_self) hacc hrow) hrest

/-- A row of the loop is wrapped under the new key afterwards; the others are as they were. -/
theorem rotateRow_find {row : DekRow β} (hrow : acc.2.find row.tenantID = some row)
    (h : rotateRow A kek newKEK nonce acc row = .ok acc') :
    wrappedUnder A acc'.2 row.tenantID newKEK = true ∧ ∀ t, t ≠ row.tenantID → acc'.2.find t = acc.2.find t := by
  unfold rotateRow at h
  split at h
  · split at h
    · next hnew =>
        obtain rfl := Except.ok.inj h
        exact ⟨by rw [wrappedUnder, hrow]; exact hnew, fun _ _ => rfl⟩
    · cases h
  · next dek hunwrap =>
      obtain rfl := Except.ok.inj h
      refine ⟨?_, fun t ht => ?_⟩
      · rw [wrappedUnder, find_rewrap, if_pos rfl, hrow, Option.map_some, Option.any_some, unwrapDEK_wrapDEK]
        rfl
      · rw [find_rewrap, if_neg ht]

theorem rotateLoop_wrapped {l : List (DekRow β)} (hnodup : (l.map DekRow.tenantID).Nodup)
    (hfind : ∀ row ∈ l, acc.2.find row.tenantID = some row)
    (h : l.foldlM (rotateRow A kek newKEK nonce) acc = .ok acc') :
    ∀ t, wrappedUnder A acc.2 t newKEK = true ∨ t ∈ l.map DekRow.tenantID → wrappedUnder A acc'.2 t newKEK = true := by
  induction l generalizing acc with
  | nil =>
      obtain rfl := Except.ok.inj h
      rintro t (ht | ht)
      · exact ht
      · cases ht
  | cons row l ih =>
      rw [List.foldlM_cons] at h
      obtain ⟨next, hstep, hrest⟩ := bind_eq_ok h
      rw [List.map_cons, List.nodup_cons] at hnodup
      obtain ⟨hnew, hothers⟩ := rotateRow_find (hfind row List.mem_cons_self) hstep
      have hfind' : ∀ x ∈ l, next.2.find x.tenantID = some x := by
        intro x hx
        rw [hothers _ fun heq => hnodup.1 (heq ▸ List.mem_map_of_mem hx)]
        exact hfind x (List.mem_cons_of_mem _ hx)
      intro t ht
      refine ih hnodup.2 hfind' hrest t ?_
      by_cases hown : t = row.tenantID
      · exact .inl (hown ▸ hnew)
      · rcases ht with ht | ht
        · refine .inl ?_
          rw [wrappedUnder, hothers t hown]
          exact ht
        · exact .inr ((List.mem_cons.mp ht).resolve_left hown)

theorem rotateRootKEK_spec {keyring newKeyring : Option Key} {res : RotationResult}
    (h : rotateRootKEK A keyring newKeyring nonce s = .ok (res, s')) : KeepsDEKs A s s' := by
  unfold rotateRootKEK at h
  split at h
  · cases h
  · cases h
  · next kek newKEK =>
      obtain ⟨acc', hloop, heq⟩ := map_eq_ok h
      obtain ⟨-, rfl⟩ := Prod.mk.inj heq
      have hall := rotateLoop_rewrapped (fun _ hrow => hrow) (Rewrapped.refl s.tenantDEK) hloop
      refine ⟨rfl, ?_, fun hwrapped row' hrow' => ?_⟩
      · rintro t dek ⟨row, hrow, hwraps⟩
        have hrel := hall t
        rw [hrow] at hrel
        generalize hfound : acc'.2.find t = found at hrel
        cases hrel with
        | some hkeeps => exact ⟨_, hfound, hkeeps dek hwraps⟩
      · have hrel := hall row'.tenantID
        rw [KeyedTable.find_of_mem hrow'] at hrel
        generalize hfound : s.tenantDEK.find row'.tenantID = found at hrel
        cases hrel with
        | some hkeeps =>
            obtain ⟨dek, hwraps⟩ := hwrapped _ (KeyedTable.find_mem hfound)
            exact ⟨dek, hkeeps dek hwraps⟩

end rotation

end ThesadaApp.Secrets
