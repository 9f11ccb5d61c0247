import ThesadaApp.ConfigSecrets
import ThesadaApp.SecretProvision

/-!
`extractConfigSecrets`: what the backfill takes out of a stored config.json before it is blanked. It reads the content
as it is, where the blanking trims it first, and of the networks with one SSID it reads the first only.
-/

namespace ThesadaApp.ConfigSecrets

open Json Secrets

def readPath : List String → Json → Option String
  | [], _ => none
  | [seg], cur =>
      match cur.get seg with
      | some (.string s) => some s
      | _ => none
  | seg :: next :: segs, cur =>
      match cur.get seg with
      | some child => if child.isObject then readPath (next :: segs) child else none
      | none => none

/-- The objects in wifi.networks. -/
def wifiNetworks (m : Json) : List Json :=
  match ((m.get "wifi").filter isObject).bind fun wifi => wifi.get "networks" with
  | some arr => arr.elements.filter isObject
  | none => []

def wifiNetworkSSIDs (m : Json) : List String :=
  ((wifiNetworks m).map fun net => net.getString "ssid").filter fun ssid => ssid ≠ ""

/-- The password of the first network with the SSID. -/
def wifiNetworkPassword (m : Json) (ssid : String) : Option String :=
  match (wifiNetworks m).find? fun net => net.getString "ssid" = ssid with
  | some net =>
      match net.get "password" with
      | some (.string pw) => some pw
      | _ => none
  | none => none

/-- `out[key] = value` for each of a list, where there is a value and it is not empty. -/
def putAll {α : Type} (key : α → String) (value : α → Option String) (l : List α) (out : String → Option String) :
    String → Option String :=
  l.foldl (fun out a =>
    match (value a).filter fun v => v ≠ "" with
    | some v => Function.update out (key a) (some v)
    | none => out) out

/-- The map that `extractConfigSecrets` makes of an object. -/
def extractObject (m : Json) : String → Option String :=
  putAll wifiSecretField (wifiNetworkPassword m) (wifiNetworkSSIDs m)
    (putAll id (fun dotted => readPath (split dotted) m) scalarSecretFields fun _ => none)

def extractConfigSecrets (F : FloatFormat) (content : String) : String → Option String :=
  match unmarshalMap F content.toList with
  | none => fun _ => none
  | some m => extractObject m

/-- The place is the one of a known secret, which is stored under the field. -/
def Known (m : Json) (p : List Step) (field : String) : Prop :=
  (field ∈ scalarSecretFields ∧ p = (split field).map .key) ∨
    ∃ i ssid, p = [.key "wifi", .key "networks", .index i, .key "password"] ∧
      m.lookup [.key "wifi", .key "networks", .index i, .key "ssid"] = some (.string ssid) ∧ ssid ≠ "" ∧
      field = wifiSecretField ssid

/-- A known secret that is there. -/
structure HasSecret (m : Json) (p : List Step) (field s : String) : Prop where
  known : Known m p field
  value : m.lookup p = some (.string s)
  nonempty : s ≠ ""

/-- What blanking empties in a known place is extracted for its field, and nothing else is. -/
def Recovered (F : FloatFormat) (content : String) (m : Json) : Prop :=
  ∃ out changed m', blankConfigSecrets F content = .ok (out, changed) ∧
    unmarshal F (trimSpace out.toList) = some m' ∧
    (∀ p field s, HasSecret m p field s → m'.lookup p = some (.string "") →
      extractConfigSecrets F content field = some s) ∧
    ∀ field s, extractConfigSecrets F content field = some s →
      ∃ p, HasSecret m p field s ∧ m'.lookup p = some (.string "")

/-- The network is the first with its SSID. -/
def FirstNetwork (m : Json) (i : Nat) (ssid : String) : Prop :=
  m.lookup [.key "wifi", .key "networks", .index i, .key "ssid"] = some (.string ssid) ∧
    ∀ i' < i, m.lookup [.key "wifi", .key "networks", .index i', .key "ssid"] ≠ some (.string ssid)

/-- If there is a known secret then the content is JSON without trimming, and the passwords of networks with one SSID
are the one of the first of them or empty. -/
def Recoverable (F : FloatFormat) (content : String) (m : Json) : Prop :=
  ((∃ p field s, HasSecret m p field s) → (unmarshal F content.toList).isSome = true) ∧
    ∀ i ssid s, HasSecret m [.key "wifi", .key "networks", .index i, .key "password"] (wifiSecretField ssid) s →
      ∃ i', FirstNetwork m i' ssid ∧
        m.lookup [.key "wifi", .key "networks", .index i', .key "password"] = some (.string s)

section extraction

variable {m : Json} {field s ssid : String}

theorem readPath_eq_some {segs : List String} (hne : segs ≠ []) :
    readPath segs m = some s ↔ m.lookup (segs.map .key) = some (.string s) := by
  induction segs generalizing m with
  | nil => exact absurd rfl hne
  | cons seg segs ih =>
      cases segs with
      | nil =>
          rw [readPath, List.map_singleton, lookup]
          cases m.get seg with
          | none => simp
          | some v => cases v <;> simp [lookup]
      | cons next segs =>
          rw [readPath, List.map_cons, lookup]
          cases hchild : m.get seg with
          | none => simp
          | some child =>
              rw [Option.bind_some, ← ih (List.cons_ne_nil _ _)]
              dsimp only
              split_ifs with hobject
              · exact Iff.rfl
              · refine ⟨fun h => (by cases h), fun h => absurd ?_ hobject⟩
                obtain ⟨x, hx, -⟩ := Option.bind_eq_some_iff.mp ((ih (List.cons_ne_nil _ _)).mp h)
                exact isObject_of_get hx

theorem putAll_eq_some {α : Type} {key : α → String} {value : α → Option String} {l : List α}
    {out : String → Option String} (hkey : ∀ a ∈ l, ∀ b ∈ l, key a = key b → value a = value b)
    (hout : ∀ a ∈ l, out (key a) = none) : putAll key value l out field = some s ↔
      (∃ a ∈ l, key a = field ∧ value a = some s ∧ s ≠ "") ∨ out field = some s := by
  induction l using List.reverseRecOn with
  | nil => simp [putAll]
  | append_singleton l a ih =>
      have hmem : ∀ b ∈ l, b ∈ l ++ [a] := fun b hb => List.mem_append_left _ hb
      have hlast : a ∈ l ++ [a] := List.mem_append_right _ List.mem_cons_self
      have ih := ih (fun x hx y hy => hkey x (hmem x hx) y (hmem y hy)) fun b hb => hout b (hmem b hb)
      have hstep : putAll key value (l ++ [a]) out = match (value a).filter fun v => v ≠ "" with
          | some v => Function.update (putAll key value l out) (key a) (some v)
          | none => putAll key value l out := by
        rw [putAll, List.foldl_append]
        rfl
      rw [hstep]
      cases hvalue : (value a).filter fun v => v ≠ "" with
      | none =>
          refine ih.trans (or_congr_left ⟨fun ⟨b, hb, hrest⟩ => ⟨b, hmem b hb, hrest⟩, ?_⟩)
          rintro ⟨b, hb, hfield, hs, hne⟩
          rcases List.mem_append.mp hb with hb | hb
          · exact ⟨b, hb, hfield, hs, hne⟩
          · rw [List.mem_singleton] at hb
            subst hb
            rw [hs, Option.filter_some, if_pos (decide_eq_true hne)] at hvalue
            cases hvalue
      | some v =>
          obtain ⟨hv, hvne⟩ := Option.filter_eq_some_iff.mp hvalue
          dsimp only
          by_cases hfield : field = key a
          · subst hfield
            rw [Function.update_self]
            constructor
            · rintro hs
              cases hs
              exact .inl ⟨a, hlast, rfl, hv, of_decide_eq_true hvne⟩
            · rintro (⟨b, hb, hbkey, hs, -⟩ | hs)
              · rw [← hs, hkey b hb a hlast hbkey, hv]
              · rw [hout a hlast] at hs
                cases hs
          · rw [Function.update_of_ne hfield]
            refine ih.trans (or_congr_left ⟨fun ⟨b, hb, hrest⟩ => ⟨b, hmem b hb, hrest⟩, ?_⟩)
            rintro ⟨b, hb, hbkey, hrest⟩
            rcases List.mem_append.mp hb with hb | hb
            · exact ⟨b, hb, hbkey, hrest⟩
            · rw [List.mem_singleton] at hb
              exact absurd (hb ▸ hbkey).symm hfield

theorem mem_wifiNetworkSSIDs : ssid ∈ wifiNetworkSSIDs m ↔
    (∃ net ∈ wifiNetworks m, net.getString "ssid" = ssid) ∧ ssid ≠ "" := by
  rw [wifiNetworkSSIDs, List.mem_filter, List.mem_map, decide_eq_true_iff]

theorem wifiSecretField_of_mem (h : ssid ∈ wifiNetworkSSIDs m) : wifiSecretField ssid = wifiPasswordPrefix ++ ssid :=
  if_neg (mem_wifiNetworkSSIDs.mp h).2

theorem extractObject_eq_some : extractObject m field = some s ↔
    (∃ ssid ∈ wifiNetworkSSIDs m, wifiSecretField ssid = field ∧ wifiNetworkPassword m ssid = some s ∧ s ≠ "") ∨
      field ∈ scalarSecretFields ∧ readPath (split field) m = some s ∧ s ≠ "" := by
  have hscalar : ∀ {field s}, putAll id (fun dotted => readPath (split dotted) m) scalarSecretFields (fun _ => none)
      field = some s ↔ field ∈ scalarSecretFields ∧ readPath (split field) m = some s ∧ s ≠ "" := by
    intro field s
    rw [putAll_eq_some (fun a _ b _ h => by rw [show a = b from h]) fun _ _ => rfl]
    constructor
    · rintro (⟨a, ha, rfl, hs⟩ | h)
      · exact ⟨ha, hs⟩
      · cases h
    · exact fun ⟨hfield, hs⟩ => .inl ⟨field, hfield, rfl, hs⟩
  rw [extractObject, putAll_eq_some, hscalar]
  · intro a ha b hb hfield
    rw [wifiSecretField_of_mem ha, wifiSecretField_of_mem hb] at hfield
    rw [wifiPassword_injective hfield]
  · intro a ha
    rw [Option.eq_none_iff_forall_ne_some]
    intro v hv
    rw [wifiSecretField_of_mem ha] at hv
    exact wifiPassword_not_scalar (hscalar.mp hv).1

/-- wifi.networks, whatever its elements are. -/
def networkList (m : Json) : List Json :=
  match (m.get "wifi").bind fun wifi => wifi.get "networks" with
  | some arr => arr.elements
  | none => []

theorem wifiNetworks_eq : wifiNetworks m = (networkList m).filter isObject := by
  unfold wifiNetworks networkList
  cases hwifi : m.get "wifi" with
  | none => rfl
  | some wifi =>
      by_cases hobject : wifi.isObject = true
      · rw [Option.filter_some, if_pos hobject]
        rw [Option.bind_some]
        cases wifi.get "networks" <;> rfl
      · rw [Option.filter_some, if_neg hobject]
        cases hget : wifi.get "networks" with
        | none => simp [hget]
        | some arr => exact absurd (isObject_of_get hget) hobject

theorem lookup_network (i : Nat) (k : String) :
    m.lookup [.key "wifi", .key "networks", .index i, .key k] = ((networkList m)[i]?).bind (Json.get k) := by
  unfold networkList
  simp only [lookup]
  cases m.get "wifi" with
  | none => rfl
  | some wifi =>
      simp only [Option.bind_some]
      cases wifi.get "networks" with
      | none => rfl
      | some arr =>
          simp only [Option.bind_some, getElem?_elements]
          cases arr.index i with
          | none => rfl
          | some net =>
              simp only [Option.bind_some]
              cases net.get k <;> rfl

theorem getString_eq {net : Json} (hssid : ssid ≠ "") :
    net.getString "ssid" = ssid ↔ net.get "ssid" = some (.string ssid) := by
  unfold getString
  constructor
  · intro h
    split at h
    · next s hs => rw [hs, h]
    · exact absurd h.symm hssid
  · intro h
    rw [h]

theorem firstNetwork_iff (hssid : ssid ≠ "") {net : Json} :
    (wifiNetworks m).find? (fun net => net.getString "ssid" = ssid) = some net ↔
      ∃ i, FirstNetwork m i ssid ∧ (networkList m)[i]? = some net := by
  have hnamed : ∀ x : Json, decide (x.isObject = true ∧ decide (x.getString "ssid" = ssid) = true) = true ↔
      x.get "ssid" = some (.string ssid) := by
    intro x
    rw [decide_eq_true_iff, decide_eq_true_iff, getString_eq hssid]
    exact ⟨fun h => h.2, fun h => ⟨isObject_of_get h, h⟩⟩
  rw [wifiNetworks_eq, List.find?_filter, List.find?_eq_some_iff_getElem]
  constructor
  · rintro ⟨hnet, i, hi, rfl, hbefore⟩
    refine ⟨i, ⟨?_, fun i' hi' hlookup => ?_⟩, List.getElem?_eq_getElem hi⟩
    · rw [lookup_network, List.getElem?_eq_getElem hi]
      exact (hnamed _).mp hnet
    · rw [lookup_network, List.getElem?_eq_getElem (hi'.trans hi)] at hlookup
      have hno := hbefore i' hi'
      rw [(hnamed _).mpr hlookup] at hno
      cases hno
  · rintro ⟨i, ⟨hssid', hbefore⟩, hnet⟩
    obtain ⟨hi, rfl⟩ := List.getElem?_eq_some_iff.mp hnet
    rw [lookup_network, hnet] at hssid'
    refine ⟨(hnamed _).mpr hssid', i, hi, rfl, fun i' hi' => ?_⟩
    rw [Bool.not_eq_true', Bool.eq_false_iff]
    intro hx
    refine hbefore i' hi' ?_
    rw [lookup_network, List.getElem?_eq_getElem (hi'.trans hi)]
    exact (hnamed _).mp hx

theorem wifiNetworkPassword_eq_some (hssid : ssid ≠ "") : wifiNetworkPassword m ssid = some s ↔
    ∃ i, FirstNetwork m i ssid ∧
      m.lookup [.key "wifi", .key "networks", .index i, .key "password"] = some (.string s) := by
  have hpassword : ∀ net : Json, (match net.get "password" with
      | some (.string pw) => some pw
      | _ => none) = some s ↔ net.get "password" = some (.string s) := by
    intro net
    cases net.get "password" with
    | none => simp
    | some v => cases v <;> simp
  unfold wifiNetworkPassword
  constructor
  · intro h
    split at h
    · next net hnet =>
        obtain ⟨i, hfirst, hi⟩ := (firstNetwork_iff hssid).mp hnet
        refine ⟨i, hfirst, ?_⟩
        rw [lookup_network, hi]
        exact (hpassword net).mp h
    · cases h
  · rintro ⟨i, hfirst, hlookup⟩
    rw [lookup_network] at hlookup
    obtain ⟨net, hi, hnet⟩ := Option.bind_eq_some_iff.mp hlookup
    rw [(firstNetwork_iff hssid).mpr ⟨i, hfirst, hi⟩]
    exact (hpassword net).mpr hnet

theorem mem_ssids_of_first {i : Nat} (hfirst : FirstNetwork m i ssid) (hssid : ssid ≠ "") :
    ssid ∈ wifiNetworkSSIDs m := by
  have hlookup := hfirst.1
  rw [lookup_network] at hlookup
  obtain ⟨net, hi, hnet⟩ := Option.bind_eq_some_iff.mp hlookup
  have hmem : net ∈ wifiNetworks m := by
    rw [wifiNetworks_eq]
    exact List.mem_filter.mpr ⟨List.mem_of_getElem? hi, isObject_of_get hnet⟩
  exact mem_wifiNetworkSSIDs.mpr ⟨⟨net, hmem, (getString_eq hssid).mpr hnet⟩, hssid⟩

theorem wifiSecretField_inj {ssid' : String} (h : wifiSecretField ssid = wifiSecretField ssid') (hne : ssid' ≠ "") :
    ssid = ssid' := by
  rw [wifiSecretField, wifiSecretField, if_neg hne] at h
  split_ifs at h
  · exact absurd h.symm (wifiPassword_ne (by decide))
  · exact wifiPassword_injective h

theorem known_network {i : Nat}
    (h : Known m [.key "wifi", .key "networks", .index i, .key "password"] (wifiSecretField ssid)) :
    m.lookup [.key "wifi", .key "networks", .index i, .key "ssid"] = some (.string ssid) ∧ ssid ≠ "" := by
  rcases h with ⟨-, hpath⟩ | ⟨i', ssid', hpath, hlookup, hne, hfield⟩
  · have hkey : Step.index i ∈ (split (wifiSecretField ssid)).map Step.key := by
      rw [← hpath]
      simp
    obtain ⟨k, -, hk⟩ := List.mem_map.mp hkey
    cases hk
  · obtain rfl := wifiSecretField_inj hfield hne
    cases hpath
    exact ⟨hlookup, hne⟩

/-- Of an object the scalar secrets are extracted, and of the networks the passwords of the first of each SSID. -/
theorem extractObject_iff : extractObject m field = some s ↔
    (∃ i ssid, FirstNetwork m i ssid ∧ field = wifiSecretField ssid ∧
      HasSecret m [.key "wifi", .key "networks", .index i, .key "password"] field s) ∨
      field ∈ scalarSecretFields ∧ HasSecret m ((split field).map .key) field s := by
  have hsplit : ∀ f ∈ scalarSecretFields, split f ≠ [] := by decide
  rw [extractObject_eq_some]
  refine or_congr ⟨?_, ?_⟩ ⟨?_, ?_⟩
  · rintro ⟨ssid, hmem, rfl, hpassword, hne⟩
    have hssid := (mem_wifiNetworkSSIDs.mp hmem).2
    obtain ⟨i, hfirst, hlookup⟩ := (wifiNetworkPassword_eq_some hssid).mp hpassword
    exact ⟨i, ssid, hfirst, rfl, .inr ⟨i, ssid, rfl, hfirst.1, hssid, rfl⟩, hlookup, hne⟩
  · rintro ⟨i, ssid, hfirst, rfl, hknown, hlookup, hne⟩
    have hssid := (known_network hknown).2
    exact ⟨ssid, mem_ssids_of_first hfirst hssid, rfl,
      (wifiNetworkPassword_eq_some hssid).mpr ⟨i, hfirst, hlookup⟩, hne⟩
  · rintro ⟨hfield, hread, hne⟩
    exact ⟨hfield, .inl ⟨hfield, rfl⟩, (readPath_eq_some (hsplit field hfield)).mp hread, hne⟩
  · rintro ⟨hfield, -, hlookup, hne⟩
    exact ⟨hfield, (readPath_eq_some (hsplit field hfield)).mpr hlookup, hne⟩

theorem direct_of_known {p : List Step} (h : Known m p field) : Direct p := by
  rcases h with ⟨hfield, rfl⟩ | ⟨i, ssid, rfl, -⟩
  · obtain ⟨k, hlast, hk⟩ := split_last hfield
    exact ⟨k, by rw [List.getLast?_map, hlast]; rfl, hk⟩
  · exact ⟨"password", rfl, by decide⟩

end extraction

section recovery

variable {F : FloatFormat} {content : String} {m : Json}

theorem isSpace_of_isWord {c : Char} (h : isWord c = true) : isSpace c = false := by
  have hrange : c.toNat = 43 ∨ c.toNat = 45 ∨ c.toNat = 46 ∨ 48 ≤ c.toNat ∧ c.toNat ≤ 57 ∨
      65 ≤ c.toNat ∧ c.toNat ≤ 90 ∨ 97 ≤ c.toNat ∧ c.toNat ≤ 122 := by
    have hbounds {lo hi : UInt32} (hc : (c.val ≥ lo && c.val ≤ hi) = true) :
        lo.toNat ≤ c.toNat ∧ c.toNat ≤ hi.toNat :=
      (Bool.and_eq_true_iff.mp hc).imp (fun h => of_decide_eq_true h) fun h => of_decide_eq_true h
    rw [isWord, Bool.or_eq_true, Bool.or_eq_true, Bool.or_eq_true] at h
    rcases h with ((halphanum | hminus) | hplus) | hdot
    · rcases Bool.or_eq_true_iff.mp halphanum with halpha | hdigit
      · rcases Bool.or_eq_true_iff.mp halpha with hupper | hlower
        · have hbetween : 65 ≤ c.toNat ∧ c.toNat ≤ 90 := of_decide_eq_true hupper
          omega
        · have hbetween : 97 ≤ c.toNat ∧ c.toNat ≤ 122 := hbounds hlower
          omega
      · have hbetween : 48 ≤ c.toNat ∧ c.toNat ≤ 57 := hbounds hdigit
        omega
    · rw [of_decide_eq_true hminus]
      decide
    · rw [of_decide_eq_true hplus]
      decide
    · rw [of_decide_eq_true hdot]
      decide
  simp only [isSpace, List.contains_eq_mem, Bool.or_eq_false_iff, Bool.and_eq_false_iff, decide_eq_false_iff_not,
    List.mem_cons, List.not_mem_nil, or_false, not_or]
  omega

/-- What is trimmed is space. -/
theorem trimSpace_split (cs : List Char) : ∃ pre post, cs = pre ++ (trimSpace cs ++ post) ∧
    (∀ c ∈ pre, isSpace c = true) ∧ ∀ c ∈ post, isSpace c = true := by
  refine ⟨cs.takeWhile isSpace, (cs.dropWhile isSpace).rtakeWhile isSpace, ?_, fun c hc => List.mem_takeWhile_imp hc,
    fun c hc => List.mem_rtakeWhile_imp hc⟩
  rw [trimSpace, List.rdropWhile_append_rtakeWhile, List.takeWhile_append_dropWhile]

/-- Space before a text is skipped if the text is read. -/
theorem skip_space {pre cs : List Char} (hpre : ∀ c ∈ pre, isSpace c = true)
    (hhead : ∀ c ds, skip (pre ++ cs) = c :: ds → isSpace c = false) : skip (pre ++ cs) = skip cs := by
  induction pre with
  | nil => rfl
  | cons c pre ih =>
      obtain ⟨hc, hpre⟩ := List.forall_mem_cons.mp hpre
      by_cases hblank : isBlank c = true
      · have hstep : skip (c :: pre ++ cs) = skip (pre ++ cs) := List.dropWhile_cons_of_pos hblank
        rw [hstep] at hhead ⊢
        exact ih hpre hhead
      · have hstay : skip (c :: pre ++ cs) = c :: (pre ++ cs) := List.dropWhile_cons_of_neg hblank
        rw [hhead c _ hstay] at hc
        cases hc

/-- Content that is JSON without trimming has the same form. -/
theorem formOf_untrimmed {t t' : Form} (ht : formOf (trimSpace content.toList) = some t)
    (ht' : formOf content.toList = some t') : t' = t := by
  obtain ⟨pre, post, hsplit, hpre, hpost⟩ := trimSpace_split content.toList
  obtain ⟨rest, hread, -⟩ := formOf_eq_some ht
  obtain ⟨rest', hread', -⟩ := formOf_eq_some ht'
  have hends : Ends post := by
    intro c hc
    by_contra hword
    have hspace := isSpace_of_isWord (Bool.not_eq_false _ ▸ hword)
    rw [hpost c (List.mem_of_mem_head? hc)] at hspace
    cases hspace
  have hskip : skip content.toList = skip (trimSpace content.toList ++ post) := by
    refine Eq.trans (congrArg skip hsplit) (skip_space hpre fun c ds hcs => ?_)
    rw [← hsplit] at hcs
    rcases head_of_readForm hread' hcs with rfl | rfl | rfl | hword
    iterate 3 decide
    exact isSpace_of_isWord hword
  have hlength : (trimSpace content.toList).length ≤ content.toList.length := by
    conv_rhs => rw [hsplit, List.length_append, List.length_append]
    omega
  have hlong : readForm (content.toList.length + 1) .value (trimSpace content.toList) = some (t, rest) :=
    (readForm_fuel (by omega) (by omega)).trans hread
  rw [readForm_congr hskip, readForm_append hlong hends] at hread'
  cases hread'
  rfl

/-- Content that parses without trimming parses to the same. -/
theorem unmarshal_untrimmed {m' : Json} (hm : unmarshal F (trimSpace content.toList) = some m)
    (hm' : unmarshal F content.toList = some m') : m' = m := by
  obtain ⟨t, ht, -, -, rfl⟩ := unmarshal_eq_some.mp hm
  obtain ⟨t', ht', -, -, rfl⟩ := unmarshal_eq_some.mp hm'
  rw [formOf_untrimmed ht ht']

/-- Every known secret is blanked. -/
theorem emptied_of_hasSecret {p : List Step} {field s : String} (hm : WellFormed F .value m)
    (h : HasSecret m p field s) : (blankObject m).1.lookup p = some (.string "") := by
  rcases (blankObject_spec hm).emptied.leaf p _ h.value rfl with hsame | ⟨-, -, hempty⟩
  · exact absurd (blankObject_clears (direct_of_known h.known) hsame) h.nonempty
  · exact hempty

theorem extractConfigSecrets_eq (hm : unmarshal F (trimSpace content.toList) = some m) (hobject : m.isObject = true) :
    extractConfigSecrets F content =
      if (unmarshal F content.toList).isSome then extractObject m else fun _ => none := by
  rw [extractConfigSecrets, unmarshalMap]
  cases hparse : unmarshal F content.toList with
  | none => rfl
  | some m' =>
      obtain rfl := unmarshal_untrimmed hm hparse
      rw [Option.filter_some, if_pos (isMap_of_isObject hobject)]
      rfl

/-- A known secret of an object is extracted if the content parses as it is and, of a network, if its password is the
one of the first network with its SSID. -/
theorem recovered_iff (hm : unmarshal F (trimSpace content.toList) = some m) (hobject : m.isObject = true) :
    Recovered F content m ↔ Recoverable F content m := by
  have hwell := wellFormed_of_unmarshal hm
  have hextract := extractConfigSecrets_eq hm hobject
  obtain ⟨out, changed, hout, htext, -, -⟩ := blankConfigSecrets_spec hm hobject
  constructor
  · rintro ⟨out', changed', m', hout', hm', hall, -⟩
    rw [hout] at hout'
    cases hout'
    rw [htext] at hm'
    cases hm'
    have hget : ∀ {p field s}, HasSecret m p field s → extractConfigSecrets F content field = some s :=
      fun h => hall _ _ _ h (emptied_of_hasSecret hwell h)
    have hparses : ∀ {p field s}, HasSecret m p field s → (unmarshal F content.toList).isSome = true := by
      intro p field s h
      have hsome := hget h
      rw [hextract] at hsome
      by_contra hnone
      rw [if_neg hnone] at hsome
      cases hsome
    refine ⟨fun ⟨p, f, s, h⟩ => hparses h, fun i ssid s h => ?_⟩
    have hsome := hget h
    rw [hextract, if_pos (hparses h), extractObject_iff] at hsome
    rcases hsome with ⟨i', ssid', hfirst, hsame, h'⟩ | ⟨hscalar, -⟩
    · obtain rfl := wifiSecretField_inj hsame.symm (known_network h.known).2
      exact ⟨i', hfirst, h'.value⟩
    · rw [wifiSecretField, if_neg (known_network h.known).2] at hscalar
      exact absurd hscalar wifiPassword_not_scalar
  · rintro ⟨hparses, hnetworks⟩
    refine ⟨out, changed, _, hout, htext, fun p f s h _ => ?_, fun f s hsome => ?_⟩
    · rw [hextract, if_pos (hparses ⟨p, f, s, h⟩), extractObject_iff]
      rcases h.known with ⟨hscalar, rfl⟩ | ⟨i, ssid, rfl, hssid, hne, rfl⟩
      · exact .inr ⟨hscalar, h⟩
      · obtain ⟨i', hfirst, hlookup⟩ := hnetworks i ssid s h
        exact .inl ⟨i', ssid, hfirst, rfl, .inr ⟨i', ssid, rfl, hfirst.1, hne, rfl⟩, hlookup, h.nonempty⟩
    · rw [hextract] at hsome
      split_ifs at hsome
      · rcases extractObject_iff.mp hsome with ⟨i, ssid, -, -, h⟩ | ⟨-, h⟩
        · exact ⟨_, h, emptied_of_hasSecret hwell h⟩
        · exact ⟨_, h, emptied_of_hasSecret hwell h⟩

def brokerText : String := "\x7b\"mqtt\":\x7b\"password\":\"mp\"\x7d\x7d"

def brokerObject : Json := .field "mqtt" (.field "password" (.string "mp") .empty) .empty

theorem brokerObject_recovered : Recovered oneDigit brokerText brokerObject ↔
    Recoverable oneDigit brokerText brokerObject :=
  recovered_iff (by decide) rfl

/-- Two networks with one SSID, of which the first has no password yet. -/
def twiceText : String :=
  "\x7b\"wifi\":\x7b\"networks\":[\x7b\"ssid\":\"home\",\"password\":\"\"\x7d,\x7b\"ssid\":\"home\",\"password\":\"x\"\x7d]\x7d\x7d"

def homeNetwork (password : String) : Json :=
  .field "password" (.string password) (.field "ssid" (.string "home") .empty)

def twiceObject : Json :=
  .field "wifi" (.field "networks" (.cons (homeNetwork "") (.cons (homeNetwork "x") .nil)) .empty) .empty

theorem twiceObject_not_recovered : unmarshal oneDigit (trimSpace twiceText.toList) = some twiceObject ∧
    ¬ Recovered oneDigit twiceText twiceObject := by
  have hm : unmarshal oneDigit (trimSpace twiceText.toList) = some twiceObject := by decide
  refine ⟨hm, ?_⟩
  rintro ⟨out, changed, m', hout, hm', hall, -⟩
  obtain ⟨out', changed', hout', htext, -, -⟩ := blankConfigSecrets_spec hm rfl
  rw [hout] at hout'
  cases hout'
  rw [hm'] at htext
  cases htext
  have hsecret : HasSecret twiceObject [.key "wifi", .key "networks", .index 1, .key "password"]
      (wifiSecretField "home") "x" := ⟨.inr ⟨1, "home", rfl, rfl, by decide, rfl⟩, rfl, by decide⟩
  have hlost : extractConfigSecrets oneDigit twiceText (wifiSecretField "home") = none := by decide
  have hsome := hall _ _ _ hsecret (emptied_of_hasSecret (wellFormed_of_unmarshal hm) hsecret)
  rw [hlost] at hsome
  cases hsome

end recovery

end ThesadaApp.ConfigSecrets
