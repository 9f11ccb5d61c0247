import ThesadaApp.ConfigBackfill
import ThesadaApp.JsonForm
import ThesadaApp.RetainedIngest

/-!
How a sensor payload is stored: a number if it is one, or an object with one for its value, and else a text. The
decoders are tried in turn, and what one of them accepts the next ones do not see.
-/

namespace ThesadaApp.Ingest

open ConfigSecrets Json

section classification

variable (F : FloatFormat)

/-- The number that a form is, if it is in range. -/
def formNumber : Form → Option Rat
  | .number l => F.parse l
  | _ => none

/-- The number that a text is, or that it has for its value. -/
def numericValue (text : List Char) : Option Rat :=
  (formOf text).bind fun t => (formNumber F t).or ((t.get "value").bind (formNumber F))

/-- The numeric columns that a payload is to give: none is stored if it is blank. -/
def numericColumns (payload : List UInt8) : List (Option Rat) :=
  if trimSpace (runes payload) = [] then [] else [numericValue F (runes payload)]

/-- The payloads that are taken for what they are: not null, and an object with a number for its value is not nested too
deep and has no number out of range. -/
def Classifiable (text : List Char) : Prop :=
  ∀ t, formOf text = some t → t ≠ .null ∧
    (t.isObject = true → (numericValue F text).isSome = true → t.depth ≤ maxNestingDepth ∧ t.inRange F = true)

end classification

section form

variable {F : FloatFormat} {text : List Char} {t : Form}

/-- What is read begins with a character that is not space. -/
theorem head_not_space {fuel : Nat} {x : Form × List Char} (h : readForm fuel .value text = some x) :
    ∃ c ∈ skip text, isSpace c = false := by
  obtain ⟨c, ds, hskip⟩ := List.exists_cons_of_ne_nil (skip_ne_nil_of_readForm h)
  refine ⟨c, hskip ▸ List.mem_cons_self, ?_⟩
  obtain rfl | rfl | rfl | hword := head_of_readForm h hskip
  iterate 3 decide
  exact isSpace_of_isWord hword

/-- A JSON text is not blank. -/
theorem trimSpace_ne_nil (h : formOf text = some t) : trimSpace text ≠ [] := by
  intro hblank
  obtain ⟨pre, post, hsplit, hpre, hpost⟩ := trimSpace_split text
  rw [hblank, List.nil_append] at hsplit
  unfold formOf at h
  split at h
  · next t' rest hread =>
      obtain ⟨c, hc, hspace⟩ := head_not_space hread
      have hmem : c ∈ pre ++ post := hsplit ▸ (List.dropWhile_suffix isBlank).subset hc
      rcases List.mem_append.mp hmem with hin | hin
      · rw [hpre c hin] at hspace
        cases hspace
      · rw [hpost c hin] at hspace
        cases hspace
  · cases h

end form

section columns

variable {F : FloatFormat} {payload : List UInt8} {t : Form}

/-- The numeric columns that a payload gives. -/
def parsedColumns (F : FloatFormat) (payload : List UInt8) : List (Option Rat) :=
  (parseSensorPayload F payload).toList.map Reading.valueNum

/-- What is neither null, a number, a string nor an object is stored as text. -/
theorem parsedColumns_text {o : Option Json} (h : unmarshal F (runes payload) = o)
    (htext : ∀ j ∈ o, (∃ b, j = .bool b) ∨ j = .nil ∨ ∃ head tail, j = .cons head tail) :
    parsedColumns F payload = if trimSpace (runes payload) = [] then [] else [none] := by
  have hparse : parseSensorPayload F payload =
      if trimSpace (runes payload) = [] then none else some ⟨none, String.ofList (trimSpace (runes payload))⟩ := by
    rw [parseSensorPayload, h]
    cases o with
    | none => rfl
    | some j =>
        rcases htext j rfl with ⟨b, rfl⟩ | rfl | ⟨head, tail, rfl⟩ <;> rfl
  rw [parsedColumns, hparse]
  split_ifs <;> rfl

def jsonNumber : Json → Option Rat
  | .number x => some x
  | _ => none

/-- The value of an object is the number it has there. -/
theorem parsedColumns_object {j : Json} (h : unmarshal F (runes payload) = some j) (hmap : j.isMap = true)
    (hnull : j ≠ .null) : parsedColumns F payload = [(j.get "value").bind jsonNumber] := by
  rw [parsedColumns, parseSensorPayload, h]
  cases j with
  | null => exact absurd rfl hnull
  | empty => rfl
  | field k v rest =>
      simp only [Option.filter, Json.isMap, if_true, Option.toList_some, List.map_cons, List.map_nil]
      generalize (Json.field k v rest).get "value" = found
      cases found with
      | none => rfl
      | some v => cases v <;> rfl
  | bool => cases hmap
  | number => cases hmap
  | string => cases hmap
  | nil => cases hmap
  | cons => cases hmap

/-- A value is a number if it is written as one. -/
theorem jsonNumber_value {w : Form} (hw : w.inRange F = true) :
    jsonNumber (w.value.mapNumbers F.nearest) = formNumber F w := by
  cases w with
  | number l =>
      obtain ⟨x, hx⟩ := Option.isSome_iff_exists.mp (inRange_iff.mp hw l (List.mem_singleton_self l))
      rw [formNumber, hx]
      exact congrArg some (FloatFormat.nearest_eq hx)
  | field k v rest =>
      have hobject : ∀ {k : String} {v j : Json}, jsonNumber ((Json.insert k v j).mapNumbers F.nearest) = none := by
        intro k v j
        cases j with
        | field k' v' rest =>
            rw [Json.insert]
            split_ifs <;> rfl
        | _ => rfl
      exact hobject
  | _ => rfl

theorem inRange_get {key : String} {w : Form} (ht : t.inRange F = true) (hw : t.get key = some w) :
    w.inRange F = true := by
  rw [inRange_iff] at ht ⊢
  induction t with
  | field k v rest _ ih =>
      obtain ⟨hv, hrest⟩ := List.forall_mem_append.mp ht
      rw [Form.get] at hw
      cases hlater : rest.get key with
      | some w' =>
          rw [hlater, Option.some_or] at hw
          exact ih hrest (hlater.trans hw)
      | none =>
          rw [hlater, Option.none_or] at hw
          split_ifs at hw
          obtain rfl := Option.some.inj hw
          exact hv
  | _ => cases hw

/-- The value of an object is the number it is written with. -/
theorem get_jsonNumber (ht : t.inRange F = true) :
    ((t.value.mapNumbers F.nearest).get "value").bind jsonNumber = (t.get "value").bind (formNumber F) := by
  rw [get_mapNumbers, get_value, Option.map_map, Option.bind_map]
  exact Option.bind_congr fun w hw => jsonNumber_value (inRange_get ht hw)

/-- The numeric column that a form is parsed to. -/
def parsedColumn (F : FloatFormat) : Form → Option Rat
  | .null => some 0
  | .number l => F.parse l
  | .field k v rest =>
      if (Form.field k v rest).depth ≤ maxNestingDepth ∧ (Form.field k v rest).inRange F then
        ((Form.field k v rest).get "value").bind (formNumber F)
      else none
  | _ => none

theorem unmarshal_form {text : List Char} (hform : formOf text = some t) :
    unmarshal F text = if t.depth ≤ maxNestingDepth ∧ t.inRange F then some (t.value.mapNumbers F.nearest) else none := by
  rw [unmarshal, hform]
  dsimp only
  rw [Form.toJson]
  by_cases hdepth : t.depth ≤ maxNestingDepth
  · rw [if_neg (Nat.not_lt.mpr hdepth)]
    exact if_congr (by rw [and_iff_right hdepth]) rfl rfl
  · rw [if_pos (Nat.lt_of_not_le hdepth), if_neg fun h => hdepth h.1]

/-- A payload with a form is never blank, so it gives one column. -/
theorem parsedColumns_form (hform : formOf (runes payload) = some t) :
    parsedColumns F payload = [parsedColumn F t] := by
  have hread := unmarshal_form (F := F) hform
  have htext (h : ∀ j ∈ unmarshal F (runes payload), (∃ b, j = .bool b) ∨ j = .nil ∨ ∃ head tail, j = .cons head tail) :
      parsedColumns F payload = [none] := by
    rw [parsedColumns_text rfl h, if_neg (trimSpace_ne_nil hform)]
  cases t with
  | null =>
      rw [parsedColumns, parseSensorPayload, hread]
      rfl
  | bool b =>
      refine htext fun j hj => .inl ⟨b, ?_⟩
      rw [hread] at hj
      exact (Option.some.inj hj).symm
  | number l =>
      rw [parsedColumn]
      cases hl : F.parse l with
      | none =>
          refine htext fun j hj => ?_
          have hrange : Form.inRange F (.number l) = false := by simp [Form.inRange, Form.literals, hl]
          rw [hread, hrange] at hj
          simp at hj
      | some x =>
          have hrange : Form.inRange F (.number l) = true := by simp [Form.inRange, Form.literals, hl]
          rw [parsedColumns, parseSensorPayload, hread, if_pos ⟨Nat.zero_le _, hrange⟩]
          show [some (F.nearest (decimal l))] = [some x]
          rw [FloatFormat.nearest_eq hl]
  | string text =>
      rw [parsedColumns, parseSensorPayload, hread]
      rfl
  | nil =>
      refine htext fun j hj => .inr (.inl ?_)
      rw [hread] at hj
      exact (Option.some.inj hj).symm
  | cons head tail =>
      refine htext fun j hj => .inr (.inr ?_)
      rw [hread, Option.mem_def, Option.ite_none_right_eq_some] at hj
      exact ⟨_, _, (Option.some.inj hj.2).symm⟩
  | empty => exact parsedColumns_object hread rfl Json.noConfusion
  | field k v rest =>
      rw [parsedColumn]
      split_ifs at hread ⊢ with hok
      · have hobject : ((Form.field k v rest).value.mapNumbers F.nearest).isObject = true := by
          rw [isObject_mapNumbers, isObject_value]
          rfl
        rw [parsedColumns_object hread (isMap_of_isObject hobject), get_jsonNumber hok.2]
        intro hnull
        rw [hnull] at hobject
        cases hobject
      · exact htext fun j hj => by rw [hread] at hj; cases hj

theorem classifiable_iff {text : List Char} (hform : formOf text = some t) : Classifiable F text ↔ t ≠ .null ∧
    (t.isObject = true → (numericValue F text).isSome = true → t.depth ≤ maxNestingDepth ∧ t.inRange F = true) := by
  constructor
  · intro h
    exact h t hform
  · intro h t' ht'
    rw [hform] at ht'
    cases ht'
    exact h

/-- The numeric columns are right exactly if the payload is classifiable. -/
theorem parsedColumns_iff :
    parsedColumns F payload = numericColumns F payload ↔ Classifiable F (runes payload) := by
  rw [numericColumns]
  cases hform : formOf (runes payload) with
  | none =>
      have hclass : Classifiable F (runes payload) := fun t ht => by rw [hform] at ht; cases ht
      rw [numericValue, hform]
      exact iff_of_true (parsedColumns_text (unmarshal_none hform) fun j hj => by cases hj) hclass
  | some t =>
      rw [parsedColumns_form hform, if_neg (trimSpace_ne_nil hform), classifiable_iff hform, numericValue, hform,
        Option.bind_some]
      cases t with
      | null => simp [parsedColumn, formNumber, Form.get]
      | field k v rest =>
          have hself : formNumber F (.field k v rest) = none := rfl
          rw [hself, Option.none_or, parsedColumn]
          split_ifs with hok
          · simp [hok]
          · cases ((Form.field k v rest).get "value").bind (formNumber F) <;> simp [Form.isObject, hok]
      | bool | number | string | nil | cons | empty => simp [parsedColumn, formNumber, Form.get, Form.isObject]

/-- Only a blank payload is refused. -/
theorem parsedColumns_eq_nil : parsedColumns F payload = [] ↔ trimSpace (runes payload) = [] := by
  cases hform : formOf (runes payload) with
  | none =>
      rw [parsedColumns_text (unmarshal_none hform) fun j hj => by cases hj]
      split_ifs with hblank <;> simp [hblank]
  | some t =>
      rw [parsedColumns_form hform]
      simp [trimSpace_ne_nil hform]

end columns

section store

variable (cfg : Config) (s : Store) (a : Answers) (tenant device : String) (payload : List UInt8) (metric : String)

/-- A live reading of a device is stored under its metric with the numeric column that the payload is to give. -/
def StoredAsItIs (d : DeviceRow) : Prop :=
  ∃ rows, (handleSensor cfg s a tenant device payload false metric).telemetry = s.telemetry ++ rows ∧
    (∀ r ∈ rows, r.devicePK = d.id ∧ r.metric = metric) ∧
    rows.map (fun r => r.reading.valueNum) = numericColumns cfg.F payload

variable {cfg s a tenant device payload metric} {d : DeviceRow}

/-- What a live reading of a known device adds to the telemetry, when no call fails and its JSON is taken. -/
theorem telemetry_handleSensor (hd : s.devices.find (tenant, device) = some d) (hdevice : a.deviceFails = false)
    (hstore : a.storeFails = false) : (handleSensor cfg s a tenant device payload false metric).telemetry =
      s.telemetry ++ (parseSensorPayload cfg.F payload).toList.flatMap fun reading =>
        (cfg.rawJSON payload).toList.map fun raw => ⟨d.id, a.storedAt, metric, reading, raw⟩ := by
  have hbump : s.bumpSeenIfExists a tenant device = (s.bump d a.seenAt, some d) := by
    simp [Store.bumpSeenIfExists, hdevice, hd]
  rw [handleSensor, if_neg (by decide)]
  cases parseSensorPayload cfg.F payload with
  | none => exact (List.append_nil _).symm
  | some reading =>
      simp only [hbump, hstore, Bool.false_eq_true, if_false]
      cases cfg.rawJSON payload with
      | none => exact (List.append_nil _).symm
      | some raw => rfl

/-- A live reading of a known device is stored as what it is exactly if it is classifiable and, unless it is blank, its
JSON is taken. -/
theorem storedAsItIs_iff (hd : s.devices.find (tenant, device) = some d) (hdevice : a.deviceFails = false)
    (hstore : a.storeFails = false) :
    StoredAsItIs cfg s a tenant device payload metric d ↔
      Classifiable cfg.F (runes payload) ∧ (trimSpace (runes payload) ≠ [] → (cfg.rawJSON payload).isSome = true) := by
  rw [← parsedColumns_iff, StoredAsItIs, telemetry_handleSensor hd hdevice hstore]
  have hcolumns : numericColumns cfg.F payload = [] ↔ trimSpace (runes payload) = [] := by
    rw [numericColumns]
    split_ifs with hblank <;> simp [hblank]
  cases hraw : cfg.rawJSON payload with
  | none =>
      have hnothing : (parseSensorPayload cfg.F payload).toList.flatMap (fun reading =>
          (none : Option Json).toList.map fun raw => TelemetryRow.mk d.id a.storedAt metric reading raw) = [] := by
        simp
      rw [hnothing]
      constructor
      · rintro ⟨rows, hrows, -, hmap⟩
        obtain rfl := List.append_cancel_left hrows
        have hblank := hcolumns.mp hmap.symm
        rw [← hmap]
        exact ⟨parsedColumns_eq_nil.mpr hblank, fun h => absurd hblank h⟩
      · rintro ⟨-, htaken⟩
        refine ⟨[], rfl, by simp, (hcolumns.mpr ?_).symm⟩
        by_contra hblank
        cases htaken hblank
  | some raw =>
      have hrows : (parseSensorPayload cfg.F payload).toList.flatMap (fun reading =>
          (some raw).toList.map fun raw => TelemetryRow.mk d.id a.storedAt metric reading raw) =
          (parseSensorPayload cfg.F payload).toList.map fun reading => ⟨d.id, a.storedAt, metric, reading, raw⟩ := by
        cases parseSensorPayload cfg.F payload <;> rfl
      rw [hrows]
      constructor
      · rintro ⟨rows, hrows, -, hmap⟩
        rw [← List.append_cancel_left hrows, List.map_map] at hmap
        exact ⟨hmap, fun _ => rfl⟩
      · rintro ⟨hmap, -⟩
        refine ⟨_, rfl, ?_, ?_⟩
        · intro r hr
          obtain ⟨reading, -, rfl⟩ := List.mem_map.mp hr
          exact ⟨rfl, rfl⟩
        · rw [← hmap, List.map_map]
          rfl

/-- Device dev-1 of acme is known. -/
def sensorDevice : DeviceRow := newDevice acme "dev-1" 7

def sensorStore : Store :=
  ⟨[acme], ⟨[sensorDevice], List.nodup_singleton _⟩, [], [], [], [], DeviceFiles.noFiles⟩

/-- A number is stored. -/
theorem number_storedAsItIs :
    StoredAsItIs testConfig sensorStore (answers false) "acme" "dev-1" [0x37] "temperature" sensorDevice := by
  refine (storedAsItIs_iff rfl rfl rfl).mpr ⟨?_, fun _ => by decide⟩
  intro t ht
  obtain rfl : t = .number ['7'] := (Option.some.inj ht).symm
  exact ⟨Form.noConfusion, fun hobject => by cases hobject⟩

/-- Null is stored as zero. -/
theorem null_not_storedAsItIs :
    ¬ StoredAsItIs testConfig sensorStore (answers false) "acme" "dev-1" [0x6E, 0x75, 0x6C, 0x6C] "temperature"
      sensorDevice := by
  rintro ⟨rows, hrows, -, hcolumns⟩
  have hzero : (handleSensor testConfig sensorStore (answers false) "acme" "dev-1" [0x6E, 0x75, 0x6C, 0x6C] false
      "temperature").telemetry.map (fun r => r.reading.valueNum) = [some 0] := by
    decide
  rw [hrows] at hzero
  have hnone : numericColumns testConfig.F [0x6E, 0x75, 0x6C, 0x6C] = [none] := by decide
  rw [List.map_append, hcolumns, hnone] at hzero
  cases hzero

end store

end ThesadaApp.Ingest
