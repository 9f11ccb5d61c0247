import ThesadaApp.AlertDispatch
import ThesadaApp.DeviceTable
import ThesadaApp.JsonText

/-!
The alerts as stored: what a device may send, and the transaction of `InsertAlert` when nothing comes between its
statements.
-/

namespace ThesadaApp

inductive ParseAlertError where
  | decode
  | severity
  deriving DecidableEq

/-- `parseAlert`: severity, code and message. Without a payload there was no JSON. -/
def parseAlert (payload : Option Json) : Except ParseAlertError (Alerts.Severity × String × String) :=
  match payload.filter Json.isMap with
  | none => .error .decode
  | some alert =>
      match alert.getString "severity" with
      | "info" => .ok (.info, alert.getString "code", alert.getString "message")
      | "warn" => .ok (.warn, alert.getString "code", alert.getString "message")
      | "crit" => .ok (.crit, alert.getString "code", alert.getString "message")
      | _ => .error .severity

/-- A row of `device_alerts` as inserted, without its id. -/
structure StoredAlert where
  devicePK : UUID
  receivedAt : Time
  severity : Alerts.Severity
  code : String
  message : String
  raw : Option Json
  deriving DecidableEq

inductive InsertAlertError where
  | duplicate
  | quotaEvents
  /-- Row-level security refuses the row. -/
  | denied
  deriving DecidableEq

/-- A stored alert. Only an absence alert is ever cleared. -/
structure AlertRow where
  alert : StoredAlert
  clearedAt : Option Time
  deriving DecidableEq

def AlertRow.openAbsence (devicePK : UUID) (r : AlertRow) : Bool :=
  r.alert.devicePK = devicePK && r.alert.code = "absence" && r.clearedAt = none

/-- `clearOpenAbsence`: the device has just been seen. -/
def clearOpenAbsence (rows : List AlertRow) (devicePK : UUID) (now : Time) : List AlertRow :=
  rows.map fun r => if r.openAbsence devicePK then { r with clearedAt := some now } else r

def alertDedupWindow : Time := seconds 600

/-- A row the duplicate query finds for a new one; nothing equals a payload that is NULL. -/
def StoredAlert.duplicates (a new : StoredAlert) : Bool :=
  a.devicePK = new.devicePK && a.raw.isSome && a.raw = new.raw && new.receivedAt - alertDedupWindow < a.receivedAt

/-- The alerts of the tenant that count against its cap. -/
def eventCount (tenantOf : UUID → Option Slug) (alerts : List StoredAlert) (now : Time) (tenantID : Slug) : Nat :=
  alerts.countP fun a => tenantOf a.devicePK = some tenantID && now - seconds 86400 < a.receivedAt

def quotaAllowEvent (max : Int) (tenantOf : UUID → Option Slug) (alerts : List StoredAlert) (now : Time)
    (tenantID : Slug) : Bool :=
  if max ≤ 0 then true else !quotaFull (eventCount tenantOf alerts now tenantID) max

/-- `InsertAlert` of a row received `now()`. Row-level security shows the tenant the rows of its own devices. -/
def insertAlert (max : Int) (tenantOf : UUID → Option Slug) (alerts : List StoredAlert) (tenantID : Slug)
    (new : StoredAlert) : Except InsertAlertError (List StoredAlert) :=
  let own := tenantOf new.devicePK = some tenantID
  if own ∧ alerts.any (·.duplicates new) then .error .duplicate
  else if quotaAllowEvent max tenantOf alerts new.receivedAt tenantID = false then .error .quotaEvents
  else if own then .ok (alerts ++ [new])
  else .error .denied

section insertAlert

variable {max : Int} {tenantOf : UUID → Option Slug} {alerts alerts' : List StoredAlert} {tenantID : Slug}
  {new : StoredAlert}

theorem insertAlert_eq_ok :
    insertAlert max tenantOf alerts tenantID new = .ok alerts' ↔
      tenantOf new.devicePK = some tenantID ∧ (∀ a ∈ alerts, a.duplicates new = false) ∧
        quotaAllowEvent max tenantOf alerts new.receivedAt tenantID = true ∧ alerts' = alerts ++ [new] := by
  unfold insertAlert
  by_cases hown : tenantOf new.devicePK = some tenantID
  · by_cases hdup : alerts.any (·.duplicates new) = true
    · simp only [hown, hdup, and_self, if_true, reduceCtorEq, false_iff, true_and]
      rintro ⟨hnone, -⟩
      obtain ⟨a, ha, htrue⟩ := List.any_eq_true.mp hdup
      rw [hnone a ha] at htrue
      cases htrue
    · have hnone : ∀ a ∈ alerts, a.duplicates new = false := by simpa using hdup
      cases hquota : quotaAllowEvent max tenantOf alerts new.receivedAt tenantID with
      | false => simp [hown, hdup]
      | true =>
          simp only [hown, hdup, if_true, and_false, if_false, true_and, reduceCtorEq, Except.ok.injEq]
          exact ⟨fun h => ⟨hnone, h.symm⟩, fun h => h.2.symm⟩
  · simp only [hown, false_and, if_false, iff_false]
    split <;> simp

/-- A later look at the same alerts counts no more of them. -/
theorem eventCount_mono {now now' : Time} (h : now ≤ now') :
    eventCount tenantOf alerts now' tenantID ≤ eventCount tenantOf alerts now tenantID := by
  refine List.countP_mono_left fun a _ ha => ?_
  simp only [Bool.and_eq_true, decide_eq_true_eq] at ha ⊢
  exact ⟨ha.1, Int.lt_of_le_of_lt (Int.sub_le_sub_right h _) ha.2⟩

/-- An alert of another tenant does not count. -/
theorem eventCount_append_other {now : Time} (h : tenantOf new.devicePK ≠ some tenantID) :
    eventCount tenantOf (alerts ++ [new]) now tenantID = eventCount tenantOf alerts now tenantID := by
  simp [eventCount, h]

theorem quotaAllowEvent_iff {now : Time} :
    quotaAllowEvent max tenantOf alerts now tenantID = true ↔
      max ≤ 0 ∨ (eventCount tenantOf alerts now tenantID : Int) < max := by
  unfold quotaAllowEvent
  split
  · next hoff => simp [hoff]
  · next hon =>
      rw [Bool.not_eq_true', quotaFull, Bool.and_eq_false_iff, decide_eq_false_iff_not, decide_eq_false_iff_not]
      omega

theorem quotaAllowEvent_mono {now now' : Time} (h : now ≤ now')
    (hallow : quotaAllowEvent max tenantOf alerts now tenantID = true) :
    quotaAllowEvent max tenantOf alerts now' tenantID = true := by
  rw [quotaAllowEvent_iff] at hallow ⊢
  have hcount : eventCount tenantOf alerts now' tenantID ≤ eventCount tenantOf alerts now tenantID := eventCount_mono h
  omega

end insertAlert

end ThesadaApp
