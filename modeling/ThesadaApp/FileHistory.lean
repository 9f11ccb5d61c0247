import ThesadaApp.ConfigSecrets
import ThesadaApp.LoggedUpsert

/-!
The files of a device as stored and their history, and beside them the rule workspaces, which are written alike. Two
calls on one file that both read its fingerprint before either upserts it name the same predecessor.
-/

namespace ThesadaApp.DeviceFiles

open ConfigSecrets Json LoggedUpsert

/-- What a row of `device_files` holds, and with it a row of `device_file_history`. -/
structure FileRow where
  content : String
  sha256 : String
  source : String
  updatedBy : Option UUID
  deriving DecidableEq

/-- The arguments of `DeviceFilesService.Upsert`. -/
structure UpsertCall where
  tenantID : Slug
  devicePK : UUID
  path : String
  content : String
  sha256hex : String
  source : String
  createdBy : Option UUID
  deriving DecidableEq

/-- The content as it is persisted. -/
def persisted (F : FloatFormat) (path content : String) : Except BlankError String :=
  if path = "config.json" ∨ path = "/config.json" then (blankConfigSecrets F content).map Prod.fst else .ok content

/-- `DeviceFilesService.Upsert`: the rows of a device are those of its tenant. -/
def upsert (F : FloatFormat) (deviceTenant : UUID → Option Slug) :
    LoggedUpsert (UUID × String) FileRow String UpsertCall where
  fingerprint row := row.sha256
  prepare c :=
    match persisted F c.path c.content with
    | .error _ => none
    | .ok content =>
        some ⟨(c.devicePK, c.path), ⟨content, c.sha256hex, c.source, c.createdBy⟩, deviceTenant c.devicePK = some c.tenantID⟩
  logs prev row := prev = none || prev ≠ some row.sha256 || row.source = "write"
  unlogged := by
    intro prev row h
    simp only [Bool.or_eq_false_iff, decide_eq_false_iff_not, not_not] at h
    exact h.1.2

/-- What a row of `device_rule_workspaces` holds, and with it a row of its history. -/
structure WorkspaceRow where
  workspaceJSON : String
  luaContent : String
  luaSHA256 : String
  source : String
  updatedBy : Option UUID
  deriving DecidableEq

/-- The arguments of `DeviceRuleWorkspacesService.Save`. -/
structure SaveCall where
  tenantID : Slug
  devicePK : UUID
  slot : String
  workspaceJSON : String
  luaContent : String
  source : String
  createdBy : Option UUID
  deriving DecidableEq

def validRuleSlot (slot : String) : Bool := slot = "rules.lua" || slot = "main.lua"

/-- `DeviceRuleWorkspacesService.Save`, which appends to the history every time. -/
def save (sha256Hex : String → String) (deviceTenant : UUID → Option Slug) :
    LoggedUpsert (UUID × String) WorkspaceRow String SaveCall where
  fingerprint row := row.luaSHA256
  prepare c :=
    if validRuleSlot c.slot = false ∨ c.workspaceJSON = "" ∨ c.source = "" then none
    else some ⟨(c.devicePK, c.slot), ⟨c.workspaceJSON, c.luaContent, sha256Hex c.luaContent, c.source, c.createdBy⟩,
      deviceTenant c.devicePK = some c.tenantID⟩
  logs _ _ := true
  unlogged := fun h => by cases h

/-- The newest entry of a file has the fingerprint of its row, each entry names the fingerprint of the one committed
before it, and the first none. -/
structure HistoryChained (d : Tables (UUID × String) FileRow String) (devicePK : UUID) (path : String) : Prop where
  newest : ((d.historyOf (devicePK, path)).getLast?.map fun e => e.row.sha256) =
    (d.row (devicePK, path)).map FileRow.sha256
  linked : ∀ i e, (d.historyOf (devicePK, path))[i]? = some e →
    e.prev = if i = 0 then none else ((d.historyOf (devicePK, path))[i - 1]?).map fun x => x.row.sha256

section history

variable {F : FloatFormat} {deviceTenant : UUID → Option Slug} {d : Tables (UUID × String) FileRow String}
  {s : State (UUID × String) FileRow String} {log : List Event}

theorem historyChained_iff {devicePK : UUID} {path : String} :
    HistoryChained d devicePK path ↔ Chained (upsert F deviceTenant) d (devicePK, path) := by
  constructor
  · rintro ⟨hnewest, hlinked⟩
    exact ⟨linked_iff.mpr hlinked, newest_eq.trans hnewest⟩
  · rintro ⟨hlinked, hnewest⟩
    exact ⟨newest_eq.symm.trans hnewest, linked_iff.mp hlinked⟩

/-- From chains, whatever calls of `Upsert` there are and however their statements interleave: as long as no fingerprint
changes between the statement that reads it and the upsert of the same call, the history of every file is a chain in
every state. -/
theorem fileHistory_chained (hstart : ∀ devicePK path, HistoryChained d devicePK path)
    (hrun : (machine (upsert F deviceTenant)).RunIf (Unraced (upsert F deviceTenant)) (start d) log s) (devicePK : UUID)
    (path : String) : HistoryChained s.tables devicePK path :=
  historyChained_iff.mpr
    (chained_of_runIf (fun k => historyChained_iff.mp (hstart k.1 k.2)) hrun (devicePK, path))

/-- The same of the workspaces. -/
theorem workspaceHistory_chained {sha256Hex : String → String} {d : Tables (UUID × String) WorkspaceRow String}
    {s : State (UUID × String) WorkspaceRow String} (hstart : ∀ k, Chained (save sha256Hex deviceTenant) d k)
    (hrun : (machine (save sha256Hex deviceTenant)).RunIf (Unraced (save sha256Hex deviceTenant)) (start d) log s)
    (devicePK : UUID) (slot : String) : Chained (save sha256Hex deviceTenant) s.tables (devicePK, slot) :=
  chained_of_runIf hstart hrun (devicePK, slot)

/-- No file is stored yet. -/
def noFiles : Tables (UUID × String) FileRow String := ⟨fun _ => none, []⟩

theorem noFiles_chained (devicePK : UUID) (path : String) : HistoryChained noFiles devicePK path :=
  ⟨rfl, fun i e he => by cases he⟩

/-- An operator writes a script of device 1. -/
def writeScript (content sha256hex : String) : UpsertCall :=
  ⟨acme, 1, "/scripts/rules.lua", content, sha256hex, "write", none⟩

def ofAcme : UUID → Option Slug := fun _ => some acme

theorem writtenTwice_chained : ∃ log s, (machine (upsert oneDigit ofAcme)).RunIf (Unraced (upsert oneDigit ofAcme))
    (start noFiles) log s ∧ (s.tables.historyOf (1, "/scripts/rules.lua")).length = 2 ∧
      HistoryChained s.tables 1 "/scripts/rules.lua" := by
  have hexec : ((machine (upsert oneDigit ofAcme)).execIf (Unraced (upsert oneDigit ofAcme)) [] (start noFiles)
      [.begin 0 (writeScript "x" "a"), .next 0, .next 0, .next 0, .next 0,
        .begin 1 (writeScript "y" "b"), .next 1, .next 1, .next 1, .next 1]).any
      (fun x => (x.2.tables.historyOf (1, "/scripts/rules.lua")).length = 2) = true := by decide
  obtain ⟨log, s, hrun, htest⟩ := Machine.exists_runIf_of_any hexec
  exact ⟨log, s, hrun, of_decide_eq_true htest, fileHistory_chained noFiles_chained hrun 1 _⟩

/-- Two calls read before either upserts, and the second entry names no predecessor. -/
theorem writtenAtOnce_forked : ∃ log s, (machine (upsert oneDigit ofAcme)).Run (start noFiles) log s ∧
    ¬ HistoryChained s.tables 1 "/scripts/rules.lua" := by
  have hexec : ((machine (upsert oneDigit ofAcme)).exec (start noFiles)
      [.begin 0 (writeScript "x" "a"), .begin 1 (writeScript "y" "b"), .next 0, .next 1, .next 0, .next 0, .next 0,
        .next 1, .next 1, .next 1]).any
      (fun x => (x.2.tables.historyOf (1, "/scripts/rules.lua")).map (fun e => (e.row.sha256, e.prev)) =
        [("a", none), ("b", none)]) = true := by decide
  obtain ⟨log, s, hrun, htest⟩ := Machine.exists_runIf_of_any hexec
  refine ⟨log, s, hrun, fun hchained => ?_⟩
  have hforked := of_decide_eq_true htest
  have hfirst := congrArg (·[0]?) hforked
  have hsecond := congrArg (·[1]?) hforked
  simp only [List.getElem?_map] at hfirst hsecond
  obtain ⟨e, he, heq⟩ := Option.map_eq_some_iff.mp hfirst
  obtain ⟨e', he', heq'⟩ := Option.map_eq_some_iff.mp hsecond
  have hprev := hchained.linked 1 e' he'
  rw [if_neg (by decide), he] at hprev
  cases hprev.symm.trans (congrArg Prod.snd heq')

end history

end ThesadaApp.DeviceFiles
