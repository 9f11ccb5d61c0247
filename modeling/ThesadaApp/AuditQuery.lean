import ThesadaApp.Basic
import ThesadaApp.SelectText

/-!
The search over the trail of privileged actions. A filter is turned into the text of a query and its bind arguments.
-/

namespace ThesadaApp.Audit

open SelectText

/-- A stored `admin_audit` row. -/
structure AuditRecord where
  id : Int
  «at» : Time
  actorUserID : Option UUID
  actorEmail : String
  action : String
  targetType : Option String
  targetID : Option String
  tenantID : Option String
  detail : String
  deriving DecidableEq, Repr

/-- `time.Time{}`, the start of year 1. -/
def zeroTime : Time := -62135596800000000

/-- Narrows a list. Zero values mean no filter. -/
structure AuditFilter where
  action : String := ""
  actorUserID : Option UUID := none
  actorEmail : String := ""
  targetType : String := ""
  targetID : String := ""
  tenantID : String := ""
  «from» : Time := zeroTime
  «to» : Time := zeroTime
  limit : Int := 0
  offset : Int := 0
  deriving DecidableEq, Repr

def auditListMaxLimit : Int := 500

/-- `strings.ReplaceAll` of a single character. -/
def replaceAll (s : String) (old : Char) (new : String) : String :=
  String.ofList (s.toList.flatMap fun c => if c = old then new.toList else [c])

def escapeLike (s : String) : String := replaceAll (replaceAll (replaceAll s '\\' "\\\\") '%' "\\%") '_' "\\_"

/-- `fmt.Sprintf` of a format with one `%d`. -/
def sprintf (format : String) (n : Nat) : String :=
  String.ofList (go format.toList)
where
  go : List Char → List Char
    | '%' :: 'd' :: cs => (toString n).toList ++ cs
    | c :: cs => c :: go cs
    | [] => []

/-- The `WHERE` part so far and the arguments it refers to. -/
structure Clauses where
  wherePart : String
  args : List Value
  deriving DecidableEq, Repr

def Clauses.and (b : Clauses) (clause : String) (v : Value) : Clauses :=
  let args := b.args ++ [v]
  { wherePart := (if b.wherePart = "" then " WHERE " else b.wherePart ++ " AND ") ++ sprintf clause args.length
    args }

/-- The clauses of a filter with their arguments, in the order they are added. -/
def AuditFilter.clauses (f : AuditFilter) : List (String × Value) :=
  (if f.action ≠ "" then [("action = $%d", .text f.action)] else []) ++
  (f.actorUserID.toList.map fun id => ("actor_user_id = $%d", .uuid id)) ++
  (if f.actorEmail ≠ "" then [("actor_email ILIKE $%d", .text ("%" ++ escapeLike f.actorEmail ++ "%"))] else []) ++
  (if f.targetType ≠ "" then [("target_type = $%d", .text f.targetType)] else []) ++
  (if f.targetID ≠ "" then [("target_id = $%d", .text f.targetID)] else []) ++
  (if f.tenantID ≠ "" then [("tenant_id = $%d", .text f.tenantID)] else []) ++
  (if f.from ≠ zeroTime then [("at >= $%d", .time f.from)] else []) ++
  (if f.to ≠ zeroTime then [("at < $%d", .time f.to)] else [])

/-- The number of rows of a page. -/
def pageLimit (limit : Int) : Int :=
  let limit := if limit ≤ 0 then 100 else limit
  if auditListMaxLimit < limit then auditListMaxLimit else limit

/-- The clauses of a filter put together. -/
def AuditFilter.built (f : AuditFilter) : Clauses :=
  f.clauses.foldl (fun (b : Clauses) clause => b.and clause.1 clause.2) ⟨"", []⟩

/-- The text of the query before its conditions. -/
def auditSelect : String :=
  "SELECT id, at, actor_user_id, actor_email, action, target_type, target_id, tenant_id, detail" ++
    "\n\t            FROM admin_audit"

def auditListQuery (f : AuditFilter) : String × List Value :=
  let b := f.built
  let args := b.args ++ [.int (pageLimit f.limit)]
  let query := auditSelect ++ (b.wherePart ++ sprintf " ORDER BY at DESC, id DESC LIMIT $%d" args.length)
  if 0 < f.offset then
    let args := args ++ [.int f.offset]
    (query ++ sprintf " OFFSET $%d" args.length, args)
  else (query, args)

/-- A column that may be null. -/
def nullable {α : Type} (value : α → Value) : Option α → Value
  | none => .null
  | some a => value a

def AuditRecord.column (r : AuditRecord) : String → Option Value
  | "id" => some (.int r.id)
  | "at" => some (.time r.at)
  | "actor_user_id" => some (nullable .uuid r.actorUserID)
  | "actor_email" => some (.text r.actorEmail)
  | "action" => some (.text r.action)
  | "target_type" => some (nullable .text r.targetType)
  | "target_id" => some (nullable .text r.targetID)
  | "tenant_id" => some (nullable .text r.tenantID)
  | "detail" => some (.json r.detail)
  | _ => none

def scanUUID : Value → Option (Option UUID)
  | .null => some none
  | .uuid id => some (some id)
  | _ => none

def scanText : Value → Option (Option String)
  | .null => some none
  | .text s => some (some s)
  | _ => none

/-- `rows.Scan`. -/
def AuditRecord.scan : List Value → Option AuditRecord
  | [.int id, .time t, user, .text email, .text action, targetType, targetID, tenantID, .json detail] => do
      let user ← scanUUID user
      let targetType ← scanText targetType
      let targetID ← scanText targetID
      let tenantID ← scanText tenantID
      some ⟨id, t, user, email, action, targetType, targetID, tenantID, detail⟩
  | _ => none

/-- `AuditService.List` over the rows of the table as a scan finds them. -/
def list (fold : Char → Char) (rows : List AuditRecord) (f : AuditFilter) : Option (List AuditRecord) := do
  let (query, args) := auditListQuery f
  let found ← run AuditRecord.column fold args (fun name => if name = "admin_audit" then some rows else none) query
  found.mapM AuditRecord.scan

/-- A row satisfies every field of a filter that is not zero. The actor's email is found as a part of the row's when
differences that folding removes are left out. -/
structure AuditFilter.Matches (fold : Char → Char) (f : AuditFilter) (r : AuditRecord) : Prop where
  action : f.action ≠ "" → r.action = f.action
  actorUserID : ∀ id, f.actorUserID = some id → r.actorUserID = some id
  actorEmail : f.actorEmail ≠ "" → f.actorEmail.toList.map fold <:+: r.actorEmail.toList.map fold
  targetType : f.targetType ≠ "" → r.targetType = some f.targetType
  targetID : f.targetID ≠ "" → r.targetID = some f.targetID
  tenantID : f.tenantID ≠ "" → r.tenantID = some f.tenantID
  «from» : f.from ≠ zeroTime → f.from ≤ r.at
  «to» : f.to ≠ zeroTime → r.at < f.to

/-- Newest first, and of the same time the last written first. -/
def Newer (r s : AuditRecord) : Prop := s.at < r.at ∨ (s.at = r.at ∧ s.id < r.id)

end ThesadaApp.Audit
