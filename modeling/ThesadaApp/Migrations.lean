import Mathlib.Data.List.Sort
import Mathlib.Data.String.Basic
import ThesadaApp.MachineRun

/-!
The migration runner, statement by statement. Any number of Apply calls are in progress, on one database; each may fail
or crash before any of its statements. What the body of a migration does to the schema is its effect, which the
database counts.
-/

namespace ThesadaApp.Migrations

/-- A file that `noTxMarker` is in is run without a transaction, and builds these indexes. -/
inductive Body where
  | transaction
  | noTx (concurrentIndexNames : List String)
  deriving DecidableEq

/-- The versions of the embedded files, in the order of the file names; some are gated. -/
structure Files where
  versions : List String
  gated : String → Bool
  sorted : versions.Pairwise fun v w => v ++ ".sql" < w ++ ".sql"

def preRunnerAppliedVersions : List String :=
  ["0001_init", "0002_magic_link_purpose", "0003_timescale_hypertable", "0004_multi_tenant_admin",
    "0005_session_impersonation"]

/-- The database: the rows of `schema_migrations` once there is one, how often the effect of a version is in the schema,
and the indexes, each valid or not. -/
structure Database where
  tracking : Option (List String)
  effects : String → Nat
  index : String → Option Bool

def Database.recorded (db : Database) : List String := db.tracking.getD []

/-- INSERT of a version, ON CONFLICT DO NOTHING. -/
def Database.record (db : Database) (v : String) : Database :=
  { db with tracking := some (if v ∈ db.recorded then db.recorded else db.recorded ++ [v]) }

def Database.commitEffect (db : Database) (v : String) : Database :=
  { db with effects := Function.update db.effects v (db.effects v + 1) }

/-- The table that `0001_init` creates. -/
def Database.usersExists (db : Database) : Bool := 0 < db.effects "0001_init"

/-- The indexes a body builds that are not there. -/
def Database.build (db : Database) (names : List String) (valid : Bool) : Database :=
  { db with index := fun n => if n ∈ names ∧ db.index n = none then some valid else db.index n }

def Database.setIndex (db : Database) (name : String) (i : Option Bool) : Database :=
  { db with index := Function.update db.index name i }

/-- The statement an Apply is at. -/
inductive Stage where
  /-- `trackingTableDDL` -/
  | ddl (files : Files)
  | load (files : Files)
  /-- `bootstrapPreRunnerSchema`: the sentinel, and the versions it has yet to seed -/
  | sentinel (files : Files)
  | seed (files : Files) (todo : List String)
  | reload (files : Files)
  | loop (files : Files) (applied todo : List String)
  /-- The transaction of `runOne` -/
  | run (files : Files) (applied : List String) (v : String) (todo : List String)
  /-- `dropInvalidIndex` of each index, its SELECT or its DROP -/
  | check (files : Files) (applied : List String) (v : String) (names : List String) (todo : List String)
  | drop (files : Files) (applied : List String) (v : String) (name : String) (names : List String) (todo : List String)
  /-- The body of `runOutsideTx` -/
  | body (files : Files) (applied : List String) (v : String) (todo : List String)
  | require (files : Files) (applied : List String) (v : String) (names : List String) (todo : List String)
  | record (files : Files) (applied : List String) (v : String) (todo : List String)
  /-- It has returned, or its process is gone. -/
  | done

structure State where
  db : Database
  applies : List Stage

def start (db : Database) : State := ⟨db, []⟩

inductive Action where
  | apply (files : Files)
  | next (p : Nat)
  /-- The statement fails, or the process ends before it. A failed build leaves some of its indexes invalid. -/
  | fail (p : Nat) (leaves : List String)

/-- The bodies of the versions. -/
abbrev Bodies := String → Body

def Body.indexes : Body → List String
  | .transaction => []
  | .noTx names => names

variable (bodies : Bodies)

/-- The next statement of an Apply, once it has run. -/
def stepApply (db : Database) : Stage → Option (Database × Stage)
  | .ddl files => some ({ db with tracking := some db.recorded }, .load files)
  | .load files => some (db, if db.recorded = [] then .sentinel files else .loop files db.recorded files.versions)
  | .sentinel files =>
      some (db, if db.usersExists then .seed files preRunnerAppliedVersions else .loop files [] files.versions)
  | .seed files (v :: todo) => some (db.record v, .seed files todo)
  | .seed files [] => some (db, .reload files)
  | .reload files => some (db, .loop files db.recorded files.versions)
  | .loop files applied (v :: todo) =>
      some (db, if v ∈ applied ∨ files.gated v then .loop files applied todo
        else match bodies v with
          | .transaction => .run files applied v todo
          | .noTx names => .check files applied v names todo)
  | .loop _ _ [] => some (db, .done)
  | .run files applied v todo => some ((db.commitEffect v).record v, .loop files applied todo)
  | .check files applied v (n :: names) todo =>
      some (db,
        if db.index n = some false then .drop files applied v n names todo else .check files applied v names todo)
  | .check files applied v [] todo => some (db, .body files applied v todo)
  | .drop files applied v n names todo => some (db.setIndex n none, .check files applied v names todo)
  | .body files applied v todo =>
      some ((db.build (bodies v).indexes true).commitEffect v, .require files applied v (bodies v).indexes todo)
  | .require files applied v (n :: names) todo =>
      some (db, if db.index n = some true then .require files applied v names todo else .done)
  | .require files applied v [] todo => some (db, .record files applied v todo)
  | .record files applied v todo => some (db.record v, .loop files applied todo)
  | .done => none

/-- What a failed statement leaves: a transaction nothing, a concurrent build invalid indexes. -/
def failApply (db : Database) (leaves : List String) : Stage → Option Database
  | .done => none
  | .body _ _ v _ => some (db.build (leaves.filter fun n => n ∈ (bodies v).indexes) false)
  | _ => some db

def step (s : State) : Action → Option State
  | .apply files => some { s with applies := s.applies ++ [.ddl files] }
  | .next p => (s.applies[p]?).bind fun stage =>
      (stepApply bodies s.db stage).map fun out => ⟨out.1, s.applies.set p out.2⟩
  | .fail p leaves => (s.applies[p]?).bind fun stage =>
      (failApply bodies s.db leaves stage).map fun db => ⟨db, s.applies.set p .done⟩

def system : Machine State Action Unit where
  step s a := (step bodies s a).map fun s' => (s', ())

end ThesadaApp.Migrations
