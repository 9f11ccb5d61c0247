import ThesadaApp.Migrations

/-!
The runner applies each migration once and goes on where it has stopped, as long as no Apply writes while another works
from what it has read before, and none is cut short where the record lags behind the schema: in the seeding of a
database that predates the runner, and between the effect of a migration without a transaction and its record.
-/

namespace ThesadaApp.Migrations

section safety

/-- What is recorded is what is in the schema, once. -/
def Database.Tracked (db : Database) : Prop := ∀ v, db.effects v = if v ∈ db.recorded then 1 else 0

/-- The effects of the versions that were applied by hand, before there was a runner. -/
def Database.PreRunner (db : Database) : Prop := ∀ v, db.effects v = if v ∈ preRunnerAppliedVersions then 1 else 0

/-- A new database, one that the runner has kept, or one that predates it. -/
def Database.Start (db : Database) : Prop := db.Tracked ∨ db.recorded = [] ∧ db.PreRunner

def Stage.isDone : Stage → Bool
  | .done => true
  | _ => false

/-- The version whose body runs next. -/
def Stage.running : Stage → Option String
  | .run _ _ v _ | .body _ _ v _ => some v
  | _ => none

variable (bodies : Bodies)

/-- Each effect is there at most once, with its record if it was committed in a transaction (or by hand, before), and no
body is about to run whose effect is there. -/
structure Safe (db₀ : Database) (s : State) : Prop where
  once : ∀ v, s.db.effects v ≤ 1
  of_recorded : ∀ v ∈ s.db.recorded, s.db.effects v = 1
  recorded_of : ∀ v, bodies v = .transaction → s.db.effects v = 1 →
    v ∈ s.db.recorded ∨ db₀.recorded = [] ∧ db₀.PreRunner ∧ v ∈ preRunnerAppliedVersions
  no_rerun : ∀ stage ∈ s.applies, ∀ v ∈ stage.running, s.db.effects v = 0

/-- Some versions are seeded and some are not, or an effect without a transaction is not recorded. -/
def Stage.fragile : Stage → Bool
  | .seed _ todo => todo ≠ [] && todo ≠ preRunnerAppliedVersions
  | .require .. | .record .. => true
  | _ => false

/-- It has not read `schema_migrations` yet, or it has nothing left to run. -/
def Stage.idle : Stage → Bool
  | .ddl _ | .load _ | .done => true
  | .loop files applied todo => todo.all fun v => v ∈ applied || files.gated v
  | _ => false

/-- Its next statement changes the schema or the record. -/
def Stage.writes : Stage → Bool
  | .seed _ (_ :: _) | .run .. | .drop .. | .body .. | .record .. => true
  | _ => false

def Stage.isLoad : Stage → Bool
  | .load _ => true
  | _ => false

/-- The build of a concurrent index. -/
def Stage.isBody : Stage → Bool
  | .body .. => true
  | _ => false

/-- The other Apply calls. -/
def State.others (s : State) (p : Nat) : List Stage := s.applies.eraseIdx p

/-- An Apply writes when the others are idle, reads the versions when none of them is fragile, and does not end where it
is fragile itself. -/
def Guarded (s : State) : Action → Prop
  | .apply _ => True
  | .next p => ∀ stage ∈ s.applies[p]?, (stage.writes = true → ∀ other ∈ s.others p, other.idle = true) ∧
      (stage.isLoad = true → ∀ other ∈ s.others p, other.fragile = false)
  | .fail p _ => ∀ stage ∈ s.applies[p]?, stage.fragile = false ∧
      (stage.isBody = true → ∀ other ∈ s.others p, other.idle = true)

/-- One Apply after the other, and none fails. -/
def Undisturbed (s : State) : Action → Prop
  | .apply _ => ∀ stage ∈ s.applies, stage.isDone = true
  | .next p => ∀ other ∈ s.others p, other.isDone = true
  | .fail .. => False

instance (s : State) : DecidablePred (Guarded s)
  | .apply _ => isTrue trivial
  | .next p => inferInstanceAs (Decidable (∀ stage ∈ s.applies[p]?,
      (stage.writes = true → ∀ other ∈ s.others p, other.idle = true) ∧
      (stage.isLoad = true → ∀ other ∈ s.others p, other.fragile = false)))
  | .fail p _ => inferInstanceAs (Decidable (∀ stage ∈ s.applies[p]?, stage.fragile = false ∧
      (stage.isBody = true → ∀ other ∈ s.others p, other.idle = true)))

instance (s : State) : DecidablePred (Undisturbed s)
  | .apply _ => inferInstanceAs (Decidable (∀ stage ∈ s.applies, stage.isDone = true))
  | .next p => inferInstanceAs (Decidable (∀ other ∈ s.others p, other.isDone = true))
  | .fail .. => isFalse id

end safety

section stages

variable (bodies : Bodies) (preRunner : Prop) (db : Database)

/-- The state of the database between two Apply calls. -/
def Database.Rest : Prop := db.Tracked ∨ preRunner ∧ db.recorded = [] ∧ db.PreRunner

/-- The versions that are to come are applied if they are recorded. -/
def Ahead (applied todo : List String) : Prop := todo.Nodup ∧ ∀ v ∈ todo, v ∈ db.recorded → v ∈ applied

/-- A version without a transaction is about to be applied. -/
structure Due (applied : List String) (v : String) (todo : List String) : Prop where
  tracked : db.Tracked
  ahead : Ahead db applied (v :: todo)
  pending : v ∉ applied

/-- It has been, and is not recorded. -/
structure Unrecorded (applied : List String) (v : String) (todo : List String) : Prop where
  effects : ∀ w, db.effects w = if w ∈ db.recorded ∨ w = v then 1 else 0
  ahead : Ahead db applied (v :: todo)
  pending : v ∉ applied

/-- None of the indexes is an invalid one. -/
def Clean (names : List String) : Prop := ∀ n ∈ names, db.index n ≠ some false

def Stage.Ok : Stage → Prop
  | .ddl _ | .load _ | .done => db.Rest preRunner
  | .sentinel _ => db.Rest preRunner ∧ db.recorded = []
  | .seed _ todo => preRunner ∧ db.PreRunner ∧ db.recorded ++ todo = preRunnerAppliedVersions
  | .reload _ => db.Tracked
  | .loop _ applied todo => db.Tracked ∧ Ahead db applied todo
  | .run _ applied v todo => Due db applied v todo
  | .check _ applied v names todo => Due db applied v todo ∧ bodies v ≠ .transaction ∧
      ∃ names₀, names₀ ++ names = (bodies v).indexes ∧ Clean db names₀
  | .drop _ applied v n names todo => Due db applied v todo ∧ bodies v ≠ .transaction ∧
      ∃ names₀, names₀ ++ n :: names = (bodies v).indexes ∧ Clean db names₀
  | .body _ applied v todo => Due db applied v todo ∧ bodies v ≠ .transaction ∧ Clean db (bodies v).indexes
  | .require _ applied v names todo => Unrecorded db applied v todo ∧ bodies v ≠ .transaction ∧
      ∀ n ∈ names, db.index n = some true
  | .record _ applied v todo => Unrecorded db applied v todo ∧ bodies v ≠ .transaction

end stages

section step

variable {bodies : Bodies} {preRunner : Prop} {db db' : Database} {stage stage' : Stage} {applied todo : List String}
  {v : String} {files : Files}

theorem Due.notMem (h : Due db applied v todo) : v ∉ db.recorded := fun hmem =>
  h.pending (h.ahead.2 v List.mem_cons_self hmem)

theorem Unrecorded.notMem (h : Unrecorded db applied v todo) : v ∉ db.recorded := fun hmem =>
  h.pending (h.ahead.2 v List.mem_cons_self hmem)

theorem files_nodup (files : Files) : files.versions.Nodup := by
  refine files.sorted.imp fun hlt heq => ?_
  rw [heq] at hlt
  exact lt_irrefl _ hlt

theorem ahead_loaded : Ahead db db.recorded files.versions := ⟨files_nodup files, fun _ _ hmem => hmem⟩

@[simp] theorem recorded_record (db : Database) (v : String) :
    (db.record v).recorded = if v ∈ db.recorded then db.recorded else db.recorded ++ [v] := rfl

@[simp] theorem effects_record (db : Database) (v : String) : (db.record v).effects = db.effects := rfl

@[simp] theorem recorded_commitEffect (db : Database) (v : String) : (db.commitEffect v).recorded = db.recorded := rfl

theorem effects_commitEffect (db : Database) (v w : String) :
    (db.commitEffect v).effects w = if w = v then db.effects v + 1 else db.effects w :=
  Function.update_apply _ _ _ _

theorem mem_record {w : String} : w ∈ (db.record v).recorded ↔ w ∈ db.recorded ∨ w = v := by
  rw [recorded_record]
  split_ifs with hmem
  · exact ⟨.inl, fun h => h.elim id fun heq => heq ▸ hmem⟩
  · simp

/-- The record of a version completes it. -/
theorem Unrecorded.record (h : Unrecorded db applied v todo) :
    (db.record v).Tracked ∧ Ahead (db.record v) applied todo := by
  obtain ⟨hnodup, hahead⟩ := h.ahead
  refine ⟨fun w => ?_, (List.nodup_cons.mp hnodup).2, fun w hw hmem => ?_⟩
  · rw [effects_record, h.effects w]
    simp only [mem_record]
  · rcases mem_record.mp hmem with hold | rfl
    · exact hahead w (List.mem_cons_of_mem _ hw) hold
    · exact absurd hw (List.nodup_cons.mp hnodup).1

/-- The effect of a version that is due is there once. -/
theorem Due.commitEffect (h : Due db applied v todo) : Unrecorded (db.commitEffect v) applied v todo := by
  refine ⟨fun w => ?_, h.ahead, h.pending⟩
  rw [effects_commitEffect, recorded_commitEffect]
  by_cases hw : w = v
  · have hzero := h.tracked v
    rw [if_neg h.notMem] at hzero
    rw [if_pos hw, hzero, if_pos (.inr hw)]
  · rw [if_neg hw, h.tracked w]
    simp only [hw, or_false]

theorem clean_cons {n : String} {names : List String} (h : Clean db names) (hn : db.index n ≠ some false) :
    Clean db (names ++ [n]) := by
  intro m hm
  rcases List.mem_append.mp hm with hold | hnew
  · exact h m hold
  · rw [List.mem_singleton.mp hnew]
    exact hn

/-- A dropped index is clean, and the others stay. -/
theorem clean_setIndex {n : String} {names : List String} (h : Clean db names) :
    Clean (db.setIndex n none) (names ++ [n]) := by
  intro m hm heq
  by_cases hmn : m = n
  · rw [hmn] at heq
    simp [Database.setIndex] at heq
  · have hold : m ∈ names := by simpa [hmn] using hm
    refine h m hold ?_
    simpa [Database.setIndex, Function.update_of_ne hmn] using heq

/-- What is built of clean indexes is valid. -/
theorem index_build {names : List String} (h : Clean db names) :
    ∀ n ∈ names, (db.build names true).index n = some true := by
  intro n hn
  have hclean := h n hn
  simp only [Database.build, hn, true_and]
  cases hindex : db.index n with
  | none => rfl
  | some valid =>
      cases valid with
      | true => rfl
      | false => exact absurd hindex hclean

theorem Database.Rest.tracked (h : db.Rest preRunner) (hrecorded : db.recorded ≠ []) : db.Tracked :=
  h.resolve_right fun hpre => hrecorded hpre.2.1

theorem Database.Tracked.rest (h : db.Tracked) : db.Rest preRunner := .inl h

theorem usersExists_of_preRunner (h : db.PreRunner) : db.usersExists = true := by
  rw [Database.usersExists, h]
  rfl

/-- A statement of an Apply that is alone. -/
theorem Stage.Ok.next (hok : stage.Ok bodies preRunner db) (hstep : stepApply bodies db stage = some (db', stage')) :
    stage'.Ok bodies preRunner db' := by
  cases stage with
  | ddl files =>
      obtain ⟨rfl, rfl⟩ := Prod.mk.inj (Option.some.inj hstep)
      exact hok
  | load files =>
      obtain ⟨rfl, rfl⟩ := Prod.mk.inj (Option.some.inj hstep)
      split_ifs with hnil
      · exact ⟨hok, hnil⟩
      · exact ⟨hok.tracked hnil, ahead_loaded⟩
  | sentinel files =>
      obtain ⟨rfl, rfl⟩ := Prod.mk.inj (Option.some.inj hstep)
      obtain ⟨hrest, hnil⟩ := hok
      rcases hrest with htracked | ⟨hpre, -, hhand⟩
      · have husers : db.usersExists = false := by simp [Database.usersExists, htracked "0001_init", hnil]
        rw [husers, if_neg Bool.false_ne_true]
        refine ⟨htracked, files_nodup files, fun v _ hmem => ?_⟩
        rw [hnil] at hmem
        exact hmem
      · rw [usersExists_of_preRunner hhand, if_pos rfl]
        exact ⟨hpre, hhand, by rw [hnil, List.nil_append]⟩
  | seed files todo =>
      obtain ⟨hpre, hhand, hseeded⟩ := hok
      cases todo with
      | nil =>
          obtain ⟨rfl, rfl⟩ := Prod.mk.inj (Option.some.inj hstep)
          rw [List.append_nil] at hseeded
          intro v
          rw [hhand v, hseeded]
      | cons v todo =>
          obtain ⟨rfl, rfl⟩ := Prod.mk.inj (Option.some.inj hstep)
          refine ⟨hpre, hhand, ?_⟩
          have hnodup : (db.recorded ++ v :: todo).Nodup := by
            rw [hseeded]
            decide
          have hnew : v ∉ db.recorded := fun hmem =>
            (List.nodup_append.mp hnodup).2.2 v hmem v List.mem_cons_self rfl
          rw [recorded_record, if_neg hnew, List.append_assoc]
          exact hseeded
  | reload files =>
      obtain ⟨rfl, rfl⟩ := Prod.mk.inj (Option.some.inj hstep)
      exact ⟨hok, ahead_loaded⟩
  | loop files applied todo =>
      obtain ⟨htracked, hahead⟩ := hok
      cases todo with
      | nil =>
          obtain ⟨rfl, rfl⟩ := Prod.mk.inj (Option.some.inj hstep)
          exact htracked.rest
      | cons v todo =>
          obtain ⟨rfl, rfl⟩ := Prod.mk.inj (Option.some.inj hstep)
          split_ifs with hskip
          · exact ⟨htracked, (List.nodup_cons.mp hahead.1).2, fun w hw => hahead.2 w (List.mem_cons_of_mem _ hw)⟩
          · have hdue : Due db applied v todo := ⟨htracked, hahead, fun hmem => hskip (.inl hmem)⟩
            cases hbody : bodies v with
            | transaction => exact hdue
            | noTx names =>
                exact ⟨hdue, by simp [hbody], [], by simp [hbody, Body.indexes], fun _ hn => absurd hn List.not_mem_nil⟩
  | run files applied v todo =>
      obtain ⟨rfl, rfl⟩ := Prod.mk.inj (Option.some.inj hstep)
      exact hok.commitEffect.record
  | check files applied v names todo =>
      obtain ⟨hdue, hbody, names₀, hnames, hclean⟩ := hok
      cases names with
      | nil =>
          obtain ⟨rfl, rfl⟩ := Prod.mk.inj (Option.some.inj hstep)
          rw [List.append_nil] at hnames
          exact ⟨hdue, hbody, hnames ▸ hclean⟩
      | cons n names =>
          obtain ⟨rfl, rfl⟩ := Prod.mk.inj (Option.some.inj hstep)
          split_ifs with hinvalid
          · exact ⟨hdue, hbody, names₀, hnames, hclean⟩
          · exact ⟨hdue, hbody, names₀ ++ [n], by rw [← hnames]; simp, clean_cons hclean hinvalid⟩
  | drop files applied v n names todo =>
      obtain ⟨rfl, rfl⟩ := Prod.mk.inj (Option.some.inj hstep)
      obtain ⟨hdue, hbody, names₀, hnames, hclean⟩ := hok
      exact ⟨⟨hdue.tracked, hdue.ahead, hdue.pending⟩, hbody, names₀ ++ [n], by rw [← hnames]; simp,
        clean_setIndex hclean⟩
  | body files applied v todo =>
      obtain ⟨rfl, rfl⟩ := Prod.mk.inj (Option.some.inj hstep)
      obtain ⟨hdue, hbody, hclean⟩ := hok
      have hbuilt : Due (db.build (bodies v).indexes true) applied v todo := ⟨hdue.tracked, hdue.ahead, hdue.pending⟩
      exact ⟨hbuilt.commitEffect, hbody, index_build hclean⟩
  | require files applied v names todo =>
      obtain ⟨hunrecorded, hbody, hvalid⟩ := hok
      cases names with
      | nil =>
          obtain ⟨rfl, rfl⟩ := Prod.mk.inj (Option.some.inj hstep)
          exact ⟨hunrecorded, hbody⟩
      | cons n names =>
          obtain ⟨rfl, rfl⟩ := Prod.mk.inj (Option.some.inj hstep)
          rw [if_pos (hvalid n List.mem_cons_self)]
          exact ⟨hunrecorded, hbody, fun m hm => hvalid m (List.mem_cons_of_mem _ hm)⟩
  | record files applied v todo =>
      obtain ⟨rfl, rfl⟩ := Prod.mk.inj (Option.some.inj hstep)
      exact hok.1.record
  | done => cases hstep

/-- An Apply that is not fragile has the database at rest. -/
theorem Stage.Ok.rest (hok : stage.Ok bodies preRunner db) (hfragile : stage.fragile = false) : db.Rest preRunner := by
  cases stage with
  | ddl files => exact hok
  | load files => exact hok
  | sentinel files => exact hok.1
  | seed files todo =>
      obtain ⟨hpre, hhand, hseeded⟩ := hok
      by_cases hall : todo = []
      · rw [hall, List.append_nil] at hseeded
        refine .inl fun v => ?_
        rw [hhand v, hseeded]
      · have hnone : todo = preRunnerAppliedVersions := by simpa [Stage.fragile, hall] using hfragile
        rw [hnone, List.append_left_eq_self] at hseeded
        exact .inr ⟨hpre, hseeded, hhand⟩
  | reload files => exact .inl hok
  | loop files applied todo => exact .inl hok.1
  | run files applied v todo => exact .inl hok.tracked
  | check files applied v names todo => exact .inl hok.1.tracked
  | drop files applied v n names todo => exact .inl hok.1.tracked
  | body files applied v todo => exact .inl hok.1.tracked
  | require files applied v names todo => cases hfragile
  | record files applied v todo => cases hfragile
  | done => exact hok

end step

section runs

variable {bodies : Bodies} {preRunner : Prop} {db₀ db db' : Database} {s s' : State} {a : Action} {log : List Unit}
  {stage stage' : Stage}

/-- Each Apply is idle or has read what is still so, and the record is behind the schema only where one is fragile. -/
structure Inv (bodies : Bodies) (preRunner : Prop) (s : State) : Prop where
  ok : ∀ stage ∈ s.applies, stage.idle = true ∨ stage.Ok bodies preRunner s.db
  rest : s.db.Rest preRunner ∨ ∃ stage ∈ s.applies, stage.fragile = true

theorem not_fragile_of_idle (h : stage.idle = true) : stage.fragile = false := by
  cases stage with
  | ddl files => rfl
  | load files => rfl
  | loop files applied todo => rfl
  | done => rfl
  | _ => cases h

/-- What an Apply has read is still so in a database with the same record, effects and indexes. -/
theorem Stage.Ok.congr (h : stage.Ok bodies preRunner db) (hrecorded : db'.recorded = db.recorded)
    (heffects : db'.effects = db.effects) (hindex : db'.index = db.index) : stage.Ok bodies preRunner db' := by
  have hdue : ∀ {applied v todo}, Due db applied v todo → Due db' applied v todo := fun hdue =>
    ⟨fun w => by rw [heffects, hrecorded]; exact hdue.tracked w, ⟨hdue.ahead.1, by rw [hrecorded]; exact hdue.ahead.2⟩,
      hdue.pending⟩
  have hunrecorded : ∀ {applied v todo}, Unrecorded db applied v todo → Unrecorded db' applied v todo := fun hun =>
    ⟨fun w => by rw [heffects, hrecorded]; exact hun.effects w, ⟨hun.ahead.1, by rw [hrecorded]; exact hun.ahead.2⟩,
      hun.pending⟩
  have htracked : db.Tracked → db'.Tracked := fun h w => by rw [heffects, hrecorded]; exact h w
  have hhand : db.PreRunner → db'.PreRunner := fun h w => by rw [heffects]; exact h w
  have hrest : db.Rest preRunner → db'.Rest preRunner := fun h =>
    h.imp htracked fun hpre => ⟨hpre.1, hrecorded.trans hpre.2.1, hhand hpre.2.2⟩
  have hclean : ∀ {names}, Clean db names → Clean db' names := fun h n hn => by rw [hindex]; exact h n hn
  cases stage with
  | ddl files => exact hrest h
  | load files => exact hrest h
  | sentinel files => exact ⟨hrest h.1, hrecorded.trans h.2⟩
  | seed files todo => exact ⟨h.1, hhand h.2.1, by rw [hrecorded]; exact h.2.2⟩
  | reload files => exact htracked h
  | loop files applied todo => exact ⟨htracked h.1, h.2.1, by rw [hrecorded]; exact h.2.2⟩
  | run files applied v todo => exact hdue h
  | check files applied v names todo =>
      obtain ⟨hd, hbody, names₀, hnames, hc⟩ := h
      exact ⟨hdue hd, hbody, names₀, hnames, hclean hc⟩
  | drop files applied v n names todo =>
      obtain ⟨hd, hbody, names₀, hnames, hc⟩ := h
      exact ⟨hdue hd, hbody, names₀, hnames, hclean hc⟩
  | body files applied v todo => exact ⟨hdue h.1, h.2.1, hclean h.2.2⟩
  | require files applied v names todo => exact ⟨hunrecorded h.1, h.2.1, by rw [hindex]; exact h.2.2⟩
  | record files applied v todo => exact ⟨hunrecorded h.1, h.2⟩
  | done => exact hrest h

/-- A statement that does not write leaves what the others have read. -/
theorem stepApply_reads (hstep : stepApply bodies db stage = some (db', stage')) (hwrites : stage.writes = false) :
    db'.recorded = db.recorded ∧ db'.effects = db.effects ∧ db'.index = db.index := by
  cases stage with
  | run files applied v todo => cases hwrites
  | drop files applied v n names todo => cases hwrites
  | body files applied v todo => cases hwrites
  | record files applied v todo => cases hwrites
  | done => cases hstep
  | seed files todo =>
      cases todo with
      | nil =>
          obtain ⟨rfl, rfl⟩ := Prod.mk.inj (Option.some.inj hstep)
          exact ⟨rfl, rfl, rfl⟩
      | cons v todo => cases hwrites
  | loop files applied todo =>
      cases todo with
      | nil =>
          obtain ⟨rfl, rfl⟩ := Prod.mk.inj (Option.some.inj hstep)
          exact ⟨rfl, rfl, rfl⟩
      | cons v todo =>
          obtain ⟨rfl, rfl⟩ := Prod.mk.inj (Option.some.inj hstep)
          exact ⟨rfl, rfl, rfl⟩
  | check files applied v names todo =>
      cases names with
      | nil =>
          obtain ⟨rfl, rfl⟩ := Prod.mk.inj (Option.some.inj hstep)
          exact ⟨rfl, rfl, rfl⟩
      | cons n names =>
          obtain ⟨rfl, rfl⟩ := Prod.mk.inj (Option.some.inj hstep)
          exact ⟨rfl, rfl, rfl⟩
  | require files applied v names todo =>
      cases names with
      | nil =>
          obtain ⟨rfl, rfl⟩ := Prod.mk.inj (Option.some.inj hstep)
          exact ⟨rfl, rfl, rfl⟩
      | cons n names =>
          obtain ⟨rfl, rfl⟩ := Prod.mk.inj (Option.some.inj hstep)
          exact ⟨rfl, rfl, rfl⟩
  | _ =>
      obtain ⟨rfl, rfl⟩ := Prod.mk.inj (Option.some.inj hstep)
      exact ⟨rfl, rfl, rfl⟩

/-- An idle Apply that has not just read stays idle. -/
theorem idle_next (hidle : stage.idle = true) (hload : stage.isLoad = false)
    (hstep : stepApply bodies db stage = some (db', stage')) : stage'.idle = true ∧ stage.writes = false := by
  cases stage with
  | ddl files =>
      obtain ⟨rfl, rfl⟩ := Prod.mk.inj (Option.some.inj hstep)
      exact ⟨rfl, rfl⟩
  | load files => cases hload
  | loop files applied todo =>
      cases todo with
      | nil =>
          obtain ⟨rfl, rfl⟩ := Prod.mk.inj (Option.some.inj hstep)
          exact ⟨rfl, rfl⟩
      | cons v todo =>
          obtain ⟨rfl, rfl⟩ := Prod.mk.inj (Option.some.inj hstep)
          simp only [Stage.idle, List.all_cons, Bool.and_eq_true, Bool.or_eq_true, decide_eq_true_eq] at hidle
          rw [if_pos hidle.1]
          exact ⟨hidle.2, rfl⟩
  | done => cases hstep
  | _ => cases hidle

theorem Inv.apply (h : Inv bodies preRunner s) (files : Files) :
    Inv bodies preRunner { s with applies := s.applies ++ [.ddl files] } := by
  refine ⟨fun stage hstage => ?_, h.rest.imp id fun hfragile => ?_⟩
  · rcases List.mem_append.mp hstage with hold | hnew
    · exact h.ok stage hold
    · rw [List.mem_singleton.mp hnew]
      exact .inl rfl
  · obtain ⟨f, hf, hfragile⟩ := hfragile
    exact ⟨f, List.mem_append_left _ hf, hfragile⟩

/-- After a step of one Apply: it is idle or at rest with what it has read, and so are the others. -/
theorem Inv.set (h : Inv bodies preRunner s) {p : Nat} (hp : s.applies[p]? = some stage)
    (hothers : ∀ other ∈ s.others p, other.idle = true ∨ other.Ok bodies preRunner db')
    (hstage : stage'.idle = true ∧ stage.fragile = false ∧ (s.db.Rest preRunner → db'.Rest preRunner) ∨
      stage'.Ok bodies preRunner db') : Inv bodies preRunner ⟨db', s.applies.set p stage'⟩ := by
  have hlt : p < s.applies.length := (List.getElem?_eq_some_iff.mp hp).1
  have hmem : stage' ∈ s.applies.set p stage' := List.mem_of_getElem? (List.getElem?_set_self hlt)
  have hkeep : ∀ other ∈ s.others p, other ∈ s.applies.set p stage' := by
    intro other hother
    obtain ⟨q, hq, hget⟩ := List.mem_eraseIdx_iff_getElem?.mp hother
    refine List.mem_of_getElem? (i := q) ?_
    rw [List.getElem?_set_ne (Ne.symm hq)]
    exact hget
  constructor
  · intro other hother
    obtain ⟨q, hq⟩ := List.getElem?_of_mem hother
    obtain ⟨-, rfl⟩ | ⟨hqp, hold⟩ := Machine.getElem?_set_cases hq
    · exact hstage.imp (fun hidle => hidle.1) id
    · exact hothers other (List.mem_eraseIdx_iff_getElem?.mpr ⟨q, hqp, hold⟩)
  · rcases hstage with ⟨-, hfirm, hrest⟩ | hok
    · rcases h.rest with hold | ⟨f, hf, hfragile⟩
      · exact .inl (hrest hold)
      · obtain ⟨q, hq⟩ := List.getElem?_of_mem hf
        have hqp : q ≠ p := by
          rintro rfl
          rw [hp, Option.some.injEq] at hq
          rw [← hq, hfirm] at hfragile
          cases hfragile
        exact .inr ⟨f, hkeep f (List.mem_eraseIdx_iff_getElem?.mpr ⟨q, hqp, hq⟩), hfragile⟩
    · cases hfragile : stage'.fragile with
      | false => exact .inl (hok.rest hfragile)
      | true => exact .inr ⟨stage', hmem, hfragile⟩

theorem mem_of_others {p : Nat} {other : Stage} (h : other ∈ s.others p) : other ∈ s.applies :=
  List.mem_of_mem_eraseIdx h

theorem rest_congr (hrecorded : db'.recorded = db.recorded) (heffects : db'.effects = db.effects) :
    db.Rest preRunner → db'.Rest preRunner := by
  refine Or.imp (fun h w => ?_) fun h => ⟨h.1, hrecorded.trans h.2.1, fun w => ?_⟩
  · rw [heffects, hrecorded]
    exact h w
  · rw [heffects]
    exact h.2.2 w

theorem Inv.next (h : Inv bodies preRunner s) {p : Nat} (hp : s.applies[p]? = some stage)
    (hwrites : stage.writes = true → ∀ other ∈ s.others p, other.idle = true)
    (hload : stage.isLoad = true → ∀ other ∈ s.others p, other.fragile = false)
    (hstep : stepApply bodies s.db stage = some (db', stage')) :
    Inv bodies preRunner ⟨db', s.applies.set p stage'⟩ := by
  have hothers : ∀ other ∈ s.others p, other.idle = true ∨ other.Ok bodies preRunner db' := by
    intro other hother
    cases hw : stage.writes with
    | true => exact .inl (hwrites hw other hother)
    | false =>
        obtain ⟨hrecorded, heffects, hindex⟩ := stepApply_reads hstep hw
        exact (h.ok other (mem_of_others hother)).imp id fun hok => hok.congr hrecorded heffects hindex
  refine h.set hp hothers ?_
  cases hl : stage.isLoad with
  | true =>
      -- with no fragile Apply about, what is read is the schema
      have hstageLoad : stage.Ok bodies preRunner s.db := by
        cases stage with
        | load files =>
            refine h.rest.resolve_right fun ⟨f, hf, hfragile⟩ => ?_
            obtain ⟨q, hq⟩ := List.getElem?_of_mem hf
            by_cases hqp : q = p
            · rw [hqp, hp] at hq
              rw [← Option.some.inj hq] at hfragile
              cases hfragile
            · rw [hload rfl f (List.mem_eraseIdx_iff_getElem?.mpr ⟨q, hqp, hq⟩)] at hfragile
              cases hfragile
        | _ => cases hl
      exact .inr (hstageLoad.next hstep)
  | false =>
      rcases h.ok stage (List.mem_of_getElem? hp) with hidle | hok
      · obtain ⟨hidle', hreads⟩ := idle_next hidle hl hstep
        obtain ⟨hrecorded, heffects, -⟩ := stepApply_reads hstep hreads
        exact .inl ⟨hidle', not_fragile_of_idle hidle, rest_congr hrecorded heffects⟩
      · exact .inr (hok.next hstep)

theorem Inv.fail (h : Inv bodies preRunner s) {p : Nat} {leaves : List String} (hp : s.applies[p]? = some stage)
    (hfirm : stage.fragile = false) (hbody : stage.isBody = true → ∀ other ∈ s.others p, other.idle = true)
    (hfail : failApply bodies s.db leaves stage = some db') : Inv bodies preRunner ⟨db', s.applies.set p .done⟩ := by
  have hdb : db'.recorded = s.db.recorded ∧ db'.effects = s.db.effects ∧ (stage.isBody = false → db' = s.db) := by
    cases stage with
    | done => cases hfail
    | body files applied v todo =>
        obtain rfl := Option.some.inj hfail
        exact ⟨rfl, rfl, fun hno => by cases hno⟩
    | _ =>
        obtain rfl := Option.some.inj hfail
        exact ⟨rfl, rfl, fun _ => rfl⟩
  refine h.set hp (fun other hother => ?_) (.inl ⟨rfl, hfirm, rest_congr hdb.1 hdb.2.1⟩)
  cases hb : stage.isBody with
  | true => exact .inl (hbody hb other hother)
  | false =>
      rw [hdb.2.2 hb]
      exact h.ok other (mem_of_others hother)

theorem Inv.step (h : Inv bodies preRunner s) (hguard : Guarded s a) (hstep : step bodies s a = some s') :
    Inv bodies preRunner s' := by
  cases a with
  | apply files =>
      obtain rfl := Option.some.inj hstep
      exact h.apply files
  | next p =>
      obtain ⟨stage, hp, hstage⟩ := Option.bind_eq_some_iff.mp hstep
      obtain ⟨⟨db', stage'⟩, happly, rfl⟩ := Option.map_eq_some_iff.mp hstage
      obtain ⟨hwrites, hload⟩ := hguard stage hp
      exact h.next hp hwrites hload happly
  | fail p leaves =>
      obtain ⟨stage, hp, hstage⟩ := Option.bind_eq_some_iff.mp hstep
      obtain ⟨db', hfail, rfl⟩ := Option.map_eq_some_iff.mp hstage
      obtain ⟨hfirm, hbody⟩ := hguard stage hp
      exact h.fail hp hfirm hbody hfail

/-- Where the record is behind. -/
theorem Stage.Ok.behind (hok : stage.Ok bodies preRunner db) (hfragile : stage.fragile = true) :
    preRunner ∧ db.PreRunner ∧ (∃ todo, db.recorded ++ todo = preRunnerAppliedVersions) ∨
    ∃ applied v todo, Unrecorded db applied v todo ∧ bodies v ≠ .transaction := by
  cases stage with
  | seed files todo => exact .inl ⟨hok.1, hok.2.1, todo, hok.2.2⟩
  | require files applied v names todo => exact .inr ⟨applied, v, todo, hok.1, hok.2.1⟩
  | record files applied v todo => exact .inr ⟨applied, v, todo, hok.1, hok.2⟩
  | _ => cases hfragile

theorem Stage.Ok.running_zero {v : String} (hok : stage.Ok bodies preRunner db)
    (hrunning : stage.running = some v) : db.effects v = 0 := by
  cases stage with
  | run files applied w todo =>
      obtain rfl := Option.some.inj hrunning
      rw [hok.tracked, if_neg hok.notMem]
  | body files applied w todo =>
      obtain rfl := Option.some.inj hrunning
      rw [hok.1.tracked, if_neg hok.1.notMem]
  | _ => cases hrunning

theorem not_running_of_idle (h : stage.idle = true) : stage.running = none := by
  cases stage with
  | run files applied v todo => cases h
  | body files applied v todo => cases h
  | _ => rfl

theorem Inv.safe (h : Inv bodies (db₀.recorded = [] ∧ db₀.PreRunner) s) : Safe bodies db₀ s := by
  have hrunning : ∀ stage ∈ s.applies, ∀ v ∈ stage.running, s.db.effects v = 0 := by
    intro stage hstage v hv
    rcases h.ok stage hstage with hidle | hok
    · rw [not_running_of_idle hidle] at hv
      cases hv
    · exact hok.running_zero hv
  have hcases : s.db.Rest (db₀.recorded = [] ∧ db₀.PreRunner) ∨
      (db₀.recorded = [] ∧ db₀.PreRunner) ∧ s.db.PreRunner ∧
        (∃ todo, s.db.recorded ++ todo = preRunnerAppliedVersions) ∨
      ∃ applied v todo, Unrecorded s.db applied v todo ∧ bodies v ≠ .transaction := by
    refine h.rest.imp id fun ⟨f, hf, hfragile⟩ => ?_
    refine ((h.ok f hf).resolve_left fun hidle => ?_).behind hfragile
    rw [not_fragile_of_idle hidle] at hfragile
    cases hfragile
  rcases hcases with (htracked | ⟨hpre, hnil, hhand⟩) | ⟨hpre, hhand, todo, hseeded⟩ | ⟨applied, v, todo, hpending,
    hbody⟩
  · refine ⟨fun v => ?_, fun v hv => ?_, fun v _ hv => ?_, hrunning⟩
    · rw [htracked v]
      split_ifs <;> omega
    · rw [htracked v, if_pos hv]
    · rw [htracked v] at hv
      split_ifs at hv with hmem
      exact .inl hmem
  · refine ⟨fun v => ?_, fun v hv => ?_, fun v _ hv => ?_, hrunning⟩
    · rw [hhand v]
      split_ifs <;> omega
    · rw [hnil] at hv
      exact absurd hv List.not_mem_nil
    · rw [hhand v] at hv
      split_ifs at hv with hmem
      exact .inr ⟨hpre.1, hpre.2, hmem⟩
  · refine ⟨fun v => ?_, fun v hv => ?_, fun v _ hv => ?_, hrunning⟩
    · rw [hhand v]
      split_ifs <;> omega
    · rw [hhand v, if_pos]
      rw [← hseeded]
      exact List.mem_append_left _ hv
    · rw [hhand v] at hv
      split_ifs at hv with hmem
      exact .inr ⟨hpre.1, hpre.2, hmem⟩
  · refine ⟨fun w => ?_, fun w hw => ?_, fun w hw heffect => ?_, hrunning⟩
    · rw [hpending.effects w]
      split_ifs <;> omega
    · rw [hpending.effects w, if_pos (.inl hw)]
    · rw [hpending.effects w] at heffect
      split_ifs at heffect with hmem
      rcases hmem with hmem | rfl
      · exact .inl hmem
      · exact absurd hw hbody

theorem inv_start (hdb : db₀.Start) : Inv bodies (db₀.recorded = [] ∧ db₀.PreRunner) (start db₀) :=
  ⟨fun _ hstage => absurd hstage List.not_mem_nil, .inl (hdb.imp id fun hpre => ⟨hpre, hpre⟩)⟩

theorem step_of_system {e : Unit} (h : (system bodies).step s a = some (s', e)) : step bodies s a = some s' := by
  obtain ⟨s₁, hs₁, heq⟩ := Option.map_eq_some_iff.mp h
  rw [hs₁, (Prod.mk.inj heq).1]

theorem inv_run (hinv : Inv bodies preRunner s) (hrun : (system bodies).RunIf (fun _ => Guarded) s log s') :
    Inv bodies preRunner s' :=
  hrun.invariant (fun _ => Inv bodies preRunner) hinv
    fun _ _ _ _ _ h hguard hstep => h.step hguard (step_of_system hstep)

theorem undisturbed_guarded {e : Unit} (h : Undisturbed s a) (hstep : (system bodies).step s a = some (s', e)) :
    Guarded s a := by
  have hidle : ∀ {stage : Stage}, stage.isDone = true → stage.idle = true := by
    intro stage hdone
    cases stage with
    | done => rfl
    | _ => cases hdone
  cases a with
  | apply files => trivial
  | next p =>
      intro stage _
      exact ⟨fun _ other hother => hidle (h other hother),
        fun _ other hother => not_fragile_of_idle (hidle (h other hother))⟩
  | fail p leaves => exact h.elim

/-- In every state of a guarded run, and of the undisturbed Apply calls that come after it. -/
theorem safe_run (hdb : db₀.Start) (hrun : (system bodies).RunIf (fun _ => Guarded) (start db₀) log s) :
    Safe bodies db₀ s ∧
    ∀ log' s', (system bodies).RunIf (fun _ => Undisturbed) s log' s' → Safe bodies db₀ s' := by
  have hinv := inv_run (inv_start hdb) hrun
  refine ⟨hinv.safe, fun log' s' hlater => ?_⟩
  have hguarded : (system bodies).RunIf (fun _ => Guarded) s log' s' :=
    hlater.imp fun _ _ _ _ _ _ h hstep => undisturbed_guarded h hstep
  exact (inv_run hinv hguarded).safe

end runs

section seeding

/-- A database that predates the runner. -/
def byHand : Database := ⟨none, fun v => if v ∈ preRunnerAppliedVersions then 1 else 0, fun _ => none⟩

def firstTwo : Files where
  versions := ["0001_init", "0002_magic_link_purpose"]
  gated _ := false
  sorted := by decide +kernel

def inTransactions : Bodies := fun _ => .transaction

/-- What an Apply that has seeded one version leaves behind. -/
def oneSeeded : State := ⟨byHand.record "0001_init", [.done]⟩

/-- The next Apply finds a row, does not seed the rest and runs the second migration again. -/
theorem not_safe_seeding : byHand.Start ∧ ∃ log, (system inTransactions).Run (start byHand) log oneSeeded ∧
    ∃ log' s', (system inTransactions).RunIf (fun _ => Undisturbed) oneSeeded log' s' ∧
    ¬ Safe inTransactions byHand s' := by
  have hseeded : (system inTransactions).exec (start byHand)
      [.apply firstTwo, .next 0, .next 0, .next 0, .next 0, .fail 0 []] = some (List.replicate 6 (), oneSeeded) := rfl
  refine ⟨.inr ⟨rfl, fun _ => rfl⟩, _, Machine.run_of_exec hseeded, ?_⟩
  have hexec : ((system inTransactions).execIf (fun _ => Undisturbed) [] oneSeeded
      [.apply firstTwo, .next 1, .next 1, .next 1, .next 1]).any (fun out => out.2.applies.any fun stage =>
        stage.running = some "0002_magic_link_purpose" && out.2.db.effects "0002_magic_link_purpose" = 1) = true := by
    decide +kernel
  obtain ⟨log', s', hrun, hagain⟩ := Machine.exists_runIf_of_any hexec
  refine ⟨log', s', hrun, fun hsafe => ?_⟩
  obtain ⟨stage, hstage, hboth⟩ := List.any_eq_true.mp hagain
  simp only [Bool.and_eq_true, decide_eq_true_eq] at hboth
  have hzero := hsafe.no_rerun stage hstage _ hboth.1
  rw [hboth.2] at hzero
  cases hzero

/-- Where the seeding is not cut short, an Apply that fails later is taken up by the next. -/
theorem safe_resumed : ∃ log s, (system inTransactions).RunIf (fun _ => Guarded) (start byHand) log s ∧
    s.db.recorded = preRunnerAppliedVersions ∧ Safe inTransactions byHand s := by
  have hexec : ((system inTransactions).execIf (fun _ => Guarded) [] (start byHand)
      ([.apply firstTwo] ++ List.replicate 9 (.next 0) ++ [.fail 0 [], .apply firstTwo] ++
        List.replicate 3 (.next 1))).any
      (fun out => out.2.db.recorded = preRunnerAppliedVersions) = true := by decide +kernel
  obtain ⟨log, s, hrun, hrecorded⟩ := Machine.exists_runIf_of_any hexec
  exact ⟨log, s, hrun, of_decide_eq_true hrecorded, (safe_run (.inr ⟨rfl, fun _ => rfl⟩) hrun).1⟩

end seeding

end ThesadaApp.Migrations
