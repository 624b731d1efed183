import Fenrir.Lib.Run
import Fenrir.Migrations.Files

/-! # The migration runner

`infra/db/migrations/runner.rs`. Progress is kept in a state file beside the database: the
names of the files applied and the fingerprint of the database they were applied to. The
runner of host migrations clears the names when it takes the database for a new one.

What can fail comes with the run (`SourceAnswers`, `HostAnswers`). -/

namespace Fenrir.Migrations

open List

inductive DbEngine where
  | postgres | mysql | sqlite | mongodb
  deriving DecidableEq

/-- What a batch of statements does to the tables of a database. -/
class Sql where
  tablesAfter : String → List String → List String

/-- A database instance. `executed` is the history of migrations on it: whose file
(`none` for the host's) and which. -/
structure Database where
  fingerprint : String
  tables : List String
  executed : List (Option String × String)

structure MigrationState where
  applied : List String
  dbFingerprint : Option String
  deriving DecidableEq

def MigrationState.empty : MigrationState := ⟨[], none⟩

/-- A state file on disk; one that was cut short does not parse. -/
inductive StateFile where
  | missing | garbled
  | holds (state : MigrationState)
  deriving DecidableEq

/-- How a write of the state file ends; a failed one leaves the old contents, a part
of the new, or all of the new. -/
inductive WriteResult where
  | written | failedOld | failedPart | failedNew
  deriving DecidableEq

structure SourceAnswers where
  list : Except String (List DirEntry)
  present : String → Bool
  read : String → Except String String
  execute : String → Except String Unit
  loadState : Bool
  /-- The write after a file, and the last one of a run. -/
  write : Option String → WriteResult

structure Pending where
  state : MigrationState
  report : List String
  file : StateFile
  db : Database

/-! ## The state file -/

def loadState (readable : Bool) : StateFile → Except String MigrationState
  | .missing => .ok .empty
  | .garbled => .error "failed to parse migration state"
  | .holds state => if readable then .ok state else .error "failed to read migration state"

/-- What a write leaves in the place of the old file. -/
def WriteResult.leaves (old : StateFile) (new : MigrationState) : WriteResult → StateFile
  | .written | .failedNew => .holds new
  | .failedOld => old
  | .failedPart => .garbled

/-- `persist_state`. -/
def Pending.persist (p : Pending) (write : WriteResult) : Except String Unit × Pending :=
  (if write = .written then .ok () else .error "failed to write migration state",
    { p with file := write.leaves p.file p.state })

def Pending.markApplied (p : Pending) (file : String) : Pending :=
  { p with state := { p.state with applied := file :: p.state.applied } }

/-- The payload of a blank file is nothing but white space. -/
def blank (payload : String) : Bool := Text.trim payload = ""

section

variable [Sql]

def Pending.executed (p : Pending) (source : Option String) (file payload : String) : Pending :=
  { p with
    db := { p.db with
      tables := Sql.tablesAfter payload p.db.tables
      executed := p.db.executed ++ [(source, file)] } }

/-- One turn of the loop both runners have, with the name a file has in the report. -/
def applyFile (source : Option String) (answers : SourceAnswers) (reported : String → String)
    (file : String) (p : Pending) : Except String Unit × Pending :=
  if p.state.applied.contains file || !answers.present file then (.ok (), p)
  else
    match answers.read file with
    | .error err => (.error err, p)
    | .ok payload =>
      if blank payload then (p.markApplied file).persist (answers.write (some file))
      else
        match answers.execute file with
        | .error err => (.error err, p)
        | .ok () =>
          match ((p.executed source file payload).markApplied file).persist
              (answers.write (some file)) with
          | (.error err, p) => (.error err, p)
          | (.ok (), p) => (.ok (), { p with report := p.report ++ [reported file] })

/-- The loop: the first error ends it. -/
def applyFiles (source : Option String) (answers : SourceAnswers) (reported : String → String) :
    List String → Pending → Except String Unit × Pending
  | [], p => (.ok (), p)
  | file :: files, p =>
    match applyFile source answers reported file p with
    | (.error err, p) => (.error err, p)
    | (.ok (), p) => applyFiles source answers reported files p

/-! ## Host migrations -/

section

variable (engine : DbEngine) (answers : HostAnswers) (db : Database)

structure HostAnswers extends SourceAnswers where
  switchEngine : Except String Unit
  /-- Whether the query for the fingerprint, and the one for the table, succeed. -/
  (fingerprintQuery tableQuery : Bool)

def getDbFingerprint : Option String :=
  match engine with
  | .postgres => if answers.fingerprintQuery then some db.fingerprint else none
  | _ => none

/-- `check_migrations_applied`: a query that fails counts as a table that is missing. -/
def checkMigrationsApplied : Bool :=
  match engine with
  | .postgres | .sqlite => answers.tableQuery && db.tables.contains "identity_keys"
  | .mysql | .mongodb => true

/-- The two grounds on which the runner takes the database for a new one. -/
def recreated (state : MigrationState) : Bool :=
  let changed := match state.dbFingerprint, getDbFingerprint engine answers db with
    | some stored, some current => stored ≠ current
    | _, _ => false
  changed || (state.applied ≠ [] && !checkMigrationsApplied engine answers db)

structure MigrationReport where
  applied : List String
  dbWasRecreated : Bool

/-- A database and the state file of its host migrations. -/
structure HostWorld where
  db : Database
  file : StateFile

/-- The start of a run: nothing counts as applied to a database taken for a new one. -/
def startPending (w : HostWorld) (state : MigrationState) : Pending :=
  ⟨if recreated engine answers w.db state then { state with applied := [] } else state,
    [], w.file, w.db⟩

/-- The end of a run: the fingerprint is stored once all files went through. -/
def storeFingerprint (fingerprint : Option String) (p : Pending) : Except String Unit × Pending :=
  match fingerprint with
  | none => (.ok (), p)
  | some fp =>
    Pending.persist { p with state := { p.state with dbFingerprint := some fp } }
      (answers.write none)

def applyPendingMigrations (w : HostWorld) : Except String MigrationReport × HostWorld :=
  match answers.list with
  | .error err => (.error err, w)
  | .ok entries =>
    if listSqlFilesIn entries = [] then (.ok ⟨[], false⟩, w)
    else
      match answers.switchEngine with
      | .error err => (.error err, w)
      | .ok () =>
        match loadState answers.loadState w.file with
        | .error err => (.error err, w)
        | .ok state =>
          match applyFiles none answers.toSourceAnswers id (listSqlFilesIn entries)
              (startPending engine answers w state) with
          | (.error err, p) => (.error err, ⟨p.db, p.file⟩)
          | (.ok (), p) =>
            match storeFingerprint answers (getDbFingerprint engine answers w.db) p with
            | (.error err, p) => (.error err, ⟨p.db, p.file⟩)
            | (.ok (), p) =>
              (.ok ⟨p.report, recreated engine answers w.db state⟩, ⟨p.db, p.file⟩)

end

/-! ## What a pass over files does -/

section

variable {source : Option String} {answers : SourceAnswers} {reported : String → String}

def SourceAnswers.hasStatements (answers : SourceAnswers) (file : String) : Prop :=
  answers.present file = true ∧ ∀ payload, answers.read file = .ok payload → blank payload = false

/-- **WHAT ONE TURN DOES**: nothing, a mark, or an execution and a mark. -/
inductive Turn (source : Option String) (answers : SourceAnswers) (file : String) (p : Pending) :
    Except String Unit → Pending → Prop
  | skipped (known : file ∈ p.state.applied ∨ ¬ answers.hasStatements file) :
      Turn source answers file p (.ok ()) p
  | stopped (err : String) : Turn source answers file p (.error err) p
  | marked (r : Except String Unit) (p' : Pending) (no : ¬ answers.hasStatements file)
      (fresh : file ∉ p.state.applied)
      (state : p'.state = { p.state with applied := file :: p.state.applied })
      (left : p'.file = (answers.write (some file)).leaves p.file p'.state)
      (db : p'.db = p.db) : Turn source answers file p r p'
  | ran (r : Except String Unit) (p' : Pending) (payload : String)
      (execute : answers.execute file = .ok ()) (fresh : file ∉ p.state.applied)
      (state : p'.state = { p.state with applied := file :: p.state.applied })
      (left : p'.file = (answers.write (some file)).leaves p.file p'.state)
      (db : p'.db = (p.executed source file payload).db) : Turn source answers file p r p'

theorem turn_applyFile (source : Option String) (answers : SourceAnswers)
    (reported : String → String) (file : String) (p : Pending) :
    Turn source answers file p (applyFile source answers reported file p).1
      (applyFile source answers reported file p).2 := by
  have hfre : ¬ (p.state.applied.contains file || !answers.present file) = true →
      file ∉ p.state.applied := fun hsk h => hsk (by simp [h])
  fun_cases applyFile source answers reported file p
  case case1 hsk =>
    refine .skipped ?_
    rcases Bool.or_eq_true_iff.mp hsk with h | h
    · exact .inl (contains_iff_mem.mp h)
    · refine .inr fun hs => ?_
      rw [hs.1] at h
      cases h
  case case2 | case4 => exact .stopped _
  case case3 hsk payload hre hbla =>
    refine .marked _ _ ?_ (hfre hsk) rfl rfl rfl
    intro hs
    have := hs.2 payload hre
    rw [hbla] at this
    cases this
  case case5 hsk payload hre hbla hex err q hper | case6 hsk payload hre hbla hex q hper =>
    cases hw : answers.write (some file)
    all_goals
      rw [hw] at hper
      cases hper
    all_goals exact .ran _ _ payload hex (hfre hsk) rfl (by rw [hw]; rfl) rfl

theorem applyFiles_invariant {Inv : Pending → Prop} (reported : String → String)
    (htu : ∀ file p r p', Inv p → Turn source answers file p r p' → Inv p')
    (files : List String) {p : Pending} (hp : Inv p) :
    Inv (applyFiles source answers reported files p).2 := by
  induction files generalizing p with
  | nil => exact hp
  | cons file files ih =>
    have htu' := turn_applyFile source answers reported file p
    rw [applyFiles]
    cases hf : applyFile source answers reported file p with
    | mk r p' =>
      rw [hf] at htu'
      have hinv := htu file p r p' hp htu'
      cases r with
      | error err => exact hinv
      | ok u => exact ih hinv

/-- What a pass over files executes: some of the files, in their order, none twice,
none that was applied before; all that have statements if the pass succeeds. -/
theorem applyFiles_new (source : Option String) (answers : SourceAnswers)
    (reported : String → String) (files : List String) (p : Pending) : ∃ new : List String,
      (applyFiles source answers reported files p).2.db.executed =
        p.db.executed ++ new.map (source, ·) ∧
      new.Sublist files ∧ new.Nodup ∧ (∀ f ∈ new, f ∉ p.state.applied) ∧
      ((applyFiles source answers reported files p).1 = .ok () →
        ∀ f ∈ files, answers.hasStatements f → f ∉ p.state.applied → f ∈ new) := by
  induction files generalizing p with
  | nil => exact ⟨[], (append_nil _).symm, .slnil, .nil, nofun, fun _ => nofun⟩
  | cons file files ih =>
    have htu := turn_applyFile source answers reported file p
    rw [applyFiles]
    cases hf : applyFile source answers reported file p with
    | mk r p' =>
      rw [hf] at htu
      cases htu with
      | skipped known =>
        obtain ⟨new, hex, hsub, hnd, hfre, hdo⟩ := ih _
        refine ⟨new, hex, hsub.cons _, hnd, hfre, fun hok f hmem hs hno => ?_⟩
        rcases mem_cons.mp hmem with rfl | hmem
        · exact (known.elim hno (fun h => h hs)).elim
        · exact hdo hok f hmem hs hno
      | stopped err =>
        exact ⟨[], (append_nil _).symm, nil_sublist _, .nil, nofun, nofun⟩
      | marked _ _ no fresh state left db =>
        cases r with
        | error err =>
          refine ⟨[], ?_, nil_sublist _, .nil, nofun, nofun⟩
          rw [map_nil, append_nil, ← db]
        | ok u =>
          obtain ⟨new, hex, hsub, hnd, hfre, hdo⟩ := ih p'
          rw [state] at hfre hdo
          rw [db] at hex
          refine ⟨new, hex, hsub.cons _, hnd, fun f hmem hno => hfre f hmem (mem_cons_of_mem _ hno),
            fun hok f hmem hs hno => ?_⟩
          have hne : f ≠ file := by
            rintro rfl
            exact no hs
          refine hdo hok f ((mem_cons.mp hmem).resolve_left hne) hs ?_
          exact fun h => (mem_cons.mp h).elim hne hno
      | ran _ _ payload execute fresh state left db =>
        have hran : p'.db.executed = p.db.executed ++ [(source, file)] := by rw [db]; rfl
        cases r with
        | error err =>
          refine ⟨[file], hran, cons_sublist_cons.mpr (nil_sublist _),
            nodup_singleton _, fun f hmem => ?_, nofun⟩
          rw [mem_singleton.mp hmem]
          exact fresh
        | ok u =>
          obtain ⟨new, hex, hsub, hnd, hfre, hdo⟩ := ih p'
          rw [state] at hfre hdo
          refine ⟨file :: new, ?_, hsub.cons_cons _, ?_, ?_, fun hok f hmem hs hno => ?_⟩
          · rw [map_cons, hex, hran, append_assoc]
            rfl
          · exact nodup_cons.mpr ⟨fun h => hfre file h mem_cons_self, hnd⟩
          · intro f hmem
            rcases mem_cons.mp hmem with rfl | hmem
            · exact fresh
            · exact fun hno => hfre f hmem (mem_cons_of_mem _ hno)
          · by_cases hne : f = file
            · rw [hne]
              exact mem_cons_self
            · refine mem_cons_of_mem _ (hdo hok f ?_ hs ?_)
              · exact (mem_cons.mp hmem).resolve_left hne
              · exact fun h => (mem_cons.mp h).elim hne hno

end

/-! ## Once per database -/

/-- The files of a source that were executed on the database, in order. -/
def Database.ran (db : Database) (source : Option String) : List String :=
  db.executed.filterMap fun e => if e.1 = source then some e.2 else none

omit [Sql] in
theorem Database.ran_append {db db' : Database} {source : Option String} {new : List String}
    (h : db'.executed = db.executed ++ new.map (source, ·)) :
    db'.ran source = db.ran source ++ new := by
  rw [Database.ran, Database.ran, h, filterMap_append, filterMap_map]
  congr 1
  exact (filterMap_congr fun f _ => if_pos rfl).trans filterMap_some

/-- A state file that knows what was executed, or cannot be read at all. -/
def Covers (file : StateFile) (db : Database) : Prop :=
  match file with
  | .missing => db.ran none = []
  | .garbled => True
  | .holds state => ∀ f ∈ db.ran none, f ∈ state.applied

/-- No file was executed twice, and those executed are known to the run. -/
structure Tracked (p : Pending) : Prop where
  once : (p.db.ran none).Nodup
  known : ∀ f ∈ p.db.ran none, f ∈ p.state.applied
  covered : Covers p.file p.db

/-- No record is lost: when statements went through, the write after them leaves
something else than the old contents. -/
def SourceAnswers.Records (answers : SourceAnswers) : Prop :=
  ∀ f, answers.execute f = .ok () → answers.write (some f) ≠ .failedOld

omit [Sql] in
theorem covers_leaves {write : WriteResult} {file : StateFile} {state : MigrationState}
    {db : Database} (hsta : ∀ f ∈ db.ran none, f ∈ state.applied)
    (hold : write = .failedOld → Covers file db) : Covers (write.leaves file state) db := by
  cases write with
  | written | failedNew => exact hsta
  | failedPart => exact trivial
  | failedOld => exact hold rfl

variable {p : Pending} {eng : DbEngine} {w : HostWorld}

theorem tracked_turn {answers : SourceAnswers} (hrec : answers.Records) {file : String}
    {p' : Pending} {r : Except String Unit} (hp : Tracked p) (htu : Turn none answers file p r p') :
    Tracked p' := by
  cases htu with
  | skipped known | stopped err => exact hp
  | marked _ _ no fresh state left db =>
    have hkno : ∀ f ∈ p'.db.ran none, f ∈ p'.state.applied := by
      intro f hf
      rw [db] at hf
      rw [state]
      exact mem_cons_of_mem _ (hp.known f hf)
    refine ⟨by rw [db]; exact hp.once, hkno, ?_⟩
    rw [left]
    exact covers_leaves hkno fun _ => by rw [db]; exact hp.covered
  | ran _ _ payload execute fresh state left db =>
    have hran : p'.db.ran none = p.db.ran none ++ [file] := by
      refine Database.ran_append ?_
      rw [db]
      rfl
    have hkno : ∀ f ∈ p'.db.ran none, f ∈ p'.state.applied := by
      intro f hf
      rw [hran, mem_append] at hf
      rw [state]
      rcases hf with hf | hf
      · exact mem_cons_of_mem _ (hp.known f hf)
      · rw [mem_singleton.mp hf]
        exact mem_cons_self
    refine ⟨?_, hkno, ?_⟩
    · rw [hran]
      refine nodup_append.mpr ⟨hp.once, nodup_singleton _, ?_⟩
      rintro f hf g hg rfl
      rw [mem_singleton.mp hg] at hf
      exact fresh (hp.known file hf)
    · rw [left]
      exact covers_leaves hkno fun hold => absurd hold (hrec file execute)

/-- After the pass over the files the fingerprint may be stored. -/
def Ends (answers : HostAnswers) (p q : Pending) : Prop :=
  q = p ∨ ∃ fingerprint, q = (storeFingerprint answers fingerprint p).2

omit [Sql] in
theorem Ends.db {answers : HostAnswers} {q : Pending} (h : Ends answers p q) : q.db = p.db := by
  rcases h with rfl | ⟨fp, rfl⟩
  · rfl
  · cases fp <;> rfl

/-- **WHAT A RUN DOES**: nothing, or a pass over the files of the directory. -/
inductive HostMove (engine : DbEngine) (answers : HostAnswers) (w : HostWorld) :
    Except String MigrationReport → HostWorld → Prop
  | failed (err : String) : HostMove engine answers w (.error err) w
  | nothing (entries : List DirEntry) (list : answers.list = .ok entries)
      (empty : listSqlFilesIn entries = []) : HostMove engine answers w (.ok ⟨[], false⟩) w
  | passed (r : Except String MigrationReport) (entries : List DirEntry) (state : MigrationState)
      (q : Pending) (list : answers.list = .ok entries)
      (load : loadState answers.loadState w.file = .ok state)
      (ok : r.isOk = true → (applyFiles none answers.toSourceAnswers id (listSqlFilesIn entries)
        (startPending engine answers w state)).1 = .ok ())
      (ends : Ends answers (applyFiles none answers.toSourceAnswers id (listSqlFilesIn entries)
        (startPending engine answers w state)).2 q) :
      HostMove engine answers w r ⟨q.db, q.file⟩

theorem hostMove_applyPending (eng : DbEngine) (answers : HostAnswers) (w : HostWorld) :
    HostMove eng answers w (applyPendingMigrations eng answers w).1
      (applyPendingMigrations eng answers w).2 := by
  fun_cases applyPendingMigrations eng answers w
  case case2 ents hli hemp => exact .nothing ents hli hemp
  case case5 ents hli _ _ state hlo err p hpa =>
    exact .passed _ ents state p hli hlo nofun (.inl (by rw [hpa]))
  case case6 ents hli _ _ state hlo p hpa err q hsto =>
    exact .passed _ ents state q hli hlo nofun (.inr ⟨_, by rw [hpa, hsto]⟩)
  case case7 ents hli _ _ state hlo p hpa q hsto =>
    exact .passed _ ents state q hli hlo (fun _ => by rw [hpa]) (.inr ⟨_, by rw [hpa, hsto]⟩)
  all_goals exact .failed _

/-- The condition on a run: it takes the database for a new one only if nothing was
executed on it yet, and it records what it executes. -/
structure Meets (engine : DbEngine) (w : HostWorld) (answers : HostAnswers) : Prop where
  notReset : ∀ state, loadState answers.loadState w.file = .ok state →
    recreated engine answers w.db state = true → w.db.ran none = []
  records : answers.Records

/-- What holds of a database and its state file between runs. -/
structure Settled (w : HostWorld) : Prop where
  once : (w.db.ran none).Nodup
  covered : Covers w.file w.db

def step (engine : DbEngine) (w : HostWorld) (answers : HostAnswers) : HostWorld :=
  (applyPendingMigrations engine answers w).2

omit [Sql] in
theorem tracked_storeFingerprint {answers : HostAnswers} {fingerprint : Option String}
    (hp : Tracked p) : Tracked (storeFingerprint answers fingerprint p).2 := by
  cases fingerprint with
  | none => exact hp
  | some fp => exact ⟨hp.once, hp.known, covers_leaves hp.known fun _ => hp.covered⟩

omit [Sql] in
theorem tracked_load {answers : HostAnswers} (hw : Settled w) (hmee : Meets eng w answers)
    {state : MigrationState} (hlo : loadState answers.loadState w.file = .ok state) :
    Tracked (startPending eng answers w state) := by
  refine ⟨hw.once, ?_, hw.covered⟩
  intro f (hf : f ∈ w.db.ran none)
  show f ∈ (if recreated eng answers w.db state then { state with applied := [] }
    else state).applied
  have hcov := hw.covered
  by_cases hnew : recreated eng answers w.db state = true
  · have hno := hmee.notReset state hlo hnew
    rw [hno] at hf
    cases hf
  · rw [if_neg hnew]
    cases hfi : w.file with
    | missing =>
      rw [hfi] at hcov
      rw [show w.db.ran none = [] from hcov] at hf
      cases hf
    | garbled =>
      rw [hfi] at hlo
      cases hlo
    | holds held =>
      rw [hfi] at hcov hlo
      rw [loadState] at hlo
      split at hlo
      · cases hlo
        exact hcov f hf
      · cases hlo

theorem applyPending_executed (eng : DbEngine) (answers : HostAnswers) (w : HostWorld) :
    ∃ new : List String, (applyPendingMigrations eng answers w).2.db.executed =
      w.db.executed ++ new.map (none, ·) ∧ new.Pairwise (· < ·) := by
  have hmo := hostMove_applyPending eng answers w
  generalize (applyPendingMigrations eng answers w).1 = r at hmo
  generalize (applyPendingMigrations eng answers w).2 = w' at hmo ⊢
  cases hmo with
  | failed err | nothing ents list empty => exact ⟨[], (append_nil _).symm, .nil⟩
  | passed _ ents state q list load ok ends =>
    obtain ⟨new, hex, hsub, hnd, -⟩ := applyFiles_new none answers.toSourceAnswers id
      (listSqlFilesIn ents) (startPending eng answers w state)
    refine ⟨new, ends.db.symm ▸ hex, ?_⟩
    have hsor := (listSqlFilesIn_sorted ents).sublist hsub
    refine (hsor.and hnd).imp ?_
    rintro a b ⟨hle, hne⟩
    exact lt_of_le_of_ne hle hne

theorem step_new (eng : DbEngine) (w : HostWorld) (answers : HostAnswers) :
    ∃ new, (step eng w answers).db.ran none = w.db.ran none ++ new ∧ new.Pairwise (· < ·) := by
  obtain ⟨new, hex, hsor⟩ := applyPending_executed eng answers w
  exact ⟨new, Database.ran_append hex, hsor⟩

theorem settled_step {answers : HostAnswers} (hw : Settled w) (hmee : Meets eng w answers) :
    Settled (step eng w answers) := by
  have hmo := hostMove_applyPending eng answers w
  rw [step]
  generalize (applyPendingMigrations eng answers w).1 = r at hmo
  generalize (applyPendingMigrations eng answers w).2 = w' at hmo ⊢
  cases hmo with
  | failed err | nothing ents list empty => exact hw
  | passed _ ents state q list load ok ends =>
    have hsta := tracked_load hw hmee load
    have hpa := applyFiles_invariant id
      (fun file p r p' hp htu => tracked_turn hmee.records hp htu)
      (listSqlFilesIn ents) hsta
    have hq : Tracked q := by
      rcases ends with rfl | ⟨fp, rfl⟩
      · exact hpa
      · exact tracked_storeFingerprint hpa
    exact ⟨hq.once, hq.covered⟩

open Run in
/-- **HOST MIGRATIONS RUN ONCE**, in every sequence of runs against one database that
meet the condition: no file is executed twice. Whatever the runs meet, each
executes its files in the order of their names. -/
theorem migrations_once (engine : DbEngine) (init : HostWorld) (hinit : init.db.ran none = [])
    (runs : List HostAnswers) (hmeets : Along (step engine) (Meets engine) init runs) :
    ((run (step engine) init runs).db.ran none).Nodup ∧
      ∀ (w : HostWorld) (answers : HostAnswers), ∃ new,
        (step engine w answers).db.ran none = w.db.ran none ++ new ∧ new.Pairwise (· < ·) := by
  have hset : Settled init := by
    refine ⟨by rw [hinit]; exact .nil, ?_⟩
    cases hfi : init.file with
    | missing => exact hinit
    | garbled => exact trivial
    | holds state =>
      intro f hf
      rw [hinit] at hf
      cases hf
  have hru : Settled (run (step engine) init runs) := by
    refine invariant ?_ hset hmeets
    exact fun w a hw ha => settled_step hw ha
  exact ⟨hru.once, step_new engine⟩

end

/-! ### One migration, two boots -/

abbrev sampleSql : Sql where
  tablesAfter _ tables := "identity_keys" :: tables

/-- One migration file, and nothing fails but the query for the table, if it does. -/
def sampleAnswers (tableQuery : Bool) : HostAnswers where
  list := .ok [⟨"20241218_create_identity_tables.sql", true⟩]
  present _ := true
  read _ := .ok "CREATE TABLE identity_keys ();"
  execute _ := .ok ()
  loadState := true
  write _ := .written
  switchEngine := .ok ()
  fingerprintQuery := true
  tableQuery := tableQuery

def sampleHost : HostWorld := ⟨⟨"16384", [], []⟩, .missing⟩

theorem migrations_once_identity : ((Run.run (@step sampleSql .postgres) sampleHost
      [sampleAnswers true, sampleAnswers true]).db.ran none).Nodup := by
  let _ := sampleSql
  have hrec : ∀ b, (sampleAnswers b).toSourceAnswers.Records := by
    intro b f _ h
    cases h
  refine (migrations_once .postgres sampleHost rfl [sampleAnswers true, sampleAnswers true]
    ⟨⟨?_, hrec _⟩, ⟨?_, hrec _⟩, trivial⟩).1
  · intro state _ _
    rfl
  · intro state hlo hnew
    obtain rfl : state = ⟨["20241218_create_identity_tables.sql"], some "16384"⟩ := by
      have hfi : (@step sampleSql .postgres sampleHost (sampleAnswers true)).file =
          .holds ⟨["20241218_create_identity_tables.sql"], some "16384"⟩ := by decide +kernel
      rw [hfi] at hlo
      exact (Except.ok.inj hlo).symm
    have hold : recreated .postgres (sampleAnswers true)
        (@step sampleSql .postgres sampleHost (sampleAnswers true)).db
        ⟨["20241218_create_identity_tables.sql"], some "16384"⟩ = false := by decide +kernel
    rw [hold] at hnew
    cases hnew

/-- The query for the table fails once: the runner takes the database for a new one
and executes the file a second time. -/
theorem failed_query_runs_twice : (Run.run (@step sampleSql .postgres) sampleHost
      [sampleAnswers true, sampleAnswers false]).db.ran none =
      ["20241218_create_identity_tables.sql", "20241218_create_identity_tables.sql"] := by
  decide +kernel

end Fenrir.Migrations
