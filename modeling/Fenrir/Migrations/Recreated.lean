import Fenrir.Migrations.Runner

/-! # A recreated database

The migration phase of a boot (`boot/startup.rs`): host migrations, then the
migrations of every module found. Each module has a state file of its own,
and those files know no fingerprint. -/

namespace Fenrir.Migrations

open List

/-- A database with the state files of its host and module migrations. -/
structure World where
  db : Database
  hostFile : StateFile
  moduleFiles : BTreeMap StateFile

def World.moduleFile (w : World) (moduleId : String) : StateFile :=
  (w.moduleFiles[moduleId]?).getD .missing

def Database.fresh (fingerprint : String) : Database := ⟨fingerprint, [], []⟩

section

variable [Sql]

/-- The turn of one module in `apply_module_migrations`. -/
def applyModuleSource (source : ModuleMigrationSource) (answers : SourceAnswers)
    (report : List String) (w : World) : Except String (List String) × World :=
  match loadState answers.loadState (w.moduleFile source.moduleId) with
  | .error err => (.error err, w)
  | .ok state =>
    match answers.list with
    | .error err => (.error err, w)
    | .ok entries =>
      let (r, p) := applyFiles (some source.moduleId) answers
        (fun file => source.moduleId ++ ":" ++ file) (listSqlFilesIn entries)
        ⟨state, report, w.moduleFile source.moduleId, w.db⟩
      let w := { w with
        db := p.db, moduleFiles := w.moduleFiles.insert source.moduleId p.file }
      match r with
      | .error err => (.error err, w)
      | .ok () => (.ok p.report, w)

def applyModuleSources (answers : String → SourceAnswers) :
    List ModuleMigrationSource → List String → World → Except String (List String) × World
  | [], report, w => (.ok report, w)
  | source :: sources, report, w =>
    match applyModuleSource source (answers source.moduleId) report w with
    | (.error err, w) => (.error err, w)
    | (.ok report, w) => applyModuleSources answers sources report w

def applyModuleMigrations (switchEngine : Except String Unit) (answers : String → SourceAnswers)
    (sources : List ModuleMigrationSource) (w : World) : Except String (List String) × World :=
  if sources = [] then (.ok [], w)
  else
    match switchEngine with
    | .error err => (.error err, w)
    | .ok () => applyModuleSources answers sources [] w

structure BootAnswers where
  host : HostAnswers
  installDir : InstallDir
  devPath : Option InstallDir
  modules : String → SourceAnswers

variable [Toml]

def BootAnswers.sources (boot : BootAnswers) : List ModuleMigrationSource :=
  bootSources boot.installDir boot.devPath

def bootMigrations (engine : DbEngine) (boot : BootAnswers) (w : World) :
    Except String (List String) × World :=
  match applyPendingMigrations engine boot.host ⟨w.db, w.hostFile⟩ with
  | (.error err, h) => (.error err, { w with db := h.db, hostFile := h.file })
  | (.ok _, h) =>
    applyModuleMigrations boot.host.switchEngine boot.modules boot.sources
      { w with db := h.db, hostFile := h.file }

/-! ## What a boot executes -/

def StateFile.recorded : StateFile → List String
  | .holds state => state.applied
  | _ => []

omit [Sql] [Toml] in
theorem applied_of_load {readable : Bool} {file : StateFile} {state : MigrationState}
    (h : loadState readable file = .ok state) : state.applied = file.recorded := by
  cases file with
  | missing =>
    cases h
    rfl
  | garbled => cases h
  | holds held =>
    rw [loadState] at h
    split at h
    · cases h
      rfl
    · cases h

omit [Sql] [Toml] in
theorem ran_other {db db' : Database} {source other : Option String} {new : List String}
    (h : db'.executed = db.executed ++ new.map (source, ·)) (hne : source ≠ other) :
    db'.ran other = db.ran other := by
  rw [Database.ran, Database.ran, h, filterMap_append, filterMap_map]
  have hno : new.filterMap
      ((fun e : Option String × String => if e.1 = other then some e.2 else none) ∘
        fun f => (source, f)) = [] := by
    refine filterMap_eq_nil_iff.mpr fun f _ => ?_
    exact if_neg hne
  rw [hno, append_nil]

/-- The files of a module with something to execute. -/
def SourceAnswers.Brings (answers : SourceAnswers) (file : String) : Prop :=
  ∃ entries, answers.list = .ok entries ∧ file ∈ listSqlFilesIn entries ∧ answers.hasStatements file

omit [Toml] in
/-- The turn of a module touches its own state file and its own part of the history,
and on success executes exactly the files its state file does not record. -/
theorem applyModuleSource_spec (source : ModuleMigrationSource) (ans : SourceAnswers)
    (report : List String) (w : World) :
    let w' := (applyModuleSource source ans report w).2
    (∀ id, id ≠ source.moduleId → w'.moduleFile id = w.moduleFile id) ∧
    (∀ other, other ≠ some source.moduleId → w'.db.ran other = w.db.ran other) ∧
    ((applyModuleSource source ans report w).1.isOk = true →
      w.db.ran (some source.moduleId) = [] → ∀ f, ans.Brings f →
      (f ∈ w'.db.ran (some source.moduleId) ↔ f ∉ (w.moduleFile source.moduleId).recorded)) := by
  intro w'
  have hw' : w' = (applyModuleSource source ans report w).2 := rfl
  rw [applyModuleSource] at hw' ⊢
  cases hlo : loadState ans.loadState (w.moduleFile source.moduleId) with
  | error err =>
    rw [hlo] at hw'
    rw [hw']
    exact ⟨fun _ _ => rfl, fun _ _ => rfl, nofun⟩
  | ok state =>
    cases hli : ans.list with
    | error err =>
      rw [hlo, hli] at hw'
      rw [hw']
      exact ⟨fun _ _ => rfl, fun _ _ => rfl, nofun⟩
    | ok ents =>
      obtain ⟨new, hex, -, -, hfre, hdo⟩ := applyFiles_new (some source.moduleId) ans
        (fun file => source.moduleId ++ ":" ++ file) (listSqlFilesIn ents)
        ⟨state, report, w.moduleFile source.moduleId, w.db⟩
      rw [hlo, hli] at hw'
      dsimp only at hw' ⊢
      generalize applyFiles (some source.moduleId) ans
        (fun file => source.moduleId ++ ":" ++ file) (listSqlFilesIn ents)
        ⟨state, report, w.moduleFile source.moduleId, w.db⟩ = result at hex hdo hw' ⊢
      obtain ⟨r, p⟩ := result
      have hw : w' = { w with
          db := p.db, moduleFiles := w.moduleFiles.insert source.moduleId p.file } := by
        rw [hw']
        cases r <;> rfl
      rw [hw]
      refine ⟨fun id hid => ?_, fun other hoth => ran_other hex hoth.symm, ?_⟩
      · show ((w.moduleFiles.insert source.moduleId p.file)[id]?).getD _ = _
        rw [BTreeMap.get_insert, if_neg hid.symm]
        rfl
      · intro hok hno f hf
        obtain ⟨entries', hli', hmem, hs⟩ := hf
        cases hli.symm.trans hli'
        have hr : r = .ok () := by
          cases r with
          | error err => cases hok
          | ok u => rfl
        have hran : p.db.ran (some source.moduleId) = new := by
          rw [Database.ran_append hex]
          exact (congrArg (· ++ new) hno).trans (nil_append _)
        rw [hran, ← applied_of_load hlo]
        exact ⟨hfre f, hdo hr f hmem hs⟩

omit [Toml] in
theorem applyModuleSources_frame (ans : String → SourceAnswers)
    (sources : List ModuleMigrationSource) (report : List String) (w : World)
    {other : Option String} (hoth : ∀ s ∈ sources, some s.moduleId ≠ other) :
    (applyModuleSources ans sources report w).2.db.ran other = w.db.ran other := by
  induction sources generalizing report w with
  | nil => rfl
  | cons source sources ih =>
    have hsp := applyModuleSource_spec source (ans source.moduleId) report w
    rw [applyModuleSources]
    cases hs : applyModuleSource source (ans source.moduleId) report w with
    | mk r w' =>
      rw [hs] at hsp
      have hran := hsp.2.1 other (hoth source mem_cons_self).symm
      cases r with
      | error err => exact hran
      | ok report =>
        exact (ih report w' fun s hs => hoth s (mem_cons_of_mem _ hs)).trans hran

omit [Toml] in
/-- On a database with no history of its modules, the modules' turns execute exactly
what the state files do not record. -/
theorem applyModuleSources_iff (ans : String → SourceAnswers)
    (sources : List ModuleMigrationSource) (hnod : (sources.map (·.moduleId)).Nodup)
    (report : List String) (w : World)
    (hok : (applyModuleSources ans sources report w).1.isOk = true)
    (hno : ∀ s ∈ sources, w.db.ran (some s.moduleId) = []) :
    ∀ s ∈ sources, ∀ f, (ans s.moduleId).Brings f →
      (f ∈ (applyModuleSources ans sources report w).2.db.ran (some s.moduleId) ↔
        f ∉ (w.moduleFile s.moduleId).recorded) := by
  induction sources generalizing report w with
  | nil => exact nofun
  | cons source sources ih =>
    obtain ⟨hout, hnod⟩ := nodup_cons.mp hnod
    have hne : ∀ s ∈ sources, s.moduleId ≠ source.moduleId := by
      intro s hs heq
      exact hout (mem_map.mpr ⟨s, hs, heq⟩)
    have hsp := applyModuleSource_spec source (ans source.moduleId) report w
    rw [applyModuleSources] at hok ⊢
    cases hs : applyModuleSource source (ans source.moduleId) report w with
    | mk r w' =>
      rw [hs] at hsp hok
      cases r with
      | error err => cases hok
      | ok report =>
        dsimp only at hsp hok ⊢
        obtain ⟨hfil, hoth, hown⟩ := hsp
        intro s hmem f hf
        rcases mem_cons.mp hmem with rfl | hmem
        · rw [applyModuleSources_frame ans sources report w'
            fun s' hs' => fun heq => hne s' hs' (Option.some.inj heq)]
          exact hown rfl (hno _ mem_cons_self) f hf
        · rw [← hfil s.moduleId (hne s hmem)]
          refine ih hnod report w' hok (fun s' hs' => ?_) s hmem f hf
          rw [hoth _ fun heq => hne s' hs' (Option.some.inj heq)]
          exact hno s' (mem_cons_of_mem _ hs')

/-- The engines on which the host's runner can tell a new database from the old one. -/
def DbEngine.tellsApart : DbEngine → Bool
  | .postgres | .sqlite => true
  | .mysql | .mongodb => false

omit [Sql] [Toml] in
theorem startPending_fresh (eng : DbEngine) (ans : HostAnswers) (fp : String)
    (file : StateFile) (state : MigrationState) :
    (startPending eng ans ⟨.fresh fp, file⟩ state).state.applied =
      if eng.tellsApart then [] else state.applied := by
  rw [startPending]
  have hnew : recreated eng ans (.fresh fp) state = true → eng.tellsApart = true := by
    intro h
    cases eng with
    | postgres | sqlite => rfl
    | mysql | mongodb => cases hfp : state.dbFingerprint <;> simp [recreated, getDbFingerprint, hfp,
        checkMigrationsApplied] at h
  have hold : eng.tellsApart = true → state.applied ≠ [] →
      recreated eng ans (.fresh fp) state = true := by
    intro h happ
    have hmis : checkMigrationsApplied eng ans (.fresh fp) = false := by
      cases eng with
      | postgres | sqlite => exact Bool.and_false _
      | mysql | mongodb => cases h
    simp [recreated, happ, hmis]
  dsimp only
  by_cases hr : recreated eng ans (.fresh fp) state = true
  · rw [if_pos hr, if_pos (hnew hr)]
  · rw [if_neg hr]
    by_cases ht : eng.tellsApart = true
    · rw [if_pos ht]
      by_contra happ
      exact hr (hold ht happ)
    · rw [if_neg ht]

omit [Toml] in
theorem applyPending_fresh_iff (eng : DbEngine) (ans : HostAnswers) (fp : String) (file : StateFile)
    (hok : (applyPendingMigrations eng ans ⟨.fresh fp, file⟩).1.isOk = true)
    {f : String} (hf : ans.toSourceAnswers.Brings f) :
    f ∈ (applyPendingMigrations eng ans ⟨.fresh fp, file⟩).2.db.ran none ↔
      (eng.tellsApart = true ∨ f ∉ file.recorded) := by
  have hmo := hostMove_applyPending eng ans ⟨.fresh fp, file⟩
  obtain ⟨ents, hli, hmem, hs⟩ := hf
  generalize (applyPendingMigrations eng ans ⟨.fresh fp, file⟩).1 = r
    at hmo hok
  generalize (applyPendingMigrations eng ans ⟨.fresh fp, file⟩).2 = w' at hmo ⊢
  cases hmo with
  | failed err => cases hok
  | nothing entries' list empty =>
    cases hli.symm.trans list
    rw [empty] at hmem
    cases hmem
  | passed _ entries' state q list load ok ends =>
    cases hli.symm.trans list
    obtain ⟨new, hex, -, -, hfre, hdo⟩ := applyFiles_new none ans.toSourceAnswers id
      (listSqlFilesIn ents) (startPending eng ans ⟨.fresh fp, file⟩ state)
    have hran : q.db.ran none = new :=
      (Database.ran_append (ends.db.symm ▸ hex)).trans (nil_append _)
    have happ := startPending_fresh eng ans fp file state
    rw [happ, applied_of_load load] at hfre hdo
    show f ∈ q.db.ran none ↔ _
    rw [hran]
    by_cases ht : eng.tellsApart = true
    · rw [if_pos ht] at hfre hdo
      exact ⟨fun _ => .inl ht, fun _ => hdo (ok hok) f hmem hs not_mem_nil⟩
    · rw [if_neg ht] at hfre hdo
      exact ⟨fun h => .inr (hfre f h), fun h => hdo (ok hok) f hmem hs (h.resolve_left ht)⟩

/-- Every file of the host and of every module found that has statements was executed. -/
def FullyMigrated (boot : BootAnswers) (db : Database) : Prop :=
  (∀ f, boot.host.toSourceAnswers.Brings f → f ∈ db.ran none) ∧
  ∀ s ∈ boot.sources, ∀ f, (boot.modules s.moduleId).Brings f → f ∈ db.ran (some s.moduleId)

/-- No state file stands in the way: the host's is seen to be out of date or records
none of the host's files, and no module's records one of the module's. -/
def NothingRecorded (engine : DbEngine) (boot : BootAnswers) (w : World) : Prop :=
  (∀ f, boot.host.toSourceAnswers.Brings f → engine.tellsApart = true ∨ f ∉ w.hostFile.recorded) ∧
  ∀ s ∈ boot.sources, ∀ f, (boot.modules s.moduleId).Brings f →
    f ∉ (w.moduleFile s.moduleId).recorded

omit [Toml] in
theorem applyModuleMigrations_iff {switchEngine : Except String Unit}
    {ans : String → SourceAnswers} {sources : List ModuleMigrationSource}
    (hnod : (sources.map (·.moduleId)).Nodup) {w : World}
    (hok : (applyModuleMigrations switchEngine ans sources w).1.isOk = true)
    (hno : ∀ id, w.db.ran (some id) = []) :
    (applyModuleMigrations switchEngine ans sources w).2.db.ran none = w.db.ran none ∧
    ∀ s ∈ sources, ∀ f, (ans s.moduleId).Brings f →
      (f ∈ (applyModuleMigrations switchEngine ans sources w).2.db.ran (some s.moduleId) ↔
        f ∉ (w.moduleFile s.moduleId).recorded) := by
  by_cases hemp : sources = []
  · have hnil : applyModuleMigrations switchEngine ans sources w = (.ok [], w) := if_pos hemp
    rw [hnil, hemp]
    exact ⟨rfl, nofun⟩
  · cases switchEngine with
    | error err =>
      have hrun : applyModuleMigrations (.error err) ans sources w = (.error err, w) :=
        if_neg hemp
      rw [hrun] at hok
      cases hok
    | ok u =>
      have hrun : applyModuleMigrations (.ok u) ans sources w =
          applyModuleSources ans sources [] w := if_neg hemp
      rw [hrun] at hok ⊢
      exact ⟨applyModuleSources_frame ans sources [] w nofun,
        applyModuleSources_iff ans sources hnod [] w hok fun s _ => hno s.moduleId⟩

/-- **A RECREATED DATABASE** is fully migrated by a boot that completes exactly when no
state file records a file of it as applied. -/
theorem recreated_migrated_iff (engine : DbEngine) (boot : BootAnswers) (w : World)
    (fingerprint : String)
    (hok : (bootMigrations engine boot { w with db := .fresh fingerprint }).1.isOk = true) :
    FullyMigrated boot (bootMigrations engine boot { w with db := .fresh fingerprint }).2.db ↔
      NothingRecorded engine boot w := by
  rw [bootMigrations] at hok ⊢
  dsimp only at hok ⊢
  have hho := applyPending_fresh_iff engine boot.host fingerprint w.hostFile
  have hno : ∀ id, (applyPendingMigrations engine boot.host
      ⟨.fresh fingerprint, w.hostFile⟩).2.db.ran (some id) = [] := by
    intro id
    obtain ⟨new, hnew, -⟩ := applyPending_executed engine boot.host ⟨.fresh fingerprint, w.hostFile⟩
    exact ran_other hnew nofun
  generalize applyPendingMigrations engine boot.host ⟨.fresh fingerprint, w.hostFile⟩ = result
    at hok hho hno ⊢
  obtain ⟨r, h⟩ := result
  cases r with
  | error err => cases hok
  | ok report =>
    dsimp only at hok hho hno ⊢
    have hnod : (boot.sources.map (·.moduleId)).Nodup :=
      bootSources_nodup boot.installDir boot.devPath
    obtain ⟨hran, hmod⟩ := applyModuleMigrations_iff hnod hok hno
    rw [FullyMigrated, NothingRecorded, hran]
    refine and_congr ?_ ?_
    · exact forall₂_congr fun f hf => hho rfl hf
    · exact forall₂_congr fun s hs => forall₂_congr fun f hf => hmod s hs f hf

end

/-! ### A module that stays behind -/

/-- A manifest names the directory `migrations`. -/
abbrev sampleToml : Toml where
  migrations _ := some (some none)

def sampleInstall : InstallDir where
  entries := [⟨"notes", true, some "[migrations]", fun _ => true⟩]
  distinct := by decide

def sampleBoot : BootAnswers where
  host := sampleAnswers true
  installDir := sampleInstall
  devPath := none
  modules _ :=
    { (sampleAnswers true).toSourceAnswers with
      list := .ok [⟨"1_notes.sql", true⟩]
      read := fun _ => .ok "CREATE TABLE notes ();" }

def sampleWorld : World := ⟨.fresh "16384", .missing, ∅⟩

/-- The host's state file is of the database that was replaced. -/
def replacedWorld : World :=
  ⟨.fresh "16384", .holds ⟨["20241218_create_identity_tables.sql"], some "16000"⟩, ∅⟩

theorem recreated_migrated_first_boot :
    let _ := sampleSql
    let _ := sampleToml
    FullyMigrated sampleBoot (bootMigrations .postgres sampleBoot replacedWorld).2.db := by
  intro _ _
  refine (recreated_migrated_iff .postgres sampleBoot replacedWorld "16384" ?_).mpr ⟨?_, ?_⟩
  · decide +kernel
  · intro f _
    exact .inl rfl
  · intro s _ f _
    have hmis : replacedWorld.moduleFile s.moduleId = .missing := by
      show ((∅ : BTreeMap StateFile)[s.moduleId]?).getD .missing = _
      rw [Std.ExtTreeMap.getElem?_empty]
      rfl
    rw [hmis]
    exact not_mem_nil

/-- Host and module are migrated; the database is replaced by an empty one; the next
boot completes and executes the host's file again, and not the module's. -/
theorem recreated_module_left_behind :
    let _ := sampleSql
    let _ := sampleToml
    let before := (bootMigrations .postgres sampleBoot sampleWorld).2
    let boot := bootMigrations .postgres sampleBoot { before with db := .fresh "16385" }
    before.db.ran (some "notes") = ["1_notes.sql"] ∧ boot.1.isOk = true ∧
      boot.2.db.ran none = ["20241218_create_identity_tables.sql"] ∧
      boot.2.db.ran (some "notes") = [] := by
  decide +kernel

end Fenrir.Migrations
