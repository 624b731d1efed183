import Fenrir.Domain
import Fenrir.Lib.Path

/-! # Migration files

`infra/db/migrations/files.rs`: which files of a directory are migrations, in
which order, and where an installed module keeps its own. What the file
system says about a directory is a list of its entries. -/

namespace Fenrir.Migrations

open List

structure DirEntry where
  name : String
  isFile : Bool

/-- A regular file with the extension `sql`. -/
def DirEntry.isSql (entry : DirEntry) : Bool :=
  entry.isFile && Path.extension entry.name.toList == some "sql".toList

/-- `list_sql_files_in`, from the entries of the directory (none when it does not
exist). -/
def listSqlFilesIn (entries : List DirEntry) : List String :=
  ((entries.filter DirEntry.isSql).map DirEntry.name).insertionSort (· ≤ ·)

theorem mem_listSqlFilesIn {ents : List DirEntry} {file : String} :
    file ∈ listSqlFilesIn ents ↔ ∃ e ∈ ents, e.isSql = true ∧ e.name = file := by
  rw [listSqlFilesIn, (perm_insertionSort _ _).mem_iff, mem_map]
  constructor
  · rintro ⟨e, he, hna⟩
    exact ⟨e, (mem_filter.mp he).1, (mem_filter.mp he).2, hna⟩
  · rintro ⟨e, he, hsql, hna⟩
    exact ⟨e, mem_filter.mpr ⟨he, hsql⟩, hna⟩

theorem listSqlFilesIn_sorted (ents : List DirEntry) : (listSqlFilesIn ents).Pairwise (· ≤ ·) :=
  pairwise_insertionSort _ _

/-- The TOML crate, on the part of a runtime manifest that is read here: whether it
parses, whether it has a section `[migrations]`, and the section's `dir`. -/
class Toml where
  migrations : String → Option (Option (Option String))

def parseMigrationsDir [Toml] (text : String) : Option String :=
  match Toml.migrations text with
  | some (some dir) => some (dir.getD "migrations")
  | _ => none

/-! ## Modules with migrations -/

/-- A module that declares migrations, and the directory it names. -/
structure ModuleMigrationSource where
  (moduleId migrationsDir : String)

/-- An entry of the install directory: its runtime manifest if it can be read, and
which paths below it are directories. -/
structure ModuleDir where
  name : String
  isDir : Bool
  runtime : Option String
  hasDirectory : String → Bool

/-- The entries of a directory have different names. -/
structure InstallDir where
  entries : List ModuleDir
  distinct : (entries.map ModuleDir.name).Nodup

variable [Toml]

/-- What `discover_module_migrations` makes of one entry. -/
def ModuleDir.source (entry : ModuleDir) : Option ModuleMigrationSource :=
  if !entry.isDir || entry.name.startsWith "." then none
  else
    match entry.runtime.bind parseMigrationsDir with
    | none => none
    | some dir => if entry.hasDirectory dir then some ⟨entry.name, dir⟩ else none

/-- `discover_module_migrations`; a directory that cannot be read has no entries. -/
def discoverModuleMigrations (installDir : InstallDir) : List ModuleMigrationSource :=
  (installDir.entries.filterMap ModuleDir.source).insertionSort
    fun a b => a.moduleId ≤ b.moduleId

/-- The sources a boot finds: those of the install directory, then those of the
development path whose module is not among them. -/
def bootSources (installDir : InstallDir) (devPath : Option InstallDir) :
    List ModuleMigrationSource :=
  let installed := discoverModuleMigrations installDir
  match devPath with
  | none => installed
  | some dev =>
    ((discoverModuleMigrations dev).foldl (fun sources ds =>
        if sources.any (·.moduleId == ds.moduleId) then sources else sources ++ [ds])
      installed).insertionSort fun a b => a.moduleId ≤ b.moduleId

theorem ModuleDir.source_name {entry : ModuleDir} {source : ModuleMigrationSource}
    (h : entry.source = some source) : source.moduleId = entry.name := by
  revert h
  fun_cases ModuleDir.source entry
  case case3 =>
    intro h
    cases h
    rfl
  all_goals exact nofun

theorem discoverModuleMigrations_nodup (installDir : InstallDir) :
    ((discoverModuleMigrations installDir).map (·.moduleId)).Nodup := by
  rw [discoverModuleMigrations, ((perm_insertionSort _ _).map _).nodup_iff, List.Nodup,
    pairwise_map]
  refine List.Pairwise.filterMap _ ?_ (pairwise_map.mp installDir.distinct)
  intro a a' hne b hb b' hb' heq
  rw [ModuleDir.source_name hb, ModuleDir.source_name hb'] at heq
  exact hne heq

theorem bootSources_nodup (installDir : InstallDir) (devPath : Option InstallDir) :
    ((bootSources installDir devPath).map (·.moduleId)).Nodup := by
  cases devPath with
  | none => exact discoverModuleMigrations_nodup installDir
  | some dev =>
    rw [bootSources, ((perm_insertionSort _ _).map _).nodup_iff]
    have hins := discoverModuleMigrations_nodup installDir
    generalize discoverModuleMigrations installDir = sources at hins ⊢
    generalize discoverModuleMigrations dev = more
    induction more generalizing sources with
    | nil => exact hins
    | cons ds more ih =>
      rw [foldl_cons]
      refine ih _ ?_
      split
      · exact hins
      · rename_i hnew
        rw [map_append, nodup_append]
        refine ⟨hins, nodup_singleton _, ?_⟩
        rintro id hid id' hid' rfl
        obtain ⟨s, hs, rfl⟩ := mem_map.mp hid
        refine hnew (any_eq_true.mpr ⟨s, hs, ?_⟩)
        rw [beq_iff_eq]
        exact mem_singleton.mp hid'

end Fenrir.Migrations
