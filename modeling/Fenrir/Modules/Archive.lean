import Fenrir.Lib.FileTree
import Fenrir.Lib.Path
import Fenrir.Modules.Install

/-! # Module archives

A module comes as a gzip tar archive. The module storage unpacks it into the
module's directory and then takes away the one directory that wraps everything,
if there is one (`infra/modules/storage.rs`, `extract_module_archive` and
`flatten_module_root`). -/

namespace Fenrir.Modules

open FileTree

abbrev Name := List Char

abbrev ModuleFiles := Tree Name Bytes

/-- `tar::EntryType`; links and special files are not told apart. -/
inductive EntryType where
  | regular | directory | other
  deriving DecidableEq

structure TarEntry where
  kind : EntryType
  /-- Whether the header has the ustar format (and not the old or the GNU one). -/
  ustar : Bool
  path : List Char
  content : Bytes
  deriving DecidableEq

/-- The names in a path that neither is absolute nor goes up. -/
def normalNames : List Path.Component → Option (List Name)
  | [] => some []
  | .normal name :: rest => (normalNames rest).map (name :: ·)
  | .curDir :: rest => normalNames rest
  | .rootDir :: _ | .parentDir :: _ => none

def TarEntry.names (e : TarEntry) : Option (List Name) := normalNames (Path.components e.path)

/-- Unpacking makes a directory: the entry is one, or it is a file whose name ends with
a slash under a header that is not ustar. -/
def TarEntry.makesDirectory (e : TarEntry) : Bool :=
  e.kind == .directory || (!e.ustar && e.path.getLast? == some '/')

/-- What unpacking an entry puts into the tree; a path without names is skipped. -/
def TarEntry.unpacked (e : TarEntry) : Option (List Name × Option Bytes) :=
  match e.names with
  | none | some [] => none
  | some names => some (names, if e.makesDirectory then none else some e.content)

/-- Directory entries come last. -/
def unpacked (entries : List TarEntry) : List (List Name × Option Bytes) :=
  (entries.filter (·.kind != .directory) ++ entries.filter (·.kind == .directory)).filterMap
    TarEntry.unpacked

/-- The crates `tar` and `flate2`, and the file system calls around them. -/
class ArchiveCrates where
  /-- The entries of a gzip tar archive, up to its end or the error that ends it. -/
  entries : Bytes → List TarEntry × Option String
  /-- `Archive::unpack` into an empty directory. -/
  unpack : Bytes → Except String ModuleFiles
  /-- The error of moving an entry onto the directory it is in. -/
  renameError : String

/-- What `Archive::unpack` documents, for archives without links and special files
whose paths stay inside. -/
class LawfulArchive [ArchiveCrates] : Prop where
  unpack_ok : ∀ bytes entries files, ArchiveCrates.entries bytes = (entries, none) →
    (∀ e ∈ entries, e.kind ≠ .other ∧ e.names ≠ none) →
    ArchiveCrates.unpack bytes = .ok files → Tree.build .empty (unpacked entries) = some files

def unpackEntries : List TarEntry × Option String → Except String ModuleFiles
  | (_, some err) => .error err
  | (entries, none) =>
    match Tree.build .empty (unpacked entries) with
    | some files => .ok files
    | none => .error "File exists (os error 17)"

/-- The crates over a reading of archives. -/
abbrev ArchiveCrates.ofEntries (entries : Bytes → List TarEntry × Option String) :
    ArchiveCrates where
  entries := entries
  unpack := fun bytes => unpackEntries (entries bytes)
  renameError := "Directory not empty (os error 39)"

theorem LawfulArchive.ofEntries (read : Bytes → List TarEntry × Option String) :
    @LawfulArchive (ArchiveCrates.ofEntries read) := by
  let _ := ArchiveCrates.ofEntries read
  refine ⟨?_⟩
  intro bytes ents files hre _ hok
  have hunp : unpackEntries (read bytes) = .ok files := hok
  have hent : read bytes = (ents, none) := hre
  rw [hent, unpackEntries] at hunp
  cases hb : Tree.build .empty (unpacked ents) with
  | none =>
    rw [hb] at hunp
    cases hunp
  | some t =>
    rw [hb] at hunp
    rw [Except.ok.inj hunp]

variable {names : List Name}

theorem plain_of_normalNames {cs : List Path.Component} (h : normalNames cs = some names)
    (hcs : ∀ n, .normal n ∈ cs → Path.Plain n) : ∀ n ∈ names, Path.Plain n := by
  induction cs generalizing names with
  | nil =>
    cases h
    exact nofun
  | cons c cs ih =>
    have hta : ∀ n, .normal n ∈ cs → Path.Plain n := fun n hn => hcs n (List.mem_cons_of_mem _ hn)
    cases c with
    | rootDir | parentDir => cases h
    | curDir => exact ih h hta
    | normal name =>
      obtain ⟨rest, hre, rfl⟩ := Option.map_eq_some_iff.mp h
      intro n hn
      rcases List.mem_cons.mp hn with rfl | hn
      · exact hcs n List.mem_cons_self
      · exact ih hre hta n hn

theorem TarEntry.plain_names {e : TarEntry} (h : e.names = some names) :
    ∀ n ∈ names, Path.Plain n :=
  plain_of_normalNames h fun _ hn => Path.plain_of_normal hn

theorem mem_unpacked {ents : List TarEntry} {cont : Option Bytes} : (names, cont) ∈ unpacked ents ↔
      ∃ e ∈ ents, e.names = some names ∧ names ≠ [] ∧
        cont = if e.makesDirectory then none else some e.content := by
  have hone : ∀ e : TarEntry, e.unpacked = some (names, cont) ↔ e.names = some names ∧ names ≠ [] ∧
        cont = if e.makesDirectory then none else some e.content := by
    intro e
    rw [TarEntry.unpacked]
    cases he : e.names with
    | none => simp
    | some ns =>
      cases ns with
      | nil =>
        refine ⟨nofun, ?_⟩
        rintro ⟨hns, hne, -⟩
        exact absurd (Option.some.inj hns).symm hne
      | cons n ns =>
        constructor
        · intro h
          cases h
          exact ⟨rfl, List.cons_ne_nil _ _, rfl⟩
        · rintro ⟨hns, -, rfl⟩
          cases hns
          rfl
  rw [unpacked, List.mem_filterMap]
  constructor
  · rintro ⟨e, he, hu⟩
    refine ⟨e, ?_, (hone e).mp hu⟩
    rcases List.mem_append.mp he with he | he <;> exact (List.mem_filter.mp he).1
  · rintro ⟨e, he, hu⟩
    refine ⟨e, ?_, (hone e).mpr hu⟩
    rw [List.mem_append, List.mem_filter, List.mem_filter]
    by_cases hk : e.kind = .directory
    · exact .inr ⟨he, by rw [hk]; rfl⟩
    · exact .inl ⟨he, bne_iff_ne.mpr hk⟩

/-! ## Flattening -/

/-- What macOS leaves in archives. -/
def ignoredTop (name : Name) : Bool :=
  name == ".DS_Store".toList || "._".toList.isPrefixOf name

def flattenName : Name := ".fenrir-flatten".toList

def relocateEntryFailed (src dst err : String) : String :=
  "cannot relocate module entry " ++ src ++ " to " ++ dst ++ ": " ++ err

def unpackFailed (path err : String) : String :=
  "failed to unpack module archive into " ++ path ++ ": " ++ err

section

variable [ArchiveCrates]

/-- `flatten_module_root`: the directory is moved aside under a name of its own, so an
entry with that name in it cannot be moved up. -/
def flattenModuleRoot (destination : String) (files : ModuleFiles) :
    Except ModuleStorageError ModuleFiles :=
  let kept := files.keepTop fun name => !ignoredTop name
  match kept.children [] with
  | [(top, .dir)] =>
    match kept.get [top, flattenName] with
    | some _ =>
      .error (.io (relocateEntryFailed
        (destination ++ "/.fenrir-flatten/.fenrir-flatten")
        (destination ++ "/.fenrir-flatten") ArchiveCrates.renameError))
    | none => .ok (kept.sub top)
  | _ => .ok kept

/-- `extract_module_archive`, into an empty directory. -/
def extractModuleArchive (destination : String) (bytes : Bytes) :
    Except ModuleStorageError ModuleFiles :=
  match ArchiveCrates.unpack bytes with
  | .error err => .error (.io (unpackFailed destination err))
  | .ok files => flattenModuleRoot destination files

def OnlyDir (files : ModuleFiles) (top : Name) : Prop :=
  ignoredTop top = false ∧ files.get [top] = some .dir ∧
    ∀ name, ignoredTop name = false → files.get [name] ≠ none → name = top

/-- What is taken away in front of every path. -/
def IsRoot (files : ModuleFiles) : List Name → Prop
  | [] => ∀ top, ¬ OnlyDir files top
  | [top] => OnlyDir files top
  | _ => False

variable {files : ModuleFiles}

omit [ArchiveCrates] in
theorem children_kept_iff {top : Name} :
    (files.keepTop fun name => !ignoredTop name).children [] = [(top, .dir)] ↔
      OnlyDir files top := by
  rw [Tree.children_eq_singleton, OnlyDir]
  simp only [List.nil_append, Tree.get_keepTop_cons]
  constructor
  · rintro ⟨hdir, hon⟩
    cases hi : ignoredTop top with
    | true =>
      rw [hi] at hdir
      cases hdir
    | false =>
      rw [hi] at hdir
      refine ⟨rfl, hdir, ?_⟩
      intro name hna hget
      exact hon name (by rw [hna]; exact hget)
  · rintro ⟨hi, hdir, hon⟩
    rw [hi]
    refine ⟨hdir, ?_⟩
    intro name hget
    cases hna : ignoredTop name with
    | true =>
      rw [hna] at hget
      exact absurd rfl hget
    | false =>
      rw [hna] at hget
      exact hon name hna hget

/-- **FLATTENING** takes the root away and, at the top, what is ignored. -/
theorem flattenModuleRoot_spec {destination : String} {files' : ModuleFiles}
    (h : flattenModuleRoot destination files = .ok files') :
    ∃ root, IsRoot files root ∧ ∀ name p, files'.get (name :: p) =
      if root = [] ∧ ignoredTop name = true then none else files.get (root ++ name :: p) := by
  rw [flattenModuleRoot] at h
  split at h
  · rename_i top htop
    have hon := children_kept_iff.mp htop
    split at h
    · cases h
    · cases h
      refine ⟨[top], hon, ?_⟩
      intro name p
      rw [Tree.get_sub_cons, Tree.get_keepTop_cons, hon.1]
      simp
  · rename_i hno
    cases h
    refine ⟨[], fun top hon => hno top (children_kept_iff.mpr hon), ?_⟩
    intro name p
    rw [Tree.get_keepTop_cons, List.nil_append]
    cases ignoredTop name <;> simp

end

end Fenrir.Modules
