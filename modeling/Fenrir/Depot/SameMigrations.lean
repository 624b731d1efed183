import Fenrir.Depot.Bundle

/-! # The migrations of a bundle before and after it is installed

The depot counts the migrations a bundle brings from a look into the archive;
the host counts those of an installed module from its directory
(`installed_migrations`, `list_sql_files_in`). The first matches texts, the
second joins the declared directory to the module's and asks the file system. -/

open Path (segments trimSlashes extension)

namespace Fenrir.Bundle

open FileTree Modules Migrations List

open FileTree.Tree (fileAt build build_spec mem_of_fileAt)

/-! ## The file system's reading of a path -/

/-- Where a path leads: to an entry below the module directory, nowhere, or out of the
module directory. -/
inductive Place where
  | inside (path : List Name)
  | missing | outside

/-- The segments of a path, followed one by one. -/
def follow (get : List Name → Option (Node Bytes)) (here : List Name) : List Name → Place
  | [] => .inside here
  | segment :: rest =>
    if segment = [] ∨ segment = ['.'] then follow get here rest
    else
      match get here with
      | some .dir =>
        if segment = ['.', '.'] then
          if here = [] then .outside else follow get here.dropLast rest
        else
          match get (here ++ [segment]) with
          | some _ => follow get (here ++ [segment]) rest
          | none => .missing
      | _ => .missing

/-- `module_dir.join(dir)`: an absolute path replaces the module directory. -/
def placeOf (get : List Name → Option (Node Bytes)) (dir : String) : Place :=
  if dir.toList.head? = some '/' then .outside
  else follow get [] (segments dir.toList)

def isFile : Node Bytes → Bool
  | .file _ => true
  | .dir => false

/-- The entries of the directory, as `read_dir` gives them; what lies outside the module
directory is the host's. -/
def entriesAt (files : ModuleFiles) (elsewhere : String → List DirEntry) (dir : String) :
    List DirEntry :=
  match placeOf files.get dir with
  | .inside path => (files.children path).map fun c => ⟨String.ofList c.1, isFile c.2⟩
  | .missing => []
  | .outside => elsewhere dir

def installedMigrations [BundleCrates] [Toml] (files : ModuleFiles)
    (elsewhere : String → List DirEntry) : List String :=
  match files.get runtimeNames with
  | some (.file bytes) =>
    match (BundleCrates.fromUtf8 bytes).toOption.bind parseMigrationsDir with
    | some dir => listSqlFilesIn (entriesAt files elsewhere dir)
    | none => []
  | _ => []

/-! ## What extraction leaves -/

section

variable (entries : List TarEntry)

/-- What unpacking the entries leaves at a path. -/
def unpackedNode (p : List Name) : Option (Node Bytes) :=
  match fileAt (unpacked entries) p with
  | some content => some (.file content)
  | none =>
    if p = [] ∨ (unpacked entries).any fun e => p.isPrefixOf e.1 && (e.2.isNone || p != e.1) then
      some .dir
    else none

def installedRoot : List Name :=
  match (((unpacked entries).filterMap (·.1.head?)).filter (!ignoredTop ·)).dedup with
  | [top] => if unpackedNode entries [top] = some .dir then [top] else []
  | _ => []

/-- What the storage leaves at a path of the module directory. -/
def installedNode : List Name → Option (Node Bytes)
  | [] => some .dir
  | name :: rest =>
    if installedRoot entries = [] ∧ ignoredTop name = true then none
    else unpackedNode entries (installedRoot entries ++ name :: rest)

end

variable {entries : List TarEntry} {files tree : ModuleFiles} {top : Name} {names root : List Name}
  {content : Bytes} {dir file : String}

theorem unpackedNode_of_build (h : build .empty (unpacked entries) = some files)
    (p : List Name) : files.get p = unpackedNode entries p := by
  obtain ⟨hfi, hdir⟩ := build_spec h
  rw [unpackedNode]
  cases hf : fileAt (unpacked entries) p with
  | some content => exact (hfi p content).mpr hf
  | none =>
    have habo : ((unpacked entries).any fun e =>
        p.isPrefixOf e.1 && (e.2.isNone || p != e.1)) = true ↔
          ∃ e ∈ unpacked entries, Tree.Above e p := by
      rw [any_eq_true]
      refine exists_congr fun e => and_congr_right fun _ => ?_
      rw [Bool.and_eq_true, Bool.or_eq_true, isPrefixOf_iff_prefix, Option.isNone_iff_eq_none,
        bne_iff_ne]
      exact Iff.rfl
    have hiff : (p = [] ∨ ((unpacked entries).any fun e =>
        p.isPrefixOf e.1 && (e.2.isNone || p != e.1)) = true) ↔ files.get p = some .dir :=
      (or_congr_right habo).trans (hdir p).symm
    dsimp only
    by_cases hp : files.get p = some .dir
    · rw [if_pos (hiff.mpr hp), hp]
    · rw [if_neg fun h => hp (hiff.mp h)]
      cases hget : files.get p with
      | none => rfl
      | some node =>
        cases node with
        | dir => exact absurd hget hp
        | file content =>
          rw [(hfi p content).mp hget] at hf
          cases hf

theorem unpackedNode_top {name : Name} : unpackedNode entries [name] ≠ none ↔
      ∃ e ∈ unpacked entries, e.1.head? = some name := by
  constructor
  · intro h
    rw [unpackedNode] at h
    cases hf : fileAt (unpacked entries) [name] with
    | some content => exact ⟨_, mem_of_fileAt hf, rfl⟩
    | none =>
      rw [hf] at h
      dsimp only at h
      split at h
      · rename_i hdir
        obtain ⟨e, he, hpre⟩ := any_eq_true.mp (hdir.resolve_left (cons_ne_nil _ _))
        rw [Bool.and_eq_true, isPrefixOf_iff_prefix] at hpre
        obtain ⟨rest, hre⟩ := hpre.1
        exact ⟨e, he, by rw [← hre]; rfl⟩
      · exact absurd rfl h
  · rintro ⟨⟨names, content⟩, he, hhead⟩
    obtain ⟨rest, rfl⟩ := List.head?_eq_some_iff.mp hhead
    rw [unpackedNode]
    cases hf : fileAt (unpacked entries) [name] with
    | some content => exact Option.some_ne_none _
    | none =>
      have hany : ((unpacked entries).any fun e =>
          [name].isPrefixOf e.1 && (e.2.isNone || [name] != e.1)) = true := by
        refine any_eq_true.mpr ⟨_, he, ?_⟩
        rw [Bool.and_eq_true, Bool.or_eq_true, isPrefixOf_iff_prefix,
          Option.isNone_iff_eq_none, bne_iff_ne]
        refine ⟨⟨rest, rfl⟩, ?_⟩
        cases content with
        | none => exact .inl rfl
        | some c =>
          refine .inr ?_
          intro heq
          dsimp only at heq
          obtain ⟨c', hc'⟩ := Tree.fileAt_of_mem (heq ▸ he)
          rw [hf] at hc'
          cases hc'
      dsimp only
      rw [if_pos (.inr hany)]
      exact Option.some_ne_none _

theorem onlyDir_iff (hget : ∀ p, files.get p = unpackedNode entries p) : OnlyDir files top ↔
      (((unpacked entries).filterMap (·.1.head?)).filter (!ignoredTop ·)).dedup = [top] ∧
        unpackedNode entries [top] = some .dir := by
  have hmem : ∀ name, name ∈ ((unpacked entries).filterMap (·.1.head?)).filter (!ignoredTop ·) ↔
      ignoredTop name = false ∧ unpackedNode entries [name] ≠ none := by
    intro name
    rw [mem_filter, mem_filterMap, Bool.not_eq_true', unpackedNode_top, and_comm]
  rw [OnlyDir, dedup_eq_singleton, hmem, hget]
  constructor
  · rintro ⟨htop, hdir, hon⟩
    refine ⟨⟨⟨htop, by rw [hdir]; exact Option.some_ne_none _⟩, ?_⟩, hdir⟩
    intro name hna
    obtain ⟨hi, hn⟩ := (hmem name).mp hna
    exact hon name hi (by rw [hget]; exact hn)
  · rintro ⟨⟨⟨htop, -⟩, hon⟩, hdir⟩
    refine ⟨htop, hdir, ?_⟩
    intro name hi hn
    rw [hget] at hn
    exact hon name ((hmem name).mpr ⟨hi, hn⟩)

/-- **WHAT THE STORAGE LEAVES**, for an archive the depot accepts. -/
theorem get_extracted [ArchiveCrates] [LawfulArchive] {bytes : Bytes} {destination : String}
    (hent : ArchiveCrates.entries bytes = (entries, none))
    (hacc : ∀ e ∈ entries, e.kind ≠ .other ∧ e.names ≠ none)
    (h : extractModuleArchive destination bytes = .ok files) (p : List Name) :
    files.get p = installedNode entries p := by
  rw [extractModuleArchive] at h
  cases hu : ArchiveCrates.unpack bytes with
  | error err =>
    rw [hu] at h
    cases h
  | ok tree =>
    rw [hu] at h
    have hget := unpackedNode_of_build (LawfulArchive.unpack_ok _ _ _ hent hacc hu)
    obtain ⟨root, hro, hfil⟩ := flattenModuleRoot_spec h
    have heq : root = installedRoot entries := by
      rw [installedRoot]
      match root, hro with
      | [], hro =>
        split
        · rename_i top hto
          rw [if_neg fun hdir => hro top ((onlyDir_iff hget).mpr ⟨hto, hdir⟩)]
        · rfl
      | [top], hro =>
        obtain ⟨hto, hdir⟩ := (onlyDir_iff hget).mp hro
        rw [hto]
        exact (if_pos hdir).symm
    cases p with
    | nil => exact files.root
    | cons name rest => rw [hfil, heq, hget, installedNode]

/-! ## One root for both -/

theorem tops_iff :
    (((unpacked entries).filterMap (·.1.head?)).filter (!ignoredTop ·)).dedup = [top] ↔
      OnlyTop entries top := by
  have hmem : ∀ name, name ∈ ((unpacked entries).filterMap (·.1.head?)).filter (!ignoredTop ·) ↔
      ignoredTop name = false ∧ ∃ e ∈ entries, ∃ rest, e.names = some (name :: rest) := by
    intro name
    rw [mem_filter, mem_filterMap, Bool.not_eq_true', and_comm]
    refine and_congr_right fun _ => ?_
    constructor
    · rintro ⟨⟨names, content⟩, hu, hhead⟩
      obtain ⟨rest, rfl⟩ := List.head?_eq_some_iff.mp hhead
      obtain ⟨e, he, hnam, -⟩ := mem_unpacked.mp hu
      exact ⟨e, he, rest, hnam⟩
    · rintro ⟨e, he, rest, hnam⟩
      exact ⟨_, mem_unpacked.mpr ⟨e, he, hnam, cons_ne_nil _ _, rfl⟩, rfl⟩
  rw [dedup_eq_singleton, hmem, OnlyTop, and_assoc]
  refine and_congr_right fun _ => and_congr_right fun _ => ?_
  constructor
  · intro h e he name rest hnam hna
    exact h name ((hmem name).mpr ⟨hna, e, he, rest, hnam⟩)
  · intro h name hna
    obtain ⟨hi, e, he, rest, hnam⟩ := (hmem name).mp hna
    exact h e he name rest hnam hi

/-- The guess of `inspect` is the directory that is taken away, unless nothing at all lies
below a top-level entry. -/
theorem shownRoot_eq (hbui : build .empty (unpacked entries) = some tree)
    (hro : IsShownRoot entries root) : root = installedRoot entries ∨
      root = [] ∧ ∀ e ∈ entries, ∀ a b rest, e.names = some (a :: b :: rest) →
        ignoredTop a = true := by
  match root, hro with
  | [top], ⟨hon, e, he, rest, hnam, hbelow⟩ =>
    have hdir : unpackedNode entries [top] = some .dir := by
      rw [← unpackedNode_of_build hbui, (build_spec hbui).2]
      refine .inr ⟨_, mem_unpacked.mpr ⟨e, he, hnam, cons_ne_nil _ _, rfl⟩, ⟨rest, rfl⟩, ?_⟩
      rcases hbelow with hrest | hki
      · refine .inr ?_
        intro heq
        exact hrest (List.cons.inj heq).2.symm
      · refine .inl ?_
        have hmak : e.makesDirectory = true := by
          rw [TarEntry.makesDirectory, hki]
          rfl
        exact if_pos hmak
    refine .inl ?_
    rw [installedRoot, tops_iff.mpr hon]
    exact (if_pos hdir).symm
  | [], hro =>
    by_cases hon : ∃ top, OnlyTop entries top
    · obtain ⟨top, hon⟩ := hon
      refine .inr ⟨rfl, ?_⟩
      intro e he a b rest hnam
      cases ha : ignoredTop a with
      | true => rfl
      | false =>
        obtain rfl := hon.2.2 e he a (b :: rest) hnam ha
        exact absurd ⟨e, he, b :: rest, hnam, .inl (cons_ne_nil _ _)⟩ (hro a hon)
    · refine .inl ?_
      rw [installedRoot]
      split
      · rename_i top hto
        exact absurd ⟨top, tops_iff.mp hto⟩ hon
      · rfl

theorem installedRoot_cases (entries : List TarEntry) : installedRoot entries = [] ∨
      ∃ top, ignoredTop top = false ∧ installedRoot entries = [top] := by
  rw [installedRoot]
  split
  · rename_i top hto
    split
    · exact .inr ⟨top, (tops_iff.mp hto).1, rfl⟩
    · exact .inl rfl
  · exact .inl rfl

theorem declaredShown_root [BundleCrates] [Toml]
    (hbui : build .empty (unpacked entries) = some tree) (hro : IsShownRoot entries root) :
    root = installedRoot entries ∨
      declaredShown entries root = none ∧ declaredShown entries (installedRoot entries) = none := by
  rcases shownRoot_eq hbui hro with heq | ⟨rfl, hfl⟩
  · exact .inl heq
  · -- a runtime manifest would lie two levels deep
    have hno : ∀ first : List Name, (∀ n ∈ first, ignoredTop n = false) →
        declaredShown entries first = none := by
      intro first hfir
      rw [declaredShown]
      cases hf : fileAt (entries.filterMap shownFile) (first ++ runtimeNames) with
      | none => rfl
      | some content =>
        obtain ⟨e, he, hsho⟩ := mem_filterMap.mp (mem_of_fileAt hf)
        have hnam : e.names = some (first ++ runtimeNames) := by
          revert hsho
          fun_cases shownFile e
          case case4 name rest hn =>
            intro hsho
            rw [hn, (Prod.mk.inj (Option.some.inj hsho)).1]
          all_goals exact fun h => by cases h
        exfalso
        rcases first with _ | ⟨top, _ | ⟨name, rest⟩⟩
        · exact absurd (hfl e he _ _ _ hnam) (by decide)
        all_goals
          have htop := hfl e he _ _ _ hnam
          rw [hfir top mem_cons_self] at htop
          cases htop
    refine .inr ⟨hno [] (by simp), ?_⟩
    rcases installedRoot_cases entries with h | ⟨top, htop, h⟩
    · rw [h]
      exact hno [] (by simp)
    · rw [h]
      refine hno [top] ?_
      intro n hn
      rw [mem_singleton.mp hn]
      exact htop

/-! ## The installed migrations -/

def declaredInstalled [BundleCrates] [Toml] (entries : List TarEntry) : Option String :=
  ((fileAt (unpacked entries) (installedRoot entries ++ runtimeNames)).bind fun content =>
    (BundleCrates.fromUtf8 content).toOption).bind parseMigrationsDir

/-- A file with the extension `sql` lies in the directory the path leads to. -/
def Found (entries : List TarEntry) (elsewhere : String → List DirEntry) (dir : String)
    (name : Name) : Prop :=
  extension name = some "sql".toList ∧ match placeOf (installedNode entries) dir with
    | .inside path => ∃ content, installedNode entries (path ++ [name]) = some (.file content)
    | .missing => False
    | .outside => ⟨String.ofList name, true⟩ ∈ elsewhere dir

theorem unpackedNode_file {p : List Name} : unpackedNode entries p = some (.file content) ↔
      fileAt (unpacked entries) p = some content := by
  rw [unpackedNode]
  cases fileAt (unpacked entries) p with
  | some c => simp
  | none =>
    dsimp only
    split <;> simp

theorem mem_listed (hget : ∀ p, files.get p = installedNode entries p)
    {elsewhere : String → List DirEntry} : file ∈ listSqlFilesIn (entriesAt files elsewhere dir) ↔
      Found entries elsewhere dir file.toList := by
  have hpla : placeOf files.get dir = placeOf (installedNode entries) dir := by
    rw [show files.get = installedNode entries from funext hget]
  have hsql : ∀ d : DirEntry, d.isSql = true ↔
      d.isFile = true ∧ extension d.name.toList = some "sql".toList := by
    intro d
    rw [DirEntry.isSql, Bool.and_eq_true, beq_iff_eq]
  rw [mem_listSqlFilesIn, entriesAt, hpla, Found]
  cases placeOf (installedNode entries) dir with
  | missing => simp
  | outside =>
    rw [String.ofList_toList]
    constructor
    · rintro ⟨⟨name, isFile⟩, he, hd, rfl⟩
      obtain ⟨hf, hext⟩ := (hsql _).mp hd
      dsimp only at hf
      rw [hf] at he
      exact ⟨hext, he⟩
    · rintro ⟨hext, he⟩
      exact ⟨_, he, (hsql _).mpr ⟨rfl, hext⟩, rfl⟩
  | inside path =>
    constructor
    · rintro ⟨d, hd, hs, rfl⟩
      obtain ⟨⟨name, node⟩, hchild, rfl⟩ := mem_map.mp hd
      obtain ⟨hf, hext⟩ := (hsql _).mp hs
      have hno := Tree.mem_children.mp hchild
      rw [String.toList_ofList] at hext ⊢
      refine ⟨hext, ?_⟩
      cases node with
      | dir => cases hf
      | file content => exact ⟨content, by rw [← hget]; exact hno⟩
    · rintro ⟨hext, content, hno⟩
      rw [← hget] at hno
      refine ⟨⟨file, true⟩, mem_map.mpr
        ⟨(file.toList, .file content), Tree.mem_children.mpr hno, ?_⟩,
        (hsql _).mpr ⟨rfl, hext⟩, rfl⟩
      rw [String.ofList_toList]
      rfl

/-- **WHAT THE HOST FINDS** in the directory of an installed module. -/
theorem mem_installedMigrations [BundleCrates] [Toml]
    (hget : ∀ p, files.get p = installedNode entries p) {elsewhere : String → List DirEntry} :
    file ∈ installedMigrations files elsewhere ↔
      ∃ dir, declaredInstalled entries = some dir ∧ Found entries elsewhere dir file.toList := by
  have hnod : files.get runtimeNames =
      unpackedNode entries (installedRoot entries ++ runtimeNames) := by
    rw [hget]
    exact if_neg fun h => absurd h.2 (by decide)
  rw [installedMigrations, hnod, declaredInstalled]
  cases hf : fileAt (unpacked entries) (installedRoot entries ++ runtimeNames) with
  | none =>
    have hno : ∀ content, unpackedNode entries (installedRoot entries ++ runtimeNames) ≠
        some (.file content) := by
      intro content h
      rw [unpackedNode_file.mp h] at hf
      cases hf
    split
    · rename_i content h
      exact absurd h (hno content)
    · simp
  | some content =>
    rw [unpackedNode_file.mpr hf]
    dsimp only
    rw [Option.bind_some]
    cases (BundleCrates.fromUtf8 content).toOption.bind parseMigrationsDir with
    | none => simp
    | some dir =>
      rw [mem_listed hget]
      constructor
      · intro h
        exact ⟨dir, rfl, h⟩
      · rintro ⟨dir', hdir, h⟩
        cases hdir
        exact h

theorem follow_plain (t : ModuleFiles) (hpla : ∀ n ∈ names, Path.Plain n) (k : Nat)
    (here : List Name) :
    (t.get (here ++ names) ≠ none →
      follow t.get here (names ++ List.replicate k []) = .inside (here ++ names)) ∧
    (t.get (here ++ names) = none → names ≠ [] →
      follow t.get here (names ++ List.replicate k []) = .missing) := by
  induction names generalizing here with
  | nil =>
    refine ⟨fun _ => ?_, fun _ h => absurd rfl h⟩
    rw [nil_append, append_nil]
    induction k with
    | zero => rfl
    | succ k ih =>
      rw [replicate_succ, follow, if_pos (.inl rfl)]
      exact ih
  | cons a names ih =>
    obtain ⟨hemp, hdot, hdo, -⟩ := hpla a mem_cons_self
    have hass : here ++ a :: names = here ++ [a] ++ names := by simp
    have hta := ih (fun n hn => hpla n (mem_cons_of_mem _ hn)) (here ++ [a])
    rw [cons_append, follow, if_neg (not_or.mpr ⟨hemp, hdot⟩), hass]
    by_cases hdir : t.get here = some .dir
    · rw [hdir]
      dsimp only
      rw [if_neg hdo]
      cases hne : t.get (here ++ [a]) with
      | some node =>
        refine ⟨hta.1, fun hno _ => ?_⟩
        by_cases hnam : names = []
        · rw [hnam, append_nil, hne] at hno
          cases hno
        · exact hta.2 hno hnam
      | none =>
        refine ⟨fun hso => ?_, fun _ _ => rfl⟩
        by_cases hnam : names = []
        · rw [hnam, append_nil] at hso
          exact absurd hne hso
        · rw [Tree.dir_of_append hnam hso] at hne
          cases hne
    · have hmis : t.get (here ++ [a] ++ names) = none := by
        by_contra hso
        rw [append_assoc] at hso
        exact hdir (Tree.dir_of_append (cons_ne_nil _ _) hso)
      refine ⟨fun hso => absurd hmis hso, fun _ _ => ?_⟩
      cases hg : t.get here with
      | none => rfl
      | some node =>
        cases node with
        | dir => exact absurd hg hdir
        | file content => rfl

theorem found_plain_iff (hget : ∀ p, files.get p = installedNode entries p)
    {elsewhere : String → List DirEntry} (hrel : dir.toList.head? ≠ some '/')
    (hpl : ∀ n ∈ segments (trimSlashes dir.toList), Path.Plain n) {name : Name} :
    Found entries elsewhere dir name ↔ extension name = some "sql".toList ∧ ∃ content,
        installedNode entries (segments (trimSlashes dir.toList) ++ [name]) =
          some (.file content) := by
  obtain ⟨k, hk⟩ := Path.segments_trim hrel
  obtain ⟨hin, hmis⟩ := follow_plain files hpl k []
  rw [nil_append] at hin hmis
  have hpla : placeOf (installedNode entries) dir =
      follow files.get [] (segments (trimSlashes dir.toList) ++ List.replicate k []) := by
    rw [placeOf, if_neg hrel, hk, show files.get = installedNode entries from funext hget]
  rw [Found, hpla]
  refine and_congr_right fun _ => ?_
  cases hdir : files.get (segments (trimSlashes dir.toList)) with
  | some node => rw [hin (by rw [hdir]; exact Option.some_ne_none _)]
  | none =>
    rw [hmis hdir (Path.segments_ne_nil _)]
    refine ⟨False.elim, ?_⟩
    rintro ⟨content, hfi⟩
    rw [← hget] at hfi
    rw [files.closed _ _ (by rw [hfi]; exact Option.some_ne_none _)] at hdir
    cases hdir

/-! ## When both see the same migrations -/

/-- Every file `inspect` counts in the directory is kept as a file and has a name before
its extension: it is not called `.sql`, its path does not end in a slash that makes it
a directory, and it does not lie below a top-level name that flattening drops. -/
def EveryShownKept (entries : List TarEntry) (dir : String) : Prop :=
  ∀ e ∈ entries, e.kind ≠ .directory → ∀ name,
    e.names = some (installedRoot entries ++ segments (trimSlashes dir.toList) ++ [name]) →
    sqlSuffix <:+ name →
    name ≠ sqlSuffix ∧ e.makesDirectory = false ∧ (installedRoot entries = [] → ∀ top,
        (segments (trimSlashes dir.toList)).head? = some top → ignoredTop top = false)

/-- The condition on the archive, by the directory its runtime manifest declares: in the
first 2^20 bytes, which is all that `inspect` reads, and in the installed file. -/
def MigrationsAgree [BundleCrates] [Toml] (entries : List TarEntry)
    (elsewhere : String → List DirEntry) : Prop :=
  match declaredShown entries (installedRoot entries), declaredInstalled entries with
  | none, none => True
  | some shown, none => ∀ name, ¬ Shown entries (installedRoot entries) shown name
  | none, some dir => ∀ name, ¬ Found entries elsewhere dir name
  | some shown, some dir =>
    if shown = dir ∧ dir.toList.head? ≠ some '/' then
      if ∀ n ∈ segments (trimSlashes dir.toList), Path.Plain n then
        EveryShownKept entries dir
      else ∀ name, ¬ Found entries elsewhere dir name
    else ∀ name, Shown entries (installedRoot entries) shown name ↔ Found entries elsewhere dir name

theorem suffix_of_extension {name : Name} (h : extension name = some "sql".toList) :
    sqlSuffix <:+ name ∧ name ≠ sqlSuffix := by
  obtain ⟨stem, hst, rfl⟩ := (Path.extension_eq_some (by decide)).mp h
  refine ⟨⟨stem, rfl⟩, ?_⟩
  intro heq
  have hlen := congrArg List.length heq
  rw [length_append] at hlen
  exact hst (length_eq_zero_iff.mp (Nat.add_eq_right.mp hlen))

theorem extension_of_suffix {name : Name} (h : sqlSuffix <:+ name) (hne : name ≠ sqlSuffix) :
    extension name = some "sql".toList := by
  obtain ⟨stem, rfl⟩ := h
  refine (Path.extension_eq_some (by decide)).mpr ⟨stem, ?_, rfl⟩
  rintro rfl
  exact hne rfl

/-- A file below a directory with a plain spelling is there after the installation exactly
when the archive has it and its top-level name is not dropped. -/
theorem installedNode_file (hne : names ≠ []) {name : Name} :
    installedNode entries (names ++ [name]) = some (.file content) ↔
      (installedRoot entries = [] → ∀ top, names.head? = some top → ignoredTop top = false) ∧
        fileAt (unpacked entries) (installedRoot entries ++ names ++ [name]) = some content := by
  obtain ⟨top, rest, rfl⟩ := exists_cons_of_ne_nil hne
  rw [cons_append, installedNode, append_assoc, cons_append]
  by_cases hdr : installedRoot entries = [] ∧ ignoredTop top = true
  · rw [if_pos hdr]
    refine ⟨nofun, ?_⟩
    rintro ⟨hke, -⟩
    have htop := hke hdr.1 top rfl
    rw [hdr.2] at htop
    cases htop
  · rw [if_neg hdr, unpackedNode_file]
    refine ⟨fun h => ⟨?_, h⟩, fun h => h.2⟩
    intro hro top' htop
    cases htop
    cases hi : ignoredTop top with
    | false => rfl
    | true => exact absurd ⟨hro, hi⟩ hdr

theorem agree_plain_iff (hbui : build .empty (unpacked entries) = some tree)
    (hget : ∀ p, files.get p = installedNode entries p) {elsewhere : String → List DirEntry}
    (hrel : dir.toList.head? ≠ some '/')
    (hpla : ∀ n ∈ segments (trimSlashes dir.toList), Path.Plain n) :
    (∀ name, Shown entries (installedRoot entries) dir name ↔ Found entries elsewhere dir name) ↔
      EveryShownKept entries dir := by
  have hne := Path.segments_ne_nil (trimSlashes dir.toList)
  constructor
  · intro h e he hki name hnam hsuf
    obtain ⟨hext, content, hfi⟩ :=
      (found_plain_iff hget hrel hpla).mp ((h name).mp ⟨hsuf, e, he, hki, hnam⟩)
    obtain ⟨hke, hat⟩ := (installedNode_file hne).mp hfi
    refine ⟨(suffix_of_extension hext).2, ?_, hke⟩
    -- were the entry a directory, the tree would hold one there
    cases hmak : e.makesDirectory with
    | false => rfl
    | true =>
      have hno := ((build_spec hbui).1 _ _).mpr hat
      have hdir := ((build_spec hbui).2
        (installedRoot entries ++ segments (trimSlashes dir.toList) ++ [name])).mpr
          (.inr ⟨_, mem_unpacked.mpr ⟨e, he, hnam, by simp, rfl⟩, prefix_rfl, .inl (if_pos hmak)⟩)
      rw [hno] at hdir
      cases hdir
  · intro hkep name
    rw [found_plain_iff hget hrel hpla]
    constructor
    · rintro ⟨hsuf, e, he, hki, hnam⟩
      obtain ⟨hna, hmak, hke⟩ := hkep e he hki name hnam hsuf
      have hmem := mem_unpacked.mpr
        ⟨e, he, hnam, by simp, (if_neg (Bool.eq_false_iff.mp hmak)).symm⟩
      obtain ⟨content, hat⟩ := Tree.fileAt_of_mem hmem
      exact ⟨extension_of_suffix hsuf hna, content, (installedNode_file hne).mpr ⟨hke, hat⟩⟩
    · rintro ⟨hext, content, hfi⟩
      obtain ⟨-, hat⟩ := (installedNode_file hne).mp hfi
      obtain ⟨e, he, hnam, -, hcon⟩ := mem_unpacked.mp (mem_of_fileAt hat)
      refine ⟨(suffix_of_extension hext).1, e, he, ?_, hnam⟩
      intro hki
      have hmak : e.makesDirectory = true := by
        rw [TarEntry.makesDirectory, hki]
        rfl
      rw [if_pos hmak] at hcon
      cases hcon

theorem not_shown (hpla : ¬ ∀ n ∈ segments (trimSlashes dir.toList), Path.Plain n)
    (name : Name) : ¬ Shown entries root dir name := by
  rintro ⟨-, e, -, -, hnam⟩
  refine hpla fun n hn => TarEntry.plain_names hnam n ?_
  exact mem_append_left _ (mem_append_right _ hn)

/-- **WHEN BOTH SEE THE SAME MIGRATIONS.** -/
theorem migrations_agree_iff [BundleCrates] [Toml] [ArchiveCrates] [LawfulArchive]
    {bytes : Bytes} {info : BundleInfo}
    {destination : String} {files : ModuleFiles} (hinspect : inspect bytes = .ok info)
    (hextract : extractModuleArchive destination bytes = .ok files)
    (elsewhere : String → List DirEntry) :
    (∀ file, file ∈ info.migrations ↔ file ∈ installedMigrations files elsewhere) ↔
      MigrationsAgree (ArchiveCrates.entries bytes).1 elsewhere := by
  obtain ⟨entries, root, hent, hacc, hro, hsho⟩ := mem_inspect_migrations hinspect
  have hget := get_extracted hent hacc hextract
  obtain ⟨tree, hbui⟩ : ∃ tree, build .empty (unpacked entries) = some tree := by
    rw [extractModuleArchive] at hextract
    cases hu : ArchiveCrates.unpack bytes with
    | error err =>
      rw [hu] at hextract
      cases hextract
    | ok tree => exact ⟨tree, LawfulArchive.unpack_ok _ _ _ hent hacc hu⟩
  -- both sides as statements about names, with the same root
  have hnam : (∀ file, file ∈ info.migrations ↔ file ∈ installedMigrations files elsewhere) ↔
      ∀ name : Name, (∃ dir, declaredShown entries (installedRoot entries) = some dir ∧
          Shown entries (installedRoot entries) dir name) ↔
        ∃ dir, declaredInstalled entries = some dir ∧ Found entries elsewhere dir name := by
    have hsa : ∀ file : String, file ∈ info.migrations ↔
        ∃ dir, declaredShown entries (installedRoot entries) = some dir ∧
          Shown entries (installedRoot entries) dir file.toList := by
      intro file
      rw [hsho file]
      rcases declaredShown_root hbui hro with rfl | ⟨hno, hno'⟩
      · exact Iff.rfl
      · rw [hno, hno']
        simp
    constructor
    · intro h name
      have hna := h (String.ofList name)
      rw [hsa, mem_installedMigrations hget, String.toList_ofList] at hna
      exact hna
    · intro h file
      rw [hsa, mem_installedMigrations hget]
      exact h file.toList
  rw [hnam, hent, MigrationsAgree]
  cases declaredShown entries (installedRoot entries) with
  | none =>
    cases declaredInstalled entries with
    | none | some dir => simp
  | some shown =>
    cases declaredInstalled entries with
    | none => simp
    | some dir =>
      simp only [Option.some.injEq, exists_eq_left']
      by_cases hca : shown = dir ∧ dir.toList.head? ≠ some '/'
      · rw [if_pos hca]
        obtain ⟨rfl, hrel⟩ := hca
        by_cases hpla : ∀ n ∈ segments (trimSlashes shown.toList), Path.Plain n
        · rw [if_pos hpla]
          exact agree_plain_iff hbui hget hrel hpla
        · rw [if_neg hpla]
          exact forall_congr' fun name => iff_false_left (not_shown hpla name)
      · rw [if_neg hca]

/-! ### Two spellings of one directory -/

/-- A gzip tar archive with `notes/.fenrir/runtime.toml`, which declares the directory
`migrations`, and the empty file `notes/migrations/0001.sql`. -/
def archivePlain : Bytes :=
  [31, 139, 8, 0, 0, 0, 0, 0, 2, 3, 203, 203, 47, 73, 45, 214, 215, 75, 75, 205, 43, 202, 44,
    210, 47, 42, 205, 43, 201, 204, 77, 213, 43, 201, 207, 205, 97, 160, 26, 48, 0, 2, 51, 19,
    19, 48, 13, 4, 232, 180, 129, 129, 9, 18, 27, 36, 110, 104, 108, 96, 104, 196, 160, 96,
    192, 64, 7, 80, 90, 92, 146, 88, 4, 180, 158, 97, 100, 130, 232, 220, 204, 244, 162, 196,
    146, 204, 252, 188, 226, 88, 174, 148, 204, 34, 5, 91, 5, 37, 132, 144, 18, 23, 195, 40,
    24, 214, 32, 15, 156, 255, 17, 49, 174, 15, 204, 128, 134, 122, 197, 133, 84, 204, 254,
    132, 243, 63, 58, 219, 208, 200, 24, 88, 36, 140, 230, 255, 81, 48, 10, 70, 193, 40, 160,
    33, 0, 0, 50, 7, 36, 235, 0, 10, 0, 0]

/-- The same archive with the directory spelled `./migrations`. -/
def archiveDotted : Bytes :=
  [31, 139, 8, 0, 0, 0, 0, 0, 2, 3, 237, 211, 49, 14, 195, 32, 12, 64, 81, 230, 156, 2, 229,
    0, 96, 18, 171, 91, 79, 82, 117, 136, 84, 82, 89, 42, 160, 26, 114, 255, 210, 44, 72, 89,
    186, 164, 25, 90, 191, 197, 150, 23, 6, 244, 99, 42, 62, 91, 51, 251, 200, 196, 150, 151,
    88, 40, 120, 83, 82, 120, 168, 221, 64, 117, 66, 92, 103, 181, 157, 0, 56, 180, 253, 125,
    119, 35, 56, 84, 26, 212, 1, 150, 92, 38, 174, 207, 171, 255, 116, 9, 116, 231, 169, 80,
    138, 249, 218, 221, 136, 245, 89, 247, 198, 182, 99, 223, 41, 241, 195, 226, 218, 127, 251,
    111, 91, 3, 116, 38, 63, 119, 204, 255, 115, 255, 219, 221, 13, 35, 130, 244, 47, 132, 16,
    223, 244, 2, 79, 228, 64, 168, 0, 10, 0, 0]

def runtimePlain : String := "[migrations]\ndir = \"migrations\"\n"

def runtimeDotted : String := "[migrations]\ndir = \"./migrations\"\n"

/-- The entries of both archives, by the text of the runtime manifest. -/
def sampleEntries (runtime : String) : List TarEntry :=
  [⟨.regular, true, "notes/.fenrir/runtime.toml".toList, Text.utf8 runtime⟩,
    ⟨.regular, true, "notes/migrations/0001.sql".toList, []⟩]

def sampleRead (bytes : Bytes) : List TarEntry × Option String :=
  if bytes = archivePlain then (sampleEntries runtimePlain, none)
  else if bytes = archiveDotted then (sampleEntries runtimeDotted, none)
  else ([], some "invalid gzip header")

abbrev sampleArchive : ArchiveCrates := .ofEntries sampleRead

abbrev sampleBundleCrates : BundleCrates where
  fromUtf8 := fun bytes =>
    if bytes = Text.utf8 runtimePlain then .ok runtimePlain
    else if bytes = Text.utf8 runtimeDotted then .ok runtimeDotted
    else .error "invalid utf-8 sequence"
  manifestFromJson := fun _ => .error "expected value at line 1 column 1"

abbrev sampleToml : Toml where
  migrations := fun text =>
    if text = runtimePlain then some (some (some "migrations"))
    else if text = runtimeDotted then some (some (some "./migrations"))
    else none

def bothCounts [BundleCrates] [Toml] [ArchiveCrates] (bytes : Bytes) :
    Option (List String × List String) :=
  match inspect bytes, extractModuleArchive "modules/notes" bytes with
  | .ok info, .ok files => some (info.migrations, installedMigrations files fun _ => [])
  | _, _ => none

/-- The witness: the plain spelling, with the migration on both sides. -/
theorem migrations_agree_plain :
    let _ := sampleArchive
    let _ := sampleBundleCrates
    let _ := sampleToml
    bothCounts archivePlain = some (["0001.sql"], ["0001.sql"]) ∧
      MigrationsAgree (sampleEntries runtimePlain) fun _ => [] := by
  intro _ _ _
  have hlaw := LawfulArchive.ofEntries sampleRead
  have hcou : bothCounts archivePlain = some (["0001.sql"], ["0001.sql"]) := by
    decide +kernel
  refine ⟨hcou, ?_⟩
  have hent : (ArchiveCrates.entries archivePlain).1 = sampleEntries runtimePlain := by
    decide +kernel
  rw [bothCounts] at hcou
  split at hcou
  · rename_i info files hins hext
    obtain ⟨hin, hfil⟩ := Prod.mk.inj (Option.some.inj hcou)
    rw [← hent]
    refine (migrations_agree_iff hins hext fun _ => []).mp ?_
    intro file
    rw [hin, hfil]
  · cases hcou

/-- The counterexample: with the directory spelled `./migrations`, `inspect` accepts the
bundle and shows no migration; the installed module has one. -/
theorem dotted_directory_missed :
    let _ := sampleArchive
    let _ := sampleBundleCrates
    let _ := sampleToml
    bothCounts archiveDotted = some ([], ["0001.sql"]) := by
  intro _ _ _
  decide +kernel

end Fenrir.Bundle
