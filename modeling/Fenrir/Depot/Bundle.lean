import Fenrir.Depot.Host
import Fenrir.Migrations.Files
import Fenrir.Modules.Archive

/-! # Looking into a bundle

`services/depot/bundle.rs`: before a bundle is installed the depot reads its
archive without unpacking it. It refuses links, absolute and parent paths,
guesses the directory the storage will flatten away and matches paths as texts
to find the bundle's own manifest and its migrations. -/

open Path (join segments trimSlashes segments_of_not_mem segments_join segments_append join_eq_iff)

namespace Fenrir.Bundle

open FileTree Modules Migrations List

open String (ofList toList_ofList)

/-- Reading text and a manifest from a bundle. -/
class BundleCrates where
  /-- `String::from_utf8`. -/
  fromUtf8 : Bytes → Except String String
  manifestFromJson : String → Except String ModuleManifest

def manifestPath : List Char := ".fenrir-meta/manifest.json".toList

def runtimePath : List Char := ".fenrir/runtime.toml".toList

def runtimeNames : List Name := [".fenrir".toList, "runtime.toml".toList]

def sqlSuffix : List Char := ".sql".toList

/-- `MAX_META_BYTES`. -/
def maxMetaBytes : Nat := 1024 * 1024

/-- What the loop of `inspect` collects: the paths with whether they are directories,
and the texts of manifests and runtime manifests by path. -/
structure Seen where
  paths : List (List Char × Bool)
  texts : BTreeMap String

section

variable [BundleCrates] [ArchiveCrates] [Toml]

/-- One round of the loop of `inspect`. -/
def scanEntry (seen : Seen) (e : TarEntry) : Except DepotError Seen :=
  if e.kind = .other then
    .error (.bundle ("the archive contains a link or special file: " ++ ofList e.path))
  else
    match e.names with
    | none =>
      .error (.bundle
        ("the archive contains an absolute or parent path: " ++ ofList e.path))
    | some [] => .ok seen
    | some (name :: names) =>
      let joined := join (name :: names)
      let isDir := e.kind == .directory
      if !isDir && (manifestPath.isSuffixOf joined || runtimePath.isSuffixOf joined) then
        match BundleCrates.fromUtf8 (e.content.take maxMetaBytes) with
        | .error err =>
          .error (.bundle (ofList joined ++ " is not UTF-8 text: " ++ err))
        | .ok text =>
          .ok ⟨seen.paths ++ [(joined, isDir)], seen.texts.insert (ofList joined) text⟩
      else .ok ⟨seen.paths ++ [(joined, isDir)], seen.texts⟩

/-- `common_root`: the only top-level entry, if something lies below it or it is a
directory. -/
def commonRoot (paths : List (List Char × Bool)) : List Char :=
  match ((paths.filterMap fun p => (segments p.1).head?).filter (!ignoredTop ·)).dedup with
  | [only] =>
    if paths.any fun p => (only ++ ['/']).isPrefixOf p.1 || (p.2 && p.1 == only) then
      only ++ ['/']
    else []
  | _ => []

/-- The `*.sql` files directly in a directory, by the text of their paths. -/
def filesIn (paths : List (List Char × Bool)) (dir : List Char) : List String :=
  ((((paths.filter (!·.2)).filterMap fun p => Text.stripStart dir p.1).filter fun name =>
    decide ('/' ∉ name) && sqlSuffix.isSuffixOf name).map ofList).insertionSort (· ≤ ·)

/-- What `inspect` makes of the paths and texts it collected. -/
def describe (seen : Seen) : Except DepotError BundleInfo :=
  let root := commonRoot seen.paths
  let migrations :=
    match seen.texts[ofList (root ++ runtimePath)]?.bind parseMigrationsDir with
    | some dir => filesIn seen.paths (root ++ trimSlashes dir.toList ++ ['/'])
    | none => []
  match seen.texts[ofList (root ++ manifestPath)]? with
  | none => .ok ⟨none, migrations⟩
  | some text =>
    match BundleCrates.manifestFromJson text with
    | .error err => .error (.bundle (ofList manifestPath ++ " does not parse: " ++ err))
    | .ok manifest => .ok ⟨some manifest, migrations⟩

def inspect (bytes : Bytes) : Except DepotError BundleInfo :=
  let (entries, readError) := ArchiveCrates.entries bytes
  match entries.foldlM scanEntry ⟨[], ∅⟩ with
  | .error err => .error err
  | .ok seen =>
    match readError with
    | some err => .error (.bundle ("not a gzip tar archive: " ++ err))
    | none => describe seen

end

/-! ## The loop -/

/-- An entry as the loop records it. -/
def shownPath (e : TarEntry) : Option (List Char × Bool) :=
  match e.names with
  | none | some [] => none
  | some (name :: names) => some (join (name :: names), e.kind == .directory)

/-- An entry that counts as a file for `inspect`. -/
def shownFile (e : TarEntry) : Option (List Name × Option Bytes) :=
  if e.kind = .directory then none
  else
    match e.names with
    | none | some [] => none
    | some (name :: names) => some (name :: names, some e.content)

/-- The text `inspect` reads of a file. -/
def metaText [BundleCrates] (content : Bytes) : Option String :=
  (BundleCrates.fromUtf8 (content.take maxMetaBytes)).toOption

/-- What the loop has collected after these entries. -/
structure Scanned [BundleCrates] (entries : List TarEntry) (seen : Seen) : Prop where
  accepted : ∀ e ∈ entries, e.kind ≠ .other ∧ e.names ≠ none
  paths : seen.paths = entries.filterMap shownPath
  texts : ∀ names : List Name, names ≠ [] → (∀ n ∈ names, '/' ∉ n) → runtimePath <:+ join names →
    seen.texts[ofList (join names)]? =
      (Tree.fileAt (entries.filterMap shownFile) names).bind metaText

theorem ofList_join_inj {a b : List Name} (ha : a ≠ []) (hb : b ≠ []) (has : ∀ n ∈ a, '/' ∉ n)
    (hbs : ∀ n ∈ b, '/' ∉ n) :
    ofList (join a) = ofList (join b) ↔ a = b := by
  constructor
  · intro h
    have hjo : join a = join b := by
      have hli := congrArg String.toList h
      rwa [toList_ofList, toList_ofList] at hli
    rw [← segments_join ha has, hjo, segments_join hb hbs]
  · rintro rfl
    rfl

variable {entries : List TarEntry} {seen : Seen} {e : TarEntry} {top : Name} {root : List Name}

section

variable [BundleCrates] {name : Name} {rest names : List Name} (hs : Scanned entries seen)
  (hn : e.names = some (name :: rest)) (hne : names ≠ []) (hsla : ∀ n ∈ names, '/' ∉ n)
  (hsuf : runtimePath <:+ join names)

include hs hn hne hsla hsuf

theorem Scanned.read (hdir : e.kind ≠ .directory) {text : String}
    (hte : BundleCrates.fromUtf8 (e.content.take maxMetaBytes) = .ok text) :
    (seen.texts.insert (ofList (join (name :: rest))) text)[ofList (join names)]? =
      (Tree.fileAt ((entries ++ [e]).filterMap shownFile) names).bind metaText := by
  have hpla : ∀ n ∈ name :: rest, '/' ∉ n :=
    fun n hmem => (TarEntry.plain_names hn n hmem).2.2.2
  have hsame := ofList_join_inj (cons_ne_nil name rest) hne hpla hsla
  have hfi : shownFile e = some (name :: rest, some e.content) := by
    rw [shownFile, if_neg hdir, hn]
  rw [BTreeMap.get_insert, filterMap_append, filterMap_cons_some hfi, filterMap_nil,
    Tree.fileAt_concat]
  simp only [hsame]
  split
  · rw [Option.some_or, Option.bind_some, metaText, hte]
    rfl
  · exact hs.texts names hne hsla hsuf

theorem Scanned.unread (hun : e.kind ≠ .directory → ¬ runtimePath <:+ join (name :: rest)) :
    seen.texts[ofList (join names)]? =
      (Tree.fileAt ((entries ++ [e]).filterMap shownFile) names).bind metaText := by
  rw [hs.texts names hne hsla hsuf, filterMap_append]
  by_cases hdir : e.kind = .directory
  · have hfi : shownFile e = none := if_pos hdir
    rw [filterMap_cons_none hfi, filterMap_nil, append_nil]
  · have hfi : shownFile e = some (name :: rest, some e.content) := by
      rw [shownFile, if_neg hdir, hn]
    rw [filterMap_cons_some hfi, filterMap_nil, Tree.fileAt_concat, if_neg]
    -- a file that is not read does not end with the path that is asked for
    rintro rfl
    exact hun hdir hsuf

end

theorem scanEntry_spec [BundleCrates] {seen' : Seen} (hs : Scanned entries seen)
    (h : scanEntry seen e = .ok seen') : Scanned (entries ++ [e]) seen' := by
  have hacc : e.kind ≠ .other → ∀ {ns}, e.names = some ns →
      ∀ e' ∈ entries ++ [e], e'.kind ≠ .other ∧ e'.names ≠ none := by
    intro hki ns hn
    refine forall_mem_append.mpr ⟨hs.accepted, forall_mem_singleton.mpr ⟨hki, ?_⟩⟩
    rw [hn]
    exact Option.some_ne_none _
  have hpat : ∀ {name rest}, e.names = some (name :: rest) →
      seen.paths ++ [(join (name :: rest), e.kind == .directory)] =
        (entries ++ [e]).filterMap shownPath := by
    intro name rest hn
    rw [hs.paths, filterMap_append, filterMap_cons_some (by rw [shownPath, hn])]
    rfl
  revert h
  fun_cases scanEntry seen e
  case case3 hki hn =>
    intro h
    cases h
    have hpa : shownPath e = none := by rw [shownPath, hn]
    have hfi : shownFile e = none := by rw [shownFile, hn]; split <;> rfl
    refine ⟨hacc hki hn, ?_, ?_⟩
    · rw [hs.paths, filterMap_append, filterMap_cons_none hpa]
      exact (append_nil _).symm
    · intro names hne hsla hsuf
      rw [hs.texts names hne hsla hsuf, filterMap_append, filterMap_cons_none hfi, filterMap_nil,
        append_nil]
  case case5 hki name rest hn _ _ hme text hte =>
    intro h
    cases h
    rw [Bool.and_eq_true, Bool.not_eq_true'] at hme
    refine ⟨hacc hki hn, hpat hn, ?_⟩
    intro names hne hsla hsuf
    exact hs.read hn hne hsla hsuf (beq_eq_false_iff_ne.mp hme.1) hte
  case case6 hki name rest hn _ _ hme =>
    intro h
    cases h
    refine ⟨hacc hki hn, hpat hn, ?_⟩
    intro names hne hsla hsuf
    refine hs.unread hn hne hsla hsuf fun hdir hend => hme ?_
    rw [Bool.and_eq_true, Bool.not_eq_true', Bool.or_eq_true]
    exact ⟨beq_eq_false_iff_ne.mpr hdir, .inr (isSuffixOf_iff_suffix.mpr hend)⟩
  all_goals exact nofun

/-- **WHAT THE LOOP HAS COLLECTED.** -/
theorem scan_spec [BundleCrates] (h : entries.foldlM scanEntry ⟨[], ∅⟩ = .ok seen) :
    Scanned entries seen := by
  induction entries using List.reverseRecOn generalizing seen with
  | nil =>
    cases h
    refine ⟨nofun, rfl, ?_⟩
    intro names _ _ _
    simp [Tree.fileAt]
  | append_singleton entries e ih =>
    rw [foldlM_append] at h
    obtain ⟨seen0, h0, h⟩ := Results.bind_eq_ok h
    obtain ⟨seen1, h1, h⟩ := Results.bind_eq_ok (foldlM_cons.symm.trans h)
    cases h
    exact scanEntry_spec (ih h0) h1

/-! ## The guessed root -/

section

variable (entries : List TarEntry)

/-- All entries that are not ignored lie at or below this name. -/
def OnlyTop (top : Name) : Prop :=
  ignoredTop top = false ∧ (∃ e ∈ entries, ∃ rest, e.names = some (top :: rest)) ∧
    ∀ e ∈ entries, ∀ name rest, e.names = some (name :: rest) → ignoredTop name = false → name = top

/-- Something lies below the name, or it is a directory entry. -/
def Nested (top : Name) : Prop :=
  ∃ e ∈ entries, ∃ rest, e.names = some (top :: rest) ∧ (rest ≠ [] ∨ e.kind = .directory)

/-- What `inspect` takes for the root. -/
def IsShownRoot : List Name → Prop
  | [] => ∀ top, OnlyTop entries top → ¬ Nested entries top
  | [top] => OnlyTop entries top ∧ Nested entries top
  | _ => False

/-- The root as the text in front of paths. -/
def rootText : List Name → List Char
  | [] => []
  | top :: _ => top ++ ['/']

end

theorem mem_shownPath {path : List Char} {isDir : Bool} :
    (path, isDir) ∈ entries.filterMap shownPath ↔
      ∃ e ∈ entries, ∃ names, e.names = some names ∧ names ≠ [] ∧ path = join names ∧
        isDir = (e.kind == .directory) := by
  rw [mem_filterMap]
  refine exists_congr fun e => and_congr_right fun _ => ?_
  rw [shownPath]
  cases hn : e.names with
  | none => simp
  | some names =>
    cases names with
    | nil => simp
    | cons name rest =>
      constructor
      · intro h
        cases h
        exact ⟨name :: rest, rfl, cons_ne_nil _ _, rfl, rfl⟩
      · rintro ⟨names, hnam, -, rfl, rfl⟩
        cases hnam
        rfl

theorem segments_names {names : List Name} (h : e.names = some names) (hne : names ≠ []) :
    segments (join names) = names :=
  segments_join hne fun n hn => (TarEntry.plain_names h n hn).2.2.2

theorem dedup_eq_singleton {l : List Name} {a : Name} : l.dedup = [a] ↔ a ∈ l ∧ ∀ b ∈ l, b = a := by
  constructor
  · intro h
    refine ⟨mem_dedup.mp (by rw [h]; exact mem_singleton_self _), ?_⟩
    intro b hb
    have hmem := mem_dedup.mpr hb
    rw [h] at hmem
    exact mem_singleton.mp hmem
  · rintro ⟨ha, hall⟩
    refine perm_singleton.mp ((perm_ext_iff_of_nodup (nodup_dedup l)
      (nodup_singleton a)).mpr fun b => ?_)
    rw [mem_dedup, mem_singleton]
    exact ⟨hall b, fun hb => hb ▸ ha⟩

theorem mem_tops {name : Name} :
    name ∈ ((entries.filterMap shownPath).filterMap fun p => (segments p.1).head?).filter
        (!ignoredTop ·) ↔
      ignoredTop name = false ∧ ∃ e ∈ entries, ∃ rest, e.names = some (name :: rest) := by
  rw [mem_filter, mem_filterMap, Bool.not_eq_true', and_comm]
  refine and_congr_right fun _ => ?_
  constructor
  · rintro ⟨⟨path, isDir⟩, hp, hhead⟩
    obtain ⟨e, he, names, hnam, hne, rfl, -⟩ := mem_shownPath.mp hp
    rw [segments_names hnam hne] at hhead
    obtain ⟨rest, rfl⟩ := List.head?_eq_some_iff.mp hhead
    exact ⟨e, he, rest, hnam⟩
  · rintro ⟨e, he, rest, hnam⟩
    refine ⟨(join (name :: rest), e.kind == .directory),
      mem_shownPath.mpr ⟨e, he, _, hnam, cons_ne_nil _ _, rfl, rfl⟩, ?_⟩
    rw [segments_names hnam (cons_ne_nil _ _)]
    rfl

theorem onlyTop_iff :
    (((entries.filterMap shownPath).filterMap fun p => (segments p.1).head?).filter
        (!ignoredTop ·)).dedup = [top] ↔ OnlyTop entries top := by
  rw [dedup_eq_singleton, mem_tops, OnlyTop, and_assoc]
  refine and_congr_right fun _ => and_congr_right fun _ => ?_
  constructor
  · intro h e he name rest hnam hna
    exact h name (mem_tops.mpr ⟨hna, e, he, rest, hnam⟩)
  · intro h name hmem
    obtain ⟨hna, e, he, rest, hnam⟩ := mem_tops.mp hmem
    exact h e he name rest hnam hna

theorem nested_iff (htop : '/' ∉ top) : ((entries.filterMap shownPath).any fun p =>
        (top ++ ['/']).isPrefixOf p.1 || (p.2 && p.1 == top)) = true ↔ Nested entries top := by
  rw [any_eq_true]
  constructor
  · rintro ⟨⟨path, isDir⟩, hp, hmatch⟩
    obtain ⟨e, he, names, hnam, hne, rfl, rfl⟩ := mem_shownPath.mp hp
    have hseg := segments_names hnam hne
    rw [Bool.or_eq_true, isPrefixOf_iff_prefix, Bool.and_eq_true, beq_iff_eq, beq_iff_eq] at hmatch
    dsimp only at hmatch
    rcases hmatch with ⟨rest, hre⟩ | ⟨hdir, hpa⟩
    · rw [← hre, append_assoc, singleton_append, segments_append, segments_of_not_mem htop] at hseg
      exact ⟨e, he, segments rest, by rw [hnam, ← hseg]; rfl, .inl (Path.segments_ne_nil rest)⟩
    · rw [hpa, segments_of_not_mem htop] at hseg
      exact ⟨e, he, [], by rw [hnam, ← hseg], .inr hdir⟩
  · rintro ⟨e, he, rest, hnam, hbel⟩
    refine ⟨(join (top :: rest), e.kind == .directory),
      mem_shownPath.mpr ⟨e, he, _, hnam, cons_ne_nil _ _, rfl, rfl⟩, ?_⟩
    rw [Bool.or_eq_true, isPrefixOf_iff_prefix, Bool.and_eq_true, beq_iff_eq, beq_iff_eq]
    have hsla : ∀ n ∈ top :: rest, '/' ∉ n := fun n hn => (TarEntry.plain_names hnam n hn).2.2.2
    by_cases hre : rest = []
    · refine .inr ⟨hbel.resolve_left fun h => h hre, ?_⟩
      rw [hre]
      exact (join_eq_iff (cons_ne_nil _ _) fun n hn => hsla n (hre ▸ hn)).mpr
        (segments_of_not_mem htop).symm
    · refine .inl ⟨join rest, ?_⟩
      refine ((join_eq_iff (cons_ne_nil _ _) hsla).mpr ?_).symm
      rw [append_assoc, singleton_append, segments_append, segments_of_not_mem htop,
        segments_join hre fun n hn => hsla n (mem_cons_of_mem _ hn)]
      rfl

/-- **WHICH ROOT IS GUESSED.** -/
theorem commonRoot_spec (entries : List TarEntry) :
    ∃ root, IsShownRoot entries root ∧ (∀ n ∈ root, '/' ∉ n) ∧
      commonRoot (entries.filterMap shownPath) = rootText root := by
  by_cases hro : ∃ top, OnlyTop entries top ∧ Nested entries top
  · obtain ⟨top, hon, hnes⟩ := hro
    obtain ⟨e, -, rest, hnam⟩ := hon.2.1
    have htop : '/' ∉ top := (TarEntry.plain_names hnam top mem_cons_self).2.2.2
    refine ⟨[top], ⟨hon, hnes⟩, ?_, ?_⟩
    · intro n hn
      rw [mem_singleton.mp hn]
      exact htop
    · rw [commonRoot, onlyTop_iff.mpr hon]
      exact if_pos ((nested_iff htop).mpr hnes)
  · refine ⟨[], fun top hon hnes => hro ⟨top, hon, hnes⟩, nofun, ?_⟩
    rw [commonRoot]
    split
    · rename_i top hto
      have hon := onlyTop_iff.mp hto
      obtain ⟨e, -, rest, hnam⟩ := hon.2.1
      have htop : '/' ∉ top := (TarEntry.plain_names hnam top mem_cons_self).2.2.2
      exact if_neg fun hany => hro ⟨top, hon, (nested_iff htop).mp hany⟩
    · rfl

/-! ## The migrations -/

/-- The directory the runtime manifest below the root declares, as far as `inspect` reads
it. -/
def declaredShown [BundleCrates] [Toml] (entries : List TarEntry) (root : List Name) :
    Option String :=
  ((Tree.fileAt (entries.filterMap shownFile) (root ++ runtimeNames)).bind metaText).bind
    parseMigrationsDir

/-- The archive has a file with this name, ending in `.sql`, whose path is the root, the
text of the directory and the name. -/
def Shown (entries : List TarEntry) (root : List Name) (dir : String) (name : Name) : Prop :=
  sqlSuffix <:+ name ∧ ∃ e ∈ entries, e.kind ≠ .directory ∧
    e.names = some (root ++ segments (trimSlashes dir.toList) ++ [name])

theorem segments_rootText (hro : IsShownRoot entries root) (hsla : ∀ n ∈ root, '/' ∉ n)
    (path : List Char) : segments (rootText root ++ path) = root ++ segments path := by
  match root, hro with
  | [], _ => rfl
  | [top], _ =>
    show segments (top ++ ['/'] ++ path) = _
    rw [append_assoc, singleton_append, segments_append,
      segments_of_not_mem (hsla top mem_cons_self)]

theorem mem_filesIn (hro : IsShownRoot entries root) (hsla : ∀ n ∈ root, '/' ∉ n)
    {dir file : String} : file ∈ filesIn (entries.filterMap shownPath)
        (rootText root ++ trimSlashes dir.toList ++ ['/']) ↔
      Shown entries root dir file.toList := by
  have hseg : ∀ name : Name, '/' ∉ name →
      segments (rootText root ++ trimSlashes dir.toList ++ ['/'] ++ name) =
        root ++ segments (trimSlashes dir.toList) ++ [name] := by
    intro name hna
    rw [append_assoc, singleton_append, segments_append,
      segments_of_not_mem hna, segments_rootText hro hsla]
  rw [filesIn, (perm_insertionSort _ _).mem_iff, mem_map]
  constructor
  · rintro ⟨name, hmem, rfl⟩
    obtain ⟨hstr, hsql⟩ := mem_filter.mp hmem
    rw [Bool.and_eq_true, decide_eq_true_eq, isSuffixOf_iff_suffix] at hsql
    obtain ⟨⟨path, isDir⟩, hp, hrest⟩ := mem_filterMap.mp hstr
    obtain ⟨hp, hdir⟩ := mem_filter.mp hp
    obtain ⟨e, he, names, hnam, hne, rfl, rfl⟩ := mem_shownPath.mp hp
    have hpa : join names = _ := Text.stripStart_eq_some.mp hrest
    rw [toList_ofList]
    refine ⟨hsql.2, e, he, ?_, ?_⟩
    · rw [Bool.not_eq_true'] at hdir
      exact beq_eq_false_iff_ne.mp hdir
    · rw [hnam, ← segments_names hnam hne, hpa, hseg name hsql.1]
  · rintro ⟨hsql, e, he, hki, hnam⟩
    have hne : root ++ segments (trimSlashes dir.toList) ++ [file.toList] ≠ [] := by
      simp
    have hna : '/' ∉ file.toList := (TarEntry.plain_names hnam file.toList (by simp)).2.2.2
    refine ⟨file.toList, mem_filter.mpr ⟨?_, ?_⟩, String.ofList_toList⟩
    · refine mem_filterMap.mpr ⟨(_, e.kind == .directory), mem_filter.mpr
        ⟨mem_shownPath.mpr ⟨e, he, _, hnam, hne, rfl, rfl⟩, ?_⟩, ?_⟩
      · rw [Bool.not_eq_true']
        exact beq_eq_false_iff_ne.mpr hki
      · rw [Text.stripStart_eq_some]
        exact (join_eq_iff hne fun n hn =>
          (TarEntry.plain_names hnam n hn).2.2.2).mpr (hseg _ hna).symm
    · rw [Bool.and_eq_true, decide_eq_true_eq, isSuffixOf_iff_suffix]
      exact ⟨hna, hsql⟩

/-- **WHAT AN ACCEPTED BUNDLE SHOWS.** -/
theorem mem_inspect_migrations [BundleCrates] [ArchiveCrates] [Toml] {bytes : Bytes}
    {info : BundleInfo} (h : inspect bytes = .ok info) :
    ∃ entries root, ArchiveCrates.entries bytes = (entries, none) ∧
      (∀ e ∈ entries, e.kind ≠ .other ∧ e.names ≠ none) ∧ IsShownRoot entries root ∧
      ∀ file, file ∈ info.migrations ↔
        ∃ dir, declaredShown entries root = some dir ∧ Shown entries root dir file.toList := by
  obtain ⟨entries, seen, hre, hsc, hde⟩ : ∃ entries seen,
      ArchiveCrates.entries bytes = (entries, none) ∧
      entries.foldlM scanEntry ⟨[], ∅⟩ = .ok seen ∧ describe seen = .ok info := by
    revert h
    fun_cases inspect bytes
    case case3 entries seen hsc hre => exact fun h => ⟨entries, seen, hre, hsc, h⟩
    all_goals exact nofun
  have hs := scan_spec hsc
  obtain ⟨root, hro, hsla, hte⟩ := commonRoot_spec entries
  refine ⟨entries, root, hre, hs.accepted, hro, ?_⟩
  have hnam : ∀ n ∈ root ++ runtimeNames, '/' ∉ n := by
    intro n hn
    rcases mem_append.mp hn with hn | hn
    · exact hsla n hn
    · have hall : ∀ n ∈ runtimeNames, '/' ∉ n := by decide
      exact hall n hn
  have hne : root ++ runtimeNames ≠ [] := by simp [runtimeNames]
  have hjo : join (root ++ runtimeNames) = rootText root ++ runtimePath := by
    refine (join_eq_iff hne hnam).mpr ?_
    rw [segments_rootText hro hsla]
    rfl
  have hdec : seen.texts[ofList (rootText root ++ runtimePath)]?.bind
      parseMigrationsDir = declaredShown entries root := by
    rw [declaredShown, ← hs.texts (root ++ runtimeNames) hne hnam
      (by rw [hjo]; exact suffix_append _ _), hjo]
  have hmig : info.migrations = match declaredShown entries root with
      | some dir => filesIn (entries.filterMap shownPath)
          (rootText root ++ trimSlashes dir.toList ++ ['/'])
      | none => [] := by
    rw [← hdec, ← hte, ← hs.paths]
    revert hde
    fun_cases describe seen
    case case2 => exact nofun
    all_goals
      intro hde
      rw [← Except.ok.inj hde]
  intro file
  rw [hmig]
  cases declaredShown entries root with
  | none => simp
  | some dir =>
    rw [mem_filesIn hro hsla]
    constructor
    · intro hsho
      exact ⟨dir, rfl, hsho⟩
    · rintro ⟨dir', hdir, hsho⟩
      cases hdir
      exact hsho

end Fenrir.Bundle
