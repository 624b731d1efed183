import Fenrir.Lib.Run
import Fenrir.Modules.Archive
import Fenrir.Modules.Version

/-! # The module storage

`infra/modules/storage.rs`: a verified bundle becomes the directory of its
module. The archive goes through a cache of archives by checksum; whatever
file stands there under the bundle's checksum is unpacked in place of the
bundle's own bytes.

Every step on the file system is answered from outside: done, failed, or cut
short by the end of the process, with what it leaves behind. -/

namespace Fenrir.Modules

open Effect Effect.Act FileTree

/-- The JSON texts the storage keeps, and the texts of three system errors. -/
class StorageCrates where
  manifestFromJson : Bytes → Except String ModuleManifest
  manifestToJson : ModuleManifest → Except String Bytes
  /-- `ModuleInstallMetadata`. -/
  sourceFromJson : Bytes → Except String ModuleInstallSource
  sourceToJson : ModuleInstallSource → Except String Bytes
  notADirectory : String
  isADirectory : String
  fileExists : String

structure FilesystemModuleStorage where
  installDir : String
  cacheDir : Option String

/-- The module directories by id, and the files of the cache directory by name. -/
structure Disk where
  modules : BTreeMap ModuleFiles
  cache : BTreeMap Bytes

def Disk.setDir (disk : Disk) (id : String) : Option ModuleFiles → Disk
  | none => { disk with modules := disk.modules.erase id }
  | some files => { disk with modules := disk.modules.insert id files }

@[simp] theorem Disk.setDir_get (disk : Disk) (id : String) (files : Option ModuleFiles) :
    (disk.setDir id files).modules[id]? = files := by
  cases files <;> simp [Disk.setDir]

@[simp] theorem Disk.setDir_cache (disk : Disk) (id : String) (files : Option ModuleFiles) :
    (disk.setDir id files).cache = disk.cache := by
  cases files <;> rfl

theorem Disk.setDir_setDir (disk : Disk) (id : String) (files files' : Option ModuleFiles) :
    (disk.setDir id files).setDir id files' = disk.setDir id files' := by
  have hext : ((disk.setDir id files).setDir id files').modules =
      (disk.setDir id files').modules := by
    refine Std.ExtTreeMap.ext_getElem? fun other => ?_
    cases files <;> cases files' <;>
      simp only [Disk.setDir, BTreeMap.get_insert, BTreeMap.get_erase] <;> grind
  cases files <;> cases files' <;> exact congrArg (Disk.mk · disk.cache) hext

/-! ## Answers of the file system -/

/-- A step on the module directory: done, or not, with what then stands there. -/
inductive DirAnswer where
  | done
  | failed (err : String) (left : Option ModuleFiles)
  | stopped (left : Option ModuleFiles)

/-- Writing a file of the cache; a write that fails or is cut short leaves no file or the
first bytes of it. -/
inductive CacheWrite where
  | done
  | failed (err : String) (left : Option Nat)
  | stopped (left : Option Nat)

structure StorageAnswers where
  /-- An error of reading the manifest, other than that it is missing. -/
  (readManifest readSource : Option String)
  (removeDir createDir : DirAnswer)
  cacheRead : Option String
  cacheWrite : CacheWrite
  unpack : DirAnswer
  /-- What an archive that cannot be unpacked leaves in the directory. -/
  unpackLeft : Option ModuleFiles
  (createMetadataDir writeManifest writeArtifact writeSignature writeChecksum : DirAnswer)
  (writeDownloadUrl writeInstallMetadata : DirAnswer)

/-- Why an activation did not return `Ok`: an error, or the end of the process. -/
inductive StorageStop where
  | error (err : ModuleStorageError)
  | interrupted

/-- A step on a module directory as the file system answers it. -/
def onDir (id : String) (answer : DirAnswer) (wrap : String → ModuleStorageError)
    (op : Option ModuleFiles → Except String (Option ModuleFiles)) : Act Disk StorageStop Unit :=
  fun disk =>
    match answer with
    | .done =>
      match op disk.modules[id]? with
      | .ok files => (.ok (), disk.setDir id files)
      | .error err => (.error (.error (wrap err)), disk)
    | .failed err left => (.error (.error (wrap err)), disk.setDir id left)
    | .stopped left => (.error .interrupted, disk.setDir id left)

/-! ## Names -/

def metadataDir : Name := ".fenrir-meta".toList

/-- `Path::join` with a relative path. -/
def joinPath (base name : String) : String :=
  if base.toList = [] ∨ base.toList.getLast? = some '/' then base ++ name
  else base ++ "/" ++ name

/-- `artifact_file_name`: the last segment of the download address. -/
def artifactFileName (manifest : ModuleManifest) : String :=
  match (Path.segments (Text.trim manifest.artifact.downloadUrl).toList).getLast? with
  | none | some [] => manifest.id ++ "-" ++ manifest.version.display ++ ".module"
  | some segment => String.ofList segment

/-- The files the storage itself writes, after the directory they are in. -/
def metadataPaths (manifest : ModuleManifest) : List (List Name) :=
  [metadataDir] :: ["manifest.json", artifactFileName manifest, "signature.bin", "checksum.bin",
    "download", "install.json"].map fun name => [metadataDir, name.toList]

def cacheName (checksum : Bytes) : String := hexEncode checksum ++ ".module.tgz"

theorem cacheName_injective {a b : Bytes} (h : cacheName a = cacheName b) : a = b := by
  have hhex : hexEncode a = hexEncode b := by
    have hli := congrArg String.toList h
    simp only [cacheName, String.toList_append] at hli
    exact String.toList_inj.mp (List.append_cancel_right hli)
  have hdec := congrArg hexDecode hhex
  rw [hexDecode_hexEncode, hexDecode_hexEncode] at hdec
  exact Option.some.inj hdec

/-! ## The cache -/

/-- `cache_archive_bytes`: a file with the name of the checksum is used as it is; a file
that cannot be written is only logged. -/
def cacheArchiveBytes (storage : FilesystemModuleStorage) (answers : StorageAnswers)
    (bundle : ModuleBundle) : Act Disk StorageStop Bytes := fun disk =>
  match storage.cacheDir, answers.cacheRead with
  | none, _ => (.ok bundle.archive, disk)
  | some _, some _ => (.ok bundle.archive, disk)
  | some _, none =>
    match disk.cache[cacheName bundle.checksum]? with
    | some bytes => (.ok bytes, disk)
    | none =>
      let leave (left : Option Nat) : Disk :=
        match left with
        | none => disk
        | some n =>
          { disk with
            cache := disk.cache.insert (cacheName bundle.checksum) (bundle.archive.take n) }
      match answers.cacheWrite with
      | .done =>
        (.ok bundle.archive,
          { disk with
            cache := disk.cache.insert (cacheName bundle.checksum) bundle.archive })
      | .failed _ left => (.ok bundle.archive, leave left)
      | .stopped left => (.error .interrupted, leave left)

/-- A file in the cache under this checksum is this archive. -/
def CacheHolds (checksum archive : Bytes) (disk : Disk) : Prop :=
  ∀ bytes, disk.cache[cacheName checksum]? = some bytes → bytes = archive

/-- If the write leaves a file in the cache, it is the whole archive. -/
def CacheWrite.Whole (archive : Bytes) : CacheWrite → Prop
  | .done => True
  | .failed _ left | .stopped left => ∀ n, left = some n → archive.length ≤ n

theorem cacheArchiveBytes_cache (storage : FilesystemModuleStorage) (answers : StorageAnswers)
    (bundle : ModuleBundle) (disk : Disk) :
    (cacheArchiveBytes storage answers bundle disk).2.cache = disk.cache ∨
      ∃ bytes, (cacheArchiveBytes storage answers bundle disk).2.cache =
          disk.cache.insert (cacheName bundle.checksum) bytes ∧
        (answers.cacheWrite.Whole bundle.archive → bytes = bundle.archive) := by
  rw [cacheArchiveBytes]
  cases storage.cacheDir with
  | none => exact .inl rfl
  | some dir =>
    cases answers.cacheRead with
    | some err => exact .inl rfl
    | none =>
      cases disk.cache[cacheName bundle.checksum]? with
      | some bytes => exact .inl rfl
      | none =>
        cases answers.cacheWrite with
        | done => exact .inr ⟨bundle.archive, rfl, fun _ => rfl⟩
        | failed err left | stopped left =>
          cases left with
          | none => exact .inl rfl
          | some n =>
            exact .inr ⟨_, rfl, fun h => List.take_of_length_le (h n rfl)⟩

variable {answers : StorageAnswers}

theorem cacheArchiveBytes_ok {storage : FilesystemModuleStorage} {bundle : ModuleBundle}
    {disk disk' : Disk} {bytes : Bytes}
    (h : cacheArchiveBytes storage answers bundle disk = (.ok bytes, disk')) :
    disk'.modules = disk.modules ∧
      (bytes = bundle.archive ∨ disk.cache[cacheName bundle.checksum]? = some bytes) := by
  revert h
  rw [cacheArchiveBytes]
  cases storage.cacheDir with
  | none =>
    intro h
    cases h
    exact ⟨rfl, .inl rfl⟩
  | some dir =>
    cases answers.cacheRead with
    | some err =>
      intro h
      cases h
      exact ⟨rfl, .inl rfl⟩
    | none =>
      cases disk.cache[cacheName bundle.checksum]? with
      | some cached =>
        intro h
        cases h
        exact ⟨rfl, .inr rfl⟩
      | none =>
        cases answers.cacheWrite with
        | done =>
          intro h
          cases h
          exact ⟨rfl, .inl rfl⟩
        | failed err left =>
          intro h
          cases h
          refine ⟨?_, .inl rfl⟩
          cases left <;> rfl
        | stopped left => exact nofun

def SameCache (disk disk' : Disk) : Prop := disk'.cache = disk.cache

theorem SameCache.refl (disk : Disk) : SameCache disk disk := rfl

theorem SameCache.trans (a b c : Disk) (hab : SameCache a b) (hbc : SameCache b c) :
    SameCache a c := Eq.trans hbc hab

theorem onDir_cache {id : String} {answer : DirAnswer} {wrap : String → ModuleStorageError}
    {op : Option ModuleFiles → Except String (Option ModuleFiles)} :
    Keeps SameCache (onDir id answer wrap op) := by
  intro disk
  cases answer with
  | done =>
    rw [onDir]
    cases op disk.modules[id]? with
    | ok files => exact disk.setDir_cache id files
    | error err => exact SameCache.refl disk
  | failed err left | stopped left => exact disk.setDir_cache id left

def prepareDir (answers : StorageAnswers) (id moduleDir : String) : Act Disk StorageStop Unit := do
  let present ← read fun disk => disk.modules[id]?.isSome
  when present (onDir id answers.removeDir
    (fun err => .io ("cannot clean existing module directory " ++ moduleDir ++ ": " ++ err))
    fun _ => .ok none)
  onDir id answers.createDir
    (fun err => .io ("cannot prepare module directory " ++ moduleDir ++ ": " ++ err))
    fun _ => .ok (some .empty)

theorem prepareDir_cache {id moduleDir : String} :
    Keeps SameCache (prepareDir answers id moduleDir) := by
  refine keeps_bind SameCache.trans (keeps_read SameCache.refl _) fun present => ?_
  refine keeps_bind SameCache.trans (keeps_when SameCache.refl _ onDir_cache) fun _ => ?_
  exact onDir_cache

/-! ## Activating a bundle -/

section

variable [Semver] [ArchiveCrates] [StorageCrates]

section

variable (answers : StorageAnswers)

/-- Reading a file of the metadata directory; `error none` when it is missing. -/
def readMetadata (files : Option ModuleFiles) (name : String) : Except (Option String) Bytes :=
  match files with
  | none => .error none
  | some t =>
    match t.get [metadataDir] with
    | none => .error none
    | some (.file _) => .error (some StorageCrates.notADirectory)
    | some .dir =>
      match t.get [metadataDir, name.toList] with
      | none => .error none
      | some .dir => .error (some StorageCrates.isADirectory)
      | some (.file bytes) => .ok bytes

/-- `read_install_source`: anything unreadable counts as the distribution. -/
def readInstallSource (files : Option ModuleFiles) : ModuleInstallSource :=
  match answers.readSource with
  | some _ => .distribution
  | none =>
    match readMetadata files "install.json" with
    | .error _ => .distribution
    | .ok bytes =>
      match StorageCrates.sourceFromJson bytes with
      | .ok source => source
      | .error _ => .distribution

def readInstalled (storage : FilesystemModuleStorage) (answers : StorageAnswers) (disk : Disk)
    (id : String) : Except ModuleStorageError (Option InstalledModule) :=
  let moduleDir := joinPath storage.installDir id
  let manifestPath := moduleDir ++ "/.fenrir-meta/manifest.json"
  let read : Except (Option String) Bytes := match answers.readManifest with
    | some err => .error (some err)
    | none => readMetadata disk.modules[id]? "manifest.json"
  match read with
  | .error none => .ok none
  | .error (some err) => .error (.io ("cannot read manifest " ++ manifestPath ++ ": " ++ err))
  | .ok bytes =>
    match StorageCrates.manifestFromJson bytes with
    | .error err =>
      .error (.invalidState ("failed to parse manifest " ++ manifestPath ++ ": " ++ err))
    | .ok manifest =>
      .ok (some
        { manifest
          path := moduleDir
          source := readInstallSource answers disk.modules[id]? })

/-- `extract_module_archive` into the directory that was just created. -/
def extractInto (id moduleDir : String) (bytes : Bytes) : Act Disk StorageStop Unit := do
  match extractModuleArchive moduleDir bytes with
  | .error err =>
    modify fun disk => disk.setDir id answers.unpackLeft
    fail (.error err)
  | .ok files =>
    onDir id answers.unpack (fun err => .io (unpackFailed moduleDir err))
      fun _ => .ok (some files)

/-- `fs::write` below the metadata directory. -/
def writeMetadataFile (id name : String) (content : Bytes) (answer : DirAnswer)
    (wrap : String → ModuleStorageError) : Act Disk StorageStop Unit :=
  onDir id answer wrap fun files =>
    -- a download address may end in `.` or `..`, which are directories
    if Path.Plain name.toList then
      match files.bind fun t => t.writeFile [metadataDir] name.toList content with
      | some t => .ok (some t)
      | none => .error StorageCrates.isADirectory
    else .error StorageCrates.isADirectory

/-- What `stage_and_activate` writes beside the extracted archive. -/
def writeMetadata (id moduleDir : String) (bundle : ModuleBundle)
    (source : ModuleInstallSource) (archive : Bytes) : Act Disk StorageStop Unit := do
  let metadata := moduleDir ++ "/.fenrir-meta"
  let artifact := artifactFileName bundle.manifest
  onDir id answers.createMetadataDir
    (fun err => .io ("cannot prepare metadata directory " ++ metadata ++ ": " ++ err))
    fun files =>
      match files.bind fun t => t.mkdir [] metadataDir with
      | some t => .ok (some t)
      | none => .error StorageCrates.fileExists
  let manifestBytes ← lift ((StorageCrates.manifestToJson bundle.manifest).mapError fun err =>
    .error (.invalidState ("failed to encode manifest for " ++ bundle.manifest.id ++ ": " ++ err)))
  writeMetadataFile id "manifest.json" manifestBytes answers.writeManifest
    fun err => .io ("cannot write manifest " ++ metadata ++ "/manifest.json: " ++ err)
  writeMetadataFile id artifact archive answers.writeArtifact
    fun err => .io ("cannot write artifact " ++ joinPath metadata artifact ++ ": " ++ err)
  writeMetadataFile id "signature.bin" bundle.signature answers.writeSignature
    fun err => .io ("cannot write signature for " ++ id ++ ": " ++ err)
  writeMetadataFile id "checksum.bin" bundle.checksum answers.writeChecksum
    fun err => .io ("cannot write checksum for " ++ id ++ ": " ++ err)
  writeMetadataFile id "download" (Text.utf8 bundle.manifest.artifact.downloadUrl)
    answers.writeDownloadUrl
    fun err => .io ("cannot write download URL for " ++ id ++ ": " ++ err)
  let metadataBytes ← lift ((StorageCrates.sourceToJson source).mapError fun err =>
    .error (.invalidState ("failed to encode install metadata for " ++ id ++ ": " ++ err)))
  writeMetadataFile id "install.json" metadataBytes answers.writeInstallMetadata
    fun err => .io ("cannot write install metadata " ++ metadata ++ "/install.json: " ++ err)

/-- An installed module that is newer than the bundle stays. -/
def checkInstalled (current : Option InstalledModule) (version : SemVersion) :
    Except StorageStop Unit :=
  match current with
  | none => .ok ()
  | some installed =>
    if compareVersions installed.manifest.version version = .gt then
      .error (.error (.invalidState ("installed version " ++ installed.manifest.version.display
        ++ " newer than requested " ++ version.display)))
    else .ok ()

def installStatus (current : Option InstalledModule) (version : SemVersion) : ModuleInstallStatus :=
  match current with
  | none => .installed
  | some installed =>
    if installed.manifest.version = version then .alreadyCurrent else .updated

def stageAndActivate (storage : FilesystemModuleStorage) (answers : StorageAnswers)
    (bundle : ModuleBundle) (source : ModuleInstallSource) :
    Act Disk StorageStop ModuleInstallResult := do
  let id ← lift ((moduleId bundle.manifest.id).mapError fun err => .error (.invalidState err))
  let installed ← read fun disk => readInstalled storage answers disk id
  let current ← lift (installed.mapError .error)
  lift (checkInstalled current bundle.manifest.version)
  let moduleDir := joinPath storage.installDir id
  prepareDir answers id moduleDir
  let archive ← cacheArchiveBytes storage answers bundle
  extractInto answers id moduleDir archive
  writeMetadata answers id moduleDir bundle source archive
  pure
    { status := installStatus current bundle.manifest.version
      manifest := bundle.manifest
      path := moduleDir
      source }

end

variable {answers : StorageAnswers} {moduleDir : String} {archive bytes : Bytes}
  {bundle : ModuleBundle} {source : ModuleInstallSource} {answer : DirAnswer} {disk disk' : Disk}
  {u : Unit} {apart : List (List Name)} {files : ModuleFiles}

omit [Semver] [StorageCrates] in
theorem extractInto_cache {id : String} :
    Keeps SameCache (extractInto answers id moduleDir bytes) := by
  rw [extractInto]
  cases extractModuleArchive moduleDir bytes with
  | ok files => exact onDir_cache
  | error err => exact fun disk => disk.setDir_cache id answers.unpackLeft

omit [Semver] [ArchiveCrates] in
theorem writeMetadata_cache {id : String} :
    Keeps SameCache (writeMetadata answers id moduleDir bundle source archive) := by
  refine keeps_bind SameCache.trans onDir_cache fun _ => ?_
  refine keeps_bind SameCache.trans (keeps_lift SameCache.refl _) fun manifestBytes => ?_
  iterate 5 refine keeps_bind SameCache.trans onDir_cache fun _ => ?_
  refine keeps_bind SameCache.trans (keeps_lift SameCache.refl _) fun metadataBytes => ?_
  exact onDir_cache

/-- **ONE ACTIVATION AND THE CACHE**: an activation with another checksum, or with the
same archive and no part of a file left behind, keeps what the cache holds. -/
theorem stageAndActivate_cache (storage : FilesystemModuleStorage) (answers : StorageAnswers)
    (bundle : ModuleBundle) (source : ModuleInstallSource) {checksum : Bytes}
    (h : bundle.checksum = checksum →
      bundle.archive = archive ∧ answers.cacheWrite.Whole bundle.archive) :
    Keeps (fun disk disk' => CacheHolds checksum archive disk → CacheHolds checksum archive disk')
      (stageAndActivate storage answers bundle source) := by
  have hre : ∀ disk : Disk, CacheHolds checksum archive disk → CacheHolds checksum archive disk :=
    fun _ hd => hd
  have htra : ∀ a b c : Disk, (CacheHolds checksum archive a → CacheHolds checksum archive b) →
      (CacheHolds checksum archive b → CacheHolds checksum archive c) →
      CacheHolds checksum archive a → CacheHolds checksum archive c :=
    fun _ _ _ hab hbc ha => hbc (hab ha)
  have hsa : ∀ {α : Type} {x : Act Disk StorageStop α}, Keeps SameCache x → Keeps (fun disk disk' =>
        CacheHolds checksum archive disk → CacheHolds checksum archive disk') x := by
    intro α x hx disk hd
    rw [CacheHolds, hx disk]
    exact hd
  refine keeps_bind htra (keeps_lift hre _) fun id => ?_
  refine keeps_bind htra (keeps_read hre _) fun installed => ?_
  refine keeps_bind htra (keeps_lift hre _) fun cur => ?_
  refine keeps_bind htra (keeps_lift hre _) fun _ => ?_
  refine keeps_bind htra (hsa prepareDir_cache) fun _ => ?_
  refine keeps_bind htra ?_ fun bytes => ?_
  · intro disk hd
    rcases cacheArchiveBytes_cache storage answers bundle disk with hc | ⟨bytes, hc, hwho⟩
    · rw [CacheHolds, hc]
      exact hd
    · rw [CacheHolds, hc]
      intro bytes' hget
      rw [BTreeMap.get_insert] at hget
      split at hget
      · rename_i hna
        obtain ⟨harc, hw⟩ := h (cacheName_injective hna)
        cases hget
        rw [hwho hw, harc]
      · exact hd bytes' hget
  · refine keeps_bind htra (hsa extractInto_cache) fun _ => ?_
    refine keeps_bind htra (hsa writeMetadata_cache) fun _ => ?_
    exact keeps_pure hre _

/-! ## What an activation installs -/

/-- The module directory holds these files, apart from some paths. -/
def HoldsApart (id : String) (apart : List (List Name)) (files : ModuleFiles) (disk : Disk) :
    Prop :=
  ∃ installed, disk.modules[id]? = some installed ∧ ∀ p, p ∉ apart → installed.get p = files.get p

omit [Semver] [ArchiveCrates] [StorageCrates] in
theorem onDir_ok {id : String} {wrap : String → ModuleStorageError}
    {op : Option ModuleFiles → Except String (Option ModuleFiles)}
    (h : onDir id answer wrap op disk = (.ok u, disk')) :
    ∃ files, op disk.modules[id]? = .ok files ∧ disk' = disk.setDir id files := by
  cases answer with
  | done =>
    rw [onDir] at h
    cases hop : op disk.modules[id]? with
    | ok files =>
      rw [hop] at h
      exact ⟨files, rfl, (Prod.mk.inj h).2.symm⟩
    | error err =>
      rw [hop] at h
      cases h
  | failed err left | stopped left => cases h

omit [Semver] [ArchiveCrates] [StorageCrates] in
theorem onDir_holdsApart {id : String} {wrap : String → ModuleStorageError}
    {op : Option ModuleFiles → Except String (Option ModuleFiles)} (path : List Name)
    (hpa : path ∈ apart) (hop : ∀ t left, op (some t) = .ok left →
      ∃ t', left = some t' ∧ ∀ p, p ≠ path → t'.get p = t.get p) :
    Preserves (HoldsApart id apart files) (onDir id answer wrap op) := by
  rintro disk u disk' ⟨installed, hget, hsa⟩ h
  obtain ⟨left, hle, rfl⟩ := onDir_ok h
  rw [hget] at hle
  obtain ⟨t', rfl, hoth⟩ := hop installed left hle
  refine ⟨t', Disk.setDir_get .., ?_⟩
  intro p hp
  rw [hoth p fun hpp => hp (hpp ▸ hpa)]
  exact hsa p hp

omit [Semver] [ArchiveCrates] in
theorem writeMetadataFile_holdsApart {id name : String} {cont : Bytes}
    {wrap : String → ModuleStorageError} (hpa : [metadataDir, name.toList] ∈ apart) :
    Preserves (HoldsApart id apart files) (writeMetadataFile id name cont answer wrap) := by
  refine onDir_holdsApart _ hpa ?_
  intro t left hle
  rw [Option.bind_some] at hle
  split at hle
  · cases hw : t.writeFile [metadataDir] name.toList cont with
    | none =>
      rw [hw] at hle
      cases hle
    | some t' =>
      rw [hw] at hle
      refine ⟨t', (Except.ok.inj hle).symm, ?_⟩
      intro p hp
      rw [(Tree.writeFile_spec hw).2.2]
      exact if_neg hp
  · cases hle

omit [Semver] [ArchiveCrates] in
theorem writeMetadata_holdsApart {id : String} :
    Preserves (HoldsApart id (metadataPaths bundle.manifest) files)
      (writeMetadata answers id moduleDir bundle source archive) := by
  have hmem : ∀ name ∈ ["manifest.json", artifactFileName bundle.manifest, "signature.bin",
      "checksum.bin", "download", "install.json"],
      [metadataDir, name.toList] ∈ metadataPaths bundle.manifest :=
    fun name hna => List.mem_cons_of_mem _ (List.mem_map.mpr ⟨name, hna, rfl⟩)
  refine preserves_bind ?_ fun _ => ?_
  · refine onDir_holdsApart [metadataDir] List.mem_cons_self ?_
    intro t left hle
    rw [Option.bind_some] at hle
    cases hd : t.mkdir [] metadataDir with
    | none =>
      rw [hd] at hle
      cases hle
    | some t' =>
      rw [hd] at hle
      refine ⟨t', (Except.ok.inj hle).symm, ?_⟩
      intro p hp
      rw [(Tree.mkdir_spec hd).2.2]
      exact if_neg hp
  refine preserves_bind (preserves_lift _) fun manifestBytes => ?_
  iterate 5 refine preserves_bind (writeMetadataFile_holdsApart (hmem _ (by simp))) fun _ => ?_
  refine preserves_bind (preserves_lift _) fun metadataBytes => ?_
  exact writeMetadataFile_holdsApart (hmem _ (by simp))

omit [Semver] [StorageCrates] in
theorem extractInto_ok {id : String}
    (h : extractInto answers id moduleDir bytes disk = (.ok u, disk')) :
    ∃ files, extractModuleArchive moduleDir bytes = .ok files ∧
      disk'.modules[id]? = some files := by
  rw [extractInto] at h
  cases he : extractModuleArchive moduleDir bytes with
  | error err =>
    rw [he] at h
    cases h
  | ok files =>
    rw [he] at h
    obtain ⟨left, hle, rfl⟩ := onDir_ok h
    refine ⟨files, rfl, ?_⟩
    rw [Disk.setDir_get, ← Except.ok.inj hle]

/-- **WHAT AN ACTIVATION THAT RETURNS HAS INSTALLED**: the extraction of the bytes the
cache step returned, and its own metadata. -/
theorem stageAndActivate_ok {storage : FilesystemModuleStorage} {result : ModuleInstallResult}
    (h : stageAndActivate storage answers bundle source disk = (.ok result, disk')) :
    ∃ id archive files, moduleId bundle.manifest.id = .ok id ∧
      (archive = bundle.archive ∨ disk.cache[cacheName bundle.checksum]? = some archive) ∧
      extractModuleArchive result.path archive = .ok files ∧
      HoldsApart id (metadataPaths bundle.manifest) files disk' := by
  obtain ⟨id, disk1, hid, h⟩ := bind_ok_iff.mp h
  obtain ⟨installed, disk2, hre, h⟩ := bind_ok_iff.mp h
  obtain ⟨cur, disk3, hcur, h⟩ := bind_ok_iff.mp h
  obtain ⟨_, disk4, hche, h⟩ := bind_ok_iff.mp h
  obtain ⟨_, disk5, hpre, h⟩ := bind_ok_iff.mp h
  obtain ⟨archive, disk6, hcac, h⟩ := bind_ok_iff.mp h
  obtain ⟨_, disk7, hext, h⟩ := bind_ok_iff.mp h
  obtain ⟨_, disk8, hme, h⟩ := bind_ok_iff.mp h
  -- up to the cache step nothing but the module directory changes
  have hfro : disk5.cache = disk.cache := by
    have hsa : disk5.cache = disk4.cache := prepareDir_cache.ok hpre
    rw [hsa, ← (Prod.mk.inj hche).2, ← (Prod.mk.inj hcur).2, ← (Prod.mk.inj hre).2,
      ← (Prod.mk.inj hid).2]
  cases h
  obtain ⟨files, hfil, hget⟩ := extractInto_ok hext
  refine ⟨id, archive, files, ?_, ?_, hfil, ?_⟩
  · exact Results.mapError_ok (Prod.mk.inj hid).1
  · rw [← hfro]
    exact (cacheArchiveBytes_ok hcac).2
  · exact writeMetadata_holdsApart _ _ _ ⟨files, hget, fun _ _ => rfl⟩ hme

/-! ## Over all earlier activations -/

/-- A call of `stage_and_activate` and what the file system answers. -/
structure Activation where
  bundle : ModuleBundle
  source : ModuleInstallSource
  answers : StorageAnswers

/-- The disk after an activation, however it ended. -/
def activate (storage : FilesystemModuleStorage) (disk : Disk) (a : Activation) : Disk :=
  (stageAndActivate storage a.answers a.bundle a.source disk).2

/-- **WHAT IS INSTALLED**: from an empty cache, after any activations of which those with
the bundle's checksum had the bundle's archive and left no part of a file in the
cache, an activation that returns has installed the bundle's own archive. -/
theorem installed_archive (storage : FilesystemModuleStorage) {disk disk' : Disk}
    (hempty : disk.cache = ∅) {earlier : List Activation} {bundle : ModuleBundle}
    {source : ModuleInstallSource} {answers : StorageAnswers} {result : ModuleInstallResult}
    (hearlier : ∀ a ∈ earlier, a.bundle.checksum = bundle.checksum →
      a.bundle.archive = bundle.archive ∧ a.answers.cacheWrite.Whole a.bundle.archive)
    (hok : stageAndActivate storage answers bundle source
      (Run.run (activate storage) disk earlier) = (.ok result, disk')) :
    ∃ id files installed, moduleId bundle.manifest.id = .ok id ∧
      extractModuleArchive result.path bundle.archive = .ok files ∧
      disk'.modules[id]? = some installed ∧
      ∀ p, p ∉ metadataPaths bundle.manifest → installed.get p = files.get p := by
  have hhol : CacheHolds bundle.checksum bundle.archive
      (Run.run (activate storage) disk earlier) := by
    refine Run.invariant ?_ ?_ (Run.along_of_forall hearlier)
    · intro d a hd ha
      exact stageAndActivate_cache storage a.answers a.bundle a.source ha d hd
    · intro bytes hget
      rw [hempty] at hget
      simp at hget
  obtain ⟨id, archive, files, hid, harc, hfil, installed, hget, hsa⟩ := stageAndActivate_ok hok
  have hown : archive = bundle.archive := harc.elim (fun h => h) (hhol archive)
  rw [hown] at hfil
  exact ⟨id, files, installed, hid, hfil, hget, hsa⟩

/-! ## Failed activations -/

/-- The checks that come before the first change: the id, and what is installed. -/
def Admitted (storage : FilesystemModuleStorage) (answers : StorageAnswers)
    (bundle : ModuleBundle) (disk : Disk) (id : String) (current : Option InstalledModule) : Prop :=
  moduleId bundle.manifest.id = .ok id ∧ readInstalled storage answers disk id = .ok current ∧
    checkInstalled current bundle.manifest.version = .ok ()

def replaceFiles (storage : FilesystemModuleStorage) (answers : StorageAnswers)
    (bundle : ModuleBundle) (source : ModuleInstallSource) (id : String) :
    Act Disk StorageStop Unit := do
  let moduleDir := joinPath storage.installDir id
  prepareDir answers id moduleDir
  let archive ← cacheArchiveBytes storage answers bundle
  extractInto answers id moduleDir archive
  writeMetadata answers id moduleDir bundle source archive

variable {storage : FilesystemModuleStorage} {id : String} {stop : StorageStop}

omit [Semver] [ArchiveCrates] in
theorem readInstalled_stored {manifest : ModuleManifest} (hans : answers.readManifest = none)
    (hsto : readMetadata disk.modules[id]? "manifest.json" = .ok bytes)
    (hpar : StorageCrates.manifestFromJson bytes = .ok manifest) :
    readInstalled storage answers disk id = .ok (some ⟨manifest, joinPath storage.installDir id,
      readInstallSource answers disk.modules[id]?⟩) := by
  simp only [readInstalled, hans, hsto, hpar]

theorem stageAndActivate_error_iff {cur : Option InstalledModule}
    (h : Admitted storage answers bundle disk id cur) :
    stageAndActivate storage answers bundle source disk = (.error stop, disk') ↔
      replaceFiles storage answers bundle source id disk = (.error stop, disk') := by
  obtain ⟨hid, hre, hche⟩ := h
  rw [stageAndActivate, lift_bind_ok (by rw [hid]; rfl), bind_of_ok (read_run ..),
    lift_bind_ok (by rw [hre]; rfl), lift_bind_ok hche]
  -- the result that is put together at the end is the only difference
  simp [replaceFiles, bind_error_iff]

theorem stageAndActivate_refused (h : ∀ id cur, ¬ Admitted storage answers bundle disk id cur) :
    (stageAndActivate storage answers bundle source disk).2 = disk := by
  cases hid : moduleId bundle.manifest.id with
  | error err => rw [stageAndActivate, lift_bind_error (by rw [hid]; rfl)]
  | ok id =>
    cases hre : readInstalled storage answers disk id with
    | error err =>
      rw [stageAndActivate, lift_bind_ok (by rw [hid]; rfl), bind_of_ok (read_run ..),
        lift_bind_error (by rw [hre]; rfl)]
    | ok cur =>
      cases hche : checkInstalled cur bundle.manifest.version with
      | error stop =>
        rw [stageAndActivate, lift_bind_ok (by rw [hid]; rfl), bind_of_ok (read_run ..),
          lift_bind_ok (by rw [hre]; rfl), lift_bind_error hche]
      | ok u => exact absurd ⟨hid, hre, hche⟩ (h id cur)

omit [Semver] in
theorem replaceFiles_forgets (hrem : answers.removeDir = .done) (old other : ModuleFiles) :
    replaceFiles storage answers bundle source id (disk.setDir id (some old)) =
      replaceFiles storage answers bundle source id (disk.setDir id (some other)) := by
  have hpre : ∀ moduleDir (files : ModuleFiles),
      prepareDir answers id moduleDir (disk.setDir id (some files)) = onDir id answers.createDir
          (fun err => .io ("cannot prepare module directory " ++ moduleDir ++ ": " ++ err))
          (fun _ => .ok (some .empty)) (disk.setDir id none) := by
    intro moduleDir files
    rw [prepareDir, bind_of_ok (read_run ..), Disk.setDir_get, hrem]
    rw [bind_of_ok (by rw [when]; exact rfl)]
    rw [Disk.setDir_setDir]
  rw [replaceFiles, bind_run, bind_run, hpre, hpre]

/-- **A FAILED ACTIVATION.** A call that fails a check leaves the disk as it was. A call that
fails after the removal leaves nothing of the installed module: whatever other files had
been there, the call would have ended in the same error and on the same disk. -/
theorem stageAndActivate_failed (storage : FilesystemModuleStorage) (answers : StorageAnswers)
    (bundle : ModuleBundle) (source : ModuleInstallSource) (disk : Disk) :
    ((∀ id current, ¬ Admitted storage answers bundle disk id current) →
      (stageAndActivate storage answers bundle source disk).2 = disk) ∧
    ∀ id current, Admitted storage answers bundle disk id current → answers.removeDir = .done →
      ∀ old other : ModuleFiles, disk.modules[id]? = some old →
      ∀ current', Admitted storage answers bundle (disk.setDir id (some other)) id current' →
      ∀ stop disk', stageAndActivate storage answers bundle source disk = (.error stop, disk') →
        stageAndActivate storage answers bundle source (disk.setDir id (some other)) =
          (.error stop, disk') := by
  refine ⟨stageAndActivate_refused, ?_⟩
  intro id current hadm hrem old other hold current' had' stop disk' hfai
  rw [stageAndActivate_error_iff hadm] at hfai
  rw [stageAndActivate_error_iff had', ← hfai, replaceFiles_forgets hrem other old]
  have hsa : disk.setDir id (some old) = disk := by
    refine congrArg (Disk.mk · disk.cache) (Std.ExtTreeMap.ext_getElem? fun k => ?_)
    rw [BTreeMap.get_insert]
    split
    · next hk => rw [← hk, hold]
    · rfl
  rw [hsa]

end

/-! ### Two archives under one checksum -/

/-- A gzip tar archive with the empty file `one`. -/
def archiveOne : Bytes :=
  [31, 139, 8, 0, 0, 0, 0, 0, 2, 3, 203, 207, 75, 101, 160, 53, 48, 0, 2, 51, 19, 19, 48, 13,
    4, 232, 52, 22, 182, 153, 137, 177, 57, 131, 130, 1, 3, 29, 64, 105, 113, 73, 98, 17, 208,
    74, 134, 81, 48, 10, 70, 193, 40, 24, 89, 0, 0, 129, 159, 5, 118, 0, 6, 0, 0]

/-- The same with the file `two`. -/
def archiveTwo : Bytes :=
  [31, 139, 8, 0, 0, 0, 0, 0, 2, 3, 43, 41, 207, 103, 160, 53, 48, 0, 2, 51, 19, 19, 48, 13,
    4, 232, 52, 22, 182, 153, 137, 153, 57, 131, 130, 1, 3, 29, 64, 105, 113, 73, 98, 17, 208,
    74, 134, 81, 48, 10, 70, 193, 40, 24, 89, 0, 0, 160, 103, 177, 151, 0, 6, 0, 0]

abbrev sampleArchives : ArchiveCrates :=
  .ofEntries fun bytes =>
    if bytes = archiveOne then ([⟨.regular, true, "one".toList, []⟩], none)
    else if bytes = archiveTwo then ([⟨.regular, true, "two".toList, []⟩], none)
    else ([], some "invalid gzip header")

def bareManifest (id : String) : ModuleManifest where
  id := id
  version := ⟨1, 0, 0, "", ""⟩
  title := none
  description := none
  fenrirVersion := none
  authors := []
  license := none
  artifact :=
    { downloadUrl := "", checksum := ⟨.sha256, ""⟩, contentType := none, sizeBytes := none }
  signature := { algorithm := .ed25519, keyId := "", signature := "" }
  dependencies := []
  tags := []
  publishedAt := none

/-- Such a manifest as `serde_json` writes it. -/
def bareManifestJson (id : String) : Bytes :=
  Text.utf8 (String.intercalate "\n" ["\x7b", "  \"id\": \"" ++ id ++ "\",",
    "  \"version\": \"1.0.0\",", "  \"title\": null,", "  \"description\": null,",
    "  \"fenrir_version\": null,", "  \"authors\": [],", "  \"license\": null,",
    "  \"artifact\": \x7b", "    \"download_url\": \"\",", "    \"checksum\": \x7b",
    "      \"algorithm\": \"sha256\",", "      \"hash\": \"\"", "    \x7d,",
    "    \"content_type\": null,", "    \"size_bytes\": null", "  \x7d,",
    "  \"signature\": \x7b", "    \"algorithm\": \"ed25519\",", "    \"key_id\": \"\",",
    "    \"signature\": \"\"", "  \x7d,", "  \"dependencies\": [],", "  \"tags\": [],",
    "  \"published_at\": null", "\x7d"])

/-- The JSON of the manifests of `notes` and `tasks` and of the install metadata. -/
abbrev sampleStorageCrates : StorageCrates where
  manifestFromJson := fun bytes =>
    if bytes = bareManifestJson "notes" then .ok (bareManifest "notes")
    else if bytes = bareManifestJson "tasks" then .ok (bareManifest "tasks")
    else .error "expected value at line 1 column 1"
  manifestToJson := fun manifest => .ok (bareManifestJson manifest.id)
  sourceFromJson := fun bytes =>
    if bytes = Text.utf8 "\x7b\n  \"source\": \"distribution\"\n\x7d" then .ok .distribution
    else if bytes = Text.utf8 "\x7b\n  \"source\": \"local_override\"\n\x7d" then
      .ok .localOverride
    else .error "expected value at line 1 column 1"
  sourceToJson := fun
    | .distribution => .ok (Text.utf8 "\x7b\n  \"source\": \"distribution\"\n\x7d")
    | .localOverride => .ok (Text.utf8 "\x7b\n  \"source\": \"local_override\"\n\x7d")
  notADirectory := "Not a directory (os error 20)"
  isADirectory := "Is a directory (os error 21)"
  fileExists := "File exists (os error 17)"

/-- Neither tags nor metadata in the versions. -/
abbrev sampleSemverOrder : Semver where
  comparePre := fun _ _ => .eq
  compareBuild := fun _ _ => .eq

def allDone : StorageAnswers where
  readManifest := none
  readSource := none
  removeDir := .done
  createDir := .done
  cacheRead := none
  cacheWrite := .done
  unpack := .done
  unpackLeft := none
  createMetadataDir := .done
  writeManifest := .done
  writeArtifact := .done
  writeSignature := .done
  writeChecksum := .done
  writeDownloadUrl := .done
  writeInstallMetadata := .done

def sampleStorage : FilesystemModuleStorage := ⟨"modules", some "cache"⟩

/-- As in the tests of the storage, the checksum is the text of the version. -/
def bareBundle (id : String) (archive : Bytes) : ModuleBundle where
  manifest := bareManifest id
  archive := archive
  signature := []
  checksum := Text.utf8 "1.0.0"

def Disk.hasFile (disk : Disk) (id name : String) : Bool :=
  match disk.modules[id]? with
  | some files => (files.get [name.toList]).isSome
  | none => false

/-- The witness: `tasks` has the archive of `notes` and is installed from the cache. -/
theorem installed_archive_tasks :
    let _ := sampleArchives
    let _ := sampleStorageCrates
    let _ := sampleSemverOrder
    let notes := bareBundle "notes" archiveOne
    let tasks := bareBundle "tasks" archiveOne
    ∃ result disk', stageAndActivate sampleStorage allDone tasks .distribution
        (Run.run (activate sampleStorage) ⟨∅, ∅⟩ [⟨notes, .distribution, allDone⟩]) =
          (.ok result, disk') ∧
      ∃ id files installed, moduleId tasks.manifest.id = .ok id ∧
        extractModuleArchive result.path archiveOne = .ok files ∧
        disk'.modules[id]? = some installed ∧
        ∀ p, p ∉ metadataPaths tasks.manifest → installed.get p = files.get p := by
  intro _ _ _ notes tasks
  have hok : (stageAndActivate sampleStorage allDone tasks .distribution
      (Run.run (activate sampleStorage) ⟨∅, ∅⟩ [⟨notes, .distribution, allDone⟩])).1.isOk = true := by
    decide +kernel
  have hear : ∀ a ∈ ([⟨notes, .distribution, allDone⟩] : List Activation),
      a.bundle.checksum = tasks.checksum →
        a.bundle.archive = tasks.archive ∧ a.answers.cacheWrite.Whole a.bundle.archive := by
    intro a ha _
    rw [List.mem_singleton.mp ha]
    exact ⟨rfl, trivial⟩
  obtain ⟨result, disk', hrun⟩ := ok_of_isOk hok
  have hemp : (⟨∅, ∅⟩ : Disk).cache = ∅ := rfl
  exact ⟨result, disk', hrun, installed_archive sampleStorage hemp hear hrun⟩

/-- The counterexample: `notes` and then `tasks` are activated with different archives
under one checksum; `tasks` is installed from the archive of `notes`. -/
theorem other_archive_installed :
    let _ := sampleArchives
    let _ := sampleStorageCrates
    let _ := sampleSemverOrder
    let disk := Run.run (activate sampleStorage) ⟨∅, ∅⟩
      [⟨bareBundle "notes" archiveOne, .distribution, allDone⟩]
    (match stageAndActivate sampleStorage allDone (bareBundle "tasks" archiveTwo) .distribution
        disk with
      | (.ok result, disk') =>
        (result.status, disk'.hasFile "tasks" "one", disk'.hasFile "tasks" "two")
      | (.error _, _) => (.alreadyCurrent, false, false)) = (.installed, true, false) ∧
    (match extractModuleArchive "modules/tasks" archiveTwo with
      | .ok files => files.get ["two".toList]
      | .error _ => none) = some (.file []) := by
  intro _ _ _ disk
  decide +kernel

def noSpace : StorageAnswers :=
  { allDone with unpack := .failed "No space left on device (os error 28)" (some .empty) }

/-- `notes` is installed. -/
def notesDisk : Disk :=
  let _ := sampleArchives
  let _ := sampleStorageCrates
  let _ := sampleSemverOrder
  activate sampleStorage ⟨∅, ∅⟩ ⟨bareBundle "notes" archiveOne, .distribution, allDone⟩

theorem notesDisk_admitted :
    let _ := sampleStorageCrates
    let _ := sampleSemverOrder
    ∃ cur, Admitted sampleStorage noSpace (bareBundle "notes" archiveOne) notesDisk "notes"
      (some cur) := by
  intro _ _
  have hsto : readMetadata notesDisk.modules["notes"]? "manifest.json" =
      .ok (bareManifestJson "notes") := rfl
  have hpar : StorageCrates.manifestFromJson (bareManifestJson "notes") =
      .ok (bareManifest "notes") := if_pos rfl
  exact ⟨_, by decide +kernel, readInstalled_stored rfl hsto hpar, rfl⟩

theorem notes_replace_fails :
    let _ := sampleArchives
    let _ := sampleStorageCrates
    let done := replaceFiles sampleStorage noSpace (bareBundle "notes" archiveOne)
      .distribution "notes" notesDisk
    done.1.isOk = false ∧ done.2.hasFile "notes" "one" = false := by
  decide +kernel

/-- `notes` cannot be unpacked, and would end so with no file at all before. -/
theorem stageAndActivate_failed_notes :
    let _ := sampleArchives
    let _ := sampleStorageCrates
    let _ := sampleSemverOrder
    ∃ stop disk', stageAndActivate sampleStorage noSpace (bareBundle "notes" archiveOne)
        .distribution notesDisk = (.error stop, disk') ∧
      stageAndActivate sampleStorage noSpace (bareBundle "notes" archiveOne) .distribution
        (notesDisk.setDir "notes" (some .empty)) = (.error stop, disk') := by
  intro _ _ _
  obtain ⟨current, hadm⟩ := notesDisk_admitted
  have hpre : notesDisk.modules["notes"]?.isSome = true := by decide +kernel
  obtain ⟨old, hold⟩ := Option.isSome_iff_exists.mp hpre
  have hoth : Admitted sampleStorage noSpace (bareBundle "notes" archiveOne)
      (notesDisk.setDir "notes" (some .empty)) "notes" none := by
    refine ⟨by decide +kernel, ?_, rfl⟩
    simp only [readInstalled, Disk.setDir_get]
    rfl
  obtain ⟨stop, disk', hrun⟩ := error_of_isOk notes_replace_fails.1
  have hsta := (stageAndActivate_error_iff hadm).mpr hrun
  exact ⟨stop, disk', hsta, (stageAndActivate_failed sampleStorage noSpace _ .distribution
    notesDisk).2 "notes" _ hadm rfl old .empty hold none hoth stop disk' hsta⟩

/-- After the error the file of `notes` is gone. -/
theorem activation_loses_module :
    let _ := sampleArchives
    let _ := sampleStorageCrates
    let _ := sampleSemverOrder
    (∃ current, readInstalled sampleStorage noSpace notesDisk "notes" = .ok (some current)) ∧
    notesDisk.hasFile "notes" "one" = true ∧
    ∃ stop disk', stageAndActivate sampleStorage noSpace (bareBundle "notes" archiveOne)
        .distribution notesDisk = (.error stop, disk') ∧
      disk'.hasFile "notes" "one" = false := by
  intro _ _ _
  obtain ⟨current, hadm⟩ := notesDisk_admitted
  refine ⟨⟨current, hadm.2.1⟩, by decide +kernel, ?_⟩
  have hfai := notes_replace_fails
  dsimp only at hfai
  obtain ⟨stop, disk', hrun⟩ := error_of_isOk hfai.1
  refine ⟨stop, disk', (stageAndActivate_error_iff hadm).mpr hrun, ?_⟩
  rw [hrun] at hfai
  exact hfai.2

end Fenrir.Modules
