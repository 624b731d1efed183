import Fenrir.Depot.Verify
import Fenrir.Depot.World

/-! # The install pipeline

`installer.rs`: prepare (select, verify, plan, download and check every
bundle; nothing on the host changes), then execute (lock, back up,
activate, migrate, start or roll, wait for health, record; on a failure of
the middle part restore the backup). -/

namespace Fenrir

open Effect Effect.Act DepotProtocol

inductive Intent [DepotProtocol] where
  | distribution (distribution : VerifiedDistribution) (rollback : Bool)
  | module (candidate : ModuleCandidate)
  | restore (backup : String) (record : BackupRecord)

/-- A bundle ready to activate: on disk, checked, checked again before use. -/
structure StagedBundle where
  manifest : ModuleManifest
  path : Path
  sha256 : Sha256Digest
  size : Nat

structure Prepared [DepotProtocol] where
  intent : Intent
  plan : Plan
  (skipped hostIncludes : List String)
  staged : BTreeMap StagedBundle
  downloaded : Nat

structure Outcome where
  title : String
  (changed migrations : List String)
  backup : Option String
  deriving DecidableEq

section

variable [DepotProtocol] [BundleFormat] (env : Env) (source : DepotSource) (policy : HostPolicy)

/-! ## Prepare -/

section

variable (name : String) (target : TargetModule)

def placeholderArtifact : ModuleArtifactDescriptor where
  downloadUrl := ""
  checksum := { algorithm := .sha256, hash := "" }
  contentType := none
  sizeBytes := none

def placeholderSignature : ModuleSignatureDescriptor where
  algorithm := .ed25519
  keyId := ""
  signature := ""

/-- The bundle's own manifest when it names the signed module and version, or
one made from the signed data. -/
def ownManifest (own : Option ModuleManifest) : Except DepotError ModuleManifest :=
  match own with
  | some manifest =>
    if manifest.id = target.name ∧ fromManifest manifest.version = .ok target.version then
      .ok manifest
    else
      .error (.bundle (s!"the bundle's own manifest says {manifest.id} "
        ++ s!"{manifest.version.display}, the signed distribution {target.name} "
        ++ s!"{target.version.display}"))
  | none =>
    match toManifest target.version with
    | .error err => .error err
    | .ok version =>
      .ok
        { id := target.name
          version
          title := none
          description := none
          fenrirVersion := none
          authors := []
          license := none
          artifact := placeholderArtifact
          signature := placeholderSignature
          dependencies := []
          tags := []
          publishedAt := none }

/-- `module_manifest`: the artifact fields come from the signed manifest. -/
def moduleManifest (own : Option ModuleManifest) (signer : String) :
    Except DepotError ModuleManifest :=
  match ownManifest target own with
  | .error err => .error err
  | .ok manifest =>
    .ok
      { manifest with
        artifact :=
          { downloadUrl := s!"depot:sha256/{toHex target.sha256}/{target.name}-"
              ++ s!"{target.version.display}.tar.gz"
            checksum := { algorithm := .sha256, hash := toHex target.sha256 }
            contentType := some "application/gzip"
            sizeBytes := some target.size }
        signature :=
          { algorithm := .ed25519
            keyId := s!"depot:{signer}"
            signature := "" } }

/-- `BlobCache::read`. -/
def cacheRead (digest : Sha256Digest) (size : Nat) : Act World DepotError Bytes := do
  let bytes ← readFile env (.blob (toHex digest))
  lift (checkBytes bytes digest size)
  pure bytes

/-- What `BlobWriter::write` and `finish` check of the streamed bytes. -/
def checkWritten (bytes : Bytes) (digest : Sha256Digest) (size : Nat) : Except DepotError Unit :=
  if size < bytes.length then
    .error (.bundle s!"blob {toHex digest} is longer than the signed size of {size} bytes")
  else checkBytes bytes digest size

def setBlob (hex : String) (bytes : Bytes) (w : World) : World :=
  { w with disk := { w.disk with blobs := w.disk.blobs.insert hex bytes } }

def eraseBlob (hex : String) (w : World) : World :=
  { w with disk := { w.disk with blobs := w.disk.blobs.erase hex } }

/-- `BlobCache::ensure`: whether the blob was downloaded. -/
def ensureBlob (digest : Sha256Digest) (size : Nat) : Act World DepotError Bool := do
  let cached ← attempt (cacheRead env digest size)
  match cached with
  | .ok _ => pure false
  | .error _ => do
      -- `let _ = fs::remove_file(&target)`
      let _removed ← attempt (effect env DepotError.io id (eraseBlob (toHex digest)))
      effect env .io id id
      let bytes ← lift (source.blob digest size)
      lift (checkWritten bytes digest size)
      effect env .io id (setBlob (toHex digest) bytes)
      pure true

def blame : DepotError → DepotError
  | .bundle message => .bundle s!"{target.name} {target.version.display}: {message}"
  | other => other

/-- The loop body of `stage` for one entry: the entry with its migrations, the
staged bundle, and the bytes downloaded for it. -/
def stageEntry (installed : List HostModule) (signer : String) (entry : PlanEntry) :
    Act World DepotError (PlanEntry × Option (String × StagedBundle) × Nat) :=
  match entry.action.changes, entry.source with
  | true, some target => do
      let fetched ← mapErr (blame target) (ensureBlob env source target.sha256 target.size)
      let bytes ← cacheRead env target.sha256 target.size
      let info ← lift ((BundleFormat.inspect bytes).mapError fun err =>
        .bundle s!"{target.name} {target.version.display}: {err}")
      let manifest ← lift (moduleManifest target info.manifest signer)
      let known := ((installed.find? (·.name == target.name)).map (·.migrations)).getD []
      pure
        ({ entry with migrations := info.migrations.filter (· ∉ known) }, some (target.name,
            { manifest
              path := .blob (toHex target.sha256)
              sha256 := target.sha256
              size := target.size }),
          if fetched then target.size else 0)
  | _, _ => pure (entry, none, 0)

/-- `staged.insert(..)` for each bundle; a later one of the same name wins. -/
def stagedMap (bundles : List (String × StagedBundle)) : BTreeMap StagedBundle :=
  bundles.foldl (fun staged b => staged.insert b.1 b.2) ∅

def stage (plan : Plan) (installed : List HostModule) (signer : String) :
    Act World DepotError (Plan × BTreeMap StagedBundle × Nat) := do
  let entries ← collect (stageEntry env source installed signer) plan.entries
  pure
    ({ plan with entries := entries.map (·.1) }, stagedMap (entries.filterMap (·.2.1)),
      min (2 ^ 64 - 1) (entries.map (·.2.2)).sum)

/-- A plan with problems is shown and nothing is downloaded for it. -/
def stageIfClear (plan : Plan) (installed : List HostModule) (signer : String) :
    Act World DepotError (Plan × BTreeMap StagedBundle × Nat) :=
  if plan.problems = [] then stage env source plan installed signer
  else pure (plan, ∅, 0)

def prepareVerified (distribution : VerifiedDistribution) (rollback : Bool)
    (skipped : List String) : Act World DepotError Prepared := do
  let installed ← mapErr .io (modules env)
  let state ← load env
  let plan := planDistribution distribution.id.display distribution.targetModules installed state
  let (plan, staged, downloaded) ← stageIfClear env source plan installed distribution.root.keyId
  pure
    { intent := .distribution distribution rollback
      plan
      skipped
      hostIncludes := distribution.hostIncludes.map (·.display)
      staged
      downloaded }

def prepareDistribution (request : DistributionRequest) : Act World DepotError Prepared := do
  let selection ← lift (selectDistribution source policy request)
  prepareVerified env source selection.distribution false selection.skipped

def prepareModule (pattern : VersionPattern) : Act World DepotError Prepared := do
  let candidate ← lift (selectModule source policy name pattern)
  let installed ← mapErr .io (modules env)
  let state ← load env
  let plan := planModule candidate.module installed state
  let (plan, staged, downloaded) ← stageIfClear env source plan installed "depot"
  pure
    { intent := .module candidate
      plan
      skipped := []
      hostIncludes := []
      staged
      downloaded }

/-- `restore_bundles`: the archives of a backup, with the digest the record
has for them. -/
def restoreBundle (backed : BackupModule) : Act World DepotError (Option (String × StagedBundle)) :=
  match backed.previous with
  | none => pure none
  | some previous =>
    match parseDigest previous.archiveSha256 with
    | .error _ => fail (.io s!"backup {name}: bad digest for {backed.module}")
    | .ok digest => do
        -- `fs::metadata`
        let bytes ← readFile env (.archive name previous.archive)
        pure (some (backed.module,
          { manifest := previous.manifest
            path := .archive name previous.archive
            sha256 := digest
            size := bytes.length }))

def restoreBundles (record : BackupRecord) : Act World DepotError (BTreeMap StagedBundle) := do
  let bundles ← collect (restoreBundle env name) record.modules
  pure (stagedMap (bundles.filterMap id))

/-- The part of `prepare_rollback` that uses the local backup. -/
def prepareRestore (current : InstalledDistribution) (name : String) (record : BackupRecord) :
    Act World DepotError Prepared := do
  let staged ← restoreBundles env name record
  let installed ← mapErr .io (modules env)
  let title := match record.before with
    | some before => s!"rollback {current.id} → {before}"
    | none => s!"rollback {current.id} → the modules from before it"
  pure
    { intent := .restore name record
      plan := planRestore title record installed
      skipped := []
      hostIncludes := []
      staged
      downloaded := 0 }

def prepareAgain (current : InstalledDistribution) (previous : Option InstalledDistribution) :
    Act World DepotError Prepared :=
  match previous with
  | none =>
    fail (.refused (s!"nothing to roll back to: {current.id} has no previous distribution "
      ++ "and no local backup"))
  | some previous =>
    match parseId previous.id with
    | .error err => fail (.io s!"state names `{previous.id}`: {err}")
    | .ok id => do
        let selection ← lift (selectDistribution source policy (.exact id))
        let prepared ← prepareVerified env source selection.distribution true []
        pure { prepared with
          plan := { prepared.plan with title := s!"rollback {current.id} → {previous.id}" } }

/-- `prepare_rollback`: the local backup when it belongs to the current
distribution, otherwise the previous distribution. -/
def prepareRollback : Act World DepotError Prepared := do
  let state ← load env
  match state.current with
  | none =>
    fail (.refused "nothing to roll back: no distribution is installed from the depot")
  | some current =>
    match state.backup with
    | none => prepareAgain env source policy current state.previous
    | some name => do
        let found ← loadBackup env name
        match found with
        | some record =>
          if record.after = current.id then prepareRestore env current name record
          else prepareAgain env source policy current state.previous
        | none => prepareAgain env source policy current state.previous

end

end

/-! ## Execute -/

section

variable [DepotProtocol] (env : Env)

section

variable (module : String) (staged : BTreeMap StagedBundle) (p : Prepared) (state : HostState)
  (name : String) (entry : PlanEntry)

/-- `load_bundle`: read and check once more right before use. -/
def loadBundle (staged : StagedBundle) : Act World DepotError ModuleBundle := do
  let bytes ← readFile env staged.path
  lift (checkBytes bytes staged.sha256 staged.size)
  pure
    { manifest := staged.manifest
      archive := bytes
      signature := []
      checksum := staged.sha256.asBytes }

/-- `backup_name`: a time stamp without separators, then the title with
everything but letters, digits, dots and dashes replaced. -/
def backupName (stamp title : String) : String :=
  String.ofList (stamp.toList.filter Char.isAlphanum) ++ "-"
    ++ String.ofList (title.toList.map fun c =>
      if c.isAlphanum || c == '.' || c == '-' then c else '_')

/-- A new backup name, remembered in the trace. -/
def newName (title : String) : Act World DepotError String := do
  let stamp ← now env
  modify fun w => { w with names := w.names ++ [backupName stamp title] }
  pure (backupName stamp title)

def archiveName : String := s!"{module}.tar.gz"

/-- The record of a module whose files were packed into `archive`. -/
def backedUp (manifest : { m : ModuleManifest // m.id = module })
    (archive : String) (bytes : Bytes) : Except DepotError BackupModule :=
  match hv : installedVersion module manifest.val.version false with
  | .error err => .error (.refused err)
  | .ok version =>
    .ok
      { module
        previous := some
          { version
            archive
            archiveSha256 := toHex (digestOf bytes)
            manifest := manifest.val }
        named := fun b h => by
          cases h
          exact manifest.property
        versioned := fun b h => by
          cases h
          exact fromManifest_of_installedVersion hv }

def notBackedUp : BackupModule where
  module := module
  previous := none
  named := nofun
  versioned := nofun

/-- The loop body of the backup in `execute`: pack the module, read the archive
back and note its digest. -/
def backUpEntry : Act World DepotError BackupModule := do
  let archive := archiveName entry.module
  let packed ← mapErr (fun err => .io s!"backup of {entry.module}: {err}")
    (backup env entry.module name archive)
  match packed with
  | none => pure (notBackedUp entry.module)
  | some manifest => do
      let bytes ← readFile env (.archive name archive)
      lift (backedUp entry.module manifest archive bytes)

/-- What the record says the change installs. -/
def Prepared.after : String :=
  match p.intent with
  | .distribution distribution _ => distribution.id.display
  | _ => p.plan.title

def backUpAs : Act World DepotError BackupRecord := do
  createDir env name
  let createdAt ← now env
  let modules ← collect (backUpEntry env name) p.plan.changes
  let record : BackupRecord :=
    { format := backupFormat
      createdAt
      before := state.currentId
      after := p.after
      modules }
  saveBackup env name record
  pure record

def installBundle (staged : StagedBundle) : Act World String Unit := do
  let bundle ← mapErr DepotError.display (loadBundle env staged)
  activate env bundle

/-- The loop body of `apply` that removes a module or activates its bundle. -/
def swapEntry : Act World String Unit :=
  if entry.action = .remove then remove env entry.module
  else
    match staged[entry.module]? with
    | none => fail s!"no verified bundle staged for {entry.module}"
    | some bundle => installBundle env bundle

/-- The modules `apply` starts: everything it did not remove. -/
def Prepared.started : List String :=
  (p.plan.changes.filter (·.action ≠ .remove)).map (·.module)

/-- The migrations of `apply`: no call when no bundle brings any. -/
def migrate (modules : List String) : Act World String (List String) :=
  if modules = [] then pure [] else applyMigrations env modules

/-- `apply`: stop, activate, migrate, start or roll, and wait for health. -/
def apply : Act World String (List String) := do
  let changes := p.plan.changes
  each (fun e => stop env e.module)
    (changes.filter fun e => e.restart = .restart ∨ e.restart = .stop)
  each (swapEntry env p.staged) changes
  let applied ← migrate env ((changes.filter (·.migrations ≠ [])).map (·.module))
  start env p.started
  each (fun e => rollingRestart env e.module) (changes.filter (·.restart = .rolling))
  each (waitHealthy env) p.started
  pure applied

/-- The loop body of `restore`. -/
def restoreModule (backed : BackupModule) : Act World String Unit :=
  match staged[backed.module]? with
  | some bundle => installBundle env bundle
  | none => remove env backed.module

/-- `let _ = host.stop(..)`: a failed stop is ignored. -/
def tryStop : Act World String Unit := do
  let _stopped ← attempt (stop env module)
  pure ()

/-- The modules `restore` starts: those with a bundle in the backup. -/
def restarted (record : BackupRecord) : List String :=
  (record.modules.filter fun b => (staged[b.module]?).isSome).map (·.module)

/-- `restore`: put back what a backup holds. -/
def restore (record : BackupRecord) : Act World String Unit := do
  let staged ← mapErr DepotError.display (restoreBundles env name record)
  each (fun b => tryStop env b.module) record.modules
  each (restoreModule env staged) record.modules
  start env (restarted staged record)
  each (waitHealthy env) (restarted staged record)

structure Performed where
  backup : Option String
  migrations : List String

def applyOrRestore (record : BackupRecord) : Act World DepotError Performed := do
  let applied ← attempt (apply env p)
  match applied with
  | .ok migrations => pure { backup := some name, migrations }
  | .error message => do
      let restored ← attempt (restore env name record)
      fail (.install message restored.isOk)

/-- `for staged in prepared.staged.values() { load_bundle(staged)?; }` -/
def checkStaged : Act World DepotError Unit :=
  each (fun s => do let _bundle ← loadBundle env s.2; pure ()) staged.toList

/-- The part of `execute` that changes modules: nothing without changes;
otherwise check every bundle, back up, apply. -/
def perform : Act World DepotError Performed :=
  if p.plan.changes = [] then pure { backup := none, migrations := [] }
  else do
    checkStaged env p.staged
    let name ← newName env p.plan.title
    let record ← backUpAs env p state name
    applyOrRestore env p name record

/-- The record of a distribution as `record_state` writes it. -/
def installedDistribution (distribution : VerifiedDistribution)
    (installedAt : String) : InstalledDistribution where
  id := distribution.id.display
  manifestSha256 := toHex distribution.root.digest
  channel := distribution.root.channel.display
  keyId := distribution.root.keyId
  installedAt := installedAt
  modules := .ofList ((p.plan.entries.filter (·.action ≠ .optionalSkipped)).filterMap fun e =>
    e.source.map fun t =>
      (t.name, ({ version := t.version, sha256 := toHex t.sha256, size := t.size, via := t.via } :
        ModuleRecord)))

def dropOverrides (overrides : BTreeMap ModuleOverride) (modules : List String) :
    BTreeMap ModuleOverride :=
  modules.foldl (fun overrides m => overrides.erase m) overrides

/-- `record_state`; the backup that is kept is the `backup` of the result (for a
restore there is none). -/
def recordState (p : Prepared) (backup : Option String) (installedAt : String) : HostState :=
  match p.intent with
  | .distribution distribution _ =>
    let same := state.current.any (·.id == distribution.id.display)
    { state with
      previous := if same then state.previous else state.current
      current := some (installedDistribution p distribution installedAt)
      backup := if backup.isSome || !same then backup else state.backup
      overrides := dropOverrides state.overrides
        ((p.plan.entries.filter (·.action.runsSigned)).map (·.module)) }
  | .module candidate =>
    { state with
      overrides := state.overrides.insert candidate.module.name
        { version := candidate.module.version
          sha256 := toHex candidate.module.sha256
          size := candidate.module.size
          source := candidate.source.display
          installedAt } }
  | .restore _ record =>
    { state with
      current := state.previous
      previous := none
      backup := none
      overrides := dropOverrides state.overrides (record.modules.map (·.module)) }

/-- `module old → new` per change. -/
def changedText : String :=
  s!"{entry.module} " ++ (entry.installed.map (·.display)).getD "-" ++ " → "
    ++ (entry.target.map (·.display)).getD "removed"

/-- Save the new state, then drop the backups and blobs it no longer needs. -/
def writeDown (performed : Performed) (state : HostState) : Act World DepotError Outcome := do
  save env state
  pruneBackups env state.backup
  pruneCache env state
  pure
    { title := p.plan.title
      changed := p.plan.changes.map changedText
      migrations := performed.migrations
      backup := state.backup }

/-- The part of `execute` that records what was done. -/
def record (performed : Performed) : Act World DepotError Outcome := do
  let installedAt ← now env
  writeDown env p performed (recordState state p performed.backup installedAt)

/-- `execute` once it has the lock. -/
def executeLocked : Act World DepotError Outcome := do
  let state ← load env
  let performed ← perform env p state
  record env p state performed

def execute : Act World DepotError Outcome :=
  if p.plan.problems = [] then withLock env (executeLocked env p)
  else fail (.refused ("\n".intercalate p.plan.problems))

/-- `update_state`: change the state file under the lock (`pin`, `unpin`). -/
def updateState {α : Type} (change : HostState → Except DepotError (α × HostState)) :
    Act World DepotError α :=
  withLock env do
    let state ← load env
    let (result, state) ← lift (change state)
    save env state
    pure result

end

end

/-! ## A small host

Plans and worlds for the concrete runs of the following modules: a
distribution that brings modules with empty archives at version 1.0.0. -/

section

def sampleManifest (name : String) (version : SemVersion) : ModuleManifest where
  id := name
  version := version
  title := none
  description := none
  fenrirVersion := none
  authors := []
  license := none
  artifact := placeholderArtifact
  signature := placeholderSignature
  dependencies := []
  tags := []
  publishedAt := none

def versionOne : SemVersion := ⟨1, 0, 0, "", ""⟩

def sampleTarget (name : String) : TargetModule where
  name := name
  rule := "*"
  version := ⟨1, 0, 0, 0⟩
  platform := "any"
  sha256 := sampleDigest emptyArchive
  size := 29
  optional := false
  requires := { fenrir := none, modules := [] }
  via := none

def freshEntry (name : String) : PlanEntry where
  module := name
  rule := some "*"
  installed := none
  target := some ⟨1, 0, 0, 0⟩
  size := some 29
  action := .install
  restart := .start
  migrations := []
  via := none
  note := none
  source := some (sampleTarget name)

def emptyBlob : String := hexEncode (sampleDigest emptyArchive).asBytes

def sampleBundle (name : String) : StagedBundle where
  manifest := sampleManifest name versionOne
  path := .blob emptyBlob
  sha256 := sampleDigest emptyArchive
  size := 29

/-- Install the given modules as `athenos-1.0.0`. -/
def freshPlan (names : List String) : @Prepared sampleProtocol :=
  let _ := sampleProtocol
  { intent := .distribution ⟨staleAthenos, []⟩ false
    plan := { title := "athenos-1.0.0", entries := names.map freshEntry, problems := [] }
    skipped := []
    hostIncludes := []
    staged := .ofList (names.map fun n => (n, sampleBundle n))
    downloaded := 0 }

def emptyHost : Host where
  modules := ∅
  dev := []
  named := by
    intro n m h
    simp at h

/-- A depot directory with nothing but the cached empty archive. -/
def freshWorld : @World sampleProtocol :=
  let _ := sampleProtocol
  { host := emptyHost
    disk :=
      { stateFile := none
        backups := ∅
        blobs := .ofList [(emptyBlob, emptyArchive)]
        locked := false }
    calls := []
    names := []
    tick := 0 }

/-- No bundle but the empty archive can be read; no module has migrations. -/
abbrev sampleFormat : BundleFormat where
  inspect bytes :=
    if bytes = emptyArchive then .ok { manifest := none, migrations := [] }
    else .error "not a gzip tar archive"
  installedMigrations := fun _ => []

/-- Exactly the effects at the given positions fail, and leave nothing. -/
def failingAt (ticks : List Nat) : @Env sampleProtocol :=
  let _ := sampleProtocol
  let fails := fun k => if k ∈ ticks then some "disk full" else none
  { fails
    saveFails := fails
    pruneFails := fails
    left := fun _ => none
    fileLeft := fun _ => none
    dirLeft := fun _ => none
    listing := fun _ names => names
    blobStays := fun _ _ => false
    applied := fun _ => []
    now := fun _ => "2025-01-01T00:00:00Z" }

end

end Fenrir
