import Fenrir.Depot.Protocol

/-! # What a host installed from the depot

`state.rs`: the state file (current and previous distribution, the backup
that undoes the current one, pins, overrides) and the backup records. The
JSON files are modelled by the values they decode to. -/

namespace Fenrir

def stateFormat : String := "fenrir/depot-state/v1"
def backupFormat : String := "fenrir/depot-backup/v1"

structure ModuleRecord where
  version : DepotVersion
  sha256 : String
  size : Nat
  via : Option String

structure InstalledDistribution where
  (id manifestSha256 channel keyId installedAt : String)
  modules : BTreeMap ModuleRecord

/-- A hotfix: one module installed on top of the distribution. -/
structure ModuleOverride where
  version : DepotVersion
  sha256 : String
  size : Nat
  -- the verified distribution whose manifest vouches for it (`from`)
  (source installedAt : String)

structure HostState where
  format : String
  (current previous : Option InstalledDistribution)
  -- the backup that returns from `current` to what ran before it
  backup : Option String
  pins : BTreeMap DepotVersion
  overrides : BTreeMap ModuleOverride

/-- `HostState::default()`. -/
def HostState.initial : HostState where
  format := stateFormat
  current := none
  previous := none
  backup := none
  pins := ∅
  overrides := ∅

structure BackedUpModule where
  version : DepotVersion
  -- file name inside the backup directory, and the SHA-256 of that file
  (archive archiveSha256 : String)
  manifest : ModuleManifest

/-- One module in a backup: what was installed before the change, or `none`
when the change installed it fresh. The manifest is the one the host
recorded for this module, so it carries the module's own name, and the
version is the depot form of the manifest's. -/
structure BackupModule [DepotProtocol] where
  module : String
  previous : Option BackedUpModule
  named : ∀ b, previous = some b → b.manifest.id = module
  versioned : ∀ b, previous = some b → fromManifest b.manifest.version = .ok b.version

structure BackupRecord [DepotProtocol] where
  (format createdAt : String)
  before : Option String
  after : String
  modules : List BackupModule

def HostState.currentId (s : HostState) : Option String := s.current.map (·.id)

end Fenrir
