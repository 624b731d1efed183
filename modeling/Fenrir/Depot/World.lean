import Fenrir.Lib.Effect
import Fenrir.Depot.Host

/-! # The machine the pipeline runs on

`state.rs`, `blob.rs` and the calls of `ports.rs`, as effects on one
explicit world: the module host, the depot directory (state file, backups,
blob cache, lock file) and the trace of the calls that were made.

Every file operation and every call may fail. Which ones do is the
environment's choice: `Env` answers for each effect, by its position in the
run, whether it fails and what a failed one left behind. -/

namespace Fenrir

open Nat

open Effect Effect.Act DepotProtocol

/-- `backups/<name>/`: the record and the archives next to it. -/
structure BackupDir [DepotProtocol] where
  record : Option BackupRecord
  archives : BTreeMap Bytes

/-- `<install_dir>/runtime/depot`. -/
structure Disk [DepotProtocol] where
  stateFile : Option HostState
  backups : BTreeMap BackupDir
  blobs : BTreeMap Bytes
  locked : Bool

/-- Where a staged bundle lies: in the blob cache or in a backup. -/
inductive Path where
  | blob (hex : String)
  | archive (backup file : String)

def Disk.file [DepotProtocol] (d : Disk) : Path → Option Bytes
  | .blob hex => d.blobs[hex]?
  | .archive backup file => (d.backups[backup]?).bind fun dir => dir.archives[file]?

inductive HostCall where
  | stop (module : String)
  | activate (module : String)
  | remove (module : String)
  | applyMigrations (modules : List String)
  | start (modules : List String)
  | rollingRestart (module : String)
  | waitHealthy (module : String)
  deriving DecidableEq

/-- The calls that stop or restart a module or change its files. -/
def HostCall.touches : HostCall → String → Prop
  | .stop m, n | .activate m, n | .remove m, n | .rollingRestart m, n => m = n
  | .applyMigrations _, _ | .start _, _ | .waitHealthy _, _ => False

/-- The world: what exists, and what was done in it so far (the calls on the
host, the backup names that were computed, the number of effects). -/
structure World [DepotProtocol] where
  host : Host
  disk : Disk
  calls : List HostCall
  names : List String
  tick : Nat

namespace World

variable [DepotProtocol]

def tickTo (w : World) (t : Nat) : World := { w with tick := t }

@[simp] theorem tickTo_host (w : World) (t : Nat) : (w.tickTo t).host = w.host := rfl
@[simp] theorem tickTo_disk (w : World) (t : Nat) : (w.tickTo t).disk = w.disk := rfl
@[simp] theorem tickTo_calls (w : World) (t : Nat) : (w.tickTo t).calls = w.calls := rfl
@[simp] theorem tickTo_names (w : World) (t : Nat) : (w.tickTo t).names = w.names := rfl
@[simp] theorem tickTo_tick (w : World) (t : Nat) : (w.tickTo t).tick = t := rfl

end World

/-- How the environment answers the effect at each position of a run. -/
structure Env [DepotProtocol] where
  -- the message of the failure, if the effect fails
  fails : Nat → Option String
  -- the same for the writes of the state file, and for the pruning of backups
  saveFails : Nat → Option String
  pruneFails : Nat → Option String
  -- what a failed call left of the module it was about
  left : Nat → Option Remains
  -- what a failed write left of the archive
  fileLeft : Nat → Option Bytes
  -- what a failed removal left of the directory
  dirLeft : Nat → Option BackupDir
  -- the entries `read_dir` yields, in its order
  listing : Nat → List String → List String
  -- the blobs whose removal from the cache fails
  blobStays : Nat → String → Bool
  -- the migration files that were applied
  applied : Nat → List String
  now : Nat → String

def Env.saving [DepotProtocol] (env : Env) : Env := { env with fails := env.saveFails }

def Env.pruning [DepotProtocol] (env : Env) : Env := { env with fails := env.pruneFails }

section

variable [DepotProtocol] (env : Env) {ε : Type}

/-- One operation that may fail: `failed` is what it leaves behind then,
`done` what it does otherwise. -/
def effect (err : String → ε) (failed done : World → World) : Act World ε Unit := fun w =>
  match env.fails w.tick with
  | some msg => (.error (err msg), (failed w).tickTo (w.tick + 1))
  | none => (.ok (), (done w).tickTo (w.tick + 1))

/-- `now_rfc3339`. -/
def now : Act World ε String := fun w => (.ok (env.now w.tick), w.tickTo (w.tick + 1))

/-! ## Files -/

section

variable (name : String)

/-- `fs::read`. -/
def readFile (path : Path) : Act World DepotError Bytes := do
  effect env .io id id
  let file ← read (·.disk.file path)
  match file with
  | some bytes => pure bytes
  | none => fail (.io "no such file")

/-- `check_bytes`: size and SHA-256 against the signed values. -/
def checkBytes (bytes : Bytes) (digest : Sha256Digest) (size : Nat) : Except DepotError Unit :=
  if bytes.length ≠ size then
    .error (.bundle (s!"blob {toHex digest} has {bytes.length} bytes, "
      ++ s!"the signed manifest says {size}"))
  else if digestOf bytes ≠ digest then
    .error (.bundle (s!"SHA-256 mismatch: the signed manifest says {toHex digest}, "
      ++ s!"the bytes are {toHex (digestOf bytes)}"))
  else .ok ()

def setDir (f : BackupDir → BackupDir) (w : World) : World :=
  let dir := (w.disk.backups[name]?).getD { record := none, archives := ∅ }
  { w with disk := { w.disk with backups := w.disk.backups.insert name (f dir) } }

def writeArchive (file : String) (bytes : Bytes) (dir : BackupDir) : BackupDir :=
  { dir with archives := dir.archives.insert file bytes }

def load : Act World DepotError HostState := do
  effect env .io id id
  let file ← read (·.disk.stateFile)
  match file with
  | none => pure HostState.initial
  | some state =>
    if state.format = stateFormat then pure state
    else fail (.io s!"state.json has format {state.format}, this host reads {stateFormat}")

/-- `StateStore::save`: atomic, so a failed save leaves the old file. -/
def save (state : HostState) : Act World DepotError Unit :=
  effect env.saving .io id fun w => { w with disk := { w.disk with stateFile := some state } }

def loadBackup : Act World DepotError (Option BackupRecord) := do
  effect env .io id id
  read fun w => (w.disk.backups[name]?).bind (·.record)

/-- `StateStore::save_backup`, atomic too. -/
def saveBackup (record : BackupRecord) : Act World DepotError Unit :=
  effect env .io id (setDir name fun dir => { dir with record := some record })

/-- `fs::create_dir_all` on a backup directory. -/
def createDir : Act World DepotError Unit :=
  effect env .io id (setDir name id)

/-- `fs::remove_dir_all` on a backup directory. -/
def removeDir : Act World DepotError Unit :=
  effect env .io
    (fun w => match env.dirLeft w.tick with
      | some dir => setDir name (fun _ => dir) w
      | none => { w with disk := { w.disk with backups := w.disk.backups.erase name } })
    (fun w => { w with disk := { w.disk with backups := w.disk.backups.erase name } })

/-- `StateStore::prune_backups`: every backup but `keep`, as the directory
lists them. -/
def pruneBackups (keep : Option String) : Act World DepotError Unit := do
  effect env.pruning .io id id
  let names ← read fun w => env.listing w.tick w.disk.backups.keys
  each (removeDir env.pruning) (names.filter fun name => some name ≠ keep)

/-- `prune_cache`: failures are only logged. -/
def pruneCache (state : HostState) : Act World DepotError Unit :=
  let kept := fun hex =>
    state.current.any (fun d => d.modules.toList.any (·.2.sha256 == hex))
      || state.previous.any (fun d => d.modules.toList.any (·.2.sha256 == hex))
      || state.overrides.toList.any (·.2.sha256 == hex)
  modify fun w =>
    { w with
      disk := { w.disk with
        blobs := w.disk.blobs.filter fun hex _ => kept hex || env.blobStays w.tick hex }
      tick := w.tick + 1 }

end

/-! ## The lock file -/

/-- `Lock::take`: create the file, or refuse when it exists. -/
def takeLock : Act World DepotError Unit := do
  effect env .io id id
  let locked ← read (·.disk.locked)
  if locked then
    fail (.refused ("another depot operation is running (lock lock); if none is, "
      ++ "remove the file"))
  else effect env .io id fun w => { w with disk := { w.disk with locked := true } }

/-- `Drop for Lock`: remove the file; a failure is ignored. -/
def releaseLock (w : World) : World :=
  match env.fails w.tick with
  | some _ => w.tickTo (w.tick + 1)
  | none => { w with disk := { w.disk with locked := false }, tick := w.tick + 1 }

def withLock {α : Type} (body : Act World DepotError α) : Act World DepotError α := do
  takeLock env
  guarded body (releaseLock env)

/-! ## Calls on the host -/

def logCall (c : HostCall) (w : World) : World := { w with calls := w.calls ++ [c] }

def onHost (f : Host → Host) (w : World) : World := { w with host := f w.host }

/-- A call about one module: a failed one may leave that module in any state. -/
def hostCall (c : HostCall) (module : String) (f : Host → Host) : Act World String Unit :=
  effect env id
    (fun w => logCall c (onHost (·.leave module (env.left w.tick)) w))
    (fun w => logCall c (onHost f w))

def stop (module : String) : Act World String Unit :=
  hostCall env (.stop module) module (·.stop module)

def activate (bundle : ModuleBundle) : Act World String Unit :=
  hostCall env (.activate bundle.manifest.id) bundle.manifest.id (·.activate bundle)

/-- `ModuleServiceHost::remove`: an error when the module is not installed. -/
def remove (module : String) : Act World String Unit := do
  let installed ← read (·.host.get module)
  match installed with
  | some _ => hostCall env (.remove module) module (·.erase module)
  | none => do
      modify (logCall (.remove module))
      fail s!"storage error: invalid state: Module {module} is not installed"

/-- Migrations change the database, not the modules. -/
def applyMigrations (modules : List String) : Act World String (List String) := do
  effect env id (logCall (.applyMigrations modules)) (logCall (.applyMigrations modules))
  read fun w => env.applied w.tick

/-- `ensure_running`: nothing to do for a module that runs, is served by a dev
override or is not installed. -/
def ensureRunning (module : String) : Act World String Unit := do
  let installed ← read (·.host.get module)
  let dev ← read (·.host.dev)
  match installed with
  | none => pure ()
  | some m =>
    if m.running ∨ module ∈ dev then pure ()
    else
      effect env (fun err => s!"{module} did not start: {err}")
        (fun w => onHost (·.leave module (env.left w.tick)) w)
        (onHost (·.run module))

def start (modules : List String) : Act World String Unit := do
  effect env id (logCall (.start modules)) (logCall (.start modules))
  let order ← read fun w => startOrder w.host modules
  each (ensureRunning env) order

def rollingRestart (module : String) : Act World String Unit :=
  hostCall env (.rollingRestart module) module id

/-- `ModuleServiceHost::wait_healthy`: an error unless the module runs. -/
def waitHealthy (module : String) : Act World String Unit := do
  let running ← read (·.host.runs module)
  if running then hostCall env (.waitHealthy module) module id
  else do
    modify (logCall (.waitHealthy module))
    fail s!"{module} is not healthy: {module} is not running"

/-- `ModuleServiceHost::backup`: the packed files go to `file` in the backup
directory. -/
def backup (module name file : String) :
    Act World String (Option { m : ModuleManifest // m.id = module }) := do
  let packaged ← read (·.host.packaged module)
  match packaged with
  | none => do
      effect env id id id
      pure none
  | some (manifest, files) => do
      effect env id
        (fun w => match env.fileLeft w.tick with
          | some bytes => setDir name (writeArchive file bytes) w
          | none => w)
        (setDir name (writeArchive file files))
      pure (some manifest)

def modules [BundleFormat] : Act World String (List HostModule) := do
  effect env id id id
  let host ← read (·.host)
  lift (hostModules host)

end

/-! ## The two ways an operation ends -/

section

variable [DepotProtocol] {env : Env} {ε : Type} {err : String → ε} {failed done : World → World}
  {w w' : World}

theorem effect_ok_iff {u : Unit} : effect env err failed done w = (.ok u, w') ↔
      env.fails w.tick = none ∧ w' = (done w).tickTo (w.tick + 1) := by
  simp only [effect]
  cases env.fails w.tick with
  | none => simp [eq_comm]
  | some msg => simp

theorem effect_bind_ok {β : Type} {g : Unit → Act World ε β} {b : β}
    (h : (effect env err failed done >>= g) w = (.ok b, w')) :
    env.fails w.tick = none ∧ g () ((done w).tickTo (w.tick + 1)) = (.ok b, w') := by
  obtain ⟨u, w1, heff, h⟩ := bind_ok_iff.mp h
  obtain ⟨hqui, rfl⟩ := effect_ok_iff.mp heff
  exact ⟨hqui, h⟩

theorem effect_error {e : ε} (h : effect env err failed done w = (.error e, w')) :
    ∃ msg, e = err msg ∧ w' = (failed w).tickTo (w.tick + 1) ∧ env.fails w.tick = some msg := by
  simp only [effect] at h
  cases hf : env.fails w.tick with
  | none => rw [hf] at h; exact nomatch (Prod.mk.inj h).1
  | some msg =>
    rw [hf] at h
    obtain ⟨he, hw⟩ := Prod.mk.inj h
    exact ⟨msg, (Except.error.inj he).symm, hw.symm, rfl⟩

theorem readFile_ok_iff {path : Path} {bytes : Bytes} : readFile env path w = (.ok bytes, w') ↔
      env.fails w.tick = none ∧ w.disk.file path = some bytes ∧ w' = w.tickTo (w.tick + 1) := by
  constructor
  · intro h
    obtain ⟨hqui, h⟩ := effect_bind_ok h
    obtain ⟨file, hfi, h⟩ := read_bind_ok h
    cases file with
    | none => cases h
    | some b =>
      cases h
      exact ⟨hqui, hfi, rfl⟩
  · rintro ⟨hqui, hfi, rfl⟩
    have heff : effect env DepotError.io id id w = (.ok (), w.tickTo (w.tick + 1)) :=
      effect_ok_iff.mpr ⟨hqui, rfl⟩
    have hre : (read (·.disk.file path) : Act World DepotError _) (w.tickTo (w.tick + 1))
        = (.ok (some bytes), w.tickTo (w.tick + 1)) := by
      rw [read_run, World.tickTo_disk, hfi]
    rw [readFile, bind_of_ok heff, bind_of_ok hre]
    rfl

theorem load_ok {state : HostState} (h : load env w = (.ok state, w')) :
    state = w.disk.stateFile.getD HostState.initial ∧ state.format = stateFormat ∧
      env.fails w.tick = none ∧ w' = w.tickTo (w.tick + 1) := by
  obtain ⟨hqui, h⟩ := effect_bind_ok h
  obtain ⟨file, hfi, h⟩ := read_bind_ok h
  have hfi : w.disk.stateFile = file := hfi
  rw [hfi]
  cases file with
  | none =>
    cases h
    exact ⟨rfl, rfl, hqui, rfl⟩
  | some s =>
    by_cases hf : s.format = stateFormat
    · simp only [if_pos hf] at h
      cases h
      exact ⟨rfl, hf, hqui, rfl⟩
    · simp only [if_neg hf] at h
      cases h

variable {n : String}

theorem hostCall_ok {c : HostCall} {f : Host → Host} (h : hostCall env c n f w = (.ok (), w')) :
    w'.host = f w.host ∧ w'.disk = w.disk := by
  obtain ⟨-, rfl⟩ := effect_ok_iff.mp h
  exact ⟨rfl, rfl⟩

theorem remove_ok (h : remove env n w = (.ok (), w')) :
    (w.host.get n).isSome = true ∧ w'.host = w.host.erase n ∧ w'.disk = w.disk := by
  obtain ⟨installed, hget, h⟩ := read_bind_ok h
  cases installed with
  | none =>
    obtain ⟨u, w1, -, h⟩ := bind_ok_iff.mp h
    cases h
  | some m =>
    obtain ⟨hho, hdi⟩ := hostCall_ok h
    exact ⟨by rw [hget]; rfl, hho, hdi⟩

theorem waitHealthy_ok (h : waitHealthy env n w = (.ok (), w')) :
    w.host.runs n = true ∧ w'.host = w.host ∧ w'.disk = w.disk := by
  obtain ⟨running, hru, h⟩ := read_bind_ok h
  cases running with
  | false =>
    obtain ⟨u, w1, -, h⟩ := bind_ok_iff.mp h
    cases h
  | true =>
    obtain ⟨hho, hdi⟩ := hostCall_ok h
    exact ⟨hru, hho, hdi⟩

theorem ensureRunning_ok (h : ensureRunning env n w = (.ok (), w')) :
    w'.host.contents = w.host.contents ∧ w'.disk = w.disk := by
  obtain ⟨installed, -, h⟩ := read_bind_ok h
  obtain ⟨dev, -, h⟩ := read_bind_ok h
  cases installed with
  | none =>
    cases h
    exact ⟨rfl, rfl⟩
  | some m =>
    by_cases hsk : m.running = true ∨ n ∈ dev
    · simp only [if_pos hsk] at h
      cases h
      exact ⟨rfl, rfl⟩
    · simp only [if_neg hsk] at h
      obtain ⟨-, rfl⟩ := effect_ok_iff.mp h
      exact ⟨Host.contents_run _ _, rfl⟩

theorem start_ok {ms : List String} (h : start env ms w = (.ok (), w')) :
    w'.host.contents = w.host.contents ∧ w'.disk = w.disk := by
  obtain ⟨-, h⟩ := effect_bind_ok h
  obtain ⟨_, rfl, h⟩ := read_bind_ok h
  refine each_ok_keeps (P := fun w' => w'.host.contents = w.host.contents ∧ w'.disk = w.disk)
    ?_ h ⟨rfl, rfl⟩
  rintro n - a b ⟨hc, hd⟩ hn
  obtain ⟨hc', hd'⟩ := ensureRunning_ok hn
  exact ⟨hc'.trans hc, hd'.trans hd⟩

end

/-! ## What an operation leaves alone -/

/-- On the host only the modules `ns` changed, and no module became
synchronized from local sources. -/
structure HostFrame (ns : String → Prop) (h h' : Host) : Prop where
  dev : h'.dev = h.dev
  modules : ∀ n, ¬ ns n → h'.get n = h.get n
  synced : ∀ n m', h'.get n = some m' → m'.source.isSynchronized = true →
    ∃ m, h.get n = some m ∧ m.source.isSynchronized = true

theorem HostFrame.refl (ns : String → Prop) (h : Host) : HostFrame ns h h :=
  ⟨rfl, fun _ _ => rfl, fun _ m' hm hs => ⟨m', hm, hs⟩⟩

theorem HostFrame.trans {ns : String → Prop} {a b c : Host} (h1 : HostFrame ns a b)
    (h2 : HostFrame ns b c) : HostFrame ns a c := by
  refine ⟨h2.dev.trans h1.dev, fun n hn => (h2.modules n hn).trans (h1.modules n hn), ?_⟩
  intro n m' hm hs
  obtain ⟨m, hm', hs'⟩ := h2.synced n m' hm hs
  exact h1.synced n m hm' hs'

variable {h' : Host}

theorem HostFrame.mono {ns ns' : String → Prop} (hsub : ∀ n, ns n → ns' n) {h : Host}
    (hf : HostFrame ns h h') : HostFrame ns' h h' :=
  ⟨hf.dev, fun n hn => hf.modules n (fun h => hn (hsub n h)), hf.synced⟩

theorem HostFrame.contents {h : Host} (hf : HostFrame (fun _ => False) h h') :
    h'.contents = h.contents := by
  funext n
  rw [Host.contents, Host.contents, hf.modules n (fun hn => hn)]

theorem HostFrame.localSync {ns : String → Prop} {h : Host} (hf : HostFrame ns h h') {n : String}
    (hdev : n ∈ h.dev → (h.get n).isSome = true) (hn : h'.localSync n = true) :
    h.localSync n = true := by
  obtain ⟨m', hm', hor⟩ := Host.localSync_iff.mp hn
  rw [Host.localSync_iff]
  rcases hor with hsync | hmem
  · obtain ⟨m, hm, hs⟩ := hf.synced n m' hm' hsync
    exact ⟨m, hm, Or.inl hs⟩
  · rw [hf.dev] at hmem
    obtain ⟨m, hm⟩ := Option.isSome_iff_exists.mp (hdev hmem)
    exact ⟨m, hm, Or.inr hmem⟩

section

variable {ns : String → Prop} {n : String} (hn : ns n)
include hn

theorem hostFrame_of_slot {h : Host} (hdev : h'.dev = h.dev) (hel : ∀ k, n ≠ k → h'.get k = h.get k)
    (hsl : ∀ m', h'.get n = some m' → m'.source.isSynchronized = true →
      ∃ m, h.get n = some m ∧ m.source.isSynchronized = true) :
    HostFrame ns h h' := by
  refine ⟨hdev, fun k hk => hel k ?_, fun k m' hm hs => ?_⟩
  · rintro rfl
    exact hk hn
  · by_cases hkn : n = k
    · subst hkn
      exact hsl m' hm hs
    · rw [hel k hkn] at hm
      exact ⟨m', hm, hs⟩

theorem hostFrame_stop (h : Host) : HostFrame ns h (h.stop n) := by
  refine hostFrame_of_slot hn (h.stop_dev n) (fun k hk => by rw [Host.get_stop, if_neg hk]) ?_
  intro m' hm hs
  rw [Host.get_stop, if_pos rfl] at hm
  obtain ⟨m, hget, rfl⟩ := Option.map_eq_some_iff.mp hm
  exact ⟨m, hget, hs⟩

theorem hostFrame_run (h : Host) : HostFrame ns h (h.run n) := by
  refine hostFrame_of_slot hn (h.run_dev n) (fun k hk => by rw [Host.get_run, if_neg hk]) ?_
  intro m' hm hs
  rw [Host.get_run, if_pos rfl] at hm
  obtain ⟨m, hget, rfl⟩ := Option.map_eq_some_iff.mp hm
  exact ⟨m, hget, hs⟩

theorem hostFrame_erase (h : Host) : HostFrame ns h (h.erase n) := by
  refine hostFrame_of_slot hn (h.erase_dev n) (fun k hk => by rw [Host.get_erase, if_neg hk]) ?_
  intro m' hm
  rw [Host.get_erase, if_pos rfl] at hm
  cases hm

theorem hostFrame_activate (h : Host) {b : ModuleBundle} (hb : b.manifest.id = n) :
    HostFrame ns h (h.activate b) := by
  subst hb
  refine hostFrame_of_slot hn (h.activate_dev b) ?_ ?_
  · intro k hk
    rw [Host.activate, Host.get_put]
    exact if_neg hk
  · intro m' hm hs
    rw [Host.activate, Host.get_put, if_pos rfl] at hm
    cases hm
    cases hs

theorem hostFrame_leave (h : Host) (r : Option Remains) : HostFrame ns h (h.leave n r) := by
  refine hostFrame_of_slot hn (h.leave_dev n r) (fun k hk => h.get_leave_of_ne hk r) ?_
  intro m' hm hs
  cases r with
  | none =>
    rw [Host.leave, Host.get_erase, if_pos rfl] at hm
    cases hm
  | some r =>
    rw [Host.leave, Host.get_put, if_pos rfl] at hm
    cases hm
    -- what is left has the old source at most
    cases hk : r.keepsSource with
    | false =>
      simp [hk, ModuleInstallSource.isSynchronized] at hs
    | true =>
      simp only [hk, if_true] at hs
      cases hg : h.get n with
      | none => rw [hg] at hs; cases hs
      | some m => rw [hg] at hs; exact ⟨m, rfl, hs⟩

end

/-! ### Relations the clock keeps

The rules for composing computations, once for every relation between
worlds that holds when only the clock moves. -/

section Steady

variable [DepotProtocol]

structure Steady (R : World → World → Prop) : Prop where
  refl : ∀ w, R w w
  trans : ∀ a b c, R a b → R b c → R a c
  tick : ∀ w : World, R w (w.tickTo (w.tick + 1))

namespace Steady

variable {R : World → World → Prop} (hR : Steady R) {ε α β γ : Type} {env : Env}
include hR

theorem pure (a : α) : Keeps R (Pure.pure a : Act World ε α) := keeps_pure hR.refl a

theorem fail (e : ε) : Keeps R (Act.fail e : Act World ε α) := keeps_fail hR.refl e

theorem read (f : World → α) : Keeps R (Act.read f : Act World ε α) := keeps_read hR.refl f

theorem lift (r : Except ε α) : Keeps R (Act.lift r : Act World ε α) := keeps_lift hR.refl r

theorem bind {x : Act World ε α} {f : α → Act World ε β} (hx : Keeps R x)
    (hf : ∀ a, Keeps R (f a)) : Keeps R (x >>= f) := keeps_bind hR.trans hx hf

variable {bs : List β}

theorem each {f : β → Act World ε Unit} (hf : ∀ b ∈ bs, Keeps R (f b)) :
    Keeps R (Act.each f bs) := keeps_each hR.refl hR.trans hf

theorem collect {f : β → Act World ε γ} (hf : ∀ b ∈ bs, Keeps R (f b)) :
    Keeps R (Act.collect f bs) := keeps_collect hR.refl hR.trans hf

omit hR in
theorem effect {err : String → ε} {failed done : World → World}
    (hfai : ∀ w, R w ((failed w).tickTo (w.tick + 1)))
    (hdo : ∀ w, R w ((done w).tickTo (w.tick + 1))) :
    Keeps R (Fenrir.effect env err failed done) := by
  intro w
  simp only [Fenrir.effect]
  cases env.fails w.tick with
  | none => exact hdo w
  | some msg => exact hfai w

theorem effect_id (err : String → ε) : Keeps R (Fenrir.effect env err id id) :=
  effect hR.tick hR.tick

theorem readFile (path : Path) : Keeps R (Fenrir.readFile env path) := by
  refine hR.bind (hR.effect_id _) (fun _ => hR.bind (hR.read _) (fun file => ?_))
  cases file with
  | none => exact hR.fail _
  | some bytes => exact hR.pure _

theorem load : Keeps R (Fenrir.load env) := by
  refine hR.bind (hR.effect_id _) (fun _ => hR.bind (hR.read _) (fun file => ?_))
  cases file with
  | none => exact hR.pure _
  | some state =>
    by_cases hf : state.format = stateFormat
    · simp only [if_pos hf]
      exact hR.pure _
    · simp only [if_neg hf]
      exact hR.fail _

theorem loadBackup (name : String) : Keeps R (Fenrir.loadBackup env name) :=
  hR.bind (hR.effect_id _) (fun _ => hR.read _)

theorem modules [BundleFormat] : Keeps R (Fenrir.modules env) :=
  hR.bind (hR.effect_id _) (fun _ => hR.bind (hR.read _) (fun _ => hR.lift _))

end Steady

end Steady

/-! ### Frames -/

section

variable [DepotProtocol]

/-- The calls made in between that stop or restart modules or change files are
about modules of `ns`. -/
def CallsWithin (ns : String → Prop) (w w' : World) : Prop :=
  ∃ made, w'.calls = w.calls ++ made ∧ ∀ c ∈ made, ∀ n, c.touches n → ns n

variable {ns ds : String → Prop}

variable {w w' : World} {c : HostCall}

theorem callsWithin_of_eq (h : w'.calls = w.calls) : CallsWithin ns w w' :=
  ⟨[], by rw [h, List.append_nil], nofun⟩

theorem CallsWithin.one (h : w'.calls = w.calls ++ [c]) (hc : ∀ n, c.touches n → ns n) :
    CallsWithin ns w w' :=
  ⟨[c], h, fun c' hc' n hn => hc n (by rwa [List.mem_singleton.mp hc'] at hn)⟩

theorem CallsWithin.trans {a b c : World} (h1 : CallsWithin ns a b) (h2 : CallsWithin ns b c) :
    CallsWithin ns a c := by
  obtain ⟨l1, hl1, ht1⟩ := h1
  obtain ⟨l2, hl2, ht2⟩ := h2
  refine ⟨l1 ++ l2, by rw [hl2, hl1, List.append_assoc], fun c hc => ?_⟩
  rcases List.mem_append.mp hc with h | h
  · exact ht1 c h
  · exact ht2 c h

theorem CallsWithin.mono {ns' : String → Prop} (hns : ∀ n, ns n → ns' n) (h : CallsWithin ns w w') :
    CallsWithin ns' w w' := by
  obtain ⟨made, hma, ht⟩ := h
  exact ⟨made, hma, fun c hc n hn => hns n (ht c hc n hn)⟩

/-- Only the modules `ns` and the backup directories `ds` may have changed. -/
structure Frame (ns ds : String → Prop) (w w' : World) : Prop where
  host : HostFrame ns w.host w'.host
  state : w'.disk.stateFile = w.disk.stateFile
  blobs : w'.disk.blobs = w.disk.blobs
  locked : w'.disk.locked = w.disk.locked
  dirs : ∀ d, ¬ ds d → w'.disk.backups[d]? = w.disk.backups[d]?
  names : w'.names = w.names
  calls : CallsWithin ns w w'
  tick : w.tick ≤ w'.tick

theorem Frame.refl (w : World) : Frame ns ds w w :=
  ⟨.refl ns w.host, rfl, rfl, rfl, fun _ _ => rfl, rfl, callsWithin_of_eq rfl, le_refl _⟩

theorem Frame.trans (a b c : World) (h1 : Frame ns ds a b) (h2 : Frame ns ds b c) :
    Frame ns ds a c :=
  ⟨h1.host.trans h2.host, h2.state.trans h1.state, h2.blobs.trans h1.blobs,
    h2.locked.trans h1.locked, fun d hd => (h2.dirs d hd).trans (h1.dirs d hd),
    h2.names.trans h1.names, h1.calls.trans h2.calls, le_trans h1.tick h2.tick⟩

variable {env : Env} {ε : Type}

theorem frame_tick (w : World) : Frame ns ds w (w.tickTo (w.tick + 1)) :=
  ⟨.refl ns w.host, rfl, rfl, rfl, fun _ _ => rfl, rfl, callsWithin_of_eq rfl, le_succ _⟩

theorem frame_steady : Steady (Frame ns ds) := ⟨Frame.refl, Frame.trans, frame_tick⟩

theorem frame_now : Keeps (Frame ns ds) (now env : Act World ε String) := frame_tick

theorem frame_setDir {name : String} (hd : ds name) (f : BackupDir → BackupDir) (w : World) :
    Frame ns ds w ((setDir name f w).tickTo (w.tick + 1)) := by
  refine ⟨.refl ns w.host, rfl, rfl, rfl, ?_, rfl, callsWithin_of_eq rfl, le_succ _⟩
  intro d hd'
  have hne : name ≠ d := by
    rintro rfl
    exact hd' hd
  simp only [World.tickTo_disk, setDir, BTreeMap.get_insert, if_neg hne]

theorem frame_hostCall {f : Host → Host} (hc : ∀ n, c.touches n → ns n)
    (hf : HostFrame ns w.host (f w.host)) :
    Frame ns ds w ((logCall c (onHost f w)).tickTo (w.tick + 1)) :=
  ⟨hf, rfl, rfl, rfl, fun _ _ => rfl, rfl, .one rfl hc, le_succ _⟩

theorem frame_call {n : String} {f : Host → Host} (hn : ns n) (hc : ∀ k, c.touches k → ns k)
    (hf : ∀ h, HostFrame ns h (f h)) : Keeps (Frame ns ds) (hostCall env c n f) :=
  Steady.effect (fun w => frame_hostCall hc (hostFrame_leave hn w.host _))
    (fun w => frame_hostCall hc (hf w.host))

theorem frame_log (hc : ∀ k, c.touches k → ns k) :
    Keeps (Frame ns ds) (modify (logCall c) : Act World ε Unit) := by
  intro w
  exact ⟨.refl ns w.host, rfl, rfl, rfl, fun _ _ => rfl, rfl, .one rfl hc, le_refl _⟩

section

variable {n : String} (hn : ns n)
include hn

theorem frame_stop : Keeps (Frame ns ds) (stop env n) :=
  frame_call hn (fun k hk => by rwa [← show n = k from hk]) (hostFrame_stop hn)

theorem frame_activate {b : ModuleBundle} (hb : b.manifest.id = n) :
    Keeps (Frame ns ds) (activate env b) := by
  subst hb
  exact frame_call hn (fun k hk => by rwa [← show b.manifest.id = k from hk])
    (fun h => hostFrame_activate hn h rfl)

theorem frame_remove : Keeps (Frame ns ds) (remove env n) := by
  have hc : ∀ k, (HostCall.remove n).touches k → ns k := fun k hk => by rwa [← show n = k from hk]
  refine frame_steady.bind (frame_steady.read _) ?_
  intro installed
  cases installed with
  | none => exact frame_steady.bind (frame_log hc) (fun _ => frame_steady.fail _)
  | some m => exact frame_call hn hc (hostFrame_erase hn)

theorem frame_rollingRestart : Keeps (Frame ns ds) (rollingRestart env n) :=
  frame_call hn (fun k hk => by rwa [← show n = k from hk]) (fun h => .refl ns h)

theorem frame_waitHealthy : Keeps (Frame ns ds) (waitHealthy env n) := by
  refine frame_steady.bind (frame_steady.read _) ?_
  intro running
  cases running with
  | false => exact frame_steady.bind (frame_log (fun _ hk => hk.elim)) (fun _ => frame_steady.fail _)
  | true => exact frame_call hn (fun _ hk => hk.elim) (fun h => .refl ns h)

theorem frame_ensureRunning : Keeps (Frame ns ds) (ensureRunning env n) := by
  refine frame_steady.bind (frame_steady.read _) (fun installed =>
    frame_steady.bind (frame_steady.read _) (fun dev => ?_))
  cases installed with
  | none => exact frame_steady.pure _
  | some m =>
    by_cases hsk : m.running = true ∨ n ∈ dev
    · simp only [if_pos hsk]
      exact frame_steady.pure _
    · simp only [if_neg hsk]
      refine Steady.effect (fun w => ?_) (fun w => ?_)
      · exact ⟨hostFrame_leave hn w.host _, rfl, rfl, rfl, fun _ _ => rfl, rfl,
          callsWithin_of_eq rfl, le_succ _⟩
      · exact ⟨hostFrame_run hn w.host, rfl, rfl, rfl, fun _ _ => rfl, rfl,
          callsWithin_of_eq rfl, le_succ _⟩

end

theorem frame_logged_effect (hc : ∀ k, c.touches k → ns k) (err : String → ε) :
    Keeps (Frame ns ds) (effect env err (logCall c) (logCall c)) :=
  Steady.effect (fun w => frame_hostCall (f := id) hc (.refl ns w.host))
    (fun w => frame_hostCall (f := id) hc (.refl ns w.host))

theorem frame_applyMigrations (ms : List String) : Keeps (Frame ns ds) (applyMigrations env ms) :=
  frame_steady.bind (frame_logged_effect (c := .applyMigrations ms) (fun _ hk => hk.elim) id)
    (fun _ => frame_steady.read _)

theorem frame_start {ms : List String} (hms : ∀ n ∈ ms, ns n) :
    Keeps (Frame ns ds) (start env ms) := by
  refine frame_steady.bind (frame_logged_effect (c := .start ms) (fun _ hk => hk.elim) id)
    (fun _ => ?_)
  intro w
  exact frame_steady.each (fun n hn => frame_ensureRunning (hms n (mem_startOrder.mp hn))) w

theorem frame_backup {module name file : String} (hd : ds name) :
    Keeps (Frame ns ds) (backup env module name file) := by
  refine frame_steady.bind (frame_steady.read _) (fun packaged => ?_)
  cases packaged with
  | none => exact frame_steady.bind (frame_steady.effect_id _) (fun _ => frame_steady.pure _)
  | some p =>
    refine frame_steady.bind (Steady.effect (fun w => ?_) (fun w => frame_setDir hd _ w))
      (fun _ => frame_steady.pure _)
    cases env.fileLeft w.tick with
    | none => exact frame_tick w
    | some bytes => exact frame_setDir hd _ w

theorem frame_saveBackup {name : String} (hd : ds name) (r : BackupRecord) :
    Keeps (Frame ns ds) (saveBackup env name r) :=
  Steady.effect frame_tick (fun w => frame_setDir hd _ w)

theorem frame_createDir {name : String} (hd : ds name) : Keeps (Frame ns ds) (createDir env name) :=
  Steady.effect frame_tick (fun w => frame_setDir hd _ w)

theorem frame_mapErr {ε' α : Type} {f : ε → ε'} {x : Act World ε α} (hx : Keeps (Frame ns ds) x) :
    Keeps (Frame ns ds) (mapErr f x) := keeps_mapErr hx

end

/-! ## Keeping house

Taking and dropping the lock, pruning backups and blobs: no module and not
the state file. -/

section

variable [DepotProtocol] {env : Env} {keep : Option String}

structure Tidies (keep : Option String) (w w' : World) : Prop where
  host : w'.host = w.host
  state : w'.disk.stateFile = w.disk.stateFile
  calls : w'.calls = w.calls
  names : w'.names = w.names
  kept : ∀ n, keep = some n → w'.disk.backups[n]? = w.disk.backups[n]?
  tick : w.tick ≤ w'.tick

theorem Tidies.refl (w : World) : Tidies keep w w := ⟨rfl, rfl, rfl, rfl, fun _ _ => rfl, le_refl _⟩

theorem Tidies.trans (a b c : World) (h1 : Tidies keep a b) (h2 : Tidies keep b c) :
    Tidies keep a c :=
  ⟨h2.host.trans h1.host, h2.state.trans h1.state, h2.calls.trans h1.calls,
    h2.names.trans h1.names, fun n hn => (h2.kept n hn).trans (h1.kept n hn),
    le_trans h1.tick h2.tick⟩

theorem tidies_tick (w : World) : Tidies keep w (w.tickTo (w.tick + 1)) :=
  ⟨rfl, rfl, rfl, rfl, fun _ _ => rfl, le_succ _⟩

theorem tidies_steady : Steady (Tidies keep) := ⟨Tidies.refl, Tidies.trans, tidies_tick⟩

theorem tidies_removeDir {name : String} (hna : some name ≠ keep) :
    Keeps (Tidies keep) (removeDir env name) := by
  have hne : ∀ n, keep = some n → name ≠ n := by
    rintro n rfl rfl
    exact hna rfl
  have hera : ∀ w : World, Tidies keep w
      (({ w with disk := { w.disk with backups := w.disk.backups.erase name } } : World).tickTo
        (w.tick + 1)) := by
    intro w
    refine ⟨rfl, rfl, rfl, rfl, fun n hn => ?_, le_succ _⟩
    simp only [World.tickTo_disk, BTreeMap.get_erase, if_neg (hne n hn)]
  refine Steady.effect (fun w => ?_) hera
  cases env.dirLeft w.tick with
  | none => exact hera w
  | some dir =>
    refine ⟨rfl, rfl, rfl, rfl, fun n hn => ?_, le_succ _⟩
    simp only [World.tickTo_disk, setDir, BTreeMap.get_insert, if_neg (hne n hn)]

theorem tidies_pruneBackups : Keeps (Tidies keep) (pruneBackups env keep) := by
  refine tidies_steady.bind (tidies_steady.effect_id _) (fun _ => ?_)
  refine tidies_steady.bind (tidies_steady.read _) (fun names => ?_)
  refine tidies_steady.each (fun n hn => tidies_removeDir ?_)
  simpa using (List.mem_filter.mp hn).2

theorem pruneBackups_error {w w' : World} {e : DepotError}
    (h : pruneBackups env keep w = (.error e, w')) :
    ∃ msg, e = .io msg ∧ ∃ k, env.pruneFails k = some msg := by
  rcases bind_error_iff.mp h with hread | ⟨u, w1, -, h⟩
  · obtain ⟨msg, he, -, hfails⟩ := effect_error hread
    exact ⟨msg, he, _, hfails⟩
  · rcases bind_error_iff.mp h with hnames | ⟨names, w2, -, h⟩
    · cases hnames
    · obtain ⟨n, -, w3, hrem⟩ := each_error h
      obtain ⟨msg, he, -, hfails⟩ := effect_error hrem
      exact ⟨msg, he, _, hfails⟩

theorem tidies_takeLock : Keeps (Tidies keep) (takeLock env) := by
  refine tidies_steady.bind (tidies_steady.effect_id _) (fun _ => ?_)
  refine tidies_steady.bind (tidies_steady.read _) (fun locked => ?_)
  cases locked with
  | true => exact tidies_steady.fail _
  | false =>
    exact Steady.effect tidies_tick (fun _ => ⟨rfl, rfl, rfl, rfl, fun _ _ => rfl, le_succ _⟩)

variable (env keep) in
theorem tidies_releaseLock (w : World) : Tidies keep w (releaseLock env w) := by
  simp only [releaseLock]
  cases env.fails w.tick with
  | some _ => exact tidies_tick w
  | none => exact ⟨rfl, rfl, rfl, rfl, fun _ _ => rfl, le_succ _⟩

end

end Fenrir
