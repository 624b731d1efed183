import Fenrir.Modules.Install

/-! # The process runtime

`infra/modules/runtime/process.rs`: the instances of modules, each a process (or a static
site served by the host itself). A map from instance ids says what is running; the state
also holds the processes that were spawned and are alive. What the outside decides (files,
the bootstrap script, spawning, killing) is an answer to the operation. -/

namespace Fenrir.Runtime

open Effect Effect.Act Modules

/-! ## Instance ids -/

/-- `ModuleId`: lower-case letters, digits, `-` and `_`. -/
structure ModuleId where
  value : String
  valid : moduleId value = .ok value
  deriving DecidableEq

def primaryInstanceId (m : ModuleId) : String := m.value ++ ":primary"

def replicaInstanceId (m : ModuleId) (ordinal : Nat) : String :=
  m.value ++ ":replica:" ++ toString ordinal

/-- `usize::MAX` on a 64-bit host. -/
def usizeMax : Nat := 2 ^ 64 - 1

/-- `str::parse::<usize>`. -/
def parseUsize (text : List Char) : Option Nat :=
  let digits := match text with
    | '+' :: rest => rest
    | _ => text
  if digits = [] ∨ digits.all Char.isDigit = false then none
  else if Nat.ofDigitChars 10 digits 0 ≤ usizeMax then some (Nat.ofDigitChars 10 digits 0)
  else none

def replicaOrdinal (instanceId : String) : Option Nat :=
  (Text.rsplitOnce ":replica:".toList instanceId.toList).bind fun split => parseUsize split.2

/-! ## What is running -/

inductive RunningModuleKind where
  | process (pid : Nat)
  | staticSite

structure RunningModuleState where
  instanceId : String
  moduleId : ModuleId
  version : SemVersion
  port : Option Nat
  (startedAt restartCount : Nat)
  logFile : String
  env : Option (List (String × String))
  primary : Bool
  kind : RunningModuleKind

inductive ModuleRuntimeStatus where
  | running | failed
  deriving DecidableEq

inductive ModuleRuntimeKind where
  | process | staticSite

structure ModuleRuntimeInfo where
  moduleId : ModuleId
  version : SemVersion
  status : ModuleRuntimeStatus
  kind : ModuleRuntimeKind
  (pid port startedAt stoppedAt : Option Nat)
  restartCount : Nat

structure ModuleRuntimeInstanceInfo where
  instanceId : String
  primary : Bool
  runtime : ModuleRuntimeInfo

structure ModuleStartConfig where
  moduleId : ModuleId
  port : Option Nat
  envVars : List (String × String)

/-- A process that was spawned and is alive, and for whom. -/
structure Process where
  pid : Nat
  instanceId : String
  moduleId : ModuleId
  deriving DecidableEq

/-- `running_modules`, and the processes. -/
structure RuntimeState where
  running : BTreeMap RunningModuleState
  processes : List Process

def RuntimeState.empty : RuntimeState := ⟨∅, []⟩

/-- What does not change: `state_dir`, and the environment of the host without its own
variables. -/
structure ProcessModuleRuntime where
  stateDir : String
  sanitizedHostEnv : List (String × String)

/-! ## Answers from outside -/

inductive RuntimeMode where
  | auto | process | staticSite
  deriving DecidableEq

/-- What the file system and the operating system say while an instance is started. -/
structure StartAnswers where
  /-- `storage.load`: the version and the path of the installed module. -/
  load : Except String (Option (SemVersion × String))
  /-- The port in `config.toml`. -/
  configPort : Option Nat
  (createLogDir resetLogFile : Option String)
  /-- The mode in the runtime manifest, if there is one. -/
  manifestMode : Option RuntimeMode
  /-- The migrations directory of the manifest, if it is one. -/
  migrationsDir : Option String
  /-- Whether the manifest describes a static site, and whether one is found. -/
  manifestProfile : Except ModuleRuntimeError Bool
  discoveredProfile : Bool
  /-- `TcpListener::bind`: the port that was bound. -/
  bind : Except String Nat
  /-- `locate_process_binary`. -/
  binary : Except ModuleRuntimeError (Option String)
  openLogFile : Option String
  bootstrap : Option ModuleRuntimeError
  /-- `Command::spawn`: the process id. -/
  spawn : Except String Nat
  startedAt : Nat

/-- `kill_process`: the process is gone, or it could not be killed and may be alive. -/
inductive KillAnswer where
  | exited
  | failed (reason : String) (alive : Bool)

/-- The answers one operation gets, for starts by instance id and for kills by process. -/
structure RuntimeAnswers where
  start : String → StartAnswers
  kill : Nat → KillAnswer

/-! ## Reading the map -/

/-- The order of `module_instances`: the primary first, then by instance id. -/
def instanceLe (a b : RunningModuleState) : Prop :=
  (a.primary = true ∧ b.primary = false) ∨ (a.primary = b.primary ∧ a.instanceId ≤ b.instanceId)

instance : DecidableRel instanceLe := fun _ _ =>
  inferInstanceAs (Decidable (_ ∨ _))

section

variable (m : ModuleId) (running : BTreeMap RunningModuleState)

def statesOf : List RunningModuleState :=
  (running.toList.map Prod.snd).filter (·.moduleId = m)

def moduleInstances : List RunningModuleState :=
  (statesOf m running).insertionSort instanceLe

/-- `select_primary_instance`: a primary before a replica, then the latest start. -/
def selectPrimaryInstance : Option RunningModuleState :=
  (statesOf m running).foldl
    (fun best s =>
      match best with
      | none => some s
      | some b =>
        if b.primary && !s.primary then some b
        else if b.primary == s.primary && s.startedAt < b.startedAt then some b
        else some s) none

def maxOrdinal : Nat :=
  (statesOf m running).foldl
    (fun best s =>
      match replicaOrdinal s.instanceId with
      | some ordinal => max best ordinal
      | none => best) 0

/-- `next_replica_instance_id`: the addition saturates. -/
def nextReplicaInstanceId : String :=
  replicaInstanceId m (min (maxOrdinal m running + 1) usizeMax)

def infoFromState (processes : List Process) (s : RunningModuleState) : ModuleRuntimeInfo where
  moduleId := s.moduleId
  version := s.version
  status :=
    match s.kind with
    | .process pid => if processes.any (·.pid == pid) then .running else .failed
    | .staticSite => .running
  kind :=
    match s.kind with
    | .process _ => .process
    | .staticSite => .staticSite
  pid :=
    match s.kind with
    | .process pid => some pid
    | .staticSite => none
  port := s.port
  startedAt := some s.startedAt
  stoppedAt := none
  restartCount := s.restartCount

def listInstances : Act RuntimeState ModuleRuntimeError (List ModuleRuntimeInstanceInfo) := fun s =>
  if moduleInstances m s.running = [] then (.error (.notRunning m.value), s)
  else
    (.ok ((moduleInstances m s.running).map fun st =>
      ⟨st.instanceId, st.primary, infoFromState s.processes st⟩), s)

end

/-! ## Starting an instance -/

section

variable (host : ProcessModuleRuntime)

section

variable (a : StartAnswers) (m : ModuleId) (instanceId : String) (primary : Bool)

def buildLogFilePath (instanceId : String) : String :=
  let logDir := host.stateDir ++ "/logs/"
  if primary then logDir ++ m.value ++ ".log"
  else
    logDir ++ m.value ++ "__"
      ++ String.ofList (instanceId.toList.flatMap fun c => if c = ':' then ['_', '_'] else [c])
      ++ ".log"

/-- `try_start_static_site`, up to the entry it puts into the map. -/
def tryStartStaticSite (version : SemVersion) (env : List (String × String)) :
    Except ModuleRuntimeError RunningModuleState :=
  match a.bind with
  | .error err => .error (.startFailed m.value ("failed to bind static module port: " ++ err))
  | .ok port =>
    .ok
      { instanceId
        moduleId := m
        version
        port := some port
        startedAt := a.startedAt
        restartCount := 0
        logFile := buildLogFilePath host m primary instanceId
        env := some env
        primary
        kind := .staticSite }

/-- A call followed by `?`, given the error it fails with. -/
def orFail : Option ModuleRuntimeError → Except ModuleRuntimeError Unit
  | none => .ok ()
  | some err => .error err

/-- The last part of `start_specific_instance`: the binary, the bootstrap script and the
process. -/
def spawnProcess (port : Option Nat) (version : SemVersion) (modulePath : String)
    (env : List (String × String)) (binary : Option String) :
    Except ModuleRuntimeError RunningModuleState := do
  orFail (if binary.isSome then none else
    some (.startFailed m.value ("no executable module found in " ++ modulePath ++ ". Searched: "
      ++ m.value ++ ", bin/" ++ m.value ++ ", " ++ m.value ++ ".exe, bin/" ++ m.value ++ ".exe")))
  orFail (a.openLogFile.map fun err => .io ("failed to open log file: " ++ err))
  orFail a.bootstrap
  match a.spawn with
  | .error err => .error (.startFailed m.value ("failed to spawn process: " ++ err))
  | .ok pid =>
    .ok
      { instanceId
        moduleId := m
        version
        port
        startedAt := a.startedAt
        restartCount := 0
        logFile := buildLogFilePath host m primary instanceId
        env := some env
        primary
        kind := .process pid }

/-- `start_specific_instance` up to the process (or the site): the entry for the map. -/
def launch (requestedPort : Option Nat) (envVars : List (String × String)) :
    Except ModuleRuntimeError RunningModuleState := do
  let (version, modulePath) ← (match a.load with
    | .error err => .error (.invalidState err)
    | .ok none => .error (.notInstalled m.value)
    | .ok (some installed) => .ok installed)
  let port := if requestedPort.isSome then requestedPort else a.configPort
  orFail (a.createLogDir.map fun err => .io ("failed to create log directory: " ++ err))
  orFail (a.resetLogFile.map fun err => .io ("failed to reset log file: " ++ err))
  let mode := a.manifestMode.getD .auto
  let env := host.sanitizedHostEnv ++ envVars ++
    (a.migrationsDir.toList.map fun dir => ("FENRIR_MODULE_MIGRATIONS_DIR", dir))
  -- only these two modes look for a static site, in the manifest and then by themselves
  let mayBeStatic := mode = .auto ∨ mode = .staticSite
  let fromManifest ←
    (if mayBeStatic ∧ a.manifestMode.isSome then a.manifestProfile else .ok false)
  let profile := fromManifest || (decide mayBeStatic && a.discoveredProfile)
  if mode = .staticSite then
    if profile then tryStartStaticSite host a m instanceId primary version env
    else .error (.startFailed m.value
      ("no static assets with index.html were found under " ++ modulePath))
  else
    let binary ← a.binary
    if binary.isNone ∧ mode = .auto ∧ profile = true then
      tryStartStaticSite host a m instanceId primary version env
    else spawnProcess host a m instanceId primary port version modulePath env binary

def spawned (st : RunningModuleState) : List Process :=
  match st.kind with
  | .process pid => [⟨pid, st.instanceId, st.moduleId⟩]
  | .staticSite => []

def startSpecificInstance (answers : RuntimeAnswers) (m : ModuleId) (instanceId : String)
    (primary : Bool) (requestedPort : Option Nat) (envVars : List (String × String)) :
    Act RuntimeState ModuleRuntimeError ModuleRuntimeInfo := do
  let st ← lift (launch host (answers.start instanceId) m instanceId primary requestedPort envVars)
  modify fun s => { s with processes := spawned st ++ s.processes }
  modify fun s => { s with running := s.running.insert instanceId st }
  read fun s => { infoFromState s.processes st with status := .running }

def start (answers : RuntimeAnswers) (config : ModuleStartConfig) :
    Act RuntimeState ModuleRuntimeError ModuleRuntimeInfo := do
  let present ← read fun s => (selectPrimaryInstance config.moduleId s.running).isSome
  if present then fail (.alreadyRunning config.moduleId.value)
  else
    startSpecificInstance host answers config.moduleId (primaryInstanceId config.moduleId) true
      config.port config.envVars

end

/-! ## Stopping an instance -/

section

variable (answers : RuntimeAnswers) (m : ModuleId)

def killProcess (pid : Nat) : Act RuntimeState ModuleRuntimeError Unit := fun s =>
  let gone : RuntimeState := { s with processes := s.processes.filter (·.pid ≠ pid) }
  match answers.kill pid with
  | .exited => (.ok (), gone)
  | .failed reason alive =>
    (.error (.stopFailed "unknown" reason), if alive then s else gone)

def removeEntry (instanceId : String) :
    Act RuntimeState ModuleRuntimeError RunningModuleState := fun s =>
  match s.running[instanceId]? with
  | none => (.error (.notRunning m.value), s)
  | some st => (.ok st, { s with running := s.running.erase instanceId })

/-- Ending what an entry stands for; a static site ends by itself once told to. -/
def endInstance (st : RunningModuleState) : Act RuntimeState ModuleRuntimeError Unit :=
  match st.kind with
  | .process pid => killProcess answers pid
  | .staticSite => pure ()

/-- `stop_instance_by_id`, and the round of the loop of `stop`. -/
def stopInstanceById (instanceId : String) : Act RuntimeState ModuleRuntimeError Unit := do
  let st ← removeEntry m instanceId
  endInstance answers st

def stop : Act RuntimeState ModuleRuntimeError Unit := do
  let ids ← read fun s => (moduleInstances m s.running).map (·.instanceId)
  if ids.isEmpty then fail (.notRunning m.value)
  else each (stopInstanceById answers m) ids

end

/-! ## Restarting and reconciling -/

section

variable (answers : RuntimeAnswers) (config : ModuleStartConfig)

def recount (instanceId : String) (restartCount : Nat) (s : RuntimeState) : RuntimeState :=
  match s.running[instanceId]? with
  | none => s
  | some restarted =>
    { s with
      running := s.running.insert instanceId { restarted with restartCount } }

/-- `ModuleRuntimePort::restart_instance`: the entry is taken out before its owner is
compared. -/
def restartInstance (m : ModuleId) (instanceId : String) :
    Act RuntimeState ModuleRuntimeError ModuleRuntimeInfo := do
  let st ← removeEntry m instanceId
  if st.moduleId ≠ m then fail (.notRunning m.value)
  else do
    let restartCount := min (st.restartCount + 1) (2 ^ 32 - 1)
    endInstance answers st
    let info ← startSpecificInstance host answers m st.instanceId st.primary st.port
      (st.env.getD [])
    modify (recount st.instanceId restartCount)
    pure { info with restartCount }

def restart (m : ModuleId) : Act RuntimeState ModuleRuntimeError ModuleRuntimeInfo := do
  let instances ← listInstances m
  let restarted ← collect (fun i => restartInstance host answers m i.instanceId) instances
  match restarted with
  | [] => fail (.notRunning m.value)
  | info :: _ => pure info

def startReplica : Act RuntimeState ModuleRuntimeError Unit := do
  let instanceId ← read fun s => nextReplicaInstanceId config.moduleId s.running
  let _ ← startSpecificInstance host answers config.moduleId instanceId false none config.envVars

/-- The part of `reconcile_instances` that starts or stops instances: replicas are removed
from the end of the listing. -/
def adjustInstances (currentCount desiredInstances : Nat) :
    Act RuntimeState ModuleRuntimeError Unit :=
  if currentCount = 0 then do
    let _ ← start host answers config
    pure ()
  else if currentCount < desiredInstances then
    each (fun _ => startReplica host answers config)
      (List.range (desiredInstances - currentCount))
  else if desiredInstances < currentCount then do
    let instances ← listInstances config.moduleId
    each (fun i => stopInstanceById answers config.moduleId i.instanceId)
      ((instances.filter (!·.primary)).reverse.take (currentCount - desiredInstances))
  else pure ()

def reconcileInstances (desiredInstances : Nat) :
    Act RuntimeState ModuleRuntimeError (List ModuleRuntimeInstanceInfo) :=
  if desiredInstances = 0 then do
    let _ ← attempt (ε := ModuleRuntimeError) (stop answers config.moduleId)
    pure []
  else do
    let listed ← attempt (ε := ModuleRuntimeError) (listInstances config.moduleId)
    adjustInstances host answers config (listed.toOption.getD []).length desiredInstances
    listInstances config.moduleId

end

end

end Fenrir.Runtime
