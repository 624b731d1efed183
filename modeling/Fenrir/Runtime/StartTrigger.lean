import Fenrir.Runtime.Instances
import Fenrir.Security.TokenLeases

/-! # Starting a module

`start_with_trigger` of `services/module/runtime.rs`: after its checks it brings up the
module's runtime gateway, has a service token issued, resolves the environment, starts the
primary instance with a time limit and adds replicas. A start that runs into its time limit
is dropped at one of its await points (`DropPoint`). -/

namespace Fenrir.Runtime

open Effect Effect.Act Modules

/-! ## State and answers -/

/-- `RuntimeGatewayHandle`, and whether its server has ended. -/
structure Gateway where
  endpoint : String
  finished : Bool

structure ServiceWorld where
  service : Tokens.ModuleService
  gateways : BTreeMap Gateway
  runtime : RuntimeState

inductive PhaseAnswer where
  | passed
  | failed (err : ModuleRuntimeError)
  | timedOut

/-- Where a start that took too long is dropped: before it has spawned anything, after
the spawn while it waits for the map's lock, or after the insertion while the state
is saved. -/
inductive DropPoint where
  | waiting | spawned | inserted

/-- What the outside says during one attempt, in the order it is asked. -/
structure AttemptAnswers where
  load : Except String (Option SemVersion)
  registerDeclaredServices : Except String Unit
  now : Nat
  quarantinedUntil : Option Int
  assignedPort : Except ModuleRuntimeError (Option Nat)
  preflight : PhaseAnswer
  preflightTimeoutMs : Nat
  bindGateway : Option String
  gatewayAddr : Except String Nat
  tokenTimedOut : Bool
  tokenTimeoutMs : Nat
  draw : Tokens.Draw
  /-- The variables the host itself sets. -/
  hostEnv : List (String × String) → List (String × String)
  /-- The configured variables, resolved. -/
  configuredEnv : List (Except String (String × String))
  start : RuntimeAnswers
  /-- Where the start was dropped, if it ran into its limit. -/
  dropped : Option DropPoint
  runtimeTimeoutMs : Nat
  stop : RuntimeAnswers
  failureQuarantine : Option Int
  desiredReplicas : Nat
  reconcile : RuntimeAnswers

/-! ## Parts of the state -/

abbrev ServiceAct (α : Type) : Type := Act ServiceWorld ModuleRuntimeError α

def onRuntime {α : Type} (x : Act RuntimeState ModuleRuntimeError α) : ServiceAct α := fun w =>
  ((x w.runtime).1, { w with runtime := (x w.runtime).2 })

def onService {α : Type}
    (f : Tokens.ModuleService → Except ModuleRuntimeError α × Tokens.ModuleService) :
    ServiceAct α := fun w =>
  ((f w.service).1, { w with service := (f w.service).2 })

/-! ## The gateway -/

def spawnGatewayServer (a : AttemptAnswers) (m : ModuleId) : Except ModuleRuntimeError Gateway :=
  match a.bindGateway with
  | some err =>
    .error (.startFailed m.value ("failed to bind runtime gateway socket: " ++ err))
  | none =>
    match a.gatewayAddr with
    | .error err =>
      .error (.startFailed m.value ("failed to read runtime gateway socket: " ++ err))
    | .ok port => .ok ⟨"http://127.0.0.1:" ++ toString port ++ "/call", false⟩

def liveGateway (w : ServiceWorld) (m : ModuleId) : Option Gateway :=
  (w.gateways[m.value]?).filter (!·.finished)

/-- `RuntimeGatewayRegistry::ensure`. -/
def ensureGateway (a : AttemptAnswers) (m : ModuleId) : ServiceAct String := fun w =>
  match liveGateway w m with
  | some gateway => (.ok gateway.endpoint, w)
  | none =>
    match spawnGatewayServer a m with
    | .error err => (.error err, w)
    | .ok gateway =>
      (.ok gateway.endpoint, { w with gateways := w.gateways.insert m.value gateway })

/-- `RuntimeGatewayRegistry::stop`. -/
def stopGateway (m : ModuleId) : ServiceAct Unit :=
  modify fun w => { w with gateways := w.gateways.erase m.value }

/-! ## The token -/

/-- The token phase: nothing is issued once the limit has passed, as the only thing to wait
for comes before the issuing. -/
def issueToken (a : AttemptAnswers) (m : ModuleId) : ServiceAct (Option DelegatedToken) := do
  if a.tokenTimedOut then do
    stopGateway m
    fail (.startFailed m.value ("MODULE-SLO-002: token issuance exceeded "
      ++ toString a.tokenTimeoutMs ++ " ms"))
  else do
    let issued ← attempt (onService fun service => service.issueModuleServiceToken m.value a.draw)
    match issued with
    | .ok token => pure token
    | .error err => do
        stopGateway m
        fail err

/-- `revoke_service_token` of a token that was issued; a failure is logged. -/
def revokeIssued (a : AttemptAnswers) (token : Option DelegatedToken) : ServiceAct Unit :=
  modify fun w =>
    match token with
    | none => w
    | some token => { w with service := w.service.revokeServiceToken token.token a.draw }

/-! ## The environment -/

def reservedEnvKeys : List String :=
  ["FENRIR_ENV", "FENRIR_MODULE_ID", "FENRIR_SERVICE_ID", "FENRIR_SERVICE_URI",
    "FENRIR_SERVICE_PORT", "FENRIR_SERVICE_ADDR", "FENRIR_SERVICE_TOKEN",
    "FENRIR_SERVICE_TOKEN_ISSUED_AT", "FENRIR_SERVICE_TOKEN_EXPIRES_AT",
    "FENRIR_SERVICE_TOKEN_TTL_SECS", "FENRIR_DB_CONNECTOR_PROTOCOL",
    "FENRIR_DB_CONNECTOR_ENDPOINT", "FENRIR_DB_CONNECTOR_URI", "FENRIR_DB_CONNECTOR_FRAMED",
    "FENRIR_CONTROL_PLANE_URL", "FENRIR_SERVICE_SNAPSHOT_PATH", "FENRIR_GATEWAY_ENDPOINT"]

/-- `append_configured_env`: the first variable that does not resolve is the error. -/
def appendConfiguredEnv : List (Except String (String × String)) → List (String × String) →
      Except ModuleRuntimeError (List (String × String))
  | [], env => .ok env
  | .error message :: _, _ => .error (.invalidState message)
  | .ok (key, value) :: rest, env =>
    if key ∈ reservedEnvKeys then appendConfiguredEnv rest env
    else appendConfiguredEnv rest (env.filter (·.1 ≠ key) ++ [(key, value)])

def injectRuntimeEnv (a : AttemptAnswers) (env : List (String × String)) :
    Except ModuleRuntimeError (List (String × String)) :=
  appendConfiguredEnv a.configuredEnv (a.hostEnv (env.filter (·.1 ∉ reservedEnvKeys)))

/-! ## The runtime -/

section

variable (host : ProcessModuleRuntime)

section

variable (a : AttemptAnswers) (m : ModuleId) (config : ModuleStartConfig)

/-- What a start that is dropped has done. The server of a static site that is not in the
map yet ends with it. -/
def droppedStart (answers : RuntimeAnswers) (config : ModuleStartConfig) (point : DropPoint)
    (s : RuntimeState) : RuntimeState :=
  if (selectPrimaryInstance config.moduleId s.running).isSome then s
  else
    match launch host (answers.start (primaryInstanceId config.moduleId)) config.moduleId
        (primaryInstanceId config.moduleId) true config.port config.envVars with
    | .error _ => s
    | .ok st =>
      match point with
      | .waiting => s
      | .spawned => { s with processes := spawned st ++ s.processes }
      | .inserted => withInstance s st

/-- The runtime phase, with the cleanup of its failures. -/
def startRuntime (token : Option DelegatedToken) : ServiceAct ModuleRuntimeInfo :=
  match a.dropped with
  | some point => do
      modify fun w => { w with runtime := droppedStart host a.start config point w.runtime }
      stopGateway config.moduleId
      let _ ← attempt (ε := ModuleRuntimeError) (onRuntime (stop a.stop config.moduleId))
      revokeIssued a token
      fail (.startFailed config.moduleId.value ("MODULE-SLO-003: runtime start exceeded "
        ++ toString a.runtimeTimeoutMs ++ " ms"))
  | none => do
      let started ← attempt (onRuntime (start host a.start config))
      match started with
      | .ok info => pure info
      | .error err => do
          stopGateway config.moduleId
          revokeIssued a token
          fail (match a.failureQuarantine with
            | some resumeAt => .quarantined config.moduleId.value resumeAt
            | none => err)

def addReplicas : ServiceAct Unit :=
  if 1 < max a.desiredReplicas 1 then do
    let _ ← onRuntime (reconcileInstances host a.reconcile config (max a.desiredReplicas 1))
    pure ()
  else pure ()

def recordIssued (token : Option DelegatedToken) : ServiceAct Unit :=
  modify fun w =>
    match token with
    | none => w
    | some token => { w with service := w.service.recordServiceToken m.value token }

/-- `start_with_trigger` once its checks have passed. -/
def startChecked (assignedPort : Option Nat) : ServiceAct ModuleRuntimeInfo := do
  let endpoint ← ensureGateway a config.moduleId
  let token ← issueToken a config.moduleId
  let env ← lift (injectRuntimeEnv a config.envVars)
  let config := { config with
    port := assignedPort
    envVars := env.filter (·.1 ≠ "FENRIR_GATEWAY_ENDPOINT")
      ++ [("FENRIR_GATEWAY_ENDPOINT", endpoint)] }
  let info ← startRuntime host a config token
  addReplicas host a config
  recordIssued config.moduleId token
  pure info

/-- `ModuleRuntimePort::status` says that the module is running. -/
def isRunning (s : RuntimeState) : Bool :=
  match selectPrimaryInstance m s.running with
  | none => false
  | some st => (infoFromState s.processes st).status = .running

/-- What comes before the look for a dev override. -/
def loadModule : Except ModuleRuntimeError SemVersion :=
  match a.load, a.registerDeclaredServices with
  | .error err, _ => .error (.invalidState err)
  | .ok none, _ => .error (.notInstalled m.value)
  | .ok (some _), .error err => .error (.invalidState err)
  | .ok (some version), .ok () => .ok version

/-- The checks: the runtime's status, the quarantine, the port and the preflight. -/
def checkStart (s : RuntimeState) : Except ModuleRuntimeError (Option Nat) :=
  if isRunning config.moduleId s then .error (.alreadyRunning config.moduleId.value)
  else
    match a.quarantinedUntil with
    | some until_ => .error (.quarantined config.moduleId.value until_)
    | none =>
      match (if config.port.isSome then .ok config.port else a.assignedPort) with
      | .error err => .error err
      | .ok port =>
        match a.preflight with
        | .passed => .ok port
        | .failed err => .error err
        | .timedOut => .error (.startFailed config.moduleId.value
            ("MODULE-SLO-001: preflight phase exceeded " ++ toString a.preflightTimeoutMs
              ++ " ms"))

/-- `start_with_trigger`. No module is unmanaged (`is_unmanaged_module`). -/
def startWithTrigger : ServiceAct ModuleRuntimeInfo := do
  let version ← lift (loadModule a config.moduleId)
  let overridden ← read fun w => w.service.isDevOverrideActive config.moduleId.value
  if overridden then
    pure ⟨config.moduleId, version, .running, .process, none, config.port, some a.now, none, 0⟩
  else do
    let checked ← read fun w => checkStart a config w.runtime
    let port ← lift checked
    startChecked host a config port

end

end

end Fenrir.Runtime
