import Fenrir.Gateway.Proxy
import Fenrir.Runtime.Rolling
import Fenrir.Security.TokenLeases

/-! # Reloading service overrides

`reload_service_overrides` and `rollback_service_overrides` of
`services/module/service.rs`. The new overrides are put in place first. Then every
installed module gets its descriptor registered again and, if it runs, is restarted,
reconciled to its new number of replicas, or stopped. If a health check fails the old
overrides come back and the modules that were restarted are restarted once more.

What the storage, the runtime and the health probes answer comes with the call
(`ReloadAnswers`). The runtime is the number of instances of each module: a start of a
module brings up as many as the overrides of the moment say, at least one, and a
reconciliation of a running module as many as it is asked for. -/

namespace Fenrir.Overrides

open Modules Gateway Tokens

/-! ## Overrides and descriptors -/

inductive ModuleEnvSource where
  | literal (value : String)
  | env (name : String)
  deriving DecidableEq

structure ModuleEnvVar where
  key : String
  source : ModuleEnvSource
  secret : Bool
  deriving DecidableEq

structure ServiceSecurityOverride where
  internalOnly : Option Bool
  allowedRoles : Option (List ServiceRole)
  requiredScopes : Option (List ServiceScope)
  tenantGuard : Option ServiceTenantGuard

def ServiceSecurityOverride.apply (self : ServiceSecurityOverride)
    (base : ServiceSecurityMetadata) : ServiceSecurityMetadata where
  internalOnly := self.internalOnly.getD base.internalOnly
  allowedRoles := self.allowedRoles.getD base.allowedRoles
  requiredScopes := self.requiredScopes.getD base.requiredScopes
  tenant := self.tenantGuard.getD base.tenant

/-- `ModuleServiceOverrides`; `rest` are the rollout settings and the profiles, which a
reload carries along. -/
structure ModuleServiceOverrides (ρ : Type) where
  env : BTreeMap (List ModuleEnvVar)
  security : BTreeMap ServiceSecurityOverride
  replicas : BTreeMap Nat
  rest : ρ

/-- `service_candidates`: the service itself, and the module in front of `::`. -/
def serviceCandidates (serviceId : String) : List String :=
  serviceId :: match Text.splitOnce [':', ':'] serviceId.toList with
    | some (moduleRoot, _) => [String.ofList moduleRoot]
    | none => []

namespace ModuleServiceOverrides

variable {ρ : Type}

section

variable (self : ModuleServiceOverrides ρ)

def securityOverride (serviceId : String) : Option ServiceSecurityOverride :=
  (serviceCandidates serviceId).findSome? fun candidate => self.security[candidate]?

def desiredReplicasFor (serviceId : String) : Option Nat :=
  (serviceCandidates serviceId).findSome? fun candidate => self.replicas[candidate]?

/-- `desired_replica_count` of a module. -/
def replicaCount (moduleId : String) : Nat :=
  (self.desiredReplicasFor (moduleServiceId moduleId)).getD 1

end

end ModuleServiceOverrides

/-- `ServiceDescriptorOwned`: what the descriptors of modules differ in. -/
structure ServiceDescriptor where
  (id name description : String)
  security : Option ServiceSecurityMetadata
  deriving DecidableEq

structure Listed where
  id : String
  manifest : ModuleManifest
  valid : moduleId manifest.id = .ok id
  deriving DecidableEq

def internalDefault : ServiceSecurityMetadata := ⟨true, [.admin, .write, .read], [], .any⟩

def moduleServiceDescriptor (m : Listed) : ServiceDescriptor where
  id := moduleServiceId m.id
  name := m.manifest.title.getD m.manifest.id
  description := m.manifest.description.getD ("module " ++ m.manifest.id)
  security := some { internalDefault with tenant := .fixed "default" }

def applyDescriptorOverrides {ρ : Type} (overrides : ModuleServiceOverrides ρ)
    (descriptor : ServiceDescriptor) : ServiceDescriptor :=
  match overrides.securityOverride descriptor.id with
  | none => descriptor
  | some policy =>
    { descriptor with security := some (policy.apply (descriptor.security.getD internalDefault)) }

def descriptorUnder {ρ : Type} (overrides : ModuleServiceOverrides ρ) (m : Listed) :
    ServiceDescriptor :=
  applyDescriptorOverrides overrides (moduleServiceDescriptor m)

/-! ## State, answers and reports -/

structure ReloadState (ρ : Type) where
  overrides : ModuleServiceOverrides ρ
  /-- The service registry. -/
  registry : BTreeMap ServiceDescriptor
  /-- How many instances of a module run. -/
  instances : String → Nat

inductive StatusAnswer where
  | running (port : Option Nat)
  | notRunning
  | unavailable (err : String)

structure ReloadAnswers where
  listError : Option ModuleStorageError
  status : String → StatusAnswer
  /-- Unmanaged, or under a dev override: `restart` and `stop` do nothing to it. -/
  leftAlone : String → Bool
  restart : String → Except String (Option Nat)
  stop : String → Except String Unit
  /-- The port of the primary instance afterwards. -/
  reconcile : String → Except String (Option Nat)
  /-- A restart that fails has got past its checks. -/
  drained : String → Bool
  /-- What a restart, stop or reconciliation that fails leaves running. -/
  left : String → Nat
  probe : String → Except String String
  rollbackRestart : String → Except String (Option Nat)
  rollbackProbe : String → Except String String

structure RolloutSettings where
  (abortOnFirstFailure rollbackOnFailure : Bool)

inductive ModuleOverrideReloadStatus where
  | applied | rolledBack | failed
  deriving DecidableEq

inductive ModuleOverrideReloadAction where
  | descriptorRefreshed | reconciled | restarted | skipped | unchanged

structure ModuleOverrideReloadModuleReport where
  moduleId : String
  action : ModuleOverrideReloadAction
  (envChanged healthChecked healthy rolledBack : Bool)
  note : String

structure ModuleOverrideReloadReport where
  status : ModuleOverrideReloadStatus
  restartRunning : Bool
  (restartedModules rollbackRestartedModules : List String)
  modules : List ModuleOverrideReloadModuleReport

structure Progress where
  restarted : List String
  reports : List ModuleOverrideReloadModuleReport
  (rolloutFailed rolloutAborted : Bool)

/-! ## The calls on modules -/

namespace ReloadState

variable {ρ : Type}

/-- `replace_module_service_entry`. -/
def register (s : ReloadState ρ) (m : Listed) : ReloadState ρ :=
  { s with registry := s.registry.insert (moduleServiceId m.id) (descriptorUnder s.overrides m) }

def setInstances (s : ReloadState ρ) (id : String) (n : Nat) : ReloadState ρ :=
  { s with instances := Function.update s.instances id n }

/-- `restart`: a stop and a start with the replicas the overrides ask for, and at least
one. Its status updates register the module again. -/
def restart (s : ReloadState ρ) (a : ReloadAnswers) (answer : Except String (Option Nat))
    (m : Listed) : Except String (Option Nat) × ReloadState ρ :=
  match answer with
  | .error err =>
    (.error err, if a.drained m.id then (s.register m).setInstances m.id (a.left m.id) else s)
  | .ok port =>
    if a.leftAlone m.id then (.ok none, s)
    else (.ok port, (s.setInstances m.id (max 1 (s.overrides.replicaCount m.id))).register m)

def stop (s : ReloadState ρ) (a : ReloadAnswers) (m : Listed) :
    Except String Unit × ReloadState ρ :=
  if a.leftAlone m.id then (.ok (), s)
  else
    match a.stop m.id with
    | .error err => (.error err, s.setInstances m.id (a.left m.id))
    | .ok () => (.ok (), (s.setInstances m.id 0).register m)

/-- `reconcile_instances` of the runtime: from none it starts the primary only. -/
def reconcile (s : ReloadState ρ) (a : ReloadAnswers) (m : Listed) (desired : Nat) :
    Except String (Option Nat) × ReloadState ρ :=
  match a.reconcile m.id with
  | .error err => (.error err, s.setInstances m.id (a.left m.id))
  | .ok port => (.ok port, s.setInstances m.id (if s.instances m.id = 0 then 1 else desired))

end ReloadState

def invalidState (err : String) : ModuleServiceError := .storage (.invalidState err)

/-- `health.unwrap_or_else(|err| err)`. -/
def healthNote : Except String String → String
  | .ok note => note
  | .error err => err

section

variable {ρ : Type} (a : ReloadAnswers) (settings : RolloutSettings) (restartRunning : Bool)
  (previous : ModuleServiceOverrides ρ)

/-- A running module whose environment has changed. -/
def restartStep (m : Listed) (p : Progress) (s : ReloadState ρ) :
    Except ModuleServiceError Progress × ReloadState ρ :=
  match s.restart a (a.restart m.id) m with
  | (.error err, s) => (.error (invalidState err), s)
  | (.ok port, s) =>
    let health := Runtime.verifyModuleRolloutHealth port (a.probe m.id)
    let healthy := health.isOk
    (.ok { restarted := p.restarted ++ [m.id]
           reports := p.reports ++
             [⟨m.id, .restarted, true, true, healthy, false, healthNote health⟩]
           rolloutFailed := p.rolloutFailed || !healthy
           rolloutAborted := p.rolloutAborted || (!healthy && settings.abortOnFirstFailure) }, s)

/-- A running module whose number of replicas has changed. -/
def reconcileStep (m : Listed) (envChanged : Bool) (next : Nat) (p : Progress)
    (s : ReloadState ρ) : Except ModuleServiceError Progress × ReloadState ρ :=
  if next = 0 then
    match s.stop a m with
    | (.error err, s) => (.error (invalidState err), s)
    | (.ok (), s) =>
      (.ok { p with reports := p.reports ++ [⟨m.id, .reconciled, envChanged, false, true, false,
        "replica target reconciled to 0; module stopped"⟩] }, s)
  else
    match s.reconcile a m next with
    | (.error err, s) => (.error (invalidState err), s)
    | (.ok port, s) =>
      let health := Runtime.verifyModuleRolloutHealth port (a.probe m.id)
      let healthy := health.isOk
      let note :=
        if healthy then s!"replica target reconciled to {next}" else healthNote health
      (.ok { p with
             reports := p.reports ++
               [⟨m.id, .reconciled, envChanged, port.isSome, healthy, false, note⟩]
             rolloutFailed := p.rolloutFailed || !healthy
             rolloutAborted :=
               p.rolloutAborted || (!healthy && settings.abortOnFirstFailure) }, s)

def envChanged (next : ModuleServiceOverrides ρ) (m : Listed) : Bool :=
  previous.env[moduleServiceId m.id]? ≠ next.env[moduleServiceId m.id]?

def replicasChanged (next : ModuleServiceOverrides ρ) (m : Listed) : Bool :=
  previous.replicaCount m.id ≠ next.replicaCount m.id

def reloadModule (m : Listed) (p : Progress) (s : ReloadState ρ) :
    Except ModuleServiceError Progress × ReloadState ρ :=
  let changed := envChanged previous s.overrides m
  let s := s.register m
  let report (action : ModuleOverrideReloadAction) (healthy : Bool) (note : String) :
      Except ModuleServiceError Progress × ReloadState ρ :=
    (.ok { p with
           reports := p.reports ++ [⟨m.id, action, changed, false, healthy, false, note⟩] }, s)
  if p.rolloutAborted && restartRunning && changed then
    report .skipped false "restart skipped because a previous module failed rollout health checks"
  else
    match a.status m.id with
    | .running _ =>
      if restartRunning && changed then restartStep a settings m p s
      else if replicasChanged previous s.overrides m then
        reconcileStep a settings m changed (s.overrides.replicaCount m.id) p s
      else if changed then
        report .descriptorRefreshed true "runtime environment changed but restart was disabled"
      else report .unchanged true "descriptor refreshed"
    | .notRunning =>
      report (if changed then .descriptorRefreshed else .unchanged) true "module not running"
    | .unavailable err => report .unchanged false ("runtime status unavailable: " ++ err)

def reloadModules : List Listed → Progress → ReloadState ρ →
    Except ModuleServiceError Progress × ReloadState ρ
  | [], p, s => (.ok p, s)
  | m :: ms, p, s =>
    match reloadModule a settings restartRunning previous m p s with
    | (.error err, s) => (.error err, s)
    | (.ok p, s) => reloadModules ms p s

def rollbackRestarts : List Listed → List String → ReloadState ρ →
    Except ModuleServiceError (List String) × ReloadState ρ
  | [], done, s => (.ok done, s)
  | m :: ms, done, s =>
    match s.restart a (a.rollbackRestart m.id) m with
    | (.error err, s) =>
      (.error (invalidState s!"rollback restart failed for {m.id}: {err}"), s)
    | (.ok port, s) =>
      match Runtime.verifyModuleRolloutHealth port (a.rollbackProbe m.id) with
      | .error err =>
        (.error (invalidState s!"rollback health check failed for {m.id}: {err}"), s)
      | .ok _ => rollbackRestarts ms (done ++ [m.id]) s

/-- `rollback_service_overrides`; the restarted modules are looked up by their ids. -/
def rollbackServiceOverrides (modules : List Listed) (restarted : List String)
    (s : ReloadState ρ) : Except ModuleServiceError (List String) × ReloadState ρ :=
  rollbackRestarts a (restarted.reverse.filterMap fun id => modules.find? (·.id = id)) []
    { s with overrides := previous }

def reloadServiceOverrides (modules : List Listed) (overrides : ModuleServiceOverrides ρ)
    (s : ReloadState ρ) : Except ModuleServiceError ModuleOverrideReloadReport × ReloadState ρ :=
  let previous := s.overrides
  let s := { s with overrides }
  match a.listError with
  | some err => (.error (.storage err), s)
  | none =>
    match reloadModules a settings restartRunning previous modules ⟨[], [], false, false⟩ s with
    | (.error err, s) => (.error err, s)
    | (.ok p, s) =>
      if p.rolloutFailed && settings.rollbackOnFailure then
        match rollbackServiceOverrides a previous modules p.restarted s with
        | (.error err, s) => (.error err, s)
        | (.ok back, s) =>
          let reports := p.reports.map fun r =>
            if r.moduleId ∈ p.restarted then { r with rolledBack := true } else r
          (.ok ⟨.rolledBack, restartRunning, p.restarted, back, reports⟩, s)
      else
        let status := if p.rolloutFailed then .failed else .applied
        (.ok ⟨status, restartRunning, p.restarted, [], p.reports⟩, s)

end

end Fenrir.Overrides
