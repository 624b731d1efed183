import Fenrir.Runtime.Instances

/-! # Rolling restarts

`rolling_restart` and `surge_replace_instance` of `services/module/runtime.rs`.
With two or more instances each one is replaced behind a surge instance: one more
replica is started and probed, the target is restarted and probed, and the map is
brought back to the desired count, from the end of the listing.

Every call of the runtime and every probe has its answer from outside. -/

namespace Fenrir.Runtime

open Effect Effect.Act Modules

/-! ## Answers, settings and the record -/

/-- `ModuleRuntimeInstanceSnapshot`, as far as a rollout reads it. -/
structure InstanceSnapshot where
  instanceId : String
  port : Option Nat
  primary : Bool

def InstanceSnapshot.fromInstanceInfo (i : ModuleRuntimeInstanceInfo) : InstanceSnapshot :=
  ⟨i.instanceId, i.runtime.port, i.primary⟩

/-- What the outside says in one round, call by call. -/
structure RoundAnswers where
  surge : RuntimeAnswers
  surgeProbe : Except String String
  (back restart : RuntimeAnswers)
  restartProbe : Except String String
  settle : RuntimeAnswers
  lastProbe : Except String String

/-- The answers to `rolling_restart`: `storage.load`, and round by round. -/
structure RollingAnswers where
  load : Except String Bool
  round : Nat → RoundAnswers

structure RollingRestartReport where
  moduleId : ModuleId
  restartedInstances : List InstanceSnapshot
  healthVerified : Bool
  note : String

/-- The runtime, and the record of the rollout. -/
structure Rollout where
  runtime : RuntimeState
  /-- The runtime after each call that was made to it. -/
  moments : List RuntimeState
  restarts : List String
  /-- A surge or a health check has failed. -/
  failed : Bool

def Rollout.start (s : RuntimeState) : Rollout := ⟨s, [], [], false⟩

def call {α : Type} (x : Act RuntimeState ModuleRuntimeError α) :
    Act Rollout ModuleRuntimeError α := fun r =>
  ((x r.runtime).1,
    { r with runtime := (x r.runtime).2, moments := r.moments ++ [(x r.runtime).2] })

def noteFailure : Act Rollout ModuleRuntimeError Unit :=
  modify fun r => { r with failed := true }

/-- `verify_module_rollout_health`, given how its probing ends. -/
def verifyModuleRolloutHealth (port : Option Nat) (probe : Except String String) :
    Except String String :=
  match port with
  | none => .ok "restart completed without a routable runtime port"
  | some _ => probe

/-! ## One round -/

section

variable (host : ProcessModuleRuntime)

section

variable (a : RoundAnswers) (m : ModuleId) (desiredInstances : Nat)
  (envVars : List (String × String))

/-- The surge instance is the one that was not there before; it has to pass its check. -/
def checkSurge (before surged : List ModuleRuntimeInstanceInfo) :
    Act Rollout ModuleRuntimeError Unit :=
  match surged.find? fun i => i.instanceId ∉ before.map (·.instanceId) with
  | none => do
      noteFailure
      fail (.invalidState ("failed to identify surge instance for module " ++ m.value))
  | some surge =>
    match verifyModuleRolloutHealth surge.runtime.port a.surgeProbe with
    | .ok _ => pure ()
    | .error err => do
        noteFailure
        let _ ← attempt (ε := ModuleRuntimeError) (call (reconcileInstances host a.back
          ⟨m, none, envVars⟩ desiredInstances))
        fail (.invalidState err)

/-- The first half of `surge_replace_instance`: one more instance is up and passed its
check. The desired count is the length of a list in memory, so adding one to it does
not saturate. -/
def raiseSurge : Act Rollout ModuleRuntimeError Unit := do
  let before ← call (listInstances m)
  let surged ← attempt (call (reconcileInstances host a.surge ⟨m, none, envVars⟩
    (desiredInstances + 1)))
  match surged with
  | .error err => do
      noteFailure
      fail err
  | .ok instances => checkSurge host a m desiredInstances envVars before instances

/-- The restarted target has to pass its check; then the surge is taken back. -/
def settleTarget (restarted : ModuleRuntimeInfo) :
    Act Rollout ModuleRuntimeError ModuleRuntimeInfo :=
  match verifyModuleRolloutHealth restarted.port a.restartProbe with
  | .error err => do
      noteFailure
      fail (.invalidState err)
  | .ok _ => do
      let _ ← call (reconcileInstances host a.settle ⟨m, none, envVars⟩ desiredInstances)
      pure restarted

/-- The second half: the target is restarted and settled. -/
def replaceTarget (target : InstanceSnapshot)
    (desiredInstances : Nat) (envVars : List (String × String)) :
    Act Rollout ModuleRuntimeError ModuleRuntimeInfo := do
  let restarted ← call (restartInstance host a.restart m target.instanceId)
  modify fun r => { r with restarts := r.restarts ++ [target.instanceId] }
  settleTarget host a m desiredInstances envVars restarted

def surgeReplaceInstance (target : InstanceSnapshot)
    (desiredInstances : Nat) (envVars : List (String × String)) :
    Act Rollout ModuleRuntimeError ModuleRuntimeInfo := do
  raiseSurge host a m desiredInstances envVars
  replaceTarget host a m target desiredInstances envVars

end

/-! ## The rollout -/

/-- The replacement in one round of the loop of `rolling_restart`. -/
def replaceOne (a : RoundAnswers) (m : ModuleId) (target : InstanceSnapshot)
    (desiredInstances : Nat) (envVars : List (String × String)) :
    Act Rollout ModuleRuntimeError ModuleRuntimeInfo :=
  if 1 < desiredInstances then surgeReplaceInstance host a m target desiredInstances envVars
  else do
    let info ← call (restartInstance host a.restart m target.instanceId)
    modify fun r => { r with restarts := r.restarts ++ [target.instanceId] }
    pure info

def lastCheck (a : RoundAnswers) (info : ModuleRuntimeInfo) :
    Act Rollout ModuleRuntimeError Bool := fun r =>
  match verifyModuleRolloutHealth info.port a.lastProbe with
  | .ok _ => (.ok true, r)
  | .error _ => (.ok false, { r with failed := true })

/-- The loop of `rolling_restart`, with what it has restarted and verified so far. -/
def rollRounds (abortOnFirstFailure : Bool) (answers : Nat → RoundAnswers) (m : ModuleId)
    (desiredInstances : Nat) (envVars : List (String × String)) :
    Nat → Bool → List InstanceSnapshot → List InstanceSnapshot →
      Act Rollout ModuleRuntimeError (List InstanceSnapshot × Bool)
  | _, healthVerified, restarted, [] => pure (restarted, healthVerified)
  | index, healthVerified, restarted, target :: rest => do
      let info ← replaceOne host (answers index) m target desiredInstances envVars
      let passed ← lastCheck (answers index) info
      let healthVerified := healthVerified && passed
      let restarted := restarted ++ [⟨target.instanceId, info.port, target.primary⟩]
      if !healthVerified && abortOnFirstFailure then
        pure (restarted, healthVerified)
      else
        rollRounds abortOnFirstFailure answers m desiredInstances envVars (index + 1)
          healthVerified restarted rest

/-- `ProcessModuleRuntime::env`, with `unwrap_or_default`. -/
def primaryEnv (m : ModuleId) (running : BTreeMap RunningModuleState) : List (String × String) :=
  ((selectPrimaryInstance m running).bind (·.env)).getD []

def rollingNote (snapshots restarted : Nat) (healthVerified : Bool) : String :=
  if snapshots = 1 then
    "single-instance restart executed; zero-downtime replacement requires replicas >= 2"
  else if healthVerified then
    "rolling replace completed across " ++ toString restarted
      ++ " instances without dropping replica capacity"
  else
    "rolling replace aborted after " ++ toString restarted
      ++ " instances because a health check failed"

def rollingRestart (abortOnFirstFailure : Bool) (answers : RollingAnswers) (m : ModuleId) :
    Act Rollout ModuleRuntimeError RollingRestartReport := do
  let installed ← lift (match answers.load with
    | .error err => .error (.invalidState err)
    | .ok installed => .ok installed)
  if !installed then fail (.notInstalled m.value)
  else do
    let listed ← call (listInstances m)
    let snapshots := listed.map InstanceSnapshot.fromInstanceInfo
    let envVars ← read fun r => primaryEnv m r.runtime.running
    let (restarted, healthVerified) ← rollRounds host abortOnFirstFailure answers.round m
      snapshots.length envVars 0 true [] snapshots
    pure ⟨m, restarted, healthVerified,
      rollingNote snapshots.length restarted.length healthVerified⟩

end

end Fenrir.Runtime
