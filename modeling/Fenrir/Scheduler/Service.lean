import Fenrir.Domain
import Fenrir.Lib.Parties

/-! # The scheduler service

`services/scheduler/service.rs` between threads. The heartbeat slot and the map of jobs have
a lock each, and the tasks the service spawns run beside its callers. What is done under the
lock of the jobs is one step, except in `restart_job` and `resume_job`: there the old task
runs on between its `stop` and the spawn of the new one.

`abort` ends a task that stands at an await at once, and one that runs at its next await. -/

namespace Fenrir.Scheduler

structure ScheduledJobSpec where
  id : String
  interval : Nat
  initialDelay : Option Nat
  deriving DecidableEq

inductive SchedulerError where
  | schedulerNotStarted
  | jobAlreadyExists (id : String)
  | jobNotFound (id : String)
  | invalidInterval
  deriving DecidableEq

inductive JobControlOutcome where
  | restarted | schedulerInactive | paused | alreadyPaused | resumed
  | alreadyActive
  deriving DecidableEq

/-! ## The task of a job -/

inductive JobPhase where
  /-- Spawned and not polled yet. -/
  | fresh
  /-- At the await of the initial delay. -/
  | delayed
  /-- Running, the look at the stop flag comes next. -/
  | checking
  /-- Running inside the body of the job. -/
  | inBody
  /-- At an await inside the body of the job. -/
  | suspended
  /-- Running, the result of the body is being recorded. -/
  | recording
  /-- At the await of the interval. -/
  | sleeping | ended
  deriving DecidableEq

/-- The task is not being polled. -/
def JobPhase.atAwait : JobPhase → Bool
  | .checking | .inBody | .recording => false
  | _ => true

structure JobTask where
  job : String
  initialDelay : Option Nat
  stopFlag : Bool
  phase : JobPhase
  deriving DecidableEq

inductive JobMove where
  | proceed
  /-- The body of the job awaits something. -/
  | suspend
  /-- The body of the job returns. -/
  | finish
  /-- The body of the job panics. -/
  | panic

namespace JobTask

section

variable (t : JobTask)

/-- `JobHandle::stop`: the flag, the notification and the abort. -/
def stop : JobTask :=
  { t with stopFlag := true, phase := if t.phase.atAwait then .ended else t.phase }

/-- At an await, a task that was aborted on its way there ends. -/
def awaits (phase : JobPhase) : JobTask :=
  { t with phase := if t.stopFlag then .ended else phase }

/-- The future that `spawn_job` spawns. -/
def move : JobMove → Option JobTask
  | .proceed =>
    match t.phase with
    | .fresh => some { t with phase := if t.initialDelay.isSome then .delayed else .checking }
    | .delayed => some { t with phase := .checking }
    | .checking => some { t with phase := if t.stopFlag then .ended else .inBody }
    | .suspended => some { t with phase := .inBody }
    | .recording => some (t.awaits .sleeping)
    | .sleeping => some { t with phase := .checking }
    | .inBody | .ended => none
  | .suspend => if t.phase = .inBody then some (t.awaits .suspended) else none
  | .finish => if t.phase = .inBody then some { t with phase := .recording } else none
  | .panic => if t.phase = .inBody then some { t with phase := .ended } else none

/-- The body of the job has been entered and has not returned. -/
def executes : Bool := t.phase = .inBody ∨ t.phase = .suspended

def live : Prop := t.phase ≠ .ended

end

instance (t : JobTask) : Decidable t.live := inferInstanceAs (Decidable (t.phase ≠ .ended))

end JobTask

/-! ## The heartbeat task -/

inductive BeatPhase where
  | fresh | running | sleeping | ended
  deriving DecidableEq

structure Heartbeat where
  aborted : Bool
  phase : BeatPhase
  deriving DecidableEq

namespace Heartbeat

def abort (b : Heartbeat) : Heartbeat :=
  ⟨true, if b.phase = .running then .running else .ended⟩

def move (b : Heartbeat) : Option Heartbeat :=
  match b.phase with
  | .fresh => some { b with phase := .running }
  | .running => some { b with phase := if b.aborted then .ended else .sleeping }
  | .sleeping => some { b with phase := .running }
  | .ended => none

def live (b : Heartbeat) : Prop := b.phase ≠ .ended

instance (b : Heartbeat) : Decidable b.live := inferInstanceAs (Decidable (b.phase ≠ .ended))

end Heartbeat

/-! ## The service -/

/-- An entry of the map; a handle is the number of the task it belongs to. -/
structure JobEntry where
  spec : ScheduledJobSpec
  handle : Option Nat
  paused : Bool
  deriving DecidableEq

/-- The ids in `scheduler_state.json`, if it is there and parses. -/
abbrev StateFile := Option (List String)

/-- A missing or unreadable file has none. -/
def loadPausedJobs (file : StateFile) : List String := file.getD []

def persistPausedJobs (paused : List String) : StateFile := some (paused.insertionSort (· ≤ ·))

/-- `SchedulerService`, with the tasks and heartbeats spawned so far. -/
structure Shared where
  heartbeat : Option Nat
  jobs : BTreeMap JobEntry
  pausedJobs : List String
  beats : List Heartbeat
  tasks : List JobTask
  /-- The lock of the jobs is held by a call that has stopped the task of this job and is
      about to spawn the next one. -/
  held : Option String
  /-- A `stop` has returned and no later `start` has begun. -/
  stopReturned : Bool
  stateFile : StateFile

namespace Shared

section

variable (s : Shared) (id : String)

/-- `SchedulerService::new`: the jobs that were paused are read from the state file. -/
def new (file : StateFile) : Shared := ⟨none, ∅, loadPausedJobs file, [], [], none, false, file⟩

/-- `JobHandle::stop` of a handle that was taken out of its entry. -/
def stopHandle : Option Nat → Shared
  | none => s
  | some n => { s with tasks := s.tasks.modify n JobTask.stop }

/-- `spawn_job`; the handle is the number of the new task. -/
def spawnJob (spec : ScheduledJobSpec) (skipInitialDelay : Bool) : Nat × Shared :=
  let initialDelay := if skipInitialDelay then none else spec.initialDelay
  (s.tasks.length, { s with tasks := s.tasks ++ [⟨spec.id, initialDelay, false, .fresh⟩] })

def clearJobs : Shared :=
  { s.jobs.toList.foldl (fun s p => s.stopHandle p.2.handle) s with jobs := ∅ }

def cancelJob : Bool × Shared :=
  match s.jobs[id]? with
  | none => (false, s)
  | some entry => (true, { s.stopHandle entry.handle with jobs := s.jobs.erase id })

def pauseJob : Except SchedulerError JobControlOutcome × Shared :=
  match s.jobs[id]? with
  | none => (.error (.jobNotFound id), s)
  | some entry =>
    if entry.paused then (.ok .alreadyPaused, s)
    else (.ok .paused,
      { s.stopHandle entry.handle with
        jobs := s.jobs.insert id { entry with handle := none, paused := true }
        pausedJobs := s.pausedJobs.insert id
        stateFile := persistPausedJobs (s.pausedJobs.insert id) })

/-- `register_job` under the lock of the jobs; `schedule_fixed_rate` keeps the initial
delay. -/
def insertJob (spec : ScheduledJobSpec) : Except SchedulerError Unit × Shared :=
  if s.jobs.contains spec.id then (.error (.jobAlreadyExists spec.id), s)
  else if spec.id ∈ s.pausedJobs then
    (.ok (), { s with jobs := s.jobs.insert spec.id ⟨spec, none, true⟩ })
  else
    let (handle, s') := s.spawnJob spec false
    (.ok (), { s' with jobs := s'.jobs.insert spec.id ⟨spec, some handle, false⟩ })

/-- `restart_job` and `resume_job` up to the spawn: the handle is taken and stopped, the
lock stays held. -/
def takeJob (entry : JobEntry) : Shared :=
  { s.stopHandle entry.handle with
    jobs := s.jobs.insert id { entry with handle := none, paused := false }
    held := some id }

/-- The rest of `restart_job` and `resume_job`. -/
def respawnJob (entry : JobEntry) : Shared :=
  let (handle, s') := s.spawnJob entry.spec true
  { s' with jobs := s'.jobs.insert id { entry with handle := some handle }, held := none }

end

end Shared

/-! ## Callers -/

inductive Reply where
  | flag (b : Bool)
  | scheduled (r : Except SchedulerError Unit)
  | controlled (r : Except SchedulerError JobControlOutcome)
  deriving DecidableEq

inductive Caller where
  /-- In no call; the reply of the last one. -/
  | ready (last : Option Reply)
  /-- `start` has found no heartbeat. -/
  | starting
  /-- `start` has spawned the heartbeat and has not stored its handle. -/
  | spawned (n : Nat)
  /-- `stop` has taken and aborted the heartbeat, `clear_jobs` comes next. -/
  | stopping
  /-- `stop` has cleared the jobs. -/
  | cleared
  /-- `register_job` has found a heartbeat, the lock of the jobs comes next. -/
  | registering (spec : ScheduledJobSpec)
  | restarting (id : String)
  | resuming (id : String)
  /-- The old task is stopped, the spawn of the new one comes next. -/
  | respawning (id : String) (outcome : JobControlOutcome)
  deriving DecidableEq

/-- Inside `start` or `stop`. -/
def Caller.controls : Caller → Bool
  | .starting | .spawned _ | .stopping | .cleared => true
  | _ => false

inductive Call where
  | start | stop
  | schedule (spec : ScheduledJobSpec)
  | cancel (id : String)
  | pause (id : String)
  | resume (id : String)
  | restart (id : String)

inductive Action where
  | call (c : Call)
  /-- The next step of the call the caller is in. -/
  | next
  | job (n : Nat) (move : JobMove)
  | beat (n : Nat)

def Call.begin (s : Shared) : Call → Option (Caller × Shared)
  | .start =>
    let s' := { s with stopReturned := false }
    if s.heartbeat.isSome then some (.ready (some (.flag false)), s') else some (.starting, s')
  | .stop =>
    match s.heartbeat with
    | none => some (.ready (some (.flag false)), { s with stopReturned := true })
    | some n =>
      some (.stopping, { s with heartbeat := none, beats := s.beats.modify n Heartbeat.abort })
  | .schedule spec =>
    if spec.interval = 0 then
      some (.ready (some (.scheduled (.error .invalidInterval))), s)
    else if s.heartbeat.isNone then
      some (.ready (some (.scheduled (.error .schedulerNotStarted))), s)
    else some (.registering spec, s)
  | .cancel id =>
    if s.held.isSome then none
    else some (.ready (some (.flag (s.cancelJob id).1)), (s.cancelJob id).2)
  | .pause id =>
    if s.held.isSome then none
    else some (.ready (some (.controlled (s.pauseJob id).1)), (s.pauseJob id).2)
  | .resume id =>
    if s.heartbeat.isNone then
      some (.ready (some (.controlled (.ok .schedulerInactive))), s)
    else some (.resuming id, s)
  | .restart id =>
    if s.heartbeat.isNone then
      some (.ready (some (.controlled (.ok .schedulerInactive))), s)
    else some (.restarting id, s)

/-- `restart_job` under the lock of the jobs, up to the spawn. -/
def restartLocked (s : Shared) (id : String) : Caller × Shared :=
  match s.jobs[id]? with
  | none => (.ready (some (.controlled (.error (.jobNotFound id)))), s)
  | some entry =>
    if entry.paused then (.ready (some (.controlled (.ok .paused))), s)
    else (.respawning id .restarted, s.takeJob id entry)

/-- `resume_job` under the lock of the jobs, up to the spawn. -/
def resumeLocked (s : Shared) (id : String) : Caller × Shared :=
  match s.jobs[id]? with
  | none => (.ready (some (.controlled (.error (.jobNotFound id)))), s)
  | some entry =>
    if entry.paused then
      (.respawning id .resumed, { s.takeJob id entry with
          pausedJobs := s.pausedJobs.filter (· ≠ id)
          stateFile := persistPausedJobs (s.pausedJobs.filter (· ≠ id)) })
    else (.ready (some (.controlled (.ok .alreadyActive))), s)

/-- The next step of a call. A lock that is held is waited for. -/
def Caller.next (s : Shared) : Caller → Option (Caller × Shared)
  | .ready _ => none
  | .starting => some (.spawned s.beats.length, { s with beats := s.beats ++ [⟨false, .fresh⟩] })
  | .spawned n => some (.ready (some (.flag true)), { s with heartbeat := some n })
  | .stopping => if s.held.isSome then none else some (.cleared, s.clearJobs)
  | .cleared => some (.ready (some (.flag true)), { s with stopReturned := true })
  | .registering spec =>
    if s.held.isSome then none
    else some (.ready (some (.scheduled (s.insertJob spec).1)), (s.insertJob spec).2)
  | .restarting id => if s.held.isSome then none else some (restartLocked s id)
  | .resuming id => if s.held.isSome then none else some (resumeLocked s id)
  | .respawning id outcome =>
    -- the entry is borrowed from the map under the lock, so it is there
    if s.held = some id then
      s.jobs[id]?.map fun entry =>
        (.ready (some (.controlled (.ok outcome))), s.respawnJob id entry)
    else none

def advance : Action → Caller → Shared → Option (Caller × Shared)
  | .call c, .ready _, s => c.begin s
  | .call _, _, _ => none
  | .next, caller, s => caller.next s
  | .job n move, caller, s =>
    (s.tasks[n]?.bind (·.move move)).map fun t => (caller, { s with tasks := s.tasks.set n t })
  | .beat n, caller, s =>
    (s.beats[n]?.bind Heartbeat.move).map fun b => (caller, { s with beats := s.beats.set n b })

variable {ι : Type} [DecidableEq ι]

abbrev World (ι : Type) := Parties.World ι Shared Caller

def World.step (w : World ι) (event : ι × Action) : World ι := Parties.step advance w event

/-- A service from its state file, with nobody calling it yet. -/
def World.opened (file : StateFile) : World ι := ⟨.new file, fun _ => .ready none⟩

def World.boot (paused : List String) : World ι := .opened (some paused)

end Fenrir.Scheduler
