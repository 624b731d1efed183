import Fenrir.Scheduler.Exclusive

/-! # Paused jobs

`scheduler/service.rs` holds in three places which jobs are paused: the flag of the entry,
`paused_jobs`, and the state file, which `pause_job` and `resume_job` write under the lock of
the jobs.

* `PausesSound`: the flags of the entries, `paused_jobs` and the file agree. -/

namespace Fenrir.Scheduler

variable {ι : Type} [DecidableEq ι]

inductive Event (ι : Type) where
  | step (i : ι) (a : Action)
  /-- A new service from the state file. -/
  | reopen

/-- A step, or a new service on the file that is there. -/
def World.durableStep (w : World ι) : Event ι → World ι
  | .step i a => w.step (i, a)
  | .reopen => .opened w.shared.stateFile

structure PausesSound (s : Shared) : Prop where
  flag : ∀ (id : String) entry, s.jobs[id]? = some entry →
    (entry.paused = true ↔ id ∈ s.pausedJobs) ∧ (entry.paused = true → entry.handle = none)
  /-- What `restart_job` and `resume_job` are about to spawn is not paused. -/
  held : ∀ (id : String) entry, s.held = some id → s.jobs[id]? = some entry → entry.paused = false
  file : ∀ id, id ∈ loadPausedJobs s.stateFile ↔ id ∈ s.pausedJobs

namespace PausesSound

variable {s s' : Shared} {p p' : Caller} {id : String}

theorem mem_persisted (paused : List String) :
    id ∈ loadPausedJobs (persistPausedJobs paused) ↔ id ∈ paused :=
  (List.perm_insertionSort _ _).mem_iff

theorem keep (h : PausesSound s) (hjo : s'.jobs = s.jobs) (hpau : s'.pausedJobs = s.pausedJobs)
    (hhe : s'.held = s.held) (hfi : s'.stateFile = s.stateFile) : PausesSound s' :=
  ⟨by rw [hjo, hpau]; exact h.flag, by rw [hjo, hhe]; exact h.held, by rw [hpau, hfi]; exact h.file⟩

attribute [local grind =] BTreeMap.get_insert BTreeMap.get_erase List.mem_insert_iff mem_persisted

theorem cancelJob (h : PausesSound s) (hfr : s.held = none) (id : String) :
    PausesSound (s.cancelJob id).2 := by
  fun_cases Shared.cancelJob s id
  · exact h
  · rw [Shared.stopHandle_eq]
    constructor <;> grind [PausesSound]

theorem clearJobs (h : PausesSound s) (hfr : s.held = none) : PausesSound s.clearJobs := by
  rw [Shared.clearJobs, Shared.stopAll_eq]
  constructor <;> grind [PausesSound]

section

variable (h : PausesSound s)

include h

theorem pauseJob (hfr : s.held = none) (id : String) : PausesSound (s.pauseJob id).2 := by
  fun_cases Shared.pauseJob s id
  · exact h
  · exact h
  · rw [Shared.stopHandle_eq]
    constructor <;> grind [PausesSound]

theorem insertJob (hfr : s.held = none) (spec : ScheduledJobSpec) :
    PausesSound (s.insertJob spec).2 := by
  fun_cases Shared.insertJob s spec
  · exact h
  · constructor <;> grind [PausesSound]
  · next hspawn =>
    cases hspawn
    constructor <;> grind [PausesSound]

theorem restartLocked (id : String) : PausesSound (restartLocked s id).2 := by
  fun_cases Scheduler.restartLocked s id
  · exact h
  · exact h
  · rw [Shared.takeJob, Shared.stopHandle_eq]
    constructor <;> grind [PausesSound]

theorem resumeLocked (id : String) : PausesSound (resumeLocked s id).2 := by
  fun_cases Scheduler.resumeLocked s id
  · exact h
  · rw [Shared.takeJob, Shared.stopHandle_eq]
    constructor <;> grind [PausesSound]
  · exact h

/-- What is spawned was taken before, so its entry is not paused. -/
theorem respawnJob {entry : JobEntry} (hhe : s.held = some id)
    (hget : s.jobs[id]? = some entry) : PausesSound (s.respawnJob id entry) := by
  have hno := h.held id entry hhe hget
  rw [Shared.respawnJob, Shared.spawnJob]
  constructor <;> grind [PausesSound]

theorem next (hne : p.next s = some (p', s')) : PausesSound s' := by
  revert hne
  fun_cases Caller.next s p
  all_goals intro hne
  case case5 hlo =>
    cases hne
    exact h.clearJobs (by simpa using hlo)
  case case8 spec hlo =>
    cases hne
    exact h.insertJob (by simpa using hlo) spec
  case case10 id _ =>
    have hs := h.restartLocked id
    rwa [Option.some.inj hne] at hs
  case case12 id _ =>
    have hs := h.resumeLocked id
    rwa [Option.some.inj hne] at hs
  case case13 hlo =>
    obtain ⟨entry, hget, heq⟩ := Option.map_eq_some_iff.mp hne
    cases heq
    exact h.respawnJob hlo hget
  all_goals cases hne
  all_goals exact h.keep rfl rfl rfl rfl

theorem advance {a : Action} (hadv : advance a p s = some (p', s')) : PausesSound s' := by
  cases a with
  | job n m | beat n =>
    obtain ⟨x, -, hx⟩ := Option.map_eq_some_iff.mp hadv
    cases hx
    exact h.keep rfl rfl rfl rfl
  | call c =>
    cases p with
    | ready last =>
      cases began_of_begin hadv with
      | cancelled id _ hfree => exact h.cancelJob hfree id
      | paused id _ hfree => exact h.pauseJob hfree id
      | _ => exact h.keep rfl rfl rfl rfl
    | _ => cases hadv
  | next => exact h.next hadv

end

end PausesSound

omit [DecidableEq ι] in
theorem pausesSound_opened (file : StateFile) :
    PausesSound (World.opened file : World ι).shared := by
  refine ⟨fun id entry he => ?_, fun id entry hk => ?_, fun _ => .rfl⟩
  · cases Std.ExtTreeMap.getElem?_empty.symm.trans he
  · cases hk

theorem pausesSound_step (w : World ι) (event : Event ι) (h : PausesSound w.shared) :
    PausesSound (w.durableStep event).shared := by
  cases event with
  | step i a =>
    exact Parties.step_induction (Q := fun w : World ι => PausesSound w.shared) h
      fun p s' hadv => h.advance hadv
  | reopen => exact pausesSound_opened w.shared.stateFile

/-- **PAUSES ARE DURABLE**: in every run, of any callers, of the service and of those opened
after it from the state file, a job is paused iff its id is in `paused_jobs`, has no handle
then, and the file holds the ids of `paused_jobs`. -/
theorem pauses_durable (file : StateFile) (events : List (Event ι)) :
    let s := (Run.run World.durableStep (World.opened file) events).shared
    (∀ (id : String) entry, s.jobs[id]? = some entry →
      (entry.paused = true ↔ id ∈ s.pausedJobs) ∧ (entry.paused = true → entry.handle = none)) ∧
      ∀ id, id ∈ loadPausedJobs s.stateFile ↔ id ∈ s.pausedJobs := by
  have hst : ∀ (w : World ι) event, PausesSound w.shared → PausesSound (w.durableStep event).shared :=
    pausesSound_step
  have h := Run.always hst (pausesSound_opened file) events
  exact ⟨h.flag, h.file⟩

end Fenrir.Scheduler
