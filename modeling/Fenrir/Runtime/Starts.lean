import Fenrir.Lib.Run
import Fenrir.Runtime.Instances

/-! # Concurrent starts of one module

`ProcessModuleRuntime::start` looks for an instance under the read lock, spawns
with no lock held, and puts its entry into the map under the write lock. Any
number of calls may be at any of these points, so the machine here takes one
such step of one call at a time. -/

namespace Fenrir.Runtime

open Effect Effect.Act Modules Function

/-! ## The machine -/

/-- The part of `ModuleStartConfig` in which the calls may differ. -/
structure StartRequest where
  port : Option Nat
  envVars : List (String × String)

inductive Phase where
  | idle | checked
  | launched (st : RunningModuleState)
  | returned (result : Except ModuleRuntimeError ModuleRuntimeInfo)

/-- A call between its check and its insertion. -/
def Active : Phase → Prop
  | .checked => True
  | .launched _ => True
  | _ => False

instance : DecidablePred Active
  | .idle => isFalse id
  | .checked => isTrue trivial
  | .launched _ => isTrue trivial
  | .returned _ => isFalse id

variable {p : Phase} {m : ModuleId} {s : Starts}

theorem active_of_checked (h : p = .checked) : Active p := by
  rw [h]
  trivial

theorem active_of_launched {st : RunningModuleState} (h : p = .launched st) : Active p := by
  rw [h]
  trivial

/-- The runtime, the calls, and the processes they have spawned that are alive. -/
structure Starts where
  runtime : RuntimeState
  calls : Nat → Phase
  alive : List Process

/-- One step of one call, or a process that ends by itself. -/
inductive StartEvent where
  | check (call : Nat)
  | launch (call : Nat) (answers : StartAnswers)
  | insert (call : Nat)
  | exits (pid : Nat)

def StartEvent.caller : StartEvent → Option Nat
  | .check call => some call
  | .launch call _ => some call
  | .insert call => some call
  | .exits _ => none

section

variable (host : ProcessModuleRuntime) (m : ModuleId) (requests : Nat → StartRequest)

def launchOf (call : Nat) (answers : StartAnswers) : Except ModuleRuntimeError RunningModuleState :=
  launch host answers m (primaryInstanceId m) true (requests call).port (requests call).envVars

/-- A step that is not the call's next one changes nothing. -/
def startStep (s : Starts) : StartEvent → Starts
  | .check call =>
    match s.calls call with
    | .idle =>
      let next := if (selectPrimaryInstance m s.runtime.running).isSome
        then .returned (.error (.alreadyRunning m.value)) else .checked
      { s with calls := Function.update s.calls call next }
    | _ => s
  | .launch call answers =>
    match s.calls call with
    | .checked =>
      match launchOf host m requests call answers with
      | .error err => { s with calls := Function.update s.calls call (.returned (.error err)) }
      | .ok st =>
        { runtime := { s.runtime with processes := spawned st ++ s.runtime.processes }
          calls := Function.update s.calls call (.launched st)
          alive := spawned st ++ s.alive }
    | _ => s
  | .insert call =>
    match s.calls call with
    | .launched st =>
      let runtime := { s.runtime with running := s.runtime.running.insert st.instanceId st }
      let info := { infoFromState s.runtime.processes st with status := .running }
      { s with
        runtime
        calls := Function.update s.calls call (.returned (.ok info)) }
    | _ => s
  | .exits pid =>
    { s with
      runtime := { s.runtime with processes := s.runtime.processes.filter (·.pid ≠ pid) }
      alive := s.alive.filter (·.pid ≠ pid) }

def Starts.initial (s : RuntimeState) : Starts := ⟨s, fun _ => .idle, []⟩

variable {host m requests} {s : Starts} {call : Nat}

theorem check_present (h : s.calls call = .idle)
    (hsel : (selectPrimaryInstance m s.runtime.running).isSome = true) :
    startStep host m requests s (.check call) =
      { s with
        calls := update s.calls call (.returned (.error (.alreadyRunning m.value))) } := by
  rw [startStep, h]
  dsimp only
  rw [if_pos hsel]

theorem check_absent (h : s.calls call = .idle)
    (hsel : (selectPrimaryInstance m s.runtime.running).isSome = false) :
    startStep host m requests s (.check call) =
      { s with calls := update s.calls call .checked } := by
  rw [startStep, h]
  dsimp only
  rw [hsel, if_neg Bool.false_ne_true]

variable {answers : StartAnswers} {st : RunningModuleState} {other : Nat}

theorem launch_error {err : ModuleRuntimeError} (h : s.calls call = .checked)
    (hlau : launchOf host m requests call answers = .error err) :
    startStep host m requests s (.launch call answers) =
      { s with calls := update s.calls call (.returned (.error err)) } := by
  rw [startStep, h]
  dsimp only
  rw [hlau]

theorem launch_ok (h : s.calls call = .checked)
    (hlau : launchOf host m requests call answers = .ok st) :
    startStep host m requests s (.launch call answers) =
      { runtime := { s.runtime with processes := spawned st ++ s.runtime.processes }
        calls := update s.calls call (.launched st)
        alive := spawned st ++ s.alive } := by
  rw [startStep, h]
  dsimp only
  rw [hlau]

theorem insert_launched (h : s.calls call = .launched st) :
    startStep host m requests s (.insert call) =
      { s with
        runtime := { s.runtime with running := s.runtime.running.insert st.instanceId st }
        calls := update s.calls call
          (.returned (.ok { infoFromState s.runtime.processes st with status := .running })) } := by
  rw [startStep, h]

theorem check_of_made (h : s.calls call ≠ .idle) :
    startStep host m requests s (.check call) = s := by
  rw [startStep]
  split
  · rename_i hid
    exact absurd hid h
  · rfl

theorem launch_of_not_active (h : ¬ Active (s.calls call)) :
    startStep host m requests s (.launch call answers) = s := by
  rw [startStep]
  split
  · rename_i hche
    exact absurd (active_of_checked hche) h
  · rfl

theorem insert_of_not_active (h : ¬ Active (s.calls call)) :
    startStep host m requests s (.insert call) = s := by
  rw [startStep]
  split
  · rename_i hlau
    exact absurd (active_of_launched hlau) h
  · rfl

theorem startStep_others (s : Starts) {event : StartEvent} (h : event.caller ≠ some other) :
    (startStep host m requests s event).calls other = s.calls other := by
  have hupd : ∀ {call : Nat} (p : Phase), some call ≠ some other →
      update s.calls call p other = s.calls other := by
    intro call p hne
    exact update_of_ne (fun heq => hne (congrArg some heq.symm)) ..
  cases event with
  | check call =>
    rw [startStep]
    split
    · exact hupd _ h
    · rfl
  | launch call answers =>
    rw [startStep]
    split
    · split
      · exact hupd _ h
      · exact hupd _ h
    · rfl
  | insert call =>
    rw [startStep]
    split
    · exact hupd _ h
    · rfl
  | exits pid => rfl

theorem run_others {evs : List StartEvent} (h : ∀ event ∈ evs, event.caller ≠ some other)
    (s : Starts) : (Run.run (startStep host m requests) s evs).calls other = s.calls other := by
  induction evs generalizing s with
  | nil => rfl
  | cons event evs ih =>
    rw [Run.run_cons, ih fun e he => h e (List.mem_cons_of_mem _ he)]
    exact startStep_others s (h event List.mem_cons_self)

theorem alone_eq_start (r : RuntimeState) (call : Nat) (answers : RuntimeAnswers) :
    let config : ModuleStartConfig := ⟨m, (requests call).port, (requests call).envVars⟩
    let last := Run.run (startStep host m requests) (.initial r)
      [.check call, .launch call (answers.start (primaryInstanceId m)), .insert call]
    last.runtime = (start host answers config r).2 ∧
      last.calls call = .returned (start host answers config r).1 := by
  intro config last
  have hla : last = startStep host m requests (startStep host m requests
      (startStep host m requests (.initial r) (.check call))
        (.launch call (answers.start (primaryInstanceId m)))) (.insert call) := rfl
  cases hsel : (selectPrimaryInstance m r.running).isSome with
  | true =>
    rw [check_present rfl hsel, launch_of_not_active, insert_of_not_active] at hla
    · rw [hla, start_present hsel]
      exact ⟨rfl, update_self ..⟩
    all_goals
      show ¬ Active (update (Starts.initial r).calls call _ call)
      rw [update_self]
      exact id
  | false =>
    rw [start_absent hsel]
    cases hlau : launchOf host m requests call (answers.start (primaryInstanceId m)) with
    | error err =>
      rw [check_absent rfl hsel, launch_error (update_self ..) hlau, insert_of_not_active] at hla
      · rw [hla, startSpecificInstance_error hlau]
        exact ⟨rfl, update_self ..⟩
      · show ¬ Active (update (update (Starts.initial r).calls call _) call
          _ call)
        rw [update_self]
        exact id
    | ok st =>
      rw [check_absent rfl hsel, launch_ok (update_self ..) hlau,
        insert_launched (update_self ..)] at hla
      rw [hla, startSpecificInstance_ok hlau]
      exact ⟨rfl, update_self ..⟩

end

/-! ## One primary -/

/-- At most one primary process of the module that the calls spawned is alive. -/
def OnePrimary (m : ModuleId) (s : Starts) : Prop :=
  (s.alive.filter (·.instanceId = primaryInstanceId m)).length ≤ 1

instance (m : ModuleId) (s : Starts) : Decidable (OnePrimary m s) :=
  inferInstanceAs (Decidable (_ ≤ _))

/-- A call that has returned, and not that the module is running already. -/
def Accepted (m : ModuleId) : Phase → Prop
  | .returned result => result ≠ .error (.alreadyRunning m.value)
  | _ => False

instance (m : ModuleId) : DecidablePred (Accepted m)
  | .idle => isFalse id
  | .checked => isFalse id
  | .launched _ => isFalse id
  | .returned (.ok _) => isTrue nofun
  | .returned (.error err) =>
    decidable_of_iff (err ≠ .alreadyRunning m.value)
      ⟨fun h heq => h (Except.error.inj heq), fun h heq => h (congrArg Except.error heq)⟩

/-- At most one of the calls is accepted. -/
def OneAccepted (m : ModuleId) (s : Starts) : Prop :=
  ∀ i j, Accepted m (s.calls i) → Accepted m (s.calls j) → i = j

/-- A call that is neither starting nor accepted. -/
def Quiet (m : ModuleId) (p : Phase) : Prop := ¬ Active p ∧ ¬ Accepted m p

/-- What a step must meet: no call checks while another is between its check and its
insertion, and no start fails once it has passed its check. -/
def Alone (host : ProcessModuleRuntime) (m : ModuleId) (requests : Nat → StartRequest)
    (s : Starts) : StartEvent → Prop
  | .check _ => ∀ other, ¬ Active (s.calls other)
  | .launch call answers => ∃ st, launchOf host m requests call answers = .ok st
  | _ => True

/-- The module is free, or one call is starting it, or it is taken. -/
inductive Stage (m : ModuleId) (s : Starts) : Prop where
  | free (hcalls : ∀ i, Quiet m (s.calls i)) (halive : s.alive = [])
  | checked (call : Nat) (hcall : s.calls call = .checked)
      (hothers : ∀ i, i ≠ call → Quiet m (s.calls i))
      (halive : s.alive = [])
  | launched (call : Nat) (st : RunningModuleState) (hcall : s.calls call = .launched st)
      (hst : st.moduleId = m)
      (hothers : ∀ i, i ≠ call → Quiet m (s.calls i))
      (hone : s.alive.length ≤ 1)
  | taken (call : Nat) (hpresent : (selectPrimaryInstance m s.runtime.running).isSome = true)
      (hcalls : ∀ i, ¬ Active (s.calls i)) (hothers : ∀ i, i ≠ call → ¬ Accepted m (s.calls i))
      (hone : s.alive.length ≤ 1)

theorem Stage.onePrimary (h : Stage m s) : OnePrimary m s := by
  have hone : s.alive.length ≤ 1 := by
    cases h with
    | free _ halive | checked _ _ _ halive => rw [halive]; exact Nat.zero_le 1
    | launched _ _ _ _ _ hone | taken _ _ _ _ hone => exact hone
  exact (List.length_filter_le _ _).trans hone

theorem Stage.oneAccepted (h : Stage m s) : OneAccepted m s := by
  -- in each stage there is a call beside which no call is accepted
  obtain ⟨call, hoth⟩ : ∃ call, ∀ i, i ≠ call → ¬ Accepted m (s.calls i) := by
    cases h with
    | free hcalls _ => exact ⟨0, fun i _ => (hcalls i).2⟩
    | checked call _ hoth _ | launched call _ _ _ hoth _ => exact ⟨call, fun i hi => (hoth i hi).2⟩
    | taken call _ _ hoth _ => exact ⟨call, hoth⟩
  intro i j hi hj
  have hi' : i = call := not_not.mp fun hne => hoth i hne hi
  have hj' : j = call := not_not.mp fun hne => hoth j hne hj
  rw [hi', hj']

section

variable {host : ProcessModuleRuntime} {m : ModuleId} {requests : Nat → StartRequest} {s : Starts}

theorem refused_quiet : Quiet m (.returned (.error (.alreadyRunning m.value))) :=
  ⟨id, fun h => h rfl⟩

variable {call : Nat}

theorem others_quiet (h : ∀ i, i ≠ call → Quiet m (s.calls i)) (p : Phase) :
    ∀ i, i ≠ call → Quiet m (update s.calls call p i) := by
  intro i hi
  rw [update_of_ne hi]
  exact h i hi

theorem stage_check (h : Stage m s) (halo : ∀ other, ¬ Active (s.calls other)) :
    Stage m (startStep host m requests s (.check call)) := by
  by_cases hid : s.calls call = .idle
  · cases h with
    | free hcalls halive =>
      cases hsel : (selectPrimaryInstance m s.runtime.running).isSome with
      | true =>
        rw [check_present hid hsel]
        refine .free ?_ halive
        exact (forall_update_iff s.calls
          fun _ p => Quiet m p).mpr ⟨refused_quiet, fun i _ => hcalls i⟩
      | false =>
        rw [check_absent hid hsel]
        exact .checked call (update_self ..) (others_quiet (fun i _ => hcalls i) .checked) halive
    | checked other hcall _ _ => exact absurd (active_of_checked hcall) (halo other)
    | launched other _ hcall _ _ _ => exact absurd (active_of_launched hcall) (halo other)
    | taken winner hpresent hcalls hothers hone =>
      rw [check_present hid hpresent]
      refine .taken winner hpresent ?_ ?_ hone
      · exact (forall_update_iff s.calls fun _ p => ¬ Active p).mpr
          ⟨refused_quiet.1, fun i _ => hcalls i⟩
      · exact (forall_update_iff s.calls
          fun i p => i ≠ winner → ¬ Accepted m p).mpr
            ⟨fun _ => refused_quiet.2, fun i _ => hothers i⟩
  · rw [check_of_made hid]
    exact h

theorem spawned_length (st : RunningModuleState) : (spawned st).length ≤ 1 := by
  rw [spawned]
  cases st.kind with
  | process pid => exact le_rfl
  | staticSite => exact Nat.zero_le 1

section

variable (h : Stage m s)

include h

theorem Stage.of_active (hact : Active (s.calls call)) :
    (∀ i, i ≠ call → Quiet m (s.calls i)) ∧ (s.calls call = .checked ∧ s.alive = [] ∨
      ∃ st, s.calls call = .launched st ∧ st.moduleId = m ∧ s.alive.length ≤ 1) := by
  cases h with
  | free hcalls => exact absurd hact (hcalls call).1
  | checked other hcall hothers halive =>
    obtain rfl : call = other := by_contra fun hne => (hothers call hne).1 hact
    exact ⟨hothers, .inl ⟨hcall, halive⟩⟩
  | launched other st hcall hst hothers hone =>
    obtain rfl : call = other := by_contra fun hne => (hothers call hne).1 hact
    exact ⟨hothers, .inr ⟨st, hcall, hst, hone⟩⟩
  | taken _ _ hcalls => exact absurd hact (hcalls call)

theorem stage_launch {answers : StartAnswers}
    (hok : ∃ st, launchOf host m requests call answers = .ok st) :
    Stage m (startStep host m requests s (.launch call answers)) := by
  obtain ⟨st, hlau⟩ := hok
  by_cases hact : Active (s.calls call)
  · obtain ⟨hothers, ⟨hcall, halive⟩ | ⟨st', hcall, -⟩⟩ := h.of_active hact
    · rw [launch_ok hcall hlau]
      refine .launched call st (update_self ..) (launch_asked st hlau).1
        (others_quiet hothers (.launched st)) ?_
      show (spawned st ++ s.alive).length ≤ 1
      rw [halive, List.append_nil]
      exact spawned_length st
    · rw [startStep, hcall]
      exact h
  · rw [launch_of_not_active hact]
    exact h

theorem stage_insert : Stage m (startStep host m requests s (.insert call)) := by
  by_cases hact : Active (s.calls call)
  · obtain ⟨hothers, ⟨hcall, -⟩ | ⟨st, hcall, hst, hone⟩⟩ := h.of_active hact
    · rw [startStep, hcall]
      exact h
    · rw [insert_launched hcall]
      have hmem : st ∈ statesOf m (s.runtime.running.insert st.instanceId st) :=
        mem_statesOf.mpr ⟨⟨st.instanceId, by rw [BTreeMap.get_insert, if_pos rfl]⟩, hst⟩
      refine .taken call (selectPrimaryInstance_isSome hmem) ?_ ?_ hone
      · exact (forall_update_iff s.calls fun _ p => ¬ Active p).mpr
          ⟨id, fun i hi => (hothers i hi).1⟩
      · exact fun i hi => (others_quiet hothers _ i hi).2
  · rw [insert_of_not_active hact]
    exact h

theorem stage_exits (pid : Nat) : Stage m (startStep host m requests s (.exits pid)) := by
  have hfew : (s.alive.filter (·.pid ≠ pid)).length ≤ s.alive.length := List.length_filter_le _ _
  cases h with
  | free hcalls halive => exact .free hcalls (by rw [startStep, halive]; rfl)
  | checked call hcall hothers halive =>
    exact .checked call hcall hothers (by rw [startStep, halive]; rfl)
  | launched call st hcall hst hothers hone =>
    exact .launched call st hcall hst hothers (hfew.trans hone)
  | taken winner hpresent hcalls hothers hone =>
    exact .taken winner hpresent hcalls hothers (hfew.trans hone)

theorem stage_step (event : StartEvent) (halo : Alone host m requests s event) :
    Stage m (startStep host m requests s event) := by
  cases event with
  | check call => exact stage_check h halo
  | launch call answers => exact stage_launch h halo
  | insert call => exact stage_insert h
  | exits pid => exact stage_exits h pid

end

end

/-- **ONE PRIMARY.** In every run of concurrent starts of a module, from any state of the
runtime, in which no call checks while another is between its check and its insertion
and none fails after its check, at most one primary is alive and all calls but one are
refused. -/
theorem one_primary (host : ProcessModuleRuntime) (m : ModuleId) (requests : Nat → StartRequest)
    (s : RuntimeState) (events : List StartEvent)
    (halone : Run.Along (startStep host m requests) (Alone host m requests) (.initial s) events) :
    OnePrimary m (Run.run (startStep host m requests) (.initial s) events) ∧
      OneAccepted m (Run.run (startStep host m requests) (.initial s) events) := by
  have hini : Stage m (.initial s) := .free (fun _ => ⟨id, id⟩) rfl
  have hst : ∀ s event, Stage m s → Alone host m requests s event →
      Stage m (startStep host m requests s event) :=
    fun _ event h hm => stage_step h event hm
  have hsta := Run.invariant hst hini halone
  exact ⟨hsta.onePrimary, hsta.oneAccepted⟩

def plainRequests (_ : Nat) : StartRequest := ⟨none, []⟩

/-- The first call runs to its end before the second checks. -/
def inTurn : List StartEvent :=
  [.check 0, .launch 0 (plainStart tasksModule 1), .insert 0, .check 1]

/-- Both calls check before either inserts. -/
def overlapping : List StartEvent :=
  [.check 0, .check 1, .launch 0 (plainStart tasksModule 1), .insert 0,
    .launch 1 (plainStart tasksModule 2), .insert 1]

theorem one_primary_in_turn : OnePrimary tasksModule
        (Run.run (startStep plainHost tasksModule plainRequests) (.initial .empty) inTurn) ∧
      OneAccepted tasksModule
        (Run.run (startStep plainHost tasksModule plainRequests) (.initial .empty) inTurn) := by
  refine one_primary plainHost tasksModule plainRequests .empty inTurn
    ⟨fun _ => id, ?_, trivial, ?_, trivial⟩
  · cases hlau : launchOf plainHost tasksModule plainRequests 0 (plainStart tasksModule 1) with
    | ok st => exact ⟨st, hlau⟩
    | error err =>
      have hok : (launchOf plainHost tasksModule plainRequests 0
        (plainStart tasksModule 1)).isOk = true := by decide +kernel
      rw [hlau] at hok
      cases hok
  · intro other
    show ¬ Active ((Run.run (startStep plainHost tasksModule plainRequests) (.initial .empty)
      (inTurn.take 3)).calls other)
    by_cases hze : other = 0
    · subst hze
      decide +kernel
    · rw [run_others]
      · exact id
      · intro event heve heq
        have hca : ∀ event ∈ inTurn.take 3, event.caller = some 0 := by
          intro e he
          simp only [inTurn, List.take_succ_cons, List.take_zero, List.mem_cons,
            List.not_mem_nil, or_false] at he
          rcases he with rfl | rfl | rfl <;> rfl
        rw [hca event heve] at heq
        exact hze (Option.some.inj heq).symm

/-- Both spawn a primary, and both are accepted. -/
theorem both_started :
    ¬ OnePrimary tasksModule (Run.run (startStep plainHost tasksModule plainRequests)
        (.initial .empty) overlapping) ∧
      ¬ OneAccepted tasksModule (Run.run (startStep plainHost tasksModule plainRequests)
        (.initial .empty) overlapping) := by
  refine ⟨by decide +kernel, ?_⟩
  intro hone
  refine absurd (hone 0 1 ?_ ?_) Nat.zero_ne_one
  · decide +kernel
  · decide +kernel

end Fenrir.Runtime
