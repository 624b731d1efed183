import Fenrir.Lib.Run
import Fenrir.Lib.Triple
import Fenrir.Runtime.Instances

/-! # No orphan processes

A process that the runtime has spawned and that is alive should stand in the map under its
instance id. Each operation takes the entry out before it ends the process, so a kill that
fails while the process lives on leaves one behind. -/

namespace Fenrir.Runtime

open Option

open Effect Effect.Act Modules

/-! ## The machine -/

/-- One call with the answers it gets, or a process that ends by itself. -/
inductive Call where
  | start (answers : RuntimeAnswers) (config : ModuleStartConfig)
  | stop (answers : RuntimeAnswers) (m : ModuleId)
  | restartInstance (answers : RuntimeAnswers) (m : ModuleId) (instanceId : String)
  | restart (answers : RuntimeAnswers) (m : ModuleId)
  | reconcileInstances (answers : RuntimeAnswers) (config : ModuleStartConfig)
      (desiredInstances : Nat)
  | exits (pid : Nat)

def step (host : ProcessModuleRuntime) (s : RuntimeState) : Call → RuntimeState
  | .start answers config => (Runtime.start host answers config s).2
  | .stop answers m => (Runtime.stop answers m s).2
  | .restartInstance answers m instanceId =>
    (Runtime.restartInstance host answers m instanceId s).2
  | .restart answers m => (Runtime.restart host answers m s).2
  | .reconcileInstances answers config desired =>
    (Runtime.reconcileInstances host answers config desired s).2
  | .exits pid => { s with processes := s.processes.filter (·.pid ≠ pid) }

/-- The process stands in the map under its instance id and its module. -/
def Tracked (running : BTreeMap RunningModuleState) (p : Process) : Prop :=
  ∃ st, running[p.instanceId]? = some st ∧ st.kind = .process p.pid ∧ st.moduleId = p.moduleId

/-- Every process that is alive stands in the map. -/
def NoOrphan (s : RuntimeState) : Prop := ∀ p ∈ s.processes, Tracked s.running p

/-- No kill fails and leaves its process alive. -/
def KillsEnd (answers : RuntimeAnswers) : Prop :=
  ∀ pid reason, answers.kill pid ≠ .failed reason true

/-- What a call must meet in the state it is made in: its kills end their process,
`restart_instance` names an instance of its own module if it names one at all, and
the ordinals of a module do not run out. -/
def Meets (s : RuntimeState) : Call → Prop
  | .start _ _ => True
  | .stop answers _ => KillsEnd answers
  | .restartInstance answers m instanceId =>
    KillsEnd answers ∧ ∀ st, s.running[instanceId]? = some st → st.moduleId = m
  | .restart answers _ => KillsEnd answers
  | .reconcileInstances answers config desired =>
    KillsEnd answers ∧ maxOrdinal config.moduleId s.running + desired ≤ usizeMax
  | .exits _ => True

/-! ## One entry at a time -/

structure Sound (s : RuntimeState) : Prop where
  shape : Shape s.running
  noOrphan : NoOrphan s

/-- The entry is out of the map, its process may be alive. -/
structure Removed (st : RunningModuleState) (s : RuntimeState) : Prop where
  shape : Shape s.running
  free : s.running[st.instanceId]? = none
  others : ∀ p ∈ s.processes, st.kind = .process p.pid ∨ Tracked s.running p

variable {running : BTreeMap RunningModuleState} {p : Process} {key : String}
  {st : RunningModuleState} {s : RuntimeState} {answers : RuntimeAnswers} {m : ModuleId}

theorem Tracked.insert (h : Tracked running p) (hfr : running[key]? = none)
    (st : RunningModuleState) : Tracked (running.insert key st) p := by
  obtain ⟨st', hget, hst⟩ := h
  refine ⟨st', ?_, hst⟩
  rw [BTreeMap.get_insert, if_neg, hget]
  rintro rfl
  rw [hfr] at hget
  cases hget

theorem Tracked.erase (h : Tracked running p) (hne : key ≠ p.instanceId) :
    Tracked (running.erase key) p := by
  obtain ⟨st, hget, hst⟩ := h
  exact ⟨st, by rw [BTreeMap.get_erase, if_neg hne, hget], hst⟩

theorem removeEntry_triple (m : ModuleId) (iid : String) (owner : ModuleId → Prop) :
    Triple (fun s => Sound s ∧ ∀ st, s.running[iid]? = some st → owner st.moduleId)
      (removeEntry m iid)
      (fun st s => Removed st s ∧ st.instanceId = iid ∧ InstanceOf st.moduleId iid
        ∧ owner st.moduleId) (fun _ => Sound) := by
  intro s ⟨hs, howner⟩
  rw [removeEntry]
  cases hget : s.running[iid]? with
  | none => exact hs
  | some st =>
    obtain ⟨hid, hof⟩ := hs.shape iid st hget
    refine ⟨⟨hs.shape.erase iid, ?_, ?_⟩, hid, hof, howner st hget⟩
    · rw [BTreeMap.get_erase, if_pos hid.symm]
    · intro p hp
      by_cases hp' : iid = p.instanceId
      · -- the process of the removed entry
        obtain ⟨st', hge', hki, -⟩ := hs.noOrphan p hp
        rw [← hp', hget] at hge'
        cases hge'
        exact .inl hki
      · exact .inr ((hs.noOrphan p hp).erase hp')

theorem Removed.sound (h : Removed st s) (hgo : ∀ p ∈ s.processes, st.kind ≠ .process p.pid) :
    Sound s :=
  ⟨h.shape, fun p hp => (h.others p hp).resolve_left (hgo p hp)⟩

theorem Removed.kill (h : Removed st s) {pid : Nat} (hki : st.kind = .process pid) :
    Sound { s with processes := s.processes.filter (·.pid ≠ pid) } := by
  have hrem : Removed st { s with processes := s.processes.filter (·.pid ≠ pid) } :=
    ⟨h.shape, h.free, fun p hp => h.others p (List.mem_of_mem_filter hp)⟩
  refine hrem.sound ?_
  intro p hp heq
  rw [hki] at heq
  have hne : p.pid ≠ pid := of_decide_eq_true (List.mem_filter.mp hp).2
  exact hne (RunningModuleKind.process.inj heq).symm

theorem endInstance_triple (hkil : KillsEnd answers) (st : RunningModuleState) :
    Triple (Removed st) (endInstance answers st)
      (fun _ s => Sound s ∧ s.running[st.instanceId]? = none) (fun _ => Sound) := by
  intro s hs
  rw [endInstance]
  cases hkin : st.kind with
  | staticSite =>
    refine ⟨hs.sound fun p _ heq => ?_, hs.free⟩
    rw [hkin] at heq
    cases heq
  | process pid =>
    dsimp only
    rw [killProcess]
    cases hki : answers.kill pid with
    | exited => exact ⟨hs.kill hkin, hs.free⟩
    | failed why alive =>
      cases alive with
      | false => exact hs.kill hkin
      | true => exact absurd hki (hkil pid why)

theorem stopInstanceById_triple (hkil : KillsEnd answers) (m : ModuleId) (iid : String) :
    Triple Sound (stopInstanceById answers m iid) (fun _ => Sound) (fun _ => Sound) := by
  refine triple_bind (R := fun st s => Removed st s) ?_ fun st => ?_
  · exact (removeEntry_triple m iid fun _ => True).weaken
      (fun s hs => ⟨hs, fun _ _ => trivial⟩) (fun _ _ h => h.1) (fun _ _ h => h)
  · exact (endInstance_triple hkil st).weaken (fun _ h => h) (fun _ _ h => h.1) (fun _ _ h => h)

/-! ## Starting -/

theorem Sound.insert (hs : Sound s) (hof : InstanceOf st.moduleId st.instanceId)
    (hfr : s.running[st.instanceId]? = none) : Sound (withInstance s st) := by
  refine ⟨hs.shape.insert hof, ?_⟩
  intro p hp
  rcases List.mem_append.mp hp with hnew | hold
  · rw [spawned] at hnew
    cases hki : st.kind with
    | staticSite =>
      rw [hki] at hnew
      cases hnew
    | process pid =>
      rw [hki] at hnew
      obtain rfl := List.mem_singleton.mp hnew
      exact ⟨st, by rw [withInstance_get, if_pos rfl], hki, rfl⟩
  · exact (hs.noOrphan p hold).insert hfr st

variable {host : ProcessModuleRuntime}

theorem startSpecificInstance_triple (answers : RuntimeAnswers) {iid : String}
    (hof : InstanceOf m iid) (prim : Bool) (port : Option Nat) (env : List (String × String)) :
    Triple (fun s => Sound s ∧ s.running[iid]? = none)
      (startSpecificInstance host answers m iid prim port env)
      (fun _ => Sound) (fun _ => Sound) := by
  intro s ⟨hs, hfree⟩
  cases hlau : launch host (answers.start iid) m iid prim port env with
  | error e =>
    rw [startSpecificInstance_error hlau]
    exact hs
  | ok st =>
    rw [startSpecificInstance_ok hlau]
    obtain ⟨rfl, rfl, -⟩ := launch_asked st hlau
    exact hs.insert hof hfree

theorem start_triple (answers : RuntimeAnswers) (config : ModuleStartConfig) :
    Triple Sound (start host answers config) (fun _ => Sound) (fun _ => Sound) := by
  refine triple_bind
    (R := fun present s => Sound s ∧
      present = (selectPrimaryInstance config.moduleId s.running).isSome)
    (triple_read fun s hs => ⟨hs, rfl⟩) fun present => ?_
  cases present with
  | true => exact triple_fail fun s hs => hs.1
  | false =>
    refine (startSpecificInstance_triple answers (.inl rfl) true config.port
      config.envVars).weaken ?_ (fun _ _ h => h) (fun _ _ h => h)
    intro s ⟨hs, hnone⟩
    have hsel : selectPrimaryInstance config.moduleId s.running = none := by
      rw [← not_isSome_iff_eq_none, ← hnone]
      decide
    exact ⟨hs, hs.shape.free_of_select (.inl rfl) hsel⟩

theorem stop_triple (hkil : KillsEnd answers) (m : ModuleId) :
    Triple Sound (stop answers m) (fun _ => Sound) (fun _ => Sound) := by
  refine triple_bind (triple_read (Q := fun _ => Sound) fun s hs => hs) fun ids => ?_
  split
  · exact triple_fail fun s hs => hs
  · exact triple_each (I := fun _ => Sound) fun id _ _ => stopInstanceById_triple hkil m id

/-! ## Restarting -/

theorem Sound.recount (hs : Sound s) (hget : s.running[key]? = some st) (count : Nat) :
    Sound { s with running := s.running.insert key { st with restartCount := count } } := by
  obtain ⟨hid, hof⟩ := hs.shape key st hget
  refine ⟨?_, ?_⟩
  · subst hid
    have hof' : InstanceOf { st with restartCount := count }.moduleId
        { st with restartCount := count }.instanceId := hof
    exact hs.shape.insert hof'
  · intro p hp
    obtain ⟨st', hge', hki, hm⟩ := hs.noOrphan p hp
    by_cases hkey : key = p.instanceId
    · rw [← hkey, hget] at hge'
      cases hge'
      exact ⟨{ st with restartCount := count }, by rw [BTreeMap.get_insert, if_pos hkey], hki, hm⟩
    · exact ⟨st', by rw [BTreeMap.get_insert, if_neg hkey, hge'], hki, hm⟩

theorem restartInstance_triple (hkil : KillsEnd answers) (m : ModuleId) (iid : String) :
    Triple (fun s => Sound s ∧ ∀ st, s.running[iid]? = some st → st.moduleId = m)
      (restartInstance host answers m iid) (fun _ => Sound) (fun _ => Sound) := by
  refine triple_bind (removeEntry_triple m iid (· = m)) fun st => ?_
  split
  · -- the owner was compared before
    rename_i hne
    intro s hs
    exact absurd hs.2.2.2 hne
  · rename_i hm
    replace hm := not_not.mp hm
    refine triple_bind (R := fun _ s => (Sound s ∧ s.running[st.instanceId]? = none) ∧
      InstanceOf m st.instanceId) ?_ fun _ => ?_
    · intro s ⟨hremoved, hid, hof, _⟩
      have hend := endInstance_triple hkil st s hremoved
      split
      · rename_i heq
        rw [heq] at hend
        exact ⟨hend, hm ▸ hid ▸ hof⟩
      · rename_i heq
        rw [heq] at hend
        exact hend
    · refine triple_bind (R := fun _ => Sound) ?_ fun info => ?_
      · intro s ⟨hs, hof⟩
        exact startSpecificInstance_triple answers hof st.primary st.port (st.env.getD []) s hs
      · refine triple_bind (R := fun _ => Sound) (triple_modify fun s hs => ?_) fun _ =>
          triple_pure fun s hs => hs
        show Sound (recount st.instanceId _ s)
        rw [recount]
        split
        · exact hs
        · rename_i restarted hget
          exact hs.recount hget _

theorem listInstances_triple (m : ModuleId) : Triple Sound (listInstances m)
      (fun listed s => Sound s ∧ ∀ i ∈ listed, InstanceOf m i.instanceId) (fun _ => Sound) := by
  intro s hs
  have hof : ∀ st ∈ moduleInstances m s.running, InstanceOf m st.instanceId := by
    intro st hst
    obtain ⟨⟨key, hget⟩, hm⟩ := mem_statesOf.mp (mem_moduleInstances.mp hst)
    obtain ⟨hid, hkey⟩ := hs.shape key st hget
    rw [← hid, hm] at hkey
    exact hkey
  rw [listInstances]
  split
  · rename_i heq
    split at heq
    · cases heq
    · cases heq
      refine ⟨hs, ?_⟩
      intro i hi
      obtain ⟨st, hst, rfl⟩ := List.mem_map.mp hi
      exact hof st hst
  · rename_i heq
    split at heq
    · cases heq
      exact hs
    · cases heq

theorem restart_triple (hkil : KillsEnd answers) (m : ModuleId) :
    Triple Sound (restart host answers m) (fun _ => Sound) (fun _ => Sound) := by
  refine triple_bind (listInstances_triple m) fun listed => ?_
  intro s ⟨hs, hlisted⟩
  refine triple_bind (P := Sound) (R := fun _ => Sound) (triple_collect fun i hi => ?_)
    (fun restarted => ?_) s hs
  · refine (restartInstance_triple hkil m i.instanceId).weaken ?_ (fun _ _ h => h) (fun _ _ h => h)
    intro s' hs'
    exact ⟨hs', fun st hget => hs'.shape.moduleId_eq (hlisted i hi) hget⟩
  · cases restarted with
    | nil => exact triple_fail fun s hs => hs
    | cons info _ => exact triple_pure fun s hs => hs

/-! ## Reconciling -/

def Room (m : ModuleId) (count : Nat) (s : RuntimeState) : Prop :=
  Sound s ∧ maxOrdinal m s.running + count ≤ usizeMax

theorem maxOrdinal_insert {bound : Nat} (h : maxOrdinal m running ≤ bound)
    (hst : ∀ n, replicaOrdinal st.instanceId = some n → n ≤ bound) :
    maxOrdinal m (running.insert st.instanceId st) ≤ bound := by
  rw [maxOrdinal_le] at h ⊢
  intro st' hmem
  rcases mem_statesOf_insert hmem with rfl | hold
  · exact hst
  · exact h st' hold

theorem startReplica_triple (answers : RuntimeAnswers) (config : ModuleStartConfig) (count : Nat) :
    Triple (Room config.moduleId (count + 1)) (startReplica host answers config)
      (fun _ => Room config.moduleId count) (fun _ => Sound) := by
  have hne : ∀ s, Room config.moduleId (count + 1) s →
      replicaOrdinal (nextReplicaInstanceId config.moduleId s.running) =
        some (maxOrdinal config.moduleId s.running + 1) := by
    intro s hs
    have hro : maxOrdinal config.moduleId s.running + 1 ≤ usizeMax := by
      have := hs.2
      omega
    rw [nextReplicaInstanceId, min_eq_left hro, replicaOrdinal_replica _ hro]
  refine triple_bind (R := fun id s => Room config.moduleId (count + 1) s ∧
    id = nextReplicaInstanceId config.moduleId s.running) (triple_read fun s hs => ⟨hs, rfl⟩)
    fun id => triple_bind (R := fun _ => Room config.moduleId count) ?_
    fun _ => triple_pure fun s hs => hs
  rintro s ⟨hs, hid⟩
  have hro : maxOrdinal config.moduleId s.running < usizeMax := by
    have := hs.2
    omega
  have hfr := next_not_running hs.1.shape hro
  have hof := next_instanceOf config.moduleId s.running
  rw [← hid] at hfr hof
  cases hlau : launch host (answers.start id) config.moduleId id false none
      config.envVars with
  | error e =>
    rw [startSpecificInstance_error hlau]
    exact hs.1
  | ok st =>
    rw [startSpecificInstance_ok hlau]
    obtain ⟨hm, hst, -⟩ := launch_asked st hlau
    have hmax : maxOrdinal config.moduleId (withInstance s st).running ≤
        maxOrdinal config.moduleId s.running + 1 := by
      refine maxOrdinal_insert (Nat.le_succ _) ?_
      intro n hn
      rw [hst, hid, hne s hs] at hn
      exact (some.inj hn).ge
    refine ⟨hs.1.insert (by rw [hm, hst]; exact hof) (by rw [hst]; exact hfr), ?_⟩
    have := hs.2
    omega

theorem adjustInstances_triple (hkil : KillsEnd answers) (config : ModuleStartConfig)
    (cur des : Nat) :
    Triple (Room config.moduleId des) (adjustInstances host answers config cur des)
      (fun _ => Sound) (fun _ => Sound) := by
  rw [adjustInstances]
  split
  · refine triple_bind (R := fun _ => Sound) ?_ fun _ => triple_pure fun s hs => hs
    exact (start_triple answers config).weaken (fun _ h => h.1) (fun _ _ h => h) (fun _ _ h => h)
  · split
    · -- each new replica uses up one ordinal of the room
      have hlo : Triple (Room config.moduleId (List.range (des - cur)).length)
          (each (fun _ => startReplica host answers config) (List.range (des - cur)))
          (fun _ => Room config.moduleId 0) (fun _ => Sound) :=
        triple_each (I := fun rest => Room config.moduleId rest.length)
          fun _ rest _ => startReplica_triple answers config rest.length
      refine hlo.weaken ?_ (fun _ _ h => h.1) (fun _ _ h => h)
      intro s hs
      refine ⟨hs.1, ?_⟩
      have := hs.2
      rw [List.length_range]
      omega
    · split
      · refine triple_bind (R := fun _ => Sound) ?_ fun instances => ?_
        · exact (listInstances_triple config.moduleId).weaken (fun _ h => h.1) (fun _ _ h => h.1)
            (fun _ _ h => h)
        · exact triple_each (I := fun _ => Sound)
            fun i _ _ => stopInstanceById_triple hkil config.moduleId i.instanceId
      · exact triple_pure fun s hs => hs.1

theorem reconcileInstances_triple (hkil : KillsEnd answers) (config : ModuleStartConfig)
    (des : Nat) : Triple (Room config.moduleId des) (reconcileInstances host answers config des)
      (fun _ => Sound) (fun _ => Sound) := by
  rw [reconcileInstances]
  split
  · refine triple_bind (R := fun _ => Sound) ?_ fun _ => triple_pure fun s hs => hs
    exact triple_attempt ((stop_triple hkil config.moduleId).weaken (fun _ h => h.1)
      (fun _ _ h => h) (fun _ _ h => h))
  · refine triple_bind (R := fun _ => Room config.moduleId des) ?_ fun listed => ?_
    · intro s hs
      show Room config.moduleId des (listInstances config.moduleId s).2
      rw [listInstances_state]
      exact hs
    · refine triple_bind (adjustInstances_triple hkil config _ des) fun _ => ?_
      exact (listInstances_triple config.moduleId).weaken (fun _ h => h) (fun _ _ h => h.1)
        (fun _ _ h => h)

/-! ## Runs -/

theorem sound_empty : Sound .empty := ⟨shape_empty, nofun⟩

theorem sound_step {call : Call} (hs : Sound s) (hmee : Meets s call) :
    Sound (step host s call) := by
  cases call with
  | start answers config => exact (start_triple answers config).state hs
  | stop answers m => exact (stop_triple hmee m).state hs
  | restartInstance answers m iid =>
    exact (restartInstance_triple hmee.1 m iid).state ⟨hs, hmee.2⟩
  | restart answers m => exact (restart_triple hmee m).state hs
  | reconcileInstances answers config des =>
    exact (reconcileInstances_triple hmee.1 config des).state ⟨hs, hmee.2⟩
  | exits pid =>
    exact ⟨hs.shape, fun p hp => hs.noOrphan p (List.mem_of_mem_filter hp)⟩

/-- **NO ORPHANS.** In every run whose calls meet the condition, every process that is
alive is in the map, in every state reached. -/
theorem no_orphans (host : ProcessModuleRuntime) (calls : List Call)
    (hmeets : Run.Along (step host) Meets .empty calls) :
    NoOrphan (Run.run (step host) .empty calls) :=
  (Run.invariant (fun _ _ hs hm => sound_step hs hm) sound_empty hmeets).noOrphan

/-- Two modules are started, one gets a replica, its primary is restarted, and the other
is stopped. -/
def plainCalls : List Call :=
  [.start (plainAnswers tasksModule 1) (plainConfig tasksModule),
    .start (plainAnswers notesModule 2) (plainConfig notesModule),
    .reconcileInstances (plainAnswers tasksModule 3) (plainConfig tasksModule) 2,
    .restartInstance (plainAnswers tasksModule 4) tasksModule "tasks:primary",
    .stop (plainAnswers notesModule 5) notesModule]

theorem killsEnd_plain (m : ModuleId) (pid : Nat) : KillsEnd (plainAnswers m pid) := by
  intro p why h
  cases h

theorem no_orphans_plain :
    (Run.run (step plainHost) .empty plainCalls).processes.map (·.pid) = [4, 3] ∧
      NoOrphan (Run.run (step plainHost) .empty plainCalls) := by
  refine ⟨by decide +kernel, no_orphans plainHost plainCalls ?_⟩
  refine ⟨trivial, trivial, ⟨killsEnd_plain _ _, by decide +kernel⟩, ⟨killsEnd_plain _ _, ?_⟩,
    killsEnd_plain _ _, trivial⟩
  intro st hst
  have hown : (((Run.run (step plainHost) .empty (plainCalls.take 3)).running[
      "tasks:primary"]?).map (·.moduleId)) = some tasksModule := by decide +kernel
  have hst' : (Run.run (step plainHost) .empty (plainCalls.take 3)).running[
      "tasks:primary"]? = some st := hst
  rw [hst'] at hown
  exact some.inj hown

/-- A module is started, and `restart_instance` is called for another module with the
primary instance of the first. -/
def strangerCalls : List Call :=
  [.start (plainAnswers tasksModule 1) (plainConfig tasksModule),
    .restartInstance (plainAnswers notesModule 2) notesModule "tasks:primary"]

/-- The call answers that the module is not running, and the instance is out of the map
with its process alive. -/
theorem other_module_orphaned : ¬ NoOrphan (Run.run (step plainHost) .empty strangerCalls) := by
  intro h
  have hlo : ∃ p ∈ (Run.run (step plainHost) .empty strangerCalls).processes,
      (Run.run (step plainHost) .empty strangerCalls).running[p.instanceId]? = none := by
    decide +kernel
  obtain ⟨p, hp, hno⟩ := hlo
  obtain ⟨st, hget, -⟩ := h p hp
  rw [hno] at hget
  cases hget

end Fenrir.Runtime
