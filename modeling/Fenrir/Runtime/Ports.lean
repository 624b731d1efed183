import Fenrir.Domain
import Fenrir.Lib.Run

/-! # The ports of the modules

`services/module/ports.rs` with the dynamic strategy. Every call works under the mutex
of the assignments, so a run is a list of calls, restarts among them. What the probe of
a port, the file system and the configuration say comes with the call. -/

namespace Fenrir.Ports

structure ModulePortRange where
  (min max : Nat)

/-- What stands at `state_path`. -/
inductive StateFile where
  | absent
  | saved (assignments : BTreeMap Nat)
  | broken

/-- How `persist_locked` ends; a write that fails may leave a part of the text. -/
inductive Persisted where
  | written | untouched | torn

structure ModulePortAllocator where
  range : ModulePortRange
  assignments : BTreeMap Nat
  stateFile : StateFile

/-- `load_state`; the ids in the file were written by an allocator, so all are valid. -/
def loadState (readable : Bool) : StateFile → BTreeMap Nat
  | .saved assignments => if readable then assignments else ∅
  | .absent | .broken => ∅

namespace ModulePortAllocator

def new (range : ModulePortRange) (stateFile : StateFile) (readable : Bool) : ModulePortAllocator :=
  ⟨range, loadState readable stateFile, stateFile⟩

def persistLocked (self : ModulePortAllocator) : Persisted → ModulePortAllocator
  | .written => { self with stateFile := .saved self.assignments }
  | .untouched => self
  | .torn => { self with stateFile := .broken }

def taken (self : ModulePortAllocator) (port : Nat) : Bool :=
  self.assignments.toList.any fun entry => entry.2 = port

end ModulePortAllocator

/-- The port the module has is probed first, then those of the range, in order. -/
structure AllocateAnswers where
  currentAvailable : Bool
  reclaimed : Persisted
  available : Nat → Bool
  saved : Persisted

inductive PortError where
  | noAvailablePorts (rangeStart rangeEnd : Nat)
  deriving DecidableEq

namespace ModulePortAllocator

section

variable (self : ModulePortAllocator) (moduleId : String)

def allocateNew (a : AllocateAnswers) : Except PortError Nat × ModulePortAllocator :=
  match (List.range' self.range.min (self.range.max + 1 - self.range.min)).find? fun candidate =>
      !self.taken candidate && a.available candidate with
  | some candidate =>
    (.ok candidate, persistLocked
      { self with assignments := self.assignments.insert moduleId candidate } a.saved)
  | none => (.error (.noAvailablePorts self.range.min self.range.max), self)

def allocateDynamic (a : AllocateAnswers) : Except PortError Nat × ModulePortAllocator :=
  match self.assignments[moduleId]? with
  | some current =>
    if a.currentAvailable then (.ok current, self)
    else (persistLocked { self with assignments := self.assignments.erase moduleId }
      a.reclaimed).allocateNew moduleId a
  | none => self.allocateNew moduleId a

def recordAssigned (port : Nat) (saved : Persisted) : ModulePortAllocator :=
  if self.assignments[moduleId]? = some port then self
  else persistLocked { self with assignments := self.assignments.insert moduleId port } saved

def release (saved : Persisted) : ModulePortAllocator :=
  if (self.assignments[moduleId]?).isSome then
    persistLocked { self with assignments := self.assignments.erase moduleId } saved
  else self

end

end ModulePortAllocator

inductive PortCall where
  | assignedPort (moduleId : String) (answers : AllocateAnswers)
  | recordAssigned (moduleId : String) (port : Nat) (saved : Persisted)
  | release (moduleId : String) (saved : Persisted)
  | restart (range : ModulePortRange) (readable : Bool)

def step (allocator : ModulePortAllocator) : PortCall → ModulePortAllocator
  | .assignedPort moduleId answers => (allocator.allocateDynamic moduleId answers).2
  | .recordAssigned moduleId port saved => allocator.recordAssigned moduleId port saved
  | .release moduleId saved => allocator.release moduleId saved
  | .restart range readable => .new range allocator.stateFile readable

/-! ## Exclusive ports -/

def Exclusive (assignments : BTreeMap Nat) : Prop :=
  ∀ (m m' : String) (port : Nat), assignments[m]? = some port → assignments[m']? = some port → m = m'

/-- The assignments and those that a restart would load. -/
structure Sound (allocator : ModulePortAllocator) : Prop where
  exclusive : Exclusive allocator.assignments
  saved : ∀ saved, allocator.stateFile = .saved saved → Exclusive saved

/-- A port is recorded for a module only if no other module has it. -/
def Uncontested (allocator : ModulePortAllocator) : PortCall → Prop
  | .recordAssigned moduleId port _ =>
    ∀ m, allocator.assignments[m]? = some port → m = moduleId
  | _ => True

open ModulePortAllocator (allocateDynamic recordAssigned)

variable {allocator : ModulePortAllocator} {assignments : BTreeMap Nat} {moduleId : String}
  {port : Nat}

theorem exclusive_empty : Exclusive ∅ := by
  intro m m' port h
  cases h

theorem Exclusive.erase (h : Exclusive assignments) (moduleId : String) :
    Exclusive (assignments.erase moduleId) := by
  intro m m' port hm hm'
  rw [BTreeMap.get_erase] at hm hm'
  exact h m m' port (by grind) (by grind)

theorem Exclusive.insert (h : Exclusive assignments)
    (hfr : ∀ m, assignments[m]? = some port → m = moduleId) :
    Exclusive (assignments.insert moduleId port) := by
  intro m m' p hm hm'
  rw [BTreeMap.get_insert] at hm hm'
  grind [Exclusive]

theorem Sound.persist {range : ModulePortRange} {stateFile : StateFile}
    (hown : Exclusive assignments)
    (hsav : ∀ saved, stateFile = .saved saved → Exclusive saved) (answer : Persisted) :
    Sound (ModulePortAllocator.persistLocked ⟨range, assignments, stateFile⟩ answer) := by
  cases answer with
  | written =>
    refine ⟨hown, fun saved h => ?_⟩
    cases h
    exact hown
  | untouched => exact ⟨hown, hsav⟩
  | torn => exact ⟨hown, nofun⟩

theorem taken_eq_false (h : allocator.taken port = false) (m : String) :
    allocator.assignments[m]? ≠ some port := by
  intro hm
  rw [ModulePortAllocator.taken, List.any_eq_false] at h
  exact h (m, port) (Std.ExtTreeMap.mem_toList_iff_getElem?_eq_some.mpr hm) (by simp)

theorem Sound.allocateNew (h : Sound allocator) (moduleId : String) (a : AllocateAnswers) :
    Sound (allocator.allocateNew moduleId a).2 := by
  rw [ModulePortAllocator.allocateNew]
  split
  · next candidate hfind =>
      have hfr := List.find?_some hfind
      rw [Bool.and_eq_true, Bool.not_eq_true'] at hfr
      refine .persist (h.exclusive.insert fun m hm => ?_) h.saved a.saved
      exact absurd hm (taken_eq_false hfr.1 m)
  · exact h

theorem Sound.step (h : Sound allocator) {call : PortCall} (hca : Uncontested allocator call) :
    Sound (step allocator call) := by
  cases call with
  | assignedPort moduleId ans =>
    show Sound (allocator.allocateDynamic moduleId ans).2
    rw [allocateDynamic]
    split
    · split
      · exact h
      · exact (Sound.persist (h.exclusive.erase moduleId) h.saved ans.reclaimed).allocateNew ..
    · exact h.allocateNew moduleId ans
  | recordAssigned moduleId port saved =>
    show Sound (allocator.recordAssigned moduleId port saved)
    rw [recordAssigned]
    split
    · exact h
    · exact .persist (h.exclusive.insert hca) h.saved saved
  | release moduleId saved =>
    show Sound (allocator.release moduleId saved)
    rw [ModulePortAllocator.release]
    split
    · exact .persist (h.exclusive.erase moduleId) h.saved saved
    · exact h
  | restart range readable =>
    refine ⟨?_, h.saved⟩
    show Exclusive (loadState readable allocator.stateFile)
    cases hfi : allocator.stateFile with
    | saved assignments =>
      rw [loadState]
      split
      · exact h.saved assignments hfi
      · exact exclusive_empty
    | absent | broken => exact exclusive_empty

theorem persistLocked_assignments (answer : Persisted) :
    (allocator.persistLocked answer).assignments = allocator.assignments := by
  cases answer <;> rfl

theorem exclusive_step_iff (h : Sound allocator) (call : PortCall) :
    Exclusive (step allocator call).assignments ↔ Uncontested allocator call := by
  refine ⟨fun haft => ?_, fun hca => (h.step hca).exclusive⟩
  cases call with
  | recordAssigned moduleId port saved =>
    intro m hm
    by_contra hne
    have hget : ∀ k, (allocator.recordAssigned moduleId port saved).assignments[k]? =
        if moduleId = k then some port else allocator.assignments[k]? := by
      intro k
      rw [recordAssigned]
      split
      · next hown => split <;> simp_all
      · rw [persistLocked_assignments, BTreeMap.get_insert]
    refine hne (haft m moduleId port ?_ ?_)
    · exact (hget m).trans ((if_neg (Ne.symm hne)).trans hm)
    · exact (hget moduleId).trans (if_pos rfl)
  | assignedPort | release | restart => trivial

theorem allocateDynamic_port {a : AllocateAnswers}
    (h : (allocator.allocateDynamic moduleId a).1 = .ok port) :
    (allocator.range.min ≤ port ∧ port ≤ allocator.range.max) ∨
      allocator.assignments[moduleId]? = some port := by
  have hnew : ∀ self : ModulePortAllocator, (self.allocateNew moduleId a).1 = .ok port →
      self.range.min ≤ port ∧ port ≤ self.range.max := by
    intro self hse
    rw [ModulePortAllocator.allocateNew] at hse
    split at hse
    · next cand hfind =>
        obtain rfl : cand = port := Except.ok.inj hse
        have hmem := List.mem_range'_1.mp (List.mem_of_find?_eq_some hfind)
        omega
    · cases hse
  rw [allocateDynamic] at h
  split at h
  · next current hcurrent =>
      split at h
      · exact .inr (hcurrent.trans (congrArg some (Except.ok.inj h)))
      · have hran := hnew _ h
        cases hans : a.reclaimed <;> rw [hans] at hran <;> exact .inl hran
  · exact .inl (hnew _ h)

/-- **PORTS.** In a run from a new allocator no two modules ever have the same port, if and
only if no port is recorded for a module while another one has it. A port that a call
returns lies in the range or is the module's own in every run. -/
theorem ports_exclusive_iff (range : ModulePortRange) (calls : List PortCall) :
    (Run.Along step (fun allocator call => Exclusive (step allocator call).assignments)
        (.new range .absent true) calls ↔
      Run.Along step Uncontested (.new range .absent true) calls) ∧
    ∀ allocator moduleId answers port,
      (ModulePortAllocator.allocateDynamic allocator moduleId answers).1 = .ok port →
      (allocator.range.min ≤ port ∧ port ≤ allocator.range.max) ∨
        allocator.assignments[moduleId]? = some port := by
  refine ⟨?_, fun _ _ _ _ => allocateDynamic_port⟩
  have hnew : Sound (.new range .absent true) := ⟨exclusive_empty, nofun⟩
  have hkee : ∀ allocator call, Sound allocator → Uncontested allocator call →
      Sound (step allocator call) := fun _ _ h => h.step
  exact Run.along_congr hkee (fun _ call h => exclusive_step_iff h call) hnew calls

/-- The range of the tests, and a machine on which every port is free. -/
def testRange : ModulePortRange := ⟨45000, 45010⟩

def allFree : AllocateAnswers := ⟨true, .written, fun _ => true, .written⟩

theorem ports_exclusive_iff_alpha :
    (ModulePortAllocator.allocateDynamic (.new testRange .absent true) "alpha" allFree).1 =
        .ok 45000 ∧
      (45000 ≤ 45000 ∧ 45000 ≤ 45010 ∨
        (ModulePortAllocator.new testRange .absent true).assignments["alpha"]? = some 45000) :=
  have h : (allocateDynamic (.new testRange .absent true) "alpha"
      allFree).1 = .ok 45000 := by decide +kernel
  ⟨h, (ports_exclusive_iff testRange []).2 _ _ _ _ h⟩

/-- `alpha` is given a port, and the runtime reports that `beta` runs on it. -/
theorem port_given_twice :
    let calls := [.assignedPort "alpha" allFree, .recordAssigned "beta" 45000 .written]
    let allocator := Run.run step (.new testRange .absent true) calls
    allocator.assignments["alpha"]? = some 45000 ∧ allocator.assignments["beta"]? = some 45000 := by
  decide +kernel

end Fenrir.Ports
