import Fenrir.Domain
import Fenrir.Lib.Run

/-! # Canary promotion and the operators

`reconcile_dynamic_canary_rollouts` and the three calls of operators of
`services/module/service.rs`. A pass of the health monitor copies the table of allocations
once, judges the copies one by one, and writes a raised percentage or removes an entry under
the lock, long after the copy was made. Operators change the table at any moment in between. -/

namespace Fenrir.Canary

/-! ## Configuration -/

inductive ModuleRolloutStrategy where
  | restart | rollingReplace | canaryReplace | workerHandover
  deriving DecidableEq

/-- The loop of `validate` over the steps. -/
def validateSteps (path : String) : Nat → List Nat → Except String Unit
  | _, [] => .ok ()
  | previous, step :: rest =>
    if step = 0 ∨ step > 100 then
      .error (path ++ ".rollout.traffic_steps entries must be between 1 and 100")
    else if step < previous then
      .error (path ++ ".rollout.traffic_steps must be monotonic ascending")
    else validateSteps path step rest

/-- `ModuleServiceRolloutConfig::validate`, of the fields below. -/
def validate (path : String) (promotionIntervalMs : Option Nat) (trafficSteps : List Nat) :
    Except String Unit :=
  if promotionIntervalMs = some 0 then
    .error (path ++ ".rollout.promotion_interval_ms must be > 0")
  else
    match validateSteps path 0 trafficSteps with
    | .error err => .error err
    | .ok () =>
      if trafficSteps.getLast?.getD 100 = 100 then .ok ()
      else .error (path ++ ".rollout.traffic_steps must end with 100")

/-- `ModuleServiceRolloutConfig` as far as canaries read it, loaded from the configuration. -/
structure ModuleServiceRolloutConfig where
  strategy : Option ModuleRolloutStrategy
  trafficSteps : List Nat
  promotionIntervalMs : Option Nat
  rollbackOnRegression : Bool
  path : String
  valid : validate path promotionIntervalMs trafficSteps = .ok ()

theorem validateSteps_ascending {path : String} {previous : Nat} {trafficSteps : List Nat}
    (h : validateSteps path previous trafficSteps = .ok ()) :
    (previous :: trafficSteps).Pairwise (· ≤ ·) := by
  induction trafficSteps generalizing previous with
  | nil => exact List.pairwise_singleton _ _
  | cons step rest ih =>
    rw [validateSteps] at h
    split_ifs at h with _ hlt
    refine List.pairwise_cons.mpr ⟨fun next hnext => ?_, ih h⟩
    rcases List.mem_cons.mp hnext with rfl | hnext
    · exact Nat.le_of_not_lt hlt
    · exact (Nat.le_of_not_lt hlt).trans ((List.pairwise_cons.mp (ih h)).1 next hnext)

namespace ModuleServiceRolloutConfig

/-- The steps of the promotion, by default 10, 25, 50 and 100 percent. -/
def steps (rollout : ModuleServiceRolloutConfig) : List Nat :=
  if rollout.trafficSteps.isEmpty then [10, 25, 50, 100] else rollout.trafficSteps

theorem steps_ascending (rollout : ModuleServiceRolloutConfig) :
    rollout.steps.Pairwise (· ≤ ·) := by
  rw [steps]
  split
  · decide
  · have hval := rollout.valid
    rw [validate] at hval
    split at hval
    · cases hval
    · split at hval
      · cases hval
      · exact (List.pairwise_cons.mp (validateSteps_ascending ‹_›)).2

structure NextStep (rollout : ModuleServiceRolloutConfig) (current next : Nat) : Prop where
  configured : next ∈ rollout.steps
  above : current < next
  least : ∀ step ∈ rollout.steps, current < step → next ≤ step

end ModuleServiceRolloutConfig

def nextCanaryPercent (rollout : ModuleServiceRolloutConfig) (current : Nat) : Nat :=
  (rollout.steps.find? fun step => step > current).getD current

theorem nextStep_nextCanaryPercent {rollout : ModuleServiceRolloutConfig} {cur : Nat}
    (habo : cur < nextCanaryPercent rollout cur) :
    rollout.NextStep cur (nextCanaryPercent rollout cur) := by
  cases hfi : rollout.steps.find? fun step => step > cur with
  | none =>
    rw [nextCanaryPercent, hfi] at habo
    exact absurd habo (Nat.lt_irrefl cur)
  | some next =>
    have hne : nextCanaryPercent rollout cur = next := by rw [nextCanaryPercent, hfi]; rfl
    rw [hne] at habo ⊢
    refine ⟨List.mem_of_find?_eq_some hfi, habo, ?_⟩
    intro step hst hlt
    obtain ⟨-, pre, after, hste, hbef⟩ := List.find?_eq_some_iff_append.mp hfi
    have hasc := rollout.steps_ascending
    rw [hste, List.pairwise_append] at hasc
    rw [hste, List.mem_append] at hst
    rcases hst with hst | hst
    · have hnot := hbef step hst
      simp only [gt_iff_lt, Bool.not_eq_true', decide_eq_false_iff_not] at hnot
      exact absurd hlt hnot
    · rcases List.mem_cons.mp hst with rfl | hst
      · exact le_refl step
      · exact List.rel_of_pairwise_cons hasc.2.1 hst

/-! ## What a pass decides -/

structure ModuleCanaryAllocation where
  trafficPercent : Nat
  instanceIds : List String
  lastChangedAt : Option Nat
  deriving DecidableEq

inductive CanaryEvaluation where
  | healthy
  | pending (reason : String)
  | regressed (reason : String)

/-- `canary_instances_unhealthy`, given which instances of the module are ready. -/
def canaryInstancesUnhealthy (entries : Option (BTreeMap Bool)) (instanceIds : List String) :
    Option Bool :=
  entries.map fun entries => instanceIds.any fun id => !(entries[id]?.getD false)

/-- What the outside says while one copy is judged; `now` is in nanoseconds. -/
structure Findings where
  rollout : Option ModuleServiceRolloutConfig
  entries : Option (BTreeMap Bool)
  evaluation : CanaryEvaluation
  now : Nat

inductive Verdict where
  | leave | clear
  | promote (rollout : ModuleServiceRolloutConfig) (next : Nat)

/-- The body of the loop up to where it changes something. -/
def judge (f : Findings) (allocation : ModuleCanaryAllocation) : Verdict :=
  match f.rollout with
  | none => .leave
  | some rollout =>
    if rollout.strategy ≠ some .canaryReplace then .leave
    else if allocation.trafficPercent = 0 ∨ allocation.trafficPercent ≥ 100 then .leave
    else if (canaryInstancesUnhealthy f.entries allocation.instanceIds).getD true then
      if rollout.rollbackOnRegression then .clear else .leave
    else
      match f.evaluation with
      | .pending _ => .leave
      | .regressed _ => if rollout.rollbackOnRegression then .clear else .leave
      | .healthy =>
        let promotionInterval := rollout.promotionIntervalMs.getD 30000 * 1000000
        -- a time that lies ahead of the clock counts as no time at all
        let elapsed := (allocation.lastChangedAt.map (f.now - ·)).getD 0
        if elapsed < promotionInterval then .leave
        else
          let next := nextCanaryPercent rollout allocation.trafficPercent
          if next ≤ allocation.trafficPercent then .leave else .promote rollout next

theorem judge_promote {f : Findings} {alloc : ModuleCanaryAllocation}
    {rollout : ModuleServiceRolloutConfig} {next : Nat}
    (h : judge f alloc = .promote rollout next) : rollout.NextStep alloc.trafficPercent next := by
  revert h
  fun_cases judge f alloc
  all_goals intro h
  case case11 hne =>
    obtain ⟨rfl, rfl⟩ := Verdict.promote.inj h
    exact nextStep_nextCanaryPercent (Nat.lt_of_not_le hne)
  all_goals cases h

/-! ## What an operator's call decides -/

structure RuntimeInstance where
  instanceId : String
  primary : Bool

/-- What a call will write: nothing stands for the removal of the entry. -/
abbrev Intent := Option (Nat × List String)

/-- `set_canary_routing` up to the write. -/
def setCanaryRouting (rollout : Option ModuleServiceRolloutConfig)
    (instances : Except String (List RuntimeInstance)) (moduleId : String) (trafficPercent : Nat)
    (instanceIds : Option (List String)) : Except String Intent :=
  if trafficPercent > 100 then
    .error s!"canary traffic percent must be between 0 and 100, got {trafficPercent}"
  else if rollout.bind (·.strategy) ≠ some .canaryReplace then
    .error s!"module {moduleId} is not configured for canary_replace rollout strategy"
  else
    match instances with
    | .error err => .error err
    | .ok runtimeInstances =>
      let candidates := (runtimeInstances.filter fun i => !i.primary).map (·.instanceId)
      let selected := instanceIds.getD candidates
      if selected.isEmpty && trafficPercent > 0 then
        .error s!"module {moduleId} has no candidate instances available for canary routing"
      else
        match selected.find? fun id => !(runtimeInstances.any fun i => i.instanceId = id) with
        | some id => .error s!"module {moduleId} has no runtime instance '{id}'"
        | none =>
          .ok (if trafficPercent = 0 ∨ selected.isEmpty then none
            else some (trafficPercent, selected))

/-- `start_canary_routing` up to the write; `set_canary_routing` reads the configuration once
more. -/
def startCanaryRouting (rollout again : Option ModuleServiceRolloutConfig)
    (instances : Except String (List RuntimeInstance)) (moduleId : String)
    (instanceIds : Option (List String)) : Except String Intent :=
  match rollout with
  | none => .error s!"module {moduleId} has no rollout configuration"
  | some config =>
    if config.strategy ≠ some .canaryReplace then
      .error s!"module {moduleId} is not configured for canary_replace rollout strategy"
    else
      let initialPercent := (config.trafficSteps.find? fun step => step > 0).getD 10
      setCanaryRouting again instances moduleId initialPercent instanceIds

/-! ## Passes and operators -/

inductive Pass where
  | idle
  /-- The copies that are still to be judged. -/
  | going (rest : List (String × ModuleCanaryAllocation))
  | clearing (copy : String × ModuleCanaryAllocation) (rest : List (String × ModuleCanaryAllocation))
  | promoting (copy : String × ModuleCanaryAllocation) (rollout : ModuleServiceRolloutConfig)
      (next : Nat) (rest : List (String × ModuleCanaryAllocation))

inductive Operator where
  | idle
  /-- The call has been checked and waits for the lock. -/
  | ready (moduleId : String) (intent : Intent)

structure World (ι : Type) where
  allocations : BTreeMap ModuleCanaryAllocation
  /-- An operator has changed the entry of the module since the pass made its copy. -/
  touched : String → Bool
  pass : Pass
  operator : ι → Operator

inductive PassMove where
  /-- The copy of the table, in some order. -/
  | copy (order : List (String × ModuleCanaryAllocation))
  | judge (findings : Findings)
  | act (now : Nat)

inductive OperatorMove where
  | set (moduleId : String) (trafficPercent : Nat) (instanceIds : Option (List String))
      (rollout : Option ModuleServiceRolloutConfig)
      (instances : Except String (List RuntimeInstance))
  | start (moduleId : String) (instanceIds : Option (List String))
      (rollout again : Option ModuleServiceRolloutConfig)
      (instances : Except String (List RuntimeInstance))
  | clear (moduleId : String)
  | write (now : Nat)

inductive Event (ι : Type) where
  | pass (move : PassMove)
  | operator (i : ι) (move : OperatorMove)

/-- What a call is ready to write once it is checked; an error ends it. -/
def checked (moduleId : String) : Except String Intent → Operator
  | .error _ => .idle
  | .ok intent => .ready moduleId intent

section

open Function

variable {ι : Type}

namespace World

/-- The write of a promotion, if the module still has an entry. -/
def promote (w : World ι) (moduleId : String) (next now : Nat) : BTreeMap ModuleCanaryAllocation :=
  match w.allocations[moduleId]? with
  | none => w.allocations
  | some current =>
    w.allocations.insert moduleId
      { current with trafficPercent := next, lastChangedAt := some now }

/-- One step of the pass; a step that is not possible changes nothing. -/
def passStep (w : World ι) : PassMove → World ι
  | .copy order =>
    match w.pass with
    | .idle =>
      if order.isPerm w.allocations.toList then
        { w with pass := .going order, touched := fun _ => false }
      else w
    | _ => w
  | .judge findings =>
    match w.pass with
    | .going [] => { w with pass := .idle }
    | .going (copy :: rest) =>
      match Canary.judge findings copy.2 with
      | .leave => { w with pass := .going rest }
      | .clear => { w with pass := .clearing copy rest }
      | .promote rollout next => { w with pass := .promoting copy rollout next rest }
    | _ => w
  | .act now =>
    match w.pass with
    | .clearing copy rest =>
      { w with pass := .going rest, allocations := w.allocations.erase copy.1 }
    | .promoting copy _ next rest =>
      { w with pass := .going rest, allocations := w.promote copy.1 next now }
    | _ => w

/-- The write of an operator. -/
def store (w : World ι) (moduleId : String) (now : Nat) : Intent → BTreeMap ModuleCanaryAllocation
  | none => w.allocations.erase moduleId
  | some (trafficPercent, selected) =>
    w.allocations.insert moduleId ⟨trafficPercent, selected, some now⟩

variable [DecidableEq ι]

def operatorStep (w : World ι) (i : ι) : OperatorMove → World ι
  | .set moduleId trafficPercent instanceIds rollout instances =>
    match w.operator i with
    | .idle =>
      let answer := setCanaryRouting rollout instances moduleId trafficPercent instanceIds
      { w with operator := update w.operator i (checked moduleId answer) }
    | .ready _ _ => w
  | .start moduleId instanceIds rollout again instances =>
    match w.operator i with
    | .idle =>
      let answer := startCanaryRouting rollout again instances moduleId instanceIds
      { w with operator := update w.operator i (checked moduleId answer) }
    | .ready _ _ => w
  | .clear moduleId =>
    match w.operator i with
    | .idle => { w with operator := update w.operator i (.ready moduleId none) }
    | .ready _ _ => w
  | .write now =>
    match w.operator i with
    | .idle => w
    | .ready moduleId intent =>
      { w with
        allocations := w.store moduleId now intent
        touched := update w.touched moduleId true
        operator := update w.operator i .idle }

def step (w : World ι) : Event ι → World ι
  | .pass move => w.passStep move
  | .operator i move => w.operatorStep i move

end World

def World.new : World ι := ⟨∅, fun _ => false, .idle, fun _ => .idle⟩

/-! ## Operators come first -/

/-- The configuration by which a promotion under way goes. -/
def Pass.rollout : Pass → Option ModuleServiceRolloutConfig
  | .promoting _ rollout _ _ => some rollout
  | _ => none

/-- What a step of the pass may make of an entry: one that an operator has set since the copy
is neither removed nor raised, and a percentage changes only to the next configured step
above it. -/
structure Kept (w : World ι) (moduleId : String) (allocation : ModuleCanaryAllocation)
    (after : Option ModuleCanaryAllocation) : Prop where
  operators : w.touched moduleId = true →
    ∃ a, after = some a ∧ a.trafficPercent ≤ allocation.trafficPercent
  steps : ∀ a, after = some a → a.trafficPercent ≠ allocation.trafficPercent →
    ∃ rollout, w.pass.rollout = some rollout ∧
      rollout.NextStep allocation.trafficPercent a.trafficPercent

/-- A step of a pass overrides no operator. -/
def Respects (w : World ι) : Event ι → Prop
  | .operator _ _ => True
  | .pass move => ∀ (moduleId : String) (allocation : ModuleCanaryAllocation),
      w.allocations[moduleId]? = some allocation →
        Kept w moduleId allocation (w.passStep move).allocations[moduleId]?

/-- When a pass removes an entry, no operator has changed it since the copy. When it promotes
one, no operator has changed it, or to just this percentage. -/
def Unchanged (w : World ι) : Event ι → Prop
  | .pass (.act _) =>
    match w.pass with
    | .clearing copy _ => ∀ a, w.allocations[copy.1]? = some a → w.touched copy.1 = false
    | .promoting copy _ next _ => ∀ a, w.allocations[copy.1]? = some a →
        w.touched copy.1 = false ∨ a.trafficPercent = next
    | _ => True
  | _ => True

/-- The copies are of different modules, and each is what the table holds unless an operator
has changed it. -/
structure Fresh (w : World ι) (copies : List (String × ModuleCanaryAllocation)) : Prop where
  distinct : (copies.map (·.1)).Nodup
  same : ∀ copy ∈ copies, w.touched copy.1 = false → w.allocations[copy.1]? = some copy.2

/-- What the copies have to do with the table. -/
def Copied (w : World ι) : Prop :=
  match w.pass with
  | .idle => True
  | .going rest => Fresh w rest
  | .clearing copy rest => Fresh w (copy :: rest)
  | .promoting copy rollout next rest =>
    Fresh w (copy :: rest) ∧ rollout.NextStep copy.2.trafficPercent next

variable {w : World ι} {copy : String × ModuleCanaryAllocation}
  {rest : List (String × ModuleCanaryAllocation)} {a : ModuleCanaryAllocation}

theorem Fresh.tail (h : Fresh w (copy :: rest)) : Fresh w rest :=
  ⟨(List.nodup_cons.mp h.distinct).2, fun c hc => h.same c (List.mem_cons_of_mem _ hc)⟩

theorem promote_of_ne {moduleId other : String} {next now : Nat} (hne : moduleId ≠ other) :
    (w.promote moduleId next now)[other]? = w.allocations[other]? := by
  rw [World.promote]
  split
  · rfl
  · rw [BTreeMap.get_insert, if_neg hne]

theorem promote_self {moduleId : String} {next now : Nat} (ha : w.allocations[moduleId]? = some a) :
    (w.promote moduleId next now)[moduleId]? =
      some { a with trafficPercent := next, lastChangedAt := some now } := by
  simp only [World.promote, ha, BTreeMap.get_insert, if_true]

theorem Fresh.dealt {table : BTreeMap ModuleCanaryAllocation} {pass : Pass}
    (h : Fresh w (copy :: rest))
    (htab : ∀ other, copy.1 ≠ other → table[other]? = w.allocations[other]?) :
    Fresh { w with pass, allocations := table } rest := by
  refine ⟨h.tail.distinct, ?_⟩
  intro c hc hunt
  have hne : copy.1 ≠ c.1 := by
    intro heq
    exact (List.nodup_cons.mp h.distinct).1 (List.mem_map.mpr ⟨c, hc, heq.symm⟩)
  rw [htab c.1 hne]
  exact h.tail.same c hc hunt

theorem copied_copy (h : Copied w) (order : List (String × ModuleCanaryAllocation)) :
    Copied (w.passStep (.copy order)) := by
  cases hpa : w.pass with
  | idle =>
    simp only [World.passStep, hpa]
    split
    · rename_i hpe
      have hpe := List.isPerm_iff.mp hpe
      refine ⟨(hpe.map _).nodup_iff.mpr (BTreeMap.toList_keys_nodup _), ?_⟩
      intro copy hco _
      exact Std.ExtTreeMap.mem_toList_iff_getElem?_eq_some.mp (hpe.mem_iff.mp hco)
    · exact h
  | going rest | clearing copy rest | promoting copy rollout next rest =>
    simpa only [World.passStep, hpa] using h

theorem copied_judge (h : Copied w) (findings : Findings) :
    Copied (w.passStep (.judge findings)) := by
  cases hpa : w.pass with
  | going copies =>
    rw [Copied, hpa] at h
    cases copies with
    | nil =>
      simp only [World.passStep, hpa]
      trivial
    | cons copy rest =>
      cases hver : judge findings copy.2 with
      | leave =>
        simp only [World.passStep, hpa, hver]
        exact ⟨h.tail.distinct, h.tail.same⟩
      | clear =>
        simp only [World.passStep, hpa, hver]
        exact ⟨h.distinct, h.same⟩
      | promote rollout next =>
        simp only [World.passStep, hpa, hver]
        exact ⟨⟨h.distinct, h.same⟩, judge_promote hver⟩
  | idle | clearing copy rest | promoting copy rollout next rest =>
    simpa only [World.passStep, hpa] using h

theorem copied_act (h : Copied w) (now : Nat) : Copied (w.passStep (.act now)) := by
  cases hpa : w.pass with
  | clearing copy rest =>
    rw [Copied, hpa] at h
    simp only [World.passStep, hpa]
    refine h.dealt ?_
    intro other hne
    rw [BTreeMap.get_erase, if_neg hne]
  | promoting copy rollout next rest =>
    rw [Copied, hpa] at h
    simp only [World.passStep, hpa]
    exact h.1.dealt fun other hne => promote_of_ne hne
  | idle | going rest => simpa only [World.passStep, hpa] using h

theorem Fresh.written {copies : List (String × ModuleCanaryAllocation)} {moduleId : String}
    {now : Nat} {intent : Intent} {operator : ι → Operator} (h : Fresh w copies) :
    Fresh
      { w with
        allocations := w.store moduleId now intent
        touched := update w.touched moduleId true
        operator } copies := by
  refine ⟨h.distinct, ?_⟩
  intro copy hco hunt
  have hne : copy.1 ≠ moduleId := by
    intro heq
    simp only [heq, update_self] at hunt
    cases hunt
  simp only [update_of_ne hne] at hunt
  have hsa := h.same copy hco hunt
  cases intent with
  | none =>
    show (w.allocations.erase moduleId)[copy.1]? = _
    rw [BTreeMap.get_erase, if_neg hne.symm]
    exact hsa
  | some intent =>
    show (w.allocations.insert moduleId _)[copy.1]? = _
    rw [BTreeMap.get_insert, if_neg hne.symm]
    exact hsa

theorem Copied.mono {w' : World ι} (h : Copied w) (hpa : w'.pass = w.pass)
    (hfre : ∀ copies, Fresh w copies → Fresh w' copies) : Copied w' := by
  rw [Copied] at h ⊢
  rw [hpa]
  cases hsta : w.pass with
  | idle => trivial
  | going rest | clearing copy rest =>
    rw [hsta] at h
    exact hfre _ h
  | promoting copy rollout next rest =>
    rw [hsta] at h
    exact ⟨hfre _ h.1, h.2⟩

variable [DecidableEq ι]

theorem copied_operatorStep (h : Copied w) (i : ι) (move : OperatorMove) :
    Copied (w.operatorStep i move) := by
  have hasi : ∀ operator : ι → Operator, Copied { w with operator } := by
    intro operator
    exact h.mono rfl fun copies hcop => ⟨hcop.distinct, hcop.same⟩
  cases hope : w.operator i with
  | idle =>
    cases move with
    | set moduleId trafficPercent instanceIds rollout instances =>
      simp only [World.operatorStep, hope]
      exact hasi _
    | start moduleId instanceIds rollout again instances | clear moduleId =>
      simp only [World.operatorStep, hope]
      exact hasi _
    | write now => simpa only [World.operatorStep, hope] using h
  | ready moduleId intent =>
    cases move with
    | set moduleId trafficPercent instanceIds rollout instances =>
      simpa only [World.operatorStep, hope] using h
    | start moduleId instanceIds rollout again instances =>
      simpa only [World.operatorStep, hope] using h
    | clear moduleId => simpa only [World.operatorStep, hope] using h
    | write now =>
      simp only [World.operatorStep, hope]
      exact h.mono rfl fun copies hcop => hcop.written

theorem copied_step (w : World ι) (event : Event ι) (h : Copied w) : Copied (w.step event) := by
  cases event with
  | operator i move => exact copied_operatorStep h i move
  | pass move =>
    cases move with
    | copy order => exact copied_copy h order
    | judge findings => exact copied_judge h findings
    | act now => exact copied_act h now

/-! ## When a pass respects the operators -/

omit [DecidableEq ι]

theorem Kept.refl (w : World ι) (moduleId : String) (a : ModuleCanaryAllocation) :
    Kept w moduleId a (some a) where
  operators := fun _ => ⟨a, rfl, le_refl _⟩
  steps := by
    intro a' heq hne
    rw [Option.some_inj] at heq
    exact absurd (congrArg _ heq.symm) hne

theorem respects_of_same {move : PassMove} (hsa : (w.passStep move).allocations = w.allocations) :
    Respects w (.pass move) := by
  intro moduleId a ha
  rw [hsa, ha]
  exact Kept.refl w moduleId a

theorem respects_iff_entry {move : PassMove} (moduleId : String) (hoth : ∀ other, moduleId ≠ other →
      (w.passStep move).allocations[other]? = w.allocations[other]?) :
    Respects w (.pass move) ↔ ∀ a, w.allocations[moduleId]? = some a →
      Kept w moduleId a (w.passStep move).allocations[moduleId]? := by
  constructor
  · intro h a ha
    exact h moduleId a ha
  · intro h other a ha
    by_cases heq : moduleId = other
    · subst heq
      exact h a ha
    · rw [hoth other heq, ha]
      exact Kept.refl w other a

theorem kept_none_iff {moduleId : String} :
    Kept w moduleId a none ↔ w.touched moduleId = false := by
  constructor
  · intro h
    by_contra htou
    obtain ⟨a', ha', -⟩ := h.operators (eq_true_of_ne_false htou)
    cases ha'
  · intro hunt
    refine ⟨?_, nofun⟩
    intro htou
    rw [hunt] at htou
    cases htou

/-- A promotion of an entry keeps it iff no operator has changed the entry, or to just this
percentage. -/
theorem kept_promoted_iff {rollout : ModuleServiceRolloutConfig} {next now : Nat}
    (hpa : w.pass = .promoting copy rollout next rest) (h : Copied w)
    (ha : w.allocations[copy.1]? = some a) :
    Kept w copy.1 a (some { a with trafficPercent := next, lastChangedAt := some now }) ↔
      w.touched copy.1 = false ∨ a.trafficPercent = next := by
  rw [Copied, hpa] at h
  constructor
  · intro hke
    by_contra hneither
    obtain ⟨htou, hne⟩ := not_or.mp hneither
    obtain ⟨a', ha', hle⟩ := hke.operators (eq_true_of_ne_false htou)
    obtain rfl := Option.some_inj.mp ha'
    obtain ⟨rollout', -, hnex⟩ := hke.steps _ rfl (Ne.symm hne)
    exact absurd hnex.above (Nat.not_lt_of_le hle)
  · rintro (huntouched | rfl)
    · -- the entry is still the copy
      have hsa := h.1.same copy List.mem_cons_self huntouched
      obtain rfl : a = copy.2 := Option.some_inj.mp (ha.symm.trans hsa)
      refine ⟨?_, ?_⟩
      · intro htou
        rw [huntouched] at htou
        cases htou
      · intro a' ha' _
        obtain rfl := Option.some_inj.mp ha'
        exact ⟨rollout, by rw [hpa]; rfl, h.2⟩
    · refine ⟨fun _ => ⟨_, rfl, le_refl _⟩, ?_⟩
      intro a' ha' hne
      obtain rfl := Option.some_inj.mp ha'
      exact absurd rfl hne

theorem respects_act_iff (h : Copied w) (now : Nat) :
    Respects w (.pass (.act now)) ↔ Unchanged w (.pass (.act now)) := by
  cases hpa : w.pass with
  | idle | going rest =>
    rw [Unchanged, hpa]
    exact iff_true_intro (respects_of_same (by simp only [World.passStep, hpa]))
  | clearing copy rest =>
    have hst : (w.passStep (.act now)).allocations = w.allocations.erase copy.1 := by
      simp only [World.passStep, hpa]
    rw [Unchanged, hpa, respects_iff_entry copy.1]
    · simp only [hst, BTreeMap.get_erase, if_true, kept_none_iff]
    · intro other hne
      rw [hst, BTreeMap.get_erase, if_neg hne]
  | promoting copy rollout next rest =>
    have hst : (w.passStep (.act now)).allocations = w.promote copy.1 next now := by
      simp only [World.passStep, hpa]
    rw [Unchanged, hpa, respects_iff_entry copy.1]
    · refine forall_congr' fun a => forall_congr' fun ha => ?_
      rw [hst, promote_self ha]
      exact kept_promoted_iff hpa h ha
    · intro other hne
      rw [hst, promote_of_ne hne]

theorem copy_same (w : World ι) (order : List (String × ModuleCanaryAllocation)) :
    (w.passStep (.copy order)).allocations = w.allocations := by
  simp only [World.passStep]
  split
  · split
    · rfl
    · rfl
  · rfl

theorem judge_same (w : World ι) (findings : Findings) :
    (w.passStep (.judge findings)).allocations = w.allocations := by
  simp only [World.passStep]
  split
  · rfl
  · split
    · rfl
    · rfl
    · rfl
  · rfl

theorem respects_iff (w : World ι) (event : Event ι) (h : Copied w) :
    Respects w event ↔ Unchanged w event := by
  cases event with
  | operator i move => exact Iff.rfl
  | pass move =>
    cases move with
    | copy order => exact iff_true_intro (respects_of_same (copy_same w order))
    | judge findings => exact iff_true_intro (respects_of_same (judge_same w findings))
    | act now => exact respects_act_iff h now

/-- **OPERATORS AND PROMOTION.** In every run of passes and operators, the passes respect the
operators iff each of them acts only on entries that no operator has changed since the
copy. -/
theorem promotion_respects_iff [DecidableEq ι] (events : List (Event ι)) :
    Run.Along World.step Respects (World.new : World ι) events ↔
      Run.Along World.step Unchanged (World.new : World ι) events :=
  have hnew : Copied (World.new : World ι) := trivial
  Run.along_congr (fun w event h _ => copied_step w event h) respects_iff hnew events

end

/-! ## A canary that an operator takes back -/

def sampleRollout : ModuleServiceRolloutConfig :=
  ⟨some .canaryReplace, [], none, true, "modules.web", rfl⟩

/-- An operator gives a canary of `web` ten percent. A pass copies this and finds the canary
healthy. The operator goes down to one percent before the pass writes. -/
def takenBack : List (Event Unit) :=
  [.operator () (.set "web" 10 none (some sampleRollout) (.ok [⟨"web", true⟩, ⟨"web-2", false⟩])),
    .operator () (.write 0), .pass (.copy [("web", ⟨10, ["web-2"], some 0⟩)]),
    .pass (.judge ⟨some sampleRollout, some (Std.ExtTreeMap.insert ∅ "web-2" true), .healthy,
      60000000000⟩),
    .operator () (.set "web" 1 none (some sampleRollout) (.ok [⟨"web", true⟩, ⟨"web-2", false⟩])),
    .operator () (.write 60000000001)]

/-- The pass writes the step above ten percent. -/
theorem promotion_overrides_operator : ¬ Run.Along World.step Respects (World.new : World Unit)
      (takenBack ++ [.pass (.act 60000000002)]) := by
  intro halo
  have hres := (Run.along_append.mp halo).2.1
  have hke := hres "web" ⟨1, ["web-2"], some 60000000001⟩ (by rfl)
  obtain ⟨a, ha, hle⟩ := hke.operators (by rfl)
  have hrai : a = ⟨25, ["web-2"], some 60000000002⟩ := (Option.some_inj.mp ha).symm
  rw [hrai] at hle
  exact absurd hle (by decide)

end Fenrir.Canary
