import Fenrir.Lib.Sequences
import Fenrir.Overrides.Reload

/-! # What a failed reload of overrides leaves behind

A reload that returns an error or reports `RolledBack` should leave the overrides, the
descriptors and the numbers of instances as it found them. The rollback knows only the
modules that were restarted, and most errors return before it. -/

namespace Fenrir.Overrides

open Modules Gateway Tokens List Function

variable {ρ : Type}

/-! ## The course of a reload -/

inductive ReloadStep where
  | restart | stop | reconcile
  /-- The descriptor is registered and nothing else happens. -/
  | rest
  deriving DecidableEq

section

variable (a : ReloadAnswers) (settings : RolloutSettings) (restartRunning : Bool)
  (previous next : ModuleServiceOverrides ρ)

def stepOf (aborted : Bool) (m : Listed) : ReloadStep :=
  if aborted && restartRunning && envChanged previous next m then .rest
  else
    match a.status m.id with
    | .running _ =>
      if restartRunning && envChanged previous next m then .restart
      else if replicasChanged previous next m then
        if next.replicaCount m.id = 0 then .stop else .reconcile
      else .rest
    | .notRunning => .rest
    | .unavailable _ => .rest

def stepFails (m : Listed) : ReloadStep → Bool
  | .restart => !(a.restart m.id).isOk
  | .stop => !a.leftAlone m.id && !(a.stop m.id).isOk
  | .reconcile => !(a.reconcile m.id).isOk
  | .rest => false

/-- A restart of a module that is left alone has no port to probe. -/
def restartHealthy (port : Option Nat) (probe : Except String String) (m : Listed) : Bool :=
  (Runtime.verifyModuleRolloutHealth (if a.leftAlone m.id then none else port) probe).isOk

def stepUnhealthy (m : Listed) : ReloadStep → Bool
  | .restart =>
    match a.restart m.id with
    | .ok port => !restartHealthy a port (a.probe m.id) m
    | .error _ => false
  | .reconcile =>
    match a.reconcile m.id with
    | .ok port => !(Runtime.verifyModuleRolloutHealth port (a.probe m.id)).isOk
    | .error _ => false
  | .stop => false
  | .rest => false

/-- The steps that are taken, up to the first that returns an error. -/
def course : Bool → List Listed → List (Listed × ReloadStep)
  | _, [] => []
  | aborted, m :: ms =>
    let step := stepOf a restartRunning previous next aborted m
    (m, step) :: if stepFails a m step then []
      else course (aborted || (stepUnhealthy a m step && settings.abortOnFirstFailure)) ms

/-- How many instances a step leaves of a module that had `count`. -/
def landed (m : Listed) (count : Nat) : ReloadStep → Nat
  | .restart => if a.leftAlone m.id then count else max 1 (next.replicaCount m.id)
  | .stop => if a.leftAlone m.id then count else 0
  | .reconcile => if count = 0 then 1 else next.replicaCount m.id
  | .rest => count

def restartedIn (steps : List (Listed × ReloadStep)) : List Listed :=
  (steps.filter fun x => x.2 = .restart).map (·.1)

/-- The restarts a rollback gets to: it ends with the first that fails, and with the first
health check that fails. -/
def issuedFrom : List Listed → List Listed
  | [] => []
  | m :: ms =>
    m :: match a.rollbackRestart m.id with
      | .error _ => []
      | .ok port => if restartHealthy a port (a.rollbackProbe m.id) m then issuedFrom ms else []

end

/-- A call of `reload_service_overrides`, with all it is answered. -/
structure ReloadCall (ρ : Type) where
  answers : ReloadAnswers
  settings : RolloutSettings
  restartRunning : Bool
  modules : List Listed
  distinct : (modules.map (·.id)).Nodup
  /-- The new overrides. -/
  next : ModuleServiceOverrides ρ
  before : ReloadState ρ

/-! ## What a step does -/

/-- The registry holds the module's descriptor under the overrides in force, `n` instances
of it run, and nothing else has changed. -/
structure Settled (m : Listed) (n : Nat) (s s' : ReloadState ρ) : Prop where
  overrides : s'.overrides = s.overrides
  registered : s'.registry[moduleServiceId m.id]? = some (descriptorUnder s.overrides m)
  instances : s'.instances m.id = n
  others : ∀ id, id ≠ m.id → s'.registry[moduleServiceId id]? = s.registry[moduleServiceId id]? ∧
      s'.instances id = s.instances id

namespace Settled

variable {m : Listed} {n : Nat} {s s' : ReloadState ρ}

theorem register : Settled m (s.instances m.id) s (s.register m) where
  overrides := rfl
  registered := Std.ExtTreeMap.getElem?_insert_self
  instances := rfl
  others := by
    intro id hid
    refine ⟨?_, rfl⟩
    show (s.registry.insert _ _)[_]? = _
    rw [BTreeMap.get_insert, if_neg]
    intro heq
    exact hid (moduleServiceId_inj.mp heq).symm

theorem setInstances (h : Settled m n s s') (k : Nat) : Settled m k s (s'.setInstances m.id k) where
  overrides := h.overrides
  registered := h.registered
  instances := update_self ..
  others := by
    intro id hid
    refine ⟨(h.others id hid).1, ?_⟩
    show update s'.instances m.id k id = _
    rw [update_of_ne hid]
    exact (h.others id hid).2

theorem trans {k : Nat} {s'' : ReloadState ρ} (h : Settled m n s s') (h' : Settled m k s' s'') :
    Settled m k s s'' where
  overrides := h'.overrides.trans h.overrides
  registered := by rw [h'.registered, h.overrides]
  instances := h'.instances
  others := by
    intro id hid
    exact ⟨(h'.others id hid).1.trans (h.others id hid).1,
      (h'.others id hid).2.trans (h.others id hid).2⟩

theorem registerAgain (h : Settled m n s s') : Settled m n s (s'.register m) := by
  have haga := h.trans register
  rwa [h.instances] at haga

theorem started (k : Nat) : Settled m k s ((s.setInstances m.id k).register m) where
  overrides := rfl
  registered := Settled.register.registered
  instances := update_self ..
  others := fun id hid => ⟨(Settled.register.others id hid).1, update_of_ne hid ..⟩

end Settled

section

variable (a : ReloadAnswers) (settings : RolloutSettings) (restartRunning : Bool)
  (previous : ModuleServiceOverrides ρ)

/-- What one turn of the loop can come to. -/
inductive Goes (m : Listed) (step : ReloadStep) (p : Progress) (s : ReloadState ρ) :
    Except ModuleServiceError Progress × ReloadState ρ → Prop where
  | failed {err : ModuleServiceError} {s' : ReloadState ρ}
      (fails : stepFails a m step = true) (overrides : s'.overrides = s.overrides) :
      Goes m step p s (.error err, s')
  | done {p' : Progress} {s' : ReloadState ρ} (succeeds : stepFails a m step = false)
      (settled : Settled m (landed a s.overrides m (s.instances m.id) step) s s')
      (restarted : p'.restarted = p.restarted ++ (restartedIn [(m, step)]).map (·.id))
      (rolloutFailed : p'.rolloutFailed = (p.rolloutFailed || stepUnhealthy a m step))
      (rolloutAborted : p'.rolloutAborted =
        (p.rolloutAborted || (stepUnhealthy a m step && settings.abortOnFirstFailure))) :
      Goes m step p s (.ok p', s')

variable {a settings} {m : Listed} {p : Progress} {s s1 : ReloadState ρ}

theorem restartStep_goes (hs : Settled m (s.instances m.id) s s1) :
    Goes a settings m .restart p s (restartStep a settings m p s1) := by
  cases hans : a.restart m.id with
  | error err =>
    by_cases hdra : a.drained m.id
    · simp only [restartStep, ReloadState.restart, hans, if_pos hdra]
      exact .failed (by simp [stepFails, hans, Except.isOk, Except.toBool])
        (hs.registerAgain.setInstances _).overrides
    · simp only [restartStep, ReloadState.restart, hans, if_neg hdra]
      exact .failed (by simp [stepFails, hans, Except.isOk, Except.toBool]) hs.overrides
  | ok port =>
    have hsuc : stepFails a m .restart = false := by
      simp [stepFails, hans, Except.isOk, Except.toBool]
    by_cases halo : a.leftAlone m.id
    · simp only [restartStep, ReloadState.restart, hans, if_pos halo]
      refine .done hsuc ?_ rfl ?_ ?_
      · rw [landed, if_pos halo]
        exact hs
      all_goals simp only [stepUnhealthy, hans, restartHealthy, if_pos halo]
    · simp only [restartStep, ReloadState.restart, hans, if_neg halo]
      refine .done hsuc ?_ rfl ?_ ?_
      · rw [landed, if_neg halo, ← hs.overrides]
        exact (hs.setInstances _).registerAgain
      all_goals simp only [stepUnhealthy, hans, restartHealthy, if_neg halo]

variable {changed : Bool}

theorem stopStep_goes (hs : Settled m (s.instances m.id) s s1) :
    Goes a settings m .stop p s (reconcileStep a settings m changed 0 p s1) := by
  by_cases halo : a.leftAlone m.id
  · simp only [reconcileStep, ReloadState.stop, if_pos halo]
    refine .done (by simp [stepFails, halo]) ?_ (append_nil _).symm (Bool.or_false _).symm
      (Bool.or_false _).symm
    rw [landed, if_pos halo]
    exact hs
  · cases hans : a.stop m.id with
    | error err =>
      simp only [reconcileStep, ReloadState.stop, if_neg halo, hans]
      exact .failed (by simp [stepFails, hans, halo, Except.isOk, Except.toBool])
        (hs.setInstances _).overrides
    | ok _ =>
      simp only [reconcileStep, ReloadState.stop, if_neg halo, hans]
      refine .done (by simp [stepFails, hans, Except.isOk, Except.toBool]) ?_
        (append_nil _).symm (Bool.or_false _).symm (Bool.or_false _).symm
      rw [landed, if_neg halo]
      exact (hs.setInstances 0).registerAgain

theorem reconcileStep_goes (hze : s.overrides.replicaCount m.id ≠ 0)
    (hs : Settled m (s.instances m.id) s s1) : Goes a settings m .reconcile p s
      (reconcileStep a settings m changed (s.overrides.replicaCount m.id) p s1) := by
  cases hans : a.reconcile m.id with
  | error err =>
    simp only [reconcileStep, ReloadState.reconcile, if_neg hze, hans]
    exact .failed (by simp [stepFails, hans, Except.isOk, Except.toBool])
      (hs.setInstances _).overrides
  | ok port =>
    simp only [reconcileStep, ReloadState.reconcile, if_neg hze, hans]
    refine .done (by simp [stepFails, hans, Except.isOk, Except.toBool]) ?_
      (append_nil _).symm ?_ ?_
    · rw [landed, ← hs.instances]
      exact hs.setInstances _
    all_goals simp only [stepUnhealthy, hans]

theorem rest_goes {reports : List ModuleOverrideReloadModuleReport} :
    Goes a settings m .rest p s (.ok { p with reports }, s.register m) :=
  .done rfl Settled.register (append_nil _).symm (Bool.or_false _).symm
    (Bool.or_false _).symm

theorem reloadModule_goes :
    Goes a settings m (stepOf a restartRunning previous s.overrides p.rolloutAborted m) p s
      (reloadModule a settings restartRunning previous m p s) := by
  by_cases hsk : p.rolloutAborted && restartRunning && envChanged previous s.overrides m
  · simp only [reloadModule, stepOf, if_pos hsk]
    exact rest_goes
  simp only [reloadModule, stepOf, if_neg hsk]
  cases a.status m.id with
  | notRunning | unavailable err => exact rest_goes
  | running port =>
    by_cases hres : restartRunning && envChanged previous s.overrides m
    · simp only [if_pos hres]
      exact restartStep_goes Settled.register
    simp only [if_neg hres]
    show Goes _ _ _ _ _ _ (if replicasChanged previous s.overrides m then _ else _)
    by_cases hrep : replicasChanged previous s.overrides m
    · simp only [if_pos hrep]
      by_cases hze : s.overrides.replicaCount m.id = 0
      · rw [if_pos hze]
        show Goes _ _ _ _ _ _ (reconcileStep _ _ _ _ (s.overrides.replicaCount m.id) _ _)
        rw [hze]
        exact stopStep_goes Settled.register
      · rw [if_neg hze]
        exact reconcileStep_goes hze Settled.register
    · simp only [if_neg hrep]
      split
      · exact rest_goes
      · exact rest_goes

end

/-! ## The loop -/

section

variable (a : ReloadAnswers) (settings : RolloutSettings) (restartRunning : Bool)
  (previous : ModuleServiceOverrides ρ)

/-- The modules of `steps` are settled as the steps say, and no other module is touched. -/
structure AllSettled (steps : List (Listed × ReloadStep)) (s s' : ReloadState ρ) : Prop where
  overrides : s'.overrides = s.overrides
  settled : ∀ x ∈ steps,
    s'.registry[moduleServiceId x.1.id]? = some (descriptorUnder s.overrides x.1) ∧
      s'.instances x.1.id = landed a s.overrides x.1 (s.instances x.1.id) x.2
  others : ∀ id, id ∉ steps.map (·.1.id) →
    s'.registry[moduleServiceId id]? = s.registry[moduleServiceId id]? ∧
      s'.instances id = s.instances id

inductive LoopGoes (steps : List (Listed × ReloadStep)) (p : Progress) (s : ReloadState ρ) :
    Except ModuleServiceError Progress × ReloadState ρ → Prop where
  | failed {err : ModuleServiceError} {s' : ReloadState ρ}
      (fails : ∃ x ∈ steps, stepFails a x.1 x.2 = true)
      (overrides : s'.overrides = s.overrides) : LoopGoes steps p s (.error err, s')
  | done {p' : Progress} {s' : ReloadState ρ}
      (succeeds : ∀ x ∈ steps, stepFails a x.1 x.2 = false)
      (settled : AllSettled a steps s s')
      (restarted : p'.restarted = p.restarted ++ (restartedIn steps).map (·.id))
      (rolloutFailed : p'.rolloutFailed =
        (p.rolloutFailed || steps.any fun x => stepUnhealthy a x.1 x.2)) :
      LoopGoes steps p s (.ok p', s')

variable {a}

theorem restartedIn_cons (x : Listed × ReloadStep) (steps : List (Listed × ReloadStep)) :
    restartedIn (x :: steps) = restartedIn [x] ++ restartedIn steps := by
  rw [restartedIn, restartedIn, restartedIn, ← map_append, ← filter_append]
  rfl

variable {settings restartRunning previous}

variable {next : ModuleServiceOverrides ρ} {aborted : Bool} {m : Listed}

theorem course_sublist : ∀ (ms : List Listed) (aborted : Bool),
    ((course a settings restartRunning previous next aborted ms).map (·.1)).Sublist ms
  | [], _ => .slnil
  | m :: ms, aborted => by
      simp only [course, map_cons]
      refine .cons_cons m ?_
      split
      · exact nil_sublist ms
      · exact course_sublist ms _

theorem course_mem {ms : List Listed} {x : Listed × ReloadStep}
    (hx : x ∈ course a settings restartRunning previous next aborted ms) : x.1 ∈ ms :=
  (course_sublist ms aborted).subset (mem_map_of_mem hx)

theorem course_step : ∀ {ms : List Listed} {aborted : Bool}
    {x : Listed × ReloadStep}, x ∈ course a settings restartRunning previous next aborted ms →
      ∃ aborted', x.2 = stepOf a restartRunning previous next aborted' x.1
  | [], _, _, hx => (nomatch hx)
  | m :: ms, aborted, x, hx => by
      simp only [course] at hx
      rcases mem_cons.mp hx with rfl | hx
      · exact ⟨aborted, rfl⟩
      · split at hx
        · exact (nomatch hx)
        · exact course_step hx

theorem AllSettled.cons {step : ReloadStep} {steps : List (Listed × ReloadStep)}
    {s s1 s' : ReloadState ρ} (hnew : m.id ∉ steps.map (·.1.id))
    (hst : Settled m (landed a s.overrides m (s.instances m.id) step) s s1)
    (hre : AllSettled a steps s1 s') : AllSettled a ((m, step) :: steps) s s' where
  overrides := hre.overrides.trans hst.overrides
  settled := by
    intro x hx
    rcases mem_cons.mp hx with rfl | hx
    · obtain ⟨hreg, hins⟩ := hre.others m.id hnew
      exact ⟨hreg.trans hst.registered, hins.trans hst.instances⟩
    · have hne : x.1.id ≠ m.id := by
        intro heq
        exact hnew (heq ▸ mem_map_of_mem hx)
      obtain ⟨hreg, hins⟩ := hre.settled x hx
      rw [hst.overrides] at hreg hins
      rw [(hst.others x.1.id hne).2] at hins
      exact ⟨hreg, hins⟩
  others := by
    intro id hid
    simp only [map_cons, mem_cons, not_or] at hid
    obtain ⟨hreg, hins⟩ := hre.others id hid.2
    exact ⟨hreg.trans (hst.others id hid.1).1, hins.trans (hst.others id hid.1).2⟩

theorem reloadModules_goes : ∀ (ms : List Listed) (p : Progress) (s : ReloadState ρ),
    (ms.map (·.id)).Nodup →
      LoopGoes a (course a settings restartRunning previous s.overrides p.rolloutAborted ms) p s
        (reloadModules a settings restartRunning previous ms p s)
  | [], p, s, _ =>
    .done (fun _ hx => nomatch hx) ⟨rfl, fun _ hx => (nomatch hx), fun _ _ => ⟨rfl, rfl⟩⟩
      (append_nil _).symm (Bool.or_false _).symm
  | m :: ms, p, s, hnodup => by
      obtain ⟨hm, hms⟩ := nodup_cons.mp hnodup
      have hgo : Goes a settings m _ p s (reloadModule a settings restartRunning previous m p s) :=
        reloadModule_goes restartRunning previous
      simp only [reloadModules, course]
      generalize stepOf a restartRunning previous s.overrides p.rolloutAborted m = step at hgo ⊢
      generalize reloadModule a settings restartRunning previous m p s = result at hgo ⊢
      cases hgo with
      | failed hfails hover => exact .failed ⟨_, mem_cons_self, hfails⟩ hover
      | @done p1 s1 hsucceeds hsettled hrestarted hfailed haborted =>
        rw [if_neg (by rw [hsucceeds]; decide)]
        have hre := reloadModules_goes ms p1 s1 hms
        rw [hsettled.overrides, haborted] at hre
        show LoopGoes a _ p s (reloadModules a settings restartRunning previous ms p1 s1)
        generalize hste : course a settings restartRunning previous s.overrides _ ms = steps
          at hre ⊢
        generalize reloadModules a settings restartRunning previous ms p1 s1 = result at hre ⊢
        cases hre with
        | failed hfails hover =>
          obtain ⟨x, hx, hfa⟩ := hfails
          exact .failed ⟨x, mem_cons_of_mem _ hx, hfa⟩ (hover.trans hsettled.overrides)
        | done hall hsettled' hrestarted' hfailed' =>
          refine .done ?_ ?_ ?_ ?_
          · intro x hx
            rcases mem_cons.mp hx with rfl | hx
            · exact hsucceeds
            · exact hall x hx
          · refine .cons ?_ hsettled hsettled'
            intro hmem
            obtain ⟨x, hx, hid⟩ := mem_map.mp hmem
            rw [← hste] at hx
            exact hm (mem_map.mpr ⟨x.1, course_mem hx, hid⟩)
          · rw [hrestarted', hrestarted, restartedIn_cons (m, step) steps, map_append, append_assoc]
          · rw [hfailed', hfailed, any_cons, Bool.or_assoc]

theorem course_modules : ∀ {ms : List Listed} {aborted : Bool},
    (∀ x ∈ course a settings restartRunning previous next aborted ms, stepFails a x.1 x.2 = false) →
    (course a settings restartRunning previous next aborted ms).map (·.1) = ms
  | [], _, _ => rfl
  | m :: ms, aborted, hall => by
      simp only [course] at hall ⊢
      have hhe := hall _ mem_cons_self
      rw [if_neg (by rw [hhe]; decide)] at hall ⊢
      rw [map_cons, course_modules fun x hx => hall x (mem_cons_of_mem _ hx)]

theorem stepOf_changes
    (hfai : stepFails a m (stepOf a restartRunning previous next aborted m) = true) :
    previous ≠ next := by
  rintro rfl
  have henv : envChanged previous previous m = false := by simp [envChanged]
  have hrep : replicasChanged previous previous m = false := by simp [replicasChanged]
  have hre : stepOf a restartRunning previous previous aborted m = .rest := by
    simp only [stepOf, henv, hrep, Bool.and_false]
    cases a.status m.id <;> rfl
  rw [hre] at hfai
  cases hfai

theorem stepOf_reconcile (hst : stepOf a restartRunning previous next aborted m = .reconcile) :
    next.replicaCount m.id ≠ 0 := by
  revert hst
  fun_cases stepOf a restartRunning previous next aborted m
  case case4 hze => exact fun _ => hze
  all_goals exact nofun

end

/-! ## The rollback -/

section

variable {a : ReloadAnswers}

theorem issuedFrom_sublist : ∀ ms : List Listed, (issuedFrom a ms).Sublist ms
  | [] => .slnil
  | m :: ms => by
      simp only [issuedFrom]
      refine .cons_cons m ?_
      split
      · exact nil_sublist ms
      · split
        · exact issuedFrom_sublist ms
        · exact nil_sublist ms

/-- The modules that the rollback restarts have their old descriptor and the replicas of the
overrides in force. All others are as they were. -/
structure RestartedBack (a : ReloadAnswers) (issued : List Listed) (s s' : ReloadState ρ) :
    Prop where
  overrides : s'.overrides = s.overrides
  back : ∀ m ∈ issued, a.leftAlone m.id = false →
    s'.registry[moduleServiceId m.id]? = some (descriptorUnder s.overrides m) ∧
      s'.instances m.id = max 1 (s.overrides.replicaCount m.id)
  others : ∀ id, (id ∈ issued.map (·.id) → a.leftAlone id = true) →
    s'.registry[moduleServiceId id]? = s.registry[moduleServiceId id]? ∧
      s'.instances id = s.instances id

theorem RestartedBack.nil (s : ReloadState ρ) : RestartedBack a [] s s :=
  ⟨rfl, fun _ hm => (nomatch hm), fun _ _ => ⟨rfl, rfl⟩⟩

variable {m : Listed} {ms : List Listed} {s s' : ReloadState ρ}

theorem RestartedBack.leftAlone (halo : a.leftAlone m.id = true) (h : RestartedBack a ms s s') :
    RestartedBack a (m :: ms) s s' where
  overrides := h.overrides
  back := by
    intro k hk hman
    rcases mem_cons.mp hk with rfl | hk
    · rw [halo] at hman
      cases hman
    · exact h.back k hk hman
  others := fun id hid => h.others id fun hmem => hid (mem_cons_of_mem _ hmem)

theorem RestartedBack.cons {s1 : ReloadState ρ} (hman : a.leftAlone m.id = false)
    (hnew : m.id ∉ ms.map (·.id)) (hst : Settled m (max 1 (s.overrides.replicaCount m.id)) s s1)
    (h : RestartedBack a ms s1 s') : RestartedBack a (m :: ms) s s' where
  overrides := h.overrides.trans hst.overrides
  back := by
    intro k hk hk'
    rcases mem_cons.mp hk with rfl | hk
    · obtain ⟨hreg, hins⟩ := h.others k.id fun hmem => absurd hmem hnew
      exact ⟨hreg.trans hst.registered, hins.trans hst.instances⟩
    · have hba := h.back k hk hk'
      rwa [hst.overrides] at hba
  others := by
    intro id hid
    have hne : id ≠ m.id := by
      rintro rfl
      have halo := hid mem_cons_self
      rw [hman] at halo
      cases halo
    obtain ⟨hreg, hins⟩ := h.others id fun hmem => hid (mem_cons_of_mem _ hmem)
    exact ⟨hreg.trans (hst.others id hne).1, hins.trans (hst.others id hne).2⟩

theorem rollbackRestarts_goes : ∀ (ms : List Listed) (done : List String) (s : ReloadState ρ),
    (ms.map (·.id)).Nodup → (∀ m ∈ issuedFrom a ms, (a.rollbackRestart m.id).isOk) →
      RestartedBack a (issuedFrom a ms) s (rollbackRestarts a ms done s).2
  | [], _, s, _, _ => .nil s
  | m :: ms, done, s, hnodup, hok => by
      obtain ⟨hm, hms⟩ := nodup_cons.mp hnodup
      have hhe := hok m mem_cons_self
      cases hans : a.rollbackRestart m.id with
      | error err =>
        rw [hans] at hhe
        cases hhe
      | ok port =>
        have hnew : ∀ ks : List Listed, ks.Sublist ms → m.id ∉ ks.map (·.id) := by
          intro ks hks hmem
          exact hm ((hks.map _).subset hmem)
        simp only [issuedFrom, hans] at hok ⊢
        by_cases halo : a.leftAlone m.id
        · -- no port, so the health check passes
          have hheal : restartHealthy a port (a.rollbackProbe m.id) m = true := by
            simp [restartHealthy, halo, Runtime.verifyModuleRolloutHealth, Except.isOk,
              Except.toBool]
          rw [if_pos hheal] at hok ⊢
          simp only [rollbackRestarts, ReloadState.restart, hans, if_pos halo,
            Runtime.verifyModuleRolloutHealth]
          exact .leftAlone halo
            (rollbackRestarts_goes ms _ s hms fun k hk => hok k (mem_cons_of_mem _ hk))
        · have hman : a.leftAlone m.id = false := eq_false_of_ne_true halo
          simp only [rollbackRestarts, ReloadState.restart, hans, if_neg halo,
            restartHealthy] at hok ⊢
          cases hhea : Runtime.verifyModuleRolloutHealth port (a.rollbackProbe m.id) with
          | error err =>
            exact .cons hman (hnew [] (nil_sublist ms)) (Settled.started _) (.nil _)
          | ok note =>
            simp only [hhea] at hok
            exact .cons hman (hnew _ (issuedFrom_sublist ms)) (Settled.started _)
              (rollbackRestarts_goes ms _ _ hms fun k hk => hok k (mem_cons_of_mem _ hk))

end

/-! ## The call -/

namespace ReloadCall

section

variable (c : ReloadCall ρ) (m : Listed)

def result : Except ModuleServiceError ModuleOverrideReloadReport × ReloadState ρ :=
  reloadServiceOverrides c.answers c.settings c.restartRunning c.modules c.next c.before

def previous : ModuleServiceOverrides ρ := c.before.overrides

def swapped : ReloadState ρ := { c.before with overrides := c.next }

def steps : List (Listed × ReloadStep) :=
  course c.answers c.settings c.restartRunning c.previous c.next false c.modules

/-- No step returns an error, a health check fails, and the settings ask for a rollback. -/
def Triggers : Prop :=
  c.answers.listError = none ∧ (∀ x ∈ c.steps, stepFails c.answers x.1 x.2 = false) ∧
    (∃ x ∈ c.steps, stepUnhealthy c.answers x.1 x.2 = true) ∧ c.settings.rollbackOnFailure = true

/-- The restarts that the rollback of this call issues, if there is one. -/
def Issued : Prop :=
  c.Triggers ∧ m ∈ issuedFrom c.answers (restartedIn c.steps).reverse

/-- The call returned an error or reported `RolledBack`. -/
def Reverted : Prop :=
  match c.result.1 with
  | .error _ => True
  | .ok report => report.status = .rolledBack

/-- Overrides, descriptors and instances are what they were under the previous overrides. -/
structure Restored (c : ReloadCall ρ) : Prop where
  overrides : c.result.2.overrides = c.previous
  descriptors : ∀ m ∈ c.modules,
    c.result.2.registry[moduleServiceId m.id]? = some (descriptorUnder c.previous m)
  instances : ∀ m ∈ c.modules, c.result.2.instances m.id = c.before.instances m.id

def KeepsCount : ReloadStep → Prop
  | .restart =>
    c.answers.leftAlone m.id = true ∨ c.before.instances m.id = max 1 (c.next.replicaCount m.id)
  | .stop => c.answers.leftAlone m.id = true ∨ c.before.instances m.id = 0
  | .reconcile => c.before.instances m.id = c.next.replicaCount m.id
  | .rest => True

/-- The rollback undoes the step of a module: it restarts the module with as many
instances as there were, or the step has changed nothing that can be seen. -/
def Undone (step : ReloadStep) : Prop :=
  if m ∈ issuedFrom c.answers (restartedIn c.steps).reverse ∧ c.answers.leftAlone m.id = false then
    c.before.instances m.id = max 1 (c.previous.replicaCount m.id)
  else descriptorUnder c.previous m = descriptorUnder c.next m ∧ c.KeepsCount m step

end

instance (c : ReloadCall ρ) (m : Listed) : DecidablePred (c.KeepsCount m)
  | .restart => inferInstanceAs (Decidable (_ ∨ _))
  | .stop => inferInstanceAs (Decidable (_ ∨ _))
  | .reconcile => inferInstanceAs (Decidable (_ = _))
  | .rest => isTrue trivial

instance (c : ReloadCall ρ) (m : Listed) (step : ReloadStep) : Decidable (c.Undone m step) :=
  inferInstanceAs (Decidable (if m ∈ issuedFrom c.answers (restartedIn c.steps).reverse ∧
      c.answers.leftAlone m.id = false then _ = _ else _ = _ ∧ c.KeepsCount m step))

/-- The inputs under which a reload that does not succeed puts everything back. -/
def PutsBack (c : ReloadCall ρ) : Prop :=
  match c.answers.listError with
  | some _ =>
    c.next = c.previous ∧ ∀ m ∈ c.modules,
      c.before.registry[moduleServiceId m.id]? = some (descriptorUnder c.previous m)
  | none =>
    (∀ x ∈ c.steps, stepFails c.answers x.1 x.2 = false) ∧
      (c.Triggers → ∀ x ∈ c.steps, c.Undone x.1 x.2)

/-! ## When a reload puts everything back -/

variable {c : ReloadCall ρ}

theorem find_restarted {ms : List Listed} (hnod : (ms.map (·.id)).Nodup) :
    ∀ {ks : List Listed}, (∀ k ∈ ks, k ∈ ms) →
      (ks.map (·.id)).filterMap (fun id => ms.find? (·.id = id)) = ks
  | [], _ => rfl
  | k :: ks, hsub => by
      have hhe := Sequences.find_of_nodup hnod (hsub k mem_cons_self)
      simp only [map_cons, filterMap_cons, hhe]
      rw [find_restarted hnod fun m hm => hsub m (mem_cons_of_mem _ hm)]

variable {m : Listed}

theorem mem_of_restarted (hm : m ∈ restartedIn c.steps) : m ∈ c.modules := by
  obtain ⟨x, hx, rfl⟩ := mem_map.mp hm
  exact course_mem (mem_of_mem_filter hx)

theorem restarted_nodup : ((restartedIn c.steps).map (·.id)).Nodup := by
  have hsub : (restartedIn c.steps).Sublist c.modules :=
    (filter_sublist.map _).trans (course_sublist _ _)
  exact c.distinct.sublist (hsub.map _)

theorem landed_eq_iff {step : ReloadStep} (hze : step = .reconcile → c.next.replicaCount m.id ≠ 0) :
    landed c.answers c.next m (c.before.instances m.id) step = c.before.instances m.id ↔
      c.KeepsCount m step := by
  cases step with
  | restart | stop =>
    by_cases halo : c.answers.leftAlone m.id
    · simp [landed, KeepsCount, halo]
    · simp [landed, KeepsCount, halo, eq_comm]
  | reconcile =>
    have hze := hze rfl
    by_cases hcou : c.before.instances m.id = 0
    · simp only [landed, KeepsCount, hcou, if_pos]
      omega
    · simp only [landed, KeepsCount, if_neg hcou]
      exact eq_comm
  | rest => simp [landed, KeepsCount]

def LoopState (c : ReloadCall ρ) (s : ReloadState ρ) : Prop :=
  AllSettled c.answers c.steps c.swapped s

theorem undone_iff {s s' : ReloadState ρ} {x : Listed × ReloadStep} (hx : x ∈ c.steps)
    (hlo : c.LoopState s)
    (hba : RestartedBack c.answers (issuedFrom c.answers (restartedIn c.steps).reverse)
      { s with overrides := c.previous } s') :
    c.Undone x.1 x.2 ↔
      s'.registry[moduleServiceId x.1.id]? = some (descriptorUnder c.previous x.1) ∧
        s'.instances x.1.id = c.before.instances x.1.id := by
  by_cases hiss : x.1 ∈ issuedFrom c.answers (restartedIn c.steps).reverse ∧
      c.answers.leftAlone x.1.id = false
  · obtain ⟨hreg, hins⟩ := hba.back x.1 hiss.1 hiss.2
    rw [Undone, if_pos hiss, hreg, hins]
    constructor
    · intro hcou
      exact ⟨rfl, hcou.symm⟩
    · intro h
      exact h.2.symm
  · have hoth : x.1.id ∈ (issuedFrom c.answers (restartedIn c.steps).reverse).map (·.id) →
        c.answers.leftAlone x.1.id = true := by
      intro hmem
      obtain ⟨k, hk, hid⟩ := mem_map.mp hmem
      have hkm : k ∈ c.modules :=
        mem_of_restarted (mem_reverse.mp ((issuedFrom_sublist _).subset hk))
      have hsa : k = x.1 := inj_on_of_nodup_map c.distinct hkm (course_mem hx) hid
      rw [hsa] at hk
      by_contra hmanaged
      exact hiss ⟨hk, eq_false_of_ne_true hmanaged⟩
    obtain ⟨hreg, hins⟩ := hba.others x.1.id hoth
    obtain ⟨hre', hin'⟩ := hlo.settled x hx
    obtain ⟨aborted, hst⟩ := course_step hx
    have hze : x.2 = .reconcile → c.next.replicaCount x.1.id ≠ 0 := by
      intro hrec
      exact stepOf_reconcile (hst.symm.trans hrec)
    rw [Undone, if_neg hiss, hreg, hins, hre', hin', Option.some_inj,
      eq_comm (a := descriptorUnder c.previous x.1)]
    exact and_congr_right' (landed_eq_iff hze).symm

/-- What a call can come to once the modules are listed. -/
inductive Ends (c : ReloadCall ρ) : Prop where
  | failed (x : Listed × ReloadStep) (taken : x ∈ c.steps)
      (fails : stepFails c.answers x.1 x.2 = true) (reverted : c.Reverted)
      (overrides : c.result.2.overrides = c.next)
  | kept (succeeds : ∀ x ∈ c.steps, stepFails c.answers x.1 x.2 = false)
      (stays : ¬ c.Triggers) (reported : ¬ c.Reverted)
  | rolledBack (triggers : c.Triggers) (reverted : c.Reverted) (s : ReloadState ρ)
      (loop : c.LoopState s)
      (back : RestartedBack c.answers (issuedFrom c.answers (restartedIn c.steps).reverse)
        { s with overrides := c.previous } c.result.2)

def loop (c : ReloadCall ρ) : Except ModuleServiceError Progress × ReloadState ρ :=
  reloadModules c.answers c.settings c.restartRunning c.previous c.modules
    ⟨[], [], false, false⟩ c.swapped

theorem loop_goes : LoopGoes c.answers c.steps ⟨[], [], false, false⟩ c.swapped c.loop :=
  reloadModules_goes c.modules ⟨[], [], false, false⟩ c.swapped c.distinct

section

variable (hlist : c.answers.listError = none) {p : Progress} {s : ReloadState ρ}

include hlist

theorem result_of_error {err : ModuleServiceError} (hlo : c.loop = (.error err, s)) :
    c.result = (.error err, s) := by
  rw [loop, previous, swapped] at hlo
  simp only [result, reloadServiceOverrides, hlist, hlo]

theorem not_reverted_of_ok (hlo : c.loop = (.ok p, s))
    (hsta : ¬ (p.rolloutFailed && c.settings.rollbackOnFailure) = true) : ¬ c.Reverted := by
  rw [loop, previous, swapped] at hlo
  simp only [Reverted, result, reloadServiceOverrides, hlist, hlo, if_neg hsta]
  split <;> decide

theorem reverted_of_ok (hlo : c.loop = (.ok p, s))
    (htri : (p.rolloutFailed && c.settings.rollbackOnFailure) = true) : c.Reverted ∧
      c.result.2 = (rollbackServiceOverrides c.answers c.previous c.modules p.restarted s).2 := by
  rw [loop, previous, swapped] at hlo
  simp only [Reverted, result, reloadServiceOverrides, hlist, hlo, if_pos htri, previous]
  rcases rollbackServiceOverrides c.answers c.before.overrides c.modules p.restarted s with
    ⟨err | back, s'⟩
  · exact ⟨trivial, rfl⟩
  · exact ⟨rfl, rfl⟩

end

theorem rollback_modules : ((restartedIn c.steps).map (·.id)).reverse.filterMap
    (fun id => c.modules.find? (·.id = id)) = (restartedIn c.steps).reverse := by
  rw [← map_reverse]
  exact find_restarted c.distinct fun m hm => mem_of_restarted (mem_reverse.mp hm)

theorem ends (hlist : c.answers.listError = none)
    (hba : ∀ m, c.Issued m → (c.answers.rollbackRestart m.id).isOk) : c.Ends := by
  have hgo := c.loop_goes
  cases hlo : c.loop with
  | mk answer s =>
    rw [hlo] at hgo
    cases hgo with
    | failed hfails hover =>
      obtain ⟨x, hx, hfa⟩ := hfails
      have hres := result_of_error hlist hlo
      refine .failed x hx hfa ?_ ?_
      · rw [Reverted, hres]
        trivial
      · rw [hres]
        exact hover
    | @done p' _ hall hsettled hrestarted hfailed =>
      by_cases hbo : (p'.rolloutFailed && c.settings.rollbackOnFailure) = true
      · obtain ⟨hrev, hsta⟩ := reverted_of_ok hlist hlo hbo
        rw [Bool.and_eq_true, hfailed, Bool.false_or, any_eq_true] at hbo
        have htri : c.Triggers := ⟨hlist, hall, hbo⟩
        refine .rolledBack htri hrev s hsettled ?_
        rw [hsta, hrestarted, rollbackServiceOverrides, nil_append, rollback_modules]
        refine rollbackRestarts_goes _ _ _ ?_ fun m hm => hba m ⟨htri, hm⟩
        rw [map_reverse, nodup_reverse]
        exact restarted_nodup
      · refine .kept hall ?_ (not_reverted_of_ok hlist hlo hbo)
        intro htri
        rw [Bool.and_eq_true, hfailed, Bool.false_or, any_eq_true] at hbo
        exact hbo htri.2.2

/-- **WHEN A FAILED RELOAD PUTS EVERYTHING BACK.** Provided that the restarts of the rollback
succeed, a reload that returns an error or reports `RolledBack` restores overrides,
descriptors and instances exactly under `PutsBack`. -/
theorem reload_restores_iff (c : ReloadCall ρ)
    (hback : ∀ m, c.Issued m → (c.answers.rollbackRestart m.id).isOk) :
    (c.Reverted → c.Restored) ↔ c.PutsBack := by
  cases hlist : c.answers.listError with
  | some err =>
    have hres : c.result = (.error (.storage err), c.swapped) := by
      simp only [result, reloadServiceOverrides, hlist, swapped]
    have hrev : c.Reverted := by
      rw [Reverted, hres]
      trivial
    rw [PutsBack, hlist]
    constructor
    · intro h
      obtain ⟨hov, hdes, -⟩ := h hrev
      rw [hres] at hov hdes
      exact ⟨hov, hdes⟩
    · rintro ⟨hne, hdes⟩ -
      refine ⟨?_, ?_, ?_⟩
      · rw [hres]
        exact hne
      · rw [hres]
        exact hdes
      · rw [hres]
        exact fun _ _ => rfl
  | none =>
    rw [PutsBack, hlist]
    cases ends hlist hback with
    | failed x hx hfail hrev hov =>
      constructor
      · intro h
        obtain ⟨aborted, hst⟩ := course_step hx
        rw [hst] at hfail
        exact absurd ((h hrev).overrides.symm.trans hov) (stepOf_changes hfail)
      · intro h
        rw [h.1 x hx] at hfail
        cases hfail
    | kept hall hstays hreported =>
      constructor
      · intro _
        exact ⟨hall, fun htri => absurd htri hstays⟩
      · intro _ hrev
        exact absurd hrev hreported
    | rolledBack htri hrev s hloop hrestarts =>
      have hall := htri.2.1
      have hmod : c.steps.map (·.1) = c.modules := course_modules hall
      constructor
      · intro h
        refine ⟨hall, fun _ x hx => (undone_iff hx hloop hrestarts).mpr ?_⟩
        exact ⟨(h hrev).descriptors x.1 (course_mem hx), (h hrev).instances x.1 (course_mem hx)⟩
      · rintro ⟨-, hund⟩ -
        have hst : ∀ x ∈ c.steps, _ := fun x hx =>
          (undone_iff hx hloop hrestarts).mp (hund htri x hx)
        refine ⟨hrestarts.overrides, ?_, ?_⟩
        · intro m hm
          rw [← hmod] at hm
          obtain ⟨x, hx, rfl⟩ := mem_map.mp hm
          exact (hst x hx).1
        · intro m hm
          rw [← hmod] at hm
          obtain ⟨x, hx, rfl⟩ := mem_map.mp hm
          exact (hst x hx).2

end ReloadCall

/-! ## Two reloads that fail

`web` gets a new environment and does not come up healthy under it. `api` is not
restarted. -/

def sampleListed (id : String) (valid : moduleId id = .ok id) : Listed where
  id := id
  manifest :=
    { id, version := ⟨1, 0, 0, "", ""⟩, title := none, description := none
      fenrirVersion := none, authors := [], license := none
      artifact :=
        { downloadUrl := "", checksum := ⟨.sha256, ""⟩, contentType := none, sizeBytes := none }
      signature := { algorithm := .ed25519, keyId := "", signature := "" }
      dependencies := [], tags := [], publishedAt := none }
  valid := valid

def sampleModules : List Listed := [sampleListed "web" (by rfl), sampleListed "api" (by rfl)]

def sampleAnswers : ReloadAnswers where
  listError := none
  status := fun _ => .running (some 8080)
  leftAlone := fun _ => false
  restart := fun _ => .ok (some 8080)
  stop := fun _ => .ok ()
  reconcile := fun _ => .ok (some 8080)
  drained := fun _ => true
  left := fun _ => 0
  probe := fun id => if id = "web" then .error "connection refused" else .ok "health check passed"
  rollbackRestart := fun _ => .ok (some 8080)
  rollbackProbe := fun _ => .ok "health check passed"

def sampleReload (next : ModuleServiceOverrides Unit) : ReloadCall Unit where
  answers := sampleAnswers
  settings := ⟨true, true⟩
  restartRunning := true
  modules := sampleModules
  distinct := by decide
  next := next
  before :=
    { overrides := ⟨∅, ∅, ∅, ()⟩
      registry := sampleModules.foldl (fun r m =>
        r.insert (moduleServiceId m.id) (moduleServiceDescriptor m)) ∅
      instances := fun _ => 1 }

/-- A new environment for `web`. -/
def overridesOfWeb : ModuleServiceOverrides Unit where
  env := Std.ExtTreeMap.insert ∅ "module:web" [⟨"MODE", .literal "fast", false⟩]
  security := ∅
  replicas := ∅
  rest := ()

theorem reload_restores_web :
    (sampleReload overridesOfWeb).Reverted ∧ (sampleReload overridesOfWeb).Restored := by
  have hrev : (sampleReload overridesOfWeb).Reverted := by
    show ModuleOverrideReloadStatus.rolledBack = .rolledBack
    rfl
  refine ⟨hrev, (ReloadCall.reload_restores_iff _ fun _ _ => rfl).mpr ?_ hrev⟩
  exact ⟨by decide +kernel, fun _ => by decide +kernel⟩

/-- And three instances of `api`, which opens to the outside. -/
def overridesOfBoth : ModuleServiceOverrides Unit where
  env := overridesOfWeb.env
  security := Std.ExtTreeMap.insert ∅ "module:api" ⟨some false, none, none, none⟩
  replicas := Std.ExtTreeMap.insert ∅ "module:api" 3
  rest := ()

/-- After the rollback `api` still has three instances. -/
theorem rollback_keeps_new_replicas :
    (∀ m, (sampleReload overridesOfBoth).Issued m → (sampleAnswers.rollbackRestart m.id).isOk) ∧
      (sampleReload overridesOfBoth).Reverted ∧ ¬ (sampleReload overridesOfBoth).Restored := by
  refine ⟨fun _ _ => rfl, ?_, ?_⟩
  · show ModuleOverrideReloadStatus.rolledBack = .rolledBack
    rfl
  · intro hres
    have hcou := hres.instances (sampleListed "api" (by rfl)) (by decide)
    exact absurd hcou (by decide +kernel)

end Fenrir.Overrides
