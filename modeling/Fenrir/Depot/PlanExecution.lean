import Fenrir.Depot.Preparation

/-! # From a plan to what is installed

A distribution plan predicts for every module the version that runs
afterwards, and its problems are the requirements that prediction does not
meet. Here the prediction is compared with the host after the plan was
executed. -/

namespace Fenrir

open Effect Effect.Act DepotProtocol

section

variable [DepotProtocol] {env : Env} {p : Prepared} {w w' : World}

/-- The host reports the module at this version (`versions::installed`). -/
def Reports (h : Host) (n : String) (v : DepotVersion) : Prop :=
  ∃ m, h.get n = some m ∧
    installedVersion n m.manifest.version (m.source.isSynchronized || decide (n ∈ h.dev)) = .ok v

variable {outcome : Outcome} {e : PlanEntry}

theorem execute_ok (h : execute env p w = (.ok outcome, w')) :
    ∃ state w1 perf w2 w3, Begun env p w state w1 ∧
      perform env p state w1 = (.ok perf, w2) ∧ Recorded env p state perf w2 w3 ∧
      w' = releaseLock env w3 := by
  generalize hres : (.ok outcome : Except DepotError Outcome) = res at h
  cases execute_run h with
  | stopped | failed => cases hres
  | @recorded state w1 w2 w3 perf _ hbegun hperform hrecord =>
    cases record_run hrecord with
    | notSaved | notPruned => cases hres
    | done _ _ hrec => exact ⟨state, w1, perf, w2, w3, hbegun, hperform, hrec, rfl⟩

theorem execute_runsTarget (hp : p.Sound) (hnam : (p.plan.entries.map (·.module)).Nodup)
    (h : execute env p w = (.ok outcome, w')) (he : e ∈ p.plan.changes) : RunsTarget w'.host e := by
  obtain ⟨state, w1, perf, w2, w3, -, hper, hrec, rfl⟩ := execute_ok h
  have hrel := tidies_releaseLock env none w3
  have hagr : p.ChangesAgree := by
    intro a ha b hb hmod
    rw [List.inj_on_of_nodup_map hnam (List.mem_filter.mp ha).1 (List.mem_filter.mp hb).1 hmod]
  rw [hrel.host, hrec.host]
  exact (perform_runsTarget_iff hp hper).mpr hagr e he

variable [BundleFormat] {title : String} {targets : List TargetModule}
  {installed : List HostModule} {state : HostState}

theorem reports_listed {h : Host} (hli : hostModules h = .ok installed) {m : HostModule}
    (hm : m ∈ installed) : Reports h m.name m.version := by
  obtain ⟨im, hget, hvi⟩ := (mem_hostModules hli m).mp hm
  exact ⟨im, hget, hostModule_version hvi⟩

/-- **EVERY PREDICTION COMES TRUE**: the version a plan predicts for a module is
the one the host reports after the plan was executed on it. -/
theorem entry_comes_true (hli : hostModules w.host = .ok installed)
    (hnam : ((planDistribution title targets installed state).entries.map (·.module)).Nodup)
    (hp : p.Sound) (hpl : SamePlan (planDistribution title targets installed state) p.plan)
    (h : execute env p w = (.ok outcome, w'))
    (he : e ∈ (planDistribution title targets installed state).entries) {v : DepotVersion}
    (hv : e.target = some v) : Reports w'.host e.module v := by
  have hna' : (p.plan.entries.map (·.module)).Nodup := by
    rw [hpl.modules]
    exact hnam
  obtain ⟨e', he', heq⟩ := Sequences.forall₂_left_mem hpl.entries he
  have hmod : e'.module = e.module := by rw [heq]
  cases hc : e.action.changes with
  | true =>
    have hcha : e' ∈ p.plan.changes := List.mem_filter.mpr ⟨he', by rw [heq]; exact hc⟩
    have hru := execute_runsTarget hp hna' h hcha
    have htar : e'.target = some v := by rw [heq]; exact hv
    simp only [RunsTarget, htar, hmod] at hru
    obtain ⟨m, hm, -, hver⟩ := hru
    exact ⟨m, hm, installedVersion_of_fromManifest hver _⟩
  | false =>
    -- nothing with this name changes, so it is as it was listed
    have hnot : ¬ p.Changes e.module := by
      rintro ⟨c, hcm, hcmo⟩
      obtain ⟨hcin, hcch⟩ := List.mem_filter.mp hcm
      have hce : c = e' := List.inj_on_of_nodup_map hna' hcin he' (hcmo.trans hmod.symm)
      rw [hce, heq] at hcch
      rw [show e.action.changes = true from hcch] at hc
      cases hc
    obtain ⟨m, hm, hna, hmv⟩ := planDistribution_keeps (hostModules_nodup hli) he hc hv
    obtain ⟨im, hget, hver⟩ := reports_listed hli hm
    obtain ⟨hfra, -⟩ := execute_within hp.within h
    rw [hna, hmv] at hver
    rw [hna] at hget
    refine ⟨im, by rw [hfra.modules _ hnot]; exact hget, ?_⟩
    rw [hfra.dev]
    exact hver

/-- What the signed modules require is there. -/
def RequirementsInstalled (entries : List PlanEntry) (h : Host) : Prop :=
  ∀ e ∈ entries, ∀ s, e.source = some s → e.action.runsSigned = true →
    ∀ req ∈ s.requires.modules, ∃ v, Reports h req.module v ∧ ruleMatches req.rule v = true

/-- **PLAN CORRECTNESS**: one entry per name in name order; only signed targets
that nothing holds back change files; no problem exactly when every
requirement is met by what the plan predicts; and after an execution on that
host every requirement is met by what is installed. -/
theorem planDistribution_correct [LawfulDepotProtocol] (title : String)
    (targets : List TargetModule) (installed : List HostModule) (state : HostState)
    (ht : (targets.map (·.name)).Nodup) (hi : (installed.map (·.name)).Nodup) :
    let plan := planDistribution title targets installed state
    ((plan.entries.map (·.module)).Pairwise (· < ·) ∧ ∀ n, n ∈ plan.entries.map (·.module) ↔
        n ∈ targets.map (·.name) ∨ n ∈ installed.map (·.name)) ∧
    (∀ e ∈ plan.entries, e.action.changes = true →
      ∃ t ∈ targets, e.source = some t ∧ e.module = t.name ∧ e.target = some t.version ∧
        (∀ m ∈ installed, m.name = t.name → m.localSync = false) ∧
        state.pins[t.name]? = none ∧
        ¬ (t.optional = true ∧ ∀ m ∈ installed, m.name ≠ t.name)) ∧
    (plan.problems = [] ↔ RequirementsMet plan.entries) ∧
    ∀ (env env' : Env) (source : DepotSource) (distribution : VerifiedDistribution)
      (rollback : Bool) (skipped : List String) (w w₁ w₂ w' : World) (p : Prepared)
      (outcome : Outcome),
      distribution.targetModules = targets → hostModules w.host = .ok installed →
      w.state = state →
      prepareVerified env source distribution rollback skipped w = (.ok p, w₁) →
      w₂.host = w.host → execute env' p w₂ = (.ok outcome, w') →
      RequirementsInstalled plan.entries w'.host := by
  intro plan
  have hsor : (plan.entries.map (·.module)).Pairwise (· < ·) := planDistribution_sorted ht hi
  have hpro : plan.problems = [] ↔ RequirementsMet plan.entries := planDistribution_problems ht hi
  refine ⟨⟨hsor, planDistribution_names⟩, fun e he hc => planDistribution_changes hi he hc,
    hpro, ?_⟩
  intro env env' source distribution rollback skipped w w₁ w₂ w' p outcome htar hli hst
    hprepare hhost hexec
  obtain ⟨installed', hli', hint, hpl, hsta⟩ := prepareVerified_ok hprepare
  rw [hli] at hli'
  rw [← Except.ok.inj hli'] at hpl hsta
  have hsou : p.Sound := Origin.sound (.distribution _ _ hli hint hpl hsta)
  rw [htar, hst] at hpl
  -- the title is all in which the two plans differ
  have hpl : SamePlan plan p.plan := ⟨hpl.problems, hpl.entries⟩
  obtain ⟨_, _, _, _, _, hbeg, -⟩ := execute_ok hexec
  have hmet : RequirementsMet plan.entries := by
    rw [← hpro]
    exact hpl.problems.symm.trans hbeg.clear
  rw [← hhost] at hli
  intro e he s hs hsig req hreq
  obtain ⟨e', he', hna, v, hv, hmat⟩ := hmet e he s hs hsig req hreq
  refine ⟨v, ?_, hmat⟩
  rw [← hna]
  exact entry_comes_true hli (hsor.imp fun hlt => hlt.ne) hsou hpl hexec he' hv

end

/-! ## A module and what it requires -/

section

def sampleModule (name : String) (version : DepotVersion) (requires : List ModuleRequirement) :
    ManifestModule where
  module := name
  rule := ⟨"*"⟩
  version := version
  platform := ⟨"any"⟩
  sha256 := sampleDigest emptyArchive
  size := 29
  optional := false
  requires := { fenrir := none, modules := requires }

/-- `notes-service` needs `base-service`, which the same distribution brings. -/
def notesDistribution : VerifiedDistribution where
  root := signed
    { bareManifest "athenos" [] with
      modules := [sampleModule "notes-service" ⟨1, 0, 0, 0⟩ [⟨"base-service", ⟨"=1.0.0"⟩⟩],
        sampleModule "base-service" ⟨1, 0, 0, 0⟩ []] }
    (sampleDigest [])
  includes := []

/-- Both modules are missing, the plan installs them, and afterwards the
requirement of the one is met by the other. -/
theorem planDistribution_correct_notes :
    let _ := sampleProtocol
    let _ := sampleFormat
    let targets := notesDistribution.targetModules
    let plan := planDistribution "athenos-1.0.0" targets [] .initial
    (targets.map (·.name)).Nodup ∧ plan.changes.length = 2 ∧
      ∃ (p : Prepared) (w₁ w' : World) (outcome : Outcome),
        prepareVerified (failingAt []) staleDepot notesDistribution false [] freshWorld
            = (.ok p, w₁) ∧
          execute (failingAt []) p w₁ = (.ok outcome, w') ∧
          RequirementsInstalled plan.entries w'.host := by
  let _ := sampleProtocol
  let _ := sampleFormat
  have ht : (notesDistribution.targetModules.map (·.name)).Nodup := by decide
  have hcor := (planDistribution_correct "athenos-1.0.0" notesDistribution.targetModules []
    .initial ht List.nodup_nil).2.2.2
  have hok : ((do
      let p ← prepareVerified (failingAt []) staleDepot notesDistribution false []
      execute (failingAt []) p : Act World DepotError Outcome) freshWorld).1.isOk = true := by
    decide +kernel
  obtain ⟨outcome, w', hrun⟩ := ok_of_isOk hok
  obtain ⟨p, w₁, hpre, hex⟩ := bind_ok_iff.mp hrun
  have hho : w₁.host = freshWorld.host := (looks_prepareVerified _ _ _).ok hpre |>.host
  exact ⟨ht, by decide +kernel, p, w₁, w', outcome, hpre, hex,
    hcor _ _ _ _ _ _ _ _ _ _ _ _ rfl rfl rfl hpre hho hex⟩

end

end Fenrir
