import Fenrir.Depot.BackupPointer

/-! # What a prepared plan is

The three ways to a `Prepared` plan, and what holds of each of them before
it is executed. -/

namespace Fenrir

open Effect Effect.Act DepotProtocol

section

variable [DepotProtocol] {env : Env} {w w' : World}

/-! ## Preparing only looks -/

/-- Nothing but the blob cache changed. -/
structure Looks (w w' : World) : Prop where
  host : w'.host = w.host
  state : w'.disk.stateFile = w.disk.stateFile
  backups : ∀ d : String, w'.disk.backups[d]? = w.disk.backups[d]?
  locked : w'.disk.locked = w.disk.locked
  names : w'.names = w.names
  calls : w'.calls = w.calls
  tick : w.tick ≤ w'.tick

theorem Looks.refl (w : World) : Looks w w := ⟨rfl, rfl, fun _ => rfl, rfl, rfl, rfl, le_refl _⟩

theorem Looks.trans (a b c : World) (h1 : Looks a b) (h2 : Looks b c) : Looks a c :=
  ⟨h2.host.trans h1.host, h2.state.trans h1.state, fun d => (h2.backups d).trans (h1.backups d),
    h2.locked.trans h1.locked, h2.names.trans h1.names, h2.calls.trans h1.calls,
    le_trans h1.tick h2.tick⟩

theorem looks_tick (w : World) : Looks w (w.tickTo (w.tick + 1)) :=
  ⟨rfl, rfl, fun _ => rfl, rfl, rfl, rfl, Nat.le_succ _⟩

theorem looks_steady : Steady Looks := ⟨Looks.refl, Looks.trans, looks_tick⟩

/-- What `load` reads from the state file. -/
def World.state (w : World) : HostState := w.disk.stateFile.getD HostState.initial

theorem load_state {state : HostState} {w0 : World} (hloo : Looks w0 w)
    (h : load env w = (.ok state, w')) : state = w0.state := by
  rw [(load_ok h).1, hloo.state, World.state]

theorem looks_cacheRead (digest : Sha256Digest) (size : Nat) :
    Keeps Looks (cacheRead env digest size) :=
  looks_steady.bind (looks_steady.readFile _) fun _ =>
    looks_steady.bind (looks_steady.lift _) fun _ => looks_steady.pure _

variable {source : DepotSource}

theorem looks_ensureBlob (digest : Sha256Digest) (size : Nat) :
    Keeps Looks (ensureBlob env source digest size) := by
  have hera : Keeps Looks (effect env DepotError.io id (eraseBlob (toHex digest))) :=
    Steady.effect looks_tick fun _ => ⟨rfl, rfl, fun _ => rfl, rfl, rfl, rfl, Nat.le_succ _⟩
  have hwri : ∀ bytes, Keeps Looks (effect env DepotError.io id (setBlob (toHex digest) bytes)) :=
    fun _ => Steady.effect looks_tick
      fun _ => ⟨rfl, rfl, fun _ => rfl, rfl, rfl, rfl, Nat.le_succ _⟩
  refine looks_steady.bind (keeps_attempt (looks_cacheRead _ _)) fun cached => ?_
  cases cached with
  | ok bytes => exact looks_steady.pure _
  | error e =>
    refine looks_steady.bind (keeps_attempt hera) fun _ => ?_
    refine looks_steady.bind (looks_steady.effect_id _) fun _ => ?_
    refine looks_steady.bind (looks_steady.lift _) fun _ => ?_
    refine looks_steady.bind (looks_steady.lift _) fun _ => ?_
    exact looks_steady.bind (hwri _) fun _ => looks_steady.pure _

variable {d : Disk} {plan plan' : Plan} {record : BackupRecord} {installed : List HostModule}
  {target : TargetModule} {own : Option ModuleManifest} {m : ModuleManifest} {n signer : String}
  {rollback : Bool} {skipped : List String} {current : InstalledDistribution}

theorem BundleOf.of_dir {d' : Disk} {name : String} {b : BackupModule}
    {bundle : Option (String × StagedBundle)} (hd : d'.backups[name]? = d.backups[name]?)
    (h : BundleOf d name b bundle) : BundleOf d' name b bundle := by
  rcases h with hnone | ⟨prev, s, bytes, hpr, hso, hm, hpa, hdig, hfi, hsi⟩
  · exact Or.inl hnone
  · refine Or.inr ⟨prev, s, bytes, hpr, hso, hm, hpa, hdig, ?_, hsi⟩
    rw [hpa] at hfi ⊢
    rw [Disk.file, hd]
    exact hfi

/-! ## What makes a plan sound -/

variable {p : Prepared}

/-- The same plan up to the migrations the bundles bring and its title. -/
structure SamePlan (plan plan' : Plan) : Prop where
  problems : plan'.problems = plan.problems
  entries : List.Forall₂ (fun e e' : PlanEntry => e' = { e with migrations := e'.migrations })
    plan.entries plan'.entries

/-- Every staged bundle is the signed module some change of the plan names. -/
def StagedOf (plan : Plan) (staged : BTreeMap StagedBundle) : Prop :=
  ∀ (n : String) (s : StagedBundle), staged[n]? = some s → s.manifest.id = n ∧
    ∃ e ∈ plan.entries, e.action.changes = true ∧ ∃ t, e.source = some t ∧ t.name = n ∧
      fromManifest s.manifest.version = .ok t.version

omit [DepotProtocol] in
theorem SamePlan.mem (h : SamePlan plan plan') {e' : PlanEntry} (he' : e' ∈ plan'.entries) :
    ∃ e ∈ plan.entries, e' = { e with migrations := e'.migrations } :=
  Sequences.forall₂_right_mem h.entries he'

omit [DepotProtocol] in
theorem SamePlan.modules (h : SamePlan plan plan') :
    plan'.entries.map (·.module) = plan.entries.map (·.module) := by
  have hent := h.entries
  generalize plan.entries = before, plan'.entries = after at hent ⊢
  induction hent with
  | nil => rfl
  | cons heq _ ih => rw [List.map_cons, List.map_cons, ih, heq]

theorem sound_of_signed (hpl : SamePlan plan p.plan) (hsta : StagedOf plan p.staged)
    (hcha : ∀ e ∈ plan.entries, e.action.changes = true → e.action ≠ .remove ∧
      ∃ t, e.source = some t ∧ e.module = t.name ∧ e.target = some t.version) : p.Sound := by
  refine ⟨fun n s hs => (hsta n s hs).1, fun n s hs => ?_, fun e' he' => ?_⟩
  · obtain ⟨-, e, he, hc, t, hsou, rfl, hver⟩ := hsta n s hs
    obtain ⟨-, t', hso', hmod, htar⟩ := hcha e he hc
    rw [hsou] at hso'
    rw [← Option.some.inj hso'] at hmod htar
    obtain ⟨e', he', heq⟩ := Sequences.forall₂_left_mem hpl.entries he
    refine ⟨e', List.mem_filter.mpr ⟨he', ?_⟩, ?_, t.version, ?_, hver⟩
    · rw [heq]
      exact hc
    · rw [heq]
      exact hmod
    · rw [heq]
      exact htar
  · obtain ⟨hmem, hc⟩ := List.mem_filter.mp he'
    obtain ⟨e, he, heq⟩ := hpl.mem hmem
    rw [heq] at hc
    obtain ⟨hne, t, -, -, htar⟩ := hcha e he hc
    have hact : e'.action = e.action := by rw [heq]
    have hta' : e'.target = some t.version := by rw [heq]; exact htar
    rw [hact, hta']
    exact ⟨fun h => absurd h hne, nofun⟩

theorem planRestore_sound {name title : String} (hpl : p.plan = planRestore title record installed)
    (hsta : ∀ n s, p.staged[n]? = some s →
      ∃ b ∈ record.modules, b.module = n ∧ BundleOf d name b (some (n, s))) : p.Sound := by
  refine ⟨restored_named hsta, fun n s hs => ?_, fun e he => ?_⟩
  · obtain ⟨b, hb, hmod, hof⟩ := hsta n s hs
    rcases hof with ⟨-, hno⟩ | ⟨prev, s', bytes, hpr, hso, hm, -⟩
    · cases hno
    · cases hso
      refine ⟨restoreEntry installed b, ?_, hmod, prev.version, ?_, ?_⟩
      · rw [hpl]
        exact List.mem_filter.mpr ⟨mem_planRestore.mpr ⟨b, hb, rfl⟩, restoreEntry_changes _ b⟩
      · show b.previous.map (·.version) = _
        rw [hpr]
        rfl
      · rw [hm]
        exact b.versioned prev hpr
  · rw [hpl] at he
    obtain ⟨b, -, rfl⟩ := mem_planRestore.mp (List.mem_filter.mp he).1
    show (if b.previous.isSome then Action.restore else Action.remove) = .remove ↔
      b.previous.map (·.version) = none
    cases b.previous with
    | none => exact ⟨fun _ => rfl, fun _ => rfl⟩
    | some prev => exact ⟨nofun, nofun⟩

/-! ## Manifests -/

theorem ownManifest_ok [LawfulDepotProtocol] (h : ownManifest target own = .ok m) :
    m.id = target.name ∧ fromManifest m.version = .ok target.version := by
  revert h
  fun_cases ownManifest target own
  all_goals intro h
  all_goals cases h
  case case1 hown => exact hown
  case case4 hv => exact ⟨rfl, fromManifest_of_toManifest hv⟩

theorem moduleManifest_ok [LawfulDepotProtocol] (h : moduleManifest target own signer = .ok m) :
    m.id = target.name ∧ fromManifest m.version = .ok target.version := by
  revert h
  fun_cases moduleManifest target own signer
  all_goals intro h
  all_goals cases h
  rename_i hown
  exact ⟨(ownManifest_ok hown).1, (ownManifest_ok hown).2⟩

variable [BundleFormat]

theorem modules_ok (h : modules env w = (.ok installed, w')) :
    hostModules w.host = .ok installed := by
  obtain ⟨-, h⟩ := effect_bind_ok h
  obtain ⟨_, rfl, h⟩ := read_bind_ok h
  exact (Prod.mk.inj h).1

theorem looks_stageEntry (installed : List HostModule) (signer : String) (e : PlanEntry) :
    Keeps Looks (stageEntry env source installed signer e) := by
  cases hc : e.action.changes with
  | false =>
    simp only [stageEntry, hc]
    exact looks_steady.pure _
  | true =>
    cases hs : e.source with
    | none =>
      simp only [stageEntry, hc, hs]
      exact looks_steady.pure _
    | some target =>
      simp only [stageEntry, hc, hs]
      refine looks_steady.bind (keeps_mapErr (looks_ensureBlob _ _)) fun _ => ?_
      refine looks_steady.bind (looks_cacheRead _ _) fun _ => ?_
      refine looks_steady.bind (looks_steady.lift _) fun _ =>
        looks_steady.bind (looks_steady.lift _) fun _ => ?_
      exact looks_steady.pure _

theorem looks_stageIfClear (plan : Plan) (installed : List HostModule) (signer : String) :
    Keeps Looks (stageIfClear env source plan installed signer) := by
  by_cases hcle : plan.problems = []
  · rw [stageIfClear, if_pos hcle]
    exact looks_steady.bind (looks_steady.collect fun e _ => looks_stageEntry _ _ e)
      fun _ => looks_steady.pure _
  · rw [stageIfClear, if_neg hcle]
    exact looks_steady.pure _

theorem looks_prepareVerified (distribution : VerifiedDistribution) (rollback : Bool)
    (skipped : List String) :
    Keeps Looks (prepareVerified env source distribution rollback skipped) :=
  looks_steady.bind (keeps_mapErr looks_steady.modules) fun _ =>
    looks_steady.bind looks_steady.load fun _ =>
    looks_steady.bind (looks_stageIfClear _ _ _) fun _ => looks_steady.pure _

/-! ## Staging -/

/-- What staging makes of one entry: the entry with its migrations and, for a
change, the signed module. -/
structure Restaged (e : PlanEntry) (r : PlanEntry × Option (String × StagedBundle) × Nat) :
    Prop where
  entry : r.1 = { e with migrations := r.1.migrations }
  staged : ∀ n s, r.2.1 = some (n, s) → s.manifest.id = n ∧ e.action.changes = true ∧
    ∃ t, e.source = some t ∧ t.name = n ∧ fromManifest s.manifest.version = .ok t.version

theorem stageEntry_ok [LawfulDepotProtocol] {e : PlanEntry}
    {r : PlanEntry × Option (String × StagedBundle) × Nat}
    (h : stageEntry env source installed signer e w = (.ok r, w')) : Restaged e r := by
  revert h
  fun_cases stageEntry env source installed signer e
  case case1 target hs hc =>
    intro h
    obtain ⟨fetched, w1, -, h⟩ := bind_ok_iff.mp h
    obtain ⟨bytes, w2, -, h⟩ := bind_ok_iff.mp h
    obtain ⟨info, w3, -, h⟩ := bind_ok_iff.mp h
    obtain ⟨manifest, w4, hman, h⟩ := bind_ok_iff.mp h
    obtain ⟨hna, hver⟩ := moduleManifest_ok (Prod.mk.inj hman).1
    cases h
    refine ⟨rfl, fun n s hso => ?_⟩
    cases hso
    exact ⟨hna, hc, target, hs, rfl, hver⟩
  case case2 =>
    intro h
    cases h
    exact ⟨rfl, nofun⟩

/-- **STAGING KEEPS THE PLAN** and stages signed modules only. -/
theorem stageIfClear_ok [LawfulDepotProtocol] {staged : BTreeMap StagedBundle} {k : Nat}
    (h : stageIfClear env source plan installed signer w = (.ok (plan', staged, k), w')) :
    SamePlan plan plan' ∧ StagedOf plan staged := by
  by_cases hcle : plan.problems = []
  · rw [stageIfClear, if_pos hcle] at h
    obtain ⟨rs, w1, hcol, h⟩ := bind_ok_iff.mp h
    cases h
    obtain ⟨-, hall⟩ := collect_ok (I := fun _ : World => True)
      (P := fun e r _ => Restaged e r) (fun e _ r s s' _ hr => ⟨trivial, stageEntry_ok hr⟩)
      (fun _ _ _ _ _ _ _ _ hP _ => hP) hcol trivial
    refine ⟨⟨rfl, List.forall₂_map_right_iff.mpr (hall.imp fun e r hr => hr.entry)⟩, ?_⟩
    intro n s hs
    obtain ⟨r, hr, hrs⟩ := List.mem_filterMap.mp (stagedMap_mem hs)
    obtain ⟨e, he, hres⟩ := Sequences.forall₂_right_mem hall hr
    obtain ⟨hna, hc, ht⟩ := hres.staged n s hrs
    exact ⟨hna, e, he, hc, ht⟩
  · rw [stageIfClear, if_neg hcle] at h
    cases h
    refine ⟨⟨rfl, List.forall₂_same.mpr fun _ _ => rfl⟩, fun n s hs => ?_⟩
    simp at hs

/-! ## The three ways to a plan -/

variable {policy : HostPolicy}

/-- `p` was prepared in the world `w`, by one of the three commands. -/
inductive Prepares (env : Env) (source : DepotSource) (policy : HostPolicy) (w : World)
    (p : Prepared) (w' : World) : Prop where
  | distribution (request : DistributionRequest)
      (h : prepareDistribution env source policy request w = (.ok p, w'))
  | module (name : String) (pattern : VersionPattern)
      (h : prepareModule env source policy name pattern w = (.ok p, w'))
  | rollback (h : prepareRollback env source policy w = (.ok p, w'))

/-- What a prepared plan was made from. -/
inductive Origin (w : World) (p : Prepared) : Prop where
  | distribution (d : VerifiedDistribution) (rollback : Bool) {title : String}
      {installed : List HostModule} (hlist : hostModules w.host = .ok installed)
      (hintent : p.intent = .distribution d rollback)
      (hplan : SamePlan (planDistribution title d.targetModules installed w.state) p.plan)
      (hstaged : StagedOf (planDistribution title d.targetModules installed w.state) p.staged)
  | module (candidate : ModuleCandidate) {installed : List HostModule}
      (hlist : hostModules w.host = .ok installed) (hintent : p.intent = .module candidate)
      (hplan : SamePlan (planModule candidate.module installed w.state) p.plan)
      (hstaged : StagedOf (planModule candidate.module installed w.state) p.staged)
  | restore (name : String) (record : BackupRecord) {title : String}
      {installed : List HostModule} (hlist : hostModules w.host = .ok installed)
      (hintent : p.intent = .restore name record)
      (hplan : p.plan = planRestore title record installed)
      (hstaged : ∀ n s, p.staged[n]? = some s →
        ∃ b ∈ record.modules, b.module = n ∧ BundleOf w.disk name b (some (n, s)))

theorem prepareVerified_ok [LawfulDepotProtocol] {d : VerifiedDistribution}
    (h : prepareVerified env source d rollback skipped w = (.ok p, w')) :
    ∃ installed, hostModules w.host = .ok installed ∧ p.intent = .distribution d rollback ∧
      SamePlan (planDistribution d.id.display d.targetModules installed w.state) p.plan ∧
      StagedOf (planDistribution d.id.display d.targetModules installed w.state) p.staged := by
  obtain ⟨installed, w1, hli, h⟩ := bind_ok_iff.mp h
  have hli := mapErr_ok_iff.mp hli
  obtain ⟨state, w2, hlo, h⟩ := bind_ok_iff.mp h
  have hsta := load_state (looks_steady.modules.ok hli) hlo
  rw [hsta] at h
  obtain ⟨⟨plan, stg, k⟩, w3, hstage, h⟩ := bind_ok_iff.mp h
  obtain ⟨hsa, hof⟩ := stageIfClear_ok hstage
  cases h
  exact ⟨installed, modules_ok hli, rfl, hsa, hof⟩

theorem prepareVerified_title {d : VerifiedDistribution}
    (h : prepareVerified env source d rollback skipped w = (.ok p, w')) :
    p.plan.title = d.id.display := by
  obtain ⟨installed, w1, -, h⟩ := bind_ok_iff.mp h
  obtain ⟨state, w2, -, h⟩ := bind_ok_iff.mp h
  obtain ⟨⟨plan, stg, k⟩, w3, hstage, h⟩ := bind_ok_iff.mp h
  cases h
  rw [stageIfClear] at hstage
  split at hstage
  · obtain ⟨rs, w4, -, hend⟩ := bind_ok_iff.mp hstage
    cases hend
    rfl
  · cases hstage
    rfl

theorem prepareDistribution_origin [LawfulDepotProtocol] {req : DistributionRequest}
    (h : prepareDistribution env source policy req w = (.ok p, w')) : Origin w p := by
  obtain ⟨selection, w1, hsel, h⟩ := bind_ok_iff.mp h
  obtain ⟨-, rfl⟩ := Prod.mk.inj hsel
  obtain ⟨installed, hli, hint, hpl, hsta⟩ := prepareVerified_ok h
  exact .distribution _ _ hli hint hpl hsta

theorem prepareModule_origin [LawfulDepotProtocol] {name : String} {pattern : VersionPattern}
    (h : prepareModule env source policy name pattern w = (.ok p, w')) : Origin w p := by
  obtain ⟨cand, w1, hsel, h⟩ := bind_ok_iff.mp h
  obtain ⟨-, rfl⟩ := Prod.mk.inj hsel
  obtain ⟨installed, w1, hli, h⟩ := bind_ok_iff.mp h
  have hli := mapErr_ok_iff.mp hli
  obtain ⟨state, w2, hlo, h⟩ := bind_ok_iff.mp h
  have hsta := load_state (looks_steady.modules.ok hli) hlo
  rw [hsta] at h
  obtain ⟨⟨plan, stg, k⟩, w3, hstage, h⟩ := bind_ok_iff.mp h
  obtain ⟨hsa, hof⟩ := stageIfClear_ok hstage
  cases h
  exact .module cand (modules_ok hli) rfl hsa hof

theorem prepareRestore_ok {name : String}
    (h : prepareRestore env current name record w = (.ok p, w')) :
    ∃ title installed, hostModules w.host = .ok installed ∧ p.intent = .restore name record ∧
      p.plan = planRestore title record installed ∧
      (∀ n s, p.staged[n]? = some s →
        ∃ b ∈ record.modules, b.module = n ∧ BundleOf w.disk name b (some (n, s))) ∧
      ∀ b ∈ record.modules, b.previous.isSome = true → (p.staged[b.module]?).isSome = true := by
  obtain ⟨stg, w1, hbu, h⟩ := bind_ok_iff.mp h
  obtain ⟨hho, -, hbun, hso⟩ := restoreBundles_ok hbu
  obtain ⟨installed, w2, hli, h⟩ := bind_ok_iff.mp h
  have hli := modules_ok (mapErr_ok_iff.mp hli)
  rw [hho] at hli
  rw [← Except.ok.inj (Prod.mk.inj h).1]
  exact ⟨_, installed, hli, rfl, rfl, hbun, hso⟩

theorem prepareAgain_origin [LawfulDepotProtocol] {previous : Option InstalledDistribution}
    (h : prepareAgain env source policy current previous w = (.ok p, w')) : Origin w p := by
  cases previous with
  | none => cases h
  | some previous =>
    cases hid : parseId previous.id with
    | error err =>
      simp only [prepareAgain, hid] at h
      cases h
    | ok id =>
      simp only [prepareAgain, hid] at h
      obtain ⟨selection, w1, hsel, h⟩ := bind_ok_iff.mp h
      obtain ⟨-, rfl⟩ := Prod.mk.inj hsel
      obtain ⟨prepared, w2, hpre, h⟩ := bind_ok_iff.mp h
      obtain ⟨installed, hli, hint, hpl, hsta⟩ := prepareVerified_ok hpre
      cases h
      exact .distribution _ _ hli hint ⟨hpl.problems, hpl.entries⟩ hsta

theorem Origin.of_looks (hl : Looks w w') (h : Origin w' p) : Origin w p := by
  have hsta : w'.state = w.state := by rw [World.state, hl.state, World.state]
  cases h with
  | distribution d rollback hlist hintent hplan hstaged =>
    rw [hl.host] at hlist
    rw [hsta] at hplan hstaged
    exact .distribution d rollback hlist hintent hplan hstaged
  | module cand hlist hintent hplan hstaged =>
    rw [hl.host] at hlist
    rw [hsta] at hplan hstaged
    exact .module cand hlist hintent hplan hstaged
  | restore name record hlist hintent hplan hstaged =>
    rw [hl.host] at hlist
    refine .restore name record hlist hintent hplan fun n s hs => ?_
    obtain ⟨b, hb, hmod, hof⟩ := hstaged n s hs
    exact ⟨b, hb, hmod, hof.of_dir (hl.backups name).symm⟩

theorem prepareRollback_origin [LawfulDepotProtocol]
    (h : prepareRollback env source policy w = (.ok p, w')) : Origin w p := by
  obtain ⟨state, w1, hlo, h⟩ := bind_ok_iff.mp h
  have hloo : Looks w w1 := looks_steady.load.ok hlo
  cases hcur : state.current with
  | none =>
    simp only [hcur] at h
    cases h
  | some current =>
    simp only [hcur] at h
    cases hbac : state.backup with
    | none =>
      simp only [hbac] at h
      exact (prepareAgain_origin h).of_looks hloo
    | some name =>
      simp only [hbac] at h
      obtain ⟨found, w2, hfou, h⟩ := bind_ok_iff.mp h
      have hlo2 : Looks w w2 := Looks.trans _ _ _ hloo ((looks_steady.loadBackup name).ok hfou)
      cases found with
      | none => exact (prepareAgain_origin h).of_looks hlo2
      | some record =>
        by_cases haft : record.after = current.id
        · simp only [if_pos haft] at h
          obtain ⟨title, installed, hli, hint, hpl, hsta, -⟩ := prepareRestore_ok h
          exact (Origin.restore name record hli hint hpl hsta).of_looks hlo2
        · simp only [if_neg haft] at h
          exact (prepareAgain_origin h).of_looks hlo2

theorem looks_prepareAgain (current : InstalledDistribution)
    (previous : Option InstalledDistribution) :
    Keeps Looks (prepareAgain env source policy current previous) := by
  cases previous with
  | none => exact looks_steady.fail _
  | some previous =>
    cases hid : parseId previous.id with
    | error err =>
      simp only [prepareAgain, hid]
      exact looks_steady.fail _
    | ok id =>
      simp only [prepareAgain, hid]
      exact looks_steady.bind (looks_steady.lift _) fun _ =>
        looks_steady.bind (looks_prepareVerified _ _ _) fun _ => looks_steady.pure _

theorem looks_prepareRestore (current : InstalledDistribution) (name : String)
    (record : BackupRecord) : Keeps Looks (prepareRestore env current name record) :=
  looks_steady.bind (looks_steady.restoreBundles _ _) fun _ =>
    looks_steady.bind (keeps_mapErr looks_steady.modules) fun _ => looks_steady.pure _

theorem looks_prepareRollback : Keeps Looks (prepareRollback env source policy) := by
  refine looks_steady.bind looks_steady.load fun state => ?_
  cases hcur : state.current with
  | none => exact looks_steady.fail _
  | some current =>
    cases hbac : state.backup with
    | none => exact looks_prepareAgain _ _
    | some name =>
      refine looks_steady.bind (looks_steady.loadBackup name) fun found => ?_
      cases found with
      | none => exact looks_prepareAgain _ _
      | some record =>
        by_cases haft : record.after = current.id
        · simp only [if_pos haft]
          exact looks_prepareRestore _ _ _
        · simp only [if_neg haft]
          exact looks_prepareAgain _ _

theorem Prepares.looks (h : Prepares env source policy w p w') : Looks w w' := by
  cases h with
  | distribution _ h =>
    exact Keeps.ok (looks_steady.bind (looks_steady.lift _) fun _ =>
      looks_prepareVerified _ _ _) h
  | module _ _ h =>
    exact Keeps.ok (looks_steady.bind (looks_steady.lift _) fun _ =>
      looks_steady.bind (keeps_mapErr looks_steady.modules) fun _ =>
        looks_steady.bind looks_steady.load fun _ =>
          looks_steady.bind (looks_stageIfClear _ _ _) fun _ => looks_steady.pure _) h
  | rollback h => exact looks_prepareRollback.ok h

theorem Prepares.origin [LawfulDepotProtocol] (h : Prepares env source policy w p w') :
    Origin w p := by
  cases h with
  | distribution _ h => exact prepareDistribution_origin h
  | module _ _ h => exact prepareModule_origin h
  | rollback h => exact prepareRollback_origin h

/-- **EVERY PREPARED PLAN IS SOUND.** -/
theorem Origin.sound (h : Origin w p) : p.Sound := by
  cases h with
  | distribution d rollback hlist hintent hplan hstaged =>
    refine sound_of_signed hplan hstaged fun e he hc => ⟨planDistribution_ne_remove he, ?_⟩
    obtain ⟨t, -, hsou, hmod, htar, -⟩ := planDistribution_changes (hostModules_nodup hlist) he hc
    exact ⟨t, hsou, hmod, htar⟩
  | module cand hlist hintent hplan hstaged =>
    refine sound_of_signed hplan hstaged fun e he _ => ?_
    rw [List.mem_singleton.mp he]
    exact ⟨changeAction_ne_remove _ _, _, rfl, rfl, rfl⟩
  | restore name record hlist hintent hplan hstaged => exact planRestore_sound hplan hstaged

/-! ## Pins and local sources at the time of preparing -/

/-- The module is to be left alone: pinned in the state file, or synchronized
from local sources. -/
def Held (w : World) (n : String) : Prop :=
  (w.state.pins[n]?).isSome = true ∨ w.host.localSync n = true

theorem localSync_listed (hli : hostModules w.host = .ok installed)
    (hn : w.host.localSync n = true) : ∃ m ∈ installed, m.name = n ∧ m.localSync = true := by
  rw [Host.localSync] at hn
  cases hg : w.host.get n with
  | none =>
    rw [hg] at hn
    cases hn
  | some m =>
    rw [hg, Option.any_some] at hn
    obtain ⟨v, hv, hvi⟩ := listed hli hg
    refine ⟨v, hv, hostModule_name hvi, ?_⟩
    rw [hostModule_localSync hvi]
    exact hn

/-- **A PLAN LEAVES HELD MODULES ALONE** as far as preparing can see: without
problems, and unless it is a restore, no change names a module that is
held. -/
theorem Origin.free (h : Origin w p) (hcle : p.plan.problems = [])
    (hres : ∀ name record, p.intent = .restore name record →
      ∀ b ∈ record.modules, ¬ Held w b.module) (hn : p.Changes n) : ¬ Held w n := by
  obtain ⟨e', he', rfl⟩ := hn
  obtain ⟨hmem, hc⟩ := List.mem_filter.mp he'
  cases h with
  | distribution d rollback hlist hintent hplan hstaged =>
    obtain ⟨e, he, heq⟩ := hplan.mem hmem
    have hmod : e'.module = e.module := by rw [heq]
    rw [heq] at hc
    obtain ⟨t, -, -, hna, -, hsy, hpin, -⟩ :=
      planDistribution_changes (hostModules_nodup hlist) he hc
    rintro (hpinned | hloc)
    · rw [hmod, hna, hpin] at hpinned
      cases hpinned
    · obtain ⟨m, hm, hmn, hml⟩ := localSync_listed hlist hloc
      rw [hsy m hm (by rw [hmn, hmod, hna])] at hml
      cases hml
  | module cand hlist hintent hplan hstaged =>
    obtain ⟨e, he, heq⟩ := hplan.mem hmem
    have hmod : e'.module = e.module := by rw [heq]
    rw [hplan.problems] at hcle
    have hna : e.module = cand.module.name := by rw [List.mem_singleton.mp he]
    rintro (hpinned | hloc)
    · rw [hmod, hna, planModule_unpinned hcle] at hpinned
      cases hpinned
    · obtain ⟨m, hm, hmn, hml⟩ := localSync_listed hlist hloc
      rw [heq] at hc
      rw [planModule_leavesLocalSync (hostModules_nodup hlist) _ hcle e he hc m hm
        (hmn.trans hmod)] at hml
      cases hml
  | restore name record hlist hintent hplan hstaged =>
    rw [hplan] at hmem
    obtain ⟨b, hb, rfl⟩ := mem_planRestore.mp hmem
    exact hres name record hintent b hb

end

end Fenrir
