import Fenrir.Depot.Interleaving
import Fenrir.Depot.RestorePlan

/-! # Install and roll back

A changing install leaves a backup, and `prepare_rollback` builds a restore
plan from it. This module follows the two executions one after the other
and compares the host at the end with the host at the start. -/

namespace Fenrir

open Effect Effect.Act DepotProtocol List

section

variable [DepotProtocol] {env : Env} {p q : Prepared} {w w' : World}

/-! ## Current and previous -/

def DistinctIds (s : HostState) : Prop :=
  ∀ current previous, s.current = some current → s.previous = some previous →
    previous.id ≠ current.id

theorem recordState_ids {s : HostState} (h : DistinctIds s) (p : Prepared)
    (backup : Option String) (installedAt : String) :
    DistinctIds (recordState s p backup installedAt) := by
  cases hint : p.intent with
  | module cand =>
    simp only [recordState, hint]
    exact h
  | restore name record =>
    simp only [recordState, hint]
    exact fun _ _ _ h => by cases h
  | distribution d rollback =>
    simp only [recordState, hint]
    intro cur previous hcur hpr
    cases hcur
    show previous.id ≠ d.id.display
    cases hc : s.current with
    | none =>
      simp only [hc] at hpr
      cases hpr
    | some c =>
      simp only [hc, Option.any_some] at hpr
      by_cases hid : c.id = d.id.display
      · rw [if_pos (beq_iff_eq.mpr hid)] at hpr
        rw [← hid]
        exact h c previous hc hpr
      · rw [if_neg (fun heq => hid (beq_iff_eq.mp heq))] at hpr
        cases hpr
        exact hid

omit [DepotProtocol] in
theorem initial_ids : DistinctIds HostState.initial := nofun

theorem execute_ids {res : Except DepotError Outcome} (h : execute env p w = (res, w'))
    (hids : DistinctIds w.state) : DistinctIds w'.state := by
  rcases execute_state h with hsame | ⟨_, _, hrec⟩
  · rw [hsame]
    exact hids
  · rw [hrec]
    exact recordState_ids hids p _ _

theorem step_ids (h : Step w w') (hids : DistinctIds w.state) : DistinctIds w'.state := by
  cases h with
  | executed env p => exact execute_ids rfl hids
  | @pinned α env change hpins =>
    generalize hrun : updateState env change w = run
    have hru' : updateState env change w = (run.1, run.2) := hrun
    cases updateState_run hru' with
    | unchanged htidy =>
      rw [World.state, (htidy none).state]
      exact hids
    | saved hchange hsaved =>
      obtain ⟨pins, hsta⟩ := hpins _ _ _ hchange
      rw [World.state, hsaved.saved, hsta]
      exact hids
  | elsewhere hsta hbackups hnames =>
    rw [World.state, hsta]
    exact hids

/-- **CURRENT AND PREVIOUS DIFFER** in every reachable state. -/
theorem reachable_ids (h : Reachable w) : DistinctIds w.state := by
  obtain ⟨w0, hfre, hste⟩ := h
  induction hste with
  | refl =>
    rw [World.state, hfre.noState]
    exact initial_ids
  | tail _ hstep ih => exact step_ids hstep ih

/-! ## Names of backups -/

variable {title : String} {e : PlanEntry} {outcome : Outcome} {h0 : Host} {state : HostState}
  {installed : List HostModule} {targets : List TargetModule}

omit [DepotProtocol] in
/-- The part after the time stamp of a backup name has the length of the
title, so titles of different length never share a name. -/
theorem backupName_length {stamp stamp' title' : String}
    (h : backupName stamp title = backupName stamp' title') : title.length = title'.length := by
  have hspl : ∀ s t : String, (backupName s t).toList.dropWhile Char.isAlphanum
      = '-' :: t.toList.map fun c => if c.isAlphanum || c == '.' || c == '-' then c else '_' := by
    intro s t
    have hna : (backupName s t).toList = s.toList.filter Char.isAlphanum ++ '-' ::
        t.toList.map (fun c => if c.isAlphanum || c == '.' || c == '-' then c else '_') := by
      simp [backupName]
    rw [hna, dropWhile_append_of_pos fun c hc => (mem_filter.mp hc).2]
    exact dropWhile_cons_of_neg (by decide)
  have htit := hspl stamp title
  rw [h, hspl stamp' title'] at htit
  have hlen := congrArg List.length htit
  simpa [String.length_toList] using hlen.symm

/-! ## What a changing install leaves -/

/-- The world after a successful changing execution, with its backup `r` under
`name`. -/
structure Applied (p : Prepared) (w w' : World) (name : String) (r : BackupRecord)
    (installedAt : String) : Prop where
  saved : w'.disk.stateFile = some (recordState w.state p (some name) installedAt)
  format : w.state.format = stateFormat
  title : ∃ stamp, name = backupName stamp p.plan.title
  before : r.before = w.state.currentId
  after : r.after = p.after
  listed : List.Forall₂ (fun e b => b.module = e.module) p.plan.changes r.modules
  kept : (recordState w.state p (some name) installedAt).backup = some name →
    (w'.disk.backups[name]?).bind (·.record) = some r ∧
      ∀ b ∈ r.modules, HoldsBackup w.host w'.disk name b
  frame : HostFrame p.Changes w.host w'.host
  put : ∀ e ∈ p.plan.changes, e.action ≠ .remove → ∃ m s, w'.host.get e.module = some m ∧
    p.staged[e.module]? = some s ∧ m.manifest = s.manifest

theorem apply_put (hp : p.Sound) {migrations : List String}
    (h : apply env p w = (.ok migrations, w')) (he : e ∈ p.plan.changes)
    (hne : e.action ≠ .remove) :
    ∃ m s, w'.host.get e.module = some m ∧ p.staged[e.module]? = some s ∧
      m.manifest = s.manifest := by
  obtain ⟨-, hco, hsta⟩ := apply_contents hp h
  have hru : w'.host.runs e.module = true :=
    hsta _ (mem_map.mpr ⟨e, mem_filter.mpr ⟨he, by simpa using hne⟩, rfl⟩)
  cases hm : w'.host.get e.module with
  | none =>
    rw [Host.runs, hm] at hru
    cases hru
  | some m =>
    have hwri : ∀ c, w'.host.contents e.module = some c →
        ∃ s, p.staged[e.module]? = some s ∧ c.1 = s.manifest := by
      rw [hco]
      refine Writes.run_of_forall (P := fun v : Option (ModuleManifest × Bytes) =>
        ∀ c, v = some c → ∃ s, p.staged[e.module]? = some s ∧ c.1 = s.manifest) ?_
        ⟨_, mem_map.mpr ⟨e, he, rfl⟩, rfl⟩ _
      rintro wr hwr hkey c hc
      obtain ⟨e', he', rfl⟩ := mem_map.mp hwr
      have hmod : e'.module = e.module := hkey
      simp only [swapWrite, hmod] at hc
      split at hc
      · cases hc
      · obtain ⟨s, hs, hcon⟩ := Option.bind_eq_some_iff.mp hc
        obtain ⟨bytes, -, hpa⟩ := Option.map_eq_some_iff.mp hcon
        exact ⟨s, hs, by rw [← hpa]⟩
    obtain ⟨s, hs, hman⟩ := hwri (m.manifest, m.files) (by rw [Host.contents, hm]; rfl)
    exact ⟨m, s, rfl, hs, hman⟩

theorem execute_applied (hp : p.Sound) (hso : p.plan.changes ≠ [])
    (h : execute env p w = (.ok outcome, w')) :
    ∃ name r installedAt, Applied p w w' name r installedAt := by
  obtain ⟨state, w1, perf, w2, w3, hbeg, hper, hrec, rfl⟩ := execute_ok h
  obtain ⟨hsta, hfor, hti⟩ := hbeg.spec
  have hho : w1.host = w.host := (hti none).host
  have hrel := (tidies_releaseLock env · w3)
  have hsta : state = w.state := hsta
  rcases perform_ok hper with ⟨hno, -, -⟩ | ⟨name, r, wm, hmade, happly, hba⟩
  · exact absurd hno hso
  · obtain ⟨hfra, -, haft, hbef, hall, hre⟩ := hmade.spec
    obtain ⟨hhe, -, -⟩ := hmade.after_apply hp happly
    have happ : Frame p.Changes (fun _ => False) wm w2 := (frame_apply hp).ok happly
    have hsav := hrec.saved
    rw [newState, hba, hsta] at hsav
    refine ⟨name, r, env.now w2.tick, ?_, ?_, hmade.title, ?_, haft,
      hall.imp fun _ _ hb => hb.1, fun hke => ?_, ?_, fun e he hne => ?_⟩
    · rw [(hrel none).state, hsav]
    · rw [← hsta]
      exact hfor
    · rw [hbef, hsta]
    · have hdir : (releaseLock env w3).disk.backups[name]? = w2.disk.backups[name]? := by
        rw [(hrel (some name)).kept name rfl]
        refine hrec.kept name ?_
        rw [newState, hba, hsta]
        exact hke
      refine ⟨?_, fun b hb => ?_⟩
      · rw [hdir, happ.dirs name fun hn => hn]
        exact hre
      · rw [← hho]
        exact (hhe b hb).of_dir hdir
    · rw [(hrel none).host, hrec.host, ← hho]
      exact (hfra.mono fun _ hn => hn.elim).trans happ.host
    · rw [(hrel none).host, hrec.host]
      exact apply_put hp happly he hne

/-! ## The rollback -/

variable {name installedAt : String} {r : BackupRecord}

theorem RestoresFrom.of_dir {d d' : Disk} (h : RestoresFrom q name r h0 d)
    (hd : d'.backups[name]? = d.backups[name]?) : RestoresFrom q name r h0 d' := by
  refine ⟨h.plan, fun n s hs => ?_, h.staged, fun b hb => (h.held b hb).of_dir hd⟩
  obtain ⟨b, hb, hmod, hof⟩ := h.bundle n s hs
  exact ⟨b, hb, hmod, hof.of_dir hd⟩

theorem RestoresFrom.loads [LawfulDepotProtocol] {d : Disk} (h : RestoresFrom q name r h0 d)
    {n : String} {s : StagedBundle} (hs : q.staged[n]? = some s) : Loads d s := by
  obtain ⟨b, hb, -, hof⟩ := h.bundle n s hs
  exact (h.held b hb).loads hof

section

theorem distribution_backup {d : VerifiedDistribution} {rollback : Bool} (s : HostState)
    (name installedAt : String) (hint : p.intent = .distribution d rollback) :
    (recordState s p (some name) installedAt).backup = some name := by
  simp only [recordState, hint, Option.isSome_some, Bool.true_or, if_true]

variable [BundleFormat]

variable {installed : List HostModule}

theorem modules_quiet (hq : Quiet env w.tick) (hli : hostModules w.host = .ok installed) :
    modules env w = (.ok installed, w.tickTo (w.tick + 1)) := by
  rw [modules, bind_of_ok (effect_quiet hq), bind_of_ok (read_run _ _), lift_run]
  show (hostModules w.host, _) = _
  rw [hli]
  rfl

theorem prepareRestore_returns [LawfulDepotProtocol] (cur : InstalledDistribution)
    (hq : Quiet env w.tick) (hhe : ∀ b ∈ r.modules, HoldsBackup h0 w.disk name b)
    (hli : hostModules w.host = .ok installed) :
    ∃ q w', prepareRestore env cur name r w = (.ok q, w') ∧
      cur.id.length < q.plan.title.length := by
  obtain ⟨stg, w1, hbun⟩ := restoreBundles_quiet hq hhe
  have hfra : Frame (fun _ => False) (fun _ => False) w w1 :=
    (frame_steady.restoreBundles name r).ok hbun
  have hmod := modules_quiet (hq.after hfra) (by rw [(restoreBundles_ok hbun).1]; exact hli)
  rw [prepareRestore, bind_of_ok hbun, bind_of_ok (mapErr_ok_iff.mpr hmod)]
  refine ⟨_, _, rfl, ?_⟩
  dsimp only [planRestore]
  have hwo : ("rollback " : String).length = 9 := by decide
  cases r.before with
  | none | some pre =>
    simp only [String.length_append, toString]
    omega

theorem prepareRollback_returns [LawfulDepotProtocol] (source : DepotSource) (policy : HostPolicy)
    {d : VerifiedDistribution} {rollback : Bool} (happ : Applied p w w' name r installedAt)
    (hint : p.intent = .distribution d rollback) (htit : p.plan.title = d.id.display)
    (hq : Quiet env w'.tick) (hli : hostModules w'.host = .ok installed) :
    ∃ q w3, prepareRollback env source policy w' = (.ok q, w3) ∧ q.intent = .restore name r ∧
      RestoresFrom q name r w.host w3.disk ∧ p.plan.title.length < q.plan.title.length := by
  have hbac := distribution_backup w.state name installedAt hint
  have hcur : (recordState w.state p (some name) installedAt).current
      = some (installedDistribution p d installedAt) := by simp only [recordState, hint]
  have hfor : (recordState w.state p (some name) installedAt).format = stateFormat := by
    simp only [recordState, hint]
    exact happ.format
  obtain ⟨hrec, hhe⟩ := happ.kept hbac
  have hlo : load env w' = (.ok (recordState w.state p (some name) installedAt),
      w'.tickTo (w'.tick + 1)) := by
    have hlo := load_quiet (hq _ (le_refl _)).1 (by rw [happ.saved]; exact hfor)
    rwa [happ.saved] at hlo
  have hfou : loadBackup env name (w'.tickTo (w'.tick + 1))
      = (.ok (some r), w'.tickTo (w'.tick + 2)) := by
    rw [loadBackup, bind_of_ok (effect_quiet hq.next), read_run]
    show (Except.ok ((w'.disk.backups[name]?).bind (·.record)), _) = _
    rw [hrec]
    rfl
  have haft : r.after = (installedDistribution p d installedAt).id := by
    rw [happ.after, Prepared.after, hint]
    rfl
  obtain ⟨q, w3, hpre, hlen⟩ := prepareRestore_returns (w := w'.tickTo (w'.tick + 2))
    (installedDistribution p d installedAt) (hq.mono (Nat.le_add_right _ _)) hhe hli
  obtain ⟨title, installed', -, hq', hpl, hbun, hsta⟩ := prepareRestore_ok hpre
  have hloo : Looks (w'.tickTo (w'.tick + 2)) w3 := (looks_prepareRestore _ _ _).ok hpre
  refine ⟨q, w3, ?_, hq', ?_, by rw [htit]; exact hlen⟩
  · rw [prepareRollback, bind_of_ok hlo]
    simp only [hcur, hbac]
    rw [bind_of_ok hfou]
    simp only [if_pos haft]
    exact hpre
  · have hher : RestoresFrom q name r w.host w'.disk :=
      ⟨⟨title, installed', hpl⟩, hbun, hsta, hhe⟩
    exact hher.of_dir (hloo.backups name)

end

section

variable (hres : RestoresFrom q name r h0 w.disk)

include hres

theorem restore_ready {w1 wm : World} {name' : String} {r' : BackupRecord} (hq : Quiet env w.tick)
    (htit : ∃ stamp title, name = backupName stamp title ∧ title.length < q.plan.title.length)
    (hbeg : Begun env q w state w1) (hma : BackupMade env q state w1 name' r' wm) :
    RestoresFrom q name r h0 wm.disk ∧ Quiet env wm.tick ∧
      HostFrame (fun _ => False) w.host wm.host := by
  obtain ⟨-, -, hti⟩ := hbeg.spec
  have hne : name' ≠ name := by
    obtain ⟨stamp, title, hna, hlt⟩ := htit
    obtain ⟨stamp', hna'⟩ := hma.title
    intro heq
    rw [hna, hna'] at heq
    have hlen := backupName_length heq
    omega
  refine ⟨hres.of_dir ?_, hq.mono (le_trans (hti none).tick hma.tick), ?_⟩
  · rw [hma.dirs hne, (hti (some name)).kept name rfl]
  · rw [← (hti none).host]
    exact hma.spec.1

/-- **WHEN A ROLLBACK GOES THROUGH**, in a world where nothing fails. -/
theorem execute_restore_iff [LawfulDepotProtocol] (hq : Quiet env w.tick)
    (htit : ∃ stamp title, name = backupName stamp title ∧ title.length < q.plan.title.length)
    (hlo : w.disk.locked = false) (hfor : w.state.format = stateFormat)
    (hso : r.modules ≠ []) (hins : ∀ b ∈ r.modules, (w.host.get b.module).isSome = true)
    (hcom : ∀ b ∈ r.modules, Comparable w.host b.module)
    (hdev : ∀ b ∈ r.modules, b.previous.isSome = true → b.module ∉ w.host.dev) :
    (∃ outcome w', execute env q w = (.ok outcome, w')) ↔
      ((r.modules.filter (·.previous.isNone)).map (·.module)).Nodup := by
  have hcha : q.plan.changes ≠ [] := hres.changes_ne hso
  -- the backup of the rollback itself leaves the host as it is
  have happ : ∀ {state : HostState} {w1 wm : World} {name' : String} {r' : BackupRecord},
      Begun env q w state w1 → BackupMade env q state w1 name' r' wm →
      ((∃ migrations w', apply env q wm = (.ok migrations, w')) ↔
        ((r.modules.filter (·.previous.isNone)).map (·.module)).Nodup) := by
    intro state w1 wm name' r' hbeg hma
    obtain ⟨hre', hq', hfra⟩ := restore_ready hres hq htit hbeg hma
    rw [apply_restore_iff hq' hre' (by rw [hfra.dev]; exact hdev)]
    refine and_iff_right fun b hb _ => ?_
    rw [hfra.modules _ fun hn => hn]
    exact hins b hb
  constructor
  · rintro ⟨outcome, w', h⟩
    obtain ⟨state, w1, perf, w2, w3, hbeg, hper, -, -⟩ := execute_ok h
    rcases perform_ok hper with ⟨hno, -, -⟩ | ⟨_, _, _, hma, hrun, -⟩
    · exact absurd hno hcha
    · exact (happ hbeg hma).mp ⟨_, _, hrun⟩
  · intro hon
    have hcle : q.plan.problems = [] := by
      obtain ⟨title, installed, hpl⟩ := hres.plan
      rw [hpl]
      rfl
    obtain ⟨w1, hbeg⟩ := begun_quiet hcle hq hlo hfor
    obtain ⟨-, -, hti⟩ := hbeg.spec
    have hq1 : Quiet env w1.tick := hq.mono (hti none).tick
    obtain ⟨name', r', wm, hma⟩ : ∃ name' r' wm, BackupMade env q w.state w1 name' r' wm := by
      refine backupMade_quiet hq1 (fun n s hs => ?_) fun e he => ?_
      · exact (hres.of_dir ((hti (some name)).kept name rfl)).loads hs
      · obtain ⟨b, hb, installed, rfl⟩ := hres.of_change he
        rw [(hti none).host]
        exact hcom b hb
    obtain ⟨migrations, w2, hrun⟩ := (happ hbeg hma).mpr hon
    have hfra : Frame (fun _ => True) (fun _ => False) wm w2 :=
      (frame_apply_within q.within_true).ok hrun
    exact execute_of_apply hbeg hcha hma hrun (hq1.mono (le_trans hma.tick hfra.tick))

theorem execute_restored (hq : Quiet env w.tick)
    (htit : ∃ stamp title, name = backupName stamp title ∧ title.length < q.plan.title.length)
    (hso : r.modules ≠ []) (h : execute env q w = (.ok outcome, w')) :
    (∃ backup installedAt, w'.disk.stateFile = some (recordState w.state q backup installedAt)) ∧
      ∀ b ∈ r.modules, w'.host.contents b.module = h0.contents b.module ∧
        (b.previous.isSome = true → w'.host.runs b.module = true) := by
  obtain ⟨state, w1, perf, w2, w3, hbeg, hper, hrec, rfl⟩ := execute_ok h
  obtain ⟨hst, -, -⟩ := hbeg.spec
  have hrel := tidies_releaseLock env none w3
  refine ⟨⟨perf.backup, env.now w2.tick, ?_⟩, fun b hb => ?_⟩
  · rw [hrel.state, hrec.saved, newState, hst, World.state]
  · rw [hrel.host, hrec.host]
    rcases perform_ok hper with ⟨hno, -, -⟩ | ⟨_, _, _, hmade, hrun, -⟩
    · exact absurd hno (hres.changes_ne hso)
    · obtain ⟨hre', -, -⟩ := restore_ready hres hq htit hbeg hmade
      obtain ⟨-, -, hsta⟩ := apply_contents hre'.sound hrun
      exact ⟨apply_restore_contents hre' hrun ⟨b, hb, rfl⟩,
        fun hpr => hsta _ (hre'.mem_started.mpr ⟨b, hb, hpr, rfl⟩)⟩

end

/-! ## The state after both -/

section

variable {s : HostState} {d : VerifiedDistribution} {rollback : Bool} {backup : Option String}
  {installedAt' : String}

omit [DepotProtocol] in
theorem dropOverrides_get (overrides : BTreeMap ModuleOverride) (ms : List String) (n : String) :
    (dropOverrides overrides ms)[n]? = if n ∈ ms then none else overrides[n]? := by
  induction ms generalizing overrides with
  | nil => rfl
  | cons m ms ih =>
    show (dropOverrides (overrides.erase m) ms)[n]? = _
    rw [ih, BTreeMap.get_erase]
    by_cases hm : m = n
    · simp [hm]
    · by_cases hn : n ∈ ms
      · simp [hn]
      · simp [hn, hm, Ne.symm hm]

/-- The state after an install of `d` and the restore of its backup. -/
def bothStates (s : HostState) (p q : Prepared) (name installedAt : String)
    (backup : Option String) (installedAt' : String) : HostState :=
  recordState (recordState s p (some name) installedAt) q backup installedAt'

variable (hp : p.intent = .distribution d rollback) (hq : q.intent = .restore name r)
include hp hq

theorem bothStates_pins :
    (bothStates s p q name installedAt backup installedAt').pins = s.pins := by
  simp only [bothStates, recordState, hp, hq]

theorem bothStates_id_iff (hids : DistinctIds s) :
    (bothStates s p q name installedAt backup installedAt').currentId = s.currentId ↔
      s.currentId ≠ some d.id.display := by
  simp only [bothStates, recordState, hp, hq, HostState.currentId]
  cases hc : s.current with
  | none => simp
  | some c =>
    simp only [Option.any_some, Option.map_some]
    by_cases hid : c.id = d.id.display
    · rw [if_pos (beq_iff_eq.mpr hid), hid]
      refine iff_of_false (fun heq => ?_) fun hne => hne rfl
      obtain ⟨previous, hpr, heq⟩ := Option.map_eq_some_iff.mp heq
      exact hids c previous hc hpr (heq.trans hid.symm)
    · rw [if_neg fun heq => hid (beq_iff_eq.mp heq)]
      exact iff_of_true rfl fun heq => hid (Option.some.inj heq)

theorem bothStates_overrides_iff
    (hlis : ∀ b ∈ r.modules, ∃ e ∈ p.plan.entries, e.action.runsSigned = true ∧
      e.module = b.module) :
    (bothStates s p q name installedAt backup installedAt').overrides = s.overrides ↔
      ∀ e ∈ p.plan.entries, e.action.runsSigned = true → s.overrides[e.module]? = none := by
  simp only [bothStates, recordState, hp, hq]
  have hsig : ∀ n, n ∈ (p.plan.entries.filter (·.action.runsSigned)).map (·.module) ↔
      ∃ e ∈ p.plan.entries, e.action.runsSigned = true ∧ e.module = n := by
    intro n
    simp only [mem_map, mem_filter, and_assoc]
  constructor
  · intro heq e he hrun
    rw [← heq, dropOverrides_get, dropOverrides_get,
      if_pos ((hsig _).mpr ⟨e, he, hrun, rfl⟩), ite_self]
  · intro hno
    refine Std.ExtTreeMap.ext_getElem? fun n => ?_
    rw [dropOverrides_get, dropOverrides_get]
    split
    · rename_i hn
      obtain ⟨b, hb, rfl⟩ := mem_map.mp hn
      obtain ⟨e, he, hrun, hmod⟩ := hlis b hb
      rw [← hmod, hno e he hrun]
    · split
      · rename_i hn
        obtain ⟨e, he, hrun, rfl⟩ := (hsig n).mp hn
        rw [hno e he hrun]
      · rfl

end

/-! ## The round trip -/

theorem absent_names {name : String} (happ : Applied p w w' name r installedAt)
    (hhe : ∀ b ∈ r.modules, HoldsBackup w.host w'.disk name b) :
    (r.modules.filter (·.previous.isNone)).map (·.module)
      = (p.plan.changes.map (·.module)).filter fun n => (w.host.get n).isNone := by
  have hnam : p.plan.changes.map (·.module) = r.modules.map (·.module) := by
    have hlis := happ.listed
    generalize p.plan.changes = es, r.modules = bs at hlis
    induction hlis with
    | nil => rfl
    | cons hmod _ ih => rw [map_cons, map_cons, hmod, ih]
  rw [hnam, filter_map]
  refine congrArg _ (filter_congr fun b hb => ?_)
  show b.previous.isNone = (w.host.get b.module).isNone
  rw [← Option.not_isSome, ← Option.not_isSome, (hhe b hb).isSome]

variable [BundleFormat] {source source' : DepotSource} {policy : HostPolicy}
  {d : VerifiedDistribution} {rollback : Bool} {skipped : List String} {w1 : World}

/-- What an install that went through left of a host that could be listed:
nothing removed, every version comparable, no dev override on what was
changed. -/
structure InstalledOn (w : World) (r : BackupRecord) : Prop where
  installed : ∀ b ∈ r.modules, (w.host.get b.module).isSome = true
  comparable : ∀ b ∈ r.modules, Comparable w.host b.module
  notDev : ∀ b ∈ r.modules, b.previous.isSome = true → b.module ∉ w.host.dev
  listable : ∃ installed, hostModules w.host = .ok installed

theorem changed_not_dev (hli : hostModules w.host = .ok installed)
    (he : e ∈ (planDistribution title targets installed state).entries)
    (hc : e.action.changes = true) (hget : (w.host.get e.module).isSome = true) :
    e.module ∉ w.host.dev := by
  obtain ⟨t, -, -, hmod, -, hsy, -⟩ := planDistribution_changes (hostModules_nodup hli) he hc
  obtain ⟨m, hm⟩ := Option.isSome_iff_exists.mp hget
  obtain ⟨v, hv, hvi⟩ := listed hli hm
  have hfr := hsy v hv ((hostModule_name hvi).trans hmod)
  rw [hostModule_localSync hvi, Bool.or_eq_false_iff, decide_eq_false_iff_not] at hfr
  exact hfr.2

theorem installedOn_of_applied {name : String} (hp : p.Sound)
    (hli : hostModules w.host = .ok installed)
    (hpl : SamePlan (planDistribution title targets installed state) p.plan)
    (happ : Applied p w w' name r installedAt)
    (hhe : ∀ b ∈ r.modules, HoldsBackup w.host w'.disk name b) : InstalledOn w' r := by
  -- an entry for each module of the record, which is no removal
  have hent : ∀ b ∈ r.modules, ∃ e ∈ p.plan.changes, e.module = b.module ∧
      ∃ e0 ∈ (planDistribution title targets installed state).entries,
        e0.action = e.action ∧ e0.module = e.module := by
    intro b hb
    obtain ⟨e, he, hmod⟩ := Sequences.forall₂_right_mem happ.listed hb
    obtain ⟨e0, he0, heq⟩ := hpl.mem (mem_filter.mp he).1
    exact ⟨e, he, hmod.symm, e0, he0, by rw [heq], by rw [heq]⟩
  have hput : ∀ b ∈ r.modules, ∃ m s, w'.host.get b.module = some m ∧
      p.staged[b.module]? = some s ∧ m.manifest = s.manifest := by
    intro b hb
    obtain ⟨e, he, hmod, e0, he0, hact, -⟩ := hent b hb
    rw [← hmod]
    refine happ.put e he ?_
    rw [← hact]
    exact planDistribution_ne_remove he0
  have hcom : ∀ b ∈ r.modules, Comparable w'.host b.module := by
    intro b hb m hm
    obtain ⟨m', s, hm', hs, hman⟩ := hput b hb
    rw [hm] at hm'
    rw [Option.some.inj hm', hman]
    obtain ⟨-, -, -, v, -, hver⟩ := hp.staged_target _ s hs
    exact ⟨v, hver⟩
  refine ⟨fun b hb => ?_, hcom, fun b hb hpr => ?_, hostModules_returns fun n m hm => ?_⟩
  · obtain ⟨m, -, hm, -⟩ := hput b hb
    rw [hm]
    rfl
  · obtain ⟨e, he, hmod, e0, he0, hact, hmo0⟩ := hent b hb
    rw [(hhe b hb).isSome, ← hmod, ← hmo0] at hpr
    rw [happ.frame.dev, ← hmod, ← hmo0]
    refine changed_not_dev hli he0 ?_ hpr
    rw [hact]
    exact (mem_filter.mp he).2
  · by_cases hn : p.Changes n
    · obtain ⟨e, he, rfl⟩ := hn
      obtain ⟨b, hb, hmod⟩ := Sequences.forall₂_left_mem happ.listed he
      rw [← hmod] at hm ⊢
      obtain ⟨v, hv⟩ := hcom b hb m hm
      exact ⟨v, installedVersion_of_fromManifest hv _⟩
    · rw [happ.frame.modules n hn] at hm
      obtain ⟨v, -, hvi⟩ := listed hli hm
      rw [happ.frame.dev]
      exact ⟨_, hostModule_version hvi⟩

/-- The rollback of the install that led from `w` to `w'` is prepared from the
backup of that install, goes through, and returns to where the install
began: the distribution, the pins, the overrides, and for every module of
the record the manifest it ran. -/
def RollbackInverts (env : Env) (source : DepotSource) (policy : HostPolicy) (w w' : World) :
    Prop :=
  ∃ (name : String) (r : BackupRecord) (q : Prepared) (w₃ : World) (outcome : Outcome)
    (w₄ : World),
    w'.state.backup = some name ∧ (w'.disk.backups[name]?).bind (·.record) = some r ∧
    prepareRollback env source policy w' = (.ok q, w₃) ∧ q.intent = .restore name r ∧
    execute env q w₃ = (.ok outcome, w₄) ∧
    r.before = w.state.currentId ∧ w₄.state.currentId = w.state.currentId ∧
    w₄.state.pins = w.state.pins ∧ w₄.state.overrides = w.state.overrides ∧
    ∀ b ∈ r.modules,
      (w₄.host.get b.module).map (·.manifest) = (w.host.get b.module).map (·.manifest) ∧
        (b.previous.isSome = true → w₄.host.runs b.module = true)

/-- The rollback of an install of `p` from `w` to `w'`: how it is prepared, when
it goes through, and what it leaves then. -/
structure RollbackOf (env : Env) (source : DepotSource) (policy : HostPolicy) (p : Prepared)
    (w w' : World) (name installedAt : String) (r : BackupRecord) (q : Prepared) (w₃ : World) :
    Prop where
  backup : w'.state.backup = some name
  record : (w'.disk.backups[name]?).bind (·.record) = some r
  before : r.before = w.state.currentId
  prepared : prepareRollback env source policy w' = (.ok q, w₃)
  intent : q.intent = .restore name r
  signed : ∀ b ∈ r.modules, ∃ e ∈ p.plan.entries, e.action.runsSigned = true ∧ e.module = b.module
  through : (∃ outcome w₄, execute env q w₃ = (.ok outcome, w₄)) ↔
    ((p.plan.changes.map (·.module)).filter fun n => (w.host.get n).isNone).Nodup
  leaves : ∀ outcome w₄, execute env q w₃ = (.ok outcome, w₄) →
    (∃ backup at', w₄.state = bothStates w.state p q name installedAt backup at') ∧ ∀ b ∈ r.modules,
        (w₄.host.get b.module).map (·.manifest) = (w.host.get b.module).map (·.manifest) ∧
          (b.previous.isSome = true → w₄.host.runs b.module = true)

variable (source policy) in
theorem rollbackOf_applied [LawfulDepotProtocol] {name : String} (hsou : p.Sound)
    (hso : p.plan.changes ≠ []) (hint : p.intent = .distribution d rollback)
    (htit : p.plan.title = d.id.display) (hli : hostModules w.host = .ok installed)
    (hpl : SamePlan (planDistribution title targets installed state) p.plan)
    (happ : Applied p w w' name r installedAt) (hq : Quiet env w'.tick)
    (hlo : w'.disk.locked = false) :
    ∃ q w3, RollbackOf env source policy p w w' name installedAt r q w3 := by
  have hbac := distribution_backup w.state name installedAt hint
  have hst' : w'.state = recordState w.state p (some name) installedAt := by
    rw [World.state, happ.saved]
    rfl
  obtain ⟨hrec, hhe⟩ := happ.kept hbac
  have hon := installedOn_of_applied hsou hli hpl happ hhe
  obtain ⟨installed', hli'⟩ := hon.listable
  obtain ⟨q, w3, hpre, hqin, hres, hlon⟩ :=
    prepareRollback_returns source policy happ hint htit hq hli'
  have hloo : Looks w' w3 := looks_prepareRollback.ok hpre
  have hst3 : w3.state = w'.state := by rw [World.state, hloo.state, World.state]
  have hq3 : Quiet env w3.tick := hq.mono hloo.tick
  have hnam : ∃ stamp title, name = backupName stamp title ∧
      title.length < q.plan.title.length := by
    obtain ⟨stamp, hna⟩ := happ.title
    exact ⟨stamp, p.plan.title, hna, hlon⟩
  have hmo : r.modules ≠ [] := by
    intro hnil
    have hlen := happ.listed.length_eq
    rw [hnil] at hlen
    exact hso (length_eq_zero_iff.mp hlen)
  have hfor : w3.state.format = stateFormat := by
    rw [hst3, hst']
    simp only [recordState, hint]
    exact happ.format
  have hthr := execute_restore_iff hres hq3 hnam (hloo.locked.trans hlo) hfor
    hmo (by rw [hloo.host]; exact hon.installed)
    (by rw [hloo.host]; exact hon.comparable) (by rw [hloo.host]; exact hon.notDev)
  rw [absent_names happ hhe] at hthr
  refine ⟨q, w3, by rw [hst']; exact hbac, hrec, happ.before, hpre, hqin,
    fun b hb => ?_, hthr, fun outcome w4 hrun => ?_⟩
  · obtain ⟨e, he, hmod⟩ := Sequences.forall₂_right_mem happ.listed hb
    obtain ⟨hmem, hc⟩ := mem_filter.mp he
    refine ⟨e, hmem, ?_, hmod.symm⟩
    rw [Action.runsSigned, show e.action.changes = true from hc, Bool.true_or]
  · obtain ⟨⟨backup, at', hfi⟩, hba⟩ := execute_restored hres hq3 hnam hmo hrun
    refine ⟨⟨backup, at', ?_⟩, fun b hb => ⟨?_, (hba b hb).2⟩⟩
    · rw [World.state, hfi, hst3, hst']
      rfl
    · have hcon := congrArg (Option.map Prod.fst) (hba b hb).1
      rw [Host.contents, Host.contents, Option.map_map, Option.map_map] at hcon
      exact hcon

/-- **WHEN A ROLLBACK INVERTS AN INSTALL.** From every reachable state, for
every distribution whose install changes something and goes through, and
nothing fails afterwards: exactly when that distribution was not the current
one, no module that runs signed code had an override, and no module that was
absent is listed twice among the changes. -/
theorem rollbackInverts_iff [LawfulDepotProtocol] {env' : Env} {outcome : Outcome}
    (hreach : Reachable w)
    (hprepare : prepareVerified env source d rollback skipped w = (.ok p, w₁))
    (hsome : p.plan.changes ≠ []) (hexec : execute env p w₁ = (.ok outcome, w'))
    (hq : Quiet env' w'.tick) (hlock : w'.disk.locked = false) :
    RollbackInverts env' source' policy w w' ↔ w.state.currentId ≠ some d.id.display ∧
        (∀ e ∈ p.plan.entries, e.action.runsSigned = true → w.state.overrides[e.module]? = none) ∧
        ((p.plan.changes.map (·.module)).filter fun n => (w.host.get n).isNone).Nodup := by
  obtain ⟨installed, hli, hint, hpl, hsta⟩ := prepareVerified_ok hprepare
  have hsou : p.Sound := Origin.sound (.distribution d rollback hli hint hpl hsta)
  have hloo : Looks w w₁ := (looks_prepareVerified _ _ _).ok hprepare
  have hst : w₁.state = w.state := by rw [World.state, hloo.state, World.state]
  obtain ⟨name, r, installedAt, happ⟩ := execute_applied hsou hsome hexec
  rw [← hloo.host] at hli ⊢
  rw [← hst]
  obtain ⟨q, w₃, hro⟩ := rollbackOf_applied source' policy hsou hsome hint
    (prepareVerified_title hprepare) hli hpl happ hq hlock
  have hids : DistinctIds w₁.state := by
    rw [hst]
    exact reachable_ids hreach
  constructor
  · rintro ⟨-, -, q', w₃', outcome', w₄, -, -, hpr, -, hrun, -, hid, -, hove, -⟩
    rw [hro.prepared] at hpr
    cases hpr
    obtain ⟨⟨backup, at', hst₄⟩, -⟩ := hro.leaves outcome' w₄ hrun
    rw [hst₄, ← hst] at hid hove
    exact ⟨(bothStates_id_iff hint hro.intent hids).mp hid,
      (bothStates_overrides_iff hint hro.intent hro.signed).mp hove,
      hro.through.mp ⟨outcome', w₄, hrun⟩⟩
  · rintro ⟨hid, hove, hon⟩
    obtain ⟨outcome', w₄, hrun⟩ := hro.through.mpr hon
    obtain ⟨⟨backup, at', hst₄⟩, hback⟩ := hro.leaves outcome' w₄ hrun
    refine ⟨name, r, q, w₃, outcome', w₄, hro.backup, hro.record, hro.prepared,
      hro.intent, hrun, ?_, ?_, ?_, ?_, by rw [← hloo.host]; exact hback⟩
    · rw [hro.before, hst]
    · rw [hst₄, ← hst]
      exact (bothStates_id_iff hint hro.intent hids).mpr hid
    · rw [hst₄, ← hst]
      exact bothStates_pins hint hro.intent
    · rw [hst₄, ← hst]
      exact (bothStates_overrides_iff hint hro.intent hro.signed).mpr hove

end

/-! ## A reinstall that is not undone -/

section

def notesAt (product : String) (version : DepotVersion) : VerifiedDistribution where
  root := signed
    { bareManifest product [] with modules := [sampleModule "notes-service" version []] }
    (sampleDigest [])
  includes := []

def samplePrepare (d : VerifiedDistribution) :
    @Act (@World sampleProtocol) DepotError (@Prepared sampleProtocol) :=
  let _ := sampleProtocol
  let _ := sampleFormat
  prepareVerified (failingAt []) staleDepot d false []

def sampleInstall (d : VerifiedDistribution) : @Act (@World sampleProtocol) DepotError Outcome :=
  let _ := sampleProtocol
  do
    let p ← samplePrepare d
    execute (failingAt []) p

variable {w : @World sampleProtocol}

theorem sampleInstall_run {d : VerifiedDistribution} (hok : (sampleInstall d w).1.isOk = true) :
    let _ := sampleProtocol
    ∃ (p : Prepared) (w1 w' : World) (outcome : Outcome), samplePrepare d w = (.ok p, w1) ∧
      execute (failingAt []) p w1 = (.ok outcome, w') ∧ sampleInstall d w = (.ok outcome, w') := by
  let _ := sampleProtocol
  obtain ⟨outcome, w', hrun⟩ := ok_of_isOk hok
  obtain ⟨p, w1, hpre, hex⟩ := bind_ok_iff.mp hrun
  exact ⟨p, w1, w', outcome, hpre, hex, hrun⟩

/-- The first install on a fresh host is undone. -/
theorem rollbackInverts_iff_first :
    let _ := sampleProtocol
    let _ := sampleFormat
    let d := notesAt "base" ⟨1, 0, 0, 0⟩
    ∃ (p : Prepared) (w₁ w' : World) (outcome : Outcome), Reachable freshWorld ∧
      prepareVerified (failingAt []) staleDepot d false [] freshWorld = (.ok p, w₁) ∧
      p.plan.changes ≠ [] ∧ execute (failingAt []) p w₁ = (.ok outcome, w') ∧
      Quiet (failingAt []) w'.tick ∧ w'.disk.locked = false ∧
      RollbackInverts (failingAt []) staleDepot samplePolicy freshWorld w' := by
  let _ := sampleProtocol
  let _ := sampleFormat
  intro _ _ d
  have hlo : (sampleInstall d freshWorld).2.disk.locked = false := by decide +kernel
  have hnam : (samplePrepare d freshWorld).1.toOption.map
      (fun p => p.plan.changes.map (·.module)) = some ["notes-service"] := by decide +kernel
  obtain ⟨p, w₁, w', outcome, hpre, hex, hins⟩ :=
    sampleInstall_run (d := d) (w := freshWorld) (by decide +kernel)
  rw [hins] at hlo
  rw [hpre] at hnam
  have hnam : p.plan.changes.map (·.module) = ["notes-service"] := Option.some.inj hnam
  have hso : p.plan.changes ≠ [] := by
    intro hnil
    rw [hnil] at hnam
    cases hnam
  have hrea : Reachable freshWorld := ⟨freshWorld, ⟨rfl, rfl⟩, .refl⟩
  have hqui : Quiet (failingAt []) w'.tick := failingAt_quiet nofun
  refine ⟨p, w₁, w', outcome, hrea, hpre, hso, hex, hqui, hlo,
    (rollbackInverts_iff hrea hpre hso hex hqui hlo).mpr
      ⟨nofun, fun _ _ _ => Std.ExtTreeMap.getElem?_empty, ?_⟩⟩
  rw [hnam]
  exact List.Nodup.filter _ (nodup_singleton _)

/-- `base-1.0.0` is installed and its module pinned; `athenos-1.0.0`, which has
a newer one, is installed over it without a change; the pin is taken off. -/
def pinnedCourse : @Act (@World sampleProtocol) DepotError Bool :=
  let _ := sampleProtocol
  do
    let _base ← sampleInstall (notesAt "base" ⟨1, 0, 0, 0⟩)
    updateState (failingAt []) (pinChange "notes-service" ⟨1, 0, 0, 0⟩)
    let _athenos ← sampleInstall (notesAt "athenos" ⟨1, 0, 1, 0⟩)
    updateState (failingAt []) (unpinChange "notes-service")

def reinstallCourse : @Act (@World sampleProtocol) DepotError Outcome :=
  let _ := sampleProtocol
  let _ := sampleFormat
  do
    let _outcome ← sampleInstall (notesAt "athenos" ⟨1, 0, 1, 0⟩)
    let q ← prepareRollback (failingAt []) staleDepot samplePolicy
    execute (failingAt []) q

theorem reachable_sampleInstall (d : VerifiedDistribution) (h : @Reachable sampleProtocol w) :
    @Reachable sampleProtocol (sampleInstall d w).2 := by
  let _ := sampleProtocol
  let _ := sampleFormat
  obtain ⟨w0, hfre, hste⟩ := h
  cases hpre : samplePrepare d w with
  | mk res w1 =>
    have hloo : Looks w w1 := (looks_prepareVerified d false []).ok hpre
    have hlo : Step w w1 := .elsewhere hloo.state hloo.backups hloo.names
    cases res with
    | error e =>
      have hrun : sampleInstall d w = (.error e, w1) := bind_of_error hpre
      rw [hrun]
      exact ⟨w0, hfre, hste.tail hlo⟩
    | ok p =>
      have hrun : sampleInstall d w = execute (failingAt []) p w1 := bind_of_ok hpre
      rw [hrun]
      exact ⟨w0, hfre, (hste.tail hlo).tail (.executed _ p w1)⟩

theorem reachable_pinned {α : Type} {change : HostState → Except DepotError (α × HostState)}
    (hpi : PinsOnly change) (h : @Reachable sampleProtocol w) :
    let _ := sampleProtocol
    Reachable (updateState (failingAt []) change w).2 := by
  let _ := sampleProtocol
  obtain ⟨w0, hfre, hste⟩ := h
  exact ⟨w0, hfre, hste.tail (.pinned _ hpi w)⟩

theorem pinChange_pinsOnly (n : String) (v : DepotVersion) : PinsOnly (pinChange n v) := by
  intro s a s' h
  cases h
  exact ⟨_, rfl⟩

theorem unpinChange_pinsOnly (n : String) : PinsOnly (unpinChange n) := by
  intro s a s' h
  cases h
  exact ⟨_, rfl⟩

theorem reachable_pinnedCourse : @Reachable sampleProtocol (pinnedCourse freshWorld).2 := by
  let _ := sampleProtocol
  have hok : (pinnedCourse freshWorld).1.isOk = true := by decide +kernel
  obtain ⟨had, w4, hrun⟩ := ok_of_isOk hok
  rw [hrun]
  have h0 : Reachable freshWorld := ⟨freshWorld, ⟨rfl, rfl⟩, .refl⟩
  generalize freshWorld = w0 at hrun h0
  obtain ⟨o1, w1, hfir, hre⟩ := bind_ok_iff.mp hrun
  obtain ⟨u, w2, hpin, hre⟩ := bind_ok_iff.mp hre
  obtain ⟨o2, w3, hsec, hunp⟩ := bind_ok_iff.mp hre
  have h1 : Reachable w1 := by
    have hst := reachable_sampleInstall (notesAt "base" ⟨1, 0, 0, 0⟩) h0
    rw [hfir] at hst
    exact hst
  have h2 : Reachable w2 := by
    have hst := reachable_pinned (pinChange_pinsOnly "notes-service" ⟨1, 0, 0, 0⟩) h1
    rw [hpin] at hst
    exact hst
  have h3 : Reachable w3 := by
    have hst := reachable_sampleInstall (notesAt "athenos" ⟨1, 0, 1, 0⟩) h2
    rw [hsec] at hst
    exact hst
  have h4 := reachable_pinned (unpinChange_pinsOnly "notes-service") h3
  rw [hunp] at h4
  exact h4

/-- The current distribution is installed again, which changes a module; the
rollback goes through and makes the distribution before it the current
one. -/
theorem reinstall_not_inverted :
    let _ := sampleProtocol
    let _ := sampleFormat
    let w : World := (pinnedCourse freshWorld).2
    let d := notesAt "athenos" ⟨1, 0, 1, 0⟩
    ∃ (p : Prepared) (w₁ w' : World) (outcome : Outcome), Reachable w ∧
      prepareVerified (failingAt []) staleDepot d false [] w = (.ok p, w₁) ∧
      p.plan.changes ≠ [] ∧ execute (failingAt []) p w₁ = (.ok outcome, w') ∧
      Quiet (failingAt []) w'.tick ∧ w'.disk.locked = false ∧
      ¬ RollbackInverts (failingAt []) staleDepot samplePolicy w w' := by
  let _ := sampleProtocol
  let _ := sampleFormat
  intro _ _ w d
  have hbef : w.state.currentId = some "athenos-1.0.0" := by decide +kernel
  have haft : (reinstallCourse w).2.state.currentId = some "base-1.0.0" := by decide +kernel
  have hcha : (samplePrepare d w).1.toOption.map (fun p => p.plan.changes.length)
      = some 1 := by decide +kernel
  have hlo : (sampleInstall d w).2.disk.locked = false := by decide +kernel
  have hok : (sampleInstall d w).1.isOk = true := by decide +kernel
  have hrea : Reachable w := reachable_pinnedCourse
  clear_value w
  obtain ⟨p, w₁, w', outcome, hpre, hex, hins⟩ := sampleInstall_run hok
  rw [hins] at hlo
  rw [hpre] at hcha
  refine ⟨p, w₁, w', outcome, hrea, hpre, ?_, hex, failingAt_quiet nofun, hlo, ?_⟩
  · intro hnil
    rw [Except.toOption, Option.map_some, hnil] at hcha
    cases hcha
  · rintro ⟨name, r, q, w₃, outcome', w₄, -, -, hq, -, hrun, -, hid, -⟩
    rw [reinstallCourse, bind_of_ok hins, bind_of_ok hq, hrun, hid, hbef] at haft
    exact nomatch Option.some.inj haft

end

end Fenrir
