import Fenrir.Depot.Execution

/-! # All or nothing, and where it ends

An execution changes two things, the modules and the state file, and is meant to change both
or neither. `perform` keeps its half of that under EVERY pattern of failures
(`perform_error_same`). `record` comes after the last point at which a backup is restored: a
failure there is an error while the modules stay changed. -/

namespace Fenrir

open Effect Effect.Act DepotProtocol

section

variable [DepotProtocol] {env : Env} {p : Prepared} {w w' : World} {state : HostState}

variable {r : BackupRecord} {w1 w2 w3 : World} {performed : Performed}
  {res : Except DepotError Outcome}

theorem BackupMade.lists_iff {name : String} (h : BackupMade env p state w name r w') (n : String) :
    r.Lists n ↔ p.Changes n := by
  obtain ⟨-, -, -, -, hall, -⟩ := h.spec
  constructor
  · rintro ⟨b, hb, rfl⟩
    obtain ⟨e, he, hmod, -⟩ := Sequences.forall₂_right_mem hall hb
    exact ⟨e, he, hmod.symm⟩
  · rintro ⟨e, he, rfl⟩
    obtain ⟨b, hb, hmod, -⟩ := Sequences.forall₂_left_mem hall he
    exact ⟨b, hb, hmod⟩

theorem HoldsBackup.of_dir {d d' : Disk} {h : Host} {name : String} {b : BackupModule}
    (hd : d'.backups[name]? = d.backups[name]?) (hb : HoldsBackup h d name b) :
    HoldsBackup h d' name b := by
  refine hb.keep ?_
  intro n _ files _ hfi
  rw [Disk.file, hd]
  exact hfi

theorem BackupMade.after_apply (hp : p.Sound) {name : String}
    (hma : BackupMade env p state w name r w1) {res : Except String (List String)}
    (happ : apply env p w1 = (res, w2)) :
    (∀ b ∈ r.modules, HoldsBackup w.host w2.disk name b) ∧
      (∀ n, ¬ r.Lists n → w2.host.contents n = w.host.contents n) ∧
      w2.disk.stateFile = w.disk.stateFile := by
  obtain ⟨hho, hsta, -, -, hall, -⟩ := hma.spec
  have hfra : Frame p.Changes (fun _ => False) w1 w2 := (frame_apply hp).ok happ
  refine ⟨fun b hb => ?_, fun n hn => ?_, hfra.state.trans hsta⟩
  · obtain ⟨e, -, -, hhol⟩ := Sequences.forall₂_right_mem hall hb
    exact hhol.of_dir (hfra.dirs name fun hn => hn)
  · rw [hma.lists_iff] at hn
    rw [← hho.contents, Host.contents, Host.contents, hfra.host.modules n hn]

/-- The module runs what the plan said: the target version, or nothing for a
removal. -/
def RunsTarget (h : Host) (e : PlanEntry) : Prop :=
  match e.target with
  | none => h.get e.module = none
  | some v => ∃ m, h.get e.module = some m ∧ m.running = true ∧
      fromManifest m.manifest.version = .ok v

/-- No module is listed with two targets. -/
def Prepared.ChangesAgree (p : Prepared) : Prop :=
  ∀ e ∈ p.plan.changes, ∀ e' ∈ p.plan.changes, e.module = e'.module → e.target = e'.target

theorem RunsTarget.target_eq {h : Host} {e e' : PlanEntry} (hmod : e.module = e'.module)
    (he : RunsTarget h e) (he' : RunsTarget h e') : e.target = e'.target := by
  simp only [RunsTarget] at he he'
  rw [hmod] at he
  cases ht : e.target with
  | none =>
    cases ht' : e'.target with
    | none => rfl
    | some v' =>
      simp only [ht] at he
      simp only [ht', he] at he'
      obtain ⟨m, hm, -⟩ := he'
      cases hm
  | some v =>
    simp only [ht] at he
    obtain ⟨m, hm, -, hv⟩ := he
    cases ht' : e'.target with
    | none =>
      simp only [ht', hm] at he'
      cases he'
    | some v' =>
      simp only [ht', hm, Option.some.injEq] at he'
      obtain ⟨m', rfl, -, hv'⟩ := he'
      rw [hv] at hv'
      rw [Except.ok.inj hv']

theorem apply_runsTarget_iff (hp : p.Sound) {applied : List String}
    (h : apply env p w = (.ok applied, w')) :
    (∀ e ∈ p.plan.changes, RunsTarget w'.host e) ↔ p.ChangesAgree := by
  constructor
  · intro hru e he e' he' hmod
    exact (hru e he).target_eq hmod (hru e' he')
  · intro hagr e he
    obtain ⟨-, hco, hsta⟩ := apply_contents hp h
    -- all writes to this module say what this entry says
    have hwri : w'.host.contents e.module = (swapWrite p.staged w.disk e).2 := by
      rw [hco]
      refine Writes.run_of_agree ?_ ⟨_, List.mem_map.mpr ⟨e, he, rfl⟩, rfl⟩ _
      rintro wr hwr hkey
      obtain ⟨e', he', rfl⟩ := List.mem_map.mp hwr
      have hmod : e'.module = e.module := hkey
      have hact : e'.action = .remove ↔ e.action = .remove := by
        rw [hp.removals e' he', hp.removals e he, hagr e' he' e he hmod]
      simp only [swapWrite, hmod]
      by_cases hr : e.action = .remove
      · rw [if_pos hr, if_pos (hact.mpr hr)]
      · rw [if_neg hr, if_neg (fun h => hr (hact.mp h))]
    cases ht : e.target with
    | none =>
      have hr : e.action = .remove := (hp.removals e he).mpr ht
      rw [swapWrite, if_pos hr] at hwri
      simp only [RunsTarget, ht]
      exact Option.map_eq_none_iff.mp hwri
    | some v =>
      have hr : e.action ≠ .remove := by
        intro hr
        rw [(hp.removals e he).mp hr] at ht
        cases ht
      have hrun : w'.host.runs e.module = true :=
        hsta _ (List.mem_map.mpr ⟨e, List.mem_filter.mpr ⟨he, by simpa using hr⟩, rfl⟩)
      rw [swapWrite, if_neg hr] at hwri
      simp only [RunsTarget, ht]
      cases hm : w'.host.get e.module with
      | none => rw [Host.runs, hm] at hrun; cases hrun
      | some m =>
        rw [Host.runs, hm] at hrun
        refine ⟨m, rfl, hrun, ?_⟩
        rw [Host.contents, hm] at hwri
        obtain ⟨s, hs, hcon⟩ := Option.bind_eq_some_iff.mp hwri.symm
        obtain ⟨bytes, -, hpa⟩ := Option.map_eq_some_iff.mp hcon
        obtain ⟨e', he', hmod, v', hv', hver⟩ := hp.staged_target _ s hs
        rw [← (Prod.mk.inj hpa).1, hver]
        have htar := hagr e' he' e he hmod
        rw [hv', ht] at htar
        rw [Option.some.inj htar]

/-! ## The second half -/

/-- The state an execution writes, recorded at the given position. -/
def newState (env : Env) (p : Prepared) (state : HostState) (performed : Performed) (w : World) :
    HostState := recordState state p performed.backup (env.now w.tick)

/-- The new state is on disk and its backup still there; the modules are as they
were. -/
structure Recorded (env : Env) (p : Prepared) (state : HostState) (performed : Performed)
    (w w' : World) : Prop where
  host : w'.host = w.host
  saved : w'.disk.stateFile = some (newState env p state performed w)
  calls : w'.calls = w.calls
  names : w'.names = w.names
  kept : ∀ n, (newState env p state performed w).backup = some n →
    w'.disk.backups[n]? = w.disk.backups[n]?

/-- The ways `record` ends: the state is not saved, it is saved but pruning the
old backups fails, or all is done. -/
inductive RecordRun (env : Env) (p : Prepared) (state : HostState) (performed : Performed)
    (w : World) : Except DepotError Outcome → World → Prop where
  | notSaved {msg : String} {w' : World}
      (hsave : save env (newState env p state performed w) (w.tickTo (w.tick + 1))
        = (.error (.io msg), w'))
      (htidy : ∀ keep, Tidies keep w w') :
      RecordRun env p state performed w (.error (.io msg)) w'
  | notPruned {msg : String} {w₁ w' : World}
      (hsave : save env (newState env p state performed w) (w.tickTo (w.tick + 1)) = (.ok (), w₁))
      (hprune : pruneBackups env (newState env p state performed w).backup w₁
        = (.error (.io msg), w'))
      (hrecorded : Recorded env p state performed w w') :
      RecordRun env p state performed w (.error (.io msg)) w'
  | done {outcome : Outcome} {w₁ w₂ w' : World}
      (hsave : save env (newState env p state performed w) (w.tickTo (w.tick + 1)) = (.ok (), w₁))
      (hprune : pruneBackups env (newState env p state performed w).backup w₁ = (.ok (), w₂))
      (hrecorded : Recorded env p state performed w w') :
      RecordRun env p state performed w (.ok outcome) w'

theorem record_run (h : record env p state performed w = (res, w')) :
    RecordRun env p state performed w res w' := by
  have hnow : (now env : Act World DepotError String) w
      = (.ok (env.now w.tick), w.tickTo (w.tick + 1)) := rfl
  rw [record, bind_of_ok hnow] at h
  change writeDown env p performed (newState env p state performed w) _ = _ at h
  rw [writeDown] at h
  rcases bind_cases h with ⟨e, rfl, hsa⟩ | ⟨u, w1, hsa, h⟩
  · obtain ⟨msg, rfl, rfl, -⟩ := effect_error hsa
    exact .notSaved hsa (fun _ => Tidies.trans _ _ _ (tidies_tick w) (tidies_tick _))
  obtain ⟨-, rfl⟩ := effect_ok_iff.mp hsa
  generalize hw1 : World.tickTo _ _ = w1 at h hsa
  have hsav : Recorded env p state performed w w1 := by
    rw [← hw1]
    exact ⟨rfl, rfl, rfl, rfl, fun _ _ => rfl⟩
  have hrec : ∀ {r w2}, pruneBackups env (newState env p state performed w).backup w1 = (r, w2) →
      Recorded env p state performed w w2 := by
    intro r w2 hpru
    have hti := tidies_pruneBackups.ok hpru
    exact ⟨hti.host.trans hsav.host, hti.state.trans hsav.saved, hti.calls.trans hsav.calls,
      hti.names.trans hsav.names, fun n hn => (hti.kept n hn).trans (hsav.kept n hn)⟩
  rcases bind_cases h with ⟨e, rfl, hpru⟩ | ⟨u, w2, hpru, h⟩
  · obtain ⟨msg, rfl, -⟩ := pruneBackups_error hpru
    exact .notPruned hsa hpru (hrec hpru)
  · cases h
    obtain ⟨hho, hsa', hcal, hna, hke⟩ := hrec hpru
    exact .done hsa hpru ⟨hho, hsa', hcal, hna, hke⟩

/-! ## Everything an execution touches -/

theorem perform_within {ns : String → Prop} (hp : p.Within ns)
    {res : Except DepotError Performed} (h : perform env p state w = (res, w')) :
    HostFrame ns w.host w'.host ∧ CallsWithin ns w w' := by
  have happ : ∀ {w1 w2 : World} {r : Except String (List String)},
      apply env p w1 = (r, w2) → Frame ns (fun _ => False) w1 w2 :=
    fun hap => (frame_apply_within hp).ok hap
  cases perform_run h with
  | unchanged => exact ⟨.refl _ _, callsWithin_of_eq rfl⟩
  | refused _ hframe _ _ hcalls =>
    exact ⟨hframe.mono fun _ hn => hn.elim, hcalls.mono fun _ hn => hn.elim⟩
  | applied _ hmade hap =>
    exact ⟨(hmade.spec.1.mono fun _ hn => hn.elim).trans (happ hap).host,
      (hmade.calls.mono fun _ hn => hn.elim).trans (happ hap).calls⟩
  | restored _ hmade hap hrestore =>
    have hun : Frame ns (fun _ => False) _ w' := (frame_restore fun b hb =>
      hp.changes _ ((hmade.lists_iff b.module).mp ⟨b, hb, rfl⟩)).ok hrestore
    exact ⟨((hmade.spec.1.mono fun _ hn => hn.elim).trans (happ hap).host).trans
        hun.host,
      ((hmade.calls.mono fun _ hn => hn.elim).trans (happ hap).calls).trans hun.calls⟩

/-- **AN EXECUTION STAYS WITHIN ITS PLAN**, however it ends, and a plan with
problems touches nothing. -/
theorem execute_within {ns : String → Prop} (hp : p.Within ns) (h : execute env p w = (res, w')) :
    HostFrame ns w.host w'.host ∧ CallsWithin (fun n => p.plan.problems = [] ∧ ns n) w w' := by
  cases execute_run h with
  | stopped hti =>
    rw [(hti none).host]
    exact ⟨.refl _ _, callsWithin_of_eq (hti none).calls⟩
  | @failed e state w1 w2 hbegun hperform =>
    obtain ⟨-, -, hti⟩ := hbegun.spec
    have hrel := tidies_releaseLock env none w2
    obtain ⟨hfra, hcal⟩ := perform_within hp hperform
    rw [hrel.host, ← (hti none).host]
    exact ⟨hfra, ((callsWithin_of_eq (hti none).calls).trans
      (hcal.mono fun n hn => ⟨hbegun.clear, hn⟩)).trans (callsWithin_of_eq hrel.calls)⟩
  | @recorded state w1 w2 w3 performed _ hbegun hperform hrecord =>
    obtain ⟨-, -, hti⟩ := hbegun.spec
    have hrel := tidies_releaseLock env none w3
    obtain ⟨hfra, hcal⟩ := perform_within hp hperform
    obtain ⟨hho3, hca3⟩ : w3.host = w2.host ∧ w3.calls = w2.calls := by
      cases record_run hrecord with
      | notSaved _ htidy3 => exact ⟨(htidy3 none).host, (htidy3 none).calls⟩
      | notPruned _ _ hrec | done _ _ hrec => exact ⟨hrec.host, hrec.calls⟩
    rw [hrel.host, hho3, ← (hti none).host]
    exact ⟨hfra, ((callsWithin_of_eq (hti none).calls).trans
      (hcal.mono fun n hn => ⟨hbegun.clear, hn⟩)).trans
        (callsWithin_of_eq (hrel.calls.trans hca3))⟩

/-! ## The contract -/

section

variable (env : Env) (p : Prepared) (w : World)

/-- What an execution promises. On success every change has come true and the
state file holds the recorded state; on an error that does not admit a
failed rollback, modules and state file are as they were. -/
def Kept : Except DepotError Outcome × World → Prop
  | (.ok _, w') =>
    (∀ e ∈ p.plan.changes, RunsTarget w'.host e) ∧ ∃ backup installedAt, w'.disk.stateFile = some
        (recordState (w.disk.stateFile.getD HostState.initial) p backup installedAt)
  | (.error e, w') =>
    (∀ m, e ≠ .install m false) →
      w'.host.contents = w.host.contents ∧ w'.disk.stateFile = w.disk.stateFile

/-- What the promise needs of the plan and of the failing calls: no module is listed
with two targets, the state file can be written unless there is nothing to change, and
old backups can be pruned. -/
structure Recordable : Prop where
  agree : p.ChangesAgree
  saves : p.plan.changes = [] ∨ ∀ k, env.saveFails k = none
  prunes : ∀ k, env.pruneFails k = none

end

theorem perform_runsTarget_iff (hp : p.Sound) (h : perform env p state w = (.ok performed, w')) :
    (∀ e ∈ p.plan.changes, RunsTarget w'.host e) ↔ p.ChangesAgree := by
  rcases perform_ok h with ⟨hno, -, -⟩ | ⟨name, r, w1, -, happ, -⟩
  · simp only [Prepared.ChangesAgree, hno]
    exact ⟨fun _ _ he => (nomatch he), fun _ _ he => (nomatch he)⟩
  · exact apply_runsTarget_iff hp happ

theorem Recordable.kept (h : Recordable env p) (hp : p.Sound) (hbeg : Begun env p w state w1)
    (hper : perform env p state w1 = (.ok performed, w2))
    (hre : record env p state performed w2 = (res, w3)) : Kept p w (res, releaseLock env w3) := by
  obtain ⟨hsta, -, hti⟩ := hbeg.spec
  have hrel := tidies_releaseLock env none w3
  cases record_run hre with
  | notSaved hsave htidy3 =>
    obtain ⟨msg, -, -, hfails⟩ := effect_error hsave
    rcases h.saves with hno | hsaves
    · -- without changes `perform` has done nothing
      rw [perform, if_pos hno] at hper
      obtain ⟨-, rfl⟩ := Prod.mk.inj hper
      intro _
      rw [hrel.host, hrel.state, (htidy3 none).host, (htidy3 none).state, (hti none).host,
        (hti none).state]
      exact ⟨rfl, rfl⟩
    · cases (hsaves _).symm.trans hfails
  | notPruned _ hprune _ =>
    obtain ⟨msg, -, k, hfails⟩ := pruneBackups_error hprune
    cases (h.prunes k).symm.trans hfails
  | done _ _ hrec =>
    simp only [Kept, hrel.host, hrel.state, hrec.host, hrec.saved]
    refine ⟨(perform_runsTarget_iff hp hper).mpr h.agree, performed.backup, env.now w2.tick, ?_⟩
    rw [← hsta, newState]

theorem execute_of_begun (hbeg : Begun env p w state w1)
    (hper : perform env p state w1 = (.ok performed, w2))
    (hrec : record env p state performed w2 = (res, w3)) :
    execute env p w = (res, releaseLock env w3) := by
  obtain ⟨w0, hlock, hlo⟩ := hbeg.begun
  have hloc : executeLocked env p w0 = (res, w3) := by
    rw [executeLocked, bind_of_ok hlo, bind_of_ok hper, hrec]
  rw [execute, if_pos hbeg.clear, withLock, bind_of_ok hlock, guarded, hloc]

end

end Fenrir
