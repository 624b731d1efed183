import Fenrir.Depot.PlanExecution

/-! # Executions that go through

The phases of an execution in which nothing fails, one after the other. What is left is
`apply` itself (`execute_of_apply`). -/

namespace Fenrir

open Effect Effect.Act DepotProtocol

section

variable [DepotProtocol] {env : Env} {p : Prepared} {w w' : World} {state : HostState}

/-! ## The lock and the state -/

theorem takeLock_quiet (hq : Quiet env w.tick) (hlo : w.disk.locked = false) :
    ∃ w', takeLock env w = (.ok (), w') := by
  have hpro : effect env DepotError.io id id w = (.ok (), w.tickTo (w.tick + 1)) := effect_quiet hq
  have hre : (read (·.disk.locked) : Act World DepotError Bool) (w.tickTo (w.tick + 1))
      = (.ok false, w.tickTo (w.tick + 1)) := by rw [read_run, World.tickTo_disk, hlo]
  have hfr : takeLock env w = effect env DepotError.io id
      (fun w => { w with disk := { w.disk with locked := true } }) (w.tickTo (w.tick + 1)) := by
    rw [takeLock, bind_of_ok hpro, bind_of_ok hre]
    rfl
  exact ⟨_, hfr.trans (effect_quiet hq.next)⟩

theorem begun_quiet (hcle : p.plan.problems = []) (hq : Quiet env w.tick)
    (hloc : w.disk.locked = false) (hfor : w.state.format = stateFormat) :
    ∃ w', Begun env p w w.state w' := by
  obtain ⟨w0, hta⟩ := takeLock_quiet hq hloc
  have hti : Tidies none w w0 := tidies_takeLock.ok hta
  have hsta : w0.disk.stateFile.getD HostState.initial = w.state := by
    rw [hti.state, World.state]
  have hlo := load_quiet (hq.mono hti.tick _ (le_refl _)).1 (by rw [hsta]; exact hfor)
  rw [hsta] at hlo
  exact ⟨_, hcle, w0, hta, hlo⟩

/-! ## The backup -/

theorem checkStaged_quiet {stg : BTreeMap StagedBundle} (hq : Quiet env w.tick)
    (hloa : ∀ (n : String) s, stg[n]? = some s → Loads w.disk s) :
    ∃ w', checkStaged env stg w = (.ok (), w') := by
  have hrou : ∀ s ∈ stg.toList, ∀ a : World, Quiet env a.tick ∧ a.disk = w.disk →
      ∃ a', (do let _bundle ← loadBundle env s.2; pure () : Act World DepotError Unit) a
        = (.ok (), a') ∧ Quiet env a'.tick ∧ a'.disk = w.disk := by
    rintro s hs a ⟨ha, hd⟩
    have hget := Std.ExtTreeMap.mem_toList_iff_getElem?_eq_some.mp hs
    obtain ⟨b, hlo⟩ := loadBundle_quiet ha (by rw [hd]; exact hloa _ _ hget)
    refine ⟨a.tickTo (a.tick + 1), ?_, ha.next, hd⟩
    rw [bind_of_ok hlo]
    rfl
  obtain ⟨w', hall, -⟩ := each_returns hrou ⟨hq, rfl⟩
  exact ⟨w', hall⟩

omit [DepotProtocol] in
theorem Host.packaged_get {h : Host} {n : String} {m : { m : ModuleManifest // m.id = n }}
    {files : Bytes} (hp : h.packaged n = some (m, files)) :
    ∃ im, h.get n = some im ∧ im.manifest = m.val := by
  obtain ⟨im, him, hpa⟩ := Option.map_eq_some_iff.mp (Host.packaged_some hp)
  exact ⟨im, him, (Prod.mk.inj hpa).1⟩

/-- The depot can compare the version of the module, if it is installed. -/
def Comparable (h : Host) (n : String) : Prop :=
  ∀ m, h.get n = some m → ∃ v, fromManifest m.manifest.version = .ok v

theorem backedUp_returns {module archive : String}
    {manifest : { m : ModuleManifest // m.id = module }} {bytes : Bytes} {v : DepotVersion}
    (hv : fromManifest manifest.val.version = .ok v) :
    ∃ b, backedUp module manifest archive bytes = .ok b := by
  have hver : installedVersion module manifest.val.version false = .ok v :=
    installedVersion_of_fromManifest hv false
  simp only [backedUp]
  split
  · rename_i err herr
    rw [hver] at herr
    cases herr
  · exact ⟨_, rfl⟩

theorem backUpEntry_quiet {name : String} {e : PlanEntry} (hq : Quiet env w.tick)
    (hv : Comparable w.host e.module) : ∃ b w', backUpEntry env name e w = (.ok b, w') := by
  cases hp : w.host.packaged e.module with
  | none =>
    have hpa : backup env e.module name (archiveName e.module) w
        = (.ok none, w.tickTo (w.tick + 1)) := by
      rw [backup, bind_of_ok (read_run _ w), hp]
      exact bind_of_ok (effect_quiet hq)
    exact ⟨_, _, bind_of_ok (mapErr_ok_iff.mpr hpa)⟩
  | some packed =>
    obtain ⟨manifest, files⟩ := packed
    let w1 : World :=
      (setDir name (writeArchive (archiveName e.module) files) w).tickTo (w.tick + 1)
    have hpa : backup env e.module name (archiveName e.module) w = (.ok (some manifest), w1) := by
      rw [backup, bind_of_ok (read_run _ w), hp]
      exact bind_of_ok (effect_quiet hq)
    have hre : readFile env (.archive name (archiveName e.module)) w1
        = (.ok files, w1.tickTo (w1.tick + 1)) := by
      refine readFile_ok_iff.mpr ⟨(hq.next _ (le_refl _)).1, ?_, rfl⟩
      exact (file_writeArchive name _ _ files w).trans (if_pos rfl)
    obtain ⟨im, him, hman⟩ := Host.packaged_get hp
    obtain ⟨v, hver⟩ := hv im him
    rw [hman] at hver
    obtain ⟨b, hb⟩ := backedUp_returns hver
    refine ⟨b, w1.tickTo (w1.tick + 1), ?_⟩
    rw [backUpEntry, bind_of_ok (mapErr_ok_iff.mpr hpa)]
    show (readFile env (.archive name (archiveName e.module)) >>= _) w1 = _
    rw [bind_of_ok hre, lift_run, hb]

theorem backUpAs_quiet {name : String} (hq : Quiet env w.tick)
    (hv : ∀ e ∈ p.plan.changes, Comparable w.host e.module) :
    ∃ r w', backUpAs env p state name w = (.ok r, w') := by
  have hdir : createDir env name w = (.ok (), (setDir name id w).tickTo (w.tick + 1)) :=
    effect_quiet hq
  generalize hw1 : (setDir name id w).tickTo (w.tick + 1) = w1 at hdir
  have hq1 : Quiet env (w1.tickTo (w1.tick + 1)).tick := by
    rw [← hw1]
    exact hq.next.mono (Nat.le_succ _)
  have hrou : ∀ e ∈ p.plan.changes, ∀ a : World, Quiet env a.tick ∧ a.host = w.host →
      ∃ b a', backUpEntry env name e a = (.ok b, a') ∧ Quiet env a'.tick ∧ a'.host = w.host := by
    rintro e he a ⟨ha, hh⟩
    obtain ⟨b, a', hb⟩ := backUpEntry_quiet ha (by rw [hh]; exact hv e he)
    have hfra : Frame (fun _ => False) (name = ·) a a' := (frame_backUpEntry rfl e).ok hb
    exact ⟨b, a', hb, ha.after hfra, (backUpEntry_ok hb).1.trans hh⟩
  obtain ⟨bs, w2, hall, hq2, -⟩ := collect_returns hrou (s := w1.tickTo (w1.tick + 1))
    ⟨hq1, by rw [← hw1]; rfl⟩
  have hnow : (now env : Act World DepotError String) w1
      = (.ok (env.now w1.tick), w1.tickTo (w1.tick + 1)) := rfl
  rw [backUpAs, bind_of_ok hdir, bind_of_ok hnow, bind_of_ok hall]
  exact ⟨_, _, bind_of_ok (effect_quiet hq2)⟩

/-- **A BACKUP IS MADE** of any plan whose bundles are on disk and whose modules
can be packed. -/
theorem backupMade_quiet (hq : Quiet env w.tick)
    (hloa : ∀ (n : String) s, p.staged[n]? = some s → Loads w.disk s)
    (hv : ∀ e ∈ p.plan.changes, Comparable w.host e.module) :
    ∃ name r w', BackupMade env p state w name r w' := by
  obtain ⟨wa, hche⟩ := checkStaged_quiet hq hloa
  have hfra : Frame (fun _ => False) (fun _ => False) w wa := (frame_checkStaged _).ok hche
  have hnew : newName env p.plan.title wa
      = (.ok (backupName (env.now wa.tick) p.plan.title),
        { wa.tickTo (wa.tick + 1) with
          names := wa.names ++ [backupName (env.now wa.tick) p.plan.title] }) := rfl
  generalize hwb : ({ wa.tickTo (wa.tick + 1) with
    names := wa.names ++ [backupName (env.now wa.tick) p.plan.title] } : World) = wb at hnew
  have hqb : Quiet env wb.tick := by
    rw [← hwb]
    exact (hq.after hfra).next
  have hvb : ∀ e ∈ p.plan.changes, Comparable wb.host e.module := by
    intro e he m hm
    rw [← hwb] at hm
    exact hv e he m ((hfra.host.modules _ fun hn => hn).symm.trans hm)
  obtain ⟨r, w', hbac⟩ := backUpAs_quiet hqb hvb
  exact ⟨_, r, w', wa, wb, hche, hnew, hbac⟩

/-! ## The record -/

theorem pruneBackups_quiet (keep : Option String) (hq : Quiet env w.tick) :
    ∃ w', pruneBackups env keep w = (.ok (), w') := by
  have hrou : ∀ name ∈ (env.listing (w.tick + 1) w.disk.backups.keys).filter
      (fun name => some name ≠ keep), ∀ a : World, Quiet env a.tick →
      ∃ a', removeDir env.pruning name a = (.ok (), a') ∧ Quiet env a'.tick :=
    fun name _ a ha => ⟨_, effect_quiet ha.pruning, ha.next⟩
  obtain ⟨w', hall, -⟩ := each_returns hrou (s := w.tickTo (w.tick + 1)) hq.next
  refine ⟨w', ?_⟩
  rw [pruneBackups, bind_of_ok (effect_quiet hq.pruning), bind_of_ok (read_run _ _)]
  exact hall

variable (p state) in
theorem record_quiet (perf : Performed) (hq : Quiet env w.tick) :
    ∃ out w', record env p state perf w = (.ok out, w') := by
  have hnow : (now env : Act World DepotError String) w
      = (.ok (env.now w.tick), w.tickTo (w.tick + 1)) := rfl
  obtain ⟨w1, hsa, hq1⟩ : ∃ w1, save env (newState env p state perf w)
      (w.tickTo (w.tick + 1)) = (.ok (), w1) ∧ Quiet env w1.tick :=
    ⟨_, effect_quiet hq.next.saving, hq.next.mono (Nat.le_succ _)⟩
  obtain ⟨w2, hpru⟩ := pruneBackups_quiet (newState env p state perf w).backup hq1
  rw [record, bind_of_ok hnow]
  change ∃ out w', writeDown env p perf (newState env p state perf w) _ = _
  rw [writeDown, bind_of_ok hsa, bind_of_ok hpru]
  exact ⟨_, _, rfl⟩

/-! ## The whole -/

/-- **WHAT AN EXECUTION TURNS ON**: once begun and backed up, it returns when
`apply` does. -/
theorem execute_of_apply {w1 w2 w3 : World} {name : String} {r : BackupRecord}
    {migrations : List String} (hbeg : Begun env p w state w1) (hso : p.plan.changes ≠ [])
    (hma : BackupMade env p state w1 name r w2)
    (hap : apply env p w2 = (.ok migrations, w3)) (hq : Quiet env w3.tick) :
    ∃ out w4, execute env p w = (.ok out, w4) := by
  obtain ⟨wa, wb, hlo, hnew, hbac⟩ := hma.made
  have happ : applyOrRestore env p name r w2
      = (.ok { backup := some name, migrations }, w3) := by
    rw [applyOrRestore, bind_of_ok (attempt_of_run hap)]
    rfl
  have hper : perform env p state w1
      = (.ok { backup := some name, migrations }, w3) := by
    rw [perform, if_neg hso, bind_of_ok hlo, bind_of_ok hnew, bind_of_ok hbac, happ]
  obtain ⟨out, w4, hrec⟩ := record_quiet p state ⟨some name, migrations⟩ hq
  exact ⟨out, _, execute_of_begun hbeg hper hrec⟩

end

end Fenrir
