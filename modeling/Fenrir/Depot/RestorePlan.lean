import Fenrir.Depot.Completion

/-! # Applying a restore plan

`prepare_rollback` turns a backup record into a plan of its own: restore what was there,
remove what was not. Its `apply` is not the `restore` of a failed execution (other order,
other stops, no ignored errors), but it needs the same of the host. -/

namespace Fenrir

open Effect Effect.Act DepotProtocol List

section

variable [DepotProtocol] {env : Env} {q : Prepared} {w w' : World} {h0 : Host} {d : Disk}
  {name : String} {r : BackupRecord}

theorem planRestore_changes (title : String) (r : BackupRecord) (installed : List HostModule) :
    (planRestore title r installed).changes = (planRestore title r installed).entries := by
  refine filter_eq_self.mpr fun e he => ?_
  obtain ⟨b, -, rfl⟩ := mem_planRestore.mp he
  exact restoreEntry_changes installed b

theorem planRestore_names (title : String) (r : BackupRecord) (installed : List HostModule) :
    ((planRestore title r installed).changes.map (·.module)).Perm (r.modules.map (·.module)) := by
  have hpe : (planRestore title r installed).entries.Perm
      (r.modules.map (restoreEntry installed)) := perm_insertionSort _ _
  rw [planRestore_changes]
  refine (hpe.map _).trans ?_
  rw [map_map]
  exact .refl _

/-- `q` restores the backup `name`, which holds what `h₀` had. -/
structure RestoresFrom (q : Prepared) (name : String) (r : BackupRecord) (h0 : Host) (d : Disk) :
    Prop where
  plan : ∃ title installed, q.plan = planRestore title r installed
  bundle : ∀ n s, q.staged[n]? = some s →
    ∃ b ∈ r.modules, b.module = n ∧ BundleOf d name b (some (n, s))
  staged : ∀ b ∈ r.modules, b.previous.isSome = true → (q.staged[b.module]?).isSome = true
  held : ∀ b ∈ r.modules, HoldsBackup h0 d name b

namespace RestoresFrom

variable (hres : RestoresFrom q name r h0 d)
include hres

theorem sound : q.Sound := by
  obtain ⟨title, installed, hpl⟩ := hres.plan
  exact planRestore_sound hpl hres.bundle

theorem names : (q.plan.changes.map (·.module)).Perm (r.modules.map (·.module)) := by
  obtain ⟨title, installed, hpl⟩ := hres.plan
  rw [hpl]
  exact planRestore_names title r installed

theorem changes_ne (hso : r.modules ≠ []) : q.plan.changes ≠ [] := by
  intro hnil
  have hlen := hres.names.length_eq
  rw [hnil, length_map, length_map] at hlen
  exact hso (length_eq_zero_iff.mp hlen.symm)

variable {e : PlanEntry} {b : BackupModule}

theorem of_change (he : e ∈ q.plan.changes) :
    ∃ b ∈ r.modules, ∃ installed, e = restoreEntry installed b := by
  obtain ⟨title, installed, hpl⟩ := hres.plan
  rw [hpl, planRestore_changes] at he
  obtain ⟨b, hb, heq⟩ := mem_planRestore.mp he
  exact ⟨b, hb, installed, heq⟩

theorem isSome (hb : b ∈ r.modules) : (q.staged[b.module]?).isSome = b.previous.isSome :=
  staged_isSome hres.held hres.bundle hres.staged hb

theorem remove_iff (hb : b ∈ r.modules) (installed : List HostModule) :
    (restoreEntry installed b).action = .remove ↔ q.staged[b.module]? = none := by
  rw [← Option.not_isSome_iff_eq_none, hres.isSome hb]
  show (if b.previous.isSome then Action.restore else Action.remove) = .remove ↔ _
  cases b.previous with
  | none => exact ⟨nofun, fun _ => rfl⟩
  | some prev => exact ⟨nofun, fun h => absurd rfl h⟩

theorem ne_remove {s : StagedBundle} (hb : b ∈ r.modules) (installed : List HostModule)
    (hs : q.staged[b.module]? = some s) : (restoreEntry installed b).action ≠ .remove := by
  rw [Ne, hres.remove_iff hb installed, hs]
  exact Option.some_ne_none s

theorem write (he : e ∈ q.plan.changes) :
    swapWrite q.staged d e = (e.module, h0.contents e.module) := by
  obtain ⟨b, hb, installed, rfl⟩ := hres.of_change he
  rw [swapWrite]
  cases hs : q.staged[(restoreEntry installed b).module]? with
  | none =>
    rw [if_pos ((hres.remove_iff hb installed).mpr hs)]
    have hpr : b.previous.isSome = false := by
      rw [← hres.isSome hb]
      exact congrArg Option.isSome hs
    have hget := (hres.held b hb).isSome
    rw [hpr, Eq.comm, Option.isSome_eq_false_iff, Option.isNone_iff_eq_none] at hget
    rw [Host.contents, show h0.get (restoreEntry installed b).module = none from hget]
    rfl
  | some s =>
    have hne := hres.ne_remove hb installed hs
    rw [if_neg hne, Option.bind_some, restored_content hres.held hres.bundle hs]

theorem round [LawfulDepotProtocol] (he : e ∈ q.plan.changes) :
    SwapRound env d (fun n => (q.staged[n]?).isNone) e.module (swapEntry env q.staged e) := by
  obtain ⟨b, hb, installed, rfl⟩ := hres.of_change he
  cases hs : q.staged[(restoreEntry installed b).module]? with
  | none =>
    refine Or.inl ⟨by simp only [hs]; rfl, ?_⟩
    rw [swapEntry, if_pos ((hres.remove_iff hb installed).mpr hs)]
  | some s =>
    obtain ⟨b', hb', -, hof⟩ := hres.bundle _ s hs
    have hne := hres.ne_remove hb installed hs
    refine Or.inr ⟨by simp only [hs]; rfl, s, ?_, restored_named hres.bundle _ s hs,
      (hres.held b' hb').loads hof⟩
    rw [swapEntry, if_neg hne, hs]

theorem migrations : (q.plan.changes.filter (·.migrations ≠ [])).map (·.module) = [] := by
  rw [map_eq_nil_iff, filter_eq_nil_iff]
  intro e he
  obtain ⟨b, -, installed, rfl⟩ := hres.of_change he
  simp [restoreEntry]

theorem mem_started {n : String} :
    n ∈ q.started ↔ ∃ b ∈ r.modules, b.previous.isSome = true ∧ b.module = n := by
  have hke : ∀ b ∈ r.modules, ∀ installed, (restoreEntry installed b).action ≠ .remove ↔
      b.previous.isSome = true := by
    intro b hb installed
    rw [Ne, hres.remove_iff hb installed, ← Option.not_isSome_iff_eq_none, not_not, hres.isSome hb]
  constructor
  · intro hn
    obtain ⟨e, he, rfl⟩ := mem_map.mp hn
    obtain ⟨hmem, hne⟩ := mem_filter.mp he
    obtain ⟨b, hb, installed, rfl⟩ := hres.of_change hmem
    exact ⟨b, hb, (hke b hb installed).mp (by simpa using hne), rfl⟩
  · rintro ⟨b, hb, hpr, rfl⟩
    have hmem : b.module ∈ q.plan.changes.map (·.module) :=
      hres.names.mem_iff.mpr (mem_map.mpr ⟨b, hb, rfl⟩)
    obtain ⟨e, he, hmod⟩ := mem_map.mp hmem
    obtain ⟨b', hb', installed, rfl⟩ := hres.of_change he
    have hmod : b'.module = b.module := hmod
    have hne : (restoreEntry installed b').action ≠ .remove := by
      rw [hke b' hb' installed, ← hres.isSome hb', hmod, hres.isSome hb]
      exact hpr
    exact mem_map.mpr ⟨_, mem_filter.mpr ⟨he, by simpa using hne⟩, hmod⟩

end RestoresFrom

variable {n : String}

theorem run_restores (hres : RestoresFrom q name r h0 d) (store : String → _) (hn : r.Lists n) :
    Writes.run store (q.plan.changes.map (swapWrite q.staged d)) n = h0.contents n := by
  obtain ⟨b, hb, rfl⟩ := hn
  have hmem : b.module ∈ q.plan.changes.map (·.module) :=
    hres.names.mem_iff.mpr (mem_map.mpr ⟨b, hb, rfl⟩)
  obtain ⟨e, he, hmod⟩ := mem_map.mp hmem
  refine Writes.run_of_agree ?_ ⟨_, mem_map.mpr ⟨e, he, rfl⟩, ?_⟩ store
  · intro wr hwr hkey
    obtain ⟨e', he', rfl⟩ := mem_map.mp hwr
    rw [hres.write he'] at hkey ⊢
    exact congrArg h0.contents hkey
  · rw [hres.write he]
    exact hmod

theorem apply_restore_contents (hres : RestoresFrom q name r h0 w.disk) {migrations : List String}
    (h : apply env q w = (.ok migrations, w')) (hn : r.Lists n) :
    w'.host.contents n = h0.contents n := by
  obtain ⟨-, hcon, -⟩ := apply_contents hres.sound h
  rw [hcon]
  exact run_restores hres _ hn

theorem each_roll_quiet (es : List PlanEntry) (hq : Quiet env w.tick) :
    ∃ w', each (fun e => rollingRestart env e.module) es w = (.ok (), w') ∧ Quiet env w'.tick :=
  each_returns (I := fun a : World => Quiet env a.tick)
    (fun _ _ _ ha => ⟨_, hostCall_quiet ha, ha.next⟩) hq

theorem restart_restored (hq : Quiet env w.tick) (hres : RestoresFrom q name r h0 d)
    (hdev : ∀ b ∈ r.modules, b.previous.isSome = true → b.module ∉ w.host.dev)
    (hcon : ∀ n, r.Lists n → w.host.contents n = h0.contents n) : ∃ migrations w', (do
      let applied ← migrate env ((q.plan.changes.filter (·.migrations ≠ [])).map (·.module))
      start env q.started
      each (fun e => rollingRestart env e.module) (q.plan.changes.filter (·.restart = .rolling))
      each (waitHealthy env) q.started
      pure applied : Act World String (List String)) w = (.ok migrations, w') := by
  have hmig : migrate env ((q.plan.changes.filter (·.migrations ≠ [])).map (·.module)) w
      = (.ok [], w) := by
    rw [hres.migrations, migrate, if_pos rfl]
    rfl
  obtain ⟨w1, hsta⟩ := start_quiet q.started hq
  have hfra : Frame (fun _ => True) (fun _ => False) w w1 :=
    (frame_start fun _ _ => trivial).ok hsta
  obtain ⟨w2, hro, hq2⟩ := each_roll_quiet (q.plan.changes.filter (·.restart = .rolling))
    (hq.after hfra)
  have hru : ∀ n ∈ q.started, w2.host.runs n = true := by
    intro n hn
    obtain ⟨b, hb, hpr, rfl⟩ := hres.mem_started.mp hn
    have hget : (w.host.get b.module).isSome = true := by
      have hso := congrArg Option.isSome (hcon _ ⟨b, hb, rfl⟩)
      rw [Host.contents, Host.contents, Option.isSome_map, Option.isSome_map,
        ← (hres.held b hb).isSome, hpr] at hso
      exact hso
    rw [(each_roll_ok hro).1, start_host hsta]
    exact Host.runs_foldl_ensured (mem_startOrder.mpr hn) (hdev b hb hpr) hget
  obtain ⟨w3, hwa⟩ := (each_wait_returns_iff hq2).mpr hru
  rw [bind_of_ok hmig, bind_of_ok hsta, bind_of_ok hro, bind_of_ok hwa]
  exact ⟨_, _, rfl⟩

/-- **WHEN A RESTORE PLAN CAN BE APPLIED.** With an intact backup, no failing
effect and no dev override on what comes back: exactly when every module to
remove is installed and listed once. -/
theorem apply_restore_iff [LawfulDepotProtocol] (hq : Quiet env w.tick)
    (hres : RestoresFrom q name r h0 w.disk)
    (hdev : ∀ b ∈ r.modules, b.previous.isSome = true → b.module ∉ w.host.dev) :
    (∃ migrations w', apply env q w = (.ok migrations, w')) ↔
      (∀ b ∈ r.modules, b.previous = none → (w.host.get b.module).isSome = true) ∧
        ((r.modules.filter (·.previous.isNone)).map (·.module)).Nodup := by
  have hst : ∀ e ∈ q.plan.changes.filter (fun e => e.restart = .restart ∨ e.restart = .stop),
      ∀ a : World, Quiet env a.tick → stop env e.module a
        = (.ok (), (logCall (.stop e.module) (onHost (·.stop e.module) a)).tickTo (a.tick + 1)) :=
    fun _ _ _ ha => stop_quiet ha
  obtain ⟨w1, hsto, hq1, hd1, hde1, hge1⟩ := each_stops_quiet (g := PlanEntry.module) hst hq
  have hrou : ∀ e ∈ q.plan.changes, SwapRound env w.disk (fun n => (q.staged[n]?).isNone)
      e.module (swapEntry env q.staged e) := fun e he => hres.round he
  have hsw := each_swap_iff hrou hq1 hd1
  rw [Removable.perm hres.names, removable_iff fun b hb => hres.isSome hb] at hsw
  simp only [hge1] at hsw
  rw [← hsw, apply, bind_of_ok hsto]
  constructor
  · rintro ⟨migrations, w', h⟩
    obtain ⟨u, w2, hput, -⟩ := bind_ok_iff.mp h
    exact ⟨w2, hput⟩
  · rintro ⟨w2, hput⟩
    have hfra : Frame (fun _ => True) (fun _ => False) w1 w2 :=
      (frame_steady.each fun e _ => frame_swapEntry trivial fun _ _ => trivial).ok hput
    obtain ⟨-, hcon⟩ := each_writes (g := swapWrite q.staged w.disk)
      (fun e _ a c ha hab => by
        rw [← ha]
        exact swapEntry_ok (restored_named hres.bundle) hab) hd1 hput
    rw [bind_of_ok hput]
    refine restart_restored (hq1.after hfra) hres ?_ ?_
    · rw [hfra.host.dev, hde1]
      exact hdev
    · intro n hn
      rw [hcon]
      exact run_restores hres _ hn

end

end Fenrir
