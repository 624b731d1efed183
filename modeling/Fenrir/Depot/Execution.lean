import Fenrir.Depot.Installer

/-! # What an execution does to the modules

The effects of `perform` in the terms of the abstract store
(`Host.contents`, `Lib/Writes`). -/

namespace Fenrir

open Effect Effect.Act DepotProtocol List Function

theorem Host.packaged_none {h : Host} {n : String} (hp : h.packaged n = none) :
    h.contents n = none := by
  simp only [Host.packaged] at hp
  split at hp
  · rename_i hg
    rw [Host.contents, hg]
    rfl
  · cases hp

theorem Host.packaged_some {h : Host} {n : String} {m : { m : ModuleManifest // m.id = n }}
    {files : Bytes} (hp : h.packaged n = some (m, files)) : h.contents n = some (m.val, files) := by
  simp only [Host.packaged] at hp
  split at hp
  · cases hp
  · rename_i m' hg
    obtain ⟨hm, hf⟩ := Prod.mk.inj (Option.some.inj hp)
    rw [Host.contents, hg, ← hm, ← hf]
    rfl

theorem archiveName_injective {a b : String} (h : archiveName a = archiveName b) : a = b := by
  have hl := congrArg String.toList h
  simp only [archiveName, String.toList_append, toString] at hl
  exact String.toList_inj.mp (by simpa using hl)

section

variable {bundles : List (String × StagedBundle)} {n : String}

theorem stagedMap_append (l : List (String × StagedBundle)) (b : String × StagedBundle) :
    stagedMap (l ++ [b]) = (stagedMap l).insert b.1 b.2 := by
  simp [stagedMap, foldl_append]

theorem stagedMap_mem {s : StagedBundle} (h : (stagedMap bundles)[n]? = some s) :
    (n, s) ∈ bundles := by
  induction bundles using List.reverseRecOn with
  | nil => simp [stagedMap] at h
  | append_singleton l b ih =>
    rw [stagedMap_append, BTreeMap.get_insert] at h
    by_cases hb : b.1 = n
    · rw [if_pos hb] at h
      rw [← Option.some.inj h, ← hb]
      simp
    · rw [if_neg hb] at h
      exact mem_append_left _ (ih h)

theorem stagedMap_isSome {s : StagedBundle} (h : (n, s) ∈ bundles) :
    ((stagedMap bundles)[n]?).isSome = true := by
  induction bundles using List.reverseRecOn with
  | nil => cases h
  | append_singleton l b ih =>
    rw [stagedMap_append, BTreeMap.get_insert]
    by_cases hb : b.1 = n
    · rw [if_pos hb]
      rfl
    · rw [if_neg hb]
      rcases mem_append.mp h with hold | hla
      · exact ih hold
      · rw [← mem_singleton.mp hla] at hb
        exact absurd rfl hb

end

variable [DepotProtocol] {env : Env} {p : Prepared} {w w' : World}

/-- What every prepared plan satisfies: a staged bundle carries the name it is
staged under and the version some change of that name asks for, and the
changes without a target are the removals. -/
structure Prepared.Sound (p : Prepared) : Prop where
  staged_named : ∀ (n : String) (s : StagedBundle), p.staged[n]? = some s → s.manifest.id = n
  staged_target : ∀ (n : String) (s : StagedBundle), p.staged[n]? = some s →
    ∃ e ∈ p.plan.changes, e.module = n ∧ ∃ v, e.target = some v ∧ fromManifest s.manifest.version = .ok v
  removals : ∀ e ∈ p.plan.changes, e.action = .remove ↔ e.target = none

/-- The plan changes this module. -/
def Prepared.Changes (p : Prepared) (n : String) : Prop := ∃ e ∈ p.plan.changes, e.module = n

/-- The modules a plan changes, and the modules its bundles name, are in `ns`. -/
structure Prepared.Within (p : Prepared) (ns : String → Prop) : Prop where
  changes : ∀ n, p.Changes n → ns n
  staged : ∀ (n : String) (s : StagedBundle), p.Changes n → p.staged[n]? = some s → ns s.manifest.id

theorem Prepared.Sound.within (hp : p.Sound) : p.Within p.Changes := by
  refine ⟨fun _ hn => hn, fun n s hn hs => ?_⟩
  rw [hp.staged_named n s hs]
  exact hn

theorem Prepared.within_true (p : Prepared) : p.Within (fun _ => True) :=
  ⟨fun _ _ => trivial, fun _ _ _ _ => trivial⟩

def BackupRecord.Lists (r : BackupRecord) (n : String) : Prop := ∃ b ∈ r.modules, b.module = n

/-! ## Reading bundles -/

section

variable {R : World → World → Prop} (hR : Steady R)
include hR

theorem Steady.loadBundle (s : StagedBundle) : Keeps R (Fenrir.loadBundle env s) :=
  hR.bind (hR.readFile _) (fun _ => hR.bind (hR.lift _) (fun _ => hR.pure _))

theorem Steady.restoreBundle (name : String) (b : BackupModule) :
    Keeps R (Fenrir.restoreBundle env name b) := by
  cases hpr : b.previous with
  | none =>
    simp only [Fenrir.restoreBundle, hpr]
    exact hR.pure _
  | some prev =>
    cases hdig : parseDigest prev.archiveSha256 with
    | error err =>
      simp only [Fenrir.restoreBundle, hpr, hdig]
      exact hR.fail _
    | ok digest =>
      simp only [Fenrir.restoreBundle, hpr, hdig]
      exact hR.bind (hR.readFile _) (fun _ => hR.pure _)

theorem Steady.restoreBundles (name : String) (r : BackupRecord) :
    Keeps R (Fenrir.restoreBundles env name r) :=
  hR.bind (hR.collect fun b _ => hR.restoreBundle name b) (fun _ => hR.pure _)

end

/-! ## Frames -/

section

variable {ns ds : String → Prop}

theorem loadBundle_manifest {s : StagedBundle} {b : ModuleBundle}
    (h : loadBundle env s w = (.ok b, w')) : b.manifest = s.manifest := by
  obtain ⟨bytes, w1, -, h⟩ := bind_ok_iff.mp h
  obtain ⟨u, w2, -, h⟩ := bind_ok_iff.mp h
  rw [← Except.ok.inj (Prod.mk.inj h).1]

theorem frame_installBundle {s : StagedBundle} {n : String} (hn : ns n) (hs : s.manifest.id = n) :
    Keeps (Frame ns ds) (installBundle env s) := by
  refine keeps_bind_of_ok Frame.trans (frame_mapErr (frame_steady.loadBundle s)) ?_
  intro w b w1 hl
  refine frame_activate hn ?_ w1
  rw [loadBundle_manifest (mapErr_ok_iff.mp hl)]
  exact hs

theorem frame_swapEntry {staged : BTreeMap StagedBundle} {e : PlanEntry} (he : ns e.module)
    (hsta : ∀ s, staged[e.module]? = some s → ns s.manifest.id) :
    Keeps (Frame ns ds) (swapEntry env staged e) := by
  simp only [swapEntry]
  split
  · exact frame_remove he
  · split
    · exact frame_steady.fail _
    · rename_i s hs
      exact frame_installBundle (hsta s hs) rfl

theorem frame_migrate (ms : List String) : Keeps (Frame ns ds) (migrate env ms) := by
  by_cases hms : ms = []
  · rw [migrate, if_pos hms]
    exact frame_steady.pure _
  · rw [migrate, if_neg hms]
    exact frame_applyMigrations ms

theorem frame_apply_within (hp : p.Within ns) : Keeps (Frame ns ds) (apply env p) := by
  obtain ⟨hcha, hsta⟩ := hp
  have hst : ∀ n ∈ p.started, ns n := by
    intro n hn
    obtain ⟨e, he, rfl⟩ := mem_map.mp hn
    exact hcha _ ⟨e, (mem_filter.mp he).1, rfl⟩
  refine frame_steady.bind (frame_steady.each fun e he => ?_) (fun _ => ?_)
  · exact frame_stop (hcha _ ⟨e, (mem_filter.mp he).1, rfl⟩)
  refine frame_steady.bind (frame_steady.each fun e he => ?_) (fun _ => ?_)
  · exact frame_swapEntry (hcha _ ⟨e, he, rfl⟩) fun s => hsta _ s ⟨e, he, rfl⟩
  refine frame_steady.bind (frame_migrate _) (fun _ => ?_)
  refine frame_steady.bind (frame_start hst) (fun _ => ?_)
  refine frame_steady.bind (frame_steady.each fun e he => ?_) (fun _ => ?_)
  · exact frame_rollingRestart (hcha _ ⟨e, (mem_filter.mp he).1, rfl⟩)
  exact frame_steady.bind (frame_steady.each fun n hn => frame_waitHealthy (hst n hn))
    (fun _ => frame_steady.pure _)

/-- **APPLY STAYS WITHIN ITS CHANGES**, however it ends. -/
theorem frame_apply (hp : p.Sound) : Keeps (Frame p.Changes ds) (apply env p) :=
  frame_apply_within hp.within

theorem frame_tryStop {n : String} (hn : ns n) : Keeps (Frame ns ds) (tryStop env n) :=
  frame_steady.bind (keeps_attempt (frame_stop hn)) (fun _ => frame_steady.pure _)

/-- A bundle is staged from a backup under the module's own name. -/
def NamedBundles (staged : BTreeMap StagedBundle) : Prop :=
  ∀ (n : String) (s : StagedBundle), staged[n]? = some s → s.manifest.id = n

theorem frame_restoreModule {staged : BTreeMap StagedBundle} (hsta : NamedBundles staged)
    {b : BackupModule} (hb : ns b.module) : Keeps (Frame ns ds) (restoreModule env staged b) := by
  cases hs : staged[b.module]? with
  | none =>
    simp only [restoreModule, hs]
    exact frame_remove hb
  | some s =>
    simp only [restoreModule, hs]
    exact frame_installBundle hb (hsta _ s hs)

end

/-! ## The bundles of a backup -/

/-- What `restore_bundles` makes of one module of the record. -/
def BundleOf (d : Disk) (name : String) (b : BackupModule)
    (r : Option (String × StagedBundle)) : Prop :=
  (b.previous = none ∧ r = none) ∨ ∃ prev s bytes, b.previous = some prev ∧ r = some (b.module, s) ∧
      s.manifest = prev.manifest ∧ s.path = .archive name prev.archive ∧
      parseDigest prev.archiveSha256 = .ok s.sha256 ∧ d.file s.path = some bytes ∧
      s.size = bytes.length

theorem restoreBundle_ok {name : String} {b : BackupModule}
    {r : Option (String × StagedBundle)} (h : restoreBundle env name b w = (.ok r, w')) :
    BundleOf w.disk name b r ∧ w'.host = w.host ∧ w'.disk = w.disk := by
  cases hpr : b.previous with
  | none =>
    simp only [restoreBundle, hpr] at h
    cases h
    exact ⟨Or.inl ⟨hpr, rfl⟩, rfl, rfl⟩
  | some prev =>
    cases hdig : parseDigest prev.archiveSha256 with
    | error err =>
      simp only [restoreBundle, hpr, hdig] at h
      cases h
    | ok digest =>
      simp only [restoreBundle, hpr, hdig] at h
      obtain ⟨bytes, w1, hre, h⟩ := bind_ok_iff.mp h
      obtain ⟨-, hfi, rfl⟩ := readFile_ok_iff.mp hre
      cases h
      exact ⟨Or.inr ⟨prev, _, bytes, hpr, rfl, rfl, rfl, hdig, hfi, rfl⟩, rfl, rfl⟩

theorem restoreBundles_ok {name : String} {r : BackupRecord} {staged : BTreeMap StagedBundle}
    (h : restoreBundles env name r w = (.ok staged, w')) : w'.host = w.host ∧ w'.disk = w.disk ∧
      (∀ n s, staged[n]? = some s →
        ∃ b ∈ r.modules, b.module = n ∧ BundleOf w.disk name b (some (n, s))) ∧
      ∀ b ∈ r.modules, b.previous.isSome = true → (staged[b.module]?).isSome = true := by
  obtain ⟨bundles, w1, hcol, h⟩ := bind_ok_iff.mp h
  cases h
  obtain ⟨⟨hho, hdi⟩, hall⟩ := collect_ok
    (I := fun w1 => w1.host = w.host ∧ w1.disk = w.disk)
    (P := fun b r _ => BundleOf w.disk name b r)
    (fun b _ c s s' hI hb => by
      obtain ⟨hbundle, hh, hd⟩ := restoreBundle_ok hb
      rw [hI.2] at hbundle
      exact ⟨⟨hh.trans hI.1, hd.trans hI.2⟩, hbundle⟩)
    (fun _ _ _ _ _ _ _ _ hP _ => hP) hcol ⟨rfl, rfl⟩
  refine ⟨hho, hdi, ?_, ?_⟩
  · intro n s hs
    obtain ⟨r', hr', hrs⟩ := mem_filterMap.mp (stagedMap_mem hs)
    obtain ⟨b, hb, hbundle⟩ := Sequences.forall₂_right_mem hall hr'
    rw [show r' = some (n, s) from hrs] at hbundle
    refine ⟨b, hb, ?_, hbundle⟩
    rcases hbundle with ⟨-, hno⟩ | ⟨prev, s', bytes, -, hso, -⟩
    · cases hno
    · exact (Prod.mk.inj (Option.some.inj hso)).1.symm
  · intro b hb hpr
    obtain ⟨r', hr', hbundle⟩ := Sequences.forall₂_left_mem hall hb
    rcases hbundle with ⟨hno, -⟩ | ⟨prev, s, bytes, -, hso, -⟩
    · rw [hno] at hpr
      cases hpr
    · refine stagedMap_isSome (s := s) (mem_filterMap.mpr ⟨r', hr', ?_⟩)
      rw [hso]
      rfl

/-! ## Apply as a list of writes -/

def stagedContent (d : Disk) (s : StagedBundle) : Option (ModuleManifest × Bytes) :=
  (d.file s.path).map fun bytes => (s.manifest, bytes)

theorem loadBundle_ok_iff {s : StagedBundle} {b : ModuleBundle} : loadBundle env s w = (.ok b, w') ↔
      ∃ bytes, env.fails w.tick = none ∧ w.disk.file s.path = some bytes ∧
        checkBytes bytes s.sha256 s.size = .ok () ∧ w' = w.tickTo (w.tick + 1) ∧
        b = { manifest := s.manifest, archive := bytes, signature := [],
              checksum := s.sha256.asBytes } := by
  constructor
  · intro h
    obtain ⟨bytes, w1, hre, h⟩ := bind_ok_iff.mp h
    obtain ⟨hqui, hfi, rfl⟩ := readFile_ok_iff.mp hre
    obtain ⟨u, w2, hche, h⟩ := bind_ok_iff.mp h
    obtain ⟨hok, rfl⟩ := Prod.mk.inj hche
    cases h
    exact ⟨bytes, hqui, hfi, hok, rfl, rfl⟩
  · rintro ⟨bytes, hqui, hfi, hche, rfl, rfl⟩
    have hre := readFile_ok_iff.mpr ⟨hqui, hfi, rfl⟩
    rw [loadBundle, bind_of_ok hre, lift_bind_ok hche]
    rfl

theorem installBundle_ok {s : StagedBundle} (h : installBundle env s w = (.ok (), w')) :
    w'.disk = w.disk ∧ w'.host.contents
      = update w.host.contents s.manifest.id (stagedContent w.disk s) := by
  obtain ⟨b, w1, hlo, h⟩ := bind_ok_iff.mp h
  obtain ⟨bytes, -, hfi, -, rfl, rfl⟩ := loadBundle_ok_iff.mp (mapErr_ok_iff.mp hlo)
  obtain ⟨hho, hdi⟩ := hostCall_ok h
  refine ⟨hdi, ?_⟩
  rw [hho, Host.contents_activate, World.tickTo_host]
  simp only [stagedContent, hfi, Option.map_some]

/-- A loop whose rounds each write one key, from the same disk, is that list of
writes. -/
theorem each_writes {β : Type} {f : β → Act World String Unit} {d : Disk}
    {g : β → String × Option (ModuleManifest × Bytes)} {bs : List β}
    (hf : ∀ b ∈ bs, ∀ w w', w.disk = d → f b w = (.ok (), w') → w'.disk = w.disk ∧
      w'.host.contents = update w.host.contents (g b).1 (g b).2)
    (hd : w.disk = d) (h : each f bs w = (.ok (), w')) :
    w'.disk = d ∧ w'.host.contents = Writes.run w.host.contents (bs.map g) := by
  induction bs generalizing w with
  | nil =>
    rw [← (Prod.mk.inj h).2]
    exact ⟨hd, rfl⟩
  | cons b bs ih =>
    obtain ⟨u, w1, hb, hre⟩ := bind_ok_iff.mp h
    obtain ⟨hd1, hc1⟩ := hf b mem_cons_self w w1 hd hb
    obtain ⟨hd', hc'⟩ := ih (fun b' hb' => hf b' (mem_cons_of_mem _ hb')) (hd1.trans hd) hre
    refine ⟨hd', ?_⟩
    rw [hc', hc1, map_cons, Writes.run_cons]

def swapWrite (staged : BTreeMap StagedBundle) (d : Disk) (e : PlanEntry) :
    String × Option (ModuleManifest × Bytes) :=
  (e.module, if e.action = .remove then none else (staged[e.module]?).bind (stagedContent d))

theorem swapEntry_ok {staged : BTreeMap StagedBundle} (hsta : NamedBundles staged)
    {e : PlanEntry} (h : swapEntry env staged e w = (.ok (), w')) :
    w'.disk = w.disk ∧ w'.host.contents = update w.host.contents
      (swapWrite staged w.disk e).1 (swapWrite staged w.disk e).2 := by
  by_cases hr : e.action = .remove
  · simp only [swapEntry, if_pos hr] at h
    obtain ⟨-, hho, hdi⟩ := remove_ok h
    refine ⟨hdi, ?_⟩
    rw [hho, Host.contents_erase, swapWrite, if_pos hr]
  · cases hs : staged[e.module]? with
    | none =>
      simp only [swapEntry, if_neg hr, hs] at h
      cases (Prod.mk.inj h).1
    | some s =>
      simp only [swapEntry, if_neg hr, hs] at h
      obtain ⟨hdi, hc⟩ := installBundle_ok h
      refine ⟨hdi, ?_⟩
      rw [hc, hsta _ s hs, swapWrite, if_neg hr, hs]
      rfl

theorem each_stop_ok {β : Type} {name : β → String} {bs : List β}
    (h : each (fun b => stop env (name b)) bs w = (.ok (), w')) :
    w'.host.contents = w.host.contents ∧ w'.disk = w.disk := by
  refine each_ok_keeps (P := fun w' => w'.host.contents = w.host.contents ∧ w'.disk = w.disk)
    ?_ h ⟨rfl, rfl⟩
  rintro b - a c ⟨hc, hd⟩ hstop
  obtain ⟨hho, hdi⟩ := hostCall_ok hstop
  refine ⟨?_, hdi.trans hd⟩
  rw [hho, Host.contents_stop, hc]

theorem each_roll_ok {es : List PlanEntry}
    (h : each (fun e => rollingRestart env e.module) es w = (.ok (), w')) :
    w'.host = w.host ∧ w'.disk = w.disk := by
  refine each_ok_keeps (P := fun w' => w'.host = w.host ∧ w'.disk = w.disk) ?_ h ⟨rfl, rfl⟩
  rintro e - a c ⟨hh, hd⟩ hroll
  obtain ⟨hho, hdi⟩ := hostCall_ok hroll
  exact ⟨hho.trans hh, hdi.trans hd⟩

theorem each_wait_ok {ms : List String} (h : each (waitHealthy env) ms w = (.ok (), w')) :
    w'.host = w.host ∧ w'.disk = w.disk ∧ ∀ n ∈ ms, w'.host.runs n = true := by
  have hsa : w'.host = w.host ∧ w'.disk = w.disk := by
    refine each_ok_keeps (P := fun w' => w'.host = w.host ∧ w'.disk = w.disk) ?_ h ⟨rfl, rfl⟩
    rintro n - a c ⟨hh, hd⟩ hwa
    obtain ⟨-, hho, hdi⟩ := waitHealthy_ok hwa
    exact ⟨hho.trans hh, hdi.trans hd⟩
  refine ⟨hsa.1, hsa.2, each_ok (I := fun _ => True) (P := fun n w => w.host.runs n = true)
    ?_ ?_ h trivial⟩
  · intro n _ a c _ hwa
    obtain ⟨hru, hho, -⟩ := waitHealthy_ok hwa
    rw [hho]
    exact ⟨trivial, hru⟩
  · intro n n' _ a c _ hru hwa
    obtain ⟨-, hho, -⟩ := waitHealthy_ok hwa
    rw [hho]
    exact hru

theorem migrate_ok {ms applied : List String} (h : migrate env ms w = (.ok applied, w')) :
    w'.host = w.host ∧ w'.disk = w.disk := by
  by_cases hms : ms = []
  · rw [migrate, if_pos hms] at h
    cases h
    exact ⟨rfl, rfl⟩
  · rw [migrate, if_neg hms] at h
    obtain ⟨-, h⟩ := effect_bind_ok h
    cases h
    exact ⟨rfl, rfl⟩

/-- **APPLY IS ITS WRITES**: an `apply` that returns wrote what the changes of
its plan say, in order, and everything it started runs. -/
theorem apply_contents (hp : p.Sound) {applied : List String}
    (h : apply env p w = (.ok applied, w')) : w'.disk = w.disk ∧ w'.host.contents
        = Writes.run w.host.contents (p.plan.changes.map (swapWrite p.staged w.disk)) ∧
      ∀ n ∈ p.started, w'.host.runs n = true := by
  obtain ⟨u, w1, hst, h⟩ := bind_ok_iff.mp h
  obtain ⟨hc1, hd1⟩ := each_stop_ok hst
  obtain ⟨u, w2, hsw, h⟩ := bind_ok_iff.mp h
  obtain ⟨hd2, hc2⟩ := each_writes (g := swapWrite p.staged w.disk)
    (fun e _ a c ha he => by rw [← ha]; exact swapEntry_ok hp.staged_named he) hd1 hsw
  obtain ⟨ms, w3, hmig, h⟩ := bind_ok_iff.mp h
  obtain ⟨hh3, hd3⟩ := migrate_ok hmig
  obtain ⟨u, w4, hsta, h⟩ := bind_ok_iff.mp h
  obtain ⟨hc4, hd4⟩ := start_ok hsta
  obtain ⟨u, w5, hro, h⟩ := bind_ok_iff.mp h
  obtain ⟨hh5, hd5⟩ := each_roll_ok hro
  obtain ⟨u, w6, hwa, h⟩ := bind_ok_iff.mp h
  obtain ⟨hh6, hd6, hru⟩ := each_wait_ok hwa
  cases h
  refine ⟨?_, ?_, hru⟩
  · rw [hd6, hd5, hd4, hd3, hd2]
  · rw [hh6, hh5, hc4, hh3, hc2, hc1]

/-! ## Backup and restore -/

/-- The backup under `name` holds what the host had for the module: nothing, or
its manifest and an archive of its files with their digest. -/
def HoldsBackup (h : Host) (d : Disk) (name : String) (b : BackupModule) : Prop :=
  match h.contents b.module with
  | none => b.previous = none
  | some (manifest, files) =>
    ∃ prev, b.previous = some prev ∧ prev.manifest = manifest ∧
      prev.archive = archiveName b.module ∧ prev.archiveSha256 = toHex (digestOf files) ∧
      d.file (.archive name prev.archive) = some files

theorem HoldsBackup.congr {h h' : Host} {d : Disk} {name : String} {b : BackupModule}
    (hb : HoldsBackup h d name b) (heq : h.contents = h'.contents) : HoldsBackup h' d name b := by
  simp only [HoldsBackup, ← heq]
  exact hb

theorem HoldsBackup.keep {h : Host} {d d' : Disk} {name : String} {b : BackupModule}
    (hb : HoldsBackup h d name b) (hke : ∀ n manifest files, h.contents n = some (manifest, files) →
      d.file (.archive name (archiveName n)) = some files →
        d'.file (.archive name (archiveName n)) = some files) : HoldsBackup h d' name b := by
  simp only [HoldsBackup] at hb ⊢
  split at hb
  · exact hb
  · rename_i manifest files hc
    obtain ⟨prev, hpr, hm, harc, hsha, hfi⟩ := hb
    refine ⟨prev, hpr, hm, harc, hsha, ?_⟩
    rw [harc] at hfi ⊢
    exact hke _ manifest files hc hfi

theorem HoldsBackup.archived {h : Host} {d : Disk} {name : String} {b : BackupModule}
    (hb : HoldsBackup h d name b) {prev : BackedUpModule} (hpr : b.previous = some prev) :
    ∃ files, d.file (.archive name prev.archive) = some files ∧
      prev.archiveSha256 = toHex (digestOf files) := by
  simp only [HoldsBackup] at hb
  split at hb
  · rw [hpr] at hb
    cases hb
  · rename_i manifest files hc
    obtain ⟨prev', hpr', -, -, hsha, hfi⟩ := hb
    rw [hpr] at hpr'
    rw [← Option.some.inj hpr'] at hsha hfi
    exact ⟨files, hfi, hsha⟩

theorem file_saveRecord (name : String) (r : BackupRecord) (file : String) (w : World) :
    (setDir name (fun dir => { dir with record := some r }) w).disk.file (.archive name file)
      = w.disk.file (.archive name file) := by
  simp only [Disk.file, setDir, BTreeMap.get_insert, if_true, Option.bind_some]
  cases w.disk.backups[name]? with
  | none => simp
  | some dir => rfl

theorem file_writeArchive (name file file' : String) (bytes : Bytes) (w : World) :
    (setDir name (writeArchive file bytes) w).disk.file (.archive name file')
      = if file = file' then some bytes else w.disk.file (.archive name file') := by
  simp only [Disk.file, setDir, BTreeMap.get_insert, if_true, Option.bind_some, writeArchive]
  by_cases hf : file = file'
  · rw [if_pos hf, if_pos hf]
  · rw [if_neg hf, if_neg hf]
    cases w.disk.backups[name]? with
    | none => simp
    | some dir => rfl

theorem backedUp_ok {module archive : String} {manifest : { m : ModuleManifest // m.id = module }}
    {bytes : Bytes} {b : BackupModule} (h : backedUp module manifest archive bytes = .ok b) :
    b.module = module ∧ ∃ prev, b.previous = some prev ∧ prev.manifest = manifest.val ∧
      prev.archive = archive ∧ prev.archiveSha256 = toHex (digestOf bytes) := by
  simp only [backedUp] at h
  split at h
  · cases h
  · cases h
    exact ⟨rfl, _, rfl, rfl, rfl, rfl⟩

/-- One module is backed up: what the round returns is held afterwards, and the
archives of the directory that are there stay or are written again with the
files of the same module. -/
theorem backUpEntry_ok {name : String} {e : PlanEntry} {b : BackupModule}
    (h : backUpEntry env name e w = (.ok b, w')) :
    w'.host = w.host ∧ b.module = e.module ∧ HoldsBackup w.host w'.disk name b ∧
      ∀ n manifest files, w.host.contents n = some (manifest, files) →
        w.disk.file (.archive name (archiveName n)) = some files →
          w'.disk.file (.archive name (archiveName n)) = some files := by
  obtain ⟨packed, w1, hpa, h⟩ := bind_ok_iff.mp h
  have hpa := mapErr_ok_iff.mp hpa
  obtain ⟨packaged, hpac, hpa⟩ := read_bind_ok hpa
  cases packaged with
  | none =>
    obtain ⟨-, hpa⟩ := effect_bind_ok hpa
    cases hpa
    cases h
    refine ⟨rfl, rfl, ?_, fun _ _ _ _ hfi => hfi⟩
    simp only [HoldsBackup, notBackedUp, Host.packaged_none hpac]
  | some mf =>
    obtain ⟨manifest, files⟩ := mf
    have hcon := Host.packaged_some hpac
    obtain ⟨-, hpa⟩ := effect_bind_ok hpa
    cases hpa
    obtain ⟨bytes, w2, hre, h⟩ := bind_ok_iff.mp h
    obtain ⟨-, hfi, rfl⟩ := readFile_ok_iff.mp hre
    have hwri := file_writeArchive name (archiveName e.module) (archiveName e.module) files w
    rw [if_pos rfl] at hwri
    rw [World.tickTo_disk, hwri] at hfi
    obtain ⟨hb, rfl⟩ := Prod.mk.inj h
    obtain ⟨hmod, prev, hpr, hman, harc, hsha⟩ := backedUp_ok hb
    refine ⟨rfl, hmod, ?_, ?_⟩
    · simp only [HoldsBackup, hmod, hcon]
      refine ⟨prev, hpr, hman, harc, ?_, ?_⟩
      · rw [hsha, Option.some.inj hfi]
      · rw [harc]
        exact hwri
    · intro n m f hn hf
      refine (file_writeArchive name _ _ files w).trans ?_
      split
      · rename_i heq
        rw [← archiveName_injective heq, hcon] at hn
        rw [(Prod.mk.inj (Option.some.inj hn)).2]
      · exact hf

/-- **A BACKUP HOLDS WHAT WAS INSTALLED**, for every change of the plan, and
the host is as before. -/
theorem backUpAs_ok {state : HostState} {name : String} {r : BackupRecord}
    (h : backUpAs env p state name w = (.ok r, w')) :
    w'.host = w.host ∧ r.after = p.after ∧ r.before = state.currentId ∧
      List.Forall₂ (fun e b => b.module = e.module ∧ HoldsBackup w.host w'.disk name b)
        p.plan.changes r.modules ∧
      (w'.disk.backups[name]?).bind (·.record) = some r := by
  obtain ⟨-, h⟩ := effect_bind_ok h
  obtain ⟨createdAt, w2, hnow, h⟩ := bind_ok_iff.mp h
  cases hnow
  obtain ⟨bs, w3, hcol, h⟩ := bind_ok_iff.mp h
  obtain ⟨-, h⟩ := effect_bind_ok h
  cases h
  obtain ⟨hho, hall⟩ := collect_ok
    (I := fun w1 => w1.host = w.host)
    (P := fun e b w1 => b.module = e.module ∧ HoldsBackup w.host w1.disk name b)
    (fun e _ b s s' hI hb => by
      obtain ⟨hh, hmod, hhol, -⟩ := backUpEntry_ok hb
      rw [hI] at hh hhol
      exact ⟨hh, hmod, hhol⟩)
    (fun e b e' _ b' s s' hI hP hb => by
      obtain ⟨-, -, -, hke⟩ := backUpEntry_ok hb
      rw [hI] at hke
      exact ⟨hP.1, hP.2.keep hke⟩) hcol rfl
  refine ⟨hho, rfl, rfl, ?_, ?_⟩
  · refine hall.imp ?_
    intro e b hb
    exact ⟨hb.1, hb.2.keep (fun n _ files _ hfi => by
      rw [World.tickTo_disk, file_saveRecord]
      exact hfi)⟩
  · simp [setDir]

/-! ## Restore as the undo of a failed apply -/

section

variable {h0 : Host} {d : Disk} {name : String} {r : BackupRecord} {staged : BTreeMap StagedBundle}
  (hheld : ∀ b ∈ r.modules, HoldsBackup h0 d name b)
  (hbundle : ∀ n s, staged[n]? = some s →
    ∃ b ∈ r.modules, b.module = n ∧ BundleOf d name b (some (n, s)))
include hheld hbundle

omit hheld in
theorem restored_named : NamedBundles staged := by
  intro n s hs
  obtain ⟨b, -, rfl, hb⟩ := hbundle n s hs
  rcases hb with ⟨-, hno⟩ | ⟨prev, s', bytes, hpr, hso, hm, -⟩
  · cases hno
  · cases hso
    rw [hm]
    exact b.named prev hpr

theorem restored_content {n : String} {s : StagedBundle} (hs : staged[n]? = some s) :
    stagedContent d s = h0.contents n := by
  obtain ⟨b, hmem, rfl, hb⟩ := hbundle n s hs
  have hhol := hheld b hmem
  rcases hb with ⟨-, hno⟩ | ⟨prev, s', bytes, hpr, hso, hm, hpa, -⟩
  · cases hno
  · cases hso
    simp only [HoldsBackup] at hhol
    split at hhol
    · rw [hpr] at hhol
      cases hhol
    · rename_i manifest files hc
      obtain ⟨prev', hpr', hm', -, -, hfi⟩ := hhol
      rw [hpr] at hpr'
      rw [← Option.some.inj hpr'] at hm' hfi
      rw [hc, stagedContent, hpa, hfi, hm, hm']
      rfl

end

def SameDisk (w w' : World) : Prop := w'.disk = w.disk

theorem SameDisk.refl (w : World) : SameDisk w w := rfl

theorem SameDisk.trans (a b c : World) (h1 : SameDisk a b) (h2 : SameDisk b c) : SameDisk a c :=
  Eq.trans h2 h1

theorem frame_backUpEntry {ns ds : String → Prop} {name : String} (hd : ds name) (e : PlanEntry) :
    Keeps (Frame ns ds) (backUpEntry env name e) := by
  refine frame_steady.bind (frame_mapErr (frame_backup hd)) (fun packed => ?_)
  cases packed with
  | none => exact frame_steady.pure _
  | some manifest => exact frame_steady.bind (frame_steady.readFile _) (fun _ => frame_steady.lift _)

theorem frame_backUpAs {ns ds : String → Prop} {state : HostState} {name : String}
    (hd : ds name) : Keeps (Frame ns ds) (backUpAs env p state name) :=
  frame_steady.bind (frame_createDir hd) fun _ => frame_steady.bind frame_now fun _ =>
    frame_steady.bind (frame_steady.collect fun e _ => frame_backUpEntry hd e) fun _ =>
      frame_steady.bind (frame_saveBackup hd _) fun _ => frame_steady.pure _

theorem frame_restore {ns ds : String → Prop} {name : String} {r : BackupRecord}
    (hns : ∀ b ∈ r.modules, ns b.module) : Keeps (Frame ns ds) (restore env name r) := by
  refine keeps_bind_of_ok Frame.trans (frame_mapErr (frame_steady.restoreBundles name r)) ?_
  intro w staged w1 hb
  obtain ⟨-, -, hbundle, -⟩ := restoreBundles_ok (mapErr_ok_iff.mp hb)
  have hres : ∀ n ∈ restarted staged r, ns n := by
    intro n hn
    obtain ⟨b, hmem, rfl⟩ := mem_map.mp hn
    exact hns b (mem_filter.mp hmem).1
  exact (frame_steady.bind (frame_steady.each fun b hb => frame_tryStop (hns b hb)) fun _ =>
    frame_steady.bind (frame_steady.each fun b hb =>
      frame_restoreModule (restored_named hbundle) (hns b hb)) fun _ =>
      frame_steady.bind (frame_start hres) fun _ =>
        frame_steady.each fun n hn => frame_waitHealthy (hres n hn)) w1

/-- Some backup names were computed, and of the backups only theirs changed. -/
def NewDirs (w w' : World) : Prop :=
  ∃ new, w'.names = w.names ++ new ∧ ∀ d, d ∉ new → w'.disk.backups[d]? = w.disk.backups[d]?

theorem NewDirs.trans {a b c : World} (h1 : NewDirs a b) (h2 : NewDirs b c) : NewDirs a c := by
  obtain ⟨l1, hn1, hd1⟩ := h1
  obtain ⟨l2, hn2, hd2⟩ := h2
  refine ⟨l1 ++ l2, by rw [hn2, hn1, append_assoc], fun d hd => ?_⟩
  rw [mem_append, not_or] at hd
  rw [hd2 d hd.2, hd1 d hd.1]

theorem Frame.newDirs {ns : String → Prop} (h : Frame ns (fun _ => False) w w') : NewDirs w w' :=
  ⟨[], by rw [h.names, append_nil], fun d _ => h.dirs d (fun hd => hd)⟩

/-- The backup phase of `perform`: every staged bundle loads, a name is chosen,
the backup is made. -/
structure BackupMade (env : Env) (p : Prepared) (state : HostState) (w : World) (name : String)
    (r : BackupRecord) (w' : World) : Prop where
  made : ∃ wa wb, checkStaged env p.staged w = (.ok (), wa) ∧
    newName env p.plan.title wa = (.ok name, wb) ∧ backUpAs env p state name wb = (.ok r, w')

/-- The ways `perform` ends: without changes, before anything changed, applied,
or restored. -/
inductive PerformRun (env : Env) (p : Prepared) (state : HostState) (w : World) :
    Except DepotError Performed → World → Prop where
  | unchanged (hnone : p.plan.changes = []) :
      PerformRun env p state w (.ok { backup := none, migrations := [] }) w
  | refused {e : DepotError} {w' : World} (hsome : p.plan.changes ≠ [])
      (hframe : HostFrame (fun _ => False) w.host w'.host)
      (hstate : w'.disk.stateFile = w.disk.stateFile) (hdirs : NewDirs w w')
      (hcalls : CallsWithin (fun _ => False) w w') :
      PerformRun env p state w (.error e) w'
  | applied {name : String} {r : BackupRecord} {w₁ w' : World} {migrations : List String}
      (hsome : p.plan.changes ≠ []) (hmade : BackupMade env p state w name r w₁)
      (happly : apply env p w₁ = (.ok migrations, w')) :
      PerformRun env p state w (.ok { backup := some name, migrations }) w'
  | restored {name : String} {r : BackupRecord} {w₁ w₂ w' : World} {message : String}
      {res : Except String Unit} (hsome : p.plan.changes ≠ [])
      (hmade : BackupMade env p state w name r w₁)
      (happly : apply env p w₁ = (.error message, w₂))
      (hrestore : restore env name r w₂ = (res, w')) :
      PerformRun env p state w
        (.error (.install message res.isOk)) w'

theorem frame_checkStaged {ns ds : String → Prop} (staged : BTreeMap StagedBundle) :
    Keeps (Frame ns ds) (checkStaged env staged) :=
  frame_steady.each fun _ _ =>
    frame_steady.bind (frame_steady.loadBundle _) fun _ => frame_steady.pure _

theorem newName_ok {title name : String} (h : newName env title w = (.ok name, w')) :
    name = backupName (env.now w.tick) title ∧
      w' = { w.tickTo (w.tick + 1) with names := w.names ++ [name] } := by
  cases h
  exact ⟨rfl, rfl⟩

theorem applyOrRestore_run {name : String} {r : BackupRecord}
    {res : Except DepotError Performed} (h : applyOrRestore env p name r w = (res, w')) :
    (∃ migrations, apply env p w = (.ok migrations, w') ∧
      res = .ok { backup := some name, migrations }) ∨
    ∃ message w2 rr, apply env p w = (.error message, w2) ∧ restore env name r w2 = (rr, w') ∧
      res = .error (.install message rr.isOk) := by
  cases happ : apply env p w with
  | mk ra w2 =>
    rw [applyOrRestore, bind_of_ok (attempt_of_run happ)] at h
    cases ra with
    | ok migrations =>
      cases h
      exact Or.inl ⟨migrations, rfl, rfl⟩
    | error message =>
      cases hres : restore env name r w2 with
      | mk rr w3 =>
        simp only [bind_of_ok (attempt_of_run hres)] at h
        cases h
        exact Or.inr ⟨message, w2, rr, rfl, hres, rfl⟩

theorem newDirs_backUp {title name : String} {state : HostState} {w1 : World}
    {res : Except DepotError BackupRecord} (hnew : newName env title w = (.ok name, w1))
    (hbac : backUpAs env p state name w1 = (res, w')) : NewDirs w w' := by
  obtain ⟨-, rfl⟩ := newName_ok hnew
  have hfra : Frame (fun _ => False) (name = ·) _ w' := (frame_backUpAs rfl).ok hbac
  refine ⟨[name], hfra.names, fun d hd => ?_⟩
  exact hfra.dirs d (fun heq => hd (by rw [← heq]; exact mem_singleton_self _))

theorem perform_run {state : HostState} {res : Except DepotError Performed}
    (h : perform env p state w = (res, w')) : PerformRun env p state w res w' := by
  by_cases hno : p.plan.changes = []
  · rw [perform, if_pos hno] at h
    cases h
    exact .unchanged hno
  rw [perform, if_neg hno] at h
  rcases bind_cases h with ⟨e, rfl, hlo⟩ | ⟨u, wa, hlo, h⟩
  · have hfra : Frame (fun _ => False) (fun _ => False) w w' := (frame_checkStaged _).ok hlo
    exact .refused hno hfra.host hfra.state hfra.newDirs hfra.calls
  have hfra : Frame (fun _ => False) (fun _ => False) w wa := (frame_checkStaged _).ok hlo
  rcases bind_cases h with ⟨e, -, hnew⟩ | ⟨name, wb, hnew, h⟩
  · cases (Prod.mk.inj hnew).1
  rcases bind_cases h with ⟨e, rfl, hbac⟩ | ⟨r, w1, hbac, h⟩
  · have hfr1 : Frame (fun _ => False) (name = ·) _ w' := (frame_backUpAs rfl).ok hbac
    obtain ⟨-, rfl⟩ := newName_ok hnew
    exact .refused hno (hfra.host.trans hfr1.host) (hfr1.state.trans hfra.state)
      (hfra.newDirs.trans (newDirs_backUp hnew hbac)) (hfra.calls.trans hfr1.calls)
  have hma : BackupMade env p state w name r w1 := ⟨wa, _, hlo, hnew, hbac⟩
  rcases applyOrRestore_run h with ⟨ms, happ, rfl⟩ | ⟨message, w2, rr, happ, hres, rfl⟩
  · exact .applied hno hma happ
  · exact .restored hno hma happ hres

theorem perform_ok {state : HostState} {performed : Performed}
    (h : perform env p state w = (.ok performed, w')) :
    (p.plan.changes = [] ∧ performed = ⟨none, []⟩ ∧ w' = w) ∨
      ∃ name r w1, BackupMade env p state w name r w1 ∧
        apply env p w1 = (.ok performed.migrations, w') ∧ performed.backup = some name := by
  generalize hres : (.ok performed : Except DepotError Performed) = res at h
  cases perform_run h with
  | refused | restored => cases hres
  | unchanged hno =>
    cases hres
    exact .inl ⟨hno, rfl, rfl⟩
  | applied _ hma happ =>
    cases hres
    exact .inr ⟨_, _, _, hma, happ, rfl⟩

section

variable {state : HostState} {name : String} {r : BackupRecord}
  (h : BackupMade env p state w name r w')
include h

/-- The check of the staged bundles, then the name, then the backup in its directory. -/
theorem BackupMade.frames : ∃ wa wb, Frame (fun _ => False) (fun _ => False) w wa ∧
    newName env p.plan.title wa = (.ok name, wb) ∧ backUpAs env p state name wb = (.ok r, w') ∧
      Frame (fun _ => False) (name = ·) wb w' := by
  obtain ⟨wa, wb, hlo, hnew, hbac⟩ := h.made
  exact ⟨wa, wb, (frame_checkStaged _).ok hlo, hnew, hbac, (frame_backUpAs rfl).ok hbac⟩

theorem BackupMade.spec :
    HostFrame (fun _ => False) w.host w'.host ∧ w'.disk.stateFile = w.disk.stateFile ∧
      r.after = p.after ∧ r.before = state.currentId ∧
      List.Forall₂ (fun e b => b.module = e.module ∧ HoldsBackup w.host w'.disk name b)
        p.plan.changes r.modules ∧
      (w'.disk.backups[name]?).bind (·.record) = some r := by
  obtain ⟨wa, wb, hfra, hnew, hbac, hfr1⟩ := h.frames
  obtain ⟨-, rfl⟩ := newName_ok hnew
  obtain ⟨-, haft, hbef, hall, hrec⟩ := backUpAs_ok hbac
  refine ⟨hfra.host.trans hfr1.host, hfr1.state.trans hfra.state, haft, hbef, hall.imp ?_, hrec⟩
  intro e b hb
  exact ⟨hb.1, hb.2.congr hfra.host.contents⟩

theorem BackupMade.newDirs : NewDirs w w' := by
  obtain ⟨wa, wb, hfra, hnew, hbac, -⟩ := h.frames
  exact hfra.newDirs.trans (newDirs_backUp hnew hbac)

theorem BackupMade.calls : CallsWithin (fun _ => False) w w' := by
  obtain ⟨wa, wb, hfra, hnew, -, hfr1⟩ := h.frames
  obtain ⟨-, rfl⟩ := newName_ok hnew
  exact hfra.calls.trans hfr1.calls

theorem BackupMade.named : name ∈ w'.names := by
  obtain ⟨wa, wb, -, hnew, -, hfr1⟩ := h.frames
  obtain ⟨-, rfl⟩ := newName_ok hnew
  rw [hfr1.names]
  exact mem_append_right _ (mem_singleton_self _)

theorem BackupMade.dirs {d : String} (hd : name ≠ d) :
    w'.disk.backups[d]? = w.disk.backups[d]? := by
  obtain ⟨wa, wb, hfra, hnew, -, hfr1⟩ := h.frames
  obtain ⟨-, rfl⟩ := newName_ok hnew
  exact (hfr1.dirs d hd).trans (hfra.dirs d fun hn => hn)

theorem BackupMade.tick : w.tick ≤ w'.tick := by
  obtain ⟨wa, wb, hfra, hnew, -, hfr1⟩ := h.frames
  obtain ⟨-, rfl⟩ := newName_ok hnew
  exact le_trans hfra.tick (le_trans (Nat.le_succ _) hfr1.tick)

theorem BackupMade.title : ∃ stamp, name = backupName stamp p.plan.title := by
  obtain ⟨wa, wb, -, hnew, -, -⟩ := h.frames
  exact ⟨_, (newName_ok hnew).1⟩

end

structure Begun (env : Env) (p : Prepared) (w : World) (state : HostState) (w' : World) : Prop where
  clear : p.plan.problems = []
  begun : ∃ w₀, takeLock env w = (.ok (), w₀) ∧ load env w₀ = (.ok state, w')

theorem Begun.spec {state : HostState} (h : Begun env p w state w') :
    state = w.disk.stateFile.getD HostState.initial ∧ state.format = stateFormat ∧
      ∀ keep, Tidies keep w w' := by
  obtain ⟨w0, hloc, hlo⟩ := h.begun
  obtain ⟨hsta, hfor, -, rfl⟩ := load_ok hlo
  have hti : ∀ keep, Tidies keep w w0 := fun keep => tidies_takeLock.ok hloc
  refine ⟨?_, hfor, fun keep => Tidies.trans _ _ _ (hti keep) (tidies_tick w0)⟩
  rw [hsta, (hti none).state]

theorem withLock_run {α : Type} {body : Act World DepotError α} {res : Except DepotError α}
    (h : withLock env body w = (res, w')) :
    (∃ e, res = .error e ∧ ∀ keep, Tidies keep w w') ∨
      ∃ w0 w1, takeLock env w = (.ok (), w0) ∧ body w0 = (res, w1) ∧ w' = releaseLock env w1 := by
  rcases bind_cases h with ⟨e, rfl, hlo⟩ | ⟨u, w0, hlo, h⟩
  · exact Or.inl ⟨e, rfl, fun keep => tidies_takeLock.ok hlo⟩
  · obtain ⟨hres, hw⟩ := Prod.mk.inj h
    exact Or.inr ⟨w0, (body w0).2, hlo, Prod.ext hres rfl, hw.symm⟩

/-- The ways `execute` ends: before it could begin, in its first part, or in
its second. -/
inductive ExecuteRun (env : Env) (p : Prepared) (w : World) :
    Except DepotError Outcome → World → Prop where
  | stopped {e : DepotError} {w' : World} (htidy : ∀ keep, Tidies keep w w') :
      ExecuteRun env p w (.error e) w'
  | failed {e : DepotError} {state : HostState} {w₁ w₂ : World} (hbegun : Begun env p w state w₁)
      (hperform : perform env p state w₁ = (.error e, w₂)) :
      ExecuteRun env p w (.error e) (releaseLock env w₂)
  | recorded {state : HostState} {w₁ w₂ w₃ : World} {performed : Performed}
      {res : Except DepotError Outcome} (hbegun : Begun env p w state w₁)
      (hperform : perform env p state w₁ = (.ok performed, w₂))
      (hrecord : record env p state performed w₂ = (res, w₃)) :
      ExecuteRun env p w res (releaseLock env w₃)

theorem execute_run {res : Except DepotError Outcome} (h : execute env p w = (res, w')) :
    ExecuteRun env p w res w' := by
  by_cases hcle : p.plan.problems = []
  · rw [execute, if_pos hcle] at h
    rcases withLock_run h with ⟨e, rfl, hti⟩ | ⟨w0, w3, hloc, hbo, rfl⟩
    · exact .stopped hti
    · rw [executeLocked] at hbo
      rcases bind_cases hbo with ⟨e, rfl, hlo⟩ | ⟨state, w1, hlo, hbo⟩
      · refine .stopped fun keep => Tidies.trans _ _ _ (tidies_takeLock.ok hloc) ?_
        exact Tidies.trans _ _ _ (tidies_steady.load.ok hlo) (tidies_releaseLock env _ w3)
      · have hbeg : Begun env p w state w1 := ⟨hcle, w0, hloc, hlo⟩
        rcases bind_cases hbo with ⟨e, rfl, hper⟩ | ⟨perf, w2, hper, hbo⟩
        · exact .failed hbeg hper
        · exact .recorded hbeg hper hbo
  · rw [execute, if_neg hcle] at h
    cases h
    exact .stopped (fun keep => Tidies.refl w)

/-! ## Changing the state alone -/

structure StateSaved (state : HostState) (w w' : World) : Prop where
  saved : w'.disk.stateFile = some state
  host : w'.host = w.host
  backups : ∀ d : String, w'.disk.backups[d]? = w.disk.backups[d]?
  names : w'.names = w.names

theorem StateSaved.between {state : HostState} {a b c d : World}
    (h : StateSaved state b c) (h1 : ∀ keep, Tidies keep a b) (h2 : ∀ keep, Tidies keep c d) :
    StateSaved state a d :=
  ⟨(h2 none).state.trans h.saved, (h2 none).host.trans (h.host.trans (h1 none).host),
    fun n => ((h2 (some n)).kept n rfl).trans ((h.backups n).trans ((h1 (some n)).kept n rfl)),
    (h2 none).names.trans (h.names.trans (h1 none).names)⟩

/-- The ways `update_state` ends: nothing but the lock file was touched, or the
changed state is on disk. -/
inductive UpdateRun {α : Type} (change : HostState → Except DepotError (α × HostState))
    (w w' : World) : Prop where
  | unchanged (htidy : ∀ keep, Tidies keep w w')
  | saved {result : α} {state : HostState}
      (hchange : change (w.disk.stateFile.getD HostState.initial) = .ok (result, state))
      (hsaved : StateSaved state w w')

theorem updateState_run {α : Type} {change : HostState → Except DepotError (α × HostState)}
    {res : Except DepotError α} (h : updateState env change w = (res, w')) :
    UpdateRun change w w' := by
  rcases withLock_run h with ⟨e, -, hti⟩ | ⟨w0, w3, hloc, hbo, rfl⟩
  · exact .unchanged hti
  have hti0 : ∀ keep, Tidies keep w w0 := fun keep => tidies_takeLock.ok hloc
  have hrel := (tidies_releaseLock env · w3)
  rcases bind_cases hbo with ⟨e, -, hlo⟩ | ⟨state, w1, hlo, hbo⟩
  · refine .unchanged fun keep => Tidies.trans _ _ _ (hti0 keep) ?_
    exact Tidies.trans _ _ _ (tidies_steady.load.ok hlo) (hrel keep)
  have hti1 : ∀ keep, Tidies keep w w1 := fun keep =>
    Tidies.trans _ _ _ (hti0 keep) (tidies_steady.load.ok hlo)
  obtain ⟨hsta, -, -, -⟩ := load_ok hlo
  rw [(hti0 none).state] at hsta
  rcases bind_cases hbo with ⟨e, -, hcha⟩ | ⟨changed, w2, hcha, hbo⟩
  · obtain ⟨-, rfl⟩ := Prod.mk.inj hcha
    exact .unchanged fun keep => Tidies.trans _ _ _ (hti1 keep) (hrel keep)
  obtain ⟨hok, rfl⟩ := Prod.mk.inj hcha
  rcases bind_cases hbo with ⟨e, -, hsa⟩ | ⟨u, w2, hsa, hbo⟩
  · obtain ⟨msg, -, hw2, -⟩ := effect_error hsa
    refine .unchanged fun keep => Tidies.trans _ _ _ (hti1 keep) ?_
    refine Tidies.trans _ _ _ ?_ (hrel keep)
    rw [hw2]
    exact tidies_tick w1
  · obtain ⟨-, hw2⟩ := effect_ok_iff.mp hsa
    obtain ⟨-, rfl⟩ := Prod.mk.inj hbo
    have hsav : StateSaved changed.2 w1 w2 := by
      rw [hw2]
      exact ⟨rfl, rfl, fun _ => rfl, rfl⟩
    rw [hsta] at hok
    exact .saved hok (hsav.between hti1 hrel)

end Fenrir
