import Fenrir.Lib.Parties

/-! # Backups

`services/backup/service.rs`. `run_backup` takes `backup_in_progress` with a compare-exchange
and clears it after `run_backup_inner`. The future of a call may be dropped at any await in
between, as the scheduler does with the task of a job it stops. -/

namespace Fenrir.Backup

open List

/-! ## The size of the last backup -/

/-- What lies in the directory of a backup. -/
inductive Inner where
  | file (len : Nat)
  | dir | other

def Inner.size : Inner → Nat
  | .file len => len
  | .dir => 1024 * 1024
  | .other => 0

/-- An entry of the backup directory that is not a metadata file. -/
structure BackupInfo where
  createdAt : Nat
  /-- `metadata.len()`; of a directory it is not the size of what lies in it. -/
  sizeBytes : Nat
  /-- Postgres backups are directories. -/
  inside : Option (List Inner)

/-- A directory counts as its files. -/
def getBackupSize (b : BackupInfo) : Nat :=
  match b.inside with
  | some entries => (entries.map Inner.size).sum
  | none => b.sizeBytes

def mb (bytes : Nat) : Nat := bytes / (1024 * 1024)

/-- The entries in the order of `read_dir`, unless that or a look at one of them fails. -/
def listBackupsInternal (failure : Option String) (entries : List BackupInfo) :
    Except String (List BackupInfo) :=
  match failure with
  | none => .ok entries
  | some message => .error message

def getLastBackupSizeMb (listing : Except String (List BackupInfo)) : Except String (Option Nat) :=
  listing.map fun backups => backups.head?.map fun last => mb last.sizeBytes

inductive BackupError where
  | sizeAnomaly (expectedMb actualMb deviationPct : Nat)
  /-- What the other phases fail with. -/
  | other (text : String)

def deviation (sizeMb lastMb : Nat) : Nat :=
  if sizeMb > lastMb then (sizeMb - lastMb) * 100 / lastMb else (lastMb - sizeMb) * 100 / lastMb

def anomalyCheck (pct : Nat) (last : Option Nat) (sizeMb : Nat) : Except BackupError Unit :=
  match last with
  | some lastMb =>
    if 0 < pct ∧ 0 < lastMb ∧ pct < deviation sizeMb lastMb then
      .error (.sizeAnomaly lastMb sizeMb (deviation sizeMb lastMb % 2 ^ 32))
    else .ok ()
  | none => .ok ()

/-- `create` is the phases up to the new backup, `post` those after the size check. A listing
that fails is taken for an empty one. -/
def runBackupInner (pct : Nat) (listing : Except String (List BackupInfo))
    (create : Except String BackupInfo) (post : Except String Unit) : Except BackupError Unit := do
  let last := (getLastBackupSizeMb listing).toOption.join
  let backup ← create.mapError .other
  anomalyCheck pct last (mb (getBackupSize backup))
  post.mapError .other

/-- The newest entry, wherever it is listed. -/
def lastCreated (first : BackupInfo) (rest : List BackupInfo) : BackupInfo :=
  rest.foldl (fun last b => if last.createdAt < b.createdAt then b else last) first

/-- At least a megabyte, and further from it than `pct` percent. -/
def deviates (pct lastMb sizeMb : Nat) : Bool := 1 ≤ lastMb ∧ pct < deviation sizeMb lastMb

/-- The run fails because of the size. -/
def Anomaly (result : Except BackupError Unit) : Prop :=
  ∃ expected actual deviation, result = .error (.sizeAnomaly expected actual deviation)

/-- The size the new backup is compared with; 0 switches the check off. -/
def referenceMb (failure : Option String) (first : BackupInfo) : Nat :=
  if failure.isNone then mb first.sizeBytes else 0

theorem deviates_iff {pct lastMb sizeMb : Nat} : deviates pct lastMb sizeMb = true ↔
    1 ≤ lastMb ∧ (lastMb < sizeMb ∧ (pct + 1) * lastMb ≤ (sizeMb - lastMb) * 100 ∨
      sizeMb ≤ lastMb ∧ (pct + 1) * lastMb ≤ (lastMb - sizeMb) * 100) := by
  rw [deviates, decide_eq_true_iff]
  refine and_congr_right fun hpos => ?_
  rw [deviation, Nat.lt_iff_add_one_le]
  split_ifs with hgt
  all_goals rw [Nat.le_div_iff_mul_le hpos]
  all_goals omega

/-- Of two different sizes one is further from some third: from the larger one, or from the
first size that is too large for the smaller. -/
theorem deviates_separates {pct small large : Nat} (hlt : small < large) :
    ∃ sizeMb, deviates pct small sizeMb ≠ deviates pct large sizeMb := by
  have hmul : (pct + 1) * small < (pct + 1) * large := Nat.mul_lt_mul_of_pos_left hlt (by omega)
  have hne : ∀ sizeMb, ¬(deviates pct small sizeMb = true ↔ deviates pct large sizeMb = true) →
      ∃ sizeMb, deviates pct small sizeMb ≠ deviates pct large sizeMb :=
    fun sizeMb h => ⟨sizeMb, fun heq => h (by rw [heq])⟩
  simp only [deviates_iff] at hne
  generalize (pct + 1) * small = a at hmul hne
  generalize (pct + 1) * large = b at hmul hne
  by_cases hzero : small = 0
  · exact hne (large + b) (by omega)
  · by_cases hfar : a + 100 * small ≤ 100 * large
    · exact hne large (by omega)
    · exact hne ((a + 100 * small + 99) / 100) (by omega)

section

variable {pct : Nat} (hpct : 0 < pct) (failure : Option String) (first : BackupInfo)
  (rest : List BackupInfo)

include hpct

theorem anomaly_run (new : BackupInfo) (post : Except String Unit) :
    Anomaly (runBackupInner pct (listBackupsInternal failure (first :: rest)) (.ok new) post) ↔
      deviates pct (referenceMb failure first) (mb (getBackupSize new)) := by
  have hfine : ¬ Anomaly (post.mapError .other) := by
    rintro ⟨_, _, _, hr⟩
    cases post <;> cases hr
  cases failure with
  | some message =>
    refine iff_of_false hfine ?_
    rw [deviates_iff]
    exact fun h => Nat.not_succ_le_zero 0 h.1
  | none =>
    show Anomaly (anomalyCheck pct (some (mb first.sizeBytes)) _ >>= fun _ => _) ↔
      deviates pct (mb first.sizeBytes) _
    rw [anomalyCheck, deviates, decide_eq_true_iff]
    split_ifs with h
    · exact iff_of_true ⟨_, _, _, rfl⟩ h.2
    · exact iff_of_false hfine fun hdev => h ⟨hpct, hdev⟩

/-- **THE LAST BACKUP**: the check compares every new backup with the one created last iff the
listing does not fail and the length of the entry it has first is the size of that one, in
megabytes. -/
theorem anomaly_iff :
    (∀ new post, Anomaly (runBackupInner pct (listBackupsInternal failure (first :: rest))
        (.ok new) post) ↔
      deviates pct (mb (getBackupSize (lastCreated first rest))) (mb (getBackupSize new))) ↔
    referenceMb failure first = mb (getBackupSize (lastCreated first rest)) := by
  simp only [anomaly_run hpct]
  constructor
  · intro hall
    have hsize : ∀ sizeMb, deviates pct (referenceMb failure first) sizeMb =
        deviates pct (mb (getBackupSize (lastCreated first rest))) sizeMb := by
      intro sizeMb
      have hmb : mb (getBackupSize ⟨0, sizeMb * (1024 * 1024), none⟩) = sizeMb :=
        Nat.mul_div_cancel _ (by decide)
      have hnew := hall ⟨0, sizeMb * (1024 * 1024), none⟩ (.ok ())
      rwa [hmb, Bool.coe_iff_coe] at hnew
    rcases Nat.lt_trichotomy (referenceMb failure first)
      (mb (getBackupSize (lastCreated first rest))) with hlt | heq | hlt
    · obtain ⟨sizeMb, hne⟩ := deviates_separates hlt
      exact absurd (hsize sizeMb) hne
    · exact heq
    · obtain ⟨sizeMb, hne⟩ := deviates_separates hlt
      exact absurd (hsize sizeMb).symm hne
  · intro heq new post
    rw [heq]

end

/-- A Postgres backup created last is listed first, and a new one has lost half of it. -/
theorem last_backup_compared :
    Anomaly (runBackupInner 40 (.ok [⟨2, 4194304, some [.file 1048576, .dir, .dir, .file 1048576]⟩,
      ⟨1, 1048576, none⟩]) (.ok ⟨3, 4096, some [.dir, .dir]⟩) (.ok ())) :=
  ((anomaly_iff (by decide) none ⟨2, 4194304, some [.file 1048576, .dir, .dir, .file 1048576]⟩
    [⟨1, 1048576, none⟩]).mpr (by decide) ⟨3, 4096, some [.dir, .dir]⟩ (.ok ())).mpr (by decide)

/-- The backup is as large as the last one, but an older one is listed first; and a Postgres
backup loses all but a hundredth, but the length of a directory is below a megabyte. -/
theorem listed_first_compared :
    Anomaly (runBackupInner 50 (.ok [⟨1, 1048576, none⟩, ⟨2, 104857600, none⟩])
        (.ok ⟨3, 104857600, none⟩) (.ok ())) ∧
      ¬ Anomaly (runBackupInner 50 (.ok [⟨1, 4096, some [.file 104857600]⟩])
        (.ok ⟨2, 4096, some [.file 1048576]⟩) (.ok ())) := by
  have hfirst := @anomaly_run 50 (by decide) none
  exact ⟨(hfirst ..).mpr (by decide), fun h => absurd ((hfirst ..).mp h) (by decide)⟩

/-! ## Rotation -/

/-- A backup on disk; nothing reads whether `run_backup` returned `Ok` for it. -/
structure Stored where
  createdAt : Nat
  (hasMetadata returnedOk : Bool)
  deriving DecidableEq

def newer (a b : Stored) : Prop := b.createdAt ≤ a.createdAt

instance : DecidableRel newer := fun a b => Nat.decLe b.createdAt a.createdAt

instance : Std.Total newer := ⟨fun a b => Nat.le_total b.createdAt a.createdAt⟩

instance : IsTrans Stored newer := ⟨fun _ _ _ hab hbc => Nat.le_trans hbc hab⟩

def rotateBackups (retention : Nat) (listing : List Stored) : List Stored :=
  (listing.insertionSort newer).take retention

/-- How a run ends: before there is a backup, after that, or well. -/
inductive Outcome where
  | early
  | late (hasMetadata : Bool)
  | ok

/-- The backup directory, and all backups ever made, newest first. -/
structure Directory where
  (disk made : List Stored)

section

variable (retention : Nat) (readDir : Nat → List Stored → List Stored)

/-- A run at some time; `readDir` lists the directory in the order of that time. -/
def Directory.runBackup (d : Directory) : Nat × Outcome → Directory
  | (_, .early) => d
  | (now, .late hasMetadata) =>
    let backup : Stored := ⟨now, hasMetadata, false⟩
    ⟨backup :: d.disk, backup :: d.made⟩
  | (now, .ok) =>
    let backup : Stored := ⟨now, true, true⟩
    ⟨rotateBackups retention (readDir now (backup :: d.disk)), backup :: d.made⟩

/-- The run is later than all backups. -/
def Later (d : Directory) (run : Nat × Outcome) : Prop := ∀ b ∈ d.made, b.createdAt < run.1

/-- On disk are the newest backups, `retention` of them or more. -/
structure Rotated (d : Directory) : Prop where
  sorted : d.made.Pairwise fun a b => b.createdAt < a.createdAt
  disk : ∃ n ≥ retention, d.disk = d.made.take n
  metadata : ∀ b ∈ d.made, b.returnedOk = true → b.hasMetadata = true

variable {retention readDir} {d : Directory}

theorem insertionSort_eq {l s : List Stored} (hperm : l.Perm s)
    (hs : s.Pairwise fun a b => b.createdAt < a.createdAt) : l.insertionSort newer = s := by
  have hnod : (s.map Stored.createdAt).Nodup := pairwise_map.mpr (hs.imp fun hlt => hlt.ne')
  refine Perm.eq_of_pairwise ?_ (pairwise_insertionSort newer l) (hs.imp fun hlt => hlt.le)
    ((perm_insertionSort newer l).trans hperm)
  intro a b ha hb hab hba
  have ha' : a ∈ s := hperm.mem_iff.mp ((mem_insertionSort newer).mp ha)
  exact inj_on_of_nodup_map hnod ha' hb (Nat.le_antisymm hba hab)

variable (hread : ∀ now l, (readDir now l).Perm l)

include hread

theorem rotated_ok (h : Rotated retention d) {now : Nat} (hlat : Later d (now, .ok)) :
    (d.runBackup retention readDir (now, .ok)).disk =
      (d.runBackup retention readDir (now, .ok)).made.take retention := by
  obtain ⟨n, hn, hdisk⟩ := h.disk
  let backup : Stored := ⟨now, true, true⟩
  have hall : (backup :: d.made).Pairwise fun a b => b.createdAt < a.createdAt :=
    pairwise_cons.mpr ⟨hlat, h.sorted⟩
  have hperm : (readDir now (backup :: d.disk)).Perm ((backup :: d.made).take (n + 1)) := by
    rw [hdisk]
    exact hread now _
  show ((readDir now _).insertionSort newer).take retention = (backup :: d.made).take retention
  rw [insertionSort_eq hperm (hall.sublist (take_sublist ..)), take_take,
    Nat.min_eq_left (by omega)]

theorem rotated_step (d : Directory) (run : Nat × Outcome) (h : Rotated retention d)
    (hlat : Later d run) : Rotated retention (d.runBackup retention readDir run) := by
  obtain ⟨now, outcome⟩ := run
  cases outcome with
  | early => exact h
  | late hasMetadata =>
    obtain ⟨n, hn, hdisk⟩ := h.disk
    refine ⟨pairwise_cons.mpr ⟨hlat, h.sorted⟩, ⟨n + 1, by omega, ?_⟩, ?_⟩
    · exact congrArg (_ :: ·) hdisk
    · exact forall_mem_cons.mpr ⟨nofun, h.metadata⟩
  | ok =>
    refine ⟨pairwise_cons.mpr ⟨hlat, h.sorted⟩, ⟨retention, le_rfl, rotated_ok hread h hlat⟩, ?_⟩
    exact forall_mem_cons.mpr ⟨fun _ => rfl, h.metadata⟩

/-- **ROTATION COUNTS WHAT IS THERE**: after a run that returned `Ok` the newest good backups
are there with their metadata iff they are among the newest ever made, the remains of failed
runs included. -/
theorem rotation_keeps_iff (runs : List (Nat × Outcome)) (now : Nat)
    (hlater : Run.Along (Directory.runBackup retention readDir) Later ⟨[], []⟩
      (runs ++ [(now, .ok)])) :
    let d := Run.run (Directory.runBackup retention readDir) ⟨[], []⟩ (runs ++ [(now, .ok)])
    let good := (d.made.filter (·.returnedOk)).take retention
    (∀ b ∈ good, b ∈ d.disk ∧ b.hasMetadata = true) ↔ good ⊆ d.made.take retention := by
  obtain ⟨hruns, hlast, -⟩ := Run.along_append.mp hlater
  have hboot : Rotated retention ⟨[], []⟩ :=
    ⟨.nil, ⟨retention, le_rfl, take_nil.symm⟩, nofun⟩
  have h := Run.invariant (rotated_step hread) hboot hruns
  have hrot := rotated_step hread _ _ h hlast
  rw [Run.run_append]
  dsimp only [Run.run_cons, Run.run_nil]
  rw [rotated_ok hread h hlast]
  refine forall₂_congr fun b hb => and_iff_left ?_
  obtain ⟨hmem, hok⟩ := mem_filter.mp (mem_of_mem_take hb)
  exact hrot.metadata b hmem hok

end

/-- The run at 3 deletes the first backup, the run at 4 what the failed run at 2 has left. -/
theorem rotation_keeps_two :
    (⟨3, true, true⟩ : Stored) ∈ (Run.run (Directory.runBackup 2 fun _ l => l) ⟨[], []⟩
      [(1, .ok), (2, .late false), (3, .ok), (4, .ok)]).disk :=
  ((@rotation_keeps_iff 2 _ (fun _ l => .refl l) [(1, .ok), (2, .late false), (3, .ok)] 4
    (by simp [Run.Along, Later, Directory.runBackup])).mpr (by decide) _ (by decide)).1

/-- The run at 2 fails after its backup is there, for instance with `SizeAnomaly`. -/
theorem good_backup_dropped :
    let d := Run.run (Directory.runBackup 2 fun _ l => l) ⟨[], []⟩
      [(1, .ok), (2, .late false), (3, .ok)]
    (d.made.filter (·.returnedOk)).take 2 = [⟨3, true, true⟩, ⟨1, true, true⟩] ∧
      d.disk = [⟨3, true, true⟩, ⟨2, false, false⟩] := by
  decide

/-! ## The lock -/

/-- A caller of `run_backup`, with the future it has. -/
inductive Call where
  | idle
  /-- The future has not been polled yet. -/
  | created
  /-- At an await of `run_backup_inner`. -/
  | inside
  | notEnabled | backupInProgress | done
  deriving DecidableEq

def Call.alive (c : Call) : Bool := c = .created ∨ c = .inside

inductive Action where
  | call | poll | finish | drop

structure Flag where
  backupInProgress : Bool
  /-- Whether a future was dropped inside; nothing reads it. -/
  dropped : Bool

def advance (enabled : Bool) : Action → Call → Flag → Option (Call × Flag)
  | .call, c, s => if c.alive then none else some (.created, s)
  | .poll, .created, s =>
    if !enabled then some (.notEnabled, s)
    else if s.backupInProgress then some (.backupInProgress, s)
    else some (.inside, { s with backupInProgress := true })
  | .finish, .inside, s => some (.done, { s with backupInProgress := false })
  | .drop, .created, s => some (.idle, s)
  -- nothing clears the flag
  | .drop, .inside, s => some (.idle, { s with dropped := true })
  | _, _, _ => none

variable {ι : Type} [DecidableEq ι]

abbrev World (ι : Type) := Parties.World ι Flag Call

def step (enabled : Bool) : World ι → ι × Action → World ι := Parties.step (advance enabled)

def World.boot : World ι := ⟨⟨false, false⟩, fun _ => .idle⟩

structure Held (w : World ι) (owner : Option ι) : Prop where
  inside : ∀ i, w.party i = .inside ↔ owner = some i
  flag : w.shared.backupInProgress = (owner.isSome || w.shared.dropped)
  lost : w.shared.dropped = true → owner = none

variable {enabled : Bool}

/-- A call stays outside, enters, or leaves: it is done or dropped. -/
theorem advance_cases {a : Action} {c c' : Call} {s s' : Flag}
    (h : advance enabled a c s = some (c', s')) :
    (c ≠ .inside ∧ c' ≠ .inside ∧ s' = s) ∨
    (c' = .inside ∧ s.backupInProgress = false ∧ s' = { s with backupInProgress := true }) ∨
    (c = .inside ∧ c' ≠ .inside ∧
      (s' = { s with backupInProgress := false } ∨ s' = { s with dropped := true })) := by
  revert h
  fun_cases advance enabled a c s
  all_goals grind [Call.alive]

theorem held_step (w : World ι) (event : ι × Action) (h : ∃ owner, Held w owner) :
    ∃ owner, Held (step enabled w event) owner := by
  refine Parties.step_induction (Q := fun w => ∃ owner, Held w owner) h fun c s hadv => ?_
  obtain ⟨owner, hin, hfl, hlo⟩ := h
  have how := hin event.1
  rcases advance_cases hadv with ⟨hc, hc', rfl⟩ | ⟨rfl, hfr, rfl⟩ | ⟨hc, hc', hs⟩
  · refine ⟨owner, fun j => ?_, hfl, hlo⟩
    grind [Function.update_apply]
  · refine ⟨some event.1, fun j => ?_, rfl, ?_⟩
    all_goals grind [Function.update_apply]
  · refine ⟨none, fun j => ?_, ?_, fun _ => rfl⟩
    all_goals grind [Function.update_apply]

/-- **RELEASED UNLESS DROPPED**: in every run at most one call is inside, and whenever no
future is alive the flag is clear iff no future was dropped inside `run_backup_inner`. -/
theorem released_iff (enabled : Bool) (events : List (ι × Action)) :
    let w := Run.run (step enabled) World.boot events
    (∀ i j, w.party i = .inside → w.party j = .inside → i = j) ∧ ((∀ i, (w.party i).alive = false) →
        (w.shared.backupInProgress = false ↔ w.shared.dropped = false)) := by
  have hboot : ∃ owner, Held (World.boot : World ι) owner :=
    ⟨none, fun i => by simp [World.boot], rfl, fun _ => rfl⟩
  obtain ⟨owner, h⟩ := Run.always held_step hboot events
  refine ⟨fun i j hi hj => ?_, fun hno => ?_⟩
  · exact Option.some.inj (((h.inside i).mp hi).symm.trans ((h.inside j).mp hj))
  · cases owner with
    | none => rw [h.flag, Option.isSome_none, Bool.false_or]
    | some i =>
      have hali := hno i
      rw [(h.inside i).mpr rfl] at hali
      cases hali

/-- A dropped call leaves the flag, and the next one is refused. -/
theorem dropped_inside_refused :
    let w := Run.run (step true) World.boot [((), .call), ((), .poll), ((), .drop)]
    (w.party ()).alive = false ∧ w.shared.backupInProgress = true ∧
      (Run.run (step true) w [((), .call), ((), .poll)]).party () = .backupInProgress := by
  decide

end Fenrir.Backup
