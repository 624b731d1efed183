import Fenrir.Depot.Rollback

/-! # The backup the state points to

`state.backup` names the backup that undoes the current distribution. The
pointer, the backup directories and the current id are written by different
parts of an execution, each of which may fail. -/

namespace Fenrir

open Option

open Effect Effect.Act DepotProtocol

section

variable [DepotProtocol] {env : Env} {p : Prepared} {w w' : World} {state : HostState}

/-! ## Histories -/

/-- A change of the state that touches pins only (`pin`, `unpin`). -/
def PinsOnly {α : Type} (change : HostState → Except DepotError (α × HostState)) : Prop :=
  ∀ s a s', change s = .ok (a, s') → ∃ pins, s' = { s with pins }

inductive Step : World → World → Prop where
  | executed (env : Env) (p : Prepared) (w : World) : Step w (execute env p w).2
  | pinned {α : Type} (env : Env) {change : HostState → Except DepotError (α × HostState)}
      (hpins : PinsOnly change) (w : World) : Step w (updateState env change w).2
  | elsewhere {w w' : World} (hstate : w'.disk.stateFile = w.disk.stateFile)
      (hbackups : ∀ d : String, w'.disk.backups[d]? = w.disk.backups[d]?)
      (hnames : w'.names = w.names) : Step w w'

/-- A host nothing was installed on from the depot. -/
structure Untouched (w : World) : Prop where
  noState : w.disk.stateFile = none
  noNames : w.names = []

/-- A state of some history of a host. -/
def Reachable (w : World) : Prop := ∃ w₀, Untouched w₀ ∧ Relation.ReflTransGen Step w₀ w

/-! ## What an execution does to the backups -/

theorem perform_newDirs {res : Except DepotError Performed}
    (h : perform env p state w = (res, w')) :
    NewDirs w w' ∧ w'.disk.stateFile = w.disk.stateFile := by
  have happ : ∀ {w1 w2 : World} {r : Except String (List String)},
      apply env p w1 = (r, w2) → Frame (fun _ => True) (fun _ => False) w1 w2 :=
    fun hap => (frame_apply_within p.within_true).ok hap
  cases perform_run h with
  | unchanged => exact ⟨⟨[], (List.append_nil _).symm, fun _ _ => rfl⟩, rfl⟩
  | refused _ _ hstate hdirs _ => exact ⟨hdirs, hstate⟩
  | applied _ hmade hap =>
    exact ⟨hmade.newDirs.trans (happ hap).newDirs, (happ hap).state.trans hmade.spec.2.1⟩
  | restored _ hmade hap hrestore =>
    have hres : Frame (fun _ => True) (fun _ => False) _ w' :=
      (frame_restore fun _ _ => trivial).ok hrestore
    exact ⟨(hmade.newDirs.trans (happ hap).newDirs).trans hres.newDirs,
      hres.state.trans ((happ hap).state.trans hmade.spec.2.1)⟩

/-- The backup `n` is complete: a record of the change to `after`, and every
archive it names, with the recorded digest. -/
def BackupStands (d : Disk) (n after : String) : Prop :=
  ∃ r, (d.backups[n]?).bind (·.record) = some r ∧ r.after = after ∧
    ∀ b ∈ r.modules, ∀ prev, b.previous = some prev →
      ∃ bytes, d.file (.archive n prev.archive) = some bytes ∧
        toHex (digestOf bytes) = prev.archiveSha256

variable {n : String} {performed : Performed}

theorem BackupStands.congr {d d' : Disk} {after : String} (h : BackupStands d n after)
    (hd : d'.backups[n]? = d.backups[n]?) : BackupStands d' n after := by
  simp only [BackupStands, Disk.file, hd]
  exact h

theorem perform_backup (h : perform env p state w = (.ok performed, w'))
    (hn : performed.backup = some n) : BackupStands w'.disk n p.after ∧ n ∈ w'.names := by
  rcases perform_ok h with ⟨-, rfl, -⟩ | ⟨name, r, w1, hmade, happly, hba⟩
  · cases hn
  · cases hba.symm.trans hn
    have hfra : Frame (fun _ => True) (fun _ => False) w1 w' :=
      (frame_apply_within p.within_true).ok happly
    obtain ⟨-, -, haft, -, hall, hrec⟩ := hmade.spec
    refine ⟨BackupStands.congr ⟨r, hrec, haft, fun b hb prev hpr => ?_⟩
      (hfra.dirs n (fun hd => hd)), by rw [hfra.names]; exact hmade.named⟩
    obtain ⟨e, -, -, hhol⟩ := Sequences.forall₂_right_mem hall hb
    obtain ⟨files, hfi, hsha⟩ := hhol.archived hpr
    exact ⟨files, hfi, hsha.symm⟩

/-- **WHERE A POINTER COMES FROM**: it is the backup just made, of the change to
the distribution now current, or the old one, and then the current id is
the old one too. -/
theorem recordState_backup {backup : Option String} {installedAt : String}
    (h : (recordState state p backup installedAt).backup = some n) :
    (backup = some n ∧ (recordState state p backup installedAt).currentId = some p.after) ∨
      (state.backup = some n ∧
        (recordState state p backup installedAt).currentId = state.currentId) := by
  cases hint : p.intent with
  | restore name record =>
    simp only [recordState, hint] at h
    cases h
  | module cand =>
    simp only [recordState, hint] at h
    exact Or.inr ⟨h, by simp only [recordState, hint, HostState.currentId]⟩
  | distribution distribution rollback =>
    simp only [recordState, hint, HostState.currentId, Prepared.after, map_some,
      installedDistribution] at h ⊢
    cases backup with
    | some name => exact Or.inl ⟨h, trivial⟩
    | none =>
      cases hcur : state.current with
      | none =>
        rw [hcur] at h
        cases h
      | some cur =>
        rw [hcur, any_some] at h
        cases hsa : cur.id == distribution.id.display with
        | false =>
          rw [hsa] at h
          cases h
        | true =>
          rw [hsa] at h
          exact Or.inr ⟨h, by rw [map_some, beq_iff_eq.mp hsa]⟩

/-! ## The invariant -/

/-- The pointer of the state on disk is to a complete backup of the current
distribution, under a name that was computed before. -/
def PointerValid (w : World) : Prop :=
  ∀ s n, w.disk.stateFile = some s → s.backup = some n →
    (∃ id, s.currentId = some id ∧ BackupStands w.disk n id) ∧ n ∈ w.names

theorem PointerValid.keep (h : PointerValid w) (hst : w'.disk.stateFile = w.disk.stateFile)
    (hdi : NewDirs w w') (hnod : w'.names.Nodup) : PointerValid w' := by
  obtain ⟨new, hnam, hsa⟩ := hdi
  intro s n hs hn
  rw [hst] at hs
  obtain ⟨⟨id, hid, hsta⟩, hmem⟩ := h s n hs hn
  rw [hnam] at hnod ⊢
  have hnew : n ∉ new := fun hin => (List.nodup_append'.mp hnod).2.2 hmem hin
  exact ⟨⟨id, hid, hsta.congr (hsa n hnew)⟩, List.mem_append_left _ hmem⟩

theorem Tidies.newDirs (h : ∀ keep, Tidies keep w w') : NewDirs w w' :=
  ⟨[], by rw [(h none).names, List.append_nil], fun d _ => (h (some d)).kept d rfl⟩

theorem Recorded.pointer {w1 w2 w3 : World} (hbeg : Begun env p w state w1)
    (hper : perform env p state w1 = (.ok performed, w2))
    (hrec : Recorded env p state performed w2 w3) (hnod : w3.names.Nodup) (h : PointerValid w) :
    PointerValid w3 := by
  obtain ⟨hst, -, hti⟩ := hbeg.spec
  have hdi : NewDirs w w2 := (Tidies.newDirs hti).trans (perform_newDirs hper).1
  intro s n hs hn
  rw [hrec.saved] at hs
  rw [← some.inj hs] at hn ⊢
  have hke := hrec.kept n hn
  rw [hrec.names] at hnod ⊢
  rcases recordState_backup hn with ⟨hnew, hid⟩ | ⟨hold, hid⟩
  · obtain ⟨hsta, hmem⟩ := perform_backup hper hnew
    exact ⟨⟨p.after, hid, hsta.congr hke⟩, hmem⟩
  · -- the old pointer is of a state that was on disk
    have hfi : w.disk.stateFile = some state := by
      cases hf : w.disk.stateFile with
      | some s' => rw [hst, hf]; rfl
      | none =>
        rw [hst, hf] at hold
        cases hold
    obtain ⟨⟨id, hcur, hsta⟩, hmem⟩ := h state n hfi hold
    obtain ⟨new, hnam, hsa⟩ := hdi
    rw [hnam] at hnod ⊢
    have hnot : n ∉ new := fun hin => (List.nodup_append'.mp hnod).2.2 hmem hin
    refine ⟨⟨id, hid.trans hcur, ?_⟩, List.mem_append_left _ hmem⟩
    exact (hsta.congr (hsa n hnot)).congr hke

theorem NewDirs.nodup (h : NewDirs w w') (hnod : w'.names.Nodup) : w.names.Nodup := by
  obtain ⟨new, hnam, -⟩ := h
  rw [hnam] at hnod
  exact (List.nodup_append'.mp hnod).1

theorem execute_pointer {res : Except DepotError Outcome} (h : execute env p w = (res, w'))
    (hnod : w'.names.Nodup) (hval : w.names.Nodup → PointerValid w) : PointerValid w' := by
  cases execute_run h with
  | stopped hti =>
    have hdi := Tidies.newDirs hti
    exact (hval (hdi.nodup hnod)).keep (hti none).state hdi hnod
  | @failed e state w1 w2 hbegun hperform =>
    obtain ⟨-, -, hti⟩ := hbegun.spec
    obtain ⟨hdi2, hst2⟩ := perform_newDirs hperform
    have hrel := (tidies_releaseLock env · w2)
    have hdi := ((Tidies.newDirs hti).trans hdi2).trans (Tidies.newDirs hrel)
    exact (hval (hdi.nodup hnod)).keep
      ((hrel none).state.trans (hst2.trans (hti none).state)) hdi hnod
  | @recorded state w1 w2 w3 performed _ hbegun hperform hrecord =>
    obtain ⟨-, -, hti⟩ := hbegun.spec
    obtain ⟨hdi2, hst2⟩ := perform_newDirs hperform
    have hrel := (tidies_releaseLock env · w3)
    have hdi : NewDirs w w2 := (Tidies.newDirs hti).trans hdi2
    have hno3 : w3.names.Nodup := (Tidies.newDirs hrel).nodup hnod
    have hre : Recorded env p state performed w2 w3 → PointerValid (releaseLock env w3) := by
      intro hrec
      have hno2 : w2.names.Nodup := by rw [← hrec.names]; exact hno3
      exact (hrec.pointer hbegun hperform hno3 (hval (hdi.nodup hno2))).keep
        (hrel none).state (Tidies.newDirs hrel) hnod
    cases record_run hrecord with
    | notSaved _ htidy3 =>
      have hdi3 := (hdi.trans (Tidies.newDirs htidy3)).trans (Tidies.newDirs hrel)
      refine (hval (hdi3.nodup hnod)).keep ?_ hdi3 hnod
      rw [(hrel none).state, (htidy3 none).state, hst2, (hti none).state]
    | notPruned _ _ hrec | done _ _ hrec => exact hre hrec

theorem updateState_pointer {α : Type} {change : HostState → Except DepotError (α × HostState)}
    {res : Except DepotError α} (hpi : PinsOnly change)
    (h : updateState env change w = (res, w')) (hval : PointerValid w)
    (hnod : w'.names.Nodup) : PointerValid w' := by
  cases updateState_run h with
  | unchanged htidy => exact hval.keep (htidy none).state (Tidies.newDirs htidy) hnod
  | @saved result state hchange hsav =>
    obtain ⟨pins, hst⟩ := hpi _ _ _ hchange
    intro s n hs hn
    rw [hsav.saved] at hs
    rw [← some.inj hs, hst] at hn ⊢
    cases hfi : w.disk.stateFile with
    | none =>
      rw [hfi] at hn
      cases hn
    | some old =>
      rw [hfi] at hn
      obtain ⟨⟨id, hid, hsta⟩, hmem⟩ := hval old n hfi hn
      refine ⟨⟨id, hid, hsta.congr (hsav.backups n)⟩, ?_⟩
      rw [hsav.names]
      exact hmem

theorem updateState_names {α : Type} {change : HostState → Except DepotError (α × HostState)}
    {res : Except DepotError α} (h : updateState env change w = (res, w')) :
    w'.names = w.names := by
  cases updateState_run h with
  | unchanged htidy => exact (htidy none).names
  | saved _ hsaved => exact hsaved.names

theorem step_pointer (h : Step w w') (hnod : w'.names.Nodup)
    (hval : w.names.Nodup → PointerValid w) : PointerValid w' := by
  cases h with
  | executed env p => exact execute_pointer rfl hnod hval
  | pinned env hpins =>
    refine updateState_pointer hpins rfl (hval ?_) hnod
    rw [← updateState_names rfl]
    exact hnod
  | elsewhere hstate hbackups hnames =>
    have hdi : NewDirs w w' := ⟨[], by rw [hnames, List.append_nil], fun d _ => hbackups d⟩
    exact (hval (hdi.nodup hnod)).keep hstate hdi hnod

/-- **THE BACKUP POINTER IS NEVER ORPHANED**: in every reachable world in which
no backup name was computed twice, the backup the state file names has its
record, made for the current distribution, and every archive of the record
with its digest. -/
theorem reachable_pointer (h : Reachable w) (hnodup : w.names.Nodup) {s : HostState} {n : String}
    (hs : w.disk.stateFile = some s) (hn : s.backup = some n) :
    ∃ id, s.currentId = some id ∧ BackupStands w.disk n id := by
  obtain ⟨w₀, hfre, hste⟩ := h
  have hval : w.names.Nodup → PointerValid w := by
    clear hs hnodup
    induction hste with
    | refl =>
      intro _ s n hs
      rw [hfre.noState] at hs
      cases hs
    | tail _ hstep ih => exact fun hnodup => step_pointer hstep hnodup ih
  exact (hval hnodup s n hs hn).1

end

/-- After the first install the pointer is to the backup of that install. -/
theorem reachable_pointer_first :
    let _ := sampleProtocol
    let w := (execute (failingAt []) (freshPlan ["notes-service"]) freshWorld).2
    Reachable w ∧ w.names.Nodup ∧ ∃ s n, w.disk.stateFile = some s ∧ s.backup = some n ∧
      ∃ id, s.currentId = some id ∧ BackupStands w.disk n id := by
  let _ := sampleProtocol
  intro _ w
  have hrea : Reachable w :=
    ⟨freshWorld, ⟨rfl, rfl⟩, Relation.ReflTransGen.single (Step.executed _ _ _)⟩
  have hnam : w.names = ["20250101T000000Z-athenos-1.0.0"] := by decide +kernel
  have hnod : w.names.Nodup := by
    rw [hnam]
    exact List.nodup_singleton _
  have hpoi : w.disk.stateFile.bind (·.backup) = some "20250101T000000Z-athenos-1.0.0" := by
    decide +kernel
  obtain ⟨s, hs, hn⟩ := Option.bind_eq_some_iff.mp hpoi
  exact ⟨hrea, hnod, s, _, hs, hn, reachable_pointer hrea hnod hs hn⟩

end Fenrir
