import Fenrir.Scheduler.Service

/-! # One task for each job, one heartbeat

What holds in every run of the scheduler in which `start` and `stop` do not overlap and
no task is spawned beside an aborted one that still runs (`Orderly`). -/

namespace Fenrir.Scheduler

open Function Option

theorem getElem?_concat_cases {α : Type} {l : List α} {x y : α} {n : Nat}
    (h : (l ++ [x])[n]? = some y) : n = l.length ∧ y = x ∨ l[n]? = some y := by
  rcases Nat.lt_or_ge n l.length with hn | hn
  · rw [List.getElem?_append_left hn] at h
    exact .inr h
  · rw [List.getElem?_append_right hn, List.getElem?_singleton] at h
    split at h
    · exact .inl ⟨by omega, (some.inj h).symm⟩
    · cases h

/-! ## Stopping tasks -/

namespace JobTask

variable {t : JobTask}

theorem live_of_stop (h : t.stop.live) : t.live := by
  intro hend
  refine h ?_
  show (if t.phase.atAwait then JobPhase.ended else t.phase) = .ended
  rw [hend]
  rfl

theorem move_spec {t' : JobTask} {move : JobMove} (h : t.move move = some t') :
    t.live ∧ t'.job = t.job ∧ t'.stopFlag = t.stopFlag := by
  revert h
  fun_cases JobTask.move t move
  all_goals intro h
  all_goals cases h
  all_goals refine ⟨?_, rfl, rfl⟩
  all_goals intro hend
  all_goals simp_all

end JobTask

/-- Each live task was a live task of the same job, and none has its flag cleared. -/
def Fades (ts ts' : List JobTask) : Prop :=
  ∀ (n : Nat) (t' : JobTask), ts'[n]? = some t' → t'.live →
    ∃ t, ts[n]? = some t ∧ t.live ∧ t.job = t'.job ∧ (t'.stopFlag = false → t.stopFlag = false)

theorem Fades.refl (ts : List JobTask) : Fades ts ts := fun _ t h hli => ⟨t, h, hli, rfl, id⟩

variable {ts : List JobTask} {t : JobTask} {s s' : Shared} {p p' : Caller} {b : Heartbeat}

theorem Fades.trans {us vs : List JobTask} (h : Fades ts us) (h' : Fades us vs) : Fades ts vs := by
  intro n v hv hli
  obtain ⟨u, hu, huli, hjob, hfl⟩ := h' n v hv hli
  obtain ⟨t, ht, htli, hjo', hfl'⟩ := h n u hu huli
  exact ⟨t, ht, htli, hjo'.trans hjob, fun hv => hfl' (hfl hv)⟩

theorem fades_set {n : Nat} {t' : JobTask} {move : JobMove} (ht : ts[n]? = some t)
    (hmo : t.move move = some t') : Fades ts (ts.set n t') := by
  obtain ⟨htli, hjob, hfl⟩ := JobTask.move_spec hmo
  intro m u hu hli
  by_cases hm : n = m
  · rw [← hm, List.getElem?_set_self (List.getElem?_eq_some_iff.mp ht).1] at hu
    cases hu
    exact ⟨t, hm ▸ ht, htli, hjob.symm, fun h => hfl.symm.trans h⟩
  · rw [List.getElem?_set_ne hm] at hu
    exact ⟨u, hu, hli, rfl, id⟩

namespace Shared

variable {s : Shared}

theorem stopHandle_eq (s : Shared) (h : Option Nat) :
    s.stopHandle h = { s with tasks := (s.stopHandle h).tasks } := by
  cases h <;> rfl

theorem stopHandle_fades (s : Shared) (h : Option Nat) : Fades s.tasks (s.stopHandle h).tasks := by
  cases h with
  | none => exact .refl _
  | some n =>
    intro m t' ht' hli
    have hmod : (s.tasks.modify n JobTask.stop)[m]? = some t' := ht'
    rw [List.getElem?_modify] at hmod
    obtain ⟨t, ht, rfl⟩ := Option.map_eq_some_iff.mp hmod
    by_cases hm : n = m
    · rw [if_pos hm] at hli ⊢
      exact ⟨t, ht, JobTask.live_of_stop hli, rfl, nofun⟩
    · rw [if_neg hm] at hli ⊢
      exact ⟨t, ht, hli, rfl, id⟩

variable {n : Nat} {t : JobTask}

theorem stopHandle_unstopped {h : Option Nat} (ht : (s.stopHandle h).tasks[n]? = some t)
    (hfl : t.stopFlag = false) : h ≠ some n ∧ s.tasks[n]? = some t := by
  cases h with
  | none => exact ⟨nofun, ht⟩
  | some m =>
    have hmod : (s.tasks.modify m JobTask.stop)[n]? = some t := ht
    rw [List.getElem?_modify] at hmod
    obtain ⟨u, hu, hut⟩ := Option.map_eq_some_iff.mp hmod
    by_cases hm : m = n
    · rw [if_pos hm] at hut
      rw [← hut] at hfl
      cases hfl
    · rw [if_neg hm] at hut
      exact ⟨fun h => hm (some.inj h), hut ▸ hu⟩

theorem stopAll_unstopped {ents : List (String × JobEntry)}
    (ht : (ents.foldl (fun s p => s.stopHandle p.2.handle) s).tasks[n]? = some t)
    (hfl : t.stopFlag = false) : (∀ p ∈ ents, p.2.handle ≠ some n) ∧ s.tasks[n]? = some t := by
  induction ents generalizing s with
  | nil => exact ⟨nofun, ht⟩
  | cons p ents ih =>
    obtain ⟨hre, hfir⟩ := ih ht
    obtain ⟨hne, hold⟩ := stopHandle_unstopped hfir hfl
    refine ⟨?_, hold⟩
    intro q hq
    rcases List.mem_cons.mp hq with rfl | hq
    · exact hne
    · exact hre q hq

theorem stopAll_fades (s : Shared) (ents : List (String × JobEntry)) :
    Fades s.tasks (ents.foldl (fun s p => s.stopHandle p.2.handle) s).tasks := by
  induction ents generalizing s with
  | nil => exact .refl _
  | cons p ents ih => exact (s.stopHandle_fades p.2.handle).trans (ih _)

theorem stopAll_eq (s : Shared) (ents : List (String × JobEntry)) :
    ents.foldl (fun s p => s.stopHandle p.2.handle) s =
      { s with tasks := (ents.foldl (fun s p => s.stopHandle p.2.handle) s).tasks } := by
  induction ents generalizing s with
  | nil => rfl
  | cons p ents ih =>
    rw [List.foldl_cons, ih, stopHandle_eq]

end Shared

/-! ## The tasks of the jobs -/

structure TasksSound (s : Shared) : Prop where
  /-- A live task that was not stopped is the one in its job's entry. -/
  known : ∀ (n : Nat) (t : JobTask), s.tasks[n]? = some t → t.live → t.stopFlag = false →
    ∃ entry, s.jobs[t.job]? = some entry ∧ entry.handle = some n
  one : ∀ (n m : Nat) (t u : JobTask), s.tasks[n]? = some t → s.tasks[m]? = some u → t.live → u.live →
    t.job = u.job → n = m
  held : ∀ id : String, s.held = some id → ∃ entry, s.jobs[id]? = some entry ∧ entry.handle = none
  spec : ∀ (id : String) (entry : JobEntry), s.jobs[id]? = some entry → entry.spec.id = id

/-- No stopped task of the job is still on its way to an await. -/
def Quiet (s : Shared) (id : String) : Prop :=
  ∀ t ∈ s.tasks, t.job = id → t.stopFlag = true → t.phase = .ended

instance (s : Shared) (id : String) : Decidable (Quiet s id) :=
  inferInstanceAs (Decidable (∀ t ∈ s.tasks, t.job = id → t.stopFlag = true → t.phase = .ended))

namespace TasksSound

variable {s s' : Shared}

variable {t : JobTask} {entry : JobEntry}

section

variable (h : TasksSound s)

include h

theorem one_of_fades (hfad : Fades s.tasks s'.tasks) {n m : Nat}
    {u : JobTask} (ht : s'.tasks[n]? = some t) (hu : s'.tasks[m]? = some u) (htli : t.live)
    (huli : u.live) (hjob : t.job = u.job) : n = m := by
  obtain ⟨t0, ht0, htl0, htj, -⟩ := hfad n t ht htli
  obtain ⟨u0, hu0, hul0, huj, -⟩ := hfad m u hu huli
  exact h.one n m t0 u0 ht0 hu0 htl0 hul0 (htj.trans (hjob.trans huj.symm))

theorem fade (hfad : Fades s.tasks s'.tasks) (hjo : s'.jobs = s.jobs)
    (hhe : s'.held = s.held) : TasksSound s' where
  known n t ht hlive hflag := by
    obtain ⟨t0, ht0, hli0, hjob, hfl0⟩ := hfad n t ht hlive
    rw [hjo, ← hjob]
    exact h.known n t0 ht0 hli0 (hfl0 hflag)
  one _ _ _ _ := h.one_of_fades hfad
  held id hid := by
    rw [hjo]
    exact h.held id (hhe ▸ hid)
  spec := hjo ▸ h.spec

theorem release {id : String} (hget : s.jobs[id]? = some entry)
    (htas : s'.tasks = (s.stopHandle entry.handle).tasks)
    (hoth : ∀ k : String, k ≠ id → s'.jobs[k]? = s.jobs[k]?)
    (hown : ∀ e, s'.jobs[id]? = some e → e.handle = none ∧ e.spec.id = id)
    (hhe : ∀ k : String, s'.held = some k → k = id ∧ ∃ e, s'.jobs[id]? = some e) :
    TasksSound s' where
  known n t ht hlive hflag := by
    rw [htas] at ht
    obtain ⟨hne, hold⟩ := Shared.stopHandle_unstopped ht hflag
    obtain ⟨e, he, hhan⟩ := h.known n t hold hlive hflag
    by_cases hjob : t.job = id
    · rw [hjob, hget] at he
      rw [some.inj he] at hne
      exact absurd hhan hne
    · exact ⟨e, (hoth t.job hjob).trans he, hhan⟩
  one _ _ _ _ := h.one_of_fades (htas ▸ s.stopHandle_fades entry.handle)
  held k hk := by
    obtain ⟨rfl, e, he⟩ := hhe k hk
    exact ⟨e, he, (hown e he).1⟩
  spec k e he := by
    by_cases hk : k = id
    · rw [hk] at he ⊢
      exact (hown e he).2
    · exact h.spec k e ((hoth k hk).symm.trans he)

theorem spawn {id : String} (hno : ∀ e, s.jobs[id]? = some e → e.handle = none) (hqui : Quiet s id)
    (htas : s'.tasks = s.tasks ++ [t]) (hjob : t.job = id)
    (hjo : s'.jobs = s.jobs.insert id entry) (hhan : entry.handle = some s.tasks.length)
    (hsp : entry.spec.id = id) (hhe : s'.held = none) : TasksSound s' := by
  have hown : s'.jobs[id]? = some entry := by rw [hjo, BTreeMap.get_insert, if_pos rfl]
  have hoth : ∀ k : String, k ≠ id → s'.jobs[k]? = s.jobs[k]? := by
    intro k hk
    rw [hjo, BTreeMap.get_insert, if_neg fun e => hk e.symm]
  -- nothing of this job is alive: unstopped tasks are in an entry, stopped ones have ended
  have hde : ∀ (n : Nat) (u : JobTask), s.tasks[n]? = some u → u.live → u.job ≠ id := by
    intro n u hu hli hjob
    cases hfl : u.stopFlag with
    | true => exact hli (hqui u (List.mem_of_getElem? hu) hjob hfl)
    | false =>
      obtain ⟨e, he, hn⟩ := h.known n u hu hli hfl
      rw [hjob] at he
      rw [hno e he] at hn
      cases hn
  have hnew : ∀ (n : Nat) (u : JobTask), s'.tasks[n]? = some u →
      n = s.tasks.length ∧ u = t ∨ s.tasks[n]? = some u := by
    intro n u hu
    rw [htas] at hu
    exact getElem?_concat_cases hu
  refine ⟨?_, ?_, ?_, ?_⟩
  · intro n u hu hli hfl
    rcases hnew n u hu with ⟨rfl, rfl⟩ | hold
    · rw [hjob]
      exact ⟨entry, hown, hhan⟩
    · obtain ⟨e, he, hn⟩ := h.known n u hold hli hfl
      exact ⟨e, (hoth u.job (hde n u hold hli)).trans he, hn⟩
  · intro n m u v hu hv huli hvli huv
    rcases hnew n u hu with ⟨rfl, rfl⟩ | hu'
    · rcases hnew m v hv with ⟨rfl, -⟩ | hv'
      · rfl
      · exact absurd (huv.symm.trans hjob) (hde m v hv' hvli)
    · rcases hnew m v hv with ⟨rfl, rfl⟩ | hv'
      · exact absurd (huv.trans hjob) (hde n u hu' huli)
      · exact h.one n m u v hu' hv' huli hvli huv
  · intro k hk
    rw [hhe] at hk
    cases hk
  · intro k e he
    by_cases hk : k = id
    · rw [hk] at he ⊢
      rw [hown] at he
      cases he
      exact hsp
    · exact h.spec k e ((hoth k hk).symm.trans he)

theorem cancelJob (hfr : s.held = none) (id : String) : TasksSound (s.cancelJob id).2 := by
  fun_cases Shared.cancelJob s id
  case case1 => exact h
  case case2 entry hget =>
    refine h.release hget rfl ?_ ?_ ?_
    · intro k hk
      rw [BTreeMap.get_erase, if_neg fun e => hk e.symm]
    · intro e he
      rw [BTreeMap.get_erase, if_pos rfl] at he
      cases he
    · intro k hk
      rw [Shared.stopHandle_eq, hfr] at hk
      cases hk

theorem put {id : String} {entry' : JobEntry} (hget : s.jobs[id]? = some entry)
    (htas : s'.tasks = (s.stopHandle entry.handle).tasks)
    (hjo : s'.jobs = s.jobs.insert id entry') (hhan : entry'.handle = none)
    (hsp : entry'.spec = entry.spec) (hhe : ∀ k, s'.held = some k → k = id) : TasksSound s' := by
  have hown : s'.jobs[id]? = some entry' := by rw [hjo, BTreeMap.get_insert, if_pos rfl]
  refine h.release hget htas ?_ ?_ ?_
  · intro k hk
    rw [hjo, BTreeMap.get_insert, if_neg fun e => hk e.symm]
  · intro e he
    rw [hown] at he
    cases he
    rw [hsp]
    exact ⟨hhan, h.spec id entry hget⟩
  · exact fun k hk => ⟨hhe k hk, entry', hown⟩

theorem pauseJob (hfr : s.held = none) (id : String) : TasksSound (s.pauseJob id).2 := by
  fun_cases Shared.pauseJob s id
  case case1 => exact h
  case case2 => exact h
  case case3 entry hget _ =>
    refine h.put hget rfl rfl rfl rfl ?_
    intro k hk
    rw [Shared.stopHandle_eq, hfr] at hk
    cases hk

theorem takeJob {id : String} (hget : s.jobs[id]? = some entry) : TasksSound (s.takeJob id entry) :=
  h.put hget rfl rfl rfl rfl fun _ hk => (some.inj hk).symm

theorem respawnJob {id : String} (hhe : s.held = some id)
    (hget : s.jobs[id]? = some entry) (hqui : Quiet s id) : TasksSound (s.respawnJob id entry) := by
  have hsp : entry.spec.id = id := h.spec id entry hget
  refine h.spawn ?_ hqui rfl hsp rfl rfl hsp rfl
  intro e he
  obtain ⟨e', he', hno⟩ := h.held id hhe
  rw [he] at he'
  cases he'
  exact hno

theorem insertJob (hfr : s.held = none) {spec : ScheduledJobSpec}
    (hqui : Quiet s spec.id) : TasksSound (s.insertJob spec).2 := by
  fun_cases Shared.insertJob s spec
  case case1 => exact h
  case case2 hnew _ =>
    have hno : s.jobs[spec.id]? = none := by simpa using hnew
    refine ⟨?_, h.one, ?_, ?_⟩
    · intro n t ht hli hfl
      obtain ⟨e, he, hn⟩ := h.known n t ht hli hfl
      refine ⟨e, ?_, hn⟩
      rw [BTreeMap.get_insert, if_neg, he]
      intro hid
      rw [← hid, hno] at he
      cases he
    · intro k hk
      cases hfr.symm.trans hk
    · exact BTreeMap.forall_insert rfl h.spec
  case case3 hnew _ handle s' hspawn =>
    have hno : s.jobs[spec.id]? = none := by simpa using hnew
    cases hspawn
    refine h.spawn ?_ hqui rfl rfl rfl rfl rfl hfr
    intro e he
    rw [hno] at he
    cases he

theorem clearJobs (hfr : s.held = none) : TasksSound s.clearJobs where
  known n t ht hlive hflag := by
    -- the entry that holds the task was popped, and its task stopped
    obtain ⟨hpop, hold⟩ := Shared.stopAll_unstopped ht hflag
    obtain ⟨entry, hent, hhan⟩ := h.known n t hold hlive hflag
    have hmem : (t.job, entry) ∈ s.jobs.toList :=
      Std.ExtTreeMap.mem_toList_iff_getElem?_eq_some.mpr hent
    exact absurd hhan (hpop _ hmem)
  one _ _ _ _ := h.one_of_fades (s.stopAll_fades s.jobs.toList)
  held k hk := by
    have hhe : s.clearJobs.held = s.held := by
      rw [Shared.clearJobs, Shared.stopAll_eq]
    rw [hhe, hfr] at hk
    cases hk
  spec k e he := by
    rw [show s.clearJobs.jobs = ∅ from rfl, Std.ExtTreeMap.getElem?_empty] at he
    cases he

end

end TasksSound

variable {ι : Type} [DecidableEq ι]

/-! ## Orderly steps -/

/-- No call of `start` or `stop` is in progress. -/
def World.idle (w : World ι) : Prop := ∀ j, (w.party j).controls = false

/-- A job is put into the map while the scheduler runs or a `stop` is still to clear the
map, and no task is spawned while a stopped one of the same job is on its way to an
await. -/
def OrderlyNext (w : World ι) : Caller → Prop
  | .registering spec =>
    (w.shared.heartbeat.isSome = true ∨ ∃ j, w.party j = .stopping) ∧ Quiet w.shared spec.id
  | .respawning id _ => Quiet w.shared id
  | _ => True

/-- `start` and `stop` come one at a time, and a `start` after the heartbeat that was last
aborted has ended. -/
def OrderlyCall (w : World ι) : Call → Prop
  | .start => w.idle ∧ ∀ b ∈ w.shared.beats, b.aborted = true → b.phase = .ended
  | .stop => w.idle
  | _ => True

def Orderly (w : World ι) : ι × Action → Prop
  | (_, .call c) => OrderlyCall w c
  | (i, .next) => OrderlyNext w (w.party i)
  | _ => True

section

variable [Fintype ι] (w : World ι)

instance : Decidable w.idle := inferInstanceAs (Decidable (∀ j, (w.party j).controls = false))

instance : ∀ p : Caller, Decidable (OrderlyNext w p)
  | .registering spec => inferInstanceAs (Decidable
      ((w.shared.heartbeat.isSome = true ∨ ∃ j, w.party j = .stopping) ∧ Quiet w.shared spec.id))
  | .respawning id _ => inferInstanceAs (Decidable (Quiet w.shared id))
  | .ready _ | .starting | .spawned _ | .stopping | .cleared | .restarting _ | .resuming _ =>
    isTrue trivial

instance : ∀ c : Call, Decidable (OrderlyCall w c)
  | .start => inferInstanceAs (Decidable
      (w.idle ∧ ∀ b ∈ w.shared.beats, b.aborted = true → b.phase = .ended))
  | .stop => inferInstanceAs (Decidable w.idle)
  | .schedule _ | .cancel _ | .pause _ | .resume _ | .restart _ => isTrue trivial

instance : ∀ event : ι × Action, Decidable (Orderly w event)
  | (_, .call c) => inferInstanceAs (Decidable (OrderlyCall w c))
  | (i, .next) => inferInstanceAs (Decidable (OrderlyNext w (w.party i)))
  | (_, .job _ _) | (_, .beat _) => isTrue trivial

end

/-! ## What one step can do -/

/-- The first step of a call, by what it does to the service. -/
inductive Began (s : Shared) : Call → Caller → Shared → Prop where
  | refused (last : Option Reply) : s.heartbeat.isSome →
      Began s .start (.ready last) { s with stopReturned := false }
  | started : s.heartbeat = none → Began s .start .starting { s with stopReturned := false }
  | ignored (last : Option Reply) : s.heartbeat = none →
      Began s .stop (.ready last) { s with stopReturned := true }
  | stopped (n : Nat) : s.heartbeat = some n → Began s .stop .stopping
        { s with heartbeat := none, beats := s.beats.modify n Heartbeat.abort }
  | looked (c : Call) (p : Caller) : p.controls = false → Began s c p s
  | cancelled (id : String) (last : Option Reply) : s.held = none →
      Began s (.cancel id) (.ready last) (s.cancelJob id).2
  | paused (id : String) (last : Option Reply) : s.held = none →
      Began s (.pause id) (.ready last) (s.pauseJob id).2

theorem began_of_begin {c : Call} (h : c.begin s = some (p, s')) : Began s c p s' := by
  revert h
  fun_cases Call.begin s c
  all_goals intro h
  case case1 hsome =>
    obtain ⟨rfl, rfl⟩ := Prod.mk.inj (some.inj h)
    exact .refused _ hsome
  case case2 hnone =>
    obtain ⟨rfl, rfl⟩ := Prod.mk.inj (some.inj h)
    exact .started (by simpa using hnone)
  all_goals cases h
  case case3 hnone => exact .ignored _ hnone
  case case4 n hsome => exact .stopped n hsome
  case case9 id hfree => exact .cancelled id _ (by simpa using hfree)
  case case11 id hfree => exact .paused id _ (by simpa using hfree)
  all_goals exact .looked _ _ rfl

/-- A later step of a call, by what it does to the service. -/
inductive Went (s : Shared) : Caller → Caller → Shared → Prop where
  | spawned : Went s .starting (.spawned s.beats.length)
      { s with beats := s.beats ++ [⟨false, .fresh⟩] }
  | stored (n : Nat) (last : Option Reply) :
      Went s (.spawned n) (.ready last) { s with heartbeat := some n }
  | cleared : s.held = none → Went s .stopping .cleared s.clearJobs
  | returned (last : Option Reply) : Went s .cleared (.ready last) { s with stopReturned := true }
  | inserted (spec : ScheduledJobSpec) (last : Option Reply) : s.held = none →
      Went s (.registering spec) (.ready last) (s.insertJob spec).2
  | looked (p p' : Caller) : p.controls = false → p'.controls = false → Went s p p' s
  | took (p p' : Caller) (id : String) (entry : JobEntry) (paused : List String)
      (file : StateFile) : p.controls = false → p'.controls = false → s.jobs[id]? = some entry →
      Went s p p' { s.takeJob id entry with pausedJobs := paused, stateFile := file }
  | respawned (id : String) (outcome : JobControlOutcome) (entry : JobEntry)
      (last : Option Reply) : s.held = some id → s.jobs[id]? = some entry →
      Went s (.respawning id outcome) (.ready last) (s.respawnJob id entry)

theorem went_restartLocked (id : String) :
    Went s (.restarting id) (restartLocked s id).1 (restartLocked s id).2 := by
  fun_cases restartLocked s id
  case case1 | case2 => exact .looked _ _ rfl rfl
  case case3 entry hget _ =>
    exact .took (s := s) _ _ id entry (s.takeJob id entry).pausedJobs
      (s.takeJob id entry).stateFile rfl rfl hget

theorem went_resumeLocked (id : String) :
    Went s (.resuming id) (resumeLocked s id).1 (resumeLocked s id).2 := by
  fun_cases resumeLocked s id
  case case1 => exact .looked _ _ rfl rfl
  case case2 entry hget _ => exact .took _ _ id entry _ _ rfl rfl hget
  case case3 => exact .looked _ _ rfl rfl

theorem went_of_next (h : p.next s = some (p', s')) : Went s p p' s' := by
  revert h
  fun_cases Caller.next s p
  all_goals intro h
  case case10 id _ =>
    have hw := went_restartLocked (s := s) id
    rw [some.inj h] at hw
    exact hw
  case case12 id _ =>
    have hw := went_resumeLocked (s := s) id
    rw [some.inj h] at hw
    exact hw
  case case13 id out hheld =>
    obtain ⟨entry, hget, hpa⟩ := Option.map_eq_some_iff.mp h
    cases hpa
    exact .respawned id out entry _ hheld hget
  all_goals cases h
  case case2 => exact .spawned
  case case3 n => exact .stored n _
  case case5 hfree => exact .cleared (by simpa using hfree)
  case case6 => exact .returned _
  case case8 spec hfree => exact .inserted spec _ (by simpa using hfree)

/-- **WHAT A STEP CAN DO.** -/
theorem advance_cases {a : Action} (h : advance a p s = some (p', s')) :
    (∃ c last, a = .call c ∧ p = .ready last ∧ Began s c p' s') ∨
    (a = .next ∧ Went s p p' s') ∨
    (∃ n m t t', a = .job n m ∧ p' = p ∧ s.tasks[n]? = some t ∧ t.move m = some t' ∧
      s' = { s with tasks := s.tasks.set n t' }) ∨
    (∃ n b b', a = .beat n ∧ p' = p ∧ s.beats[n]? = some b ∧ b.move = some b' ∧
      s' = { s with beats := s.beats.set n b' }) := by
  cases a with
  | call c =>
    cases p with
    | ready last => exact .inl ⟨c, last, rfl, rfl, began_of_begin h⟩
    | _ => cases h
  | next => exact .inr (.inl ⟨rfl, went_of_next h⟩)
  | job n m =>
    obtain ⟨t', hmo, hpa⟩ := Option.map_eq_some_iff.mp h
    obtain ⟨t, ht, hmo⟩ := Option.bind_eq_some_iff.mp hmo
    cases hpa
    exact .inr (.inr (.inl ⟨n, m, t, t', rfl, rfl, ht, hmo, rfl⟩))
  | beat n =>
    obtain ⟨b', hmo, hpa⟩ := Option.map_eq_some_iff.mp h
    obtain ⟨b, hb, hmo⟩ := Option.bind_eq_some_iff.mp hmo
    cases hpa
    exact .inr (.inr (.inr ⟨n, b, b', rfl, rfl, hb, hmo, rfl⟩))

namespace TasksSound

variable {w : World ι} {i : ι} {a : Action} {p : Caller} {s s' : Shared}

theorem began (h : TasksSound s) {c : Call} (hst : Began s c p s') : TasksSound s' := by
  cases hst with
  | cancelled id _ hfree => exact h.cancelJob hfree id
  | paused id _ hfree => exact h.pauseJob hfree id
  | _ => exact h.fade (.refl _) rfl rfl

omit [DecidableEq ι] in
theorem went (h : TasksSound w.shared) (ho : Orderly w (i, .next))
    (hst : Went w.shared (w.party i) p s') : TasksSound s' := by
  change OrderlyNext w (w.party i) at ho
  generalize w.party i = q at ho hst
  cases hst with
  | cleared hfree => exact h.clearJobs hfree
  | inserted spec _ hfree => exact h.insertJob hfree ho.2
  | took _ _ id entry _ _ _ _ hget => exact (h.takeJob hget).fade (.refl _) rfl rfl
  | respawned id _ entry _ hheld hget => exact h.respawnJob hheld hget ho
  | _ => exact h.fade (.refl _) rfl rfl

theorem step (h : TasksSound w.shared) (ho : Orderly w (i, a)) :
    TasksSound (w.step (i, a)).shared := by
  refine Parties.step_induction (Q := fun w' : World ι => TasksSound w'.shared) h ?_
  intro p s' hadv
  rcases advance_cases hadv with ⟨c, _, -, -, hbeg⟩ | ⟨rfl, hwe⟩ |
    ⟨n, m, t, t', -, -, ht, hmo, rfl⟩ | ⟨n, b, b', -, -, -, -, rfl⟩
  · exact h.began hbeg
  · exact h.went ho hwe
  · exact h.fade (fades_set ht hmo) rfl rfl
  · exact h.fade (.refl _) rfl rfl

end TasksSound

/-! ## The heartbeat -/

theorem Heartbeat.move_spec {b' : Heartbeat} (h : b.move = some b') :
    b.live ∧ b'.aborted = b.aborted := by
  revert h
  fun_cases Heartbeat.move b
  all_goals intro h
  all_goals cases h
  all_goals refine ⟨?_, rfl⟩
  all_goals intro hend
  all_goals simp_all

theorem Heartbeat.live_of_abort (h : b.abort.live) : b.live := by
  intro hend
  refine h ?_
  show (if b.phase = .running then BeatPhase.running else .ended) = .ended
  rw [hend]
  rfl

structure BeatsSound (s : Shared) (party : ι → Caller) : Prop where
  alone : ∀ i j, (party i).controls = true → (party j).controls = true → i = j
  empty : ∀ i, (party i).controls = true → s.heartbeat = none
  starting : ∀ i, party i = .starting → ∀ b ∈ s.beats, b.phase = .ended
  /-- Where the handle of a live heartbeat is. -/
  known : ∀ (n : Nat) (b : Heartbeat), s.beats[n]? = some b → b.live →
    s.heartbeat = some n ∨ b.aborted = true ∨ ∃ i, party i = .spawned n
  one : ∀ (n m : Nat) (b c : Heartbeat), s.beats[n]? = some b → s.beats[m]? = some c →
    b.live → c.live → n = m

theorem controls_update {party : ι → Caller} {i j : ι} (hp : p.controls = false)
    (hj : (update party i p j).controls = true) : j ≠ i ∧ (party j).controls = true := by
  by_cases hji : j = i
  · rw [hji, update_self, hp] at hj
    cases hj
  · rw [update_of_ne hji] at hj
    exact ⟨hji, hj⟩

theorem idle_update {party : ι → Caller} {i : ι} (hp : p.controls = false)
    (h : ∀ j, j ≠ i → (party j).controls = false) : ∀ j, (update party i p j).controls = false :=
  (forall_update_iff party fun _ q => q.controls = false).mpr ⟨hp, h⟩

namespace BeatsSound

variable {s s' : Shared} {party : ι → Caller} {i : ι} {p : Caller}

theorem alone_update (h : BeatsSound s party)
    (hp : p.controls = true → ∀ j, (party j).controls = true → j = i) :
    ∀ j k, (update party i p j).controls = true → (update party i p k).controls = true → j = k := by
  intro j k hj hk
  cases hpc : p.controls with
  | false => exact h.alone j k (controls_update hpc hj).2 (controls_update hpc hk).2
  | true =>
    have hown : ∀ j, (update party i p j).controls = true → j = i :=
      (forall_update_iff party fun j q => q.controls = true → j = i).mpr
        ⟨fun _ => rfl, fun j _ => hp hpc j⟩
    rw [hown j hj, hown k hk]

/-- A step that leaves the heartbeats as they are: of a caller outside `start` and `stop`,
or of a `stop` that is past its `abort`. -/
theorem aside (h : BeatsSound s party) (hold : ∀ n, party i ≠ .spawned n)
    (hp : p.controls = true → (party i).controls = true) (hnew : p ≠ .starting)
    (hhea : s'.heartbeat = s.heartbeat) (hbea : s'.beats = s.beats) :
    BeatsSound s' (update party i p) where
  alone := h.alone_update fun hc j hj => h.alone j i hj (hp hc)
  empty := (forall_update_iff party fun _ q => q.controls = true → s'.heartbeat = none).mpr
    ⟨fun hc => hhea.trans (h.empty i (hp hc)), fun j _ hj => hhea.trans (h.empty j hj)⟩
  starting := by
    rw [hbea]
    exact (forall_update_iff party fun _ q => q = .starting → ∀ b ∈ s.beats, b.phase = .ended).mpr
      ⟨fun hc => absurd hc hnew, fun j _ => h.starting j⟩
  known n b hb hlive := by
    rw [hbea] at hb
    rw [hhea]
    rcases h.known n b hb hlive with hslot | habo | ⟨j, hj⟩
    · exact .inl hslot
    · exact .inr (.inl habo)
    · have hji : j ≠ i := by
        rintro rfl
        exact hold n hj
      refine .inr (.inr ⟨j, ?_⟩)
      rw [update_of_ne hji]
      exact hj
  one := hbea ▸ h.one

theorem start (h : BeatsSound s party) (hid : ∀ j, (party j).controls = false)
    (hend : ∀ b ∈ s.beats, b.aborted = true → b.phase = .ended)
    (hno : s.heartbeat = none) (hhea : s'.heartbeat = s.heartbeat)
    (hbea : s'.beats = s.beats) : BeatsSound s' (update party i .starting) := by
  have hde : ∀ (n : Nat) (b : Heartbeat), s.beats[n]? = some b → ¬ b.live := by
    intro n b hb hli
    rcases h.known n b hb hli with hslot | habo | ⟨j, hj⟩
    · rw [hno] at hslot
      cases hslot
    · exact hli (hend b (List.mem_of_getElem? hb) habo)
    · cases (congrArg Caller.controls hj).symm.trans (hid j)
  refine ⟨?_, ?_, ?_, ?_, ?_⟩
  · exact h.alone_update fun _ j hj => by cases (hid j).symm.trans hj
  · exact fun _ _ => hhea.trans hno
  · intro _ _ b hb
    rw [hbea] at hb
    obtain ⟨n, hn⟩ := List.getElem?_of_mem hb
    exact not_not.mp (hde n b hn)
  · intro n b hb hli
    rw [hbea] at hb
    exact absurd hli (hde n b hb)
  · exact hbea ▸ h.one

variable {n : Nat}

section

variable (h : BeatsSound s party)

include h

theorem stop (hid : ∀ j, (party j).controls = false)
    (hsl : s.heartbeat = some n) (hhea : s'.heartbeat = none)
    (hbea : s'.beats = s.beats.modify n Heartbeat.abort) :
    BeatsSound s' (update party i .stopping) := by
  have hmod : ∀ (m : Nat) (b' : Heartbeat), s'.beats[m]? = some b' → b'.live →
      ∃ b, s.beats[m]? = some b ∧ b.live ∧ (n = m → b'.aborted = true) ∧ (n ≠ m → b' = b) := by
    intro m b' hb' hli
    rw [hbea, List.getElem?_modify] at hb'
    obtain ⟨b, hb, rfl⟩ := Option.map_eq_some_iff.mp hb'
    by_cases hm : n = m
    · rw [if_pos hm] at hli ⊢
      exact ⟨b, hb, Heartbeat.live_of_abort hli, fun _ => rfl, fun hne => absurd hm hne⟩
    · rw [if_neg hm] at hli ⊢
      exact ⟨b, hb, hli, fun heq => absurd heq hm, fun _ => rfl⟩
  refine ⟨?_, ?_, ?_, ?_, ?_⟩
  · exact h.alone_update fun _ j hj => by cases (hid j).symm.trans hj
  · exact fun _ _ => hhea
  · refine (forall_update_iff party fun _ q => q = .starting → _).mpr
      ⟨nofun, fun j _ hj => ?_⟩
    cases (congrArg Caller.controls hj).symm.trans (hid j)
  · intro m b' hb' hli
    obtain ⟨b, hb, hbli, habo, hsa⟩ := hmod m b' hb' hli
    by_cases hm : n = m
    · exact .inr (.inl (habo hm))
    · rcases h.known m b hb hbli with hm' | hab | ⟨j, hj⟩
      · rw [hsl] at hm'
        exact absurd (some.inj hm') hm
      · rw [hsa hm]
        exact .inr (.inl hab)
      · cases (congrArg Caller.controls hj).symm.trans (hid j)
  · intro m k b c hb hc hbli hcli
    obtain ⟨b0, hb0, hbl0, -, -⟩ := hmod m b hb hbli
    obtain ⟨c0, hc0, hcl0, -, -⟩ := hmod k c hc hcli
    exact h.one m k b0 c0 hb0 hc0 hbl0 hcl0

theorem spawn (hi : party i = .starting)
    (hhea : s'.heartbeat = s.heartbeat) (hbea : s'.beats = s.beats ++ [⟨false, .fresh⟩]) :
    BeatsSound s' (update party i (.spawned s.beats.length)) := by
  have hcon : (party i).controls = true := by rw [hi]; rfl
  have hno : s.heartbeat = none := h.empty i hcon
  have hnew : ∀ (n : Nat) (b : Heartbeat), s'.beats[n]? = some b → b.live → n = s.beats.length := by
    intro n b hb hli
    rw [hbea] at hb
    rcases getElem?_concat_cases hb with ⟨hn, -⟩ | hb
    · exact hn
    · exact absurd (h.starting i hi b (List.mem_of_getElem? hb)) hli
  refine ⟨?_, ?_, ?_, ?_, ?_⟩
  · exact h.alone_update fun _ j hj => h.alone j i hj hcon
  · exact fun _ _ => hhea.trans hno
  · refine (forall_update_iff party fun _ q => q = .starting → _).mpr
      ⟨nofun, fun j hji hj => ?_⟩
    exact absurd (h.alone j i (congrArg Caller.controls hj) hcon) hji
  · intro n b hb hli
    refine .inr (.inr ⟨i, ?_⟩)
    rw [update_self, hnew n b hb hli]
  · intro n m b c hb hc hbli hcli
    rw [hnew n b hb hbli, hnew m c hc hcli]

theorem store (hi : party i = .spawned n) (hp : p.controls = false)
    (hhea : s'.heartbeat = some n) (hbea : s'.beats = s.beats) :
    BeatsSound s' (update party i p) := by
  have hcon : (party i).controls = true := by rw [hi]; rfl
  have hnob : ∀ j, (update party i p j).controls ≠ true := by
    intro j hj
    obtain ⟨hji, hj'⟩ := controls_update hp hj
    exact hji (h.alone j i hj' hcon)
  refine ⟨?_, ?_, ?_, ?_, hbea ▸ h.one⟩
  · exact fun j _ hj => absurd hj (hnob j)
  · exact fun j hj => absurd hj (hnob j)
  · exact fun j hj => absurd (congrArg Caller.controls hj) (hnob j)
  · intro m b hb hli
    rw [hbea] at hb
    rcases h.known m b hb hli with hslot | habo | ⟨j, hj⟩
    · rw [h.empty i hcon] at hslot
      cases hslot
    · exact .inr (.inl habo)
    · have hji : j = i := h.alone j i (congrArg Caller.controls hj) hcon
      rw [hji, hi] at hj
      rw [hhea, Caller.spawned.inj hj]
      exact .inl rfl

omit [DecidableEq ι] in
theorem move {b' : Heartbeat} (hb : s.beats[n]? = some b)
    (hmo : b.move = some b') (hhea : s'.heartbeat = s.heartbeat)
    (hbea : s'.beats = s.beats.set n b') : BeatsSound s' party := by
  obtain ⟨hbli, habo⟩ := Heartbeat.move_spec hmo
  have hba : ∀ (m : Nat) (c' : Heartbeat), s'.beats[m]? = some c' → c'.live →
      ∃ c, s.beats[m]? = some c ∧ c.live ∧ c'.aborted = c.aborted := by
    intro m c' hc' hli
    rw [hbea] at hc'
    by_cases hm : n = m
    · rw [← hm, List.getElem?_set_self (List.getElem?_eq_some_iff.mp hb).1] at hc'
      cases hc'
      exact ⟨b, hm ▸ hb, hbli, habo⟩
    · rw [List.getElem?_set_ne hm] at hc'
      exact ⟨c', hc', hli, rfl⟩
  refine ⟨h.alone, hhea ▸ h.empty, ?_, ?_, ?_⟩
  · intro i hi
    exact absurd (h.starting i hi b (List.mem_of_getElem? hb)) hbli
  · intro m c' hc' hli
    obtain ⟨c, hc, hcli, hab⟩ := hba m c' hc' hli
    rw [hhea, hab]
    exact h.known m c hc hcli
  · intro m k c d hc hd hcli hdli
    obtain ⟨c0, hc0, hcl0, -⟩ := hba m c hc hcli
    obtain ⟨d0, hd0, hdl0, -⟩ := hba k d hd hdli
    exact h.one m k c0 d0 hc0 hd0 hcl0 hdl0

end

end BeatsSound

/-! ## The jobs of a stopped scheduler -/

structure StopSound (s : Shared) (party : ι → Caller) : Prop where
  jobs : s.heartbeat = none → (∀ i, party i ≠ .stopping) → ∀ id : String, s.jobs[id]? = none
  returned : s.stopReturned = true → s.heartbeat = none ∧ ∀ i, (party i).controls = false

/-- The change is not about `start` and `stop`, and no job is new. -/
structure Aside (s s' : Shared) : Prop where
  heartbeat : s'.heartbeat = s.heartbeat
  beats : s'.beats = s.beats
  stopReturned : s'.stopReturned = s.stopReturned
  jobs : ∀ id : String, s.jobs[id]? = none → s'.jobs[id]? = none

namespace Aside

variable {s : Shared}

theorem refl (s : Shared) : Aside s s := ⟨rfl, rfl, rfl, fun _ h => h⟩

variable {entry : JobEntry}

theorem put {id : String} {entry' : JobEntry} (hget : s.jobs[id]? = some entry)
    (tasks : List JobTask) (paused : List String) (held : Option String)
    (stateFile : StateFile) : Aside s { s with
      tasks, jobs := s.jobs.insert id entry', pausedJobs := paused, held, stateFile } := by
  refine ⟨rfl, rfl, rfl, ?_⟩
  intro k hk
  show (s.jobs.insert id entry')[k]? = none
  rw [BTreeMap.get_insert, if_neg, hk]
  rintro rfl
  rw [hget] at hk
  cases hk

theorem cancelJob (s : Shared) (id : String) : Aside s (s.cancelJob id).2 := by
  fun_cases Shared.cancelJob s id
  case case1 => exact .refl s
  case case2 entry hget =>
    rw [Shared.stopHandle_eq]
    refine ⟨rfl, rfl, rfl, ?_⟩
    intro k hk
    show (s.jobs.erase id)[k]? = none
    rw [BTreeMap.get_erase, hk, ite_self]

theorem pauseJob (s : Shared) (id : String) : Aside s (s.pauseJob id).2 := by
  fun_cases Shared.pauseJob s id
  case case1 => exact .refl s
  case case2 => exact .refl s
  case case3 entry hget _ =>
    rw [Shared.stopHandle_eq]
    exact .put hget _ _ _ _

theorem takeJob {id : String} (hget : s.jobs[id]? = some entry) (paused : List String)
    (file : StateFile) :
    Aside s { s.takeJob id entry with pausedJobs := paused, stateFile := file } := by
  rw [Shared.takeJob, Shared.stopHandle_eq]
  exact .put hget _ _ _ _

theorem respawnJob {id : String} (hget : s.jobs[id]? = some entry) :
    Aside s (s.respawnJob id entry) :=
  .put hget _ _ _ _

theorem clearJobs (s : Shared) : Aside s s.clearJobs := by
  rw [Shared.clearJobs, Shared.stopAll_eq]
  exact ⟨rfl, rfl, rfl, fun _ _ => Std.ExtTreeMap.getElem?_empty⟩

end Aside

theorem insertJob_aside (s : Shared) (spec : ScheduledJobSpec) :
    (s.insertJob spec).2.heartbeat = s.heartbeat ∧ (s.insertJob spec).2.beats = s.beats ∧
      (s.insertJob spec).2.stopReturned = s.stopReturned := by
  fun_cases Shared.insertJob s spec
  case case1 | case2 => exact ⟨rfl, rfl, rfl⟩
  case case3 hspawn =>
    cases hspawn
    exact ⟨rfl, rfl, rfl⟩

namespace StopSound

variable {s s' : Shared} {party : ι → Caller} {i : ι} {p : Caller}

theorem keep (h : StopSound s party) (hold : party i = .stopping → p = .stopping)
    (hhea : s'.heartbeat = s.heartbeat)
    (hjo : ∀ id : String, s.jobs[id]? = none → s'.jobs[id]? = none)
    (hre : s'.stopReturned = true → s.stopReturned = true ∧ p.controls = false) :
    StopSound s' (update party i p) where
  jobs hno hstopping := by
    refine fun id => hjo id (h.jobs (hhea.symm.trans hno) ?_ id)
    intro j hj
    refine hstopping j ?_
    by_cases hji : j = i
    · rw [hji, update_self]
      exact hold (hji ▸ hj)
    · rw [update_of_ne hji]
      exact hj
  returned hret := by
    obtain ⟨hold, hp⟩ := hre hret
    obtain ⟨hno, hid⟩ := h.returned hold
    exact ⟨hhea.trans hno, idle_update hp fun j _ => hid j⟩

omit [DecidableEq ι] in
theorem not_returned (h : StopSound s party) (hi : (party i).controls = true) :
    s.stopReturned ≠ true :=
  fun hret => nomatch hi.symm.trans ((h.returned hret).2 i)

end StopSound

/-! ## Every run -/

structure Sound (w : World ι) : Prop where
  tasks : TasksSound w.shared
  beats : BeatsSound w.shared w.party
  stop : StopSound w.shared w.party

namespace Sound

variable {w : World ι} {i : ι} {a : Action} {p : Caller} {s' : Shared}

/-- A step outside of `start` and `stop`. -/
theorem aside (h : Sound w) (hs : Aside w.shared s') (hi : (w.party i).controls = false)
    (hp : p.controls = false) :
    BeatsSound s' (update w.party i p) ∧ StopSound s' (update w.party i p) := by
  have hoth : ∀ q : Caller, q.controls = true → w.party i ≠ q := by
    rintro q hq rfl
    cases hi.symm.trans hq
  refine ⟨h.beats.aside (fun n => hoth _ rfl) ?_ ?_ hs.heartbeat hs.beats, ?_⟩
  · exact fun hc => by cases hp.symm.trans hc
  · rintro rfl
    cases hp
  · refine h.stop.keep (fun hs => absurd hs (hoth _ rfl)) hs.heartbeat hs.jobs ?_
    exact fun hret => ⟨hs.stopReturned.symm.trans hret, hp⟩

theorem began (h : Sound w) {c : Call} {last : Option Reply} (hi : w.party i = .ready last)
    (ho : Orderly w (i, .call c)) (hst : Began w.shared c p s') :
    BeatsSound s' (update w.party i p) ∧ StopSound s' (update w.party i p) := by
  have hspa : ∀ n, w.party i ≠ .spawned n := fun n hn => by cases hi.symm.trans hn
  have hsto : w.party i = .stopping → p = .stopping := fun hs => by cases hi.symm.trans hs
  have hcon : (w.party i).controls = false := congrArg Caller.controls hi
  cases hst with
  | refused _ _ =>
    refine ⟨h.beats.aside hspa nofun nofun rfl rfl, ?_⟩
    exact h.stop.keep hsto rfl (fun _ hk => hk) nofun
  | started hnone =>
    refine ⟨h.beats.start ho.1 ho.2 hnone rfl rfl, ?_⟩
    exact h.stop.keep hsto rfl (fun _ hk => hk) nofun
  | ignored last hnone =>
    refine ⟨h.beats.aside hspa nofun nofun rfl rfl, ?_⟩
    have hke : StopSound w.shared (update w.party i (.ready last)) :=
      h.stop.keep hsto rfl (fun _ hk => hk) fun hret => ⟨hret, rfl⟩
    exact ⟨hke.jobs, fun _ => ⟨hnone, idle_update rfl fun j _ => ho j⟩⟩
  | stopped n hslot =>
    refine ⟨h.beats.stop ho hslot rfl rfl, ?_, ?_⟩
    · intro _ hnob
      exact absurd (update_self i _ w.party) (hnob i)
    · intro hret
      cases hslot.symm.trans (h.stop.returned hret).1
  | looked _ _ hp => exact h.aside (.refl _) hcon hp
  | cancelled id _ _ => exact h.aside (.cancelJob _ id) hcon rfl
  | paused id _ _ => exact h.aside (.pauseJob _ id) hcon rfl

theorem went (h : Sound w) (ho : Orderly w (i, .next)) (hst : Went w.shared (w.party i) p s') :
    BeatsSound s' (update w.party i p) ∧ StopSound s' (update w.party i p) := by
  change OrderlyNext w (w.party i) at ho
  generalize hq : w.party i = q at ho hst
  have hcon : (w.party i).controls = q.controls := congrArg Caller.controls hq
  cases hst with
  | spawned =>
    refine ⟨h.beats.spawn hq rfl rfl, ?_⟩
    refine h.stop.keep (fun hs => by cases hq.symm.trans hs) rfl (fun _ hk => hk) ?_
    exact fun hret => absurd hret (h.stop.not_returned hcon)
  | stored n _ =>
    refine ⟨h.beats.store hq rfl rfl rfl, ?_, ?_⟩
    · exact nofun
    · exact fun hret => absurd hret (h.stop.not_returned hcon)
  | cleared _ =>
    have hs : Aside w.shared w.shared.clearJobs := .clearJobs _
    refine ⟨h.beats.aside ?_ (fun _ => hcon) nofun hs.heartbeat hs.beats, ?_, ?_⟩
    · exact fun n hn => by cases hq.symm.trans hn
    · exact fun _ _ _ => Std.ExtTreeMap.getElem?_empty
    · exact fun hret =>
        absurd (hs.stopReturned.symm.trans hret) (h.stop.not_returned hcon)
  | returned last =>
    have hke : StopSound w.shared (update w.party i (.ready last)) := by
      refine h.stop.keep (fun hs => by cases hq.symm.trans hs) rfl (fun _ hk => hk) ?_
      exact fun hret => ⟨hret, rfl⟩
    refine ⟨h.beats.aside ?_ nofun nofun rfl rfl, hke.jobs, ?_⟩
    · exact fun n hn => by cases hq.symm.trans hn
    · refine fun _ => ⟨h.beats.empty i hcon, idle_update rfl fun j hji => ?_⟩
      exact Bool.eq_false_iff.mpr fun hj => hji (h.beats.alone j i hj hcon)
  | inserted spec last _ =>
    obtain ⟨hhea, hbea, hre⟩ := insertJob_aside w.shared spec
    refine ⟨h.beats.aside ?_ nofun nofun hhea hbea, ?_, ?_⟩
    · exact fun n hn => by cases hq.symm.trans hn
    · intro hno hnob
      -- the scheduler ran when the job was put in, or the map is still to be cleared
      rcases ho.1 with hsome | ⟨j, hj⟩
      · rw [hhea] at hno
        rw [hno] at hsome
        cases hsome
      · have hji : j ≠ i := by
          rintro rfl
          cases hq.symm.trans hj
        refine absurd ?_ (hnob j)
        rw [update_of_ne hji]
        exact hj
    · intro hret
      obtain ⟨hno, hid⟩ := h.stop.returned (hre.symm.trans hret)
      exact ⟨hhea.trans hno, idle_update rfl fun j _ => hid j⟩
  | looked _ _ hi hp => exact h.aside (.refl _) (hq ▸ hi) hp
  | took _ _ id entry _ _ hi hp hget => exact h.aside (.takeJob hget _ _) (hq ▸ hi) hp
  | respawned id _ entry _ _ hget =>
    exact h.aside (.respawnJob hget) hcon rfl

theorem step (h : Sound w) (ho : Orderly w (i, a)) : Sound (w.step (i, a)) := by
  refine Parties.step_induction (Q := fun w' : World ι => Sound w') h ?_
  intro p s' hadv
  have htas : TasksSound s' := by
    have hne := h.tasks.step ho
    rw [World.step, Parties.step_some hadv] at hne
    exact hne
  rcases advance_cases hadv with ⟨c, last, rfl, hi, hbeg⟩ | ⟨rfl, hwe⟩ |
    ⟨n, m, t, t', -, rfl, ht, hmo, rfl⟩ | ⟨n, b, b', -, rfl, hb, hmo, rfl⟩
  · obtain ⟨hbea, hst⟩ := h.began hi ho hbeg
    exact ⟨htas, hbea, hst⟩
  · obtain ⟨hbea, hst⟩ := h.went ho hwe
    exact ⟨htas, hbea, hst⟩
  · rw [update_eq_self]
    exact ⟨htas, ⟨h.beats.1, h.beats.2, h.beats.3, h.beats.4, h.beats.5⟩, ⟨h.stop.1, h.stop.2⟩⟩
  · rw [update_eq_self]
    exact ⟨htas, h.beats.move hb hmo rfl rfl, ⟨h.stop.1, h.stop.2⟩⟩

omit [DecidableEq ι] in
theorem boot (paused : List String) : Sound (World.boot paused : World ι) where
  tasks := by
    refine ⟨fun _ _ ht => ?_, fun _ _ _ _ ht => ?_, fun _ h => ?_, fun _ _ h => ?_⟩
    · cases ht
    · cases ht
    · cases h
    · rw [show (World.boot paused : World ι).shared.jobs = ∅ from rfl,
        Std.ExtTreeMap.getElem?_empty] at h
      cases h
  beats := by
    refine ⟨fun _ _ h => ?_, fun _ h => ?_, fun _ h => ?_, fun _ _ hb => ?_, fun _ _ _ _ hb => ?_⟩
    all_goals first
      | cases h
      | cases hb
  stop := ⟨fun _ _ _ => Std.ExtTreeMap.getElem?_empty, nofun⟩

end Sound

structure Exclusive (s : Shared) : Prop where
  /-- At most one task executes the body of a job. -/
  bodies : ∀ (n m : Nat) (t u : JobTask), s.tasks[n]? = some t → s.tasks[m]? = some u →
    t.executes = true → u.executes = true → t.job = u.job → n = m
  /-- At most one heartbeat exists. -/
  heartbeats : ∀ (n m : Nat) (b c : Heartbeat), s.beats[n]? = some b → s.beats[m]? = some c →
    b.live → c.live → n = m
  /-- Between the return of a `stop` and the next `start`, no entry has a handle. -/
  stopped : s.stopReturned = true → ∀ (id : String) (entry : JobEntry),
    s.jobs[id]? = some entry → entry.handle = none

theorem JobTask.live_of_executes (h : t.executes = true) : t.live := by
  intro hend
  simp [JobTask.executes, hend] at h

omit [DecidableEq ι] in
theorem Sound.exclusive {w : World ι} (h : Sound w) : Exclusive w.shared where
  bodies n m t u ht hu htbody hubody hjob :=
    h.tasks.one n m t u ht hu (JobTask.live_of_executes htbody) (JobTask.live_of_executes hubody)
      hjob
  heartbeats := h.beats.one
  stopped hret id entry hget := by
    obtain ⟨hno, hid⟩ := h.stop.returned hret
    have hnob : ∀ i, w.party i ≠ .stopping := by
      intro i hi
      cases (congrArg Caller.controls hi).symm.trans (hid i)
    rw [h.stop.jobs hno hnob id] at hget
    cases hget

/-- **EXCLUSIVITY.** In every run whose steps are orderly, from any set of paused jobs: at
most one task executes the body of a job, at most one heartbeat exists, and between
the return of a `stop` and the next `start` no entry holds a handle. -/
theorem scheduler_exclusive (paused : List String) (events : List (ι × Action))
    (horderly : Run.Along World.step Orderly (World.boot paused) events) :
    Exclusive (Run.run World.step (World.boot paused) events).shared := by
  have hst : ∀ (w : World ι) (event : ι × Action), Sound w → Orderly w event →
      Sound (w.step event) := fun w event hw ho => hw.step ho
  exact (Run.invariant hst (Sound.boot paused) horderly).exclusive

/-! ## Runs -/

def sampleJob : ScheduledJobSpec := ⟨"refresh", 60, none⟩

/-- A start, a job, a `restart_job` while its task sleeps, and a stop while it awaits
something inside the body. -/
def orderlyEvents : List (Bool × Action) :=
  [(false, .call .start), (false, .next), (false, .next), (true, .beat 0), (true, .beat 0),
    (false, .call (.schedule sampleJob)), (false, .next), (true, .job 0 .proceed),
    (true, .job 0 .proceed), (true, .job 0 .finish), (true, .job 0 .proceed),
    (true, .call (.restart "refresh")), (true, .next), (true, .next), (true, .job 1 .proceed),
    (true, .job 1 .proceed), (true, .job 1 .suspend), (false, .call .stop), (false, .next),
    (false, .next)]

theorem scheduler_exclusive_day : Run.Along World.step Orderly (World.boot []) orderlyEvents ∧
      Exclusive (Run.run World.step (World.boot []) orderlyEvents).shared := by
  have hord : Run.Along World.step Orderly (World.boot []) orderlyEvents := by decide +kernel
  exact ⟨hord, scheduler_exclusive [] orderlyEvents hord⟩

/-- **NO STRAY TASKS**: in every orderly run a live task that was not told to stop is the one
its job's entry holds, so that a later `cancel` or `stop` reaches it; and a job has one
live task at most. -/
theorem no_stray_tasks (paused : List String) (events : List (ι × Action))
    (horderly : Run.Along World.step Orderly (World.boot paused) events) :
    let s := (Run.run World.step (World.boot paused) events).shared
    ∀ n (t : JobTask), s.tasks[n]? = some t → t.live →
      (t.stopFlag = false → ∃ entry, s.jobs[t.job]? = some entry ∧ entry.handle = some n) ∧
      ∀ m (u : JobTask), s.tasks[m]? = some u → u.live → t.job = u.job → n = m := by
  have hst : ∀ (w : World ι) (event : ι × Action), Sound w → Orderly w event →
      Sound (w.step event) := fun w event hw ho => hw.step ho
  have hsou := (Run.invariant hst (Sound.boot paused) horderly).tasks
  intro s n t ht hlive
  exact ⟨hsou.known n t ht hlive, fun m u hu hlive' hjob => hsou.one n m t u ht hu hlive hlive' hjob⟩

theorem no_stray_tasks_scheduled :
    let s := (Run.run World.step (World.boot []) (orderlyEvents.take 7)).shared
    ∃ entry, s.jobs["refresh"]? = some entry ∧ entry.handle = some 0 :=
  (no_stray_tasks [] _ (by decide +kernel) 0 ⟨"refresh", none, false, .fresh⟩ (by decide +kernel)
    (by decide)).1 rfl

/-- `restart_job` while the old task runs inside the body of the job. -/
def restartInBody : List (Bool × Action) :=
  [(false, .call .start), (false, .next), (false, .next), (false, .call (.schedule sampleJob)),
    (false, .next), (true, .job 0 .proceed), (true, .job 0 .proceed),
    (false, .call (.restart "refresh")), (false, .next), (false, .next), (true, .job 1 .proceed),
    (true, .job 1 .proceed)]

/-- Two callers of `start`, each before the other has stored its handle. -/
def doubleStart : List (Bool × Action) :=
  [(false, .call .start), (true, .call .start), (false, .next), (false, .next), (true, .next),
    (true, .next)]

/-- `stop` between the look of `schedule_fixed_rate` at the heartbeat and its insertion. -/
def lateSchedule : List (Bool × Action) :=
  [(false, .call .start), (false, .next), (false, .next), (true, .call (.schedule sampleJob)),
    (false, .call .stop), (false, .next), (false, .next), (true, .next)]

/-- **THREE RUNS THAT ARE NOT EXCLUSIVE.** Two tasks execute the body of one job; two
heartbeats exist, one of them in no slot; a `stop` has returned and an entry holds the
handle of a live task. -/
theorem scheduler_overlaps : ((Run.run World.step (World.boot []) restartInBody).shared.tasks.map
        fun t => (t.job, t.executes)) = [("refresh", true), ("refresh", true)] ∧
    ((Run.run World.step (World.boot []) doubleStart).shared.heartbeat = some 1 ∧
      (Run.run World.step (World.boot []) doubleStart).shared.beats =
        [⟨false, .fresh⟩, ⟨false, .fresh⟩]) ∧
    ((Run.run World.step (World.boot []) lateSchedule).shared.stopReturned = true ∧
      (Run.run World.step (World.boot []) lateSchedule).shared.jobs["refresh"]? =
        some ⟨sampleJob, some 0, false⟩ ∧
      (Run.run World.step (World.boot []) lateSchedule).shared.tasks =
        [⟨"refresh", none, false, .fresh⟩]) ∧
    ∀ events ∈ [restartInBody, doubleStart, lateSchedule],
      ¬ Exclusive (Run.run World.step (World.boot []) events).shared := by
  have hres : (Run.run World.step (World.boot []) restartInBody).shared.tasks =
      [⟨"refresh", none, true, .inBody⟩, ⟨"refresh", none, false, .inBody⟩] := by decide +kernel
  have hbea : (Run.run World.step (World.boot []) doubleStart).shared.beats =
      [⟨false, .fresh⟩, ⟨false, .fresh⟩] := by decide +kernel
  have hret : (Run.run World.step (World.boot []) lateSchedule).shared.stopReturned = true := by
    decide +kernel
  have hent : (Run.run World.step (World.boot []) lateSchedule).shared.jobs["refresh"]? =
      some ⟨sampleJob, some 0, false⟩ := by decide +kernel
  refine ⟨by rw [hres]; decide, ⟨by decide +kernel, hbea⟩, ⟨hret, hent, by decide +kernel⟩, ?_⟩
  intro events hmem hexc
  simp only [List.mem_cons, List.not_mem_nil, or_false] at hmem
  rcases hmem with rfl | rfl | rfl
  · have hone : 0 = 1 := hexc.bodies 0 1 ⟨"refresh", none, true, .inBody⟩
      ⟨"refresh", none, false, .inBody⟩ (by rw [hres]; rfl) (by rw [hres]; rfl) rfl rfl rfl
    cases hone
  · have hone : 0 = 1 := hexc.heartbeats 0 1 ⟨false, .fresh⟩ ⟨false, .fresh⟩
      (by rw [hbea]; rfl) (by rw [hbea]; rfl) (by decide) (by decide)
    cases hone
  · cases hexc.stopped hret "refresh" _ hent

end Fenrir.Scheduler
