import Fenrir.Lib.Triple
import Fenrir.Runtime.Fleet
import Fenrir.Runtime.Rolling

/-! # Capacity during a rolling restart

For a fleet of two or more instances: how a round ends, by what the outside
answers (`round_cases`), and from it what the whole rollout keeps. -/

namespace Fenrir.Runtime

open Effect Effect.Act Modules List

open InstanceSnapshot (fromInstanceInfo)

/-! ## The next replica, from the ids -/

def topOrdinal (keys : Finset String) : Nat := keys.sup fun key => (replicaOrdinal key).getD 0

def nextKey (m : ModuleId) (keys : Finset String) : String :=
  replicaInstanceId m (min (topOrdinal keys + 1) usizeMax)

variable {m : ModuleId}

theorem topOrdinal_le {keys : Finset String} {bound : Nat} : topOrdinal keys ≤ bound ↔
    ∀ key ∈ keys, ∀ n, replicaOrdinal key = some n → n ≤ bound := by
  rw [topOrdinal, Finset.sup_le_iff]
  refine forall₂_congr fun key _ => ?_
  cases replicaOrdinal key with
  | none | some n => simp

theorem le_topOrdinal {keys : Finset String} {key : String} {n : Nat} (hkey : key ∈ keys)
    (hn : replicaOrdinal key = some n) : n ≤ topOrdinal keys :=
  topOrdinal_le.mp le_rfl key hkey n hn

theorem maxOrdinal_eq (running : BTreeMap RunningModuleState) :
    maxOrdinal m running = topOrdinal (keysOf m running) :=
  eq_of_forall_ge_iff fun _ => maxOrdinal_keysOf.trans topOrdinal_le.symm

theorem nextReplicaInstanceId_eq (running : BTreeMap RunningModuleState) :
    nextReplicaInstanceId m running = nextKey m (keysOf m running) := by
  rw [nextReplicaInstanceId, nextKey, maxOrdinal_eq]

theorem topOrdinal_lt {keys : Finset String} (hke : ∀ key ∈ keys, InstanceOf m key)
    (hnew : nextKey m keys ∉ keys) : topOrdinal keys < usizeMax := by
  by_contra hge
  push Not at hge
  have hze : 0 < usizeMax := by decide
  -- some id has the largest ordinal, and it is the one the next replica would get
  have hne : keys.Nonempty := by
    by_contra hempty
    rw [Finset.not_nonempty_iff_eq_empty] at hempty
    rw [hempty] at hge
    exact absurd hge (by decide)
  obtain ⟨key, hkey, hsup⟩ := Finset.exists_mem_eq_sup keys hne
    fun key => (replicaOrdinal key).getD 0
  have htop : (replicaOrdinal key).getD 0 = topOrdinal keys := hsup.symm
  rcases hke key hkey with rfl | ⟨ordinal, hle, rfl⟩
  · rw [replicaOrdinal_primary, Option.getD_none] at htop
    omega
  · rw [replicaOrdinal_replica m hle, Option.getD_some] at htop
    have hnex : nextKey m keys = replicaInstanceId m ordinal := by
      rw [nextKey, min_eq_right (by omega)]
      congr 1
      omega
    rw [hnex] at hnew
    exact hnew hkey

theorem nextKey_ordinal {keys : Finset String} (hlt : topOrdinal keys < usizeMax) :
    replicaOrdinal (nextKey m keys) = some (topOrdinal keys + 1) := by
  rw [nextKey, min_eq_left hlt, replicaOrdinal_replica m hlt]

/-! ## Where a rollout stands -/

/-- Never fewer instances between the calls. -/
def Between (m : ModuleId) (n : Nat) (r : Rollout) : Prop :=
  ∀ s ∈ r.moments, n ≤ tracked m s.running

/-- A fleet with these ids, and what the record says. -/
structure At (m : ModuleId) (n : Nat) (keys : Finset String) (failed : Bool)
    (restarts : List String) (r : Rollout) : Prop where
  fleet : Fleet m r.runtime.running
  keys_eq : keysOf m r.runtime.running = keys
  failed_eq : r.failed = failed
  restarts_eq : r.restarts = restarts
  between : Between m n r

/-- The rollout is over with the instances counted. -/
structure Stopped (m : ModuleId) (n count : Nat) (r : Rollout) : Prop where
  count_eq : tracked m r.runtime.running = count
  between : Between m n r

variable {n : Nat} {keys : Finset String} {failed : Bool} {restarts : List String} {r : Rollout}

section

variable (h : At m n keys failed restarts r)

include h

theorem At.count : tracked m r.runtime.running = keys.card := by
  rw [tracked_eq_card h.fleet.shape, h.keys_eq]

theorem At.instanceOf : ∀ key ∈ keys, InstanceOf m key := by
  intro key hkey
  rw [← h.keys_eq] at hkey
  obtain ⟨st, hget, hm⟩ := (mem_keysOf h.fleet.shape).mp hkey
  exact hm ▸ (h.fleet.shape key st hget).2

theorem At.next : nextReplicaInstanceId m r.runtime.running = nextKey m keys := by
  rw [nextReplicaInstanceId_eq, h.keys_eq]

end

variable {s : RuntimeState} {index : Nat} {healthVerified : Bool}
  {done rest : List InstanceSnapshot} {r' : Rollout} {final t x : String} {keys0 : Finset String}

theorem Between.snoc (h : Between m n r) (hs : n ≤ tracked m s.running) :
    ∀ s' ∈ r.moments ++ [s], n ≤ tracked m s'.running := by
  intro s' hmem
  rcases mem_append.mp hmem with hold | hnew
  · exact h s' hold
  · rw [mem_singleton.mp hnew]
    exact hs

/-! ## The surge -/

variable {host : ProcessModuleRuntime} {a : RoundAnswers} {env : List (String × String)}

def Rollout.after (r : Rollout) (s : RuntimeState) : Rollout :=
  { r with runtime := s, moments := r.moments ++ [s] }

theorem call_run {α : Type} {x : Act RuntimeState ModuleRuntimeError α}
    {result : Except ModuleRuntimeError α} (h : x r.runtime = (result, s)) :
    call x r = (result, r.after s) := by
  rw [call, h]
  rfl

theorem At.after (h : At m n keys failed restarts r) {keys' : Finset String}
    (hfle : Fleet m s.running) (hke : keysOf m s.running = keys') (hn : n ≤ keys'.card) :
    At m n keys' failed restarts (r.after s) := by
  refine ⟨hfle, hke, h.failed_eq, h.restarts_eq, h.between.snoc ?_⟩
  rw [tracked_eq_card hfle.shape, hke]
  exact hn

theorem At.list (h : At m n keys failed restarts r) (hca : keys.card = n) :
    call (listInstances m) r = (.ok (listing m r.runtime), r.after r.runtime) ∧
      At m n keys failed restarts (r.after r.runtime) :=
  ⟨call_run (listInstances_ok h.fleet.present), h.after h.fleet h.keys_eq hca.ge⟩

variable (host env) in
theorem At.back (h : At m n keys failed restarts r) (hca : keys.card = n + 1) (hn : n ≠ 0)
    (answers : RuntimeAnswers) : ∃ last, IsLast m keys last ∧
      At m n (keys.erase last) failed restarts
        (r.after (reconcileInstances host answers ⟨m, none, env⟩ n r.runtime).2) := by
  obtain ⟨last, hla, hrun⟩ := reconcile_down host answers env h.fleet (h.count.trans hca) hn
  rw [h.keys_eq] at hla
  refine ⟨last, hla, h.after ?_ ?_ ?_⟩
  · rw [hrun]
    exact h.fleet.erase hla.2.1
  · rw [hrun, keysOf_erase h.fleet.shape, h.keys_eq]
  · rw [Finset.card_erase_of_mem hla.1, hca]
    exact le_rfl

theorem find_surge {s' : RuntimeState} {key : String}
    (hke : keysOf m s'.running = insert key (keysOf m s.running)) :
    ((listing m s').find? fun i => i.instanceId ∉ (listing m s).map (·.instanceId)).isSome ↔
      key ∉ keysOf m s.running := by
  rw [List.find?_isSome]
  constructor
  · rintro ⟨i, hi, hnew⟩
    rw [decide_eq_true_eq, mem_listing_ids] at hnew
    have hmem : i.instanceId ∈ keysOf m s'.running := mem_listing_ids.mp (mem_map_of_mem hi)
    rw [hke] at hmem
    rwa [← (Finset.mem_insert.mp hmem).resolve_right hnew]
  · intro hnew
    have hmem : key ∈ (listing m s').map (·.instanceId) := by
      rw [mem_listing_ids, hke]
      exact Finset.mem_insert_self ..
    obtain ⟨i, hi, rfl⟩ := mem_map.mp hmem
    refine ⟨i, hi, ?_⟩
    rw [decide_eq_true_eq, mem_listing_ids]
    exact hnew

variable (host a env) in
theorem checkSurge_cases (hke : keysOf m s.running = keys)
    (h : At m n (insert (nextKey m keys) keys) failed restarts r) (hca : keys.card = n)
    (hn : n ≠ 0) :
    (∃ e r', checkSurge host a m n env (listing m s) (listing m r.runtime) r = (.error e, r') ∧
      Stopped m n n r') ∨
    (checkSurge host a m n env (listing m s) (listing m r.runtime) r = (.ok (), r) ∧
      nextKey m keys ∉ keys) := by
  have hfi := find_surge (h.keys_eq.trans (by rw [hke]) :
    keysOf m r.runtime.running = insert (nextKey m keys) (keysOf m s.running))
  rw [hke] at hfi
  rw [checkSurge]
  cases hsur : (listing m r.runtime).find?
      fun i => i.instanceId ∉ (listing m s).map (·.instanceId) with
  | none =>
    -- the next id was in use, the instance under it was replaced
    rw [hsur] at hfi
    have hold : nextKey m keys ∈ keys := by
      by_contra hnew
      cases hfi.mpr hnew
    rw [Finset.insert_eq_of_mem hold] at h
    exact .inl ⟨_, _, rfl, h.count.trans hca, h.between⟩
  | some surge =>
    rw [hsur] at hfi
    have hnew : nextKey m keys ∉ keys := hfi.mp rfl
    have hca' : (insert (nextKey m keys) keys).card = n + 1 := by
      rw [Finset.card_insert_of_notMem hnew, hca]
    dsimp only
    cases verifyModuleRolloutHealth surge.runtime.port a.surgeProbe with
    | ok _ => exact .inr ⟨rfl, hnew⟩
    | error err =>
      have hfai : At m n (insert (nextKey m keys) keys) true restarts
          { r with failed := true } := ⟨h.fleet, h.keys_eq, rfl, h.restarts_eq, h.between⟩
      obtain ⟨last, hla, hba⟩ := hfai.back host env hca' hn a.back
      refine .inl ⟨_, _, rfl, ?_, hba.between⟩
      refine hba.count.trans ?_
      rw [Finset.card_erase_of_mem hla.1, hca']
      rfl

variable (host a env) in
/-- **THE SURGE** is up under a new id, or the rollout stops with the count as it was. -/
theorem raiseSurge_cases (h : At m n keys failed restarts r) (hca : keys.card = n) (hn : n ≠ 0) :
    (∃ e r', raiseSurge host a m n env r = (.error e, r') ∧ Stopped m n n r') ∨
    (∃ r', raiseSurge host a m n env r = (.ok (), r') ∧ nextKey m keys ∉ keys ∧
      At m n (insert (nextKey m keys) keys) failed restarts r') := by
  obtain ⟨hli, h1⟩ := h.list hca
  have hup := reconcile_up host a.surge env h1.fleet (h1.count.trans hca) hn
  rw [raiseSurge, bind_of_ok hli]
  cases hlau : launchReplica host a.surge m env (r.after r.runtime).runtime with
  | error e =>
    rw [hlau] at hup
    rw [bind_of_ok (attempt_of_run (call_run hup))]
    refine .inl ⟨e, _, rfl, ?_, ?_⟩
    · exact h1.count.trans hca
    · exact h1.between.snoc (h1.count.trans hca).ge
  | ok st =>
    rw [hlau] at hup
    rw [bind_of_ok (attempt_of_run (call_run hup))]
    have hke := withInstance_keys h1.fleet hlau
    rw [h1.next, h1.keys_eq] at hke
    have hca' : n ≤ (insert (nextKey m keys) keys).card :=
      hca.ge.trans (Finset.card_le_card (Finset.subset_insert ..))
    have h2 := h1.after (withInstance_fleet h1.fleet hlau) hke hca'
    rcases checkSurge_cases host a env h.keys_eq h2 hca hn with
      hstop | ⟨hok, hnew⟩
    · exact .inl hstop
    · exact .inr ⟨_, hok, hnew, h2⟩

/-! ## The target -/

variable {target : InstanceSnapshot}

/-- With the surge up: a target that restarts passes its check, and a target that is
missing comes after no failed check. -/
def TargetFine (host : ProcessModuleRuntime) (a : RoundAnswers) (m : ModuleId)
    (target : InstanceSnapshot) (r : Rollout) : Prop :=
  match restartInstance host a.restart m target.instanceId r.runtime with
  | (.ok info, _) => (verifyModuleRolloutHealth info.port a.restartProbe).isOk = true
  | (.error _, _) => target.instanceId ∈ keysOf m r.runtime.running ∨ r.failed = false

instance (host : ProcessModuleRuntime) (a : RoundAnswers) (m : ModuleId)
    (target : InstanceSnapshot) (r : Rollout) : Decidable (TargetFine host a m target r) :=
  match h : restartInstance host a.restart m target.instanceId r.runtime with
  | (.ok info, _) =>
    decidable_of_iff ((verifyModuleRolloutHealth info.port a.restartProbe).isOk = true)
      (by rw [TargetFine, h])
  | (.error _, _) =>
    decidable_of_iff (target.instanceId ∈ keysOf m r.runtime.running ∨ r.failed = false)
      (by rw [TargetFine, h])

theorem At.restarted (h : At m n keys failed restarts r) (hn : n ≤ keys.card) {key : String}
    {st st' : RunningModuleState} (hof : InstanceOf m key)
    (hget : r.runtime.running[key]? = some st)
    (hrun : s.running = r.runtime.running.insert key st') (hm : st'.moduleId = m)
    (hid : st'.instanceId = key) (hpri : st'.primary = st.primary) :
    At m n keys failed (restarts ++ [key]) { r.after s with restarts := r.restarts ++ [key] } := by
  subst hid
  have hm' : st.moduleId = m := h.fleet.shape.moduleId_eq hof hget
  have hst : st ∈ statesOf m r.runtime.running := mem_statesOf.mpr ⟨⟨_, hget⟩, hm'⟩
  have hmem : st'.instanceId ∈ keys := by
    rw [← h.keys_eq]
    exact (mem_keysOf h.fleet.shape).mpr ⟨st, hget, hm'⟩
  have hfl : st'.primary = true ↔ st'.instanceId = primaryInstanceId m := by
    rw [hpri, h.fleet.flags st hst, (h.fleet.shape _ st hget).1]
  have hfle : Fleet m s.running := by
    rw [hrun]
    exact h.fleet.insert hm hof hfl
  have hke : keysOf m s.running = keys := by
    rw [hrun, keysOf_insert h.fleet.shape hm hof, h.keys_eq, Finset.insert_eq_of_mem hmem]
  have haft := h.after hfle hke hn
  exact ⟨haft.fleet, haft.keys_eq, haft.failed_eq, by rw [← h.restarts_eq], haft.between⟩

theorem At.lost (h : At m n keys failed restarts r) (hca : keys.card = n + 1) {key : String}
    (hkey : key ∈ keys) (hrun : s.running = r.runtime.running.erase key) :
    Stopped m n n (r.after s) := by
  have hcou : tracked m s.running = n := by
    rw [hrun, tracked_eq_card (h.fleet.shape.erase key), keysOf_erase h.fleet.shape, h.keys_eq,
      Finset.card_erase_of_mem hkey, hca]
    rfl
  exact ⟨hcou, h.between.snoc hcou.ge⟩

variable (host a env) in
theorem settleTarget_cases (h : At m n keys failed restarts r) (hca : keys.card = n + 1)
    (hn : n ≠ 0) (info : ModuleRuntimeInfo) :
    ((verifyModuleRolloutHealth info.port a.restartProbe).isOk = true ∧
      ((∃ e r', settleTarget host a m n env info r = (.error e, r') ∧ Stopped m n n r') ∨
        ∃ r' last, settleTarget host a m n env info r = (.ok info, r') ∧ IsLast m keys last ∧
          At m n (keys.erase last) failed restarts r')) ∨
    ((verifyModuleRolloutHealth info.port a.restartProbe).isOk = false ∧
      ∃ e r', settleTarget host a m n env info r = (.error e, r') ∧ Stopped m n (n + 1) r' ∧
        r'.failed = true) := by
  rw [settleTarget]
  cases verifyModuleRolloutHealth info.port a.restartProbe with
  | error err => exact .inr ⟨rfl, _, _, rfl, ⟨h.count.trans hca, h.between⟩, rfl⟩
  | ok note =>
    obtain ⟨last, hla, hba⟩ := h.back host env hca hn a.settle
    refine .inl ⟨rfl, ?_⟩
    cases hrun : reconcileInstances host a.settle ⟨m, none, env⟩ n r.runtime with
    | mk result s =>
      rw [hrun] at hba
      cases result with
      | error e =>
        refine .inl ⟨e, _, bind_of_error (call_run hrun), ?_, hba.between⟩
        refine hba.count.trans ?_
        rw [Finset.card_erase_of_mem hla.1, hca]
        rfl
      | ok _ => exact .inr ⟨_, last, bind_of_ok (call_run hrun), hla, hba⟩

variable (host a env) in
/-- **THE TARGET**: how the second half of a round ends. -/
theorem replaceTarget_cases (h : At m n keys failed restarts r) (hca : keys.card = n + 1)
    (hn : n ≠ 0) (hof : InstanceOf m target.instanceId) :
    (∃ e r', replaceTarget host a m target n env r = (.error e, r') ∧ Stopped m n n r' ∧
      TargetFine host a m target r) ∨
    (∃ e r', replaceTarget host a m target n env r = (.error e, r') ∧ Stopped m n (n + 1) r' ∧
      (r'.failed = true ↔ ¬ TargetFine host a m target r)) ∨
    (∃ info r' last, replaceTarget host a m target n env r = (.ok info, r') ∧
      target.instanceId ∈ keys ∧ IsLast m keys last ∧
      At m n (keys.erase last) failed (restarts ++ [target.instanceId]) r' ∧
      TargetFine host a m target r) := by
  have hcou : tracked m r.runtime.running = n + 1 := h.count.trans hca
  rw [replaceTarget, TargetFine]
  cases hget : r.runtime.running[target.instanceId]? with
  | none =>
    -- the target is missing
    have hrun := restartInstance_missing m host a.restart hget
    have hkey : target.instanceId ∉ keysOf m r.runtime.running := by
      intro hmem
      obtain ⟨st, hso, -⟩ := (mem_keysOf h.fleet.shape).mp hmem
      rw [hget] at hso
      cases hso
    rw [hrun, bind_of_error (call_run hrun)]
    refine .inr (.inl ⟨_, _, rfl, ⟨hcou, h.between.snoc (by omega)⟩, ?_⟩)
    show r.failed = true ↔ ¬ (_ ∨ r.failed = false)
    simp [hkey]
  | some st =>
    have hm : st.moduleId = m := h.fleet.shape.moduleId_eq hof hget
    have hkey : target.instanceId ∈ keysOf m r.runtime.running :=
      (mem_keysOf h.fleet.shape).mpr ⟨st, hget, hm⟩
    have hke' : target.instanceId ∈ keys := h.keys_eq ▸ hkey
    rcases restartInstance_tracked host a.restart h.fleet.shape hget hm with
      ⟨e, s, hrun, hru⟩ | ⟨info, s, st', hrun, hru, hm', hid, hpri⟩
    · rw [hrun, bind_of_error (call_run hrun)]
      exact .inl ⟨e, _, rfl, h.lost hca hke' hru, .inl hkey⟩
    · rw [hrun, bind_of_ok (call_run hrun), bind_of_ok (modify_run _ _)]
      have hat := h.restarted (by omega) hof hget hru hm' hid hpri
      rcases settleTarget_cases host a env hat hca hn info with
        ⟨hok, ⟨e, r', hset, hst⟩ | ⟨r', last, hset, hla, hat'⟩⟩ |
          ⟨hbad, e, r', hset, hst, hfailed⟩
      · exact .inl ⟨e, r', hset, hst, hok⟩
      · exact .inr (.inr ⟨info, r', last, hset, hke', hla, hat', hok⟩)
      · refine .inr (.inl ⟨e, r', hset, hst, fun _ hfi => ?_, fun _ => hfailed⟩)
        exact absurd (hbad.symm.trans hfi) Bool.false_ne_true

/-! ## The round -/

/-- What a round must meet: its target is fine once the surge is up. -/
def RoundFine (host : ProcessModuleRuntime) (a : RoundAnswers) (m : ModuleId)
    (target : InstanceSnapshot) (n : Nat) (env : List (String × String)) (r : Rollout) : Prop :=
  match raiseSurge host a m n env r with
  | (.ok _, r') => TargetFine host a m target r'
  | (.error _, _) => True

instance decidableRoundFine (host : ProcessModuleRuntime) (a : RoundAnswers) (m : ModuleId)
    (target : InstanceSnapshot) (n : Nat) (env : List (String × String)) (r : Rollout) :
    Decidable (RoundFine host a m target n env r) :=
  match h : raiseSurge host a m n env r with
  | (.ok _, r') => decidable_of_iff (TargetFine host a m target r') (by rw [RoundFine, h])
  | (.error _, _) => isTrue (by rw [RoundFine, h]; trivial)

variable (host a env) in
/-- **A ROUND** stops with the count as it was, stops with the surge up, or is done. -/
theorem round_cases (h : At m n keys failed restarts r) (hca : keys.card = n) (hn : n ≠ 0)
    (hof : InstanceOf m target.instanceId) :
    (∃ e r', surgeReplaceInstance host a m target n env r = (.error e, r') ∧ Stopped m n n r' ∧
      RoundFine host a m target n env r) ∨
    (∃ e r', surgeReplaceInstance host a m target n env r = (.error e, r') ∧
      Stopped m n (n + 1) r' ∧ (r'.failed = true ↔ ¬ RoundFine host a m target n env r)) ∨
    (∃ info r' last, surgeReplaceInstance host a m target n env r = (.ok info, r') ∧
      nextKey m keys ∉ keys ∧ target.instanceId ∈ insert (nextKey m keys) keys ∧
      IsLast m (insert (nextKey m keys) keys) last ∧
      At m n ((insert (nextKey m keys) keys).erase last) failed
        (restarts ++ [target.instanceId]) r' ∧
      RoundFine host a m target n env r) := by
  rw [surgeReplaceInstance]
  rcases raiseSurge_cases host a env h hca hn with
    ⟨e, r', hrai, hst⟩ | ⟨r1, hrai, hnew, h1⟩
  · refine .inl ⟨e, r', bind_of_error hrai, hst, ?_⟩
    rw [RoundFine, hrai]
    trivial
  · have hfi : RoundFine host a m target n env r ↔ TargetFine host a m target r1 := by
      rw [RoundFine, hrai]
    have hca' : (insert (nextKey m keys) keys).card = n + 1 := by
      rw [Finset.card_insert_of_notMem hnew, hca]
    rw [bind_of_ok hrai, hfi]
    rcases replaceTarget_cases host a env h1 hca' hn hof with
      hst | hle | ⟨info, r', last, hrun, hkey, hla, hat, htar⟩
    · exact .inl hst
    · exact .inr (.inl hle)
    · exact .inr (.inr ⟨info, r', last, hrun, hnew, hkey, hla, hat, htar⟩)

/-! ## The loop -/

def Rollout.checked (r : Rollout) (passed : Bool) : Rollout :=
  { r with failed := r.failed || !passed }

theorem lastCheck_run (a : RoundAnswers) (info : ModuleRuntimeInfo) (r : Rollout) :
    lastCheck a info r = (.ok (verifyModuleRolloutHealth info.port a.lastProbe).isOk,
        r.checked (verifyModuleRolloutHealth info.port a.lastProbe).isOk) := by
  rw [lastCheck, Rollout.checked]
  cases verifyModuleRolloutHealth info.port a.lastProbe with
  | ok note =>
    show (_, r) = (_, { r with failed := r.failed || false })
    rw [Bool.or_false]
    rfl
  | error err =>
    show (_, { r with failed := true }) = (_, { r with failed := r.failed || true })
    rw [Bool.or_true]
    rfl

theorem At.checked (h : At m n keys failed restarts r) (passed : Bool) :
    At m n keys (failed || !passed) restarts (r.checked passed) :=
  ⟨h.fleet, h.keys_eq, by rw [Rollout.checked, h.failed_eq], h.restarts_eq, h.between⟩

def RoundsFine (host : ProcessModuleRuntime) (abort : Bool) (answers : Nat → RoundAnswers)
    (m : ModuleId) (n : Nat) (env : List (String × String)) :
    Nat → Bool → List InstanceSnapshot → Rollout → Prop
  | _, _, [], _ => True
  | index, healthVerified, target :: rest, r =>
    RoundFine host (answers index) m target n env r ∧
      match surgeReplaceInstance host (answers index) m target n env r with
      | (.error _, _) => True
      | (.ok info, r') =>
        let passed := (verifyModuleRolloutHealth info.port (answers index).lastProbe).isOk
        (!(healthVerified && passed) && abort) = false →
          RoundsFine host abort answers m n env (index + 1) (healthVerified && passed) rest
            (r'.checked passed)

instance decidableRoundsFine (host : ProcessModuleRuntime) (abort : Bool)
    (answers : Nat → RoundAnswers) (m : ModuleId) (n : Nat) (env : List (String × String)) :
    (index : Nat) → (healthVerified : Bool) → (rest : List InstanceSnapshot) → (r : Rollout) →
      Decidable (RoundsFine host abort answers m n env index healthVerified rest r)
  | _, _, [], _ => isTrue trivial
  | index, healthVerified, target :: rest, r =>
    match h : surgeReplaceInstance host (answers index) m target n env r with
    | (.error _, _) =>
      decidable_of_iff (RoundFine host (answers index) m target n env r)
        (by rw [RoundsFine, h]; exact (and_iff_left trivial).symm)
    | (.ok info, r') =>
      let passed := (verifyModuleRolloutHealth info.port (answers index).lastProbe).isOk
      have := decidableRoundsFine host abort answers m n env (index + 1)
        (healthVerified && passed) rest (r'.checked passed)
      decidable_of_iff (RoundFine host (answers index) m target n env r ∧
          ((!(healthVerified && passed) && abort) = false →
            RoundsFine host abort answers m n env (index + 1) (healthVerified && passed) rest
              (r'.checked passed)))
        (by rw [RoundsFine, h])

variable {abort : Bool} {answers : Nat → RoundAnswers}

theorem rollRounds_error (hn : 1 < n) {restarted : List InstanceSnapshot} {e : ModuleRuntimeError}
    (h : surgeReplaceInstance host (answers index) m target n env r = (.error e, r')) :
    rollRounds host abort answers m n env index healthVerified restarted (target :: rest) r =
      (.error e, r') := by
  rw [rollRounds, replaceOne, if_pos hn]
  exact bind_of_error h

variable (abort) in
theorem rollRounds_ok (hn : 1 < n) {info : ModuleRuntimeInfo} (healthVerified : Bool)
    (restarted rest : List InstanceSnapshot)
    (h : surgeReplaceInstance host (answers index) m target n env r = (.ok info, r')) :
    let passed := (verifyModuleRolloutHealth info.port (answers index).lastProbe).isOk
    rollRounds host abort answers m n env index healthVerified restarted (target :: rest) r =
      if (!(healthVerified && passed) && abort) = true then
        (.ok (restarted ++ [⟨target.instanceId, info.port, target.primary⟩],
          healthVerified && passed), r'.checked passed)
      else
        rollRounds host abort answers m n env (index + 1) (healthVerified && passed)
          (restarted ++ [⟨target.instanceId, info.port, target.primary⟩]) rest
          (r'.checked passed) := by
  intro passed
  rw [rollRounds, replaceOne, if_pos hn, bind_of_ok h, bind_of_ok (lastCheck_run _ _ _)]
  by_cases hst : (!(healthVerified && passed) && abort) = true
  · rw [if_pos hst, if_pos hst]
    rfl
  · rw [if_neg hst, if_neg hst]

theorem card_round (hca : keys.card = n) (hnew : t ∉ keys) (hx : x ∈ insert t keys) :
    ((insert t keys).erase x).card = n := by
  rw [Finset.card_erase_of_mem hx, Finset.card_insert_of_notMem hnew, hca]
  rfl

/-- **AFTER A FAILURE** the count is as before, unless a round leaves its surge up; between
the calls it is never below. -/
theorem rollRounds_count (hn : 1 < n) (hof : ∀ t ∈ rest, InstanceOf m t.instanceId)
    {restarted : List InstanceSnapshot} (h : At m n keys failed restarts r)
    (hca : keys.card = n) :
    let last := (rollRounds host abort answers m n env index healthVerified restarted rest r).2
    Between m n last ∧ ((last.failed = true → tracked m last.runtime.running = n) ↔
      RoundsFine host abort answers m n env index healthVerified rest r) := by
  induction rest generalizing index healthVerified restarted keys failed restarts r with
  | nil => exact ⟨h.between, fun _ => trivial, fun _ _ => h.count.trans hca⟩
  | cons target rest ih =>
    intro last
    have hne : n ≠ 0 := by omega
    rcases round_cases host (answers index) env h hca hne (hof target mem_cons_self) with
      ⟨e, r', hrun, hst, hfi⟩ | ⟨e, r', hrun, hst, hfi⟩ |
        ⟨info, r', x, hrun, hnew, -, hlast, hat, hfi⟩
    · have hend : last = r' := congrArg Prod.snd (rollRounds_error hn hrun)
      rw [hend, RoundsFine, hrun]
      exact ⟨hst.between, fun _ => ⟨hfi, trivial⟩, fun _ _ => hst.count_eq⟩
    · have hend : last = r' := congrArg Prod.snd (rollRounds_error hn hrun)
      rw [hend, RoundsFine, hrun, hst.count_eq]
      refine ⟨hst.between, ?_, ?_⟩
      · intro himp
        refine ⟨by_contra fun hbad => ?_, trivial⟩
        exact absurd (himp (hfi.mpr hbad)) (Nat.succ_ne_self n)
      · intro hrou hfai
        exact absurd hrou.1 (hfi.mp hfai)
    · have hca' := card_round hca hnew hlast.1
      have hche := hat.checked (verifyModuleRolloutHealth info.port (answers index).lastProbe).isOk
      have hnex := rollRounds_ok abort hn healthVerified restarted rest hrun
      rw [RoundsFine, hrun]
      dsimp only at hnex ⊢
      by_cases hst : (!(healthVerified &&
          (verifyModuleRolloutHealth info.port (answers index).lastProbe).isOk) && abort) = true
      · rw [if_pos hst] at hnex
        have hend := congrArg Prod.snd hnex
        rw [show last = _ from hend]
        refine ⟨hche.between, fun _ => ⟨hfi, fun hgo => ?_⟩, fun _ _ => hche.count.trans hca'⟩
        cases hst.symm.trans hgo
      · rw [if_neg hst] at hnex
        have hend := congrArg Prod.snd hnex
        rw [show last = _ from hend]
        have hof' : ∀ t ∈ rest, InstanceOf m t.instanceId :=
          fun t ht => hof t (mem_cons_of_mem _ ht)
        refine ⟨(ih hof' hche hca').1, (ih hof' hche hca').2.trans
          ⟨fun hrou => ⟨hfi, fun _ => hrou⟩, ?_⟩⟩
        exact fun hand => hand.2 (Bool.not_eq_true _ ▸ hst)

/-! ## Which instance a round takes back -/

/-- The ids are the original ones, and after the first round the surge is known to be the
last of the listing; or the last target is missing and no later surge brings it back. -/
def Position (m : ModuleId) (keys0 : Finset String) (all : List String) (final : String)
    (keys : Finset String) (rest : List String) : Prop :=
  (keys = keys0 ∧ (rest = all ∨ IsLast m (insert (nextKey m keys0) keys0) (nextKey m keys0))) ∨
    (final ∈ rest ∧ final ∉ keys ∧
      ∀ ordinal, replicaOrdinal final = some ordinal → ordinal < topOrdinal keys)

theorem topOrdinal_round (hke : ∀ key ∈ keys, InstanceOf m key) (hnew : nextKey m keys ∉ keys) :
    topOrdinal keys ≤ topOrdinal ((insert (nextKey m keys) keys).erase x) := by
  by_cases hx : x = nextKey m keys
  · rw [hx, Finset.erase_insert hnew]
  · have hmem : nextKey m keys ∈ (insert (nextKey m keys) keys).erase x :=
      Finset.mem_erase.mpr ⟨fun heq => hx heq.symm, Finset.mem_insert_self ..⟩
    have hle := le_topOrdinal hmem (nextKey_ordinal (topOrdinal_lt hke hnew))
    omega

theorem position_step {all : List String} (hfin : IsLast m keys0 final) {rest : List String}
    (hke : ∀ key ∈ keys, InstanceOf m key) (hnew : nextKey m keys ∉ keys)
    (ht : t ∈ insert (nextKey m keys) keys) (hx : IsLast m (insert (nextKey m keys) keys) x)
    (hall : t :: rest = all → final ∈ rest) (h : Position m keys0 all final keys (t :: rest)) :
    Position m keys0 all final ((insert (nextKey m keys) keys).erase x) rest := by
  have htop := topOrdinal_lt hke hnew
  rcases h with ⟨rfl, hrou⟩ | ⟨hmem, hmis, hlt⟩
  · by_cases hsur : x = nextKey m keys
    · -- the surge is taken back
      subst hsur
      rw [Finset.erase_insert hnew]
      exact .inl ⟨rfl, .inr hx⟩
    · -- the last of the listing is taken: the first round, and the last target
      have hold : x ∈ keys := Finset.mem_of_mem_insert_of_ne hx.1 hsur
      have hsa : x = final := by
        refine IsLast.unique ⟨hold, hx.2.1, ?_⟩ hfin
        intro k hk hne
        exact hx.2.2 k (Finset.mem_insert_of_mem hk) hne
      have hfir : t :: rest = all := by
        refine hrou.resolve_right fun hla => hsur ?_
        exact hx.unique hla
      refine .inr ⟨hall hfir, ?_, ?_⟩
      · rw [← hsa]
        exact Finset.notMem_erase x _
      · intro ordinal hord
        have hle := le_topOrdinal hfin.1 hord
        have hmem : nextKey m keys ∈ (insert (nextKey m keys) keys).erase x :=
          Finset.mem_erase.mpr ⟨fun heq => hsur heq.symm, Finset.mem_insert_self ..⟩
        have hle' := le_topOrdinal hmem (nextKey_ordinal htop)
        omega
  · have hne : final ≠ nextKey m keys := by
      intro heq
      have hord := nextKey_ordinal (m := m) htop
      rw [← heq] at hord
      have := hlt _ hord
      omega
    have hmi' : final ∉ insert (nextKey m keys) keys := by
      rw [Finset.mem_insert]
      exact not_or.mpr ⟨hne, hmis⟩
    refine .inr ⟨?_, ?_, ?_⟩
    · rcases mem_cons.mp hmem with rfl | hre
      · exact absurd ht hmi'
      · exact hre
    · exact fun hin => hmi' (Finset.mem_of_mem_erase hin)
    · intro ordinal hord
      exact (hlt ordinal hord).trans_le (topOrdinal_round hke hnew)

/-- **A VERIFIED ROLLOUT** has restarted every target, and leaves the original ids. -/
theorem rollRounds_settles (hn : 1 < n) {all : List String} (hfin : IsLast m keys0 final)
    (hall : ∀ t rest, t :: rest = all → final ∈ rest)
    (hof : ∀ t ∈ rest, InstanceOf m t.instanceId) {restarted : List InstanceSnapshot}
    (h : At m n keys failed restarts r) (hca : keys.card = n)
    (hpos : Position m keys0 all final keys (rest.map (·.instanceId)))
    (hrun : rollRounds host abort answers m n env index healthVerified restarted rest r =
      (.ok (done, true), r')) : r'.restarts = restarts ++ rest.map (·.instanceId) ∧
      keysOf m r'.runtime.running = keys0 := by
  induction rest generalizing index healthVerified restarted keys failed restarts r with
  | nil =>
    cases hrun
    rcases hpos with ⟨rfl, -⟩ | ⟨hmem, -⟩
    · exact ⟨by rw [h.restarts_eq, map_nil, append_nil], h.keys_eq⟩
    · cases hmem
  | cons target rest ih =>
    have hze : n ≠ 0 := by omega
    rcases round_cases host (answers index) env h hca hze
        (hof target mem_cons_self) with
      ⟨e, r1, hround, -, -⟩ | ⟨e, r1, hround, -, -⟩ |
        ⟨info, r1, x, hround, hnew, ht, hlast, hat, -⟩
    · rw [rollRounds_error hn hround] at hrun
      cases hrun
    · rw [rollRounds_error hn hround] at hrun
      cases hrun
    · have hca' := card_round hca hnew hlast.1
      have hche := hat.checked (verifyModuleRolloutHealth info.port (answers index).lastProbe).isOk
      have hpo' := position_step hfin h.instanceOf hnew ht hlast (hall _ _) hpos
      have hne := rollRounds_ok abort hn healthVerified restarted rest hround
      dsimp only at hne
      rw [hne] at hrun
      split at hrun
      · -- an aborted rollout is not verified
        rename_i hst
        have hver := (Prod.mk.inj (Except.ok.inj (Prod.mk.inj hrun).1)).2
        rw [hver] at hst
        cases hst
      · have hre := ih (fun t ht => hof t (mem_cons_of_mem _ ht)) hche hca' hpo' hrun
        rw [hre.1, map_cons, append_assoc]
        exact ⟨rfl, hre.2⟩

/-! ## The rollout -/

/-- What a rolling restart of the module promises: if it reports verified health, every
  instance was restarted once and the same ones are tracked; after a failed surge or
check there are as many as before; and never fewer between its calls. -/
structure KeepsCapacity (m : ModuleId) (s : RuntimeState)
    (out : Except ModuleRuntimeError RollingRestartReport × Rollout) : Prop where
  settles : ∀ report, out.1 = .ok report → report.healthVerified = true →
    out.2.restarts.Nodup ∧ out.2.restarts.toFinset = keysOf m s.running ∧
      keysOf m out.2.runtime.running = keysOf m s.running
  afterFailure : out.2.failed = true → tracked m out.2.runtime.running = tracked m s.running
  between : Between m (tracked m s.running) out.2

/-- Every round of the rollout is fine: in a round whose surge comes up and passes its
check, the target, if it restarts, passes its check too, and if it is not tracked any
more, no check has failed before. -/
def RolloutFine (host : ProcessModuleRuntime) (abort : Bool) (answers : RollingAnswers)
    (m : ModuleId) (s : RuntimeState) : Prop :=
  answers.load = .ok true →
    RoundsFine host abort answers.round m (tracked m s.running) (primaryEnv m s.running) 0 true
      ((listing m s).map fromInstanceInfo) ((Rollout.start s).after s)

instance (host : ProcessModuleRuntime) (abort : Bool) (answers : RollingAnswers) (m : ModuleId)
    (s : RuntimeState) : Decidable (RolloutFine host abort answers m s) :=
  inferInstanceAs (Decidable (_ → _))

theorem rollingRestart_run {answers : RollingAnswers} (hlo : answers.load = .ok true)
    (h : Fleet m s.running) :
    rollingRestart host abort answers m (.start s) =
      match rollRounds host abort answers.round m (tracked m s.running) (primaryEnv m s.running) 0
          true [] ((listing m s).map fromInstanceInfo)
          ((Rollout.start s).after s) with
      | (.ok (restarted, healthVerified), r) =>
        (.ok ⟨m, restarted, healthVerified,
          rollingNote (tracked m s.running) restarted.length healthVerified⟩, r)
      | (.error e, r) => (.error e, r) := by
  have hli : call (listInstances m) (Rollout.start s) =
      (.ok (listing m s), (Rollout.start s).after s) := call_run (listInstances_ok h.present)
  have hlen : ((listing m s).map fromInstanceInfo).length = tracked m s.running := by
    rw [length_map, length_listing]
  rw [rollingRestart, lift_bind_ok (by rw [hlo])]
  show (call (listInstances m) >>= _) (Rollout.start s) = _
  rw [bind_of_ok hli, bind_of_ok (read_run _ _), hlen, bind_run,
    show ((Rollout.start s).after s).runtime = s from rfl]
  cases rollRounds host abort answers.round m (tracked m s.running) (primaryEnv m s.running) 0 true
      [] ((listing m s).map fromInstanceInfo) ((Rollout.start s).after s) with
  | mk result r =>
    cases result with
    | ok done | error e => rfl

section

variable (hfle : Fleet m s.running)

include hfle

theorem start_at :
    At m (tracked m s.running) (keysOf m s.running) false [] ((Rollout.start s).after s) :=
  ⟨hfle, rfl, rfl, rfl, fun s' hs' => by rw [mem_singleton.mp hs']⟩

theorem snapshots_instanceOf :
    ∀ t ∈ (listing m s).map fromInstanceInfo, InstanceOf m t.instanceId := by
  intro t ht
  obtain ⟨i, hi, rfl⟩ := mem_map.mp ht
  exact (start_at hfle).instanceOf _ (mem_listing_ids.mp (mem_map_of_mem hi))

theorem last_not_head (hfin : IsLast m (keysOf m s.running) final)
    {rest : List String} (h : t :: rest = (listing m s).map (·.instanceId)) : final ∈ rest := by
  have hmem : final ∈ t :: rest := h ▸ mem_listing_ids.mpr hfin.1
  have hhe : t = primaryInstanceId m := by
    rw [listing, map_map] at h
    cases hli : moduleInstances m s.running with
    | nil =>
      rw [hli] at h
      cases h
    | cons st states =>
      rw [hli] at h
      rw [← moduleInstances_head hfle hli]
      exact (List.cons.inj h).1
  rcases mem_cons.mp hmem with heq | hre
  · exact absurd (heq.trans hhe) hfin.2.1
  · exact hre

theorem rollRounds_verified (hcou : 2 ≤ tracked m s.running)
    (hrun : rollRounds host abort answers m (tracked m s.running) env 0 true []
      ((listing m s).map fromInstanceInfo) ((Rollout.start s).after s) =
        (.ok (done, true), r)) : r.restarts.Nodup ∧ r.restarts.toFinset = keysOf m s.running ∧
      keysOf m r.runtime.running = keysOf m s.running := by
  obtain ⟨front, last, -, hla⟩ := replicaStates_last hfle hcou
  have hids : ((listing m s).map fromInstanceInfo).map (·.instanceId) =
      (listing m s).map (·.instanceId) := by
    rw [map_map]
    rfl
  have hpos : Position m (keysOf m s.running) ((listing m s).map (·.instanceId)) last.instanceId
      (keysOf m s.running)
      (((listing m s).map fromInstanceInfo).map (·.instanceId)) :=
    .inl ⟨rfl, .inl hids⟩
  obtain ⟨hres, hke⟩ := rollRounds_settles hcou hla
    (fun _ _ h => last_not_head hfle hla h) (snapshots_instanceOf hfle) (start_at hfle)
    (tracked_eq_card hfle.shape).symm hpos hrun
  rw [hids, nil_append] at hres
  rw [hres]
  refine ⟨nodup_listing hfle.shape, ?_, hke⟩
  ext key
  rw [mem_toFinset, mem_listing_ids]

end

variable (m host abort) in
theorem rollingRestart_not_loaded {answers : RollingAnswers} (s : RuntimeState)
    (hlo : answers.load ≠ .ok true) :
    ∃ e, rollingRestart host abort answers m (.start s) = (.error e, .start s) := by
  rw [rollingRestart]
  cases hans : answers.load with
  | error err => exact ⟨_, rfl⟩
  | ok installed =>
    cases installed with
    | false => exact ⟨_, rfl⟩
    | true => exact absurd hans hlo

/-- **CAPACITY** is kept through a rolling restart of two or more instances exactly when
every round is fine. -/
theorem keeps_capacity_iff (host : ProcessModuleRuntime) (abort : Bool) (answers : RollingAnswers)
    (m : ModuleId) (s : RuntimeState) (hfleet : Fleet m s.running)
    (hcount : 2 ≤ tracked m s.running) :
    KeepsCapacity m s (rollingRestart host abort answers m (.start s)) ↔
      RolloutFine host abort answers m s := by
  by_cases hlo : answers.load = .ok true
  · rw [rollingRestart_run hlo hfleet]
    have hfi : RolloutFine host abort answers m s ↔ RoundsFine host abort answers.round m
        (tracked m s.running) (primaryEnv m s.running) 0 true
        ((listing m s).map fromInstanceInfo) ((Rollout.start s).after s) :=
      ⟨fun h => h hlo, fun h _ => h⟩
    have hloo : let last := (rollRounds host abort answers.round m (tracked m s.running)
        (primaryEnv m s.running) 0 true []
        ((listing m s).map fromInstanceInfo) ((Rollout.start s).after s)).2
        Between m (tracked m s.running) last ∧ ((last.failed = true →
          tracked m last.runtime.running = tracked m s.running) ↔ _) :=
      rollRounds_count hcount (snapshots_instanceOf hfleet) (start_at hfleet)
        (tracked_eq_card hfleet.shape).symm
    rw [hfi]
    cases hrun : rollRounds host abort answers.round m (tracked m s.running)
        (primaryEnv m s.running) 0 true [] ((listing m s).map fromInstanceInfo)
        ((Rollout.start s).after s) with
    | mk result r =>
      rw [hrun] at hloo
      obtain ⟨hbet, hiff⟩ := hloo
      cases result with
      | error e =>
        refine ⟨fun hkee => hiff.mp hkee.afterFailure, fun hrou => ⟨?_, ?_, ?_⟩⟩
        · exact nofun
        · exact hiff.mpr hrou
        · exact hbet
      | ok done =>
        refine ⟨fun hkee => hiff.mp hkee.afterFailure, fun hrou => ⟨?_, ?_, ?_⟩⟩
        · intro report hrep hver
          cases hrep
          have hdo : done = (done.1, true) := Prod.ext rfl hver
          rw [hdo] at hrun
          exact rollRounds_verified hfleet hcount hrun
        · exact hiff.mpr hrou
        · exact hbet
  · obtain ⟨e, hrun⟩ := rollingRestart_not_loaded m host abort s hlo
    rw [hrun]
    refine ⟨fun _ hok => absurd hok hlo, fun _ => ⟨?_, ?_, ?_⟩⟩
    · exact nofun
    · exact nofun
    · exact nofun

/-! ## A module with two instances -/

def pairInstance (instanceId : String) (primary : Bool) (pid : Nat) : RunningModuleState where
  instanceId := instanceId
  moduleId := tasksModule
  version := ⟨1, 0, 0, "", ""⟩
  port := some (4000 + pid)
  startedAt := 0
  restartCount := 0
  logFile := "tasks.log"
  env := some []
  primary := primary
  kind := .process pid

def pairState : RuntimeState :=
  withInstance (withInstance .empty (pairInstance (primaryInstanceId tasksModule) true 1))
    (pairInstance (replicaInstanceId tasksModule 1) false 2)

theorem pairState_fleet : Fleet tasksModule pairState.running := by
  refine ⟨?_, by decide +kernel, by decide +kernel⟩
  refine Shape.insert (Shape.insert shape_empty ?_) ?_
  · exact .inl rfl
  · exact .inr ⟨1, by decide, rfl⟩

/-- Starts and kills succeed, and the probes after a restart say this. -/
def pairAnswers (restartProbe : Except String String) : RollingAnswers where
  load := .ok true
  round index :=
    { surge := plainAnswers tasksModule (10 + index)
      surgeProbe := .ok "health check passed in 3ms"
      back := plainAnswers tasksModule 0
      restart := plainAnswers tasksModule (20 + index)
      restartProbe
      settle := plainAnswers tasksModule 0
      lastProbe := .ok "health check passed in 3ms" }

theorem keeps_capacity_pair : KeepsCapacity tasksModule pairState
      (rollingRestart plainHost true (pairAnswers (.ok "health check passed in 3ms")) tasksModule
        (.start pairState)) :=
  (keeps_capacity_iff plainHost true (pairAnswers (.ok "health check passed in 3ms")) tasksModule
    pairState pairState_fleet (by decide +kernel)).mpr (by decide +kernel)

/-- The restarted primary fails its check: the rollout gives up with the surge instance up,
three instances where there were two. -/
theorem surge_left_up : ¬ KeepsCapacity tasksModule pairState
      (rollingRestart plainHost true (pairAnswers (.error "connection refused")) tasksModule
        (.start pairState)) := by
  intro h
  exact absurd (h.afterFailure (by decide +kernel)) (by decide +kernel)

end Fenrir.Runtime
