import Fenrir.Runtime.Instances

/-! # The instances of one module

A module with its primary and any replicas is a `Fleet`; what is tracked of it is
the set of its ids. For a fleet each call of the runtime does one thing to that
set, whatever the outside answers. -/

namespace Fenrir.Runtime

open Effect Effect.Act Modules List

/-! ## What is tracked of a module -/

/-- The number of instances in the map. -/
def tracked (m : ModuleId) (running : BTreeMap RunningModuleState) : Nat :=
  (statesOf m running).length

def keysOf (m : ModuleId) (running : BTreeMap RunningModuleState) : Finset String :=
  ((statesOf m running).map (·.instanceId)).toFinset

variable {m : ModuleId} {running : BTreeMap RunningModuleState}

variable {key : String} {st : RunningModuleState} {n : Nat}

theorem mem_keysOf (h : Shape running) :
    key ∈ keysOf m running ↔ ∃ st, running[key]? = some st ∧ st.moduleId = m := by
  rw [keysOf, mem_toFinset, mem_map]
  constructor
  · rintro ⟨st, hst, rfl⟩
    obtain ⟨⟨key, hget⟩, hm⟩ := mem_statesOf.mp hst
    rw [(h key st hget).1]
    exact ⟨st, hget, hm⟩
  · rintro ⟨st, hget, hm⟩
    exact ⟨st, mem_statesOf.mpr ⟨⟨key, hget⟩, hm⟩, (h key st hget).1⟩

theorem nodup_ids (h : Shape running) : ((statesOf m running).map (·.instanceId)).Nodup := by
  have hke : (running.toList.map Prod.snd).map (·.instanceId) = running.toList.map Prod.fst := by
    rw [map_map]
    refine map_congr_left ?_
    intro e he
    exact (h e.1 e.2 (Std.ExtTreeMap.mem_toList_iff_getElem?_eq_some.mp he)).1
  have hnod : (running.toList.map Prod.fst).Nodup := by
    rw [Std.ExtTreeMap.map_fst_toList_eq_keys]
    exact Std.ExtTreeMap.nodup_keys
  rw [← hke] at hnod
  exact (filter_sublist.map _).nodup hnod

theorem tracked_eq_card (h : Shape running) : tracked m running = (keysOf m running).card := by
  rw [keysOf, toFinset_card_of_nodup (nodup_ids h), length_map, tracked]

theorem length_moduleInstances : (moduleInstances m running).length = tracked m running :=
  length_insertionSort _ _

theorem keysOf_insert (h : Shape running) (hm : st.moduleId = m)
    (hof : InstanceOf m st.instanceId) :
    keysOf m (running.insert st.instanceId st) = insert st.instanceId (keysOf m running) := by
  have hsha : Shape (running.insert st.instanceId st) := h.insert (hm ▸ hof)
  ext key
  rw [mem_keysOf hsha, Finset.mem_insert, mem_keysOf h, BTreeMap.get_insert]
  by_cases hkey : st.instanceId = key
  · rw [if_pos hkey]
    exact ⟨fun _ => .inl hkey.symm, fun _ => ⟨st, rfl, hm⟩⟩
  · rw [if_neg hkey]
    exact ⟨.inr, fun hor => hor.resolve_left fun heq => hkey heq.symm⟩

theorem keysOf_erase (h : Shape running) (key : String) :
    keysOf m (running.erase key) = (keysOf m running).erase key := by
  ext key'
  rw [mem_keysOf (h.erase key), Finset.mem_erase, mem_keysOf h, BTreeMap.get_erase]
  by_cases hkey : key = key'
  · rw [if_pos hkey]
    exact ⟨fun ⟨_, hnone, _⟩ => (nomatch hnone), fun hand => absurd hkey.symm hand.1⟩
  · rw [if_neg hkey]
    exact ⟨fun hex => ⟨fun heq => hkey heq.symm, hex⟩, fun hand => hand.2⟩

theorem maxOrdinal_keysOf {bound : Nat} : maxOrdinal m running ≤ bound ↔
    ∀ key ∈ keysOf m running, ∀ n, replicaOrdinal key = some n → n ≤ bound := by
  rw [maxOrdinal_le, keysOf]
  constructor
  · intro h key hkey
    obtain ⟨st, hst, rfl⟩ := mem_map.mp (mem_toFinset.mp hkey)
    exact h st hst
  · intro h st hst
    exact h st.instanceId (mem_toFinset.mpr (mem_map_of_mem hst))

/-! ## Fleets -/

/-- A primary under its id and any replicas under theirs. -/
structure Fleet (m : ModuleId) (running : BTreeMap RunningModuleState) : Prop where
  shape : Shape running
  flags : ∀ st ∈ statesOf m running, st.primary = true ↔ st.instanceId = primaryInstanceId m
  primary : primaryInstanceId m ∈ keysOf m running

theorem Fleet.erase (h : Fleet m running) (hkey : key ≠ primaryInstanceId m) :
    Fleet m (running.erase key) := by
  refine ⟨h.shape.erase key, ?_, ?_⟩
  · intro st hst
    obtain ⟨⟨key', hget⟩, hm⟩ := mem_statesOf.mp hst
    exact h.flags st (mem_statesOf.mpr ⟨⟨key', BTreeMap.get_of_erase hget⟩, hm⟩)
  · rw [keysOf_erase h.shape, Finset.mem_erase]
    exact ⟨hkey.symm, h.primary⟩

theorem flags_insert
    (h : ∀ st ∈ statesOf m running, st.primary = true ↔ st.instanceId = primaryInstanceId m)
    (hst : st.primary = true ↔ st.instanceId = primaryInstanceId m) :
    ∀ st' ∈ statesOf m (running.insert key st),
      st'.primary = true ↔ st'.instanceId = primaryInstanceId m := by
  intro st' hmem
  rcases mem_statesOf_insert hmem with rfl | hold
  · exact hst
  · exact h st' hold

theorem Fleet.insert (h : Fleet m running) (hm : st.moduleId = m) (hof : InstanceOf m st.instanceId)
    (hst : st.primary = true ↔ st.instanceId = primaryInstanceId m) :
    Fleet m (running.insert st.instanceId st) := by
  refine ⟨h.shape.insert (hm ▸ hof), flags_insert h.flags hst, ?_⟩
  rw [keysOf_insert h.shape hm hof]
  exact Finset.mem_insert_of_mem h.primary

theorem Fleet.present (h : Fleet m running) : moduleInstances m running ≠ [] := by
  obtain ⟨st, hget, hm⟩ := (mem_keysOf h.shape).mp h.primary
  exact ne_nil_of_mem (mem_moduleInstances.mpr (mem_statesOf.mpr ⟨⟨primaryInstanceId m, hget⟩, hm⟩))

theorem replica_ne_primary (m : ModuleId) {ordinal : Nat} (h : ordinal ≤ usizeMax) :
    replicaInstanceId m ordinal ≠ primaryInstanceId m := by
  intro heq
  have hord := congrArg replicaOrdinal heq
  rw [replicaOrdinal_replica m h, replicaOrdinal_primary] at hord
  cases hord

theorem next_ne_primary (m : ModuleId) (running : BTreeMap RunningModuleState) :
    nextReplicaInstanceId m running ≠ primaryInstanceId m :=
  replica_ne_primary m (min_le_right _ _)

/-! ## The listing -/

/-- The last replica in the order of the ids. -/
def IsLast (m : ModuleId) (keys : Finset String) (key : String) : Prop :=
  key ∈ keys ∧ key ≠ primaryInstanceId m ∧ ∀ k ∈ keys, k ≠ primaryInstanceId m → k ≤ key

theorem IsLast.unique {keys : Finset String} {a b : String} (ha : IsLast m keys a)
    (hb : IsLast m keys b) : a = b :=
  le_antisymm (hb.2.2 a ha.1 ha.2.1) (ha.2.2 b hb.1 hb.2.1)

instance : Std.Total instanceLe where
  total a b := by
    rw [instanceLe, instanceLe]
    rcases le_total a.instanceId b.instanceId with h | h <;>
      cases a.primary <;> cases b.primary <;> simp [h]

instance : IsTrans RunningModuleState instanceLe where
  trans a b c := by
    rw [instanceLe, instanceLe, instanceLe]
    rintro (⟨ha, hb⟩ | ⟨hab, hle⟩) (⟨hb', hc⟩ | ⟨hbc, hle'⟩)
    · rw [hb] at hb'
      cases hb'
    · exact .inl ⟨ha, hbc ▸ hb⟩
    · exact .inl ⟨hab.trans hb', hc⟩
    · exact .inr ⟨hab.trans hbc, hle.trans hle'⟩

/-- What `list_instances` shows. -/
def listing (m : ModuleId) (s : RuntimeState) : List ModuleRuntimeInstanceInfo :=
  (moduleInstances m s.running).map fun st =>
    ⟨st.instanceId, st.primary, infoFromState s.processes st⟩

variable {s : RuntimeState}

theorem listInstances_ok (h : moduleInstances m s.running ≠ []) :
    listInstances m s = (.ok (listing m s), s) :=
  if_neg h

theorem length_listing : (listing m s).length = tracked m s.running := by
  rw [listing, length_map, length_moduleInstances]

theorem mem_listing_ids : key ∈ (listing m s).map (·.instanceId) ↔ key ∈ keysOf m s.running := by
  rw [listing, map_map, keysOf, mem_toFinset, mem_map, mem_map]
  exact exists_congr fun st => and_congr_left fun _ => mem_moduleInstances

def replicaStates (m : ModuleId) (running : BTreeMap RunningModuleState) :
    List RunningModuleState :=
  (moduleInstances m running).filter (!·.primary)

theorem mem_replicaStates (h : Fleet m running) : st ∈ replicaStates m running ↔
      st ∈ statesOf m running ∧ st.instanceId ≠ primaryInstanceId m := by
  rw [replicaStates, mem_filter, mem_moduleInstances]
  refine and_congr_right fun hst => ?_
  rw [Bool.not_eq_true', ← Bool.not_eq_true, h.flags st hst]

theorem replicaStates_sorted (m : ModuleId) (running : BTreeMap RunningModuleState) :
    (replicaStates m running).Pairwise fun a b => a.instanceId ≤ b.instanceId := by
  have hsor : (replicaStates m running).Pairwise instanceLe :=
    (pairwise_insertionSort instanceLe _).sublist filter_sublist
  refine hsor.imp_of_mem ?_
  intro a b ha hb hle
  have ha' := (mem_filter.mp ha).2
  have hb' := (mem_filter.mp hb).2
  rcases hle with ⟨hpri, -⟩ | ⟨-, hid⟩
  · rw [hpri] at ha'
    cases ha'
  · exact hid

theorem state_of_key (h : Shape running) (hkey : key ∈ keysOf m running) :
    ∃ st ∈ statesOf m running, st.instanceId = key ∧ running[key]? = some st := by
  obtain ⟨st, hget, hm⟩ := (mem_keysOf h).mp hkey
  exact ⟨st, mem_statesOf.mpr ⟨⟨key, hget⟩, hm⟩, (h key st hget).1, hget⟩

theorem replicaStates_last (h : Fleet m running) (hcou : 2 ≤ tracked m running) :
    ∃ front last, replicaStates m running = front ++ [last] ∧
      IsLast m (keysOf m running) last.instanceId := by
  -- there is a replica
  have hca : 1 < (keysOf m running).card := by
    rw [← tracked_eq_card h.shape]
    exact hcou
  obtain ⟨key, hkey, hne⟩ := Finset.exists_mem_ne hca (primaryInstanceId m)
  obtain ⟨st, hst, hid, -⟩ := state_of_key h.shape hkey
  have hmem : st ∈ replicaStates m running := (mem_replicaStates h).mpr ⟨hst, hid ▸ hne⟩
  rcases eq_nil_or_concat' (replicaStates m running) with hnil | ⟨front, last, hcon⟩
  · rw [hnil] at hmem
    cases hmem
  · refine ⟨front, last, hcon, ?_⟩
    have hla : last ∈ replicaStates m running := by
      rw [hcon]
      exact mem_append_right _ (mem_singleton_self last)
    obtain ⟨hla', hlas⟩ := (mem_replicaStates h).mp hla
    refine ⟨mem_toFinset.mpr (mem_map_of_mem hla'), hlas, ?_⟩
    intro k hk hkne
    obtain ⟨st', hst', rfl, -⟩ := state_of_key h.shape hk
    have hst'' := (mem_replicaStates h).mpr ⟨hst', hkne⟩
    have hsor := replicaStates_sorted m running
    rw [hcon] at hst'' hsor
    rcases mem_append.mp hst'' with hfront | hsa
    · exact (pairwise_append.mp hsor).2.2 st' hfront last (mem_singleton_self last)
    · rw [mem_singleton.mp hsa]

theorem moduleInstances_head (h : Fleet m running) {rest : List RunningModuleState}
    (hli : moduleInstances m running = st :: rest) : st.instanceId = primaryInstanceId m := by
  have hst : st ∈ statesOf m running := mem_moduleInstances.mp (hli ▸ mem_cons_self)
  obtain ⟨prim, hpri, hid, -⟩ := state_of_key h.shape h.primary
  have hfl : prim.primary = true := (h.flags prim hpri).mpr hid
  have hmem : prim ∈ st :: rest := hli ▸ mem_moduleInstances.mpr hpri
  have hsor : (st :: rest).Pairwise instanceLe := hli ▸ pairwise_insertionSort instanceLe _
  rcases mem_cons.mp hmem with rfl | hre
  · exact hid
  · rcases (pairwise_cons.mp hsor).1 prim hre with ⟨htr, -⟩ | ⟨heq, -⟩
    · exact (h.flags st hst).mp htr
    · exact (h.flags st hst).mp (heq.trans hfl)

theorem nodup_listing (h : Shape s.running) : ((listing m s).map (·.instanceId)).Nodup := by
  rw [listing, map_map]
  have hpe : ((moduleInstances m s.running).map (·.instanceId)).Perm
      ((statesOf m s.running).map (·.instanceId)) :=
    (perm_insertionSort _ _).map _
  exact hpe.nodup_iff.mpr (nodup_ids h)

/-! ## One replica more -/

variable {host : ProcessModuleRuntime} {answers : RuntimeAnswers} {env : List (String × String)}

def launchReplica (host : ProcessModuleRuntime) (answers : RuntimeAnswers) (m : ModuleId)
    (env : List (String × String)) (s : RuntimeState) :
    Except ModuleRuntimeError RunningModuleState :=
  launch host (answers.start (nextReplicaInstanceId m s.running)) m
    (nextReplicaInstanceId m s.running) false none env

variable {config : ModuleStartConfig}

theorem startReplica_error {e : ModuleRuntimeError}
    (h : launchReplica host answers config.moduleId config.envVars s = .error e) :
    startReplica host answers config s = (.error e, s) := by
  rw [startReplica, bind_run, read_run]
  exact bind_of_error (startSpecificInstance_error h)

theorem startReplica_ok (h : launchReplica host answers config.moduleId config.envVars s = .ok st) :
    startReplica host answers config s = (.ok (), withInstance s st) := by
  rw [startReplica, bind_run, read_run]
  exact bind_of_ok (startSpecificInstance_ok h)

theorem reconcileInstances_run {des : Nat} (hdes : des ≠ 0)
    (hpre : moduleInstances config.moduleId s.running ≠ []) :
    reconcileInstances host answers config des s =
      (adjustInstances host answers config (tracked config.moduleId s.running) des >>=
        fun _ => listInstances config.moduleId) s := by
  rw [reconcileInstances, if_neg hdes]
  have hli : (attempt (listInstances config.moduleId) :
      Act RuntimeState ModuleRuntimeError (Except ModuleRuntimeError _)) s =
        (.ok (.ok (listing config.moduleId s)), s) :=
    attempt_of_run (listInstances_ok hpre)
  rw [bind_of_ok hli, ← length_listing]
  rfl

theorem withInstance_fleet (h : Fleet m s.running)
    (hlau : launchReplica host answers m env s = .ok st) : Fleet m (withInstance s st).running := by
  obtain ⟨hm, hid, hpri⟩ := launch_asked st hlau
  refine h.insert hm (by rw [hid]; exact next_instanceOf m s.running) ?_
  rw [hpri, hid]
  exact ⟨nofun, fun heq => absurd heq (next_ne_primary m s.running)⟩

theorem withInstance_keys (h : Fleet m s.running)
    (hlau : launchReplica host answers m env s = .ok st) : keysOf m (withInstance s st).running =
      insert (nextReplicaInstanceId m s.running) (keysOf m s.running) := by
  obtain ⟨hm, hid, -⟩ := launch_asked st hlau
  rw [← hid]
  exact keysOf_insert h.shape hm (by rw [hid]; exact next_instanceOf m s.running)

variable (host answers env) in
/-- **ONE MORE REPLICA**, or nothing. -/
theorem reconcile_up (h : Fleet m s.running) (hcou : tracked m s.running = n) (hn : n ≠ 0) :
    reconcileInstances host answers ⟨m, none, env⟩ (n + 1) s =
      match launchReplica host answers m env s with
      | .error e => (.error e, s)
      | .ok st => (.ok (listing m (withInstance s st)), withInstance s st) := by
  have hlt : n < n + 1 := Nat.lt_succ_self n
  rw [reconcileInstances_run (Nat.add_one_ne_zero n) h.present, adjustInstances, hcou, if_neg hn,
    if_pos hlt, Nat.add_sub_cancel_left]
  cases hlau : launchReplica host answers m env s with
  | error e =>
    have hlo : each (fun _ => startReplica host answers ⟨m, none, env⟩) (List.range 1) s =
        (.error e, s) := bind_of_error (startReplica_error hlau)
    exact bind_of_error hlo
  | ok st =>
    have hlo : each (fun _ => startReplica host answers ⟨m, none, env⟩) (List.range 1) s =
        (.ok (), withInstance s st) := bind_of_ok (startReplica_ok hlau)
    rw [bind_of_ok hlo]
    exact listInstances_ok (withInstance_fleet h hlau).present

/-! ## One replica less -/

theorem endInstance_running (st : RunningModuleState) (s : RuntimeState) :
    (endInstance answers st s).2.running = s.running := by
  rw [endInstance]
  cases st.kind with
  | staticSite => rfl
  | process pid =>
    dsimp only
    rw [killProcess]
    cases answers.kill pid with
    | exited => rfl
    | failed why alive => cases alive <;> rfl

theorem stopInstanceById_running (h : s.running[key]? = some st) :
    (stopInstanceById answers m key s).2.running = s.running.erase key := by
  have hrem : removeEntry m key s = (.ok st, { s with running := s.running.erase key }) := by
    rw [removeEntry, h]
  rw [stopInstanceById, bind_of_ok hrem, endInstance_running]

theorem bind_state {α β : Type} (x : Act RuntimeState ModuleRuntimeError α)
    {f : α → Act RuntimeState ModuleRuntimeError β} (hf : ∀ a s, (f a s).2 = s) :
    ((x >>= f) s).2 = (x s).2 := by
  rw [bind_run]
  cases x s with
  | mk r s' =>
    cases r with
    | ok a => exact hf a s'
    | error e => rfl

variable (host answers env) in
/-- **ONE REPLICA LESS**, the last of the listing. -/
theorem reconcile_down (h : Fleet m s.running) (hcou : tracked m s.running = n + 1) (hn : n ≠ 0) :
    ∃ key, IsLast m (keysOf m s.running) key ∧
      (reconcileInstances host answers ⟨m, none, env⟩ n s).2.running = s.running.erase key := by
  obtain ⟨front, last, hcon, hla⟩ := replicaStates_last h (by omega)
  obtain ⟨st, -, -, hget⟩ := state_of_key h.shape hla.1
  refine ⟨last.instanceId, hla, ?_⟩
  have hrep : (listing m s).filter (!·.primary) = (replicaStates m s.running).map fun st =>
        ⟨st.instanceId, st.primary, infoFromState s.processes st⟩ := filter_map
  have hta : ((listing m s).filter (!·.primary)).reverse.take (n + 1 - n) =
      [⟨last.instanceId, last.primary, infoFromState s.processes last⟩] := by
    rw [hrep, hcon, map_append, reverse_append, Nat.add_sub_cancel_left]
    rfl
  have hlt : n < n + 1 := Nat.lt_succ_self n
  rw [reconcileInstances_run hn h.present, adjustInstances, hcou, if_neg (Nat.add_one_ne_zero n),
    if_neg hlt.not_gt, if_pos hlt, bind_state _ fun _ => listInstances_state m,
    bind_of_ok (listInstances_ok h.present), hta, each, bind_state _ fun _ _ => rfl,
    stopInstanceById_running hget]

/-! ## Restarting one instance -/

variable (host answers m) in
theorem restartInstance_missing (h : s.running[key]? = none) :
    restartInstance host answers m key s = (.error (.notRunning m.value), s) := by
  have hrem : removeEntry m key s = (.error (.notRunning m.value), s) := by
    rw [removeEntry, h]
  exact bind_of_error hrem

theorem recount_running {s' : RuntimeState} (hrun : s'.running = s.running.erase key)
    (hid : st.instanceId = key) (count : Nat) :
    (recount key count (withInstance s' st)).running =
      s.running.insert key { st with restartCount := count } := by
  have hget : (withInstance s' st).running[key]? = some st := by
    rw [withInstance_get, if_pos hid]
  have hrec : (recount key count (withInstance s' st)).running =
      (withInstance s' st).running.insert key { st with restartCount := count } := by
    rw [recount, hget]
  rw [hrec]
  refine Std.ExtTreeMap.ext_getElem? fun k => ?_
  rw [BTreeMap.get_insert, BTreeMap.get_insert, withInstance_get, hrun, BTreeMap.get_erase, hid]
  by_cases hk : key = k
  · rw [if_pos hk, if_pos hk]
  · rw [if_neg hk, if_neg hk, if_neg hk, if_neg hk]

variable (host answers) in
/-- **A RESTART** of a tracked instance: it is back under its id, or gone. -/
theorem restartInstance_tracked (h : Shape s.running) (hget : s.running[key]? = some st)
    (hm : st.moduleId = m) :
    (∃ e s', restartInstance host answers m key s = (.error e, s') ∧
      s'.running = s.running.erase key) ∨
    (∃ info s' st', restartInstance host answers m key s = (.ok info, s') ∧
      s'.running = s.running.insert key st' ∧
      st'.moduleId = m ∧ st'.instanceId = key ∧ st'.primary = st.primary) := by
  obtain ⟨hid, -⟩ := h key st hget
  have hrem : removeEntry m key s = (.ok st, { s with running := s.running.erase key }) := by
    rw [removeEntry, hget]
  have hend : (endInstance answers st { s with running := s.running.erase key }).2.running =
      s.running.erase key := endInstance_running st _
  rw [restartInstance, bind_of_ok hrem, if_neg (not_not.mpr hm)]
  cases hrun : endInstance answers st { s with running := s.running.erase key } with
  | mk r s' =>
    rw [hrun] at hend
    cases r with
    | error e => exact .inl ⟨e, s', bind_of_error hrun, hend⟩
    | ok _ =>
      rw [bind_of_ok hrun]
      cases hlau : launch host (answers.start st.instanceId) m st.instanceId st.primary
          st.port (st.env.getD []) with
      | error e =>
        exact .inl ⟨e, s', bind_of_error (startSpecificInstance_error hlau), hend⟩
      | ok st' =>
        obtain ⟨hm', hid', hpri⟩ := launch_asked st' hlau
        rw [bind_of_ok (startSpecificInstance_ok hlau)]
        refine .inr ⟨_, _, { st' with
          restartCount := min (st.restartCount + 1) (2 ^ 32 - 1) }, rfl, ?_, hm',
          hid'.trans hid, hpri⟩
        rw [hid]
        exact recount_running hend (hid'.trans hid) _

end Fenrir.Runtime
