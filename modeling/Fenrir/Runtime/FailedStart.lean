import Fenrir.Runtime.Fleet
import Fenrir.Runtime.StartTrigger

/-! # What a failed start leaves behind

A start that fails should leave no token of its own that validates, no gateway of the module
and no instance it started. The failures of the token phase and of the runtime phase clean
up after themselves; others do not. -/

namespace Fenrir.Runtime

open Effect Effect.Act Modules List

/-! ## What is left -/

section

variable (host : ProcessModuleRuntime) (a : AttemptAnswers) (config : ModuleStartConfig)
  (w : ServiceWorld)

/-- Nothing of the attempt is left: no token it issued validates, at whatever time, no
gateway of the module serves, and there is no new process and no new static site. -/
structure CleanedUp (m : ModuleId) (w w' : ServiceWorld) : Prop where
  token : ∀ token, w'.service.issued = token :: w.service.issued → ∀ now elapsed,
    (w'.service.security.validate token.token now elapsed).1.isOk = false
  gateway : liveGateway w' m = none
  processes : w'.runtime.processes.Sublist w.runtime.processes
  sites : ∀ (key : String) st, w'.runtime.running[key]? = some st → st.kind = .staticSite →
    w.runtime.running[key]? = some st

/-- An attempt that returned, or failed and left nothing. -/
def LeavesNothing {α : Type} (m : ModuleId) (w : ServiceWorld)
    (outcome : Except ModuleRuntimeError α × ServiceWorld) : Prop :=
  outcome.1.isOk = false → CleanedUp m w outcome.2

/-- The endpoint of the module's gateway once it is ensured. -/
def gatewayEndpoint (m : ModuleId) : Option String :=
  match liveGateway w m with
  | some gateway => some gateway.endpoint
  | none => (spawnGatewayServer a m).toOption.map (·.endpoint)

def tokenIssues : Bool :=
  !a.tokenTimedOut && !w.service.security.poisoned

def launchPrimary (answers : RuntimeAnswers)
    (config : ModuleStartConfig) : Except ModuleRuntimeError RunningModuleState :=
  launch host (answers.start (primaryInstanceId config.moduleId)) config.moduleId
    (primaryInstanceId config.moduleId) true config.port config.envVars

def launchAt (answers : RuntimeAnswers) (config : ModuleStartConfig) (ordinal : Nat) :
    Except ModuleRuntimeError RunningModuleState :=
  launch host (answers.start (replicaInstanceId config.moduleId ordinal)) config.moduleId
    (replicaInstanceId config.moduleId ordinal) false none config.envVars

/-- The start that is dropped leaves no process: it had launched none, or the one in the
map is killed. -/
def DropFine (point : DropPoint) (s : RuntimeState) : Prop :=
  (selectPrimaryInstance config.moduleId s.running).isSome = false →
    ∀ st pid, launchPrimary host a.start config = .ok st → st.kind = .process pid →
      point ≠ .spawned ∧ (point = .inserted → ∀ reason, a.stop.kill pid ≠ .failed reason true)

def ReplicasStart : Prop :=
  ∀ i, 0 < i → i < max a.desiredReplicas 1 →
    (launchAt host a.reconcile config (min i usizeMax)).isOk = true

/-- The runtime phase and the replicas: a start that is dropped leaves no process, and
beside a primary that starts the replicas start too. -/
def RuntimeFine (s : RuntimeState) : Prop :=
  match a.dropped with
  | some point => DropFine host a config point s
  | none =>
    (selectPrimaryInstance config.moduleId s.running).isSome = false →
      (launchPrimary host a.start config).isOk = true → ReplicasStart host a config

def startConfig (port : Option Nat) (env : List (String × String))
    (endpoint : String) : ModuleStartConfig :=
  { config with
    port
    envVars := env.filter (·.1 ≠ "FENRIR_GATEWAY_ENDPOINT")
      ++ [("FENRIR_GATEWAY_ENDPOINT", endpoint)] }

/-- An attempt that leaves nothing if it fails: where it stops before the gateway none was
serving, and where it has its gateway and its token the environment resolves and the
runtime phase is fine. -/
def AttemptFine : Prop :=
  match loadModule a config.moduleId with
  | .error _ => liveGateway w config.moduleId = none
  | .ok _ =>
    w.service.isDevOverrideActive config.moduleId.value = false →
      match checkStart a config w.runtime with
      | .error _ => liveGateway w config.moduleId = none
      | .ok port =>
        ∀ endpoint, gatewayEndpoint a w config.moduleId = some endpoint → tokenIssues a w = true →
          ∃ env, injectRuntimeEnv a config.envVars = .ok env ∧
            RuntimeFine host a (startConfig config port env endpoint) w.runtime

end

/-! ## The gateway and the token -/

variable {m : ModuleId} {w w' : ServiceWorld} {a : AttemptAnswers}

theorem liveGateway_erase : liveGateway { w with gateways := w.gateways.erase m.value } m = none := by
  rw [liveGateway, BTreeMap.get_erase, if_pos rfl]
  rfl

theorem ensureGateway_none (h : gatewayEndpoint a w m = none) :
    (∃ err, ensureGateway a m w = (.error err, w)) ∧ liveGateway w m = none := by
  revert h
  rw [gatewayEndpoint, ensureGateway]
  cases liveGateway w m with
  | some gateway => exact nofun
  | none =>
    cases spawnGatewayServer a m with
    | error err => exact fun _ => ⟨⟨err, rfl⟩, rfl⟩
    | ok gateway => exact nofun

theorem spawnGatewayServer_serves {gateway : Gateway}
    (h : spawnGatewayServer a m = .ok gateway) : gateway.finished = false := by
  revert h
  fun_cases spawnGatewayServer a m
  all_goals intro h
  all_goals cases h
  rfl

theorem ensureGateway_some {ep : String} (h : gatewayEndpoint a w m = some ep) :
    ∃ gateways, ensureGateway a m w = (.ok ep, { w with gateways }) ∧
      liveGateway { w with gateways } m ≠ none := by
  revert h
  rw [gatewayEndpoint, ensureGateway]
  cases hli : liveGateway w m with
  | some gateway =>
    intro h
    cases h
    refine ⟨w.gateways, rfl, ?_⟩
    show liveGateway w m ≠ none
    rw [hli]
    exact nofun
  | none =>
    cases hspa : spawnGatewayServer a m with
    | error err => exact nofun
    | ok gateway =>
      intro h
      cases h
      refine ⟨w.gateways.insert m.value gateway, rfl, ?_⟩
      rw [liveGateway, BTreeMap.get_insert, if_pos rfl]
      simp [spawnGatewayServer_serves hspa]

theorem issueModuleServiceToken_poisoned {s : Tokens.ModuleService} (draw : Tokens.Draw)
    (hov : s.isDevOverrideActive m.value = false) (h : s.security.poisoned = true) :
    ∃ err, s.issueModuleServiceToken m.value draw = (.error err, s) := by
  rw [Tokens.ModuleService.issueModuleServiceToken, if_neg (by rw [hov]; decide),
    Tokens.ModuleService.issueDefaultServiceToken,
    Tokens.ModuleService.issueServiceTokenWithScopes, ServiceTokenStore.issue, if_pos h]
  exact ⟨_, rfl⟩

theorem issueModuleServiceToken_ok {s : Tokens.ModuleService} (draw : Tokens.Draw)
    (hov : s.isDevOverrideActive m.value = false) (h : s.security.poisoned = false) :
    ∃ token s', s.issueModuleServiceToken m.value draw = (.ok (some token), s') ∧
      s'.issued = token :: s.issued := by
  rw [Tokens.ModuleService.issueModuleServiceToken, if_neg (by rw [hov]; decide),
    Tokens.ModuleService.issueDefaultServiceToken,
    Tokens.ModuleService.issueServiceTokenWithScopes, ServiceTokenStore.issue,
    if_neg (by rw [h]; decide)]
  exact ⟨_, _, rfl, rfl⟩

/-! ## Stopping the first instance -/

variable {running : BTreeMap RunningModuleState} {st : RunningModuleState}

theorem statesOf_nil_iff : statesOf m running = [] ↔
      ∀ (key : String) st, running[key]? = some st → st.moduleId ≠ m := by
  rw [eq_nil_iff_forall_not_mem]
  constructor
  · intro h key st hget hm
    exact h st (mem_statesOf.mpr ⟨⟨key, hget⟩, hm⟩)
  · intro h st hst
    obtain ⟨⟨key, hget⟩, hm⟩ := mem_statesOf.mp hst
    exact h key st hget hm

theorem statesOf_insert_first (hno : statesOf m running = []) (hm : st.moduleId = m)
    (key : String) : statesOf m (running.insert key st) = [st] := by
  have hent : ∀ key' st', (running.insert key st)[key']? = some st' → st'.moduleId = m →
      key' = key ∧ st' = st := by
    intro key' st' hget hm'
    rw [BTreeMap.get_insert] at hget
    split at hget
    · rename_i hkey
      exact ⟨hkey.symm, (Option.some.inj hget).symm⟩
    · exact absurd hm' (statesOf_nil_iff.mp hno key' st' hget)
  have hmem : st ∈ statesOf m (running.insert key st) :=
    mem_statesOf.mpr ⟨⟨key, by rw [BTreeMap.get_insert, if_pos rfl]⟩, hm⟩
  rw [statesOf, filter_map] at hmem ⊢
  have hke : (((running.insert key st).toList.filter
      ((fun st => decide (st.moduleId = m)) ∘ Prod.snd)).map Prod.fst).Nodup := by
    refine List.Nodup.sublist (filter_sublist.map _) ?_
    rw [Std.ExtTreeMap.map_fst_toList_eq_keys]
    exact Std.ExtTreeMap.nodup_keys
  have hall : ∀ e ∈ (running.insert key st).toList.filter
      ((fun st => decide (st.moduleId = m)) ∘ Prod.snd), e = (key, st) := by
    rintro ⟨key', st'⟩ he
    obtain ⟨hget, hm'⟩ := mem_filter.mp he
    obtain ⟨rfl, rfl⟩ := hent key' st'
      (Std.ExtTreeMap.mem_toList_iff_getElem?_eq_some.mp hget) (of_decide_eq_true hm')
    rfl
  generalize List.filter _ (running.insert key st).toList = entries at hmem hke hall ⊢
  rcases entries with _ | ⟨e, _ | ⟨e', rest⟩⟩
  · cases hmem
  · rw [hall e mem_cons_self]
    rfl
  · -- two entries under one key
    have he := hall e mem_cons_self
    have he' := hall e' (mem_cons_of_mem _ mem_cons_self)
    rw [he, he'] at hke
    simp at hke

theorem statesOf_of_select (h : (selectPrimaryInstance m running).isSome = false) :
    statesOf m running = [] := by
  refine eq_nil_iff_forall_not_mem.mpr ?_
  intro st hst
  rw [selectPrimaryInstance_isSome hst] at h
  cases h

/-- No process and no entry is new. -/
def Shrinks (s s' : RuntimeState) : Prop :=
  s'.processes.Sublist s.processes ∧
    ∀ (key : String) st, s'.running[key]? = some st → s.running[key]? = some st

theorem Shrinks.refl (s : RuntimeState) : Shrinks s s := ⟨.refl _, fun _ _ h => h⟩

theorem Shrinks.trans (s1 s2 s3 : RuntimeState) (h : Shrinks s1 s2) (h' : Shrinks s2 s3) :
    Shrinks s1 s3 :=
  ⟨h'.1.trans h.1, fun key st hget => h.2 key st (h'.2 key st hget)⟩

variable {answers : RuntimeAnswers} {s : RuntimeState}

theorem killProcess_shrinks (pid : Nat) : Keeps Shrinks (killProcess answers pid) := by
  intro s
  have hgo : Shrinks s { s with processes := s.processes.filter (·.pid ≠ pid) } :=
    ⟨filter_sublist, fun _ _ h => h⟩
  rw [killProcess]
  cases answers.kill pid with
  | exited => exact hgo
  | failed why alive =>
    cases alive with
    | true => exact Shrinks.refl s
    | false => exact hgo

theorem stopInstanceById_shrinks (key : String) :
    Keeps Shrinks (stopInstanceById answers m key) := by
  refine keeps_bind Shrinks.trans ?_ ?_
  · intro s
    rw [removeEntry]
    cases s.running[key]? with
    | none => exact Shrinks.refl s
    | some st =>
      exact ⟨.refl _, fun _ _ hget => BTreeMap.get_of_erase hget⟩
  · intro st
    rw [endInstance]
    cases st.kind with
    | process pid => exact killProcess_shrinks pid
    | staticSite => exact keeps_pure Shrinks.refl ()

theorem stop_shrinks : Keeps Shrinks (stop answers m) := by
  refine keeps_bind Shrinks.trans (keeps_read Shrinks.refl _) ?_
  intro ids
  cases ids.isEmpty with
  | true => exact keeps_fail Shrinks.refl _
  | false =>
    exact keeps_each Shrinks.refl Shrinks.trans fun key _ => stopInstanceById_shrinks key

theorem stop_absent (h : statesOf m s.running = []) : (stop answers m s).2 = s := by
  rw [stop, bind_run, read_run, moduleInstances, h]
  rfl

theorem stop_first (hno : statesOf m s.running = []) (hm : st.moduleId = m) :
    (stop answers m (withInstance s st)).2 = (endInstance answers st
      { withInstance s st with
        running := (withInstance s st).running.erase st.instanceId }).2 := by
  have hids : (moduleInstances m (withInstance s st).running).map (·.instanceId) =
      [st.instanceId] := by
    rw [moduleInstances, withInstance, statesOf_insert_first hno hm]
    rfl
  have hrem : removeEntry m st.instanceId (withInstance s st) =
      (.ok st, { withInstance s st with
        running := (withInstance s st).running.erase st.instanceId }) := by
    rw [removeEntry, withInstance_get, if_pos rfl]
  have hrun : stop answers m (withInstance s st) =
      each (stopInstanceById answers m) [st.instanceId] (withInstance s st) := by
    rw [stop, bind_run, read_run, hids]
    rfl
  rw [hrun, each, bind_state _ fun _ _ => rfl, stopInstanceById, bind_of_ok hrem]

/-! ## A start that is dropped -/

/-- No process and no static site is new. -/
def NothingNew (s s' : RuntimeState) : Prop :=
  s'.processes.Sublist s.processes ∧
    ∀ (key : String) st, s'.running[key]? = some st → st.kind = .staticSite →
      s.running[key]? = some st

theorem Shrinks.nothingNew {s' : RuntimeState} (h : Shrinks s s') : NothingNew s s' :=
  ⟨h.1, fun key st hget _ => h.2 key st hget⟩

theorem not_sublist_cons {α : Type} {x : α} {xs : List α} : ¬ (x :: xs).Sublist xs := by
  intro h
  have hlen := h.length_le
  rw [length_cons] at hlen
  omega

theorem endInstance_nothingNew
    (hold : ∀ (key : String) st', running[key]? = some st' → s.running[key]? = some st') :
    NothingNew s (endInstance answers st ⟨running, spawned st ++ s.processes⟩).2 ↔
      ∀ pid, st.kind = .process pid → ∀ why, answers.kill pid ≠ .failed why true := by
  rw [endInstance, spawned]
  cases hkin : st.kind with
  | staticSite =>
    have hfi : NothingNew s ⟨running, s.processes⟩ :=
      ⟨.refl _, fun key st' hget _ => hold key st' hget⟩
    exact ⟨fun _ _ h => (by cases h), fun _ => hfi⟩
  | process pid =>
    have hgo : NothingNew s ⟨running,
        (Process.mk pid st.instanceId st.moduleId :: s.processes).filter (·.pid ≠ pid)⟩ := by
      refine ⟨?_, fun key st' hget _ => hold key st' hget⟩
      rw [filter_cons_of_neg (by simp)]
      exact filter_sublist
    dsimp only
    rw [killProcess]
    cases hki : answers.kill pid with
    | exited =>
      refine ⟨?_, fun _ => hgo⟩
      rintro - pid' hpid why hfai
      obtain rfl := RunningModuleKind.process.inj hpid
      cases hki.symm.trans hfai
    | failed why alive =>
      cases alive with
      | false =>
        refine ⟨?_, fun _ => hgo⟩
        rintro - pid' hpid reason' hfai
        obtain rfl := RunningModuleKind.process.inj hpid
        cases (KillAnswer.failed.inj (hki.symm.trans hfai)).2
      | true =>
        refine ⟨fun h => absurd h.1 not_sublist_cons, ?_⟩
        intro hkil
        exact absurd hki (hkil pid rfl why)

/-- **A DROPPED START** and the stop after it leave nothing new exactly where the process
it had launched is known to the stop, and killed. -/
theorem dropped_nothingNew {host : ProcessModuleRuntime} {config : ModuleStartConfig}
    {point : DropPoint} :
    NothingNew s (stop a.stop config.moduleId (droppedStart host a.start config point s)).2 ↔
      DropFine host a config point s := by
  have hunc : NothingNew s (stop a.stop config.moduleId s).2 := (stop_shrinks s).nothingNew
  rw [droppedStart, DropFine, launchPrimary]
  cases hsel : (selectPrimaryInstance config.moduleId s.running).isSome with
  | true => exact ⟨nofun, fun _ => hunc⟩
  | false =>
    have hno := statesOf_of_select hsel
    rw [if_neg (by decide), forall_prop_of_true rfl]
    cases hlau : launch host (a.start.start (primaryInstanceId config.moduleId))
        config.moduleId (primaryInstanceId config.moduleId) true config.port config.envVars with
    | error e => exact ⟨nofun, fun _ => hunc⟩
    | ok st =>
      obtain ⟨hm, -, -⟩ := launch_asked st hlau
      cases point with
      | waiting =>
        refine ⟨fun _ _ _ _ _ => ⟨nofun, nofun⟩, ?_⟩
        exact fun _ => hunc
      | spawned =>
        dsimp only
        rw [stop_absent (s := ⟨s.running, spawned st ++ s.processes⟩) hno]
        constructor
        · intro h st' pid hst hki
          cases hst
          have hsub := h.1
          rw [spawned, hki] at hsub
          exact absurd hsub not_sublist_cons
        · intro h
          refine ⟨?_, fun _ _ hget _ => hget⟩
          rw [spawned]
          cases hki : st.kind with
          | staticSite => exact .refl _
          | process pid => exact absurd rfl (h st pid rfl hki).1
      | inserted =>
        dsimp only
        have hold : ∀ (key : String) st',
            ((withInstance s st).running.erase st.instanceId)[key]? = some st' →
              s.running[key]? = some st' := by
          intro key st' hget
          rw [BTreeMap.get_erase] at hget
          split at hget
          · cases hget
          · rename_i hkey
            rw [withInstance_get, if_neg hkey] at hget
            exact hget
        rw [stop_first hno hm]
        refine (endInstance_nothingNew hold).trans ⟨?_, ?_⟩
        · intro h st' pid hst hki
          cases hst
          exact ⟨nofun, fun _ => h pid hki⟩
        · intro h pid hki
          exact (h st pid rfl hki).2 rfl

/-! ## The replicas -/

section

variable {host : ProcessModuleRuntime} {config : ModuleStartConfig}

variable {st : RunningModuleState}

theorem maxOrdinal_insert_eq {n : Nat} (hm : st.moduleId = m)
    (hord : replicaOrdinal st.instanceId = some n) (hle : maxOrdinal m running ≤ n) (key : String) :
    maxOrdinal m (running.insert key st) = n := by
  refine le_antisymm (maxOrdinal_le.mpr ?_) ?_
  · intro st' hst' n' hn'
    rcases mem_statesOf_insert hst' with rfl | hold
    · exact (Option.some.inj (hn'.symm.trans hord)).le
    · exact (maxOrdinal_le.mp le_rfl st' hold n' hn').trans hle
  · exact maxOrdinal_le.mp le_rfl st
      (mem_statesOf.mpr ⟨⟨key, by rw [BTreeMap.get_insert, if_pos rfl]⟩, hm⟩) n hord

variable (answers host) in
theorem replicas_isOk {rounds : List Nat} {j : Nat}
    (hj : maxOrdinal config.moduleId s.running = min j usizeMax) :
    (each (fun _ => startReplica host answers config) rounds s).1.isOk = true ↔
      ∀ i, j < i → i ≤ j + rounds.length →
        (launchAt host answers config (min i usizeMax)).isOk = true := by
  induction rounds generalizing j s with
  | nil =>
    refine ⟨fun _ i hlt hle => ?_, fun _ => rfl⟩
    rw [length_nil] at hle
    omega
  | cons r rounds ih =>
    have hbou : min (j + 1) usizeMax ≤ usizeMax := min_le_right _ _
    have hne : nextReplicaInstanceId config.moduleId s.running =
        replicaInstanceId config.moduleId (min (j + 1) usizeMax) := by
      rw [nextReplicaInstanceId, hj]
      congr 1
      omega
    have hnex : launchReplica host answers config.moduleId config.envVars s =
        launchAt host answers config (min (j + 1) usizeMax) := by
      rw [launchReplica, hne, launchAt]
    cases hlau : launchAt host answers config (min (j + 1) usizeMax) with
    | error e =>
      rw [each, bind_of_error (startReplica_error (hnex.trans hlau))]
      refine ⟨fun h => (by cases h), fun h => ?_⟩
      have hok := h (j + 1) (Nat.lt_succ_self j) (by rw [length_cons]; omega)
      rw [hlau] at hok
      exact hok
    | ok st =>
      obtain ⟨hm, hid, -⟩ := launch_asked st hlau
      have hord : replicaOrdinal st.instanceId = some (min (j + 1) usizeMax) := by
        rw [hid, replicaOrdinal_replica _ hbou]
      have hmax : maxOrdinal config.moduleId (withInstance s st).running = min (j + 1) usizeMax :=
        maxOrdinal_insert_eq hm hord (by rw [hj]; omega) st.instanceId
      rw [each, bind_of_ok (startReplica_ok (hnex.trans hlau)), ih hmax, length_cons]
      constructor
      · intro h i hlt hle
        rcases Nat.eq_or_lt_of_le (Nat.succ_le_of_lt hlt) with heq | hlt'
        · rw [← heq, Nat.succ_eq_add_one, hlau]
          rfl
        · exact h i hlt' (by omega)
      · intro h i hlt hle
        exact h i (by omega) (by omega)

theorem startReplica_present {s' : RuntimeState}
    (h : startReplica host answers config s = (.ok (), s')) :
    statesOf config.moduleId s'.running ≠ [] := by
  cases hlau : launchReplica host answers config.moduleId config.envVars s with
  | error e =>
    rw [startReplica_error hlau] at h
    cases h
  | ok st =>
    obtain ⟨hm, -, -⟩ := launch_asked st hlau
    rw [startReplica_ok hlau] at h
    cases h
    exact ne_nil_of_mem
      (mem_statesOf.mpr ⟨⟨st.instanceId, by rw [withInstance_get, if_pos rfl]⟩, hm⟩)

theorem listInstances_isOk (h : statesOf m s.running ≠ []) : (listInstances m s).1.isOk = true := by
  rw [listInstances_ok]
  · rfl
  · rw [ne_eq, ← length_eq_zero_iff, length_moduleInstances, tracked, length_eq_zero_iff]
    exact h

/-- Beside a primary that has just come up the replicas are added exactly where each of
them starts. -/
theorem reconcile_first (hno : statesOf config.moduleId s.running = [])
    (hlau : launchPrimary host answers config = .ok st) {reconcile : RuntimeAnswers}
    {des : Nat} (hdes : 1 < des) :
    (reconcileInstances host reconcile config des (withInstance s st)).1.isOk = true ↔
      ∀ i, 0 < i → i < des → (launchAt host reconcile config (min i usizeMax)).isOk = true := by
  obtain ⟨hm, hid, -⟩ := launch_asked st hlau
  have hsta : statesOf config.moduleId (withInstance s st).running = [st] :=
    statesOf_insert_first hno hm _
  have hpre : moduleInstances config.moduleId (withInstance s st).running ≠ [] := by
    rw [moduleInstances, hsta]
    exact cons_ne_nil _ _
  have hcou : tracked config.moduleId (withInstance s st).running = 1 := by
    rw [tracked, hsta]
    rfl
  have hadj : adjustInstances host reconcile config 1 des =
      each (fun _ => startReplica host reconcile config) (List.range (des - 1)) := by
    rw [adjustInstances, if_neg Nat.one_ne_zero, if_pos hdes]
  have hmax : maxOrdinal config.moduleId (withInstance s st).running = min 0 usizeMax := by
    rw [maxOrdinal, hsta, foldl_cons, foldl_nil, hid, replicaOrdinal_primary]
    rfl
  rw [reconcileInstances_run (by omega) hpre, hcou, hadj]
  have hrou : (each (fun _ => startReplica host reconcile config) (List.range (des - 1))
      (withInstance s st)).1.isOk = true ↔ _ := replicas_isOk reconcile host hmax
  rw [length_range, Nat.zero_add] at hrou
  have hbou : (∀ i, 0 < i → i ≤ des - 1 →
      (launchAt host reconcile config (min i usizeMax)).isOk = true) ↔
      ∀ i, 0 < i → i < des → (launchAt host reconcile config (min i usizeMax)).isOk = true :=
    forall_congr' fun i => forall_congr' fun _ => by rw [Nat.le_sub_one_iff_lt (by omega)]
  rw [← hbou, ← hrou]
  cases hrun : each (fun _ => startReplica host reconcile config) (List.range (des - 1))
      (withInstance s st) with
  | mk r s' =>
    cases r with
    | error e =>
      rw [bind_of_error hrun]
      rfl
    | ok u =>
      have haft : statesOf config.moduleId s'.running ≠ [] :=
        each_ok_keeps (P := fun s => statesOf config.moduleId s.running ≠ [])
          (fun _ _ _ _ _ h => startReplica_present h) hrun (by rw [hsta]; simp)
      rw [bind_of_ok hrun, listInstances_isOk haft]
      rfl

end

/-! ## The attempt -/

section

variable {host : ProcessModuleRuntime} {config : ModuleStartConfig}

theorem leavesNothing_ok {α : Type} {r : α} : LeavesNothing m w (.ok r, w') := nofun

variable {err : ModuleRuntimeError} {gateways : BTreeMap Gateway} {service : Tokens.ModuleService}
  {token : DelegatedToken}

theorem leavesNothing_error {α : Type} :
    LeavesNothing (α := α) m w (.error err, w') ↔ CleanedUp m w w' :=
  forall_prop_of_true rfl

theorem cleanedUp_self : CleanedUp m w w ↔ liveGateway w m = none := by
  refine ⟨fun h => h.gateway, fun h => ⟨?_, h, .refl _, fun _ _ hget _ => hget⟩⟩
  intro token htok
  exact absurd htok.symm (cons_ne_self _ _)

theorem cleanedUp_stopped : CleanedUp m w { w with gateways := gateways.erase m.value } := by
  refine ⟨?_, liveGateway_erase (w := { w with gateways }), .refl _, fun _ _ hget _ => hget⟩
  intro token htok
  exact absurd htok.symm (cons_ne_self _ _)

theorem cleanedUp_revoked (hiss : service.issued = token :: w.service.issued) :
    CleanedUp m w ⟨service.revokeServiceToken token.token a.draw, gateways.erase m.value, s⟩ ↔
      NothingNew w.runtime s := by
  refine ⟨fun h => ⟨h.processes, h.sites⟩, fun h => ⟨?_, ?_, h.1, h.2⟩⟩
  · intro token' hto' now el
    obtain rfl : token = token' := (List.cons.inj (hiss.symm.trans hto')).1
    cases hv : ((service.revokeServiceToken token.token a.draw).security.validate token.token now
        el).1 with
    | error err => rfl
    | ok claims =>
      exact absurd rfl (Tokens.ModuleService.live_revokeServiceToken
        (ServiceTokenStore.validateWith_live hv)).1
  · exact liveGateway_erase (w := ⟨service, gateways, s⟩)

variable (host) in
theorem startRuntime_dropped (config : ModuleStartConfig) (token : DelegatedToken)
    (w : ServiceWorld) {point : DropPoint} (hdro : a.dropped = some point) :
    ∃ err, startRuntime host a config (some token) w = (.error err,
      ⟨w.service.revokeServiceToken token.token a.draw, w.gateways.erase config.moduleId.value,
        (stop a.stop config.moduleId (droppedStart host a.start config point w.runtime)).2⟩) := by
  rw [startRuntime, hdro]
  exact ⟨_, rfl⟩

theorem attempt_start {r : Except ModuleRuntimeError ModuleRuntimeInfo}
    (hsta : start host a.start config w.runtime = (r, s)) :
    (attempt (onRuntime (start host a.start config)) : ServiceAct _) w =
      (.ok r, { w with runtime := s }) := by
  refine attempt_of_run ?_
  rw [onRuntime, hsta]

theorem startRuntime_failed (token : DelegatedToken) (hdro : a.dropped = none)
    (hsta : start host a.start config w.runtime = (.error err, w.runtime)) :
    ∃ err', startRuntime host a config (some token) w = (.error err',
      ⟨w.service.revokeServiceToken token.token a.draw, w.gateways.erase config.moduleId.value,
        w.runtime⟩) := by
  rw [startRuntime, hdro]
  dsimp only
  rw [bind_of_ok (attempt_start hsta)]
  exact ⟨_, rfl⟩

theorem startRuntime_started (token : Option DelegatedToken) (hdro : a.dropped = none)
    {info : ModuleRuntimeInfo} (hsta : start host a.start config w.runtime = (.ok info, s)) :
    startRuntime host a config token w = (.ok info, { w with runtime := s }) := by
  rw [startRuntime, hdro]
  dsimp only
  rw [bind_of_ok (attempt_start hsta)]
  rfl

/-- The phases once the module has its gateway and its token. -/
def startWithToken (host : ProcessModuleRuntime) (a : AttemptAnswers) (config : ModuleStartConfig)
    (token : DelegatedToken) : ServiceAct ModuleRuntimeInfo := do
  let info ← startRuntime host a config (some token)
  addReplicas host a config
  recordIssued config.moduleId (some token)
  pure info

variable (a host config) in
theorem addReplicas_state (w : ServiceWorld) : (addReplicas host a config w).2.service = w.service ∧
      (addReplicas host a config w).2.gateways = w.gateways := by
  rw [addReplicas]
  split
  · rw [bind_run]
    cases hrun : onRuntime (reconcileInstances host a.reconcile config
        (max a.desiredReplicas 1)) w with
    | mk r w' =>
      have hw' : w' = { w with runtime := w'.runtime } := by
        rw [onRuntime] at hrun
        rw [← (Prod.mk.inj hrun).2]
      rw [hw']
      cases r with
      | error e | ok infos => exact ⟨rfl, rfl⟩
  · exact ⟨rfl, rfl⟩

variable (w a) in
theorem addReplicas_isOk (hno : statesOf config.moduleId s.running = [])
    (hlau : launchPrimary host answers config = .ok st) :
    (addReplicas host a config { w with runtime := withInstance s st }).1.isOk = true ↔
      ReplicasStart host a config := by
  rw [addReplicas]
  by_cases hmo : 1 < max a.desiredReplicas 1
  · rw [if_pos hmo]
    have hfir : (reconcileInstances host a.reconcile config (max a.desiredReplicas 1)
        (withInstance s st)).1.isOk = true ↔ _ := reconcile_first hno hlau hmo
    rw [ReplicasStart, ← hfir, bind_run, onRuntime]
    cases reconcileInstances host a.reconcile config (max a.desiredReplicas 1)
        (withInstance s st) with
    | mk r s' => cases r <;> exact Iff.rfl
  · rw [if_neg hmo]
    refine ⟨fun _ i hpos hlt => ?_, fun _ => rfl⟩
    omega

variable (a host config) in
/-- **FROM THE RUNTIME PHASE ON** a failure leaves nothing exactly where the phase is fine:
its own failures are cleaned up, those of the replicas are not. -/
theorem startWithToken_leaves (hiss : service.issued = token :: w.service.issued)
    (hli : liveGateway ⟨service, gateways, w.runtime⟩ config.moduleId ≠ none) :
    LeavesNothing config.moduleId w
        (startWithToken host a config token ⟨service, gateways, w.runtime⟩) ↔
      RuntimeFine host a config w.runtime := by
  rw [startWithToken, RuntimeFine]
  cases hdro : a.dropped with
  | some point =>
    obtain ⟨err, hrun⟩ := startRuntime_dropped host config token ⟨service, gateways, w.runtime⟩ hdro
    rw [bind_of_error hrun, leavesNothing_error]
    exact (cleanedUp_revoked hiss).trans dropped_nothingNew
  | none =>
    dsimp only
    have hfai : ∀ err, start host a.start config w.runtime = (.error err, w.runtime) →
        LeavesNothing config.moduleId w
          (startWithToken host a config token ⟨service, gateways, w.runtime⟩) := by
      intro err hsta
      obtain ⟨err', hrun⟩ :=
        startRuntime_failed (w := ⟨service, gateways, w.runtime⟩) token hdro hsta
      rw [startWithToken, bind_of_error hrun, leavesNothing_error]
      exact (cleanedUp_revoked hiss).mpr (Shrinks.refl _).nothingNew
    cases hsel : (selectPrimaryInstance config.moduleId w.runtime.running).isSome with
    | true => exact ⟨nofun, fun _ => hfai _ (start_present hsel)⟩
    | false =>
      have hno := statesOf_of_select hsel
      rw [forall_prop_of_true rfl]
      cases hlau : launchPrimary host a.start config with
      | error e =>
        refine ⟨nofun, fun _ => hfai e ?_⟩
        exact (start_absent hsel).trans (startSpecificInstance_error hlau)
      | ok st =>
        have hsta := (start_absent hsel).trans (startSpecificInstance_ok hlau)
        have hrun := startRuntime_started (w := ⟨service, gateways, w.runtime⟩)
          (some token) hdro hsta
        have hrep := addReplicas_isOk ⟨service, gateways, w.runtime⟩ a hno hlau
        have hst := addReplicas_state a host config ⟨service, gateways, withInstance w.runtime st⟩
        rw [bind_of_ok hrun]
        cases hadd : addReplicas host a config
            ⟨service, gateways, withInstance w.runtime st⟩ with
        | mk r w' =>
          rw [hadd] at hrep hst
          cases r with
          | ok u =>
            rw [bind_of_ok hadd]
            exact ⟨fun _ _ => hrep.mp rfl, fun _ => leavesNothing_ok⟩
          | error e =>
            rw [bind_of_error hadd, leavesNothing_error]
            constructor
            · intro hcle
              have hgat := hcle.gateway
              rw [liveGateway, hst.2] at hgat
              exact absurd hgat hli
            · intro hfi
              cases hrep.mpr (hfi rfl)

theorem issueToken_error (hov : w.service.isDevOverrideActive m.value = false)
    (h : tokenIssues a w = false) :
    ∃ err, issueToken a m w = (.error err, { w with gateways := w.gateways.erase m.value }) := by
  rw [issueToken]
  cases htim : a.tokenTimedOut with
  | true => exact ⟨_, rfl⟩
  | false =>
    have hpoi : w.service.security.poisoned = true := by
      rw [tokenIssues, htim] at h
      simpa using h
    obtain ⟨err, hiss⟩ := issueModuleServiceToken_poisoned a.draw hov hpoi
    have hrun : (attempt (onService fun service =>
        service.issueModuleServiceToken m.value a.draw) : ServiceAct _) w =
          (.ok (.error err), w) := by
      refine attempt_of_run ?_
      rw [onService, hiss]
    rw [if_neg (by decide), bind_of_ok hrun]
    exact ⟨_, rfl⟩

theorem issueToken_ok (hov : w.service.isDevOverrideActive m.value = false)
    (h : tokenIssues a w = true) :
    ∃ token service, issueToken a m w = (.ok (some token), { w with service }) ∧
      service.issued = token :: w.service.issued := by
  obtain ⟨htim, hpoi⟩ : a.tokenTimedOut = false ∧ w.service.security.poisoned = false := by
    simpa [tokenIssues] using h
  obtain ⟨token, service, hiss, his⟩ := issueModuleServiceToken_ok a.draw hov hpoi
  have hrun : (attempt (onService fun service =>
      service.issueModuleServiceToken m.value a.draw) : ServiceAct _) w =
        (.ok (.ok (some token)), { w with service }) := by
    refine attempt_of_run ?_
    rw [onService, hiss]
  refine ⟨token, service, ?_, his⟩
  rw [issueToken, htim, if_neg (by decide), bind_of_ok hrun]
  rfl

/-- **ONCE ITS CHECKS HAVE PASSED** a start that fails leaves nothing exactly where, given
its gateway and its token, the environment resolves and the runtime phase is fine. -/
theorem startChecked_leaves {port : Option Nat}
    (hov : w.service.isDevOverrideActive config.moduleId.value = false) :
    LeavesNothing config.moduleId w (startChecked host a config port w) ↔
      ∀ ep, gatewayEndpoint a w config.moduleId = some ep → tokenIssues a w = true →
        ∃ env, injectRuntimeEnv a config.envVars = .ok env ∧
          RuntimeFine host a (startConfig config port env ep) w.runtime := by
  rw [startChecked]
  cases hgat : gatewayEndpoint a w config.moduleId with
  | none =>
    obtain ⟨⟨err, hrun⟩, hli⟩ := ensureGateway_none hgat
    rw [bind_of_error hrun, leavesNothing_error, cleanedUp_self]
    exact ⟨nofun, fun _ => hli⟩
  | some ep =>
    obtain ⟨gateways, hrun, hli⟩ := ensureGateway_some hgat
    rw [bind_of_ok hrun]
    cases his : tokenIssues a w with
    | false =>
      obtain ⟨err, htok⟩ := issueToken_error (w := { w with gateways }) hov his
      rw [bind_of_error htok, leavesNothing_error]
      exact ⟨nofun, fun _ => cleanedUp_stopped⟩
    | true =>
      obtain ⟨token, service, htok, hiss⟩ :=
        issueToken_ok (w := { w with gateways }) hov his
      rw [bind_of_ok htok]
      have hser : liveGateway ⟨service, gateways, w.runtime⟩ config.moduleId ≠ none := hli
      have hfir : service.issued = token :: w.service.issued := hiss
      cases henv : injectRuntimeEnv a config.envVars with
      | error err =>
        rw [lift_bind_error rfl, leavesNothing_error]
        refine ⟨fun hcle => absurd hcle.gateway hser, fun hfi => ?_⟩
        obtain ⟨env, hok, -⟩ := hfi ep rfl rfl
        cases hok
      | ok env =>
        rw [lift_bind_ok rfl]
        have hre : LeavesNothing config.moduleId w (startWithToken host a
            (startConfig config port env ep) token ⟨service, gateways, w.runtime⟩) ↔
              RuntimeFine host a (startConfig config port env ep) w.runtime :=
          startWithToken_leaves a host (startConfig config port env ep) hfir hser
        refine hre.trans ⟨?_, ?_⟩
        · rintro hfi endpoint' hend -
          cases hend
          exact ⟨env, rfl, hfi⟩
        · intro hfi
          obtain ⟨env', hen', hfi'⟩ := hfi ep rfl rfl
          obtain rfl := Except.ok.inj hen'
          exact hfi'

end

/-- **A START THAT FAILS LEAVES NOTHING** exactly where the attempt is fine. -/
theorem failed_start_leaves_nothing_iff (host : ProcessModuleRuntime) (a : AttemptAnswers)
    (config : ModuleStartConfig) (w : ServiceWorld) :
    LeavesNothing config.moduleId w (startWithTrigger host a config w) ↔
      AttemptFine host a config w := by
  rw [startWithTrigger, AttemptFine]
  cases hlo : loadModule a config.moduleId with
  | error err => rw [lift_bind_error rfl, leavesNothing_error, cleanedUp_self]
  | ok version =>
    rw [lift_bind_ok rfl, bind_run, read_run]
    dsimp only
    cases hov : w.service.isDevOverrideActive config.moduleId.value with
    | true => exact ⟨nofun, fun _ => leavesNothing_ok⟩
    | false =>
      rw [if_neg (by decide), bind_run, read_run, forall_prop_of_true rfl]
      dsimp only
      cases hche : checkStart a config w.runtime with
      | error err => rw [lift_bind_error rfl, leavesNothing_error, cleanedUp_self]
      | ok port => rw [lift_bind_ok rfl, startChecked_leaves hov]

/-! ## Two starts that leave something -/

def plainAttempt : AttemptAnswers where
  load := .ok (some ⟨1, 0, 0, "", ""⟩)
  registerDeclaredServices := .ok ()
  now := 0
  quarantinedUntil := none
  assignedPort := .ok (some 4100)
  preflight := .passed
  preflightTimeoutMs := 20000
  bindGateway := none
  gatewayAddr := .ok 40000
  tokenTimedOut := false
  tokenTimeoutMs := 5000
  draw := ⟨"t1", "1", 0, 0⟩
  hostEnv := id
  configuredEnv := []
  start := plainAnswers notesModule 7
  dropped := none
  runtimeTimeoutMs := 30000
  stop := plainAnswers notesModule 7
  failureQuarantine := none
  desiredReplicas := 1
  reconcile := plainAnswers notesModule 8

def unresolvedAttempt : AttemptAnswers :=
  { plainAttempt with configuredEnv := [.error "secret 'smtp' not found"] }

def replicaFailsAttempt : AttemptAnswers :=
  { plainAttempt with
    desiredReplicas := 2
    reconcile :=
      { start := fun _ => { plainStart notesModule 8 with spawn := .error "out of memory" }
        kill := fun _ => .exited } }

/-- Nothing is running and no token is out. A start whose environment does not resolve
fails and leaves its gateway and its token; so does a start whose second replica does
not come up, and the first instance stays up. -/
theorem failed_starts_leave_token :
    let config := plainConfig notesModule
    let idle : ServiceWorld := ⟨Tokens.sampleService, ∅, RuntimeState.empty⟩
    let unresolved := startWithTrigger plainHost unresolvedAttempt config idle
    let halfway := startWithTrigger plainHost replicaFailsAttempt config idle
    isRunning notesModule idle.runtime = false ∧ unresolved.1.isOk = false ∧
      (unresolved.2.service.security.validate "t1" 1 1).1.isOk = true ∧
      (liveGateway unresolved.2 notesModule).isSome = true ∧
      halfway.1.isOk = false ∧
      (halfway.2.service.security.validate "t1" 1 1).1.isOk = true ∧
      (liveGateway halfway.2 notesModule).isSome = true ∧
      halfway.2.runtime.processes = [⟨7, "notes:primary", notesModule⟩] := by
  decide +kernel

end Fenrir.Runtime
