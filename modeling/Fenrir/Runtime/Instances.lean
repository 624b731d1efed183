import Fenrir.Runtime.Process

/-! # Instance ids and the map of instances

Which module an instance id belongs to can be read off the id, as module ids
have no colons, and an ordinal reads back from the id it is printed into. So
in a map whose entries stand under ids of their own module a new replica never
meets an old one, as long as the ordinals fit. -/

namespace Fenrir.Runtime

open Effect Effect.Act Modules List

/-! ## Ids -/

variable {c : Char} {m : ModuleId} {instanceId key : String} {n : Nat}
  {running : BTreeMap RunningModuleState} {st : RunningModuleState}

theorem ModuleId.chars (m : ModuleId) (hc : c ∈ m.value.toList) :
    (c.isLower || c.isDigit || c == '-' || c == '_') = true := by
  have h := m.valid
  rw [moduleId] at h
  split at h
  · cases h
  · split at h
    · cases h
    · rename_i hall
      rw [Except.ok.inj h, Bool.not_eq_true', Bool.not_eq_false, all_eq_true] at hall
      exact hall c hc

theorem ModuleId.no_colon (m : ModuleId) : ':' ∉ m.value.toList := by
  intro hmem
  exact absurd (m.chars hmem) (by decide)

def InstanceOf (m : ModuleId) (instanceId : String) : Prop :=
  instanceId = primaryInstanceId m ∨
    ∃ ordinal, ordinal ≤ usizeMax ∧ instanceId = replicaInstanceId m ordinal

theorem primary_toList (m : ModuleId) :
    (primaryInstanceId m).toList = m.value.toList ++ ':' :: "primary".toList := by
  rw [primaryInstanceId, String.toList_append]
  rfl

theorem replica_toList (m : ModuleId) (ordinal : Nat) : (replicaInstanceId m ordinal).toList =
      m.value.toList ++ ':' :: ("replica:".toList ++ (Nat.repr ordinal).toList) := by
  rw [replicaInstanceId, String.toList_append, String.toList_append, append_assoc]
  rfl

theorem takeWhile_value (m : ModuleId) (rest : List Char) :
    (m.value.toList ++ ':' :: rest).takeWhile (· ≠ ':') = m.value.toList := by
  have hfr : ∀ c ∈ m.value.toList, decide (c ≠ ':') = true := by
    intro c hc
    rw [decide_eq_true_eq]
    rintro rfl
    exact m.no_colon hc
  rw [takeWhile_append_of_pos hfr]
  simp

theorem InstanceOf.value (h : InstanceOf m instanceId) :
    instanceId.toList.takeWhile (· ≠ ':') = m.value.toList := by
  rcases h with rfl | ⟨ordinal, -, rfl⟩
  · rw [primary_toList, takeWhile_value]
  · rw [replica_toList, takeWhile_value]

/-- **AN ID BELONGS TO ONE MODULE.** -/
theorem InstanceOf.unique {m' : ModuleId} (h : InstanceOf m instanceId)
    (h' : InstanceOf m' instanceId) : m = m' := by
  have hval : m.value = m'.value := String.toList_inj.mp (h.value.symm.trans h'.value)
  cases m
  cases m'
  obtain rfl := hval
  rfl

theorem repr_isDigit (h : c ∈ (Nat.repr n).toList) : c.isDigit = true := by
  rw [Nat.toList_repr] at h
  exact Nat.isDigit_of_mem_toDigits (by decide) (by decide) h

theorem parseUsize_repr (h : n ≤ usizeMax) : parseUsize (Nat.repr n).toList = some n := by
  have hdig : (Nat.repr n).toList.all Char.isDigit = true :=
    all_eq_true.mpr fun c hc => repr_isDigit hc
  have hne : (Nat.repr n).toList ≠ [] := by
    rw [Nat.toList_repr]
    exact Nat.toDigits_ne_nil
  have hre : Nat.ofDigitChars 10 (Nat.repr n).toList 0 = n := by
    rw [Nat.toList_repr, Nat.ofDigitChars_ten_toDigits]
  have hpl : ∀ rest, (Nat.repr n).toList ≠ '+' :: rest := by
    intro rest heq
    have hmem : '+' ∈ (Nat.repr n).toList := heq ▸ mem_cons_self
    exact absurd (repr_isDigit hmem) (by decide)
  rw [parseUsize, if_neg, hre, if_pos h]
  · rw [hdig, not_or]
    exact ⟨hne, by decide⟩
  · exact hpl

theorem mark_cons : ":replica:".toList = ':' :: "replica:".toList := by decide

theorem mark_concat : "replica:".toList = "replica".toList ++ [':'] := by decide

theorem rsplitOnce_digits (n : Nat) :
    Text.rsplitOnce (':' :: "replica:".toList) (':' :: (Nat.repr n).toList) = none := by
  have hcol : ':' ∉ (Nat.repr n).toList := by
    intro hmem
    exact absurd (repr_isDigit hmem) (by decide)
  have hdig : Text.rsplitOnce (':' :: "replica:".toList) ((Nat.repr n).toList ++ []) = none :=
    Text.rsplitOnce_append_none hcol rfl
  rw [append_nil] at hdig
  have hstr : Text.stripStart (':' :: "replica:".toList) (':' :: (Nat.repr n).toList) = none := by
    cases hs : Text.stripStart (':' :: "replica:".toList) (':' :: (Nat.repr n).toList) with
    | none => rfl
    | some rest =>
      have heq := (List.cons.inj (Text.stripStart_eq_some.mp hs)).2
      have hmem : 'r' ∈ (Nat.repr n).toList := by
        rw [heq]
        exact mem_append_left _ (by decide)
      exact absurd (repr_isDigit hmem) (by decide)
  rw [Text.rsplitOnce, hdig, hstr]
  rfl

/-- **ORDINALS READ BACK.** -/
theorem replicaOrdinal_replica (m : ModuleId) {ordinal : Nat} (h : ordinal ≤ usizeMax) :
    replicaOrdinal (replicaInstanceId m ordinal) = some ordinal := by
  have hta : Text.rsplitOnce (':' :: "replica:".toList)
      ("replica:".toList ++ (Nat.repr ordinal).toList) = none := by
    rw [mark_concat, append_assoc, ← mark_concat]
    exact Text.rsplitOnce_append_none (by decide) (rsplitOnce_digits ordinal)
  have hstr : Text.stripStart (':' :: "replica:".toList)
      (':' :: ("replica:".toList ++ (Nat.repr ordinal).toList)) = some (Nat.repr ordinal).toList :=
    Text.stripStart_eq_some.mpr rfl
  have hspl : Text.rsplitOnce (':' :: "replica:".toList)
      (':' :: ("replica:".toList ++ (Nat.repr ordinal).toList)) =
        some ([], (Nat.repr ordinal).toList) := by
    rw [Text.rsplitOnce, hta, hstr]
    rfl
  rw [replicaOrdinal, mark_cons, replica_toList, Text.rsplitOnce_append hspl, Option.bind_some]
  exact parseUsize_repr h

theorem replicaOrdinal_primary (m : ModuleId) : replicaOrdinal (primaryInstanceId m) = none := by
  have hsuf : Text.rsplitOnce (':' :: "replica:".toList) (':' :: "primary".toList) = none := by
    decide
  rw [replicaOrdinal, mark_cons, primary_toList, Text.rsplitOnce_append_none m.no_colon hsuf]
  rfl

/-! ## The map -/

/-- Every entry stands under its own id, an id of its own module. -/
def Shape (running : BTreeMap RunningModuleState) : Prop :=
  ∀ key st, running[key]? = some st → st.instanceId = key ∧ InstanceOf st.moduleId key

theorem shape_empty : Shape ∅ := by
  intro key st h
  rw [Std.ExtTreeMap.getElem?_empty] at h
  cases h

theorem Shape.insert (h : Shape running) (hst : InstanceOf st.moduleId st.instanceId) :
    Shape (running.insert st.instanceId st) :=
  BTreeMap.forall_insert ⟨rfl, hst⟩ h

theorem Shape.erase (h : Shape running) (key : String) : Shape (running.erase key) :=
  fun key' st hget => h key' st (BTreeMap.get_of_erase hget)

theorem mem_statesOf :
    st ∈ statesOf m running ↔ (∃ key : String, running[key]? = some st) ∧ st.moduleId = m := by
  rw [statesOf, mem_filter, decide_eq_true_eq, mem_map]
  refine and_congr_left fun _ => ⟨?_, ?_⟩
  · rintro ⟨⟨key, st'⟩, hmem, rfl⟩
    exact ⟨key, Std.ExtTreeMap.mem_toList_iff_getElem?_eq_some.mp hmem⟩
  · rintro ⟨key, hget⟩
    exact ⟨(key, st), Std.ExtTreeMap.mem_toList_iff_getElem?_eq_some.mpr hget, rfl⟩

theorem mem_statesOf_insert {st' : RunningModuleState}
    (h : st' ∈ statesOf m (running.insert key st)) : st' = st ∨ st' ∈ statesOf m running := by
  obtain ⟨⟨key', hget⟩, hm⟩ := mem_statesOf.mp h
  rw [BTreeMap.get_insert] at hget
  split at hget
  · exact .inl (Option.some.inj hget).symm
  · exact .inr (mem_statesOf.mpr ⟨⟨key', hget⟩, hm⟩)

theorem mem_moduleInstances : st ∈ moduleInstances m running ↔ st ∈ statesOf m running :=
  (perm_insertionSort _ _).mem_iff

theorem Shape.moduleId_eq (h : Shape running) (hkey : InstanceOf m key)
    (hget : running[key]? = some st) : st.moduleId = m :=
  (h key st hget).2.unique hkey

/-! ## The primary instance -/

theorem foldl_isSome {α : Type} {f : Option α → α → Option α}
    (hf : ∀ best x, (f best x).isSome) {xs : List α} {best : Option α}
    (h : best.isSome ∨ xs ≠ []) : (xs.foldl f best).isSome := by
  induction xs generalizing best with
  | nil => exact h.resolve_right fun hne => hne rfl
  | cons x xs ih => exact ih (.inl (hf best x))

theorem selectPrimaryInstance_isSome (h : st ∈ statesOf m running) :
    (selectPrimaryInstance m running).isSome := by
  refine foldl_isSome ?_ (.inr (ne_nil_of_mem h))
  intro best x
  cases best with
  | none => rfl
  | some b =>
    dsimp only
    split
    · rfl
    · split <;> rfl

theorem Shape.free_of_select (h : Shape running) (hkey : InstanceOf m key)
    (hno : selectPrimaryInstance m running = none) : running[key]? = none := by
  cases hget : running[key]? with
  | none => rfl
  | some st =>
    have hmem : st ∈ statesOf m running := mem_statesOf.mpr ⟨⟨key, hget⟩, h.moduleId_eq hkey hget⟩
    have hso := selectPrimaryInstance_isSome hmem
    rw [hno] at hso
    cases hso

/-! ## The next replica -/

theorem foldl_max_spec {α : Type} (f : α → Option Nat) (xs : List α) (start : Nat) (bound : Nat) :
    xs.foldl (fun best x =>
      match f x with
      | some n => max best n
      | none => best) start ≤ bound ↔ start ≤ bound ∧ ∀ x ∈ xs, ∀ n, f x = some n → n ≤ bound := by
  induction xs generalizing start with
  | nil => simp
  | cons x xs ih =>
    rw [foldl_cons, ih, forall_mem_cons]
    cases f x with
    | none => simp
    | some n => simp [and_assoc]

theorem maxOrdinal_le {bound : Nat} : maxOrdinal m running ≤ bound ↔
      ∀ st ∈ statesOf m running, ∀ n, replicaOrdinal st.instanceId = some n → n ≤ bound := by
  have h := foldl_max_spec (fun st : RunningModuleState => replicaOrdinal st.instanceId)
    (statesOf m running) 0 bound
  exact h.trans (and_iff_right (Nat.zero_le _))

/-- **THE NEXT REPLICA'S ID IS FREE** unless the ordinals are used up. -/
theorem next_not_running (h : Shape running) (hro : maxOrdinal m running < usizeMax) :
    running[nextReplicaInstanceId m running]? = none := by
  have hne : nextReplicaInstanceId m running = replicaInstanceId m (maxOrdinal m running + 1) := by
    rw [nextReplicaInstanceId, min_eq_left hro]
  rw [hne]
  cases hget : running[replicaInstanceId m (maxOrdinal m running + 1)]? with
  | none => rfl
  | some st =>
    have hmem : st ∈ statesOf m running :=
      mem_statesOf.mpr ⟨⟨_, hget⟩, h.moduleId_eq (.inr ⟨_, hro, rfl⟩) hget⟩
    have hord : replicaOrdinal st.instanceId = some (maxOrdinal m running + 1) := by
      rw [(h _ st hget).1, replicaOrdinal_replica m hro]
    have hle := maxOrdinal_le.mp le_rfl st hmem _ hord
    omega

theorem next_instanceOf (m : ModuleId) (running : BTreeMap RunningModuleState) :
    InstanceOf m (nextReplicaInstanceId m running) :=
  .inr ⟨_, min_le_right _ _, rfl⟩

theorem listInstances_state (m : ModuleId) (s : RuntimeState) : (listInstances m s).2 = s := by
  rw [listInstances]
  split <;> rfl

/-! ## What a start brings -/

section

def Asked (m : ModuleId) (instanceId : String) (primary : Bool)
    (r : Except ModuleRuntimeError RunningModuleState) : Prop :=
  ∀ st, r = .ok st → st.moduleId = m ∧ st.instanceId = instanceId ∧ st.primary = primary

variable {e : ModuleRuntimeError} {version : SemVersion} {env : List (String × String)}
  {port : Option Nat} {config : ModuleStartConfig}

theorem asked_error {primary : Bool} : Asked m instanceId primary (.error e) := by
  intro st h
  cases h

theorem asked_bind {primary : Bool} {α : Type} {x : Except ModuleRuntimeError α}
    {f : α → Except ModuleRuntimeError RunningModuleState}
    (h : ∀ a, Asked m instanceId primary (f a)) : Asked m instanceId primary (x >>= f) := by
  cases x with
  | error e => exact asked_error
  | ok a => exact h a

variable {host : ProcessModuleRuntime} {a : StartAnswers} {m : ModuleId} {instanceId : String}
  {primary : Bool}

theorem tryStartStaticSite_asked :
    Asked m instanceId primary (tryStartStaticSite host a m instanceId primary version env) := by
  intro st h
  rw [tryStartStaticSite] at h
  split at h
  · cases h
  · cases h
    exact ⟨rfl, rfl, rfl⟩

theorem spawnProcess_asked {modulePath : String} {binary : Option String} :
    Asked m instanceId primary
      (spawnProcess host a m instanceId primary port version modulePath env binary) := by
  refine asked_bind fun _ => asked_bind fun _ => asked_bind fun _ => ?_
  split
  · exact asked_error
  · intro st h
    cases h
    exact ⟨rfl, rfl, rfl⟩

/-- **WHAT IS LAUNCHED** is an instance of the module under the id, if anything is. -/
theorem launch_asked {requestedPort : Option Nat} {envVars : List (String × String)} :
    Asked m instanceId primary (launch host a m instanceId primary requestedPort envVars) := by
  refine asked_bind fun _ => asked_bind fun _ => asked_bind fun _ => asked_bind fun _ => ?_
  dsimp only
  split
  · split
    · exact tryStartStaticSite_asked
    · exact asked_error
  · refine asked_bind fun binary => ?_
    split
    · exact tryStartStaticSite_asked
    · exact spawnProcess_asked

/-- The map and the processes once the instance is up. -/
def withInstance (s : RuntimeState) (st : RunningModuleState) : RuntimeState :=
  ⟨s.running.insert st.instanceId st, spawned st ++ s.processes⟩

theorem withInstance_get (s : RuntimeState) (st : RunningModuleState) (key : String) :
    (withInstance s st).running[key]? = if st.instanceId = key then some st else s.running[key]? :=
  BTreeMap.get_insert ..

variable {answers : RuntimeAnswers} {s : RuntimeState}

theorem startSpecificInstance_error
    (h : launch host (answers.start instanceId) m instanceId primary port env = .error e) :
    startSpecificInstance host answers m instanceId primary port env s = (.error e, s) :=
  lift_bind_error h _ s

theorem startSpecificInstance_ok
    (h : launch host (answers.start instanceId) m instanceId primary port env = .ok st) :
    startSpecificInstance host answers m instanceId primary port env s =
      (.ok { infoFromState (spawned st ++ s.processes) st with status := .running },
        withInstance s st) := by
  obtain ⟨-, hid, -⟩ := launch_asked st h
  rw [withInstance, hid]
  exact lift_bind_ok h _ s

theorem start_present (h : (selectPrimaryInstance config.moduleId s.running).isSome = true) :
    start host answers config s = (.error (.alreadyRunning config.moduleId.value), s) := by
  rw [start, bind_run, read_run, h]
  rfl

theorem start_absent (h : (selectPrimaryInstance config.moduleId s.running).isSome = false) :
    start host answers config s = startSpecificInstance host answers config.moduleId
      (primaryInstanceId config.moduleId) true config.port config.envVars s := by
  rw [start, bind_run, read_run, h]
  rfl

end

/-! ## A host with two modules -/

def tasksModule : ModuleId := ⟨"tasks", rfl⟩

def notesModule : ModuleId := ⟨"notes", rfl⟩

def plainHost : ProcessModuleRuntime := ⟨"/var/lib/fenrir", []⟩

def plainStart (m : ModuleId) (pid : Nat) : StartAnswers where
  load := .ok (some (⟨1, 0, 0, "", ""⟩, "/opt/modules/" ++ m.value))
  configPort := none
  createLogDir := none
  resetLogFile := none
  manifestMode := none
  migrationsDir := none
  manifestProfile := .ok false
  discoveredProfile := false
  bind := .ok 0
  binary := .ok (some m.value)
  openLogFile := none
  bootstrap := none
  spawn := .ok pid
  startedAt := 0

/-- Starts give this process id, and every kill ends its process. -/
def plainAnswers (m : ModuleId) (pid : Nat) : RuntimeAnswers where
  start _ := plainStart m pid
  kill _ := .exited

def plainConfig (m : ModuleId) : ModuleStartConfig := ⟨m, none, []⟩

end Fenrir.Runtime
