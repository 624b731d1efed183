import Fenrir.Lib.Sequences
import Fenrir.Depot.State

/-! # What an install would change

`plan.rs`, pure: the signed targets (or one module, or a backup record)
against the installed modules and the host state. -/

namespace Fenrir

open Or

open DepotProtocol List

/-- An installed module as the pipeline sees it (`ports.rs`). -/
structure HostModule where
  name : String
  version : DepotVersion
  sha256 : String
  (localSync running : Bool)
  instances : Nat
  migrations : List String

/-- One module the host would run, from a signed manifest (`verify.rs`). -/
structure TargetModule where
  (name rule : String)
  version : DepotVersion
  platform : String
  sha256 : Sha256Digest
  size : Nat
  optional : Bool
  requires : Requires
  via : Option String

inductive Action where
  | install | update | downgrade | replace | unchanged | pinned | localSync
  | optionalSkipped | kept | restore | remove
  deriving DecidableEq

/-- `Action::changes`: whether files change. -/
def Action.changes : Action → Bool
  | .install | .update | .downgrade | .replace | .restore | .remove => true
  | .unchanged | .pinned | .localSync | .optionalSkipped | .kept => false

/-- The module runs signed code of the plan afterwards. -/
def Action.runsSigned (a : Action) : Bool := a.changes || a == .unchanged

inductive Restart where
  | none | start | restart | rolling | stop
  deriving DecidableEq

structure PlanEntry where
  module : String
  rule : Option String
  installed : Option DepotVersion
  -- what runs afterwards (`none` for a removal)
  target : Option DepotVersion
  size : Option Nat
  action : Action
  restart : Restart
  migrations : List String
  (via note : Option String)
  source : Option TargetModule

structure Plan where
  title : String
  entries : List PlanEntry
  problems : List String

def Plan.changes (p : Plan) : List PlanEntry := p.entries.filter (·.action.changes)

def restartFor : Option HostModule → Restart
  | some m => if m.running && m.instances > 1 then .rolling
      else if m.running then .restart else .start
  | none => .start

def eqIgnoreAsciiCase (a b : String) : Bool :=
  a.toList.map Char.toLower == b.toList.map Char.toLower

/-- `entries.sort_by(|a, b| a.module.cmp(&b.module))`, a stable sort. -/
def sortByModule (entries : List PlanEntry) : List PlanEntry :=
  entries.insertionSort (fun a b => a.module ≤ b.module)

section

variable [DepotProtocol]

def changeAction (installed : Option HostModule) (target : TargetModule) : Action :=
  match installed with
  | none => .install
  | some m =>
    if m.version = target.version then
      if eqIgnoreAsciiCase m.sha256 (toHex target.sha256) then .unchanged else .replace
    else if m.version < target.version then .update
    else .downgrade

/-- The decision ladder of `plan_distribution` for one target. -/
def targetAction (current : Option HostModule) (state : HostState) (target : TargetModule) :
    Action :=
  if current.any (·.localSync) then .localSync
  else if (state.pins[target.name]?).isSome then .pinned
  else if target.optional && current.isNone then .optionalSkipped
  else changeAction current target

/-- The remark shown with the entry: a pin that differs from the signed
version, or the override that ends. -/
def targetNote (state : HostState) (target : TargetModule) (action : Action) : Option String :=
  let pinNote := match action, state.pins[target.name]? with
    | .pinned, some pinned =>
      if pinned ≠ target.version then some s!"distribution has {target.version.display}"
      else none
    | _, _ => none
  if action.runsSigned then
    match state.overrides[target.name]? with
    | some hotfix => some s!"ends override {hotfix.version.display} ({hotfix.source})"
    | none => pinNote
  else pinNote

/-- The loop body of `plan_distribution` over the signed targets. -/
def targetEntry (byName : BTreeMap HostModule) (state : HostState) (target : TargetModule) :
    PlanEntry :=
  let current := byName[target.name]?
  let action := targetAction current state target
  { module := target.name
    rule := some target.rule
    installed := current.map (·.version)
    target := match action with
      | .pinned | .localSync => current.map (·.version)
      | .optionalSkipped => none
      | _ => some target.version
    size := if action.changes then some target.size else none
    action
    restart := if action.changes then restartFor current else .none
    migrations := []
    via := target.via
    note := targetNote state target action
    source := some target }

/-- The loop body over what is installed but not part of the target. -/
def keptEntry (m : HostModule) : PlanEntry where
  module := m.name
  rule := none
  installed := some m.version
  target := some m.version
  size := none
  action := if m.localSync then .localSync else .kept
  restart := .none
  migrations := []
  via := none
  note := none
  source := none

/-- What runs afterwards, by name (the map of `effective_requirements`). -/
def runsAfter (entries : List PlanEntry) : BTreeMap (DepotVersion × Action) :=
  .ofList (entries.filterMap fun e => e.target.map fun v => (e.module, (v, e.action)))

/-- The problem one requirement of a signed module causes, if any. -/
def requirementProblem (runs : BTreeMap (DepotVersion × Action)) (source : TargetModule)
    (req : ModuleRequirement) : Option String :=
  match runs[req.module]? with
  | some (version, action) =>
    if ruleMatches req.rule version then none
    else
      let why := match action with
        | .pinned => "pinned at"
        | .localSync => "synchronized locally at"
        | .kept => "kept at"
        | _ => "at"
      some (s!"{source.name} {source.version.display} requires {req.module} {req.rule.text}, "
        ++ s!"but {req.module} stays {why} {version.display}")
  | none =>
    some (s!"{source.name} {source.version.display} requires {req.module} {req.rule.text}, "
      ++ s!"but {req.module} will not be installed")

def effectiveRequirements (entries : List PlanEntry) : List String :=
  let runs := runsAfter entries
  entries.flatMap fun entry =>
    match entry.source with
    | none => []
    | some source =>
      if entry.action.runsSigned then
        source.requires.modules.filterMap (requirementProblem runs source)
      else []

def planDistribution (title : String) (targets : List TargetModule)
    (installed : List HostModule) (state : HostState) : Plan :=
  let byName : BTreeMap HostModule := .ofList (installed.map fun m => (m.name, m))
  let leftover := installed.filter fun m => !targets.any (·.name == m.name)
  let entries := sortByModule (targets.map (targetEntry byName state) ++ leftover.map keptEntry)
  { title, entries, problems := effectiveRequirements entries }

def planModule (target : TargetModule) (installed : List HostModule) (state : HostState) : Plan :=
  let current := installed.find? (·.name == target.name)
  let pinProblems := match state.pins[target.name]? with
    | some pinned =>
      [s!"{target.name} is pinned at {pinned.display}; `unpin module {target.name}` first"]
    | none => []
  let syncProblems := if current.any (·.localSync) then
      [s!"{target.name} is synchronized from local sources; `release module {target.name}` first"]
    else []
  let action := changeAction current target
  let requireProblems := target.requires.modules.filterMap fun req =>
    match installed.find? (·.name == req.module) with
    | some m =>
      if ruleMatches req.rule m.version then none
      else some (s!"{target.name} {target.version.display} requires {req.module} "
        ++ s!"{req.rule.text}, but {req.module} {m.version.display} is installed")
    | none => some (s!"{target.name} {target.version.display} requires {req.module} "
        ++ s!"{req.rule.text}, which is not installed")
  { title := s!"module {target.name} {target.version.display}"
    entries := [
      { module := target.name
        rule := none
        installed := current.map (·.version)
        target := some target.version
        size := if action.changes then some target.size else none
        action
        restart := if action.changes then restartFor current else .none
        migrations := []
        via := none
        note := none
        source := some target }]
    problems := pinProblems ++ syncProblems ++ requireProblems }

/-- The entry of `plan_restore` for one backed-up module. -/
def restoreEntry (installed : List HostModule) (backed : BackupModule) : PlanEntry :=
  let current := installed.find? (·.name == backed.module)
  { module := backed.module
    rule := none
    installed := current.map (·.version)
    target := backed.previous.map (·.version)
    size := none
    action := if backed.previous.isSome then .restore else .remove
    restart := if backed.previous.isSome then restartFor current
      else if current.isSome then .stop else .none
    migrations := []
    via := none
    note := some "from the local backup"
    source := none }

def planRestore (title : String) (record : BackupRecord) (installed : List HostModule) : Plan where
  title := title
  entries := sortByModule (record.modules.map (restoreEntry installed))
  problems := []

end

/-! ## Names: one entry each, in order -/

variable {installed : List HostModule} {m : HostModule} {entries : List PlanEntry} {e : PlanEntry}

theorem find_some {n : String} (h : installed.find? (·.name == n) = some m) :
    m ∈ installed ∧ m.name = n :=
  ⟨mem_of_find?_eq_some h, by simpa using List.find?_some h⟩

theorem byName_get (h : (installed.map (·.name)).Nodup) (n : String) :
    (Std.ExtTreeMap.ofList (installed.map fun m => (m.name, m)) : BTreeMap HostModule)[n]?
      = installed.find? (·.name == n) := by
  have hke : ((installed.map fun m => (m.name, m)).map Prod.fst).Nodup := by
    simpa [map_map, Function.comp_def] using h
  ext m
  rw [BTreeMap.ofList_get_iff hke, mem_map]
  constructor
  · rintro ⟨m', hmem, heq⟩
    cases heq
    exact Sequences.find_of_nodup h hmem
  · intro hf
    obtain ⟨hmem, rfl⟩ := find_some hf
    exact ⟨m, hmem, rfl⟩

theorem mem_sortByModule : e ∈ sortByModule entries ↔ e ∈ entries :=
  (perm_insertionSort _ entries).mem_iff

theorem sortByModule_sorted (entries : List PlanEntry) :
    (sortByModule entries).Pairwise (fun a b => a.module ≤ b.module) := by
  have htot : Std.Total (fun a b : PlanEntry => a.module ≤ b.module) :=
    ⟨fun a b => le_total a.module b.module⟩
  have htra : IsTrans PlanEntry (fun a b => a.module ≤ b.module) := ⟨fun _ _ _ => le_trans⟩
  exact pairwise_insertionSort _ entries

theorem sortByModule_strict (h : (entries.map (·.module)).Nodup) :
    ((sortByModule entries).map (·.module)).Pairwise (· < ·) := by
  have hpe : ((sortByModule entries).map (·.module)).Perm (entries.map (·.module)) :=
    (perm_insertionSort _ entries).map _
  have hne : ((sortByModule entries).map (·.module)).Nodup := hpe.nodup_iff.mpr h
  have hle : ((sortByModule entries).map (·.module)).Pairwise (· ≤ ·) :=
    pairwise_map.mpr (sortByModule_sorted entries)
  exact (hle.and hne).imp (fun hab => lt_of_le_of_ne hab.1 hab.2)

theorem mem_planRestore [DepotProtocol] {title : String} {record : BackupRecord} :
    e ∈ (planRestore title record installed).entries ↔
      ∃ b ∈ record.modules, e = restoreEntry installed b := by
  show e ∈ sortByModule _ ↔ _
  rw [mem_sortByModule, mem_map]
  exact ⟨fun ⟨b, hb, he⟩ => ⟨b, hb, he.symm⟩, fun ⟨b, hb, he⟩ => ⟨b, hb, he.symm⟩⟩

theorem restoreEntry_changes [DepotProtocol] (installed : List HostModule) (b : BackupModule) :
    (restoreEntry installed b).action.changes = true := by
  show (if b.previous.isSome then Action.restore else Action.remove).changes = true
  cases b.previous <;> rfl

theorem runsAfter_get (h : (entries.map (·.module)).Nodup) (n : String) (v : DepotVersion)
    (a : Action) :
    (runsAfter entries)[n]? = some (v, a) ↔
      ∃ e ∈ entries, e.module = n ∧ e.target = some v ∧ e.action = a := by
  have hke : ((entries.filterMap fun e => e.target.map fun v => (e.module, (v, e.action))).map
      Prod.fst).Nodup := by
    have hsub : ((entries.filterMap fun e => e.target.map fun v => (e.module, (v, e.action))).map
        Prod.fst).Sublist (entries.map (·.module)) := by
      clear h
      induction entries with
      | nil => exact List.Sublist.slnil
      | cons e es ih =>
        cases ht : e.target with
        | none =>
          rw [filterMap_cons_none (by rw [ht]; rfl)]
          exact ih.cons _
        | some v =>
          rw [filterMap_cons_some (by rw [ht]; rfl)]
          exact ih.cons_cons _
    exact hsub.nodup h
  rw [runsAfter]
  rw [BTreeMap.ofList_get_iff hke, mem_filterMap]
  constructor
  · rintro ⟨e, he, heq⟩
    obtain ⟨v', hv', heq'⟩ := Option.map_eq_some_iff.mp heq
    obtain ⟨rfl, hpa⟩ := Prod.mk.inj heq'
    cases hpa
    exact ⟨e, he, rfl, hv', rfl⟩
  · rintro ⟨e, he, rfl, hv, rfl⟩
    exact ⟨e, he, by rw [hv]; rfl⟩

section

variable [DepotProtocol] {title : String} {targets : List TargetModule}
  {installed : List HostModule} {state : HostState}

/-- The map of installed modules that `plan_distribution` looks targets up in. -/
abbrev nameMap (installed : List HostModule) : BTreeMap HostModule :=
  .ofList (installed.map fun m => (m.name, m))

variable {e : PlanEntry}

/-- Where an entry of a distribution plan comes from: a signed target or an
installed module that is not among the targets. -/
theorem mem_planDistribution : e ∈ (planDistribution title targets installed state).entries ↔
      (∃ t ∈ targets, e = targetEntry (nameMap installed) state t) ∨
      (∃ m ∈ installed, (∀ t ∈ targets, t.name ≠ m.name) ∧ e = keptEntry m) := by
  show e ∈ sortByModule _ ↔ _
  rw [mem_sortByModule, mem_append, mem_map, mem_map]
  constructor
  · rintro (⟨t, ht, rfl⟩ | ⟨m, hm, rfl⟩)
    · exact inl ⟨t, ht, rfl⟩
    · rw [mem_filter] at hm
      refine inr ⟨m, hm.1, ?_, rfl⟩
      intro t ht he
      have hany : targets.any (·.name == m.name) = true :=
        any_eq_true.mpr ⟨t, ht, by simpa using he⟩
      simp [hany] at hm
  · rintro (⟨t, ht, rfl⟩ | ⟨m, hm, hno, rfl⟩)
    · exact inl ⟨t, ht, rfl⟩
    · refine inr ⟨m, mem_filter.mpr ⟨hm, ?_⟩, rfl⟩
      have hany : targets.any (·.name == m.name) = false := by
        rw [any_eq_false]
        intro t ht he
        exact hno t ht (by simpa using he)
      rw [hany]
      rfl

theorem planDistribution_names (n : String) :
    n ∈ (planDistribution title targets installed state).entries.map (·.module) ↔
      n ∈ targets.map (·.name) ∨ n ∈ installed.map (·.name) := by
  constructor
  · intro h
    obtain ⟨e, he, rfl⟩ := mem_map.mp h
    rcases mem_planDistribution.mp he with ⟨t, ht, rfl⟩ | ⟨m, hm, -, rfl⟩
    · exact inl (mem_map.mpr ⟨t, ht, rfl⟩)
    · exact inr (mem_map.mpr ⟨m, hm, rfl⟩)
  · intro h
    by_cases ht : n ∈ targets.map (·.name)
    · obtain ⟨t, htm, rfl⟩ := mem_map.mp ht
      exact mem_map.mpr ⟨_, mem_planDistribution.mpr (inl ⟨t, htm, rfl⟩), rfl⟩
    · rcases h with h | h
      · exact absurd h ht
      · obtain ⟨m, hm, rfl⟩ := mem_map.mp h
        refine mem_map.mpr ⟨keptEntry m, mem_planDistribution.mpr (inr ⟨m, hm, ?_, rfl⟩), rfl⟩
        intro t htm he
        exact ht (mem_map.mpr ⟨t, htm, he⟩)

/-- **ONE ENTRY PER NAME, IN NAME ORDER**, when the targets and the installed
modules are each listed once. -/
theorem planDistribution_sorted (ht : (targets.map (·.name)).Nodup)
    (hi : (installed.map (·.name)).Nodup) :
    ((planDistribution title targets installed state).entries.map (·.module)).Pairwise (· < ·) := by
  refine sortByModule_strict ?_
  rw [map_append, map_map, map_map, nodup_append']
  refine ⟨ht, ?_, ?_⟩
  · exact (filter_sublist.map _).nodup hi
  · intro n hn hn'
    obtain ⟨t, htm, rfl⟩ := mem_map.mp hn
    obtain ⟨m, hm, he⟩ := mem_map.mp hn'
    rw [mem_filter] at hm
    have hna : m.name = t.name := he
    have hany : targets.any (·.name == m.name) = true := any_eq_true.mpr ⟨t, htm, by simp [hna]⟩
    simp [hany] at hm

/-! ## What lets an entry change files -/

theorem changeAction_cases (cur : Option HostModule) (t : TargetModule) :
    (changeAction cur t = .unchanged ∧ ∃ m, cur = some m ∧ m.version = t.version) ∨
      ((changeAction cur t).changes = true ∧ changeAction cur t ≠ .remove) := by
  cases cur with
  | none => exact inr ⟨rfl, nofun⟩
  | some m =>
    simp only [changeAction]
    by_cases hv : m.version = t.version
    · rw [if_pos hv]
      split
      · exact inl ⟨rfl, m, rfl, hv⟩
      · exact inr ⟨rfl, nofun⟩
    · rw [if_neg hv]
      split
      · exact inr ⟨rfl, nofun⟩
      · exact inr ⟨rfl, nofun⟩

theorem changeAction_not_held (cur : Option HostModule) (target : TargetModule) :
    (changeAction cur target).runsSigned = true := by
  rcases changeAction_cases cur target with ⟨h, -⟩ | ⟨h, -⟩
  · rw [h]
    rfl
  · rw [Action.runsSigned, h]
    rfl

/-- A target entry runs signed code exactly when nothing holds the module back:
no local synchronization, no pin, not an optional module that is absent. -/
theorem targetAction_runsSigned_iff (cur : Option HostModule) (t : TargetModule) :
    (targetAction cur state t).runsSigned = true ↔
      cur.any (·.localSync) = false ∧ state.pins[t.name]? = none ∧
        ¬ (t.optional = true ∧ cur = none) := by
  rw [targetAction]
  by_cases hl : cur.any (·.localSync) = true
  · rw [if_pos hl, hl]
    simp [Action.runsSigned, Action.changes]
  · rw [if_neg hl]
    have hl' : cur.any (·.localSync) = false := by simpa using hl
    by_cases hp : (state.pins[t.name]?).isSome = true
    · rw [if_pos hp]
      have hne : state.pins[t.name]? ≠ none := Option.isSome_iff_ne_none.mp hp
      simp [Action.runsSigned, Action.changes, hne]
    · rw [if_neg hp]
      have hno : state.pins[t.name]? = none := by simpa using hp
      by_cases ho : (t.optional && cur.isNone) = true
      · rw [if_pos ho]
        rw [Bool.and_eq_true, Option.isNone_iff_eq_none] at ho
        simp [Action.runsSigned, Action.changes, ho.1, ho.2]
      · rw [if_neg ho]
        rw [Bool.and_eq_true, Option.isNone_iff_eq_none] at ho
        exact ⟨fun _ => ⟨hl', hno, ho⟩, fun _ => changeAction_not_held cur t⟩

theorem changeAction_ne_remove (cur : Option HostModule) (t : TargetModule) :
    changeAction cur t ≠ .remove := by
  rcases changeAction_cases cur t with ⟨h, -⟩ | ⟨-, h⟩
  · rw [h]
    exact nofun
  · exact h

/-- The decision ladder: held back for one of three reasons, or compared with
what is installed. -/
theorem targetAction_cases (cur : Option HostModule) (t : TargetModule) :
    targetAction cur state t = .localSync ∨ targetAction cur state t = .pinned ∨
      targetAction cur state t = .optionalSkipped ∨
      targetAction cur state t = changeAction cur t := by
  simp only [targetAction]
  split
  · exact inl rfl
  · split
    · exact inr (inl rfl)
    · split
      · exact inr (inr (inl rfl))
      · exact inr (inr (inr rfl))

theorem planDistribution_ne_remove
    (he : e ∈ (planDistribution title targets installed state).entries) : e.action ≠ .remove := by
  rcases mem_planDistribution.mp he with ⟨t, -, rfl⟩ | ⟨m, -, -, rfl⟩
  · show targetAction (nameMap installed)[t.name]? state t ≠ .remove
    rcases targetAction_cases (nameMap installed)[t.name]? t with h | h | h | h
    · rw [h]; exact nofun
    · rw [h]; exact nofun
    · rw [h]; exact nofun
    · rw [h]; exact changeAction_ne_remove _ t
  · show (if m.localSync then Action.localSync else Action.kept) ≠ .remove
    cases m.localSync <;> exact nofun

theorem planDistribution_changes (hi : (installed.map (·.name)).Nodup)
    (he : e ∈ (planDistribution title targets installed state).entries)
    (hc : e.action.changes = true) :
    ∃ t ∈ targets, e.source = some t ∧ e.module = t.name ∧ e.target = some t.version ∧
      (∀ m ∈ installed, m.name = t.name → m.localSync = false) ∧
      state.pins[t.name]? = none ∧
      ¬ (t.optional = true ∧ ∀ m ∈ installed, m.name ≠ t.name) := by
  rcases mem_planDistribution.mp he with ⟨t, ht, rfl⟩ | ⟨m, hm, -, rfl⟩
  · have hget := byName_get hi t.name
    have hsig : (targetAction (nameMap installed)[t.name]? state t).runsSigned = true := by
      show ((targetAction (nameMap installed)[t.name]? state t).changes || _) = true
      rw [show (targetAction (nameMap installed)[t.name]? state t).changes = true from hc]
      rfl
    rw [targetAction_runsSigned_iff, hget] at hsig
    obtain ⟨hl, hp, ho⟩ := hsig
    refine ⟨t, ht, rfl, rfl, ?_, ?_, hp, ?_⟩
    · show (match targetAction (nameMap installed)[t.name]? state t with
        | .pinned | .localSync => _
        | .optionalSkipped => none
        | _ => some t.version) = some t.version
      have hc' : (targetAction (nameMap installed)[t.name]? state t).changes = true := hc
      cases ha : targetAction (nameMap installed)[t.name]? state t <;>
        first
        | rfl
        | (rw [ha] at hc'; exact nomatch hc')
    · intro m hm hna
      have hfi : installed.find? (·.name == m.name) = some m := Sequences.find_of_nodup hi hm
      rw [← hna, hfi] at hl
      exact hl
    · rintro ⟨hopt, habs⟩
      refine ho ⟨hopt, ?_⟩
      rw [List.find?_eq_none]
      intro m hm heq
      exact habs m hm (by simpa using heq)
  · have : (keptEntry m).action.changes = false := by
      show (if m.localSync then Action.localSync else Action.kept).changes = false
      cases m.localSync <;> rfl
    rw [this] at hc
    cases hc

theorem planDistribution_keeps (hi : (installed.map (·.name)).Nodup)
    (he : e ∈ (planDistribution title targets installed state).entries)
    (hc : e.action.changes = false) {v : DepotVersion} (hv : e.target = some v) :
    ∃ m ∈ installed, m.name = e.module ∧ m.version = v := by
  rcases mem_planDistribution.mp he with ⟨t, -, rfl⟩ | ⟨m, hm, -, rfl⟩
  · have hfou : ∀ m, (nameMap installed)[t.name]? = some m → m ∈ installed ∧ m.name = t.name := by
      intro m hm
      rw [byName_get hi] at hm
      exact find_some hm
    have hc' : (targetAction (nameMap installed)[t.name]? state t).changes = false := hc
    have hv' : (match targetAction (nameMap installed)[t.name]? state t with
      | .pinned | .localSync => (nameMap installed)[t.name]?.map (·.version)
      | .optionalSkipped => none
      | _ => some t.version) = some v := hv
    -- pinned and synchronized modules run what is installed
    have hcur : (nameMap installed)[t.name]?.map (·.version) = some v →
        ∃ m ∈ installed, m.name = t.name ∧ m.version = v := by
      intro hmap
      obtain ⟨m, hm, hmv⟩ := Option.map_eq_some_iff.mp hmap
      exact ⟨m, (hfou m hm).1, (hfou m hm).2, hmv⟩
    rcases targetAction_cases (nameMap installed)[t.name]? t with ha | ha | ha | ha
    · rw [ha] at hv'
      exact hcur hv'
    · rw [ha] at hv'
      exact hcur hv'
    · rw [ha] at hv'
      cases hv'
    · rcases changeAction_cases (nameMap installed)[t.name]? t with ⟨hsa, m, hm, hmv⟩ | ⟨hch, -⟩
      · rw [ha, hsa] at hv'
        exact ⟨m, (hfou m hm).1, (hfou m hm).2, hmv.trans (Option.some.inj hv')⟩
      · rw [ha, hch] at hc'
        cases hc'
  · exact ⟨m, hm, rfl, Option.some.inj hv⟩

/-! ## Requirements against what will run -/

theorem requirementProblem_none_iff (runs : BTreeMap (DepotVersion × Action))
    (source : TargetModule) (req : ModuleRequirement) : requirementProblem runs source req = none ↔
      ∃ v a, runs[req.module]? = some (v, a) ∧ ruleMatches req.rule v = true := by
  rw [requirementProblem]
  cases hr : runs[req.module]? with
  | none => simp
  | some va =>
    obtain ⟨v, a⟩ := va
    by_cases hm : ruleMatches req.rule v = true
    · simp [hm]
    · simp [hm]

/-- Every signed requirement of the entries that run signed code names a
module whose predicted version satisfies it. -/
def RequirementsMet (entries : List PlanEntry) : Prop :=
  ∀ e ∈ entries, ∀ s, e.source = some s → e.action.runsSigned = true →
    ∀ req ∈ s.requires.modules, ∃ e' ∈ entries, e'.module = req.module ∧
      ∃ v, e'.target = some v ∧ ruleMatches req.rule v = true

/-- **NO PROBLEM IFF EVERY REQUIREMENT IS MET** by what the plan predicts. -/
theorem effectiveRequirements_nil_iff (h : (entries.map (·.module)).Nodup) :
    effectiveRequirements entries = [] ↔ RequirementsMet entries := by
  have hreq : ∀ (s : TargetModule) (req : ModuleRequirement),
      requirementProblem (runsAfter entries) s req = none ↔ ∃ e' ∈ entries, e'.module = req.module ∧
          ∃ v, e'.target = some v ∧ ruleMatches req.rule v = true := by
    intro s req
    rw [requirementProblem_none_iff]
    constructor
    · rintro ⟨v, a, hget, hm⟩
      obtain ⟨e', he', hn, hv, -⟩ := (runsAfter_get h _ _ _).mp hget
      exact ⟨e', he', hn, v, hv, hm⟩
    · rintro ⟨e', he', hn, v, hv, hm⟩
      exact ⟨v, e'.action, (runsAfter_get h _ _ _).mpr ⟨e', he', hn, hv, rfl⟩, hm⟩
  show entries.flatMap _ = [] ↔ _
  rw [flatMap_eq_nil_iff]
  constructor
  · intro hall e he s hs hsig req hr
    have h0 := hall e he
    simp only [hs, hsig, if_true] at h0
    rw [filterMap_eq_nil_iff] at h0
    exact (hreq s req).mp (h0 req hr)
  · intro hmet e he
    cases hs : e.source with
    | none => rfl
    | some s =>
      by_cases hsig : e.action.runsSigned = true
      · simp only [hsig, if_true]
        rw [filterMap_eq_nil_iff]
        intro req hr
        exact (hreq s req).mpr (hmet e he s hs hsig req hr)
      · simp only [hsig]
        rfl

theorem planDistribution_problems (ht : (targets.map (·.name)).Nodup)
    (hi : (installed.map (·.name)).Nodup) :
    (planDistribution title targets installed state).problems = [] ↔
      RequirementsMet (planDistribution title targets installed state).entries := by
  have hsor : ((planDistribution title targets installed state).entries.map
      (·.module)).Pairwise (· < ·) := planDistribution_sorted ht hi
  exact effectiveRequirements_nil_iff (hsor.imp fun hlt => hlt.ne)

end

/-! ## Local synchronization -/

section

variable [DepotProtocol] {installed : List HostModule} {state : HostState}

/-- The three planners, with what each is asked for. -/
inductive PlanRequest where
  | distribution (title : String) (targets : List TargetModule)
  | module (target : TargetModule)
  | restore (title : String) (record : BackupRecord)

def PlanRequest.plan (request : PlanRequest) (installed : List HostModule) (state : HostState) :
    Plan :=
  match request with
  | .distribution title targets => planDistribution title targets installed state
  | .module target => planModule target installed state
  | .restore title record => planRestore title record installed

/-- A plan that may go ahead changes no module synchronized from local
sources. -/
def LeavesLocalSync (plan : Plan) (installed : List HostModule) : Prop :=
  plan.problems = [] → ∀ e ∈ plan.entries, e.action.changes = true →
    ∀ m ∈ installed, m.name = e.module → m.localSync = false

theorem planModule_leavesLocalSync (hi : (installed.map (·.name)).Nodup) (target : TargetModule) :
    LeavesLocalSync (planModule target installed state) installed := by
  intro hp e he _ m hm hna
  have htar : e.module = target.name := by
    rw [mem_singleton.mp he]
  have hfi : installed.find? (·.name == target.name) = some m := by
    rw [← htar, ← hna]
    exact Sequences.find_of_nodup hi hm
  -- the synchronization check is the middle part of the problem list
  have hsy := (append_eq_nil_iff.mp (append_eq_nil_iff.mp hp).1).2
  rw [hfi] at hsy
  cases hl : m.localSync with
  | false => rfl
  | true =>
    rw [show Option.any (·.localSync) (some m) = m.localSync from rfl, hl] at hsy
    cases hsy

theorem planModule_unpinned {target : TargetModule}
    (hp : (planModule target installed state).problems = []) : state.pins[target.name]? = none := by
  have hpin := (append_eq_nil_iff.mp (append_eq_nil_iff.mp hp).1).1
  cases hs : state.pins[target.name]? with
  | none => rfl
  | some v =>
    rw [hs] at hpin
    cases hpin

/-- **WHO LEAVES LOCAL SOURCES ALONE.** Plans for a distribution or for one
module always do; a restore does exactly when its backup record lists no
module that is synchronized by now. -/
theorem plan_leavesLocalSync_iff (hi : (installed.map (·.name)).Nodup) (request : PlanRequest) :
    LeavesLocalSync (request.plan installed state) installed ↔
      ∀ title record, request = .restore title record →
        ∀ b ∈ record.modules, ∀ m ∈ installed, m.name = b.module → m.localSync = false := by
  cases request with
  | distribution title targets =>
    refine ⟨nofun, fun _ _ e he hc m hm hna => ?_⟩
    obtain ⟨t, -, -, hmod, -, hloc, -⟩ := planDistribution_changes hi he hc
    exact hloc m hm (hna.trans hmod)
  | module target =>
    exact ⟨nofun, fun _ => planModule_leavesLocalSync hi target⟩
  | restore title record =>
    constructor
    · intro hlea title' record' heq b hb m hm hna
      obtain ⟨rfl, rfl⟩ := PlanRequest.restore.inj heq
      exact hlea rfl _ (mem_planRestore.mpr ⟨b, hb, rfl⟩) (restoreEntry_changes installed b) m
        hm hna
    · intro hrec _ e he _ m hm hna
      obtain ⟨b, hb, rfl⟩ := mem_planRestore.mp he
      exact hrec title record rfl b hb m hm hna

end

/-- A module brought in by the install that the record undoes, switched to
  local sources since. -/
def syncedModule : HostModule where
  name := "notes-service"
  version := ⟨1, 0, 0, 0⟩
  sha256 := ""
  localSync := true
  running := true
  instances := 1
  migrations := []

def freshModule : @BackupModule sampleProtocol :=
  let _ := sampleProtocol
  { module := "notes-service"
    previous := none
    named := nofun
    versioned := fun _ h => nomatch h }

def freshRecord : @BackupRecord sampleProtocol :=
  let _ := sampleProtocol
  { format := backupFormat
    createdAt := "2025-01-01T00:00:00+00:00"
    before := none
    after := "athenos-1.0.0"
    modules := [freshModule] }

theorem plan_leavesLocalSync_iff_fresh :
    let _ := sampleProtocol
    ([syncedModule].map (·.name)).Nodup ∧
      ¬ LeavesLocalSync ((PlanRequest.restore "rollback" freshRecord).plan
        [syncedModule] HostState.initial) [syncedModule] := by
  let _ := sampleProtocol
  refine ⟨by decide, fun h => ?_⟩
  have hsyn := (plan_leavesLocalSync_iff (by decide) _).mp h _ _ rfl freshModule
    mem_cons_self syncedModule mem_cons_self rfl
  cases hsyn

/-- A rollback plan without problems removes a locally synchronized module. -/
theorem planRestore_removes_localSync :
    let _ := sampleProtocol
    (planRestore "rollback" freshRecord [syncedModule]).problems = [] ∧
      syncedModule.localSync = true ∧
      ∃ e ∈ (planRestore "rollback" freshRecord [syncedModule]).entries,
        e.module = syncedModule.name ∧ e.action = .remove ∧ e.action.changes = true := by
  let _ := sampleProtocol
  refine ⟨rfl, rfl, ?_⟩
  exact ⟨_, mem_planRestore.mpr ⟨freshModule, mem_cons_self, rfl⟩, rfl, rfl, rfl⟩

end Fenrir
