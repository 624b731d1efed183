import Fenrir.Lib.Layers
import Fenrir.Lib.Sequences
import Fenrir.Modules.Install
import Fenrir.Modules.Version

/-! # The plan of an autostart

`build_autostart_plan` of `services/module/runtime.rs`. The dependencies of every installed
module are read into counters, the modules with an unusable dependency are taken out, and
what is left is counted off layer by layer. The hash maps of the source iterate in any
order, which is here the order of the listing. -/

namespace Fenrir.Autostart

open Modules Layers

structure AutostartNode where
  moduleId : String
  manifest : ModuleManifest
  dependencies : List String

structure BlockedAutostartModule where
  moduleId : String
  manifest : ModuleManifest
  (code reason : String)

structure AutostartPlan where
  layers : List (List AutostartNode)
  blocked : List BlockedAutostartModule

def dependencyMissing : String := "MODULE-DEP-001"

def dependencyCycle : String := "MODULE-DEP-002"

def dependencyInvalid : String := "MODULE-DEP-003"

def dependencyUpstreamFailed : String := "MODULE-DEP-004"

def dependencyVersionMismatch : String := "MODULE-DEP-005"

end Fenrir.Autostart

namespace Fenrir.ModuleDependency

def dependencyId : ModuleDependency → String
  | .id name => name
  | .spec s => s.id

/-- `required`. -/
def isRequired : ModuleDependency → Bool
  | .id _ => true
  | .spec s => s.required

/-- The version of a `Spec`, if it has one. -/
def requiredVersion : ModuleDependency → Option VersionReq
  | .id _ => none
  | .spec s => s.version

end Fenrir.ModuleDependency

namespace Fenrir.Autostart

open Modules Layers List

open Finset (mem_sdiff notMem_empty sdiff_empty empty_subset card_empty)

open Prod (fst)

/-! ## Reading the dependencies -/

/-- `HashMap<ModuleId, ModuleManifest>`, by the order of its iteration. -/
abbrev Manifests := List (String × ModuleManifest)

/-- `HashMap::insert`. -/
def Manifests.put (id : String) (manifest : ModuleManifest) : Manifests → Manifests
  | [] => [(id, manifest)]
  | (k, m) :: rest =>
    if k = id then (id, manifest) :: rest else (k, m) :: Manifests.put id manifest rest

/-- Modules whose id is not valid are passed over. -/
def collectManifests (modules : List Modules.InstalledModule) : Manifests :=
  modules.foldl (fun manifests module =>
    match moduleId module.manifest.id with
    | .error _ => manifests
    | .ok id => manifests.put id module.manifest) []

/-- The maps that `build_autostart_plan` fills. -/
structure PlanGraph where
  indegree : String → Option Nat
  outgoing : String → Option (List String)
  depsByModule : String → Option (List String)
  blocked : List BlockedAutostartModule
  blockedIds : Finset String

namespace PlanGraph

def new (ids : List String) : PlanGraph where
  indegree id := if id ∈ ids then some 0 else none
  outgoing id := if id ∈ ids then some [] else none
  depsByModule id := if id ∈ ids then some [] else none
  blocked := []
  blockedIds := ∅

def block (g : PlanGraph) (id : String) (manifest : ModuleManifest) (code reason : String) :
    PlanGraph :=
  { g with
    blockedIds := insert id g.blockedIds
    blocked := g.blocked ++ [⟨id, manifest, code, reason⟩] }

def addEdge (g : PlanGraph) (id dep : String) : PlanGraph :=
  { g with
    indegree := Function.update g.indegree id ((g.indegree id).map (· + 1))
    outgoing := Function.update g.outgoing dep (some ((g.outgoing dep).getD [] ++ [id]))
    depsByModule :=
      Function.update g.depsByModule id (some ((g.depsByModule id).getD [] ++ [dep])) }

end PlanGraph

section

variable [SemverReq]

section

variable (manifests : Manifests) (g : PlanGraph)

/-- One dependency of a module; `seen` are the ids met before among its dependencies. -/
def scanDependency (id : String) (manifest : ModuleManifest)
    (seen : Finset String) (g : PlanGraph) (dependency : ModuleDependency) :
    Finset String × PlanGraph :=
  if !dependency.isRequired then (seen, g)
  else
    let depRaw := Text.trim dependency.dependencyId
    match moduleId depRaw with
    | .error err =>
      (seen, g.block id manifest dependencyInvalid
        s!"invalid dependency id '{depRaw}': validation error: {err}")
    | .ok depId =>
      if depId = id then
        (seen, g.block id manifest dependencyInvalid "module cannot depend on itself")
      else if depId ∈ seen then (seen, g)
      else
        match manifests.lookup depId with
        | none =>
          (insert depId seen, g.block id manifest dependencyMissing
            s!"required dependency '{depId}' is not installed")
        | some depManifest =>
          match dependency.requiredVersion with
          | none => (insert depId seen, g.addEdge id depId)
          | some req =>
            if versionReqMatches req depManifest.version then
              (insert depId seen, g.addEdge id depId)
            else
              let text := SemverReq.displayReq req
              (insert depId seen, g.block id manifest dependencyVersionMismatch
                s!"dependency '{depId}' does not satisfy version requirement '{text}'")

def scanModule (entry : String × ModuleManifest) : PlanGraph :=
  (entry.2.dependencies.foldl
    (fun acc dependency => scanDependency manifests entry.1 entry.2 acc.1 acc.2 dependency)
    (∅, g)).2

def buildGraph : PlanGraph :=
  manifests.foldl (scanModule manifests) (.new (manifests.map fst))

/-- One round of the loop that takes the blocked modules out. The counts of the others
are not touched. -/
def PlanGraph.takeOut (blockedId : String) : PlanGraph :=
  { g with
    indegree := Function.update g.indegree blockedId none
    outgoing := fun id =>
      if id = blockedId then none else (g.outgoing id).map (·.filter (· ≠ blockedId))
    depsByModule := fun id =>
      if id = blockedId then none else (g.depsByModule id).map (·.filter (· ≠ blockedId)) }

def PlanGraph.pruned (ids : List String) : PlanGraph :=
  (ids.filter (· ∈ g.blockedIds)).foldl PlanGraph.takeOut g

end

/-! ## Counting off -/

structure PlanLoop where
  counters : Counters String
  depsByModule : String → Option (List String)
  processed : Finset String
  layers : List (List AutostartNode)

def PlanLoop.start (ids : List String) (g : PlanGraph) : PlanLoop :=
  let ready := ids.filter (fun id => g.indegree id = some 0)
  ⟨⟨g.indegree, g.outgoing, ready⟩, g.depsByModule, ∅, []⟩

def settleModule (manifests : Manifests) (acc : PlanLoop × List AutostartNode) (id : String) :
    PlanLoop × List AutostartNode :=
  let (st, layer) := acc
  let processed := insert id st.processed
  match manifests.lookup id with
  | none => ({ st with processed }, layer)
  | some manifest =>
    let dependencies := (st.depsByModule id).getD []
    ({ st with
        processed
        depsByModule := Function.update st.depsByModule id none
        counters := st.counters.settle id },
      layer ++ [⟨id, manifest, dependencies⟩])

/-- One layer: everything that is ready, in the order of the ids. -/
def planLayer (manifests : Manifests) (st : PlanLoop) : PlanLoop :=
  let current := st.counters.ready.insertionSort (· ≤ ·)
  let (st, layer) := current.foldl (settleModule manifests)
    ({ st with counters := { st.counters with ready := [] } }, [])
  if layer.isEmpty then st else { st with layers := st.layers ++ [layer] }

/-- `while !ready.is_empty()`; each round settles a module, so there are at most as many
rounds as modules (`planLoop_ready`). -/
def planLoop (manifests : Manifests) : Nat → PlanLoop → PlanLoop
  | 0, st => st
  | fuel + 1, st =>
    if st.counters.ready.isEmpty then st else planLoop manifests fuel (planLayer manifests st)

def buildAutostartPlan (modules : List Modules.InstalledModule) : AutostartPlan :=
  let manifests := collectManifests modules
  let ids := manifests.map fst
  let g := buildGraph manifests
  let st := planLoop manifests manifests.length (.start ids (g.pruned ids))
  let cyclic := manifests.filterMap fun entry =>
    if (st.counters.indegree entry.1).isSome ∧ entry.1 ∉ st.processed then
      some ⟨entry.1, entry.2, dependencyCycle, "dependency cycle detected"⟩
    else none
  ⟨st.layers, g.blocked ++ cyclic⟩

end

/-! ## What the maps hold -/

def PlanGraph.depsOf (g : PlanGraph) (id : String) : List String := (g.depsByModule id).getD []

def PlanGraph.childrenOf (g : PlanGraph) (id : String) : List String := (g.outgoing id).getD []

/-- The maps tell of one graph: counts, lists of dependencies and lists of children. -/
structure GraphSound (ids : List String) (g : PlanGraph) : Prop where
  indegree : ∀ m ∈ ids, g.indegree m = some (g.depsOf m).length
  outside : ∀ m ∉ ids, g.indegree m = none
  depsSome : ∀ m ∈ ids, g.depsByModule m = some (g.depsOf m)
  childrenSome : ∀ m ∈ ids, g.outgoing m = some (g.childrenOf m)
  depsNodup : ∀ m, (g.depsOf m).Nodup
  childrenNodup : ∀ d, (g.childrenOf d).Nodup
  edges : ∀ d m, m ∈ g.childrenOf d ↔ d ∈ g.depsOf m
  inside : ∀ d m, d ∈ g.depsOf m → m ∈ ids
  blockedIn : ∀ m ∈ g.blockedIds, m ∈ ids
  reported : ∀ m ∈ g.blockedIds, ∃ b ∈ g.blocked, b.moduleId = m

namespace GraphSound

open Function

variable {ids : List String} {g : PlanGraph}

theorem new (ids : List String) : GraphSound ids (.new ids) := by
  have hemp : ∀ m, (PlanGraph.new ids).depsOf m = [] := by
    intro m
    show (if m ∈ ids then some ([] : List String) else none).getD [] = []
    split <;> rfl
  have hchi : ∀ m, (PlanGraph.new ids).childrenOf m = [] := hemp
  refine ⟨?_, ?_, ?_, ?_, ?_, ?_, ?_, ?_, ?_, ?_⟩
  · intro m hm
    rw [hemp]
    exact if_pos hm
  · intro m hm
    exact if_neg hm
  · intro m hm
    rw [hemp]
    exact if_pos hm
  · intro m hm
    rw [hchi]
    exact if_pos hm
  · intro m
    rw [hemp]
    exact nodup_nil
  · intro m
    rw [hchi]
    exact nodup_nil
  · intro d m
    rw [hemp, hchi]
    exact ⟨nofun, nofun⟩
  · intro d m h
    rw [hemp] at h
    cases h
  · intro m hm
    exact absurd hm (notMem_empty m)
  · intro m hm
    exact absurd hm (notMem_empty m)

theorem block (h : GraphSound ids g) {id : String} (hid : id ∈ ids) (manifest : ModuleManifest)
    (code why : String) : GraphSound ids (g.block id manifest code why) := by
  refine ⟨h.indegree, h.outside, h.depsSome, h.childrenSome, h.depsNodup, h.childrenNodup,
    h.edges, h.inside, ?_, ?_⟩
  · intro m hm
    rcases Finset.mem_insert.mp hm with rfl | hm
    · exact hid
    · exact h.blockedIn m hm
  · intro m hm
    rcases Finset.mem_insert.mp hm with rfl | hm
    · exact ⟨_, mem_append_right _ mem_cons_self, rfl⟩
    · obtain ⟨b, hb, hbm⟩ := h.reported m hm
      exact ⟨b, mem_append_left _ hb, hbm⟩

theorem depsOf_addEdge (g : PlanGraph) (id dep m : String) :
    (g.addEdge id dep).depsOf m = if m = id then g.depsOf id ++ [dep] else g.depsOf m := by
  show (update g.depsByModule id _ m).getD [] = _
  rw [update_apply]
  split_ifs <;> rfl

theorem childrenOf_addEdge (g : PlanGraph) (id dep d : String) : (g.addEdge id dep).childrenOf d =
      if d = dep then g.childrenOf dep ++ [id] else g.childrenOf d := by
  show (update g.outgoing dep _ d).getD [] = _
  rw [update_apply]
  split_ifs <;> rfl

theorem addEdge (h : GraphSound ids g) {id dep : String} (hid : id ∈ ids)
    (hnew : dep ∉ g.depsOf id) : GraphSound ids (g.addEdge id dep) := by
  have hde := depsOf_addEdge g id dep
  have hchi := childrenOf_addEdge g id dep
  refine ⟨?_, ?_, ?_, ?_, ?_, ?_, ?_, ?_, h.blockedIn, h.reported⟩
  · intro m hm
    show update g.indegree id ((g.indegree id).map (· + 1)) m = _
    rw [hde, update_apply]
    split_ifs
    · rw [h.indegree id hid, length_append]
      rfl
    · exact h.indegree m hm
  · intro m hm
    have hmid : m ≠ id := fun heq => hm (heq ▸ hid)
    show update g.indegree id _ m = none
    rw [update_of_ne hmid]
    exact h.outside m hm
  · intro m hm
    rw [hde]
    show update g.depsByModule id _ m = _
    rw [update_apply]
    split_ifs
    · rfl
    · exact h.depsSome m hm
  · intro d hd
    rw [hchi]
    show update g.outgoing dep _ d = _
    rw [update_apply]
    split_ifs
    · rfl
    · exact h.childrenSome d hd
  · intro m
    rw [hde]
    split
    · exact nodup_append_comm.mp (nodup_cons.mpr ⟨hnew, h.depsNodup id⟩)
    · exact h.depsNodup m
  · intro d
    rw [hchi]
    split
    · have hfre : id ∉ g.childrenOf dep := fun hmem => hnew ((h.edges dep id).mp hmem)
      exact nodup_append_comm.mp (nodup_cons.mpr ⟨hfre, h.childrenNodup dep⟩)
    · exact h.childrenNodup d
  · intro d m
    rw [hde, hchi]
    by_cases hd : d = dep
    · by_cases hm : m = id
      · rw [if_pos hd, if_pos hm, hd, hm]
        simp only [mem_append, mem_singleton, or_true]
      · rw [if_pos hd, if_neg hm, hd, mem_append, mem_singleton, h.edges]
        exact ⟨fun hor => hor.resolve_right hm, .inl⟩
    · by_cases hm : m = id
      · rw [if_neg hd, if_pos hm, hm, mem_append, mem_singleton, h.edges]
        exact ⟨.inl, fun hor => hor.resolve_right hd⟩
      · rw [if_neg hd, if_neg hm]
        exact h.edges d m
  · intro d m hd
    rw [hde] at hd
    split at hd
    · next hm => exact hm ▸ hid
    · exact h.inside d m hd

end GraphSound

/-! ## Reading keeps the maps together -/

/-- The dependency is required and names a module. -/
def Resolves (dependency : ModuleDependency) (dep : String) : Prop :=
  dependency.isRequired = true ∧ moduleId (Text.trim dependency.dependencyId) = .ok dep

/-- The dependencies `read` of module `id` are read, starting from the maps `g₀`. -/
structure Scan (ids : List String) (g0 : PlanGraph) (id : String)
    (read : List ModuleDependency) (seen : Finset String) (g : PlanGraph) : Prop where
  sound : GraphSound ids g
  others : ∀ m, m ≠ id → g.depsOf m = g0.depsOf m
  othersBlocked : ∀ m, m ≠ id → (m ∈ g.blockedIds ↔ m ∈ g0.blockedIds)
  known : ∀ d ∈ g.depsOf id, d ∈ seen
  kept : id ∉ g.blockedIds → ∀ d ∈ seen, d ∈ g.depsOf id
  required : id ∉ g.blockedIds → ∀ dependency ∈ read, dependency.isRequired = true →
    ∃ dep ∈ g.depsOf id, Resolves dependency dep
  only : ∀ d ∈ g.depsOf id, ∃ dependency ∈ read, Resolves dependency d

namespace Scan

variable {ids : List String} {g0 g : PlanGraph} {id : String} {read : List ModuleDependency}
  {seen : Finset String} {dependency : ModuleDependency}

theorem skip (h : Scan ids g0 id read seen g)
    (hdep : id ∉ g.blockedIds → dependency.isRequired = true →
      ∃ dep ∈ g.depsOf id, Resolves dependency dep) :
    Scan ids g0 id (read ++ [dependency]) seen g where
  sound := h.sound
  others := h.others
  othersBlocked := h.othersBlocked
  known := h.known
  kept := h.kept
  required hid dependency' hmem hreq := by
    rcases mem_append.mp hmem with hold | hnew
    · exact h.required hid dependency' hold hreq
    · rw [mem_singleton.mp hnew] at hreq ⊢
      exact hdep hid hreq
  only d hd := by
    obtain ⟨dependency', hmem, hres⟩ := h.only d hd
    exact ⟨dependency', mem_append_left _ hmem, hres⟩

theorem block (h : Scan ids g0 id read seen g) (hid : id ∈ ids) {seen' : Finset String}
    (hse : seen ⊆ seen') (manifest : ModuleManifest) (code why : String) :
    Scan ids g0 id (read ++ [dependency]) seen' (g.block id manifest code why) where
  sound := h.sound.block hid manifest code why
  others := h.others
  othersBlocked m hm := by
    show m ∈ insert id g.blockedIds ↔ _
    rw [Finset.mem_insert, or_iff_right hm]
    exact h.othersBlocked m hm
  known d hd := hse (h.known d hd)
  kept hnot := absurd (Finset.mem_insert_self _ _) hnot
  required hnot := absurd (Finset.mem_insert_self _ _) hnot
  only d hd := by
    obtain ⟨dependency', hmem, hres⟩ := h.only d hd
    exact ⟨dependency', mem_append_left _ hmem, hres⟩

theorem addEdge (h : Scan ids g0 id read seen g) (hid : id ∈ ids) {dep : String}
    (hnew : dep ∉ seen) (hres : Resolves dependency dep) :
    Scan ids g0 id (read ++ [dependency]) (insert dep seen) (g.addEdge id dep) := by
  have hfre : dep ∉ g.depsOf id := fun hmem => hnew (h.known dep hmem)
  have hown : (g.addEdge id dep).depsOf id = g.depsOf id ++ [dep] := by
    rw [GraphSound.depsOf_addEdge, if_pos rfl]
  refine ⟨h.sound.addEdge hid hfre, ?_, h.othersBlocked, ?_, ?_, ?_, ?_⟩
  · intro m hm
    rw [GraphSound.depsOf_addEdge, if_neg hm]
    exact h.others m hm
  · intro d hd
    rw [hown, mem_append, mem_singleton] at hd
    rcases hd with hd | rfl
    · exact Finset.mem_insert_of_mem (h.known d hd)
    · exact Finset.mem_insert_self _ _
  · intro hnot d hd
    rw [hown, mem_append, mem_singleton]
    rcases Finset.mem_insert.mp hd with rfl | hd
    · exact .inr rfl
    · exact .inl (h.kept hnot d hd)
  · intro hnot dependency' hmem hreq
    rw [hown]
    rcases mem_append.mp hmem with hold | hla
    · obtain ⟨d, hd, hre'⟩ := h.required hnot dependency' hold hreq
      exact ⟨d, mem_append_left _ hd, hre'⟩
    · rw [mem_singleton.mp hla]
      exact ⟨dep, mem_append_right _ mem_cons_self, hres⟩
  · intro d hd
    rw [hown, mem_append, mem_singleton] at hd
    rcases hd with hd | rfl
    · obtain ⟨dependency', hmem, hre'⟩ := h.only d hd
      exact ⟨dependency', mem_append_left _ hmem, hre'⟩
    · exact ⟨dependency, mem_append_right _ mem_cons_self, hres⟩

variable [SemverReq]

theorem scanDependency (h : Scan ids g0 id read seen g) (hid : id ∈ ids) (manifests : Manifests)
    (manifest : ModuleManifest) (dependency : ModuleDependency) :
    Scan ids g0 id (read ++ [dependency])
      (Autostart.scanDependency manifests id manifest seen g dependency).1
      (Autostart.scanDependency manifests id manifest seen g dependency).2 := by
  fun_cases Autostart.scanDependency manifests id manifest seen g dependency
  case case1 hoptional =>
    refine h.skip fun _ hreq => ?_
    rw [hreq] at hoptional
    cases hoptional
  case case2 | case3 => exact h.block hid (Finset.Subset.refl _) ..
  case case4 hrequired depRaw dep hdep _ hseen =>
    -- met before: it is among the dependencies, unless the module is blocked
    exact h.skip fun hnot hreq => ⟨dep, h.kept hnot dep hseen, hreq, hdep⟩
  case case5 => exact h.block hid (Finset.subset_insert _ _) ..
  case case6 hrequired depRaw dep hdep _ hnew _ _ _ =>
    exact h.addEdge hid hnew ⟨by simpa using hrequired, hdep⟩
  case case7 hrequired depRaw dep hdep _ hnew _ _ _ _ _ =>
    exact h.addEdge hid hnew ⟨by simpa using hrequired, hdep⟩
  case case8 => exact h.block hid (Finset.subset_insert _ _) ..

theorem scanDependencies (hid : id ∈ ids) (manifests : Manifests) (manifest : ModuleManifest)
    (dependencies : List ModuleDependency) (h : Scan ids g0 id read seen g) :
    ∃ seen', Scan ids g0 id (read ++ dependencies) seen'
      (dependencies.foldl (fun acc dependency =>
        Autostart.scanDependency manifests id manifest acc.1 acc.2 dependency) (seen, g)).2 := by
  induction dependencies generalizing read seen g with
  | nil =>
    rw [append_nil]
    exact ⟨seen, h⟩
  | cons dependency rest ih =>
    have hre := ih (h.scanDependency hid manifests manifest dependency)
    rw [append_assoc, Prod.mk.eta] at hre
    rw [foldl_cons]
    exact hre

end Scan

/-- What is known of a module whose dependencies are read. -/
structure Scanned (g : PlanGraph) (id : String) (manifest : ModuleManifest) : Prop where
  required : id ∉ g.blockedIds → ∀ dependency ∈ manifest.dependencies,
    dependency.isRequired = true → ∃ dep ∈ g.depsOf id, Resolves dependency dep
  only : ∀ d ∈ g.depsOf id, ∃ dependency ∈ manifest.dependencies, Resolves dependency d

section

variable [SemverReq]

theorem scanned_foldl {ids : List String} (manifests : Manifests) {g : PlanGraph} :
    ∀ {rest : Manifests}, (rest.map fst).Nodup → (∀ id ∈ rest.map fst, id ∈ ids) →
      GraphSound ids g → (∀ id ∈ rest.map fst, g.depsOf id = []) →
      GraphSound ids (rest.foldl (scanModule manifests) g) ∧
        (∀ entry ∈ rest, Scanned (rest.foldl (scanModule manifests) g) entry.1 entry.2) ∧
        ∀ m ∉ rest.map fst, (rest.foldl (scanModule manifests) g).depsOf m = g.depsOf m ∧
          (m ∈ (rest.foldl (scanModule manifests) g).blockedIds ↔ m ∈ g.blockedIds) := by
  intro rest
  induction rest generalizing g with
  | nil =>
    intro _ _ hsou _
    exact ⟨hsou, nofun, fun _ _ => ⟨rfl, Iff.rfl⟩⟩
  | cons entry rest ih =>
    intro hnod hids hsou hemp
    obtain ⟨hfre, hnod⟩ := nodup_cons.mp hnod
    have hid : entry.1 ∈ ids := hids entry.1 mem_cons_self
    have hno : g.depsOf entry.1 = [] := hemp entry.1 mem_cons_self
    have hsta : Scan ids g entry.1 [] ∅ g := by
      refine ⟨hsou, fun _ _ => rfl, fun _ _ => Iff.rfl, ?_, ?_, ?_, ?_⟩
      · intro d hd
        rw [hno] at hd
        cases hd
      · exact fun _ d hd => absurd hd (notMem_empty d)
      · exact nofun
      · intro d hd
        rw [hno] at hd
        cases hd
    obtain ⟨seen, hsc⟩ := hsta.scanDependencies hid manifests entry.2 entry.2.dependencies
    change Scan ids g entry.1 ([] ++ _) seen (scanModule manifests g entry) at hsc
    rw [nil_append] at hsc
    have hoth : ∀ m ∈ rest.map fst, m ≠ entry.1 := by
      rintro m hm rfl
      exact hfre hm
    obtain ⟨hso', hsca, hfra⟩ := ih hnod
      (fun m hm => hids m (mem_cons_of_mem _ hm)) hsc.sound
      (fun m hm => (hsc.others m (hoth m hm)).trans
        (hemp m (mem_cons_of_mem _ hm)))
    obtain ⟨hde, hblo⟩ := hfra entry.1 hfre
    refine ⟨hso', ?_, ?_⟩
    · intro e he
      rcases mem_cons.mp he with rfl | he
      · refine ⟨?_, ?_⟩
        · rw [foldl_cons, hde, hblo]
          exact hsc.required
        · rw [foldl_cons, hde]
          exact hsc.only
      · exact hsca e he
    · intro m hm
      rw [map_cons, mem_cons, not_or] at hm
      obtain ⟨hde, hblo⟩ := hfra m hm.2
      rw [foldl_cons, hde, hblo]
      exact ⟨hsc.others m hm.1, hsc.othersBlocked m hm.1⟩

/-- **ALL DEPENDENCIES ARE READ.** -/
theorem scanned_buildGraph {manifests : Manifests} (hnod : (manifests.map fst).Nodup) :
    GraphSound (manifests.map fst) (buildGraph manifests) ∧
      ∀ entry ∈ manifests, Scanned (buildGraph manifests) entry.1 entry.2 := by
  have hnew := GraphSound.new (manifests.map fst)
  have hemp : ∀ id ∈ manifests.map fst, (PlanGraph.new (manifests.map fst)).depsOf id = [] := by
    intro id hid
    exact congrArg (Option.getD · []) (if_pos hid)
  obtain ⟨hsou, hsca, -⟩ := scanned_foldl manifests hnod (fun _ h => h) hnew hemp
  exact ⟨hsou, hsca⟩

end

/-! ## Taking the blocked modules out -/

theorem foldl_takeOut (bids : List String) (g : PlanGraph) (m : String) :
    (bids.foldl PlanGraph.takeOut g).indegree m = (if m ∈ bids then none else g.indegree m) ∧
      (bids.foldl PlanGraph.takeOut g).outgoing m =
        (if m ∈ bids then none else (g.outgoing m).map (·.filter (· ∉ bids))) ∧
      (bids.foldl PlanGraph.takeOut g).depsByModule m =
        (if m ∈ bids then none else (g.depsByModule m).map (·.filter (· ∉ bids))) := by
  induction bids generalizing g with
  | nil => simp
  | cons b rest ih =>
    obtain ⟨hind, hout, hde⟩ := ih (g.takeOut b)
    have hfil : ∀ l : List String,
        (l.filter (· ≠ b)).filter (· ∉ rest) = l.filter (· ∉ b :: rest) := by
      intro l
      rw [filter_filter]
      refine filter_congr fun x _ => ?_
      simp only [mem_cons, not_or, Bool.decide_and, Bool.and_comm]
    rw [foldl_cons, hind, hout, hde]
    by_cases hb : m = b
    · have hmem : m ∈ b :: rest := mem_cons.mpr (.inl hb)
      have hi : (g.takeOut b).indegree m = none := by
        rw [hb]
        exact Function.update_self ..
      have ho : (g.takeOut b).outgoing m = none := if_pos hb
      have hd : (g.takeOut b).depsByModule m = none := if_pos hb
      rw [hi, ho, hd, if_pos hmem, if_pos hmem, if_pos hmem]
      simp only [Option.map_none, ite_self, and_self]
    · have hi : (g.takeOut b).indegree m = g.indegree m := Function.update_of_ne hb ..
      have ho : (g.takeOut b).outgoing m = (g.outgoing m).map (·.filter (· ≠ b)) := if_neg hb
      have hd : (g.takeOut b).depsByModule m = (g.depsByModule m).map (·.filter (· ≠ b)) :=
        if_neg hb
      rw [hi, ho, hd, Option.map_map, Option.map_map]
      simp only [mem_cons, hb, false_or, Function.comp_def, hfil, and_self]

/-- The modules that are counted off. -/
def PlanGraph.nodes (g : PlanGraph) (ids : List String) : Finset String :=
  ids.toFinset \ g.blockedIds

def PlanGraph.depSet (g : PlanGraph) (id : String) : Finset String := (g.depsOf id).toFinset

variable {ids : List String} {modules : List Modules.InstalledModule}

theorem GraphSound.mem_blocked {g : PlanGraph} (h : GraphSound ids g) (m : String) :
    m ∈ ids.filter (· ∈ g.blockedIds) ↔ m ∈ g.blockedIds := by
  rw [mem_filter, decide_eq_true_eq]
  exact ⟨fun hm => hm.2, fun hm => ⟨h.blockedIn m hm, hm⟩⟩

theorem counts_pruned {g : PlanGraph} (h : GraphSound ids g) (ready : List String) :
    Counts (g.nodes ids) g.depSet ∅
      ⟨(g.pruned ids).indegree, (g.pruned ids).outgoing, ready⟩ := by
  have hmem := h.mem_blocked
  have hnod : ∀ m, m ∈ g.nodes ids ↔ m ∈ ids ∧ m ∉ g.blockedIds := by
    intro m
    rw [PlanGraph.nodes, mem_sdiff, mem_toFinset]
  refine ⟨?_, ?_, ?_, ?_⟩
  · exact fun m hm => absurd hm (notMem_empty m)
  · intro m hm
    obtain ⟨hid, hfr⟩ := (hnod m).mp hm
    have hout : m ∉ ids.filter (· ∈ g.blockedIds) := fun hb => hfr ((hmem m).mp hb)
    show (g.pruned ids).indegree m = _
    rw [PlanGraph.pruned, (foldl_takeOut _ g m).1, if_neg hout, h.indegree m hid,
      sdiff_empty, PlanGraph.depSet, toFinset_card_of_nodup (h.depsNodup m)]
  · intro m hm
    show (g.pruned ids).indegree m = none
    rw [PlanGraph.pruned, (foldl_takeOut _ g m).1]
    split
    · rfl
    · next hb =>
        refine h.outside m fun hid => hm ((hnod m).mpr ⟨hid, ?_⟩)
        exact fun hblo => hb ((hmem m).mpr hblo)
  · intro d hd _
    obtain ⟨hid, hfr⟩ := (hnod d).mp hd
    have hout : d ∉ ids.filter (· ∈ g.blockedIds) := fun hb => hfr ((hmem d).mp hb)
    refine ⟨(g.childrenOf d).filter (· ∉ ids.filter (· ∈ g.blockedIds)), ?_,
      (h.childrenNodup d).filter _, ?_⟩
    · show (g.pruned ids).outgoing d = _
      rw [PlanGraph.pruned, (foldl_takeOut _ g d).2.1, if_neg hout, h.childrenSome d hid]
      rfl
    · intro m
      rw [mem_filter, decide_eq_true_eq, hmem, hnod, h.edges, PlanGraph.depSet, mem_toFinset]
      constructor
      · rintro ⟨hdep, hb⟩
        exact ⟨⟨h.inside d m hdep, hb⟩, hdep⟩
      · rintro ⟨⟨-, hb⟩, hdep⟩
        exact ⟨hdep, hb⟩

/-! ## The loop over the layers -/

def idsOf (nodes : List AutostartNode) : List String := nodes.map (·.moduleId)

/-- In the middle of a layer whose modules `todo` are still to come. -/
structure LoopSound (manifests : Manifests) (g : PlanGraph) (st : PlanLoop)
    (todo : List String) : Prop where
  frontier : Frontier (g.nodes (manifests.map fst)) g.depSet st.processed st.counters todo
  deps : ∀ m ∈ g.nodes (manifests.map fst), m ∉ st.processed →
    st.depsByModule m = some ((g.depsOf m).filter (· ∉ g.blockedIds))

variable {manifests : Manifests} {g : PlanGraph} {st : PlanLoop} {todo : List String}

theorem lookup_of_mem_ids {id : String} (h : id ∈ manifests.map fst) :
    ∃ manifest, manifests.lookup id = some manifest := by
  obtain ⟨entry, hen, rfl⟩ := mem_map.mp h
  exact Option.isSome_iff_exists.mp (lookup_isSome_iff.mpr ⟨entry, hen, beq_self_eq_true _⟩)

theorem LoopSound.settle {id : String} (h : LoopSound manifests g st (id :: todo))
    (layer : List AutostartNode) : ∃ manifest st', manifests.lookup id = some manifest ∧
      settleModule manifests (st, layer) id = (st', layer ++ [⟨id, manifest, g.depsOf id⟩]) ∧
      st'.processed = insert id st.processed ∧ st'.layers = st.layers ∧
      LoopSound manifests g st' todo := by
  obtain ⟨hno, hnew, hsub⟩ := (h.frontier.front id).mp (.inl mem_cons_self)
  have hid : id ∈ manifests.map fst := mem_toFinset.mp (mem_sdiff.mp hno).1
  obtain ⟨manifest, hloo⟩ := lookup_of_mem_ids hid
  -- every dependency is settled, so none of them is blocked
  have hfil : (g.depsOf id).filter (· ∉ g.blockedIds) = g.depsOf id := by
    refine filter_eq_self.mpr fun d hd => decide_eq_true ?_
    exact (mem_sdiff.mp (h.frontier.inside (hsub (mem_toFinset.mpr hd)))).2
  have hde : (st.depsByModule id).getD [] = g.depsOf id := by
    rw [h.deps id hno hnew, hfil]
    rfl
  refine ⟨manifest, { st with
      processed := insert id st.processed
      depsByModule := Function.update st.depsByModule id none
      counters := st.counters.settle id }, hloo, ?_, rfl, rfl, h.frontier.settle, ?_⟩
  · rw [settleModule]
    simp only [hloo, hde]
  · intro m hm hnot
    rw [Finset.mem_insert, not_or] at hnot
    show Function.update st.depsByModule id none m = _
    rw [Function.update_of_ne hnot.1]
    exact h.deps m hm hnot.2

theorem LoopSound.settleAll (h : LoopSound manifests g st todo) (layer : List AutostartNode) :
    ∃ added st', todo.foldl (settleModule manifests) (st, layer) = (st', layer ++ added) ∧
      idsOf added = todo ∧ (∀ node ∈ added, node.dependencies = g.depsOf node.moduleId) ∧
      (∀ m, m ∈ st'.processed ↔ m ∈ st.processed ∨ m ∈ todo) ∧ st'.layers = st.layers ∧
      LoopSound manifests g st' [] := by
  induction todo generalizing st layer with
  | nil =>
    refine ⟨[], st, by rw [append_nil]; rfl, rfl, nofun, ?_, rfl, h⟩
    intro m
    exact (or_iff_left not_mem_nil).symm
  | cons id todo ih =>
    obtain ⟨manifest, st1, -, hset, hpro, hlay, h1⟩ := h.settle layer
    obtain ⟨added, st', hfo, hids, hde, hmem, hla', h'⟩ :=
      ih h1 (layer ++ [⟨id, manifest, g.depsOf id⟩])
    refine ⟨⟨id, manifest, g.depsOf id⟩ :: added, st', ?_, ?_, ?_, ?_, hla'.trans hlay, h'⟩
    · rw [foldl_cons, hset, hfo, append_assoc]
      rfl
    · rw [← hids]
      rfl
    · intro node hno
      rcases mem_cons.mp hno with rfl | hno
      · rfl
      · exact hde node hno
    · intro m
      rw [hmem, hpro, Finset.mem_insert, mem_cons]
      tauto

structure LayersSound (g : PlanGraph) (processed : Finset String)
    (layers : List (List AutostartNode)) : Prop where
  processed : ∀ id, id ∈ processed ↔ id ∈ idsOf layers.flatten
  nodup : (idsOf layers.flatten).Nodup
  deps : ∀ node ∈ layers.flatten, node.dependencies = g.depsOf node.moduleId
  earlier : ∀ before layer after, layers = before ++ layer :: after →
    ∀ node ∈ layer, ∀ d ∈ node.dependencies, d ∈ idsOf before.flatten

/-- **ONE ROUND OF THE LOOP.** -/
theorem LoopSound.planLayer (h : LoopSound manifests g st [])
    (hlay : LayersSound g st.processed st.layers) :
    LoopSound manifests g (planLayer manifests st) [] ∧
      LayersSound g (planLayer manifests st).processed (planLayer manifests st).layers ∧
      ∀ m, m ∈ (planLayer manifests st).processed ↔ m ∈ st.processed ∨ m ∈ st.counters.ready := by
  have hcur : ∀ m, m ∈ st.counters.ready.insertionSort (· ≤ ·) ↔ m ∈ st.counters.ready :=
    fun m => mem_insertionSort _
  have hnod : (st.counters.ready.insertionSort (· ≤ ·)).Nodup :=
    (perm_insertionSort _ _).nodup_iff.mpr h.frontier.readyNodup
  have hne : LoopSound manifests g
      { st with counters := { st.counters with ready := [] } }
      (st.counters.ready.insertionSort (· ≤ ·)) :=
    ⟨h.frontier.next hnod hcur, h.deps⟩
  obtain ⟨added, st', hfo, hids, hde, hmem, hsa, h'⟩ := hne.settleAll []
  rw [nil_append] at hfo
  have hpro : ∀ m, m ∈ st'.processed ↔ m ∈ st.processed ∨ m ∈ st.counters.ready := by
    intro m
    rw [hmem, hcur]
  rw [Autostart.planLayer]
  simp only [hfo]
  by_cases hemp : added.isEmpty = true
  · rw [if_pos hemp]
    have hnon : ∀ m, m ∉ st.counters.ready := by
      intro m hm
      rw [← hcur, ← hids, isEmpty_iff.mp hemp] at hm
      cases hm
    refine ⟨h', ?_, hpro⟩
    rw [hsa]
    refine ⟨fun id => ?_, hlay.nodup, hlay.deps, hlay.earlier⟩
    rw [hpro, or_iff_left (hnon id)]
    exact hlay.processed id
  · rw [if_neg hemp]
    refine ⟨⟨h'.frontier, h'.deps⟩, ?_, hpro⟩
    have hfl : idsOf (st'.layers ++ [added]).flatten = idsOf st.layers.flatten ++ idsOf added := by
      rw [hsa, flatten_append, flatten_singleton, idsOf, map_append]
      rfl
    refine ⟨?_, ?_, ?_, ?_⟩
    · intro id
      show id ∈ st'.processed ↔ _
      rw [hpro, hfl, mem_append, hids, hcur]
      exact or_congr_left (hlay.processed id)
    · show (idsOf (st'.layers ++ [added]).flatten).Nodup
      rw [hfl]
      refine nodup_append.mpr ⟨hlay.nodup, hids ▸ hnod, ?_⟩
      rintro a ha b hb rfl
      rw [hids, hcur] at hb
      exact ((h.frontier.front a).mp (.inr hb)).2.1 ((hlay.processed a).mpr ha)
    · intro node hno
      change node ∈ (st'.layers ++ [added]).flatten at hno
      rw [hsa, flatten_append, flatten_singleton, mem_append] at hno
      rcases hno with hold | hnew
      · exact hlay.deps node hold
      · exact hde node hnew
    · intro pre layer after hspl node hno d hd
      change st'.layers ++ [added] = _ at hspl
      rw [hsa] at hspl
      rcases Sequences.append_singleton_eq hspl with ⟨rfl, rfl⟩ | ⟨after', hold⟩
      · -- the new layer: what is ready depends on settled modules only
        have hrea : node.moduleId ∈ st.counters.ready := by
          rw [← hcur, ← hids]
          exact mem_map_of_mem hno
        have hsub := ((h.frontier.front node.moduleId).mp (.inr hrea)).2.2
        rw [hde node hno] at hd
        exact (hlay.processed d).mp (hsub (mem_toFinset.mpr hd))
      · exact hlay.earlier pre layer after' hold node hno d hd

/-- **THE WHOLE LOOP.** It ends with nothing ready when it may go as many rounds as there
are modules left. -/
theorem LoopSound.planLoop (fuel : Nat) (h : LoopSound manifests g st [])
    (hlay : LayersSound g st.processed st.layers)
    (hfu : (g.nodes (manifests.map fst)).card ≤ st.processed.card + fuel) :
    LoopSound manifests g (planLoop manifests fuel st) [] ∧
      LayersSound g (planLoop manifests fuel st).processed (planLoop manifests fuel st).layers ∧
      (planLoop manifests fuel st).counters.ready = [] := by
  induction fuel generalizing st with
  | zero =>
    have hall : st.processed = g.nodes (manifests.map fst) :=
      Finset.eq_of_subset_of_card_le h.frontier.inside hfu
    refine ⟨h, hlay, eq_nil_iff_forall_not_mem.mpr fun m hm => ?_⟩
    obtain ⟨hno, hnot, -⟩ := (h.frontier.front m).mp (.inr hm)
    exact hnot (hall ▸ hno)
  | succ fuel ih =>
    rw [Autostart.planLoop]
    by_cases hemp : st.counters.ready.isEmpty = true
    · rw [if_pos hemp]
      exact ⟨h, hlay, isEmpty_iff.mp hemp⟩
    · rw [if_neg hemp]
      obtain ⟨h', hla', hpro⟩ := h.planLayer hlay
      refine ih h' hla' ?_
      have hsub : st.processed ⊂ (Autostart.planLayer manifests st).processed := by
        refine Finset.ssubset_iff_of_subset (fun m hm => (hpro m).mpr (.inl hm)) |>.mpr ?_
        obtain ⟨m, hm⟩ := exists_mem_of_ne_nil _ fun hnil =>
          hemp (isEmpty_iff.mpr hnil)
        exact ⟨m, (hpro m).mpr (.inr hm), ((h.frontier.front m).mp (.inr hm)).2.1⟩
      have hca := Finset.card_lt_card hsub
      omega

/-! ## The plan -/

def DistinctIds (modules : List Modules.InstalledModule) : Prop :=
  (modules.filterMap fun m => (moduleId m.manifest.id).toOption).Nodup

structure PlanSound (modules : List Modules.InstalledModule) (plan : AutostartPlan) : Prop where
  nodup : (idsOf plan.layers.flatten).Nodup
  earlier : ∀ before layer after, plan.layers = before ++ layer :: after →
    ∀ node ∈ layer, ∀ d ∈ node.dependencies, d ∈ idsOf before.flatten
  required : ∀ node ∈ plan.layers.flatten, ∀ m ∈ modules,
    moduleId m.manifest.id = .ok node.moduleId →
    (∀ dependency ∈ m.manifest.dependencies, dependency.isRequired = true →
      ∃ dep ∈ node.dependencies, Resolves dependency dep) ∧
    ∀ d ∈ node.dependencies, ∃ dependency ∈ m.manifest.dependencies, Resolves dependency d
  complete : ∀ m ∈ modules, ∀ id, moduleId m.manifest.id = .ok id →
    id ∈ idsOf plan.layers.flatten ∨ ∃ b ∈ plan.blocked, b.moduleId = id

theorem put_of_new {id : String} (hnew : id ∉ manifests.map fst) (manifest : ModuleManifest) :
    manifests.put id manifest = manifests ++ [(id, manifest)] := by
  induction manifests with
  | nil => rfl
  | cons entry rest ih =>
    rw [map_cons, mem_cons, not_or] at hnew
    rw [Manifests.put, if_neg fun h => hnew.1 h.symm, ih hnew.2]
    rfl

theorem fst_filterMap_entry (modules : List Modules.InstalledModule) :
    (modules.filterMap fun m => (moduleId m.manifest.id).toOption.map (·, m.manifest)).map
      fst = modules.filterMap fun m => (moduleId m.manifest.id).toOption := by
  simp only [map_filterMap, Option.map_map]
  exact filterMap_congr fun m _ => Option.map_id'

theorem collectManifests_eq (h : DistinctIds modules) : collectManifests modules =
    modules.filterMap fun m => (moduleId m.manifest.id).toOption.map (·, m.manifest) := by
  induction modules using List.reverseRecOn with
  | nil => rfl
  | append_singleton modules module ih =>
    rw [DistinctIds, filterMap_append] at h
    obtain ⟨hold, -, hapa⟩ := nodup_append.mp h
    have hids := fst_filterMap_entry modules
    rw [filterMap_append, ← ih hold, collectManifests, foldl_append, ← collectManifests]
    rw [← ih hold] at hids
    rw [foldl_cons, foldl_nil, filterMap_cons]
    cases hid : moduleId module.manifest.id with
    | error err => exact (append_nil _).symm
    | ok id =>
      refine put_of_new ?_ _
      rw [hids]
      exact fun hin => hapa id hin id (mem_filterMap.mpr ⟨module, mem_cons_self, by rw [hid]; rfl⟩) rfl

theorem mem_collectManifests (h : DistinctIds modules) :
    ((collectManifests modules).map fst).Nodup ∧ ∀ entry, entry ∈ collectManifests modules ↔
        ∃ m ∈ modules, moduleId m.manifest.id = .ok entry.1 ∧ m.manifest = entry.2 := by
  rw [collectManifests_eq h, fst_filterMap_entry]
  refine ⟨h, fun entry => mem_filterMap.trans (exists_congr fun m => and_congr_right fun _ => ?_)⟩
  cases moduleId m.manifest.id with
  | error err => exact iff_of_false nofun fun hc => by cases hc.1
  | ok id => simp [Except.toOption, Prod.ext_iff]

theorem loopSound_start (hnod : (manifests.map fst).Nodup)
    (hsou : GraphSound (manifests.map fst) g) : LoopSound manifests g
      (.start (manifests.map fst) (g.pruned (manifests.map fst))) [] := by
  have hco := counts_pruned hsou ((manifests.map fst).filter fun id =>
    (g.pruned (manifests.map fst)).indegree id = some 0)
  refine ⟨⟨hco, empty_subset _, ?_, nofun, nodup_nil, hnod.filter _⟩, ?_⟩
  · intro m
    show m ∈ [] ∨ m ∈ (manifests.map fst).filter _ ↔ _
    rw [or_iff_right not_mem_nil, mem_filter, decide_eq_true_eq]
    constructor
    · rintro ⟨hid, hze⟩
      have hno : m ∈ g.nodes (manifests.map fst) := by
        by_contra hout
        rw [show (g.pruned (manifests.map fst)).indegree m = none from
          hco.outside m hout] at hze
        cases hze
      have hcou : some 0 = some (g.depSet m \ ∅).card := hze.symm.trans (hco.count m hno)
      refine ⟨hno, notMem_empty m, ?_⟩
      rw [sdiff_empty] at hcou
      rw [Finset.card_eq_zero.mp (Option.some.inj hcou).symm]
      exact empty_subset _
    · rintro ⟨hno, -, hsub⟩
      refine ⟨mem_toFinset.mp (mem_sdiff.mp hno).1, ?_⟩
      have hcou := hco.count m hno
      rw [sdiff_empty, Finset.subset_empty.mp hsub, card_empty] at hcou
      exact hcou
  · intro m hm _
    obtain ⟨hid, hfr⟩ := mem_sdiff.mp hm
    rw [mem_toFinset] at hid
    have hmem := hsou.mem_blocked
    show (g.pruned (manifests.map fst)).depsByModule m = _
    rw [PlanGraph.pruned, (foldl_takeOut _ g m).2.2, if_neg fun hb => hfr ((hmem m).mp hb),
      hsou.depsSome m hid, Option.map_some]
    simp only [hmem]

/-- **THE PLAN.** Each module once, its dependencies in the layers before its own, and
nothing missing that is not blocked. -/
theorem plan_sound [SemverReq] (h : DistinctIds modules) :
    PlanSound modules (buildAutostartPlan modules) := by
  obtain ⟨hnod, hent⟩ := mem_collectManifests h
  set entries := collectManifests modules
  obtain ⟨hsou, hsca⟩ := scanned_buildGraph hnod
  have hsta := loopSound_start hnod hsou
  have hnon : LayersSound (buildGraph entries) ∅ [] := by
    refine ⟨fun id => ?_, nodup_nil, nofun, fun pre _ _ hspl => ?_⟩
    · exact iff_of_false (notMem_empty id) not_mem_nil
    · exact absurd hspl.symm (append_ne_nil_of_right_ne_nil pre (cons_ne_nil _ _))
  have hfu : ((buildGraph entries).nodes (entries.map fst)).card ≤
      (∅ : Finset String).card + entries.length := by
    rw [card_empty, Nat.zero_add, ← length_map fst]
    exact (Finset.card_le_card Finset.sdiff_subset).trans (toFinset_card_le _)
  obtain ⟨hlo, hlay, -⟩ := hsta.planLoop entries.length hnon hfu
  -- a module in a layer is a node: installed and not blocked by its own dependencies
  have hno : ∀ id ∈ idsOf (buildAutostartPlan modules).layers.flatten,
      id ∈ (buildGraph entries).nodes (entries.map fst) :=
    fun id hid => hlo.frontier.inside ((hlay.processed id).mpr hid)
  refine ⟨hlay.nodup, hlay.earlier, ?_, ?_⟩
  · intro node hmem m hm hid
    have hen : (node.moduleId, m.manifest) ∈ entries := (hent _).mpr ⟨m, hm, hid, rfl⟩
    have hfr := (mem_sdiff.mp (hno _ (mem_map_of_mem hmem))).2
    rw [hlay.deps node hmem]
    exact ⟨(hsca _ hen).required hfr, (hsca _ hen).only⟩
  · intro m hm id hid
    have hen : (id, m.manifest) ∈ entries := (hent _).mpr ⟨m, hm, hid, rfl⟩
    by_cases hblo : id ∈ (buildGraph entries).blockedIds
    · obtain ⟨b, hb, hbid⟩ := hsou.reported id hblo
      exact .inr ⟨b, mem_append_left _ hb, hbid⟩
    · by_cases hpro : id ∈ idsOf (buildAutostartPlan modules).layers.flatten
      · exact .inl hpro
      · -- a node that was never ready is blocked as part of a cycle
        have hno : id ∈ (buildGraph entries).nodes (entries.map fst) :=
          mem_sdiff.mpr ⟨mem_toFinset.mpr (mem_map_of_mem hen), hblo⟩
        refine .inr ⟨⟨id, m.manifest, dependencyCycle, "dependency cycle detected"⟩,
          mem_append_right _ (mem_filterMap.mpr ⟨(id, m.manifest), hen, ?_⟩), rfl⟩
        refine if_pos ⟨?_, fun hin => hpro ((hlay.processed id).mp hin)⟩
        exact Option.isSome_iff_exists.mpr ⟨_, hlo.frontier.counts.count id hno⟩

end Fenrir.Autostart
