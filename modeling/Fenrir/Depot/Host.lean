import Fenrir.Lib.Writes
import Fenrir.Depot.Plan

/-! # The module runtime of this host

`host.rs` over the module storage and the process runtime, reduced to what
the depot pipeline can observe: per module its manifest, its files (as the
archive they unpack from and are packed to), where it came from, and
whether it runs. -/

namespace Fenrir

open List Function

structure InstalledModule where
  manifest : ModuleManifest
  files : Bytes
  source : ModuleInstallSource
  running : Bool
  instances : Nat

/-- The installed modules, each stored under the id of its own manifest, and
the modules served by a dev override. -/
structure Host where
  modules : BTreeMap InstalledModule
  dev : List String
  named : ∀ (n : String) (m : InstalledModule), modules[n]? = some m → m.manifest.id = n

/-- What a call that failed half way left of the module it worked on, if
anything: its files may be anything, its source is at most what it was. -/
structure Remains where
  manifest : ModuleManifest
  files : Bytes
  (keepsSource running : Bool)
  instances : Nat

namespace Host

def get (h : Host) (n : String) : Option InstalledModule := h.modules[n]?

variable {n : String}

theorem get_named {h : Host} {m : InstalledModule} (hm : h.get n = some m) :
    m.manifest.id = n := h.named n m hm

def put (h : Host) (m : InstalledModule) : Host where
  modules := h.modules.insert m.manifest.id m
  dev := h.dev
  named := BTreeMap.forall_insert rfl h.named

def erase (h : Host) (n : String) : Host where
  modules := h.modules.erase n
  dev := h.dev
  named n' m hm := h.named n' m (BTreeMap.get_of_erase hm)

@[simp] theorem get_put (h : Host) (m : InstalledModule) (n : String) :
    (h.put m).get n = if m.manifest.id = n then some m else h.get n :=
  BTreeMap.get_insert h.modules m.manifest.id n m

@[simp] theorem get_erase (h : Host) (k n : String) :
    (h.erase k).get n = if k = n then none else h.get n :=
  BTreeMap.get_erase h.modules k n

@[simp] theorem put_dev (h : Host) (m : InstalledModule) : (h.put m).dev = h.dev := rfl

@[simp] theorem erase_dev (h : Host) (n : String) : (h.erase n).dev = h.dev := rfl

section

variable (h : Host) (n : String)

/-- `stop_for_replacement`: the processes end, the files stay. -/
def stop : Host :=
  match h.get n with
  | some m => h.put { m with running := false, instances := 0 }
  | none => h

/-- `activate_verified_bundle`: the files are replaced, the processes are left
as they are. -/
def activate (bundle : ModuleBundle) : Host :=
  let current := h.get bundle.manifest.id
  h.put
    { manifest := bundle.manifest
      files := bundle.archive
      source := .distribution
      running := current.any (·.running)
      instances := (current.map (·.instances)).getD 0 }

/-- A module that was not running is started, with one instance. -/
def run : Host :=
  match h.get n with
  | some m => h.put { m with running := true, instances := 1 }
  | none => h

/-- A failed call on `n` leaves `n` in any state and everything else alone. -/
def leave (remains : Option Remains) : Host :=
  match remains with
  | none => h.erase n
  | some r =>
    h.put
      { manifest := { r.manifest with id := n }
        files := r.files
        source := if r.keepsSource then ((h.get n).map (·.source)).getD .distribution
          else .distribution
        running := r.running
        instances := r.instances }

/-- `package_installed_module`: the manifest, which names the module, and the
packed files. -/
def packaged : Option ({ m : ModuleManifest // m.id = n } × Bytes) :=
  match hm : h.get n with
  | none => none
  | some m => some (⟨m.manifest, get_named hm⟩, m.files)

/-- Manifest and files by name: what a backup captures and a restore puts
back. -/
def contents : Option (ModuleManifest × Bytes) :=
  (h.get n).map fun m => (m.manifest, m.files)

end

theorem get_change {h h' : Host} {k : String} {f : InstalledModule → InstalledModule}
    (hno : h.get k = none → h' = h)
    (hso : ∀ m, h.get k = some m → h' = h.put (f m) ∧ (f m).manifest = m.manifest) :
    h'.get n = if k = n then (h.get n).map f else h.get n := by
  cases hk : h.get k with
  | none =>
    rw [hno hk]
    split
    · rename_i heq
      rw [← heq, hk]
      rfl
    · rfl
  | some m =>
    rw [(hso m hk).1, get_put, (hso m hk).2, get_named hk]
    split
    · rename_i heq
      rw [← heq, hk]
      rfl
    · rfl

theorem get_stop (h : Host) (k n : String) : (h.stop k).get n = if k = n then
      (h.get n).map fun m => { m with running := false, instances := 0 } else h.get n := by
  refine get_change (fun hk => ?_) fun m hk => ⟨?_, rfl⟩
  all_goals simp only [stop, hk]

theorem get_run (h : Host) (k n : String) : (h.run k).get n = if k = n then
      (h.get n).map fun m => { m with running := true, instances := 1 } else h.get n := by
  refine get_change (fun hk => ?_) fun m hk => ⟨?_, rfl⟩
  all_goals simp only [run, hk]

theorem get_leave_of_ne (h : Host) {k : String} (hne : k ≠ n) (r : Option Remains) :
    (h.leave k r).get n = h.get n := by
  cases r with
  | none => rw [leave, get_erase, if_neg hne]
  | some r => rw [leave, get_put]; exact if_neg hne

@[simp] theorem stop_dev (h : Host) (n : String) : (h.stop n).dev = h.dev := by
  simp only [stop]
  cases h.get n <;> rfl

@[simp] theorem run_dev (h : Host) (n : String) : (h.run n).dev = h.dev := by
  simp only [run]
  cases h.get n <;> rfl

@[simp] theorem activate_dev (h : Host) (b : ModuleBundle) : (h.activate b).dev = h.dev := rfl

@[simp] theorem leave_dev (h : Host) (n : String) (r : Option Remains) :
    (h.leave n r).dev = h.dev := by
  cases r <;> rfl

/-! ### Contents -/

@[simp] theorem contents_stop (h : Host) (n : String) : (h.stop n).contents = h.contents := by
  funext k
  simp only [contents, get_stop]
  split
  · rw [Option.map_map]
    rfl
  · rfl

@[simp] theorem contents_run (h : Host) (n : String) : (h.run n).contents = h.contents := by
  funext k
  simp only [contents, get_run]
  split
  · rw [Option.map_map]
    rfl
  · rfl

theorem contents_activate (h : Host) (b : ModuleBundle) : (h.activate b).contents
      = update h.contents b.manifest.id (some (b.manifest, b.archive)) := by
  funext k
  by_cases hk : k = b.manifest.id
  · subst hk
    rw [update_self]
    simp [contents, activate]
  · rw [update_of_ne hk]
    simp [contents, activate, Ne.symm hk]

theorem contents_erase (h : Host) (n : String) :
    (h.erase n).contents = update h.contents n none := by
  funext k
  by_cases hk : k = n
  · subst hk
    rw [update_self]
    simp [contents]
  · rw [update_of_ne hk]
    simp [contents, Ne.symm hk]

def runs (h : Host) (n : String) : Bool := (h.get n).any (·.running)

/-- Synchronized from local sources, or served by a dev override. -/
def localSync (h : Host) (n : String) : Bool :=
  (h.get n).any fun m => m.source.isSynchronized || decide (n ∈ h.dev)

theorem localSync_iff {h : Host} : h.localSync n = true ↔
      ∃ m, h.get n = some m ∧ (m.source.isSynchronized = true ∨ n ∈ h.dev) := by
  rw [localSync]
  cases h.get n with
  | none | some m => simp

end Host

/-! ## What the planners see -/

/-- What the archive formats of a bundle give: `bundle::inspect` (the bundle's
own manifest and its migrations) and the migrations found in an installed
directory (`installed_migrations`). -/
structure BundleInfo where
  manifest : Option ModuleManifest
  migrations : List String

class BundleFormat where
  inspect : Bytes → Except String BundleInfo
  installedMigrations : Bytes → List String

section

variable [DepotProtocol] [BundleFormat]

/-- The loop body of `ModuleServiceHost::modules`. -/
def hostModule (dev : List String) (name : String) (m : InstalledModule) :
    Except String HostModule :=
  let localSync := m.source.isSynchronized || decide (name ∈ dev)
  match installedVersion name m.manifest.version localSync with
  | .error err => .error err
  | .ok version =>
    .ok
      { name
        version
        sha256 := m.manifest.artifact.checksum.hash
        localSync
        running := m.running
        instances := m.instances
        migrations := BundleFormat.installedMigrations m.files }

def viewAll (dev : List String) : List (String × InstalledModule) → Except String (List HostModule)
  | [] => .ok []
  | (name, m) :: rest =>
    match hostModule dev name m, viewAll dev rest with
    | .ok v, .ok vs => .ok (v :: vs)
    | .error err, _ => .error err
    | .ok _, .error err => .error err

/-- `ModuleServiceHost::modules`: the first module whose version the depot
cannot compare stops the listing. -/
def hostModules (h : Host) : Except String (List HostModule) := viewAll h.dev h.modules.toList

variable {dev : List String} {vs : List HostModule} {m : InstalledModule} {v : HostModule}

theorem viewAll_ok {l : List (String × InstalledModule)} (h : viewAll dev l = .ok vs) :
    List.Forall₂ (fun p v => hostModule dev p.1 p.2 = .ok v) l vs := by
  induction l generalizing vs with
  | nil =>
    cases h
    exact List.Forall₂.nil
  | cons p rest ih =>
    obtain ⟨name, m⟩ := p
    simp only [viewAll] at h
    split at h
    · rename_i v vs' hv hvs
      cases h
      exact List.Forall₂.cons hv (ih hvs)
    · cases h
    · cases h

theorem hostModule_name {name : String} (h : hostModule dev name m = .ok v) : v.name = name := by
  simp only [hostModule] at h
  split at h
  · cases h
  · rw [← Except.ok.inj h]

theorem hostModule_localSync {name : String} (h : hostModule dev name m = .ok v) :
    v.localSync = (m.source.isSynchronized || decide (name ∈ dev)) := by
  simp only [hostModule] at h
  split at h
  · cases h
  · rw [← Except.ok.inj h]

theorem hostModule_version {name : String} (h : hostModule dev name m = .ok v) :
    installedVersion name m.manifest.version (m.source.isSynchronized || decide (name ∈ dev))
      = .ok v.version := by
  simp only [hostModule] at h
  split at h
  · cases h
  · rename_i version hv
    cases h
    exact hv

theorem hostModules_nodup {h : Host} (hv : hostModules h = .ok vs) : (vs.map (·.name)).Nodup := by
  have hnam : vs.map (·.name) = h.modules.toList.map Prod.fst := by
    have hall := viewAll_ok hv
    clear hv
    generalize h.modules.toList = l at hall
    induction hall with
    | nil => rfl
    | cons hp _ ih => rw [map_cons, map_cons, ih, hostModule_name hp]
  rw [hnam, Std.ExtTreeMap.map_fst_toList_eq_keys]
  exact Std.ExtTreeMap.nodup_keys

theorem mem_hostModules {h : Host} (hv : hostModules h = .ok vs) (v : HostModule) :
    v ∈ vs ↔ ∃ m, h.get v.name = some m ∧ hostModule h.dev v.name m = .ok v := by
  have hall := viewAll_ok hv
  constructor
  · intro hmem
    obtain ⟨i, hi, rfl⟩ := mem_iff_getElem.mp hmem
    have hi' : i < h.modules.toList.length := by rw [hall.length_eq]; exact hi
    have hrel := hall.get hi' hi
    have hna := hostModule_name hrel
    refine ⟨h.modules.toList[i].2, ?_, ?_⟩
    · have hme' : h.modules.toList[i] ∈ h.modules.toList := getElem_mem hi'
      rw [show vs[i].name = h.modules.toList[i].1 from hna]
      exact Std.ExtTreeMap.mem_toList_iff_getElem?_eq_some.mp hme'
    · rw [show vs[i].name = h.modules.toList[i].1 from hna]
      exact hrel
  · rintro ⟨m, hm, hvi⟩
    have hmem : (v.name, m) ∈ h.modules.toList :=
      Std.ExtTreeMap.mem_toList_iff_getElem?_eq_some.mpr hm
    obtain ⟨i, hi, heq⟩ := mem_iff_getElem.mp hmem
    have hi' : i < vs.length := by rw [← hall.length_eq]; exact hi
    have hrel := hall.get hi hi'
    simp only [get_eq_getElem, heq] at hrel
    rw [hvi] at hrel
    cases hrel
    exact getElem_mem hi'

theorem listed {h : Host} (hv : hostModules h = .ok vs) {n : String} (hm : h.get n = some m) :
    ∃ v ∈ vs, hostModule h.dev n m = .ok v := by
  have hmem : (n, m) ∈ h.modules.toList := Std.ExtTreeMap.mem_toList_iff_getElem?_eq_some.mpr hm
  obtain ⟨i, hi, heq⟩ := mem_iff_getElem.mp hmem
  have hi' : i < vs.length := by rw [← (viewAll_ok hv).length_eq]; exact hi
  have hrel := (viewAll_ok hv).get hi hi'
  simp only [get_eq_getElem, heq] at hrel
  exact ⟨vs[i], getElem_mem hi', hrel⟩

theorem hostModules_returns {h : Host} (hv : ∀ n m, h.get n = some m → ∃ v,
      installedVersion n m.manifest.version (m.source.isSynchronized || decide (n ∈ h.dev))
        = .ok v) : ∃ vs, hostModules h = .ok vs := by
  have hall : ∀ l : List (String × InstalledModule), (∀ x ∈ l, h.get x.1 = some x.2) →
      ∃ vs, viewAll h.dev l = .ok vs := by
    intro l
    induction l with
    | nil => exact fun _ => ⟨[], rfl⟩
    | cons x rest ih =>
      intro hx
      obtain ⟨version, hver⟩ := hv x.1 x.2 (hx x mem_cons_self)
      obtain ⟨vs, hvs⟩ := ih fun y hy => hx y (mem_cons_of_mem _ hy)
      simp only [viewAll, hostModule, hver, hvs]
      exact ⟨_, rfl⟩
  exact hall _ fun x hx => Std.ExtTreeMap.mem_toList_iff_getElem?_eq_some.mp hx

end

/-! ## The order of starts -/

/-- `ModuleDependency::id`. -/
def ModuleDependency.idOf : ModuleDependency → String
  | .id module => module
  | .spec s => s.id

section

variable (h : Host) (wanted : List String)

def depsReady (placed : List String) (name : String) : Bool :=
  match h.get name with
  | none => true
  | some m => m.manifest.dependencies.all fun d =>
    !decide (d.idOf ∈ wanted) || decide (d.idOf ∈ placed)

/-- One pass over the wanted names: place whatever is ready. -/
def placeReady : List String → List String → List String
  | [], placed => placed
  | name :: rest, placed =>
    if name ∈ placed then placeReady rest placed
    else if depsReady h wanted placed name then placeReady rest (placed ++ [name])
    else placeReady rest placed

/-- A pass that placed nothing ends in a cycle: the rest follows in name
order. -/
def placeRest : List String → List String → List String
  | [], placed => placed
  | name :: rest, placed =>
    placeRest rest (if name ∈ placed then placed else placed ++ [name])

/-- `while placed.len() < wanted.len()`; every pass but the last places a name,
so as many passes as names are enough. -/
def startRounds : Nat → List String → List String
  | 0, placed => placed
  | passes + 1, placed =>
    if placed.length < wanted.length then
      let next := placeReady h wanted wanted placed
      if next.length = placed.length then placeRest wanted next
      else startRounds passes next
    else placed

/-- The order in which `ModuleServiceHost::start` starts a set of modules. -/
def startOrder (modules : List String) : List String :=
  let wanted := modules.dedup.insertionSort (· ≤ ·)
  startRounds h wanted wanted.length []

variable {h wanted}

variable {names placed : List String} {n : String}

theorem placeReady_spec (hsub : ∀ n ∈ placed, n ∈ wanted) (hnam : ∀ n ∈ names, n ∈ wanted)
    (hnod : placed.Nodup) :
    (placeReady h wanted names placed).Nodup ∧
      (∀ n ∈ placeReady h wanted names placed, n ∈ wanted) ∧
      placed.length ≤ (placeReady h wanted names placed).length := by
  induction names generalizing placed with
  | nil => exact ⟨hnod, hsub, le_refl _⟩
  | cons name rest ih =>
    have hre : ∀ n ∈ rest, n ∈ wanted := fun n hn => hnam n (mem_cons_of_mem _ hn)
    simp only [placeReady]
    split
    · exact ih hsub hre hnod
    · rename_i hnew
      split
      · have hsu' : ∀ n ∈ placed ++ [name], n ∈ wanted := by
          intro n hn
          rcases mem_append.mp hn with hold | hla
          · exact hsub n hold
          · rw [mem_singleton.mp hla]
            exact hnam name mem_cons_self
        have hno' : (placed ++ [name]).Nodup :=
          nodup_append'.mpr ⟨hnod, nodup_singleton name, by simpa using hnew⟩
        obtain ⟨h1, h2, h3⟩ := ih hsu' hre hno'
        exact ⟨h1, h2, le_trans (by simp) h3⟩
      · exact ih hsub hre hnod

theorem mem_placeRest : n ∈ placeRest names placed ↔ n ∈ placed ∨ n ∈ names := by
  induction names generalizing placed with
  | nil => simp [placeRest]
  | cons name rest ih =>
    simp only [placeRest]
    rw [ih, mem_cons]
    split
    · rename_i hmem
      constructor
      · rintro (hold | hnew)
        · exact Or.inl hold
        · exact Or.inr (Or.inr hnew)
      · rintro (hold | rfl | hnew)
        · exact Or.inl hold
        · exact Or.inl hmem
        · exact Or.inr hnew
    · rw [mem_append, mem_singleton, or_assoc]

theorem mem_iff_of_length (hnod : placed.Nodup) (hsub : ∀ n ∈ placed, n ∈ wanted)
    (hlen : wanted.length ≤ placed.length) (n : String) : n ∈ placed ↔ n ∈ wanted :=
  ((hnod.subperm hsub).perm_of_length_le hlen).mem_iff

theorem mem_startRounds {passes : Nat} (hnod : placed.Nodup) (hsub : ∀ n ∈ placed, n ∈ wanted)
    (hlen : wanted.length ≤ placed.length + passes) (n : String) :
    n ∈ startRounds h wanted passes placed ↔ n ∈ wanted := by
  induction passes generalizing placed with
  | zero => exact mem_iff_of_length hnod hsub hlen n
  | succ passes ih =>
    simp only [startRounds]
    split
    · obtain ⟨h1, h2, h3⟩ := placeReady_spec (h := h) hsub (fun n hn => hn) hnod
      split
      · rw [mem_placeRest]
        exact ⟨fun hor => hor.elim (h2 n) (fun hn => hn), fun hn => Or.inr hn⟩
      · exact ih h1 h2 (by omega)
    · rename_i hlt
      exact mem_iff_of_length hnod hsub (by omega) n

/-- **NO MODULE IS LEFT OUT** of the start order, cycles or not, and none is
added. -/
theorem mem_startOrder {modules : List String} : n ∈ startOrder h modules ↔ n ∈ modules := by
  have hwan : n ∈ modules.dedup.insertionSort (· ≤ ·) ↔ n ∈ modules :=
    (perm_insertionSort _ _).mem_iff.trans mem_dedup
  rw [← hwan]
  exact mem_startRounds nodup_nil nofun (by simp) n

end

end Fenrir
