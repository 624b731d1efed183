import Fenrir.Lib.Worklist
import Fenrir.Depot.Plan

/-! # From what the depot says to what this host may install

`verify.rs`: a distribution and everything it includes, checked with the
functions of the depot protocol; what stops the host from installing it;
the newest distribution or module that it may install. -/

namespace Fenrir

open DepotProtocol List

/-- Read access to a depot (`ports.rs`): what it answers to each request. It
holds finitely many distributions. -/
structure DepotSource [DepotProtocol] where
  distribution : DistributionId → Except DepotError (Option Detail)
  distributions : String → Except DepotError (List DistributionSummary)
  module : String → Except DepotError (Option ModuleInfo)
  -- every chunk of the blob, in order
  blob : Sha256Digest → Nat → Except DepotError Bytes
  ids : List DistributionId
  finite : ∀ id detail, distribution id = .ok (some detail) → id ∈ ids

structure HostPolicy where
  trusted : TrustedKeys
  channel : Channel
  platform : Platform
  fenrir : DepotVersion

/-- A distribution and everything it includes, all verified. -/
structure VerifiedDistribution where
  root : CheckedDistribution
  includes : List CheckedDistribution

namespace VerifiedDistribution

section

variable (dist : VerifiedDistribution)

def id (dist : VerifiedDistribution) : DistributionId := dist.root.manifest.id

def all : List CheckedDistribution := dist.root :: dist.includes

def moduleTarget (via : Option String) (module : ManifestModule) : TargetModule where
  name := module.module
  rule := module.rule.text
  version := module.version
  platform := module.platform.text
  sha256 := module.sha256
  size := module.size
  optional := module.optional
  requires := module.requires
  via := via

/-- `target_modules`: everything but the host product, in name order. -/
def targetModules : List TargetModule :=
  let included := dist.includes.filter (·.manifest.product != fenrirProduct)
  let sources := (dist.root, none) :: included.map fun c => (c, some c.manifest.id.display)
  (sources.flatMap fun (checked, via) => checked.manifest.modules.map (moduleTarget via)).insertionSort
    (fun a b => a.name ≤ b.name)

/-- `host_includes`: included host products, checked and not installed. -/
def hostIncludes : List DistributionId :=
  (dist.includes.filter (·.manifest.product == fenrirProduct)).map (·.manifest.id)

end

end VerifiedDistribution

/-! ## Fetching -/

section

variable [DepotProtocol]

def fetchOne (source : DepotSource) (trusted : TrustedKeys) (id : DistributionId) :
    Except DepotError CheckedDistribution :=
  match source.distribution id with
  | .error err => .error err
  | .ok none => .error (.notFound s!"{id.display} does not exist in the depot")
  | .ok (some detail) =>
    match checkDistribution detail id trusted with
    | .ok checked => .ok checked
    | .error err => .error (.verification err)

theorem fetchOne_ok {source : DepotSource} {trusted : TrustedKeys} {id : DistributionId}
    {checked : CheckedDistribution} (h : fetchOne source trusted id = .ok checked) :
    ∃ detail, source.distribution id = .ok (some detail) ∧
      checkDistribution detail id trusted = .ok checked := by
  revert h
  fun_cases fetchOne source trusted id
  case case3 detail hd root hc =>
    intro h
    cases h
    exact ⟨detail, hd, hc⟩
  all_goals exact nofun

/-- The body of the loop in `fetch_verified` for an edge whose target is new:
fetch what the reference names and compare it with the reference. -/
def followInclude (source : DepotSource) (trusted : TrustedKeys)
    (edge : DistributionId × ManifestInclude) :
    Except DepotError (DistributionId × CheckedDistribution) :=
  match fetchOne source trusted edge.2.id with
  | .error err => .error err
  | .ok checked =>
    match checkInclude edge.1 edge.2 checked with
    | .ok () => .ok (edge.2.id, checked)
    | .error err => .error (.verification err)

theorem followInclude_ok_iff {source : DepotSource} {trusted : TrustedKeys}
    {edge : DistributionId × ManifestInclude} {found : DistributionId × CheckedDistribution} :
    followInclude source trusted edge = .ok found ↔
      found.1 = edge.2.id ∧ fetchOne source trusted edge.2.id = .ok found.2 ∧
        checkInclude edge.1 edge.2 found.2 = .ok () := by
  obtain ⟨fid, fc⟩ := found
  simp only [followInclude]
  cases hf : fetchOne source trusted edge.2.id with
  | error err => simp
  | ok checked =>
    cases hc : checkInclude edge.1 edge.2 checked with
    | error err =>
      simp only [hc, reduceCtorEq, false_iff, not_and, Except.ok.injEq]
      rintro - rfl h
      rw [hc] at h
      cases h
    | ok u =>
      simp only [hc, Except.ok.injEq, Prod.mk.injEq]
      constructor
      · rintro ⟨rfl, rfl⟩
        exact ⟨rfl, rfl, hc⟩
      · rintro ⟨rfl, rfl, -⟩
        exact ⟨rfl, rfl⟩

def includeEdges (id : DistributionId) (checked : CheckedDistribution) :
    List (DistributionId × ManifestInclude) :=
  checked.manifest.includes.map fun i => (id, i)

/-- The include graph of a depot, as the fetch discovers it. -/
def includeGraph (source : DepotSource) (trusted : TrustedKeys) :
    Worklist.Graph DistributionId (DistributionId × ManifestInclude)
      (DistributionId × CheckedDistribution) DepotError where
  target edge := edge.2.id
  visit := followInclude source trusted
  next found := includeEdges found.1 found.2
  nodes := source.ids
  finite := by
    intro e found h
    obtain ⟨detail, hd, -⟩ := fetchOne_ok (followInclude_ok_iff.mp h).2.1
    exact source.finite _ detail hd

/-- `fetch_verified`: `seen` starts with the root's id, the queue is a `Vec`
used as a stack. -/
def fetchVerified (source : DepotSource) (trusted : TrustedKeys) (id : DistributionId) :
    Except DepotError VerifiedDistribution :=
  if trusted.keys = [] then
    .error (.config "no trusted release key (set FENRIR_DEPOT_TRUSTED_KEYS)")
  else
    match fetchOne source trusted id with
    | .error err => .error err
    | .ok root =>
      match Worklist.walk (includeGraph source trusted) [id] (includeEdges id root).reverse [] with
      | .error err => .error err
      | .ok found => .ok { root, includes := found.map (·.2) }

/-! ## What a fetch returns -/

/-- The distributions a root leads to by verified references, the root
included. -/
inductive Included (source : DepotSource) (trusted : TrustedKeys) (id : DistributionId) :
    CheckedDistribution → Prop where
  | root {c : CheckedDistribution} (h : fetchOne source trusted id = .ok c) :
      Included source trusted id c
  | step {p c : CheckedDistribution} {i : ManifestInclude} (hp : Included source trusted id p)
      (hi : i ∈ p.manifest.includes) (h : fetchOne source trusted i.id = .ok c) :
      Included source trusted id c

variable {source : DepotSource} {trusted : TrustedKeys} {id : DistributionId}
  {v : VerifiedDistribution}

/-- The first one is fetched, and includes the second. -/
def IncludeEdge (source : DepotSource) (trusted : TrustedKeys) (a b : DistributionId) : Prop :=
  ∃ c, fetchOne source trusted a = .ok c ∧ ∃ i ∈ c.manifest.includes, i.id = b

/-- The depot does not know it, or it fails its check. -/
def Unverified (source : DepotSource) (trusted : TrustedKeys) (b : DistributionId) : Prop :=
  source.distribution b = .ok none ∨ ∃ detail err, source.distribution b = .ok (some detail) ∧
      checkDistribution detail b trusted = .error err

theorem fetchVerified_ok (h : fetchVerified source trusted id = .ok v) :
    ∃ found, fetchOne source trusted id = .ok v.root ∧ v.includes = found.map (·.2) ∧
      Worklist.walk (includeGraph source trusted) [id] (includeEdges id v.root).reverse []
        = .ok found := by
  revert h
  fun_cases fetchVerified source trusted id
  case case4 root hro found hwa =>
    intro h
    cases h
    exact ⟨found, hro, rfl, hwa⟩
  all_goals exact nofun

section

variable [LawfulDepotProtocol]

variable {c : CheckedDistribution}

theorem fetchOne_id (h : fetchOne source trusted id = .ok c) : c.manifest.id = id := by
  obtain ⟨detail, -, hc⟩ := fetchOne_ok h
  exact LawfulDepotProtocol.checkDistribution_id _ _ _ _ hc

/-- Every included distribution was fetched through a verified reference that
carries its digest, and only the root answers to the root's id. -/
theorem fetchVerified_sound (h : fetchVerified source trusted id = .ok v) (hc : c ∈ v.includes) :
    ∃ p i, Included source trusted id p ∧ i ∈ p.manifest.includes ∧ i.id ≠ id ∧
      fetchOne source trusted i.id = .ok c ∧ c.digest = i.manifestSha256 := by
  obtain ⟨found, hro, hinc, hwa⟩ := fetchVerified_ok h
  rw [hinc] at hc
  obtain ⟨b, hb, rfl⟩ := mem_map.mp hc
  -- the invariant of the stack: every edge leaves a distribution that is included
  have hinv := Worklist.walk_invariant
    (P := fun e : DistributionId × ManifestInclude =>
      ∃ p, Included source trusted id p ∧ e.2 ∈ p.manifest.includes)
    (g := includeGraph source trusted) ?_ hwa ?_ b hb
  · rcases hinv with hnil | ⟨e, ⟨p, hp, hi⟩, hns, hv⟩
    · cases hnil
    · obtain ⟨-, hfet, hche⟩ := followInclude_ok_iff.mp hv
      refine ⟨p, e.2, hp, hi, fun he => hns (mem_singleton.mpr he), hfet, ?_⟩
      exact (LawfulDepotProtocol.checkInclude_iff e.1 e.2 b.2 (fetchOne_id hfet)).mp hche
  · rintro e b' ⟨p, hp, hi⟩ hv e' he'
    obtain ⟨-, hfet, -⟩ := followInclude_ok_iff.mp hv
    obtain ⟨i, hi', rfl⟩ := mem_map.mp he'
    exact ⟨b'.2, Included.step hp hi hfet, hi'⟩
  · intro e he
    obtain ⟨i, hi, rfl⟩ := mem_map.mp (mem_reverse.mp he)
    exact ⟨v.root, Included.root hro, hi⟩

variable {p : CheckedDistribution}

section

variable (h : fetchVerified source trusted id = .ok v)

include h

omit [LawfulDepotProtocol] in
theorem fetchVerified_closed (hp : p ∈ v.all) {i : ManifestInclude} (hi : i ∈ p.manifest.includes) :
    i.id = id ∨ ∃ c ∈ v.includes, fetchOne source trusted i.id = .ok c := by
  obtain ⟨found, -, hinc, hwa⟩ := fetchVerified_ok h
  obtain ⟨hsta, hne⟩ := Worklist.walk_covers hwa
  have hcov : Worklist.Covered (includeGraph source trusted) [id] found i.id := by
    rcases mem_cons.mp hp with rfl | hmem
    · exact hsta (id, i) (mem_reverse.mpr (mem_map.mpr ⟨i, hi, rfl⟩))
    · rw [hinc] at hmem
      obtain ⟨b, hb, rfl⟩ := mem_map.mp hmem
      exact hne b hb nofun (b.1, i) (mem_map.mpr ⟨i, hi, rfl⟩)
  rcases hcov with hseen | ⟨b, hb, e, htar, hv⟩
  · exact Or.inl (mem_singleton.mp hseen)
  · obtain ⟨-, hfet, -⟩ := followInclude_ok_iff.mp hv
    rw [show e.2.id = i.id from htar] at hfet
    exact Or.inr ⟨b.2, by rw [hinc]; exact mem_map.mpr ⟨b, hb, rfl⟩, hfet⟩

theorem fetchVerified_fetched (hc : c ∈ v.all) : fetchOne source trusted c.manifest.id = .ok c := by
  obtain ⟨-, hro, -, -⟩ := fetchVerified_ok h
  rcases mem_cons.mp hc with rfl | hmem
  · rw [fetchOne_id hro]
    exact hro
  · obtain ⟨p, i, -, -, -, hfet, -⟩ := fetchVerified_sound h hmem
    rw [fetchOne_id hfet]
    exact hfet

/-- **A FETCH RETURNS THE INCLUDE CLOSURE**: exactly the distributions the root
leads to. -/
theorem included_iff_mem (c : CheckedDistribution) : Included source trusted id c ↔ c ∈ v.all := by
  obtain ⟨-, hro, -, -⟩ := fetchVerified_ok h
  constructor
  · intro hc
    induction hc with
    | root hf =>
      rw [hro] at hf
      cases hf
      exact mem_cons_self
    | step hp hi hf ih =>
      rcases fetchVerified_closed h ih hi with heq | ⟨c', hc', hf'⟩
      · rw [heq, hro] at hf
        cases hf
        exact mem_cons_self
      · rw [hf] at hf'
        cases hf'
        exact mem_cons_of_mem _ hc'
  · intro hc
    rcases mem_cons.mp hc with rfl | hmem
    · exact Included.root hro
    · obtain ⟨p, i, hp, hi, -, hfet, -⟩ := fetchVerified_sound h hmem
      exact Included.step hp hi hfet

end

theorem Included.reached (h : Included source trusted id p) :
    Relation.ReflTransGen (IncludeEdge source trusted) id p.manifest.id ∧
      fetchOne source trusted p.manifest.id = .ok p := by
  induction h with
  | root hroot =>
    rw [fetchOne_id hroot]
    exact ⟨.refl, hroot⟩
  | step _ hi hfetch ih =>
    rw [fetchOne_id hfetch]
    exact ⟨ih.1.tail ⟨_, ih.2, _, hi, rfl⟩, hfetch⟩

omit [LawfulDepotProtocol] in
theorem fetched_of_reached (h : fetchVerified source trusted id = .ok v) {b : DistributionId}
    (hb : Relation.ReflTransGen (IncludeEdge source trusted) id b) :
    ∃ c ∈ v.all, fetchOne source trusted b = .ok c := by
  obtain ⟨-, hro, -, -⟩ := fetchVerified_ok h
  induction hb with
  | refl => exact ⟨v.root, mem_cons_self, hro⟩
  | tail _ hedge ih =>
    obtain ⟨p, hp, hfet⟩ := ih
    obtain ⟨c, hc, i, hi, rfl⟩ := hedge
    obtain rfl : p = c := Except.ok.inj (hfet.symm.trans hc)
    rcases fetchVerified_closed h hp hi with heq | ⟨c, hc, hfe⟩
    · rw [heq]
      exact ⟨v.root, mem_cons_self, hro⟩
    · exact ⟨c, mem_cons_of_mem _ hc, hfe⟩

/-- **THE INCLUDE CLOSURE.** The traversal is a total function, as the depot is finite. What
it returns are the distributions reachable by at least one reference, without the root,
each once; and it fails where a reachable one is missing or not verified. -/
theorem fetchVerified_closure (source : DepotSource) (trusted : TrustedKeys) (id : DistributionId) :
    (∀ v, fetchVerified source trusted id = .ok v → (v.includes.map (·.manifest.id)).Nodup ∧
      ∀ b, b ∈ v.includes.map (·.manifest.id) ↔
        Relation.TransGen (IncludeEdge source trusted) id b ∧ b ≠ id) ∧
    ∀ b, Relation.ReflTransGen (IncludeEdge source trusted) id b → Unverified source trusted b →
      ∃ err, fetchVerified source trusted id = .error err := by
  refine ⟨fun v h => ⟨?_, fun b => ⟨?_, ?_⟩⟩, ?_⟩
  · obtain ⟨found, -, hinc, hwa⟩ := fetchVerified_ok h
    have hids : v.includes.map (·.manifest.id) = found.map Prod.fst := by
      rw [hinc, map_map]
      refine map_congr_left fun b hb => ?_
      rcases Worklist.walk_invariant (P := fun _ => True) (fun _ _ _ _ _ _ => trivial) hwa
        (fun _ _ => trivial) b hb with hnil | ⟨e, -, -, hvis⟩
      · cases hnil
      · obtain ⟨hid, hfet, -⟩ := followInclude_ok_iff.mp hvis
        rw [hid]
        exact fetchOne_id hfet
    rw [hids]
    exact Worklist.walk_nodup (fun _ _ hv => (followInclude_ok_iff.mp hv).1) hwa
      nofun nodup_nil
  · intro hb
    obtain ⟨c, hc, rfl⟩ := mem_map.mp hb
    obtain ⟨p, i, hp, hi, hne, hfet, -⟩ := fetchVerified_sound h hc
    show Relation.TransGen _ id c.manifest.id ∧ c.manifest.id ≠ id
    rw [fetchOne_id hfet]
    exact ⟨.tail' hp.reached.1 ⟨p, hp.reached.2, i, hi, rfl⟩, hne⟩
  · rintro ⟨hb, hne⟩
    obtain ⟨c, hc, hfet⟩ := fetched_of_reached h hb.to_reflTransGen
    have hcb := fetchOne_id hfet
    rcases mem_cons.mp hc with rfl | hmem
    · obtain ⟨-, hro, -, -⟩ := fetchVerified_ok h
      exact absurd (hcb.symm.trans (fetchOne_id hro)) hne
    · exact mem_map.mpr ⟨c, hmem, hcb⟩
  · intro b hb hmis
    cases h : fetchVerified source trusted id with
    | error err => exact ⟨err, rfl⟩
    | ok v =>
      obtain ⟨c, -, hfet⟩ := fetched_of_reached h hb
      obtain ⟨detail, hd, hok⟩ := fetchOne_ok hfet
      rcases hmis with hnone | ⟨detail', err, hso, herr⟩
      · cases hd.symm.trans hnone
      · cases hd.symm.trans hso
        cases hok.symm.trans herr

end

/-! ## References and digests -/

/-- Every reference of every returned distribution names a returned
distribution and passes the include check against it. -/
def EveryEdgeBound (v : VerifiedDistribution) : Prop :=
  ∀ p ∈ v.all, ∀ i ∈ p.manifest.includes,
    ∃ c ∈ v.all, c.manifest.id = i.id ∧ checkInclude p.manifest.id i c = .ok ()

/-- The signed references reachable from a root agree: those that name one
distribution carry one digest, and those that name the root carry the
digest of the root. -/
structure AgreeingReferences (source : DepotSource) (trusted : TrustedKeys)
    (id : DistributionId) : Prop where
  among : ∀ p q, Included source trusted id p → Included source trusted id q →
    ∀ i ∈ p.manifest.includes, ∀ j ∈ q.manifest.includes,
      i.id = j.id → i.manifestSha256 = j.manifestSha256
  root : ∀ p, Included source trusted id p → ∀ i ∈ p.manifest.includes, i.id = id →
    ∀ c, fetchOne source trusted id = .ok c → c.digest = i.manifestSha256

/-- **WHEN EVERY EDGE IS BOUND.** The seen set knows ids only, so a second
reference to a distribution is never compared; the result is bound along
every edge exactly when the references agree among themselves. -/
theorem everyEdgeBound_iff [LawfulDepotProtocol] (h : fetchVerified source trusted id = .ok v) :
    EveryEdgeBound v ↔ AgreeingReferences source trusted id := by
  obtain ⟨-, hro, -, -⟩ := fetchVerified_ok h
  constructor
  · intro hbou
    -- the distribution an edge is bound to is the one fetched under that id
    have hdig : ∀ p, Included source trusted id p → ∀ i ∈ p.manifest.includes,
        ∃ c, fetchOne source trusted i.id = .ok c ∧ c.digest = i.manifestSha256 := by
      intro p hp i hi
      obtain ⟨c, hc, hcid, hche⟩ := hbou p ((included_iff_mem h p).mp hp) i hi
      refine ⟨c, ?_, (LawfulDepotProtocol.checkInclude_iff _ _ _ hcid).mp hche⟩
      rw [← hcid]
      exact fetchVerified_fetched h hc
    refine ⟨?_, ?_⟩
    · intro p q hp hq i hi j hj heq
      obtain ⟨c, hf, hd⟩ := hdig p hp i hi
      obtain ⟨c', hf', hd'⟩ := hdig q hq j hj
      rw [heq, hf'] at hf
      rw [← hd, ← hd', Except.ok.inj hf]
    · intro p hp i hi heq c hc
      obtain ⟨c', hf', hd'⟩ := hdig p hp i hi
      rw [heq, hc] at hf'
      cases hf'
      exact hd'
  · intro hagr p hp i hi
    have hpi : Included source trusted id p := (included_iff_mem h p).mpr hp
    rcases fetchVerified_closed h hp hi with heq | ⟨c, hc, hfet⟩
    · have hid : v.root.manifest.id = i.id := (fetchOne_id hro).trans heq.symm
      refine ⟨v.root, mem_cons_self, hid, ?_⟩
      exact (LawfulDepotProtocol.checkInclude_iff _ _ _ hid).mpr
        (hagr.root p hpi i hi heq v.root hro)
    · have hid : c.manifest.id = i.id := fetchOne_id hfet
      obtain ⟨q, j, hq, hj, -, hfe', hdig⟩ := fetchVerified_sound h hc
      have hij : j.id = i.id := by
        rw [← hid]
        exact (fetchOne_id hfe').symm
      refine ⟨c, mem_cons_of_mem _ hc, hid, ?_⟩
      rw [LawfulDepotProtocol.checkInclude_iff _ _ _ hid, hdig]
      exact hagr.among q p hq hpi j hj i hi hij

end

section

def bareManifest (product : String) (includes : List ManifestInclude) : Manifest where
  product := product
  version := ⟨1, 0, 0, 0⟩
  platform := ⟨"any"⟩
  createdAt := 0
  modules := []
  includes := includes

def reference (product : String) (digest : Sha256Digest) : ManifestInclude where
  product := product
  rule := ⟨"=1.0.0"⟩
  version := ⟨1, 0, 0, 0⟩
  manifestSha256 := digest

def signed (manifest : Manifest) (digest : Sha256Digest) : CheckedDistribution where
  manifest := manifest
  digest := digest
  channel := .prod
  keyId := "release"
  yanked := none

def baseDigest : Sha256Digest := sampleDigest []
def toolsDigest : Sha256Digest := sampleDigest [0x61]
def staleDigest : Sha256Digest := sampleDigest [0x62]

/-- `athenos` refers to `base` with a stale digest and to `tools`, which refers
to `base` as it is. -/
def staleAthenos : CheckedDistribution :=
  signed (bareManifest "athenos" [reference "base" staleDigest, reference "tools" toolsDigest])
    (sampleDigest [])

def toolsDistribution : CheckedDistribution :=
  signed (bareManifest "tools" [reference "base" baseDigest]) toolsDigest

def baseDistribution : CheckedDistribution := signed (bareManifest "base" []) baseDigest

def staleDetail (id : DistributionId) : Option CheckedDistribution :=
  [staleAthenos, toolsDistribution, baseDistribution].find? (·.manifest.id = id)

theorem mem_ids_of_find {dists : List CheckedDistribution} {id : DistributionId}
    {detail : CheckedDistribution}
    (h : (.ok (dists.find? (·.manifest.id = id)) : Except DepotError _) = .ok (some detail)) :
    id ∈ dists.map (·.manifest.id) := by
  have hf := Except.ok.inj h
  have hid : detail.manifest.id = id := by simpa using List.find?_some hf
  rw [← hid]
  exact mem_map.mpr ⟨detail, mem_of_find?_eq_some hf, rfl⟩

def staleDepot : @DepotSource sampleProtocol :=
  let _ := sampleProtocol
  { distribution := fun id => .ok (staleDetail id)
    distributions := fun _ => .ok []
    module := fun _ => .ok none
    blob := fun _ _ => .error (.unreachable "no blobs")
    ids := [staleAthenos, toolsDistribution, baseDistribution].map (·.manifest.id)
    finite := by exact fun _ _ => mem_ids_of_find }

def releaseKeys : TrustedKeys := ⟨["release"]⟩

/-- The edge through `tools` is popped first, so the stale reference finds its
target already seen. -/
theorem fetchVerified_staleDepot :
    @fetchVerified sampleProtocol staleDepot releaseKeys staleAthenos.manifest.id
      = .ok ⟨staleAthenos, [toolsDistribution, baseDistribution]⟩ := by
  let _ := sampleProtocol
  have hro : fetchOne staleDepot releaseKeys staleAthenos.manifest.id = .ok staleAthenos := rfl
  have htoo : (includeGraph staleDepot releaseKeys).visit
      (staleAthenos.manifest.id, reference "tools" toolsDigest)
        = .ok (toolsDistribution.manifest.id, toolsDistribution) := rfl
  have hba : (includeGraph staleDepot releaseKeys).visit
      (toolsDistribution.manifest.id, reference "base" baseDigest)
        = .ok (baseDistribution.manifest.id, baseDistribution) := rfl
  have hwa : Worklist.walk (includeGraph staleDepot releaseKeys) [staleAthenos.manifest.id]
      (includeEdges staleAthenos.manifest.id staleAthenos).reverse []
        = .ok [(toolsDistribution.manifest.id, toolsDistribution),
          (baseDistribution.manifest.id, baseDistribution)] := by
    show Worklist.walk _ _ [(staleAthenos.manifest.id, reference "tools" toolsDigest),
      (staleAthenos.manifest.id, reference "base" staleDigest)] [] = _
    rw [Worklist.walk_visit _ (by decide) htoo]
    show Worklist.walk _ _ [(toolsDistribution.manifest.id, reference "base" baseDigest),
      (staleAthenos.manifest.id, reference "base" staleDigest)] _ = _
    rw [Worklist.walk_visit _ (by decide) hba]
    show Worklist.walk _ _ [(staleAthenos.manifest.id, reference "base" staleDigest)] _ = _
    rw [Worklist.walk_seen _ (by decide), Worklist.walk_nil]
    rfl
  simp only [fetchVerified, hro, hwa]
  rfl

/-- `athenos` reaches `tools` and `base`. -/
theorem fetchVerified_closure_staleDepot :
    let _ := sampleProtocol
    ∀ b, b ∈ [toolsDistribution, baseDistribution].map (·.manifest.id) ↔
      Relation.TransGen (IncludeEdge staleDepot releaseKeys) staleAthenos.manifest.id b ∧
        b ≠ staleAthenos.manifest.id :=
  let _ := sampleProtocol
  ((fetchVerified_closure staleDepot releaseKeys staleAthenos.manifest.id).1 _
    fetchVerified_staleDepot).2

theorem everyEdgeBound_iff_staleDepot :
    let _ := sampleProtocol
    fetchVerified staleDepot releaseKeys staleAthenos.manifest.id
        = .ok ⟨staleAthenos, [toolsDistribution, baseDistribution]⟩ ∧
      (EveryEdgeBound ⟨staleAthenos, [toolsDistribution, baseDistribution]⟩ ↔
        AgreeingReferences staleDepot releaseKeys staleAthenos.manifest.id) :=
  let _ := sampleProtocol
  ⟨fetchVerified_staleDepot, everyEdgeBound_iff fetchVerified_staleDepot⟩

/-- The fetch succeeds although `athenos` signed another digest for `base` than
the one of the distribution it returns. -/
theorem fetchVerified_stale_reference :
    let _ := sampleProtocol
    ∃ v, fetchVerified staleDepot releaseKeys staleAthenos.manifest.id = .ok v ∧
      ∃ i ∈ v.root.manifest.includes, ∀ c ∈ v.all,
        checkInclude v.root.manifest.id i c ≠ .ok () := by
  refine ⟨_, fetchVerified_staleDepot, reference "base" staleDigest, by decide, ?_⟩
  intro c hc
  simp only [VerifiedDistribution.all, mem_cons, not_mem_nil, or_false] at hc
  rcases hc with rfl | rfl | rfl <;> decide

end

/-! ## What this host may install -/

section

variable [DepotProtocol]

section

variable (source : DepotSource) (policy : HostPolicy)

/-- `verified_summary`: a summary from verified data only. -/
def verifiedSummary (checked : CheckedDistribution) : DistributionSummary where
  product := checked.manifest.product
  version := checked.manifest.version
  channel := checked.channel
  platform := checked.manifest.platform
  manifestSha256 := checked.digest
  publishedAt := checked.manifest.createdAt
  yanked := checked.yanked.map fun reason => { reason, at_ := checked.manifest.createdAt }
  modules := checked.manifest.modules.map fun m =>
    { module := m.module, rule := m.rule, version := m.version, platform := m.platform,
      sha256 := m.sha256, size := m.size, optional := m.optional }
  includes := checked.manifest.includes.map fun i =>
    { product := i.product, rule := i.rule, version := i.version,
      manifestSha256 := i.manifestSha256 }

/-- The platform problems of one distribution; the host product has none. -/
def platformProblems (checked : CheckedDistribution) : List String :=
  if checked.manifest.product = fenrirProduct then []
  else checked.manifest.modules.filterMap fun m =>
    if runsOn m.platform policy.platform then none
    else some (s!"{m.module} {m.version.display} is built for {m.platform.text}, "
      ++ s!"this host is {policy.platform.text}")

/-- `host_problems`: yank, channel, platform, requirements. -/
def hostProblems (dist : VerifiedDistribution) (policy : HostPolicy) : List String :=
  let yanked := match dist.root.yanked with
    | some reason => [s!"{dist.id.display} is yanked: {reason}"]
    | none => []
  let channel := if dist.root.channel < policy.channel then
      [s!"{dist.id.display} is in channel {dist.root.channel.display} (signed); this host follows "
        ++ s!"{policy.channel.display} and installs {policy.channel.display} or above"]
    else []
  let platforms := (Std.ExtTreeSet.ofList (dist.all.flatMap (platformProblems policy))).toList
  let summaries := dist.all.map verifiedSummary
  let requirements := (dist.all.flatMap fun checked =>
    checkRequirementsForHost checked.manifest summaries policy.fenrir).eraseDups
  yanked ++ channel ++ platforms ++ requirements

/-- What `install distribution` was asked for. -/
inductive DistributionRequest where
  | exact (id : DistributionId)
  | range (product : String) (rule : Rule)

/-- A chosen distribution plus what was passed over on the way. -/
structure Selection where
  distribution : VerifiedDistribution
  skipped : List String

/-- The loop of `newest_installable` over the candidates, newest first. -/
def firstInstallable (source : DepotSource) (policy : HostPolicy) (product : String) :
    List DepotVersion → List String → Except DepotError (Except (List String) Selection)
  | [], skipped => .ok (.error skipped)
  | version :: rest, skipped => do
      let id : DistributionId := ⟨product, version⟩
      let distribution ← fetchVerified source policy.trusted id
      let problems := hostProblems distribution policy
      if problems = [] then
        pure (.ok { distribution, skipped })
      else
        firstInstallable source policy product rest
          (skipped ++ [s!"{id.display}: " ++ "; ".intercalate problems])

def newestInstallable (product : String)
    (wanted : DepotVersion → Bool) : Except DepotError (Except (List String) Selection) := do
  let summaries ← source.distributions product
  let candidates := (summaries.filter fun s => s.product == product && wanted s.version).map
    (·.version)
  firstInstallable source policy product
    ((candidates.insertionSort (· ≤ ·)).eraseReps).reverse []

def selectDistribution (request : DistributionRequest) : Except DepotError Selection :=
  match request with
  | .exact id => do
      let distribution ← fetchVerified source policy.trusted id
      let problems := hostProblems distribution policy
      if problems = [] then pure { distribution, skipped := [] }
      else throw (.refused (s!"{id.display} cannot be installed on this host:\n  "
        ++ "\n  ".intercalate problems))
  | .range product rule => do
      match ← newestInstallable source policy product (ruleMatches rule) with
      | .ok selection => pure selection
      | .error [] =>
        throw (.notFound s!"no distribution of {product} matches `{rule.text}`")
      | .error skipped =>
        throw (.refused (s!"no distribution of {product} matching `{rule.text}` can be installed "
          ++ "here:\n  " ++ "\n  ".intercalate skipped))

/-- A single module for `install module`, vouched for by a verified
distribution (`from`). -/
structure ModuleCandidate where
  module : TargetModule
  source : DistributionId

/-- The inner loop of `select_module` over the distributions that use an
artifact: a candidate, or what was skipped by then. -/
def candidateFrom (source : DepotSource) (policy : HostPolicy) (name : String)
    (artifact : ArtifactInfo) :
    List UsageRef → List String → Except DepotError (Option ModuleCandidate × List String)
  | [], skipped => .ok (none, skipped)
  | reference :: rest, skipped => do
      let dist ← fetchVerified source policy.trusted reference.distribution
      if dist.root.yanked.isSome || dist.root.channel < policy.channel then
        candidateFrom source policy name artifact rest skipped
      else
        match dist.targetModules.find? fun m => m.name == name && m.version == artifact.version
            && m.sha256 == artifact.sha256 && m.platform == artifact.platform.text with
        | none => candidateFrom source policy name artifact rest skipped
        | some module =>
          match module.requires.fenrir with
          | some rule =>
            if ruleMatches rule policy.fenrir then
              pure (some { module := { module with via := none }, source := dist.id }, skipped)
            else
              -- the artifact asks for another host: no other distribution can help
              pure (none, skipped ++ [s!"{name} {artifact.version.display}: requires fenrir "
                ++ s!"{rule.text}, but this host runs fenrir {policy.fenrir.display}"])
          | none =>
            pure (some { module := { module with via := none }, source := dist.id }, skipped)

/-- The outer loop of `select_module` over the artifacts, newest first. -/
def candidateAmong (source : DepotSource) (policy : HostPolicy) (name : String)
    (pattern : VersionPattern) :
    List ArtifactUsage → List String → Except DepotError (Except (List String) ModuleCandidate)
  | [], skipped => .ok (.error skipped)
  | usage :: rest, skipped => do
      let artifact := usage.artifact
      let label := s!"{name} {artifact.version.display}"
      if !patternMatches pattern artifact.version || !runsOn artifact.platform policy.platform then
        candidateAmong source policy name pattern rest skipped
      else
        match artifact.yanked with
        | some yank =>
          candidateAmong source policy name pattern rest
            (skipped ++ [s!"{label}: yanked ({yank.reason})"])
        | none =>
          let usedIn := usage.usedIn.insertionSort
            fun a b => b.distribution.version ≤ a.distribution.version
          let (found, skipped) ← candidateFrom source policy name artifact
            (usedIn.filter fun r => !r.yanked && decide (policy.channel ≤ r.channel)) skipped
          match found with
          | some candidate => pure (.ok candidate)
          | none =>
            let reported := skipped.getLast?.any (·.startsWith label)
            candidateAmong source policy name pattern rest
              (if reported then skipped
                else skipped ++ [s!"{label}: in no verified distribution of channel "
                  ++ s!"{policy.channel.display} or above"])

def selectModule (name : String)
    (pattern : VersionPattern) : Except DepotError ModuleCandidate := do
  match ← source.module name with
  | none => throw (.notFound s!"module {name} does not exist in the depot")
  | some info =>
    let usages := info.versions.insertionSort fun a b => b.artifact.version ≤ a.artifact.version
    match ← candidateAmong source policy name pattern usages [] with
    | .ok candidate => pure candidate
    | .error [] => throw (.notFound (s!"no version of {name} matches `{pattern.text}` for "
        ++ policy.platform.text))
    | .error skipped =>
      throw (.refused (s!"no version of {name} matching `{pattern.text}` can be installed "
        ++ "here:\n  " ++ "\n  ".intercalate skipped))

end

end

end Fenrir
