import Fenrir.Domain

/-! # The depot protocol, as the host uses it

`depot_protocol` is a crate of its own and not part of the host. Its data
(names, versions, manifests, summaries) appears here with the fields the
host reads. Its functions are the fields of `DepotProtocol`: every
definition of the pipeline takes them as given, and a result that rests on
what they promise says so through `LawfulDepotProtocol`. -/

namespace Fenrir

/-- `depot_protocol::ModuleVersion`, `X.Y.Z` (build 0) or `X.Y.Z-N`. -/
structure DepotVersion where
  (major minor patch build : Nat)
  deriving DecidableEq

/-- The order of depot versions: the core first, then the build as a number. -/
def DepotVersion.key (v : DepotVersion) : Nat ×ₗ Nat ×ₗ Nat ×ₗ Nat :=
  toLex (v.major, toLex (v.minor, toLex (v.patch, v.build)))

theorem DepotVersion.key_injective : Function.Injective DepotVersion.key := by
  rintro ⟨a, b, c, d⟩ ⟨a', b', c', d'⟩ h
  simp only [DepotVersion.key, EmbeddingLike.apply_eq_iff_eq, Prod.mk.injEq] at h
  obtain ⟨rfl, rfl, rfl, rfl⟩ := h
  rfl

instance : LinearOrder DepotVersion :=
  LinearOrder.lift' DepotVersion.key DepotVersion.key_injective

/-- `Display for ModuleVersion`. -/
def DepotVersion.display (v : DepotVersion) : String :=
  s!"{v.major}.{v.minor}.{v.patch}" ++ (if v.build = 0 then "" else s!"-{v.build}")

structure Sha256Digest where
  asBytes : Bytes
  deriving DecidableEq

structure Rule where
  text : String
  deriving DecidableEq

/-- The version pattern of `install module`, by its text. -/
structure VersionPattern where
  text : String

structure Platform where
  text : String
  deriving DecidableEq

/-- Release channels; a host that follows one installs that one or above. -/
inductive Channel where
  | beta | stable | prod

def Channel.rank : Channel → Nat
  | .beta => 0
  | .stable => 1
  | .prod => 2

instance : LinearOrder Channel :=
  LinearOrder.lift' Channel.rank (by intro a b h; cases a <;> cases b <;> first | rfl | cases h)

def Channel.display : Channel → String
  | .beta => "beta"
  | .stable => "stable"
  | .prod => "prod"

structure DistributionId where
  product : String
  version : DepotVersion
  deriving DecidableEq

def DistributionId.display (id : DistributionId) : String :=
  s!"{id.product}-{id.version.display}"

structure TrustedKeys where
  keys : List String

structure ModuleRequirement where
  module : String
  rule : Rule

structure Requires where
  fenrir : Option Rule
  modules : List ModuleRequirement

structure ManifestModule where
  module : String
  rule : Rule
  version : DepotVersion
  platform : Platform
  sha256 : Sha256Digest
  size : Nat
  optional : Bool
  requires : Requires

/-- A signed reference to another distribution: its id and the digest of the
manifest that is meant. -/
structure ManifestInclude where
  product : String
  rule : Rule
  version : DepotVersion
  manifestSha256 : Sha256Digest
  deriving DecidableEq

def ManifestInclude.id (i : ManifestInclude) : DistributionId := ⟨i.product, i.version⟩

structure Manifest where
  product : String
  version : DepotVersion
  platform : Platform
  createdAt : Nat
  modules : List ManifestModule
  includes : List ManifestInclude

def Manifest.id (m : Manifest) : DistributionId := ⟨m.product, m.version⟩

/-- `depot_protocol::manifest::FENRIR_PRODUCT`: the host itself. -/
def fenrirProduct : String := "fenrir"

structure CheckedDistribution where
  manifest : Manifest
  digest : Sha256Digest
  channel : Channel
  keyId : String
  yanked : Option String

structure YankInfo where
  reason : String
  at_ : Nat

structure ItemSummary where
  module : String
  rule : Rule
  version : DepotVersion
  platform : Platform
  sha256 : Sha256Digest
  size : Nat
  optional : Bool

structure IncludeSummary where
  product : String
  rule : Rule
  version : DepotVersion
  manifestSha256 : Sha256Digest

structure DistributionSummary where
  product : String
  version : DepotVersion
  channel : Channel
  platform : Platform
  manifestSha256 : Sha256Digest
  publishedAt : Nat
  yanked : Option YankInfo
  modules : List ItemSummary
  includes : List IncludeSummary

structure ArtifactInfo where
  version : DepotVersion
  platform : Platform
  sha256 : Sha256Digest
  yanked : Option YankInfo

structure UsageRef where
  distribution : DistributionId
  channel : Channel
  yanked : Bool

structure ArtifactUsage where
  artifact : ArtifactInfo
  usedIn : List UsageRef

structure ModuleInfo where
  versions : List ArtifactUsage

/-- The functions of `depot_protocol` (and the `semver` parser behind a
manifest version) that the pipeline calls. -/
class DepotProtocol where
  -- `api::DistributionDetail`: signed envelope, promotions, yank statement.
  Detail : Type
  -- `Sha256Digest::of`.
  digestOf : Bytes → Sha256Digest
  -- `Sha256Digest::to_hex`.
  toHex : Sha256Digest → String
  -- `Sha256Digest::from_str`.
  parseDigest : String → Except String Sha256Digest
  -- `Rule::matches`.
  ruleMatches : Rule → DepotVersion → Bool
  -- `VersionPattern::matches`.
  patternMatches : VersionPattern → DepotVersion → Bool
  -- `Platform::runs_on`.
  runsOn : Platform → Platform → Bool
  -- `ModuleVersion::parse`.
  parseVersion : String → Except String DepotVersion
  -- `DistributionId::from_str`.
  parseId : String → Except String DistributionId
  -- `semver::Version::parse`.
  parseSemver : String → Except String SemVersion
  -- `verify::check_distribution`: signature, key, id, promotions, yank.
  checkDistribution : Detail → DistributionId → TrustedKeys → Except String CheckedDistribution
  -- `verify::check_include`: the included manifest is the one referenced.
  checkInclude : DistributionId → ManifestInclude → CheckedDistribution → Except String Unit
  -- `resolve::check_requirements_for_host`: problem texts.
  checkRequirementsForHost : Manifest → List DistributionSummary → DepotVersion → List String

/-- What the host relies on in those functions. -/
class LawfulDepotProtocol [DepotProtocol] : Prop where
  -- A digest written as hex reads back.
  parseDigest_toHex : ∀ d, DepotProtocol.parseDigest (DepotProtocol.toHex d) = .ok d
  -- A depot version written as text reads back.
  parseVersion_display : ∀ v : DepotVersion, DepotProtocol.parseVersion v.display = .ok v
  -- `semver` text is canonical: what parses is printed as it was.
  display_parseSemver : ∀ text m, DepotProtocol.parseSemver text = .ok m → m.display = text
  -- A verified manifest is the one that was asked for.
  checkDistribution_id : ∀ detail id trusted checked,
    DepotProtocol.checkDistribution detail id trusted = .ok checked → checked.manifest.id = id
  -- An include check of the right distribution compares the digest.
  checkInclude_iff : ∀ parent (i : ManifestInclude) (checked : CheckedDistribution),
    checked.manifest.id = i.id → (DepotProtocol.checkInclude parent i checked = .ok () ↔
        checked.digest = i.manifestSha256)

/-- `DepotError`: why a depot operation stopped. -/
inductive DepotError where
  | config (message : String)
  | unreachable (message : String)
  | api (status : Nat) (code : String) (message : String)
  | protocol (message : String)
  | notFound (message : String)
  | verification (message : String)
  | bundle (message : String)
  | refused (message : String)
  | io (message : String)
  | install (message : String) (rolledBack : Bool)
  deriving DecidableEq

/-- `Display for DepotError`. -/
def DepotError.display : DepotError → String
  | .config m | .protocol m | .notFound m | .refused m | .io m => m
  | .unreachable m => s!"cannot reach the depot: {m}"
  | .api status code m => s!"the depot answered {status} ({code}): {m}"
  | .verification m => s!"verification failed: {m}"
  | .bundle m => s!"bundle rejected: {m}"
  | .install m true => s!"{m}; rolled back, the previous modules run again"
  | .install m false =>
    s!"{m}; the automatic rollback did not complete, check `list modules`"

/-! ## Between manifest versions and depot versions (`versions.rs`) -/

section

variable [DepotProtocol]

open DepotProtocol

def toManifest (version : DepotVersion) : Except DepotError SemVersion :=
  match parseSemver version.display with
  | .ok v => .ok v
  | .error err => .error (.protocol s!"version `{version.display}`: {err}")

def fromManifest (version : SemVersion) : Except String DepotVersion :=
  parseVersion version.display

/-- The depot form of an installed module's version; a module the depot never
touches counts as its core when the version has no depot form. -/
def installedVersion (module : String) (version : SemVersion) (localSync : Bool) :
    Except String DepotVersion :=
  match fromManifest version with
  | .ok parsed => .ok parsed
  | .error err =>
    if localSync then .ok ⟨version.major, version.minor, version.patch, 0⟩
    else .error (s!"installed module {module} has version {version.display}, which the depot "
      ++ s!"cannot compare ({err}); synchronize it from local sources or reinstall it from "
      ++ "the depot")

variable {v : DepotVersion} {m : SemVersion} {module : String}

theorem fromManifest_of_toManifest [LawfulDepotProtocol] (h : toManifest v = .ok m) :
    fromManifest m = .ok v := by
  rw [toManifest] at h
  cases hp : parseSemver v.display with
  | error err => rw [hp] at h; cases h
  | ok m' =>
    rw [hp] at h
    have hm : m' = m := Except.ok.inj h
    rw [hm] at hp
    rw [fromManifest]
    rw [LawfulDepotProtocol.display_parseSemver _ _ hp]
    exact LawfulDepotProtocol.parseVersion_display v

theorem installedVersion_of_fromManifest (h : fromManifest m = .ok v) (localSync : Bool) :
    installedVersion module m localSync = .ok v := by
  rw [installedVersion]
  rw [h]

theorem fromManifest_of_installedVersion (h : installedVersion module m false = .ok v) :
    fromManifest m = .ok v := by
  simp only [installedVersion] at h
  cases hf : fromManifest m with
  | ok parsed => rw [hf] at h; exact h
  | error err => rw [hf] at h; cases h

end

/-! ## A concrete protocol

Texts are parsed as the depot writes them, digests are real SHA-256 values
on the few contents listed, an envelope is its verified content. It is
what the concrete runs of this development are evaluated in. -/

section

def parseNat (text : List Char) : Option (Nat × List Char) :=
  let digits := text.takeWhile Char.isDigit
  if digits = [] then none
  else some (Nat.ofDigitChars 10 digits 0, text.dropWhile Char.isDigit)

/-- `X.Y.Z` or `X.Y.Z-N` with `N` at least 1. -/
def parseVersionChars (text : List Char) : Option DepotVersion :=
  match parseNat text with
  | some (major, '.' :: rest) =>
    match parseNat rest with
    | some (minor, '.' :: rest) =>
      match parseNat rest with
      | some (patch, []) => some ⟨major, minor, patch, 0⟩
      | some (patch, '-' :: rest) =>
        match parseNat rest with
        | some (build, []) => if build = 0 then none else some ⟨major, minor, patch, build⟩
        | _ => none
      | _ => none
    | _ => none
  | _ => none

theorem repr_digits (n : Nat) : ∀ c ∈ (Nat.repr n).toList, c.isDigit = true := by
  intro c hc
  rw [Nat.toList_repr] at hc
  exact Nat.isDigit_of_mem_toDigits (b := 10) (by decide) (by decide) hc

theorem parseNat_repr (n : Nat) {rest : List Char} (hre : ∀ c ∈ rest.head?, c.isDigit = false) :
    parseNat ((Nat.repr n).toList ++ rest) = some (n, rest) := by
  have hdr : rest.dropWhile Char.isDigit = rest := by
    cases rest with
    | nil => rfl
    | cons c cs => simp [hre c (by simp)]
  have hta : rest.takeWhile Char.isDigit = [] := by
    cases rest with
    | nil => rfl
    | cons c cs => simp [hre c (by simp)]
  have h1 : ((Nat.repr n).toList ++ rest).takeWhile Char.isDigit = (Nat.repr n).toList := by
    rw [List.takeWhile_append_of_pos (repr_digits n), hta, List.append_nil]
  have h2 : ((Nat.repr n).toList ++ rest).dropWhile Char.isDigit = rest := by
    rw [List.dropWhile_append_of_pos (repr_digits n), hdr]
  have hne : (Nat.repr n).toList ≠ [] := by
    rw [Nat.toList_repr]
    exact Nat.toDigits_ne_nil
  simp only [parseNat, h1, h2, if_neg hne]
  rw [Nat.toList_repr, Nat.ofDigitChars_ten_toDigits]

theorem display_toList (v : DepotVersion) :
    v.display.toList = (Nat.repr v.major).toList ++ '.' :: ((Nat.repr v.minor).toList ++ '.' ::
      ((Nat.repr v.patch).toList
        ++ if v.build = 0 then [] else '-' :: ((Nat.repr v.build).toList ++ []))) := by
  by_cases hb : v.build = 0
  · simp [DepotVersion.display, hb, toString]
  · simp [DepotVersion.display, hb, toString]

theorem parseVersionChars_display (v : DepotVersion) :
    parseVersionChars v.display.toList = some v := by
  rw [display_toList]
  have hdot : Char.isDigit '.' = false := by decide
  have hda : Char.isDigit '-' = false := by decide
  simp only [parseVersionChars]
  rw [parseNat_repr v.major (by simp [hdot])]
  simp only
  rw [parseNat_repr v.minor (by simp [hdot])]
  simp only
  by_cases hb : v.build = 0
  · rw [if_pos hb, parseNat_repr v.patch (by simp)]
    simp only [Option.some.injEq]
    cases v
    simp_all
  · rw [if_neg hb, parseNat_repr v.patch (by simp [hda])]
    simp only
    rw [parseNat_repr v.build (by simp)]
    simp only [if_neg hb]

def emptyArchive : Bytes :=
  [0x1f, 0x8b, 0x08, 0x00, 0x00, 0x00, 0x00, 0x00, 0x02, 0x03, 0x63, 0x60, 0x18, 0x05, 0xa3,
    0x60, 0x14, 0x8c, 0x54, 0x00, 0x00, 0x2e, 0xaf, 0xb5, 0xef, 0x00, 0x04, 0x00, 0x00]

/-- SHA-256 of the empty file, of `a`, of `b` and of the empty archive. -/
def sampleDigest (bytes : Bytes) : Sha256Digest :=
  if bytes = [] then
    ⟨[0xe3, 0xb0, 0xc4, 0x42, 0x98, 0xfc, 0x1c, 0x14, 0x9a, 0xfb, 0xf4, 0xc8, 0x99, 0x6f, 0xb9,
      0x24, 0x27, 0xae, 0x41, 0xe4, 0x64, 0x9b, 0x93, 0x4c, 0xa4, 0x95, 0x99, 0x1b, 0x78, 0x52,
      0xb8, 0x55]⟩
  else if bytes = [0x61] then
    ⟨[0xca, 0x97, 0x81, 0x12, 0xca, 0x1b, 0xbd, 0xca, 0xfa, 0xc2, 0x31, 0xb3, 0x9a, 0x23, 0xdc,
      0x4d, 0xa7, 0x86, 0xef, 0xf8, 0x14, 0x7c, 0x4e, 0x72, 0xb9, 0x80, 0x77, 0x85, 0xaf, 0xee,
      0x48, 0xbb]⟩
  else if bytes = [0x62] then
    ⟨[0x3e, 0x23, 0xe8, 0x16, 0x00, 0x39, 0x59, 0x4a, 0x33, 0x89, 0x4f, 0x65, 0x64, 0xe1, 0xb1,
      0x34, 0x8b, 0xbd, 0x7a, 0x00, 0x88, 0xd4, 0x2c, 0x4a, 0xcb, 0x73, 0xee, 0xae, 0xd5, 0x9c,
      0x00, 0x9d]⟩
  else if bytes = emptyArchive then
    ⟨[0xde, 0xb2, 0x30, 0xb2, 0x1e, 0x0d, 0x7e, 0xf6, 0xa0, 0xa2, 0xd6, 0x5a, 0x19, 0x59, 0x9d,
      0x42, 0x51, 0xb5, 0xf0, 0x88, 0x88, 0xa5, 0x15, 0x58, 0x82, 0xfb, 0xef, 0x2e, 0xf7, 0x1e,
      0x1e, 0x11]⟩
  else ⟨List.replicate 32 0⟩

def sampleSemver (v : DepotVersion) : SemVersion :=
  ⟨v.major, v.minor, v.patch, if v.build = 0 then "" else Nat.repr v.build, ""⟩

abbrev sampleProtocol : DepotProtocol where
  Detail := CheckedDistribution
  digestOf := sampleDigest
  toHex d := hexEncode d.asBytes
  parseDigest text := match hexDecode text with
    | some bytes => .ok ⟨bytes⟩
    | none => .error "not a SHA-256 digest"
  ruleMatches rule v := rule.text == "*" || rule.text == "=" ++ v.display
  patternMatches pattern v := pattern.text == v.display
  runsOn built host := built == host
  parseVersion text := match parseVersionChars text.toList with
    | some v => .ok v
    | none => .error "not a version"
  parseId text := match parseVersionChars ((text.toList.dropWhile (· != '-')).drop 1) with
    | some v => .ok ⟨String.ofList (text.toList.takeWhile (· != '-')), v⟩
    | none => .error "not a distribution id"
  parseSemver text := match parseVersionChars text.toList with
    | some v => if (sampleSemver v).display = text then .ok (sampleSemver v)
        else .error "not a version"
    | none => .error "not a version"
  checkDistribution detail id trusted :=
    if detail.manifest.id = id ∧ detail.keyId ∈ trusted.keys then .ok detail
    else .error "signature does not match"
  checkInclude parent i checked :=
    if checked.manifest.id = i.id ∧ checked.digest = i.manifestSha256 then .ok ()
    else .error s!"{i.id.display} is not the manifest it references ({parent.display})"
  checkRequirementsForHost _ _ _ := []

instance sampleProtocol_lawful : @LawfulDepotProtocol sampleProtocol :=
  letI := sampleProtocol
  { parseDigest_toHex := by
      intro d
      show (match hexDecode (hexEncode d.asBytes) with
        | some bytes => Except.ok (⟨bytes⟩ : Sha256Digest)
        | none => .error "not a SHA-256 digest") = .ok d
      rw [hexDecode_hexEncode]
    parseVersion_display := by
      intro v
      show (match parseVersionChars v.display.toList with
        | some v => Except.ok v
        | none => .error "not a version") = .ok v
      rw [parseVersionChars_display]
    display_parseSemver := by
      intro text m h
      have h' : (match parseVersionChars text.toList with
        | some v => if (sampleSemver v).display = text then Except.ok (sampleSemver v)
            else .error "not a version"
        | none => .error "not a version") = .ok m := h
      cases hv : parseVersionChars text.toList with
      | none => rw [hv] at h'; exact nomatch h'
      | some v =>
        rw [hv] at h'
        by_cases ht : (sampleSemver v).display = text
        · simp only [if_pos ht, Except.ok.injEq] at h'
          rw [← h']
          exact ht
        · simp only [if_neg ht] at h'
          cases h'
    checkDistribution_id := by
      intro detail id trusted checked h
      have h' : (if detail.manifest.id = id ∧ detail.keyId ∈ trusted.keys then Except.ok detail
        else .error "signature does not match") = .ok checked := h
      by_cases hc : detail.manifest.id = id ∧ detail.keyId ∈ trusted.keys
      · rw [if_pos hc] at h'
        rw [← Except.ok.inj h']
        exact hc.1
      · rw [if_neg hc] at h'
        cases h'
    checkInclude_iff := by
      intro parent i checked hid
      show (if checked.manifest.id = i.id ∧ checked.digest = i.manifestSha256 then Except.ok ()
        else .error _) = .ok () ↔ _
      by_cases hd : checked.digest = i.manifestSha256
      · simp [hid, hd]
      · simp [hd] }

end

end Fenrir
