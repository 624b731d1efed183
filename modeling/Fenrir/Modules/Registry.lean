import Fenrir.Modules.Verifier
import Fenrir.Lib.Effect

/-! # Module registries

`infra/modules/registry.rs`: where manifests and bundles come from. A
registry is a port (a manifest for an id, a bundle for a manifest) over a
state `σ` that stands for the network and the file system; whatever
answers these give is whatever the effects in `HttpClient` return. -/

namespace Fenrir

open Effect Effect.Act

inductive ModuleRegistryError where
  | unavailable (message : String)
  | notFound (module : String)
  | protocol (message : String)

/-- `ModuleRegistryPort`, the part an installation uses. -/
structure ModuleRegistryPort (σ : Type) where
  fetchManifest : String → Option SemVersion → Act σ ModuleRegistryError ModuleManifest
  downloadWithProgress : ModuleManifest → Act σ ModuleRegistryError ModuleBundle

/-- `ModuleId::new`. -/
def moduleId (value : String) : Except String String :=
  let trimmed := Text.trim value
  if trimmed.isEmpty then .error "module id must not be empty"
  else if !trimmed.toList.all (fun c => c.isLower || c.isDigit || c == '-' || c == '_') then
    .error "module id may only contain [a-z0-9-_]"
  else .ok trimmed

/-! ## A registry server -/

/-- `ModuleInfo` of a server's answer. -/
structure RegistryModuleInfo where
  (id name : String)
  (description author : Option String)

/-- `VersionInfo` of a server's answer. -/
structure RegistryVersionInfo where
  version : String
  (fenrirMinVersion fenrirMaxVersion : Option String)
  (downloadUrl checksum : String)
  signature : Option String
  releasedAt : Int

structure RegistryModule where
  module : RegistryModuleInfo
  versions : List RegistryVersionInfo

/-- What a server sent back: the status, the body read as a module record, the
body read as a stream of chunks. -/
structure HttpResponse where
  status : Nat
  json : Except String RegistryModule
  chunks : List (Except String Bytes)

def HttpResponse.isSuccess (r : HttpResponse) : Bool := 200 ≤ r.status && r.status < 300

/-- `reqwest::Client` and `Url`, as the registry uses them. -/
structure HttpClient (σ : Type) where
  get : String → Act σ String HttpResponse
  parseUrl : String → Except String Unit
  join : String → String → Except String String

structure HttpModuleRegistry (σ : Type) where
  baseUrl : String
  client : HttpClient σ

def defaultContentType : String := "application/gzip"

section

variable [ModuleCrates] {σ : Type}

section

variable (self : HttpModuleRegistry σ)

def HttpModuleRegistry.resolveUrl (url : String) : Except ModuleRegistryError String :=
  if url.startsWith "http://" || url.startsWith "https://" then .ok url
  else
    match self.client.parseUrl self.baseUrl with
    | .error err => .error (.unavailable s!"Invalid registry base URL: {err}")
    | .ok () =>
      match self.client.join self.baseUrl url with
      | .error err =>
        .error (.protocol s!"Failed to resolve download URL '{url}': {err}")
      | .ok joined => .ok joined

def parseFenrirVersionReq : Option String → Option String → Option VersionReq
  | some minV, some maxV => ModuleCrates.parseVersionReq s!">={minV}, <{maxV}"
  | some minV, none => ModuleCrates.parseVersionReq s!">={minV}"
  | none, some maxV => ModuleCrates.parseVersionReq s!"<{maxV}"
  | none, none => none

/-- The version a manifest is wanted for: the requested one, else the first listed. -/
def RegistryModule.target (module : RegistryModule) (id : String) :
    Option SemVersion → Except ModuleRegistryError RegistryVersionInfo
  | some requested =>
    match module.versions.find? (·.version == requested.display) with
    | some version => .ok version
    | none => .error (.notFound (id ++ " v" ++ requested.display))
  | none =>
    match module.versions with
    | version :: _ => .ok version
    | [] => .error (.protocol s!"Module {id} has no published versions")

/-- The manifest made from a server's record. The signer is the record's author. -/
def registryManifest (module : RegistryModuleInfo) (target : RegistryVersionInfo)
    (version : SemVersion) : ModuleManifest where
  id := module.id
  version := version
  title := some module.name
  description := module.description
  fenrirVersion := parseFenrirVersionReq target.fenrirMinVersion target.fenrirMaxVersion
  authors := module.author.toList
  license := none
  artifact :=
    { downloadUrl := target.downloadUrl
      checksum := ⟨.sha256, target.checksum⟩
      contentType := some defaultContentType
      sizeBytes := none }
  signature :=
    { algorithm := .ed25519
      keyId := module.author.getD "module-registry"
      signature := target.signature.getD "" }
  dependencies := []
  tags := []
  publishedAt := if target.releasedAt ≥ 0 then some target.releasedAt.toNat else none

/-- `HttpModuleRegistry::fetch_manifest`. The characters of a module id are left
alone by `urlencoding::encode`. -/
def HttpModuleRegistry.fetchManifest (id : String)
    (version : Option SemVersion) : Act σ ModuleRegistryError ModuleManifest := do
  let base := String.ofList (self.baseUrl.toList.reverse.dropWhile (· == '/')).reverse
  let response ← mapErr (fun err => .unavailable s!"Failed to fetch module: {err}")
    (self.client.get s!"{base}/v1/modules/{id}")
  if response.status == 404 then fail (.notFound id)
  else if !response.isSuccess then
    fail (.unavailable s!"Registry returned status: {response.status}")
  else
    match response.json with
    | .error err => fail (.protocol s!"Failed to parse module payload: {err}")
    | .ok module => do
        let target ← lift (module.target id version)
        match ModuleCrates.parseVersion target.version with
        | .error err => fail (.protocol s!"Invalid version string: {err}")
        | .ok parsed => pure (registryManifest module.module target parsed)

/-- The body of a response, chunk by chunk; the first broken chunk stops the download. -/
def readChunks : List (Except String Bytes) → Except ModuleRegistryError Bytes
  | [] => .ok []
  | .error err :: _ => .error (.unavailable s!"Failed to read chunk: {err}")
  | .ok chunk :: rest =>
    match readChunks rest with
    | .error err => .error err
    | .ok more => .ok (chunk ++ more)

/-- The bundle of a manifest whose archive has arrived with the right digest. -/
def packBundle (encodingError : String → String) (manifest : ModuleManifest)
    (archive checksum : Bytes) : Except ModuleRegistryError ModuleBundle :=
  if manifest.signature.signature.isEmpty then .ok ⟨manifest, archive, [], checksum⟩
  else
    match ModuleCrates.base64Decode manifest.signature.signature with
    | .error err => .error (.protocol (encodingError err))
    | .ok signature => .ok ⟨manifest, archive, signature, checksum⟩

/-- One round of the loop up to the digests: the archive and the checksum expected. -/
def HttpModuleRegistry.downloadArchive (manifest : ModuleManifest) :
    Act σ ModuleRegistryError (Bytes × Bytes) := do
  let url ← lift (self.resolveUrl manifest.artifact.downloadUrl)
  let response ← mapErr (fun err => .unavailable s!"Failed to download artifact: {err}")
    (self.client.get url)
  if !response.isSuccess then
    fail (.unavailable s!"Download failed with status: {response.status}")
  else do
    let archive ← lift (readChunks response.chunks)
    match hexDecode manifest.artifact.checksum.hash with
    | none =>
      let err := ModuleCrates.hexError manifest.artifact.checksum.hash
      fail (.protocol s!"Invalid checksum encoding: {err}")
    | some expected => pure (archive, expected)

/-- The manifest the loop goes on with after a mismatch that a retry did not cure:
fetched again, and only if its checksum or its address is another one. -/
def HttpModuleRegistry.refreshManifest (current : ModuleManifest) :
    Act σ ModuleRegistryError (Option ModuleManifest) :=
  match moduleId current.id with
  | .error _ => pure none
  | .ok id => do
      match ← attempt (self.fetchManifest id (some current.version)) with
      | .error _ => pure none
      | .ok fresh =>
        if fresh.artifact.checksum.hash ≠ current.artifact.checksum.hash
            ∨ fresh.artifact.downloadUrl ≠ current.artifact.downloadUrl then
          pure (some fresh)
        else pure none

/-- The loop of `download_with_refresh`. Every `continue` sets a flag that was not
set, so three rounds are all it can take (`downloadLoop_rounds`). -/
def HttpModuleRegistry.downloadLoop (self : HttpModuleRegistry σ) (allowRefresh : Bool) :
    Nat → Bool → Bool → ModuleManifest → Act σ ModuleRegistryError ModuleBundle
  | 0, _, _, _ => fail (.protocol "Downloaded artifact checksum mismatch")
  | rounds + 1, retriedSame, refreshedManifest, current => do
      let (archive, expected) ← self.downloadArchive current
      if ModuleCrates.sha256 archive ≠ expected then
        if allowRefresh && !retriedSame then
          self.downloadLoop allowRefresh rounds true refreshedManifest current
        else if allowRefresh && !refreshedManifest then do
          match ← self.refreshManifest current with
          | some fresh => self.downloadLoop allowRefresh rounds true true fresh
          | none => fail (.protocol "Downloaded artifact checksum mismatch")
        else fail (.protocol "Downloaded artifact checksum mismatch")
      else
        lift (packBundle (fun err => s!"Invalid signature encoding: {err}")
          current archive expected)

def HttpModuleRegistry.downloadWithRefresh (manifest : ModuleManifest) (allowRefresh : Bool) :
    Act σ ModuleRegistryError ModuleBundle :=
  self.downloadLoop allowRefresh 3 false false manifest

def httpModuleRegistry : ModuleRegistryPort σ where
  fetchManifest := self.fetchManifest
  downloadWithProgress := fun manifest => self.downloadWithRefresh manifest true

end

/-! ## Several sources -/

/-- Ask the sources in turn; only "not found" moves on to the next one. -/
def firstFound {α : Type} (missing : String) :
    List (Act σ ModuleRegistryError α) → Act σ ModuleRegistryError α
  | [] => fail (.notFound missing)
  | ask :: sources => do
      match ← attempt ask with
      | .ok a => pure a
      | .error (.notFound _) => firstFound missing sources
      | .error err => fail err

def compositeModuleRegistry (sources : List (ModuleRegistryPort σ)) : ModuleRegistryPort σ where
  fetchManifest := fun id version => firstFound id (sources.map (·.fetchManifest id version))
  downloadWithProgress := fun manifest =>
    firstFound manifest.id (sources.map (·.downloadWithProgress manifest))

/-! ## The download loop ends -/

/-- The rounds a download can still take: one, and one more for each flag not set. -/
def roundsLeft (retriedSame refreshedManifest : Bool) : Nat :=
  1 + (!retriedSame).toNat + (!refreshedManifest).toNat

/-- The bound of the loop is never what stops it: any larger one gives the same run. -/
theorem downloadLoop_rounds (self : HttpModuleRegistry σ) (allow : Bool) :
    ∀ (n m : Nat) (same refreshedManifest : Bool) (current : ModuleManifest),
      roundsLeft same refreshedManifest ≤ n →
      roundsLeft same refreshedManifest ≤ m →
      self.downloadLoop allow n same refreshedManifest current =
        self.downloadLoop allow m same refreshedManifest current := by
  intro n
  induction n with
  | zero =>
    intro m same refreshedManifest current hn
    simp [roundsLeft] at hn
  | succ n ih =>
    intro m same refreshedManifest current hn hm
    cases m with
    | zero => simp [roundsLeft] at hm
    | succ m =>
      -- a round that goes on sets a flag, so its successor is below the bound
      have hgo : ∀ flag, roundsLeft true flag < roundsLeft same refreshedManifest →
          self.downloadLoop allow n true flag = self.downloadLoop allow m true flag := by
        intro flag hlt
        funext fresh
        exact ih m true flag fresh (by omega) (by omega)
      cases same with
      | false =>
        cases refreshedManifest with
        | false =>
          simp only [HttpModuleRegistry.downloadLoop, hgo false (by decide), hgo true (by decide)]
        | true =>
          simp only [HttpModuleRegistry.downloadLoop, hgo true (by decide), Bool.not_true,
            Bool.and_false, Bool.false_eq_true, if_false]
      | true =>
        cases refreshedManifest with
        | false =>
          simp only [HttpModuleRegistry.downloadLoop, hgo true (by decide), Bool.not_true,
            Bool.and_false, Bool.false_eq_true, if_false]
        | true =>
          simp only [HttpModuleRegistry.downloadLoop, Bool.not_true,
            Bool.and_false, Bool.false_eq_true, if_false]

end

end Fenrir
