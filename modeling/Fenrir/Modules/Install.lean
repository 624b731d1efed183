import Fenrir.Modules.Registry

/-! # Installing a module from a registry

`ModuleService::install_internal`: fetch the manifest, download the bundle,
verify it, stage it. Everything around that (the installed module, dev
overrides, processes, service status) is an effect on the host's state `σ`;
which bundles reached `stage_and_activate` is recorded beside it. -/

namespace Fenrir.Modules

open Effect Effect.Act

inductive ModuleStorageError where
  | unavailable (message : String)
  | io (message : String)
  | invalidState (message : String)

inductive ModuleServiceError where
  | registry (err : ModuleRegistryError)
  | storage (err : ModuleStorageError)
  | verification (err : ModuleVerificationError)

inductive ModuleInstallStatus where
  | installed | updated | alreadyCurrent
  deriving DecidableEq

structure ModuleInstallResult where
  status : ModuleInstallStatus
  manifest : ModuleManifest
  path : String
  source : ModuleInstallSource

structure InstalledModule where
  manifest : ModuleManifest
  path : String
  source : ModuleInstallSource

/-- The parts of `ModuleService` an installation calls, over the host's state. -/
structure InstallPorts (σ : Type) where
  registry : ModuleRegistryPort σ
  load : String → Act σ ModuleStorageError (Option InstalledModule)
  stageAndActivate : ModuleBundle → ModuleInstallSource →
    Act σ ModuleStorageError ModuleInstallResult
  isDevOverrideActive : String → σ → Bool
  clearDevServicesIfAny : String → σ → σ
  clearDeclaredServicesIfAny : String → σ → σ
  registerDeclaredServices : String → InstalledModule → σ → σ
  stopModuleProcess : String → σ → σ
  updateModuleServiceStatus : String → ModuleManifest → ServiceStatus → String → σ → σ
  /-- The text of the error when it fails. -/
  ensureRunning : String → Act σ String Unit

/-- The host's state, and the bundles handed to `stage_and_activate` so far. -/
structure Installing (σ : Type) where
  host : σ
  staged : List ModuleBundle

section

variable {σ : Type}

/-- An effect of the host, none of which stages a bundle. -/
def onHost {ε α : Type} (x : Act σ ε α) : Act (Installing σ) ε α := fun s =>
  ((x s.host).1, { s with host := (x s.host).2 })

def hostModify {ε : Type} (f : σ → σ) : Act (Installing σ) ε Unit :=
  modify fun s => { s with host := f s.host }

/-- `self.storage.stage_and_activate(bundle, source)`. -/
def stage (ports : InstallPorts σ) (bundle : ModuleBundle) (source : ModuleInstallSource) :
    Act (Installing σ) ModuleServiceError ModuleInstallResult := do
  modify fun s => { s with staged := s.staged ++ [bundle] }
  mapErr .storage (onHost (ports.stageAndActivate bundle source))

/-- What follows a staged bundle unless dev overrides are preserved. -/
def startInstalled (ports : InstallPorts σ) (wasInstalled : Bool) (manifest : ModuleManifest) :
    Act (Installing σ) ModuleServiceError Unit :=
  match moduleId manifest.id with
  | .error _ => pure ()
  | .ok id => do
      when (!wasInstalled) (hostModify (ports.stopModuleProcess id))
      hostModify (ports.updateModuleServiceStatus id manifest .standby "installed")
      let active ← read fun s => ports.isDevOverrideActive id s.host
      when (!active) do
        match ← attempt (onHost (ports.ensureRunning id)) with
        | .ok () => pure ()
        | .error err =>
          hostModify (ports.updateModuleServiceStatus id manifest .degraded
            s!"start failed: {err}")

variable [ModuleCrates]

/-- The second half of `install_internal`: download, verify, stage, start. -/
def downloadAndStage (ports : InstallPorts σ) (verifier : Ed25519ModuleVerifier)
    (manifest : ModuleManifest) (shouldPreserve wasInstalled : Bool) :
    Act (Installing σ) ModuleServiceError ModuleInstallResult := do
  let bundle ← mapErr .registry (onHost (ports.registry.downloadWithProgress manifest))
  lift ((verifier.verify bundle).mapError .verification)
  let result ← stage ports bundle .distribution
  when (!shouldPreserve) (startInstalled ports wasInstalled result.manifest)
  pure result

def installInternal (ports : InstallPorts σ) (verifier : Ed25519ModuleVerifier) (id : String)
    (version : Option SemVersion) (preserveDevOverrides : Bool) :
    Act (Installing σ) ModuleServiceError ModuleInstallResult := do
  let manifest ← mapErr .registry (onHost (ports.registry.fetchManifest id version))
  let shouldPreserve ← read fun s =>
    preserveDevOverrides || ports.isDevOverrideActive id s.host
  when (!shouldPreserve) do
    hostModify (ports.clearDevServicesIfAny id)
    hostModify (ports.clearDeclaredServicesIfAny id)
  match ← mapErr .storage (onHost (ports.load id)) with
  | none => downloadAndStage ports verifier manifest shouldPreserve false
  | some installed => do
      if installed.manifest.version = manifest.version then do
        hostModify (ports.registerDeclaredServices id installed)
        pure {
          status := .alreadyCurrent
          manifest := installed.manifest
          path := installed.path
          source := installed.source }
      else do
        hostModify (ports.stopModuleProcess id)
        downloadAndStage ports verifier manifest shouldPreserve true

/-! ## What is staged has been verified -/

/-- Since `s`, only bundles with `P` have been staged. -/
def StagedOnly (P : ModuleBundle → Prop) (s s' : Installing σ) : Prop :=
  ∃ reached, s'.staged = s.staged ++ reached ∧ ∀ bundle ∈ reached, P bundle

omit [ModuleCrates] in
theorem StagedOnly.refl (P : ModuleBundle → Prop) (s : Installing σ) : StagedOnly P s s :=
  ⟨[], (List.append_nil _).symm, nofun⟩

omit [ModuleCrates] in
theorem StagedOnly.trans {P : ModuleBundle → Prop} (s1 s2 s3 : Installing σ)
    (h1 : StagedOnly P s1 s2) (h2 : StagedOnly P s2 s3) : StagedOnly P s1 s3 := by
  obtain ⟨l1, he1, hp1⟩ := h1
  obtain ⟨l2, he2, hp2⟩ := h2
  refine ⟨l1 ++ l2, by rw [he2, he1, List.append_assoc], ?_⟩
  intro bundle hmem
  rcases List.mem_append.mp hmem with hb | hb
  · exact hp1 bundle hb
  · exact hp2 bundle hb

omit [ModuleCrates] in
theorem onHost_staged {ε α : Type} (P : ModuleBundle → Prop) (x : Act σ ε α) :
    Keeps (StagedOnly P) (onHost x) :=
  fun _ => ⟨[], (List.append_nil _).symm, nofun⟩

omit [ModuleCrates] in
theorem hostModify_staged {ε : Type} (P : ModuleBundle → Prop) (f : σ → σ) :
    Keeps (StagedOnly P) (hostModify f : Act (Installing σ) ε Unit) :=
  fun _ => ⟨[], (List.append_nil _).symm, nofun⟩

omit [ModuleCrates] in
theorem stage_staged {P : ModuleBundle → Prop} (ports : InstallPorts σ) {bundle : ModuleBundle}
    (source : ModuleInstallSource) (hb : P bundle) :
    Keeps (StagedOnly P) (stage ports bundle source) := by
  refine keeps_bind StagedOnly.trans ?_ (fun _ => keeps_mapErr (onHost_staged P _))
  intro s
  refine ⟨[bundle], rfl, ?_⟩
  intro b hmem
  rw [List.mem_singleton.mp hmem]
  exact hb

omit [ModuleCrates] in
theorem startInstalled_staged (P : ModuleBundle → Prop) (ports : InstallPorts σ)
    (wasInstalled : Bool) (manifest : ModuleManifest) :
    Keeps (StagedOnly P) (startInstalled ports wasInstalled manifest) := by
  rw [startInstalled]
  cases moduleId manifest.id with
  | error err => exact keeps_pure (StagedOnly.refl P) _
  | ok id =>
    refine keeps_bind StagedOnly.trans
      (keeps_when (StagedOnly.refl P) _ (hostModify_staged P _)) (fun _ => ?_)
    refine keeps_bind StagedOnly.trans (hostModify_staged P _) (fun _ => ?_)
    refine keeps_bind StagedOnly.trans (keeps_read (StagedOnly.refl P) _) (fun active => ?_)
    refine keeps_when (StagedOnly.refl P) _ ?_
    refine keeps_bind StagedOnly.trans (keeps_attempt (onHost_staged P _)) (fun started => ?_)
    cases started with
    | ok u => exact keeps_pure (StagedOnly.refl P) _
    | error err => exact hostModify_staged P _

theorem downloadAndStage_staged (ports : InstallPorts σ) (ver : Ed25519ModuleVerifier)
    (manifest : ModuleManifest) (shouldPreserve wasInstalled : Bool) :
    Keeps (StagedOnly fun bundle => ver.verify bundle = .ok ())
      (downloadAndStage ports ver manifest shouldPreserve wasInstalled) := by
  refine keeps_bind StagedOnly.trans (keeps_mapErr (onHost_staged _ _)) (fun bundle => ?_)
  cases hv : ver.verify bundle with
  | error err =>
    intro s
    exact StagedOnly.refl _ s
  | ok u =>
    refine keeps_bind StagedOnly.trans (keeps_lift (StagedOnly.refl _) _) (fun _ => ?_)
    refine keeps_bind StagedOnly.trans (stage_staged ports .distribution hv) (fun result => ?_)
    refine keeps_bind StagedOnly.trans ?_ (fun _ => keeps_pure (StagedOnly.refl _) _)
    exact keeps_when (StagedOnly.refl _) _ (startInstalled_staged _ ports wasInstalled _)

theorem installInternal_staged (ports : InstallPorts σ) (ver : Ed25519ModuleVerifier)
    (id : String) (version : Option SemVersion) (preserveDevOverrides : Bool) :
    Keeps (StagedOnly fun bundle => ver.verify bundle = .ok ())
      (installInternal ports ver id version preserveDevOverrides) := by
  refine keeps_bind StagedOnly.trans (keeps_mapErr (onHost_staged _ _)) (fun manifest => ?_)
  refine keeps_bind StagedOnly.trans (keeps_read (StagedOnly.refl _) _) (fun shouldPreserve => ?_)
  refine keeps_bind StagedOnly.trans (keeps_when (StagedOnly.refl _) _ ?_) (fun _ => ?_)
  · exact keeps_bind StagedOnly.trans (hostModify_staged _ _) (fun _ => hostModify_staged _ _)
  refine keeps_bind StagedOnly.trans (keeps_mapErr (onHost_staged _ _)) (fun installed => ?_)
  cases installed with
  | none => exact downloadAndStage_staged ports ver manifest shouldPreserve false
  | some installed =>
    dsimp only
    split
    · exact keeps_bind StagedOnly.trans (hostModify_staged _ _)
        (fun _ => keeps_pure (StagedOnly.refl _) _)
    · exact keeps_bind StagedOnly.trans (hostModify_staged _ _)
        (fun _ => downloadAndStage_staged ports ver manifest shouldPreserve true)

/-- The archive is the one the checksum names, its signer may sign, and it is signed by
the keyring's key of that signer; only a signer without any key may go unsigned. -/
def Trusted (readKeyring : String → Except ModuleVerifierInitError (List KeyringEntry))
    (config : ModuleTrustSection) (bundle : ModuleBundle) : Prop :=
  ModuleCrates.sha256 bundle.archive = bundle.checksum ∧
  (config.allowedSigners ≠ [] → bundle.signer ∈ config.allowedSigners.map Text.toAsciiLowercase) ∧
  ((bundle.signature = [] ∧ ∀ key, ¬ KeyringHolds readKeyring config bundle.signer key) ∨
    ∃ key, KeyringHolds readKeyring config bundle.signer key ∧ SignedBy bundle key)

/-- **REQUIRED SIGNATURES.** Whatever the registries are and answer, every bundle an
installation stages is trusted. -/
theorem installInternal_trusted
    {readKeyring : String → Except ModuleVerifierInitError (List KeyringEntry)}
    {config : ModuleTrustSection} {verifier : Ed25519ModuleVerifier}
    (hconfig : Ed25519ModuleVerifier.fromConfig readKeyring config = .ok verifier)
    (hrequire : config.requireSignature = true) (ports : InstallPorts σ) (id : String)
    (version : Option SemVersion) (preserveDevOverrides : Bool) (s : Installing σ) :
    StagedOnly (Trusted readKeyring config) s
      (installInternal ports verifier id version preserveDevOverrides s).2 := by
  obtain ⟨reached, hsta, hver⟩ :=
    installInternal_staged ports verifier id version preserveDevOverrides s
  refine ⟨reached, hsta, ?_⟩
  intro bundle hmem
  obtain ⟨hreq, hall, hkey, hnok⟩ := fromConfig_spec hconfig
  obtain ⟨hsum, hsigne, hsig⟩ := (verify_ok_iff verifier bundle).mp (hver bundle hmem)
  refine ⟨hsum, ?_, ?_⟩
  · intro hne
    exact hsigne _ (by rw [hall, if_neg (by simpa using hne)])
  · rcases hsig with ⟨hemp, hoff | hno⟩ | ⟨key, hget, hsi⟩
    · rw [hreq, hrequire] at hoff
      cases hoff
    · exact .inl ⟨hemp, hnok _ hno⟩
    · exact .inr ⟨key, hkey _ key hget, hsi⟩

end

/-! ## An unsigned bundle of an allowed signer without a key -/

def emptyDigest : String := "e3b0c44298fc1c149afbf4c8996fb92427ae41e4649b934ca495991b7852b855"

def sampleKey : Bytes :=
  [0xd7, 0x5a, 0x98, 0x01, 0x82, 0xb1, 0x0a, 0xb7, 0xd5, 0x4b, 0xfe, 0xd3, 0xc9, 0x64, 0x07, 0x3a,
    0x0e, 0xe1, 0x72, 0xf3, 0xda, 0xa6, 0x23, 0x25, 0xaf, 0x02, 0x1a, 0x68, 0xf7, 0x07, 0x51, 0x1a]

abbrev sampleCrates : ModuleCrates where
  sha256 := fun bytes => if bytes = [] then (hexDecode emptyDigest).getD [] else []
  keyFromBytes := fun bytes => if bytes = sampleKey then .ok () else .error "not a point"
  verify := fun _ _ _ => .error "signature error"
  base64Decode := fun text =>
    if text = "11qYAYKxCrfVS/7TyWQHOg7hcvPapiMlrwIaaPcHURo=" then .ok sampleKey
    else .error "Invalid symbol"
  hexError := fun _ => "Odd number of digits"
  parseVersion := fun text =>
    if text = "1.0.0" then .ok ⟨1, 0, 0, "", ""⟩ else .error "unexpected character"
  parseVersionReq := fun _ => none
  compareVersions := fun _ _ => .eq
  parseTimestamp := fun _ => none

/-- Signatures are required; `fenrir` has a key, `acme` is allowed to sign without one. -/
def sampleTrust : ModuleTrustSection where
  requireSignature := true
  keyringPath := some "/etc/fenrir/keyring.json"
  allowedSigners := ["fenrir", "acme"]

def sampleKeyring (_path : String) : Except ModuleVerifierInitError (List KeyringEntry) :=
  .ok [⟨"fenrir", "ed25519", "11qYAYKxCrfVS/7TyWQHOg7hcvPapiMlrwIaaPcHURo="⟩]

/-- A server whose only module is by `acme` and carries no signature. -/
def sampleServer : HttpModuleRegistry Unit where
  baseUrl := "https://modules.example"
  client :=
    { get := fun url =>
        if url = "https://modules.example/v1/modules/notes" then
          pure ⟨200, .ok ⟨⟨"notes", "Notes", none, some "acme"⟩,
            [⟨"1.0.0", none, none, "https://modules.example/notes.tar.gz", emptyDigest, none, 0⟩]⟩,
            []⟩
        else pure ⟨200, .error "expected value", []⟩
      parseUrl := fun _ => .ok ()
      join := fun _ url => .ok url }

def samplePorts [ModuleCrates] : InstallPorts Unit where
  registry := compositeModuleRegistry [httpModuleRegistry sampleServer]
  load := fun _ => pure none
  stageAndActivate := fun bundle source =>
    pure ⟨.installed, bundle.manifest, "/var/lib/fenrir/modules/notes", source⟩
  isDevOverrideActive := fun _ _ => false
  clearDevServicesIfAny := fun _ s => s
  clearDeclaredServicesIfAny := fun _ s => s
  registerDeclaredServices := fun _ _ s => s
  stopModuleProcess := fun _ s => s
  updateModuleServiceStatus := fun _ _ _ _ s => s
  ensureRunning := fun _ => pure ()

def sampleVerifier : Ed25519ModuleVerifier where
  requireSignature := true
  allowedSigners := some ["fenrir", "acme"]
  keys := (∅ : BTreeMap VerifyingKey).insert "fenrir" ⟨sampleKey⟩

theorem sampleVerifier_fromConfig :
    let _ := sampleCrates
    Ed25519ModuleVerifier.fromConfig sampleKeyring sampleTrust = .ok sampleVerifier := by
  rfl

theorem installInternal_trusted_notes :
    let _ := sampleCrates
    StagedOnly (Trusted sampleKeyring sampleTrust) (⟨(), []⟩ : Installing Unit)
      (installInternal samplePorts sampleVerifier "notes" none false ⟨(), []⟩).2 := by
  intro _
  exact installInternal_trusted sampleVerifier_fromConfig rfl samplePorts "notes" none false _

/-- Signatures are required and there is a keyring, yet a bundle that no key of the
keyring has signed is staged. -/
theorem unsigned_bundle_staged :
    let _ := sampleCrates
    sampleTrust.requireSignature = true ∧
    Ed25519ModuleVerifier.fromConfig sampleKeyring sampleTrust = .ok sampleVerifier ∧
    ∃ bundle ∈ (installInternal samplePorts sampleVerifier "notes" none false ⟨(), []⟩).2.staged,
      ¬ ∃ signer key, KeyringHolds sampleKeyring sampleTrust signer key ∧ SignedBy bundle key := by
  intro _
  refine ⟨rfl, sampleVerifier_fromConfig, ?_⟩
  have hrun : ((installInternal samplePorts sampleVerifier "notes" none false ⟨(), []⟩).2.staged.map
      ModuleBundle.signature) = [[]] := by
    decide +kernel
  obtain ⟨bundle, hmem, hsig⟩ := List.mem_map.mp (hrun ▸ List.mem_cons_self)
  refine ⟨bundle, hmem, ?_⟩
  rintro ⟨signer, key, -, hlen, -⟩
  rw [hsig] at hlen
  cases hlen

end Fenrir.Modules
