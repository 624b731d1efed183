import Fenrir.Domain
import Fenrir.Lib.Results
import Fenrir.Lib.Text

/-! # The module verifier

`infra/modules/verifier.rs`: what a bundle from a module registry has to
show before it is staged. The keyring maps a signer to its ed25519 key,
the trust section says whether signatures are required and who may sign. -/

namespace Fenrir

/-- Functions of other crates the module layer calls: digests, signatures, encodings,
version texts. -/
class ModuleCrates where
  sha256 : Bytes → Bytes
  /-- `VerifyingKey::from_bytes`: whether 32 bytes are a point of the curve. -/
  keyFromBytes : Bytes → Except String Unit
  /-- `VerifyingKey::verify key message signature`. -/
  verify : Bytes → Bytes → Bytes → Except String Unit
  base64Decode : String → Except String Bytes
  /-- The text of the error `hex::decode` gives. -/
  hexError : String → String
  parseVersion : String → Except String SemVersion
  parseVersionReq : String → Option VersionReq
  compareVersions : SemVersion → SemVersion → Ordering
  parseTimestamp : String → Option Nat

/-- A key as the verifier keeps it: the bytes of a curve point. -/
structure VerifyingKey where
  bytes : Bytes

structure KeyringEntry where
  (id algorithm publicKey : String)

structure ModuleTrustSection where
  requireSignature : Bool
  keyringPath : Option String
  allowedSigners : List String

inductive ModuleVerifierInitError where
  | io (path source : String)
  | invalidKeyring (message : String)
  | unsupportedAlgorithm (algorithm : String)

inductive ModuleVerificationError where
  | signature (message : String)
  | checksum (message : String)
  | unsupported

structure Ed25519ModuleVerifier where
  requireSignature : Bool
  allowedSigners : Option (List String)
  keys : BTreeMap VerifyingKey

section

open Text (toAsciiLowercase trim)

variable [ModuleCrates]

section

variable (self : Ed25519ModuleVerifier)

/-- One entry of the keyring: the lower-case signer and its key. -/
def loadKey (entry : KeyringEntry) : Except ModuleVerifierInitError (String × VerifyingKey) :=
  if !Text.eqIgnoreAsciiCase entry.algorithm "ed25519" then
    .error (.unsupportedAlgorithm entry.algorithm)
  else
    match ModuleCrates.base64Decode (trim entry.publicKey) with
    | .error err => .error (.invalidKeyring s!"public key {entry.id} invalid base64: {err}")
    | .ok decoded =>
      if decoded.length ≠ 32 then
        .error (.invalidKeyring s!"public key {entry.id} must be 32 bytes")
      else
        match ModuleCrates.keyFromBytes decoded with
        | .error err => .error (.invalidKeyring s!"public key {entry.id} invalid: {err}")
        | .ok () => .ok (toAsciiLowercase entry.id, ⟨decoded⟩)

/-- `for entry in keyring.keys`: a later entry of one signer replaces an earlier one. -/
def loadKeys : List KeyringEntry → BTreeMap VerifyingKey →
    Except ModuleVerifierInitError (BTreeMap VerifyingKey)
  | [], keys => .ok keys
  | entry :: entries, keys =>
    match loadKey entry with
    | .error err => .error err
    | .ok (id, key) => loadKeys entries (keys.insert id key)

/-- `Ed25519ModuleVerifier::from_config`; `readKeyring` is the keyring file, read and parsed. -/
def Ed25519ModuleVerifier.fromConfig
    (readKeyring : String → Except ModuleVerifierInitError (List KeyringEntry))
    (config : ModuleTrustSection) : Except ModuleVerifierInitError Ed25519ModuleVerifier := do
  let keys ← match config.keyringPath with
    | none => pure ∅
    | some path => do
        let keyring ← readKeyring path
        loadKeys keyring ∅
  if config.requireSignature && keys.isEmpty then
    .error (.invalidKeyring "no verifying keys loaded but signatures are required")
  else
    pure {
      requireSignature := config.requireSignature
      allowedSigners :=
        if config.allowedSigners.isEmpty then none
        else some (config.allowedSigners.map toAsciiLowercase)
      keys }

def Ed25519ModuleVerifier.ensureAllowed (signer : String) : Except ModuleVerificationError Unit :=
  match self.allowedSigners with
  | none => .ok ()
  | some allowed =>
    if allowed.contains (toAsciiLowercase signer) then .ok ()
    else .error (.signature s!"signer {signer} is not in allowlist")

/-- The second half of `verify`, once the signer is known to be allowed. -/
def Ed25519ModuleVerifier.checkSignature (signer : String)
    (digest signature : Bytes) : Except ModuleVerificationError Unit :=
  let signerKey := toAsciiLowercase signer
  if signature.isEmpty then
    -- an unsigned bundle passes when nothing could check its signature anyway
    if !self.requireSignature then .ok ()
    else if !self.keys.contains signerKey then .ok ()
    else .error (.signature "signature is required but empty")
  else
    match self.keys[signerKey]? with
    | none =>
      if self.requireSignature then
        .error (.signature s!"missing verifying key for signer {signer}")
      else
        .error (.signature s!"signature provided but no verifying key for signer {signer}")
    | some key =>
      let len := signature.length
      if len ≠ 64 then
        .error (.signature s!"signature must be 64 bytes, got {len} bytes")
      else
        match ModuleCrates.verify key.bytes digest signature with
        | .error err => .error (.signature err)
        | .ok () => .ok ()

def Ed25519ModuleVerifier.verify (bundle : ModuleBundle) : Except ModuleVerificationError Unit :=
  let digest := ModuleCrates.sha256 bundle.archive
  if digest ≠ bundle.checksum then
    .error (.checksum s!"checksum mismatch for module {bundle.manifest.id}")
  else
    let signer := trim bundle.manifest.signature.keyId
    if bundle.manifest.signature.algorithm ≠ .ed25519 then .error .unsupported
    else do
      self.ensureAllowed signer
      self.checkSignature signer digest bundle.signature

end

/-! ## The keys of the verifier -/

def KeyringHolds (readKeyring : String → Except ModuleVerifierInitError (List KeyringEntry))
    (config : ModuleTrustSection) (signer : String) (key : VerifyingKey) : Prop :=
  ∃ path keyring entry, config.keyringPath = some path ∧ readKeyring path = .ok keyring ∧
    entry ∈ keyring ∧ loadKey entry = .ok (signer, key)

theorem loadKeys_get {ents : List KeyringEntry} {keys keys' : BTreeMap VerifyingKey}
    (h : loadKeys ents keys = .ok keys') (signer : String) :
    (∀ key, keys'[signer]? = some key →
      keys[signer]? = some key ∨ ∃ e ∈ ents, loadKey e = .ok (signer, key)) ∧
    (keys'[signer]? = none →
      keys[signer]? = none ∧ ∀ e ∈ ents, ∀ key, loadKey e ≠ .ok (signer, key)) := by
  induction ents generalizing keys with
  | nil =>
    have hk : keys = keys' := Except.ok.inj h
    subst hk
    exact ⟨fun key hkey => .inl hkey, fun hno => ⟨hno, nofun⟩⟩
  | cons e ents ih =>
    rw [loadKeys] at h
    cases hl : loadKey e with
    | error err => rw [hl] at h; cases h
    | ok p =>
      obtain ⟨id, k⟩ := p
      rw [hl] at h
      obtain ⟨hso, hno⟩ := ih h
      refine ⟨?_, ?_⟩
      · intro key hkey
        rcases hso key hkey with hin | ⟨e', he', hl'⟩
        · rw [BTreeMap.get_insert] at hin
          by_cases hid : id = signer
          · rw [if_pos hid] at hin
            refine .inr ⟨e, List.mem_cons_self, ?_⟩
            rw [hl, hid, Option.some.inj hin]
          · rw [if_neg hid] at hin
            exact .inl hin
        · exact .inr ⟨e', List.mem_cons_of_mem _ he', hl'⟩
      · intro hk
        obtain ⟨hin, hre⟩ := hno hk
        rw [BTreeMap.get_insert] at hin
        by_cases hid : id = signer
        · rw [if_pos hid] at hin
          cases hin
        · rw [if_neg hid] at hin
          refine ⟨hin, ?_⟩
          intro e' he' key hl'
          rcases List.mem_cons.mp he' with rfl | hmem
          · rw [hl] at hl'
            exact hid (Prod.mk.inj (Except.ok.inj hl')).1
          · exact hre e' hmem key hl'

/-- What a verifier made from a configuration holds: its flags, and a key exactly for
the signers the keyring has one for. -/
theorem fromConfig_spec {readKeyring : String → Except ModuleVerifierInitError (List KeyringEntry)}
    {config : ModuleTrustSection} {ver : Ed25519ModuleVerifier}
    (h : Ed25519ModuleVerifier.fromConfig readKeyring config = .ok ver) :
    ver.requireSignature = config.requireSignature ∧
    ver.allowedSigners = (if config.allowedSigners.isEmpty then none
      else some (config.allowedSigners.map toAsciiLowercase)) ∧
    (∀ signer key, ver.keys[signer]? = some key → KeyringHolds readKeyring config signer key) ∧
    (∀ signer, ver.keys[signer]? = none → ∀ key, ¬ KeyringHolds readKeyring config signer key) := by
  rw [Ed25519ModuleVerifier.fromConfig] at h
  cases hpat : config.keyringPath with
  | none =>
    rw [hpat] at h
    obtain ⟨_, hkeys, h⟩ := Results.bind_eq_ok h
    cases hkeys
    by_cases hno : (config.requireSignature && (∅ : BTreeMap VerifyingKey).isEmpty) = true
    · cases (if_pos hno).symm.trans h
    · cases (if_neg hno).symm.trans h
      refine ⟨rfl, rfl, ?_, ?_⟩
      · intro signer key hkey
        rw [Std.ExtTreeMap.getElem?_empty] at hkey
        cases hkey
      · rintro signer - key ⟨path, keyring, e, hp, -⟩
        rw [hpat] at hp
        cases hp
  | some path =>
    rw [hpat] at h
    obtain ⟨keyring, hre, h⟩ := Results.bind_eq_ok h
    obtain ⟨keys, hlo, h⟩ := Results.bind_eq_ok h
    by_cases hno : (config.requireSignature && keys.isEmpty) = true
    · cases (if_pos hno).symm.trans h
    · cases (if_neg hno).symm.trans h
      refine ⟨rfl, rfl, ?_, ?_⟩
      · intro signer key hkey
        rcases (loadKeys_get hlo signer).1 key hkey with hin | ⟨e, he, hl⟩
        · rw [Std.ExtTreeMap.getElem?_empty] at hin
          cases hin
        · exact ⟨path, keyring, e, hpat, hre, he, hl⟩
      · rintro signer hno key ⟨path', keyring', e, hp, hr, he, hl⟩
        obtain rfl : path = path' := Option.some.inj (hpat.symm.trans hp)
        obtain rfl : keyring = keyring' := Except.ok.inj (hre.symm.trans hr)
        exact ((loadKeys_get hlo signer).2 hno).2 e he key hl

/-! ## What passes -/

/-- The signer of a bundle as the keyring and the allowlist know it. -/
def ModuleBundle.signer (bundle : ModuleBundle) : String :=
  toAsciiLowercase (trim bundle.manifest.signature.keyId)

/-- A valid ed25519 signature over the archive's digest. -/
def SignedBy (bundle : ModuleBundle) (key : VerifyingKey) : Prop :=
  bundle.signature.length = 64 ∧
    ModuleCrates.verify key.bytes (ModuleCrates.sha256 bundle.archive) bundle.signature = .ok ()

omit [ModuleCrates] in
theorem ensureAllowed_ok_iff (ver : Ed25519ModuleVerifier) (signer : String) :
    ver.ensureAllowed signer = .ok () ↔ ∀ allowed, ver.allowedSigners = some allowed →
        toAsciiLowercase signer ∈ allowed := by
  rw [Ed25519ModuleVerifier.ensureAllowed]
  cases ver.allowedSigners with
  | none => exact ⟨nofun, fun _ => rfl⟩
  | some allowed =>
    constructor
    · intro h allowed' hal
      cases hal
      by_contra hmem
      simp [hmem] at h
    · intro h
      simp [h allowed rfl]

theorem checkSignature_ok_iff (ver : Ed25519ModuleVerifier) (signer : String)
    (digest signature : Bytes) : ver.checkSignature signer digest signature = .ok () ↔
      (signature = [] ∧ (ver.requireSignature = false ∨
        ver.keys[toAsciiLowercase signer]? = none)) ∨
      ∃ key, ver.keys[toAsciiLowercase signer]? = some key ∧
        signature.length = 64 ∧ ModuleCrates.verify key.bytes digest signature = .ok () := by
  generalize hk : toAsciiLowercase signer = signerKey
  simp only [Ed25519ModuleVerifier.checkSignature, hk]
  cases signature with
  | nil =>
    cases hreq : ver.requireSignature with
    | false => simp
    | true =>
      cases hkey : ver.keys[signerKey]? with
      | none | some key => simp [Std.ExtTreeMap.contains_eq_isSome_getElem?, hkey]
  | cons b rest =>
    cases hkey : ver.keys[signerKey]? with
    | none =>
      cases hreq : ver.requireSignature <;> simp
    | some key =>
      by_cases hlen : rest.length = 63
      · cases hv : ModuleCrates.verify key.bytes digest (b :: rest) with
        | error err | ok u => simp [hlen, hv]
      · simp [hlen]

/-- **WHAT PASSES.** The checksum is that of the archive, the signer may sign, and
the bundle is signed by the signer's key — or it is unsigned, and either no
signature is required or the keyring has no key of that signer. -/
theorem verify_ok_iff (ver : Ed25519ModuleVerifier) (bundle : ModuleBundle) :
    ver.verify bundle = .ok () ↔ ModuleCrates.sha256 bundle.archive = bundle.checksum ∧
      (∀ allowed, ver.allowedSigners = some allowed → bundle.signer ∈ allowed) ∧
      ((bundle.signature = [] ∧ (ver.requireSignature = false ∨ ver.keys[bundle.signer]? = none)) ∨
        ∃ key, ver.keys[bundle.signer]? = some key ∧ SignedBy bundle key) := by
  have hall := ensureAllowed_ok_iff ver (trim bundle.manifest.signature.keyId)
  have hche := checkSignature_ok_iff ver (trim bundle.manifest.signature.keyId)
    (ModuleCrates.sha256 bundle.archive) bundle.signature
  rw [Ed25519ModuleVerifier.verify]
  by_cases hsum : ModuleCrates.sha256 bundle.archive = bundle.checksum
  · have halg : bundle.manifest.signature.algorithm = .ed25519 := by
      cases bundle.manifest.signature.algorithm
      rfl
    simp only [hsum, halg, ne_eq, not_true_eq_false, if_false, true_and]
    simp only [SignedBy, hsum]
    rw [hsum] at hche
    refine Iff.trans ?_ (and_congr hall hche)
    cases ver.ensureAllowed (trim bundle.manifest.signature.keyId) with
    | error err => exact ⟨nofun, fun h => (nomatch h.1)⟩
    | ok u => exact ⟨fun h => ⟨rfl, h⟩, fun h => h.2⟩
  · simp [hsum]

end

end Fenrir
