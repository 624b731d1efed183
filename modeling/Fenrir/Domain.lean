import Mathlib

/-! # Modules as the host knows them

`domain/module`: a module manifest, a module bundle, where an installed
module came from. Both install paths (module registry and depot) hand a
`ModuleBundle` to the module storage, so both models share these types. -/

namespace Fenrir

abbrev Bytes := List UInt8

/-- `BTreeMap<String, V>`: a finite map iterated in key order. -/
abbrev BTreeMap (V : Type) := Std.ExtTreeMap String V

@[simp] theorem BTreeMap.get_insert {V : Type} (m : BTreeMap V) (k a : String) (v : V) :
    (m.insert k v)[a]? = if k = a then some v else m[a]? := by
  simp [Std.ExtTreeMap.getElem?_insert]

@[simp] theorem BTreeMap.get_erase {V : Type} (m : BTreeMap V) (k a : String) :
    (m.erase k)[a]? = if k = a then none else m[a]? := by
  simp [Std.ExtTreeMap.getElem?_erase]

theorem BTreeMap.forall_insert {V : Type} {m : BTreeMap V} {P : String → V → Prop} {k : String}
    {v : V} (hnew : P k v) (hold : ∀ a w, m[a]? = some w → P a w) :
    ∀ a w, (m.insert k v)[a]? = some w → P a w := by
  intro a w h
  rw [get_insert] at h
  split at h
  · rename_i ha
    rw [← ha, ← Option.some.inj h]
    exact hnew
  · exact hold a w h

theorem BTreeMap.get_of_erase {V : Type} {m : BTreeMap V} {k a : String} {v : V}
    (h : (m.erase k)[a]? = some v) : m[a]? = some v := by
  rw [get_erase] at h
  split at h
  · cases h
  · exact h

theorem BTreeMap.ofList_get_iff {V : Type} {l : List (String × V)}
    (hl : (l.map Prod.fst).Nodup) (k : String) (v : V) :
    (Std.ExtTreeMap.ofList l : BTreeMap V)[k]? = some v ↔ (k, v) ∈ l := by
  have hpa : l.Pairwise (fun a b => ¬ compare a.1 b.1 = .eq) := by
    have h0 : l.Pairwise (fun a b => a.1 ≠ b.1) := List.pairwise_map.mp hl
    exact h0.imp (fun hab hc => hab (by simpa using hc))
  constructor
  · intro h
    by_cases hk : k ∈ l.map Prod.fst
    · obtain ⟨⟨k', v'⟩, hmem, rfl⟩ := List.mem_map.mp hk
      have hget : (Std.ExtTreeMap.ofList l : BTreeMap V)[k']? = some v' :=
        Std.ExtTreeMap.getElem?_ofList_of_mem (by simp) hpa hmem
      have hv : some v' = some v := hget.symm.trans h
      cases hv
      exact hmem
    · have hno : (Std.ExtTreeMap.ofList l : BTreeMap V)[k]? = none :=
        Std.ExtTreeMap.getElem?_ofList_of_contains_eq_false (by simpa using hk)
      rw [hno] at h
      cases h
  · intro hmem
    exact Std.ExtTreeMap.getElem?_ofList_of_mem (by simp) hpa hmem

theorem BTreeMap.toList_keys_nodup {V : Type} (m : BTreeMap V) : (m.toList.map Prod.fst).Nodup := by
  rw [List.Nodup, List.pairwise_map]
  refine Std.ExtTreeMap.distinct_keys_toList.imp ?_
  intro a b hab heq
  exact hab (by rw [heq]; simp)

/-- `semver::Version`. -/
structure SemVersion where
  (major minor patch : Nat)
  (pre build : String)
  deriving DecidableEq

inductive ComparatorOp where
  | exact | greater | greaterEq | less | lessEq | tilde | caret | wildcard
  deriving DecidableEq

structure Comparator where
  op : ComparatorOp
  major : Nat
  (minor patch : Option Nat)
  pre : String
  deriving DecidableEq

structure VersionReq where
  comparators : List Comparator
  deriving DecidableEq

/-- `Display for semver::Version`: `X.Y.Z`, then `-pre` and `+build` if present. -/
def SemVersion.display (v : SemVersion) : String :=
  s!"{v.major}.{v.minor}.{v.patch}"
    ++ (if v.pre = "" then "" else "-" ++ v.pre)
    ++ (if v.build = "" then "" else "+" ++ v.build)

inductive ChecksumAlgorithm where
  | sha256
  deriving DecidableEq

structure ModuleChecksum where
  algorithm : ChecksumAlgorithm
  hash : String
  deriving DecidableEq

structure ModuleArtifactDescriptor where
  downloadUrl : String
  checksum : ModuleChecksum
  contentType : Option String
  sizeBytes : Option Nat
  deriving DecidableEq

inductive SignatureAlgorithm where
  | ed25519
  deriving DecidableEq

structure ModuleSignatureDescriptor where
  algorithm : SignatureAlgorithm
  (keyId signature : String)
  deriving DecidableEq

structure ModuleDependencySpec where
  id : String
  version : Option VersionReq
  required : Bool
  deriving DecidableEq

inductive ModuleDependency where
  | id (id : String)
  | spec (spec : ModuleDependencySpec)
  deriving DecidableEq

structure ModuleManifest where
  id : String
  version : SemVersion
  (title description : Option String)
  fenrirVersion : Option VersionReq
  authors : List String
  license : Option String
  artifact : ModuleArtifactDescriptor
  signature : ModuleSignatureDescriptor
  dependencies : List ModuleDependency
  tags : List String
  publishedAt : Option Nat
  deriving DecidableEq

structure ModuleBundle where
  manifest : ModuleManifest
  (archive signature checksum : Bytes)

inductive ModuleInstallSource where
  | distribution | localOverride

def ModuleInstallSource.isSynchronized : ModuleInstallSource → Bool
  | .distribution => false
  | .localOverride => true

inductive ServiceStatus where
  | starting | active | degraded | failed | standby | stopped
  deriving DecidableEq

/-- `ModuleRuntimeError`: what the module runtime and the services over it report. -/
inductive ModuleRuntimeError where
  | notInstalled (moduleId : String)
  | alreadyRunning (moduleId : String)
  | notRunning (moduleId : String)
  | startFailed (moduleId reason : String)
  | stopFailed (moduleId reason : String)
  | portInUse (port : Nat)
  | noAvailablePorts (rangeStart rangeEnd : Nat)
  | io (message : String)
  | invalidState (message : String)
  | envUnavailable (moduleId : String)
  | quarantined (moduleId : String) (resumeAt : Int)
  deriving DecidableEq

/-! ## Hexadecimal text

Digests are exchanged as lower-case hex (`hex::encode`, `to_hex`) and read
back case-insensitively (`hex::decode`, `parse`). -/

def hexDigit (n : Nat) : Char :=
  if n < 10 then Char.ofNat (48 + n) else Char.ofNat (87 + n)

def hexValue (c : Char) : Option Nat :=
  if '0' ≤ c ∧ c ≤ '9' then some (c.toNat - 48)
  else if 'a' ≤ c ∧ c ≤ 'f' then some (c.toNat - 87)
  else if 'A' ≤ c ∧ c ≤ 'F' then some (c.toNat - 55)
  else none

/-- The two digits of a byte, high half first. -/
def hexByte (b : UInt8) : List Char :=
  [hexDigit (b.toNat / 16), hexDigit (b.toNat % 16)]

/-- `hex::encode`. -/
def hexEncode (bytes : Bytes) : String :=
  String.ofList (bytes.flatMap hexByte)

/-- Two digits at a time; an odd length or a foreign character is an error. -/
def hexDecodeChars : List Char → Option Bytes
  | [] => some []
  | [_] => none
  | h :: l :: rest => do
      let hi ← hexValue h
      let lo ← hexValue l
      let bytes ← hexDecodeChars rest
      pure (UInt8.ofNat (16 * hi + lo) :: bytes)

/-- `hex::decode`. -/
def hexDecode (text : String) : Option Bytes :=
  hexDecodeChars text.toList

theorem hexValue_hexDigit {n : Nat} (h : n < 16) : hexValue (hexDigit n) = some n := by
  interval_cases n <;> decide

theorem hexDecode_hexEncode (bytes : Bytes) : hexDecode (hexEncode bytes) = some bytes := by
  have hcha : ∀ bs : Bytes, hexDecodeChars (bs.flatMap hexByte) = some bs := by
    intro bs
    induction bs with
    | nil => rfl
    | cons b bs ih =>
      have hb : b.toNat < 256 := b.toNat_lt
      have hhi : hexValue (hexDigit (b.toNat / 16)) = some (b.toNat / 16) :=
        hexValue_hexDigit (by omega)
      have hlo : hexValue (hexDigit (b.toNat % 16)) = some (b.toNat % 16) :=
        hexValue_hexDigit (by omega)
      have hsum : 16 * (b.toNat / 16) + b.toNat % 16 = b.toNat := Nat.div_add_mod _ _
      simp only [List.flatMap_cons, hexByte, List.cons_append, List.nil_append,
        hexDecodeChars, hhi, hlo, ih, Option.bind_eq_bind, Option.bind_some, hsum]
      simp
  simp only [hexDecode, hexEncode, String.toList_ofList]
  exact hcha bytes

end Fenrir
