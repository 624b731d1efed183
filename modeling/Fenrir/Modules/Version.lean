import Fenrir.Domain

/-! # The order of module versions

`domain/module/version.rs`: releases are `X.Y.Z-N` with a build number, which
semver reads as a pre-release. Builds count up from the core, real pre-release
tags stand before it. A requirement is met by the build number scheme unless a
pre-release tag is involved; without one it is met by an interval of the order. -/

namespace Fenrir.Modules

/-- The orders of the `semver` crate on pre-release tags and on build metadata. -/
class Semver where
  comparePre : String → String → Ordering
  compareBuild : String → String → Ordering

/-- `pre_build`: no suffix is build 0, a numeric one that fits `u64` its number. -/
def preBuild (pre : String) : Option Nat :=
  if pre.isEmpty then some 0
  else if !pre.toList.all Char.isDigit then none
  else
    let build := pre.toList.foldl (fun n c => 10 * n + (c.toNat - 48)) 0
    if 0 < build ∧ build < 2 ^ 64 then some build else none

def buildNumber (version : SemVersion) : Option Nat := preBuild version.pre

/-- Tuples are compared field by field. -/
def compareCore (a b : SemVersion) : Ordering :=
  ((compare a.major b.major).then (compare a.minor b.minor)).then (compare a.patch b.patch)

open Semver (comparePre compareBuild)

section

variable [Semver]

def releaseOrder (a b : SemVersion) : Ordering :=
  if compareCore a b ≠ .eq then compareCore a b
  else
    match buildNumber a, buildNumber b with
    | some x, some y => compare x y
    | none, some _ => .lt
    | some _, none => .gt
    | none, none => comparePre a.pre b.pre

def compareVersions (a b : SemVersion) : Ordering :=
  (releaseOrder a b).then (compareBuild a.build b.build)

end

/-! ## The order is total -/

theorem preBuild_repr {n : Nat} (hpos : 1 ≤ n) (hfi : n < 2 ^ 64) :
    preBuild (Nat.repr n) = some n := by
  have hne : (Nat.repr n).isEmpty = false := by
    rw [← Bool.not_eq_true, String.isEmpty_iff]
    intro h
    have hdig := congrArg String.toList h
    rw [Nat.toList_repr] at hdig
    exact Nat.toDigits_ne_nil hdig
  have hall : (Nat.repr n).toList.all Char.isDigit = true := by
    rw [Nat.toList_repr, List.all_eq_true]
    exact fun c hc => Nat.isDigit_of_mem_toDigits (b := 10) (by decide) (by decide) hc
  have hre : (Nat.repr n).toList.foldl (fun n c => 10 * n + (c.toNat - 48)) 0 = n := by
    rw [Nat.toList_repr]
    exact Nat.ofDigitChars_ten_toDigits
  simp only [preBuild, hne, hall, hre, Bool.not_true, Bool.false_eq_true, if_false]
  exact if_pos ⟨hpos, hfi⟩

theorem preBuild_tag {pre : String} {c : Char} (hc : c ∈ pre.toList) (hdig : c.isDigit = false) :
    preBuild pre = none := by
  have hne : pre.isEmpty = false := by
    rw [← Bool.not_eq_true, String.isEmpty_iff]
    rintro rfl
    cases hc
  have hall : pre.toList.all Char.isDigit = false := by
    rw [List.all_eq_false]
    exact ⟨c, hc, by rw [hdig]; decide⟩
  simp only [preBuild, hne, hall, Bool.not_false, Bool.false_eq_true, if_false, if_true]

/-- What a suffix is read as: a build number or a tag. -/
def suffixKey (v : SemVersion) : Nat ⊕ String :=
  match buildNumber v with
  | some n => .inl n
  | none => .inr v.pre

/-- The key that the order reads. -/
def orderKey (v : SemVersion) : Nat × Nat × Nat × (Nat ⊕ String) × String :=
  (v.major, v.minor, v.patch, suffixKey v, v.build)

section

variable [Semver]

/-- How two suffixes are compared: a tag stands before every build. -/
def compareSuffix (a b : SemVersion) : Ordering :=
  match buildNumber a, buildNumber b with
  | some x, some y => compare x y
  | none, some _ => .lt
  | some _, none => .gt
  | none, none => comparePre a.pre b.pre

theorem compareVersions_eq (a b : SemVersion) :
    compareVersions a b = compareLex (compareLex (compareLex (compareLex
      (compareOn (·.major)) (compareOn (·.minor))) (compareOn (·.patch))) compareSuffix)
      (fun a b => compareBuild a.build b.build) a b := by
  show (releaseOrder a b).then _ = ((compareCore a b).then (compareSuffix a b)).then _
  rw [releaseOrder]
  cases compareCore a b <;> rfl

theorem compareVersions_sameCore (x y z : Nat) (p b q b' : String) :
    compareVersions ⟨x, y, z, p, b⟩ ⟨x, y, z, q, b'⟩ =
      (compareSuffix ⟨x, y, z, p, b⟩ ⟨x, y, z, q, b'⟩).then (compareBuild b b') := by
  rw [compareVersions_eq]
  simp [compareLex, compareOn]

theorem compareVersions_nextPatch (x y z : Nat) (p b q b' : String) :
    compareVersions ⟨x, y, z, p, b⟩ ⟨x, y, z + 1, q, b'⟩ = .lt := by
  rw [compareVersions_eq]
  simp [compareLex, compareOn, Nat.compare_eq_lt.mpr (Nat.lt_succ_self z)]

variable [Std.TransCmp comparePre] [Std.TransCmp compareBuild]

omit [Std.TransCmp compareBuild] in
theorem compareSuffix_trans : Std.TransCmp compareSuffix where
  eq_swap {a b} := by
    rw [compareSuffix, compareSuffix]
    rcases buildNumber a with - | x <;> rcases buildNumber b with - | y
    · show comparePre a.pre b.pre = _
      exact Std.OrientedCmp.eq_swap
    · rfl
    · rfl
    · show compare x y = _
      exact Std.OrientedCmp.eq_swap
  isLE_trans {a b c} := by
    rw [compareSuffix, compareSuffix, compareSuffix]
    -- three builds or three tags are compared by one order; the mixed cases are constants
    rcases buildNumber a with - | x <;> rcases buildNumber b with - | y <;>
      rcases buildNumber c with - | z
    case none.none.none =>
      show (comparePre a.pre b.pre).isLE → (comparePre b.pre c.pre).isLE → _
      exact Std.TransCmp.isLE_trans
    case some.some.some =>
      show (compare x y).isLE → (compare y z).isLE → _
      exact Std.TransCmp.isLE_trans
    all_goals simp

theorem compareVersions_trans : Std.TransCmp compareVersions := by
  have hsuf := compareSuffix_trans
  have hbui : Std.TransCmp fun a b : SemVersion => compareBuild a.build b.build :=
    { eq_swap := Std.OrientedCmp.eq_swap, isLE_trans := Std.TransCmp.isLE_trans }
  rw [show compareVersions = _ from funext₂ compareVersions_eq]
  infer_instance

omit [Std.TransCmp comparePre] [Std.TransCmp compareBuild]

variable [Std.LawfulEqCmp comparePre] [Std.LawfulEqCmp compareBuild]

theorem compareVersions_eq_iff (a b : SemVersion) :
    compareVersions a b = .eq ↔ orderKey a = orderKey b := by
  have hsuf : compareSuffix a b = .eq ↔ suffixKey a = suffixKey b := by
    rw [compareSuffix, suffixKey, suffixKey]
    cases buildNumber a <;> cases buildNumber b <;> simp
  rw [compareVersions_eq]
  simp [compareLex, compareOn, Ordering.then_eq_eq, hsuf, orderKey, and_assoc]

end

/-- **THE ORDER OF VERSIONS.** Where the crate's orders of tags and of metadata are total
orders, so is `compare_versions`, up to the key it reads; builds count up from the core
and tags stand before it. -/
theorem compareVersions_total [Semver] [Std.TransCmp Semver.comparePre]
    [Std.LawfulEqCmp Semver.comparePre] [Std.TransCmp Semver.compareBuild]
    [Std.LawfulEqCmp Semver.compareBuild] :
    (∀ a, compareVersions a a = .eq) ∧
    (∀ a b, (compareVersions a b).isLE → (compareVersions b a).isLE → orderKey a = orderKey b) ∧
    (∀ a b, orderKey a = orderKey b → compareVersions a b = .eq) ∧
    (∀ a b c, (compareVersions a b).isLE → (compareVersions b c).isLE →
      (compareVersions a c).isLE) ∧
    (∀ a b, (compareVersions a b).isLE ∨ (compareVersions b a).isLE) ∧
    ∀ (x y z : Nat) (b b' : String), (∀ n, 1 ≤ n → n < 2 ^ 64 →
        compareVersions ⟨x, y, z, Nat.repr n, b⟩ ⟨x, y, z, "", b'⟩ = .gt ∧
        (∀ pre, compareVersions ⟨x, y, z, Nat.repr n, b⟩ ⟨x, y, z + 1, pre, b'⟩ = .lt) ∧
        ∀ m, 1 ≤ m → m < 2 ^ 64 → compareVersions ⟨x, y, z, Nat.repr n, b⟩
          ⟨x, y, z, Nat.repr m, b'⟩ = (compare n m).then (Semver.compareBuild b b')) ∧
      ∀ pre : String, (∃ c ∈ pre.toList, c.isDigit = false) →
        compareVersions ⟨x, y, z, pre, b⟩ ⟨x, y, z, "", b'⟩ = .lt := by
  have htra := compareVersions_trans
  refine ⟨fun _ => Std.ReflCmp.compare_self, ?_, fun a b => (compareVersions_eq_iff a b).mpr,
    fun _ _ _ => Std.TransCmp.isLE_trans, ?_, fun x y z b b' => ⟨fun n hn hfi => ?_, ?_⟩⟩
  · intro a b hab hba
    rw [← compareVersions_eq_iff]
    exact Std.OrientedCmp.isLE_antisymm hab hba
  · intro a b
    have hsw : compareVersions b a = (compareVersions a b).swap := Std.OrientedCmp.eq_swap
    rw [hsw]
    cases compareVersions a b <;> decide
  · have hbui := preBuild_repr hn hfi
    refine ⟨?_, fun pre => compareVersions_nextPatch .., fun m hm hfi' => ?_⟩
    · rw [compareVersions_sameCore, compareSuffix, buildNumber, hbui]
      show (compare n 0).then _ = _
      rw [Nat.compare_eq_gt.mpr hn]
      rfl
    · rw [compareVersions_sameCore, compareSuffix, buildNumber, buildNumber, hbui,
        preBuild_repr hm hfi']
  · rintro pre ⟨c, hc, hdig⟩
    rw [compareVersions_sameCore, compareSuffix, buildNumber, preBuild_tag hc hdig]
    rfl

/-- Texts in the place of the crate's tags and metadata. -/
theorem compareVersions_total_text :
    let _ : Semver := ⟨compare, compare⟩
    compareVersions ⟨1, 2, 0, Nat.repr 9, ""⟩ ⟨1, 2, 0, Nat.repr 10, ""⟩ = .lt := by
  let _ : Semver := ⟨compare, compare⟩
  have hpre : Std.TransCmp comparePre := inferInstanceAs (Std.TransOrd String)
  have hlaw : Std.LawfulEqCmp comparePre := inferInstanceAs (Std.LawfulEqOrd String)
  have htot := compareVersions_total
  exact ((htot.2.2.2.2.2 1 2 0 "" "").1 9 (by decide) (by decide)).2.2 10 (by decide) (by decide)

/-! ## Version requirements -/

/-- What the `semver` crate says of a requirement and of one of its comparators, and how
it prints a requirement. -/
class SemverReq extends Semver where
  reqMatches : VersionReq → SemVersion → Bool
  comparatorMatches : Comparator → SemVersion → Bool
  displayReq : VersionReq → String

section

variable [SemverReq]

def comparatorMatches (comparator : Comparator) (version : SemVersion) : Bool :=
  let core : SemVersion := ⟨version.major, version.minor, version.patch, "", ""⟩
  if comparator.pre.isEmpty then
    match comparator.op, comparator.minor, comparator.patch with
    | .exact, some minor, some patch =>
      buildNumber version = some 0 ∧ version.major = comparator.major ∧
        version.minor = minor ∧ version.patch = patch
    | _, _, _ => SemverReq.comparatorMatches comparator core
  else if (preBuild comparator.pre).isNone then SemverReq.comparatorMatches comparator version
  else
    let floor : SemVersion :=
      ⟨comparator.major, comparator.minor.getD 0, comparator.patch.getD 0, comparator.pre, ""⟩
    let against := releaseOrder version floor
    match comparator.op with
    | .exact => against = .eq
    | .greater => against = .gt
    | .greaterEq => against ≠ .lt
    | .less => against = .lt
    | .lessEq => against ≠ .gt
    | .tilde | .caret | .wildcard =>
      against ≠ .lt ∧ SemverReq.comparatorMatches { comparator with pre := "" } core

def versionReqMatches (req : VersionReq) (version : SemVersion) : Bool :=
  if (buildNumber version).isNone then SemverReq.reqMatches req version
  else req.comparators.all (comparatorMatches · version)

end

/-! ## Requirements are convex -/

def coreKey (v : SemVersion) : ℕ ×ₗ ℕ ×ₗ ℕ := toLex (v.major, toLex (v.minor, v.patch))

def releaseKey (v : SemVersion) : (ℕ ×ₗ ℕ ×ₗ ℕ) ×ₗ ℕ :=
  toLex (coreKey v, (buildNumber v).getD 0)

/-- The least core that agrees with the parts of a comparator that are given. -/
def floorKey (c : Comparator) : ℕ ×ₗ ℕ ×ₗ ℕ :=
  toLex (c.major, toLex (c.minor.getD 0, c.patch.getD 0))

/-- The first core after those that agree with the given parts. -/
def nextKey (major : Nat) : Option Nat → Option Nat → ℕ ×ₗ ℕ ×ₗ ℕ
  | some minor, some patch => toLex (major, toLex (minor, patch + 1))
  | some minor, none => toLex (major, toLex (minor + 1, 0))
  | none, _ => toLex (major + 1, toLex (0, 0))

/-- The cores from which on, and before which, a comparator without a pre-release matches, as
the `semver` crate documents its operators. -/
def coreBounds (c : Comparator) : (ℕ ×ₗ ℕ ×ₗ ℕ) × Option (ℕ ×ₗ ℕ ×ₗ ℕ) :=
  let next := nextKey c.major c.minor c.patch
  match c.op with
  | .exact | .wildcard => (floorKey c, some next)
  | .greater => (next, none)
  | .greaterEq => (floorKey c, none)
  | .less => (toLex (0, toLex (0, 0)), some (floorKey c))
  | .lessEq => (toLex (0, toLex (0, 0)), some next)
  | .tilde => (floorKey c, some (nextKey c.major c.minor none))
  | .caret => (floorKey c, some (match c.major, c.minor with
      | 0, some 0 => nextKey 0 (some 0) c.patch
      | 0, some minor => nextKey 0 (some minor) none
      | major, _ => nextKey major none none))

def InBounds (bounds : (ℕ ×ₗ ℕ ×ₗ ℕ) × Option (ℕ ×ₗ ℕ ×ₗ ℕ)) (key : ℕ ×ₗ ℕ ×ₗ ℕ) : Prop :=
  bounds.1 ≤ key ∧ ∀ upper ∈ bounds.2, key < upper

instance (bounds : (ℕ ×ₗ ℕ ×ₗ ℕ) × Option (ℕ ×ₗ ℕ ×ₗ ℕ)) (key : ℕ ×ₗ ℕ ×ₗ ℕ) :
    Decidable (InBounds bounds key) :=
  inferInstanceAs (Decidable (_ ∧ _))

/-- What is documented of `Comparator::matches` for a version without a pre-release. A patch
is given only with a minor. -/
class SemverReq.Documented [SemverReq] : Prop where
  core_iff : ∀ (c : Comparator) (v : SemVersion), (c.minor = none → c.patch = none) →
    c.pre = "" → v.pre = "" →
    (SemverReq.comparatorMatches c v = true ↔ InBounds (coreBounds c) (coreKey v))

theorem inBounds_ordConnected (bounds : (ℕ ×ₗ ℕ ×ₗ ℕ) × Option (ℕ ×ₗ ℕ ×ₗ ℕ)) :
    {key : (ℕ ×ₗ ℕ ×ₗ ℕ) ×ₗ ℕ | InBounds bounds (ofLex key).1}.OrdConnected := by
  refine ⟨fun a ha b hb key hkey => ⟨?_, fun upper hupp => ?_⟩⟩
  · exact ha.1.trans (Prod.Lex.monotone_fst _ _ hkey.1)
  · exact (Prod.Lex.monotone_fst _ _ hkey.2).trans_lt (hb.2 upper hupp)

/-- The releases that a comparator whose bound is a build allows. -/
def releasesOf (c : Comparator) (bound : (ℕ ×ₗ ℕ ×ₗ ℕ) ×ₗ ℕ) : Set ((ℕ ×ₗ ℕ ×ₗ ℕ) ×ₗ ℕ) :=
  match c.op with
  | .exact => {bound}
  | .greater => Set.Ioi bound
  | .greaterEq => Set.Ici bound
  | .less => Set.Iio bound
  | .lessEq => Set.Iic bound
  | .tilde | .caret | .wildcard =>
    Set.Ici bound ∩ {key | InBounds (coreBounds { c with pre := "" }) (ofLex key).1}

theorem releasesOf_ordConnected (c : Comparator) (bound : (ℕ ×ₗ ℕ ×ₗ ℕ) ×ₗ ℕ) :
    (releasesOf c bound).OrdConnected := by
  rw [releasesOf]
  cases c.op with
  | exact => exact Set.ordConnected_singleton
  | greater => exact Set.ordConnected_Ioi
  | greaterEq => exact Set.ordConnected_Ici
  | less => exact Set.ordConnected_Iio
  | lessEq => exact Set.ordConnected_Iic
  | _ => exact Set.ordConnected_Ici.inter (inBounds_ordConnected _)

section

variable [SemverReq] {a b v : SemVersion} {n m : Nat}

theorem releaseOrder_key (ha : buildNumber a = some n) (hb : buildNumber b = some m) :
    releaseOrder a b = compare (releaseKey a) (releaseKey b) := by
  simp only [releaseOrder, compareCore, ha, hb, releaseKey, coreKey, Prod.Lex.compare_def,
    compareLex, compareOn, Option.getD_some, ofLex_toLex]
  cases compare a.major b.major <;> cases compare a.minor b.minor <;>
    cases compare a.patch b.patch <;> rfl

theorem releaseKey_le (ha : buildNumber a = some n) (hb : buildNumber b = some m)
    (hab : (compareVersions a b).isLE) : releaseKey a ≤ releaseKey b := by
  rw [compareVersions, Ordering.isLE_then_iff_and] at hab
  rw [← compare_le_iff_le, ← releaseOrder_key ha hb]
  exact Ordering.isLE_iff_ne_gt.mp hab.1

variable [SemverReq.Documented]

theorem comparatorMatches_interval (c : Comparator) (hc : c.minor = none → c.patch = none)
    (hbui : preBuild c.pre = some m) : ∃ s : Set ((ℕ ×ₗ ℕ ×ₗ ℕ) ×ₗ ℕ), s.OrdConnected ∧
      (c.op = .greater ∨ c.op = .greaterEq → IsUpperSet s) ∧
      ∀ v n, buildNumber v = some n → (comparatorMatches c v = true ↔ releaseKey v ∈ s) := by
  by_cases hemp : c.pre.isEmpty = true
  · by_cases hexa : c.op = .exact ∧ c.minor.isSome ∧ c.patch.isSome
    · -- the whole core is build 0 of it
      obtain ⟨op, major, minor, patch, pre⟩ := c
      obtain ⟨rfl, hmin, hpat⟩ := hexa
      obtain ⟨minor, rfl⟩ := Option.isSome_iff_exists.mp hmin
      obtain ⟨patch, rfl⟩ := Option.isSome_iff_exists.mp hpat
      refine ⟨{toLex (toLex (major, toLex (minor, patch)), 0)}, Set.ordConnected_singleton,
        by simp, fun v n hn => ?_⟩
      rw [comparatorMatches, if_pos hemp]
      simp only [decide_eq_true_eq, hn, releaseKey, coreKey, Set.mem_singleton_iff,
        EmbeddingLike.apply_eq_iff_eq, Prod.mk.injEq, Option.getD_some, Option.some_inj]
      tauto
    · -- anything else is asked of the core
      have hco : ∀ v, comparatorMatches c v =
          SemverReq.comparatorMatches c ⟨v.major, v.minor, v.patch, "", ""⟩ := by
        intro v
        rw [comparatorMatches, if_pos hemp]
        split
        · next hop hmin hpat => exact absurd ⟨hop, by simp [hmin], by simp [hpat]⟩ hexa
        · rfl
      refine ⟨_, inBounds_ordConnected (coreBounds c), ?_, fun v n _ => ?_⟩
      · intro hop key key' hle hkey
        refine ⟨hkey.1.trans (Prod.Lex.monotone_fst _ _ hle), fun upper hupp => ?_⟩
        rcases hop with hop | hop <;> simp [coreBounds, hop] at hupp
      · rw [hco, SemverReq.Documented.core_iff c _ hc (String.isEmpty_iff.mp hemp) rfl]
        rfl
  · -- a build of a core is compared as a whole
    have haga : ∀ v n, buildNumber v = some n →
        releaseOrder v ⟨c.major, c.minor.getD 0, c.patch.getD 0, c.pre, ""⟩ =
          compare (releaseKey v) (toLex (floorKey c, m)) := by
      intro v n hn
      rw [releaseOrder_key hn (show buildNumber ⟨_, _, _, c.pre, ""⟩ = some m from hbui)]
      simp only [releaseKey, buildNumber, hbui, Option.getD_some]
      rfl
    refine ⟨_, releasesOf_ordConnected c (toLex (floorKey c, m)), ?_, fun v n hn => ?_⟩
    · rw [releasesOf]
      rintro (hop | hop)
      · rw [hop]
        exact isUpperSet_Ioi _
      · rw [hop]
        exact isUpperSet_Ici _
    · have hinn := SemverReq.Documented.core_iff { c with pre := "" }
        ⟨v.major, v.minor, v.patch, "", ""⟩ hc rfl rfl
      rw [comparatorMatches, if_neg hemp, if_neg (by simp [hbui]), releasesOf]
      simp only [haga v n hn, compare_eq_iff_eq, compare_gt_iff_gt, compare_lt_iff_lt, ne_eq,
        not_lt]
      cases hop : c.op with
      | tilde | caret | wildcard =>
        rw [hop] at hinn
        exact decide_eq_true_iff.trans (and_congr_right fun _ => hinn)
      | _ => exact decide_eq_true_iff

/-- **REQUIREMENTS ARE CONVEX.** For a requirement none of whose comparators names a tag, and
versions without one: what two versions meet, every version between them meets, and lower
bounds once met are met by everything newer. What a tag in a comparator means is left to
the `semver` crate, which reads a build as a tag. -/
theorem versionReqMatches_convex (req : VersionReq)
    (hpatch : ∀ c ∈ req.comparators, c.minor = none → c.patch = none)
    (htags : ∀ c ∈ req.comparators, preBuild c.pre ≠ none) :
    (∀ a b c, buildNumber a ≠ none → buildNumber b ≠ none → buildNumber c ≠ none →
      (compareVersions a b).isLE → (compareVersions b c).isLE →
      versionReqMatches req a = true → versionReqMatches req c = true →
      versionReqMatches req b = true) ∧
    ((∀ c ∈ req.comparators, c.op = .greater ∨ c.op = .greaterEq) →
      ∀ a b, buildNumber a ≠ none → buildNumber b ≠ none → (compareVersions a b).isLE →
      versionReqMatches req a = true → versionReqMatches req b = true) := by
  have hmat : ∀ v n, buildNumber v = some n → (versionReqMatches req v = true ↔
      ∀ c ∈ req.comparators, comparatorMatches c v = true) := by
    intro v n hn
    rw [versionReqMatches, if_neg (by simp [hn]), List.all_eq_true]
  have hset := fun c hc => (Option.ne_none_iff_exists'.mp (htags c hc)).elim
    fun _ => comparatorMatches_interval c (hpatch c hc)
  constructor
  · intro a b c ha hb hc hab hbc hma hmc
    obtain ⟨x, ha⟩ := Option.ne_none_iff_exists'.mp ha
    obtain ⟨y, hb⟩ := Option.ne_none_iff_exists'.mp hb
    obtain ⟨z, hc⟩ := Option.ne_none_iff_exists'.mp hc
    rw [hmat b y hb]
    intro comparator hmem
    obtain ⟨s, hs, -, hiff⟩ := hset comparator hmem
    rw [hiff b y hb]
    exact hs.out ((hiff a x ha).mp ((hmat a x ha).mp hma comparator hmem))
      ((hiff c z hc).mp ((hmat c z hc).mp hmc comparator hmem))
      ⟨releaseKey_le ha hb hab, releaseKey_le hb hc hbc⟩
  · intro hlow a b ha hb hab hma
    obtain ⟨x, ha⟩ := Option.ne_none_iff_exists'.mp ha
    obtain ⟨y, hb⟩ := Option.ne_none_iff_exists'.mp hb
    rw [hmat b y hb]
    intro comparator hmem
    obtain ⟨s, -, hs, hiff⟩ := hset comparator hmem
    rw [hiff b y hb]
    exact hs (hlow comparator hmem) (releaseKey_le ha hb hab)
      ((hiff a x ha).mp ((hmat a x ha).mp hma comparator hmem))

end

/-- The crate on texts: the empty tag is the greatest, and a version with a tag meets only
comparators of its core. Of the comparators with a tag only `>=` is needed. -/
@[reducible] def textSemver : SemverReq where
  comparePre p q := if p = q then .eq else if p = "" then .gt else if q = "" then .lt
    else compare p q
  compareBuild := compare
  reqMatches _ _ := false
  comparatorMatches c v :=
    if c.pre = "" ∧ v.pre = "" then InBounds (coreBounds c) (coreKey v)
    else if coreKey v = floorKey c then v.pre = "" ∨ (c.pre ≠ "" ∧ ¬ v.pre < c.pre)
    else v.pre = "" ∧ floorKey c < coreKey v
  displayReq _ := ""

theorem textSemver_documented : @SemverReq.Documented textSemver := by
  refine @SemverReq.Documented.mk textSemver fun c v _ hc hv => ?_
  show ite (c.pre = "" ∧ v.pre = "") _ _ = true ↔ _
  rw [if_pos ⟨hc, hv⟩, decide_eq_true_iff]

/-- `^1.2`, met by `1.2.0` and `1.9.0-4`, is met by `1.2.0-7`. -/
theorem versionReqMatches_convex_caret :
    let _ := textSemver
    versionReqMatches ⟨[⟨.caret, 1, some 2, none, ""⟩]⟩ ⟨1, 2, 0, "7", ""⟩ = true := by
  intro _
  have _ := textSemver_documented
  refine (versionReqMatches_convex ⟨[⟨.caret, 1, some 2, none, ""⟩]⟩ (by decide) (by decide)).1
    ⟨1, 2, 0, "", ""⟩ ⟨1, 2, 0, "7", ""⟩ ⟨1, 9, 0, "4", ""⟩ ?_ ?_ ?_ ?_ ?_ ?_ ?_ <;> decide +kernel

/-- `>=1.0.0-beta` is met by `1.0.0` and by `1.0.1`, but not by the build between them. -/
theorem versionReqMatches_tag :
    let _ := textSemver
    let req : VersionReq := ⟨[⟨.greaterEq, 1, some 0, some 0, "beta"⟩]⟩
    compareVersions ⟨1, 0, 0, "", ""⟩ ⟨1, 0, 0, "1", ""⟩ = .lt ∧
    compareVersions ⟨1, 0, 0, "1", ""⟩ ⟨1, 0, 1, "", ""⟩ = .lt ∧
    versionReqMatches req ⟨1, 0, 0, "", ""⟩ = true ∧
    versionReqMatches req ⟨1, 0, 0, "1", ""⟩ = false ∧
    versionReqMatches req ⟨1, 0, 1, "", ""⟩ = true := by
  decide +kernel

end Fenrir.Modules
