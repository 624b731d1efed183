import Fenrir.Lib.Text

/-! # Paths

What `std::path` makes of a path written with slashes: its segments and its
components, and the extension of a file name (what follows the last dot, unless
nothing stands before that dot). -/

namespace Path

open List

/-! ## Extensions -/

/-- `Path::extension` of a file name. -/
def extension (name : List Char) : Option (List Char) :=
  -- from the end: the extension, then the dot and the stem
  match name.reverse.dropWhile (· ≠ '.') with
  | [] | [_] => none
  | _ :: _ :: _ => some (name.reverse.takeWhile (· ≠ '.')).reverse

theorem extension_eq_some {name ext : List Char} (hext : '.' ∉ ext) :
    extension name = some ext ↔ ∃ stem, stem ≠ [] ∧ name = stem ++ '.' :: ext := by
  constructor
  · intro h
    rw [extension] at h
    cases hd : name.reverse.dropWhile (· ≠ '.') with
    | nil => rw [hd] at h; cases h
    | cons dot rest =>
      obtain rfl : '.' = dot := by
        have hhe := List.head?_dropWhile_not (· ≠ '.') name.reverse
        rw [hd] at hhe
        exact (by simpa using hhe : dot = '.').symm
      cases rest with
      | nil => rw [hd] at h; cases h
      | cons b bs =>
        rw [hd] at h
        have hna : name.reverse = ext.reverse ++ '.' :: b :: bs := by
          cases h
          rw [reverse_reverse, ← hd]
          exact (takeWhile_append_dropWhile ..).symm
        refine ⟨(b :: bs).reverse, by simp, ?_⟩
        rw [← reverse_reverse name, hna]
        simp
  · rintro ⟨stem, hst, rfl⟩
    have hrev : (stem ++ '.' :: ext).reverse = ext.reverse ++ '.' :: stem.reverse := by simp
    have hfr : ∀ c ∈ ext.reverse, (decide (c ≠ '.')) = true := by
      intro c hc
      rw [decide_eq_true_eq]
      rintro rfl
      exact hext (mem_reverse.mp hc)
    rw [extension, hrev, dropWhile_append_of_pos hfr, takeWhile_append_of_pos hfr]
    cases hs : stem.reverse with
    | nil => exact absurd (reverse_eq_nil_iff.mp hs) hst
    | cons b bs => simp

/-! ## Segments -/

/-- What stands between the slashes. -/
def segments (path : List Char) : List (List Char) := path.splitOn '/'

/-- `names.join("/")`. -/
def join (names : List (List Char)) : List Char := ['/'].intercalate names

theorem segments_ne_nil (path : List Char) : segments path ≠ [] := splitOnP_ne_nil _ _

theorem segments_append (a b : List Char) : segments (a ++ '/' :: b) = segments a ++ segments b :=
  splitOnP_append_cons a b (beq_self_eq_true _)

theorem segments_of_not_mem {name : List Char} (h : '/' ∉ name) : segments name = [name] := by
  refine splitOnP_eq_singleton ?_
  intro c hc
  rw [beq_eq_false_iff_ne]
  rintro rfl
  exact h hc

variable {names : List (List Char)} {path : List Char}

theorem segments_join (hne : names ≠ []) (hsla : ∀ n ∈ names, '/' ∉ n) :
    segments (join names) = names :=
  splitOn_intercalate '/' hsla hne

theorem join_segments (path : List Char) : join (segments path) = path := intercalate_splitOn '/'

theorem join_eq_iff (hne : names ≠ []) (hsla : ∀ n ∈ names, '/' ∉ n) :
    join names = path ↔ names = segments path := by
  constructor
  · rintro rfl
    exact (segments_join hne hsla).symm
  · intro h
    rw [h, join_segments]

theorem not_mem_of_mem_segments {name : List Char} (h : name ∈ segments path) : '/' ∉ name := by
  induction path generalizing name with
  | nil =>
    rw [mem_singleton.mp h]
    exact not_mem_nil
  | cons c path ih =>
    rw [segments, List.splitOn, splitOnP_cons_eq_if_modifyHead] at h
    split at h
    · rcases mem_cons.mp h with rfl | h
      · exact not_mem_nil
      · exact ih h
    · rename_i hc
      rw [beq_iff_eq] at hc
      cases hs : List.splitOnP (· == '/') path with
      | nil => exact absurd hs (splitOnP_ne_nil _ _)
      | cons first rest =>
        have hmem : ∀ n ∈ first :: rest, '/' ∉ n := by
          intro n hn
          exact ih (by rw [segments, List.splitOn, hs]; exact hn)
        rw [hs, modifyHead_cons] at h
        rcases mem_cons.mp h with rfl | h
        · rw [mem_cons]
          rintro (hsla | hsla)
          · exact hc hsla.symm
          · exact hmem first mem_cons_self hsla
        · exact hmem name (mem_cons_of_mem _ h)

/-- `str::trim_matches('/')`. -/
def trimSlashes (path : List Char) : List Char := Text.trimChars (· == '/') path

/-- Without a slash in front, trimming drops the slashes at the end, each of which adds
an empty segment. -/
theorem segments_trim (h : path.head? ≠ some '/') :
    ∃ k, segments path = segments (trimSlashes path) ++ List.replicate k [] := by
  have hfro : path.dropWhile (· == '/') = path := by
    cases path with
    | nil => rfl
    | cons c path =>
      refine dropWhile_cons_of_neg ?_
      rw [beq_iff_eq]
      rintro rfl
      exact h rfl
  have hsla : ∀ c ∈ path.reverse.takeWhile (· == '/'), c = '/' := by
    intro c hc
    have hp := mem_takeWhile_imp hc
    exact beq_iff_eq.mp hp
  have hspl : path = trimSlashes path ++ (path.reverse.takeWhile (· == '/')).reverse := by
    rw [trimSlashes, Text.trimChars, hfro, ← reverse_append,
      takeWhile_append_dropWhile, reverse_reverse]
  refine ⟨(path.reverse.takeWhile (· == '/')).length, ?_⟩
  rw [eq_replicate_of_mem hsla, reverse_replicate] at hspl
  generalize (path.reverse.takeWhile (· == '/')).length = k at hspl ⊢
  have hend : ∀ (base : List Char) (k : Nat),
      segments (base ++ List.replicate k '/') = segments base ++ List.replicate k [] := by
    intro base k
    induction k generalizing base with
    | zero => rw [replicate_zero, append_nil, replicate_zero, append_nil]
    | succ k ih =>
      have hone : segments (base ++ ['/']) = segments base ++ [[]] := segments_append base []
      rw [replicate_succ, append_cons, ih, hone, append_assoc]
      rfl
  nth_rewrite 1 [hspl]
  exact hend _ k

/-! ## Components -/

/-- `std::path::Component` on Unix. -/
inductive Component where
  | rootDir | curDir | parentDir
  | normal (name : List Char)

/-- A segment as a component; empty segments and later dots are skipped. -/
def Component.ofSegment (s : List Char) : Option Component :=
  if s = [] ∨ s = ['.'] then none
  else if s = ['.', '.'] then some .parentDir
  else some (.normal s)

def components (path : List Char) : List Component :=
  let rest := (segments path).filterMap Component.ofSegment
  if path.head? = some '/' then .rootDir :: rest
  else if (segments path).head? = some ['.'] then .curDir :: rest
  else rest

/-- A name that stands for an entry of a directory. -/
def Plain (s : List Char) : Prop := s ≠ [] ∧ s ≠ ['.'] ∧ s ≠ ['.', '.'] ∧ '/' ∉ s

instance (s : List Char) : Decidable (Plain s) :=
  inferInstanceAs (Decidable (_ ∧ _ ∧ _ ∧ _))

theorem plain_of_normal {name : List Char} (h : .normal name ∈ components path) : Plain name := by
  have hre : .normal name ∈ (segments path).filterMap Component.ofSegment := by
    rw [components] at h
    split at h
    · exact (mem_cons.mp h).resolve_left nofun
    · split at h
      · exact (mem_cons.mp h).resolve_left nofun
      · exact h
  obtain ⟨s, hs, hco⟩ := mem_filterMap.mp hre
  rw [Component.ofSegment] at hco
  split at hco
  · cases hco
  · rename_i hsk
    split at hco
    · cases Option.some.inj hco
    · rename_i hdo
      obtain rfl := Component.normal.inj (Option.some.inj hco)
      rw [not_or] at hsk
      exact ⟨hsk.1, hsk.2, hdo, not_mem_of_mem_segments hs⟩

end Path
