import Mathlib

/-! # Text as Rust sees it

The functions of `str` and `char` the sources call, over the characters of
a string: white space is the Unicode property, lower case is ASCII only. -/

namespace Text

/-- `char::is_whitespace`: the Unicode property `White_Space`. -/
def isWhitespace (c : Char) : Bool :=
  let n := c.toNat
  (9 ≤ n && n ≤ 13) || n == 32 || n == 0x85 || n == 0xA0 || n == 0x1680
    || (0x2000 ≤ n && n ≤ 0x200A) || n == 0x2028 || n == 0x2029 || n == 0x202F
    || n == 0x205F || n == 0x3000

variable {c d : Char} {after before pattern text : List Char}

theorem isWhitespace_of_isAlpha (h : c.isAlpha = true) : isWhitespace c = false := by
  simp only [Char.isAlpha, Char.isUpper, Char.isLower, Bool.or_eq_true, Bool.and_eq_true,
    decide_eq_true_eq, ge_iff_le, UInt32.le_iff_toNat_le] at h
  have hupp : 'A'.val.toNat = 65 ∧ 'Z'.val.toNat = 90 := ⟨rfl, rfl⟩
  have hlow : 'a'.val.toNat = 97 ∧ 'z'.val.toNat = 122 := ⟨rfl, rfl⟩
  have hc : c.toNat = c.val.toNat := rfl
  simp only [isWhitespace, Bool.or_eq_false_iff, Bool.and_eq_false_iff, decide_eq_false_iff_not,
    beq_eq_false_iff_ne]
  omega

/-- Drop from both ends while `p` holds: `trim_matches`. -/
def trimChars (p : Char → Bool) (cs : List Char) : List Char :=
  ((cs.dropWhile p).reverse.dropWhile p).reverse

def trim (s : String) : String := String.ofList (trimChars isWhitespace s.toList)

/-- `str::to_ascii_lowercase` (`Char.toLower` changes `A` to `Z` only). -/
def toAsciiLowercase (s : String) : String := String.ofList (s.toList.map Char.toLower)

def eqIgnoreAsciiCase (a b : String) : Bool :=
  a.toList.map Char.toLower == b.toList.map Char.toLower

/-- `str::strip_prefix`. -/
def stripStart (start s : List Char) : Option (List Char) :=
  if start.isPrefixOf s then some (s.drop start.length) else none

theorem stripStart_eq_some {start s rest : List Char} :
    stripStart start s = some rest ↔ s = start ++ rest := by
  rw [stripStart]
  constructor
  · intro h
    split at h
    · rename_i hp
      obtain ⟨more, rfl⟩ := List.isPrefixOf_iff_prefix.mp hp
      rw [List.drop_left] at h
      rw [Option.some.inj h]
    · cases h
  · rintro rfl
    rw [if_pos (List.isPrefixOf_iff_prefix.mpr (List.prefix_append _ _)), List.drop_left]

theorem append_cons_inj {before' after' : List Char} (h : d ∉ before) (h' : d ∉ before')
    (heq : before ++ d :: after = before' ++ d :: after') : before = before' ∧ after = after' := by
  have hta : ∀ l rest, d ∉ l → (l ++ d :: rest).takeWhile (· != d) = l := by
    intro l rest hl
    have hfr : ∀ c ∈ l, (c != d) = true := fun c hc => bne_iff_ne.mpr (ne_of_mem_of_not_mem hc hl)
    simp [List.takeWhile_append_of_pos hfr]
  have hbe : before = before' := by rw [← hta before after h, heq, hta before' after' h']
  subst hbe
  exact ⟨rfl, (List.cons.inj (List.append_cancel_left heq)).2⟩

/-- `str::split_once`: around the first occurrence of a pattern. -/
def splitOnce (pattern : List Char) : List Char → Option (List Char × List Char)
  | [] => none
  | c :: cs =>
    match stripStart pattern (c :: cs) with
    | some after => some ([], after)
    | none => (splitOnce pattern cs).map fun (before, after) => (c :: before, after)

/-- `str::rsplit_once`: around the last occurrence of a pattern. -/
def rsplitOnce (pattern : List Char) : List Char → Option (List Char × List Char)
  | [] => none
  | c :: cs =>
    match rsplitOnce pattern cs with
    | some (before, after) => some (c :: before, after)
    | none => (stripStart pattern (c :: cs)).map ([], ·)

theorem rsplitOnce_append_none {front : List Char} (h : d ∉ front)
    (hte : rsplitOnce (d :: pattern) text = none) :
    rsplitOnce (d :: pattern) (front ++ text) = none := by
  induction front with
  | nil => exact hte
  | cons c cs ih =>
    rw [List.mem_cons, not_or] at h
    have hstr : stripStart (d :: pattern) (c :: (cs ++ text)) = none := by
      cases hs : stripStart (d :: pattern) (c :: (cs ++ text)) with
      | none => rfl
      | some rest => exact absurd (List.cons.inj (stripStart_eq_some.mp hs)).1.symm h.1
    rw [List.cons_append, rsplitOnce, ih h.2, hstr]
    rfl

theorem rsplitOnce_append (h : rsplitOnce pattern text = some (before, after)) (front : List Char) :
    rsplitOnce pattern (front ++ text) = some (front ++ before, after) := by
  induction front with
  | nil => exact h
  | cons c cs ih => rw [List.cons_append, rsplitOnce, ih, List.cons_append]

def quote : Char := '\x27'

def doubleQuotes : List Char → List Char
  | [] => []
  | c :: cs => if c = quote then quote :: quote :: doubleQuotes cs else c :: doubleQuotes cs

/-- The body of an SQL string literal as the server reads it: a doubled quote
stands for one, a single one would end the literal. -/
def readLiteral : List Char → Option (List Char)
  | [] => some []
  | [c] => if c = quote then none else some [c]
  | c :: d :: cs =>
    if c = quote then
      if d = quote then (readLiteral cs).map (quote :: ·) else none
    else (readLiteral (d :: cs)).map (c :: ·)

theorem readLiteral_cons (hc : c ≠ quote) (cs : List Char) :
    readLiteral (c :: cs) = (readLiteral cs).map (c :: ·) := by
  cases cs with
  | nil => exact if_neg hc
  | cons d cs => rw [readLiteral, if_neg hc]

theorem readLiteral_doubleQuotes (cs : List Char) : readLiteral (doubleQuotes cs) = some cs := by
  induction cs with
  | nil => rfl
  | cons c cs ih =>
    rw [doubleQuotes]
    by_cases hc : c = quote
    · rw [if_pos hc, readLiteral, if_pos rfl, if_pos rfl, ih, hc]
      rfl
    · rw [if_neg hc, readLiteral_cons hc, ih]
      rfl

def utf8 (s : String) : List UInt8 := s.toList.flatMap String.utf8EncodeChar

end Text
