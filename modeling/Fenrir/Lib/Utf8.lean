import Mathlib

/-! # Byte offsets into a text

A text is a list of characters and a position in it is an offset into its UTF-8 bytes.
Not every offset is one between two characters: cutting a text at another one fails, as
slicing a `str` does. -/

namespace Utf8

/-- `str::len`. -/
def size : List Char → Nat
  | [] => 0
  | c :: cs => c.utf8Size + size cs

@[simp] theorem size_nil : size [] = 0 := rfl

@[simp] theorem size_cons (c : Char) (cs : List Char) : size (c :: cs) = c.utf8Size + size cs := rfl

@[simp] theorem size_append (cs ds : List Char) : size (cs ++ ds) = size cs + size ds := by
  induction cs with
  | nil => rw [List.nil_append, size_nil, Nat.zero_add]
  | cons c cs ih => rw [List.cons_append, size_cons, size_cons, ih, Nat.add_assoc]

variable {cs : List Char} {n : Nat}

theorem size_eq_zero (h : size cs = 0) : cs = [] := by
  cases cs with
  | nil => rfl
  | cons c cs =>
    have hpos := Char.utf8Size_pos c
    rw [size_cons] at h
    omega

/-! ## Cutting a text -/

/-- The text before an offset and the text from it on, if the offset stands between two
characters. -/
def splitAt : Nat → List Char → Option (List Char × List Char)
  | n, [] => if n = 0 then some ([], []) else none
  | n, c :: cs =>
    if n = 0 then some ([], c :: cs)
    else if n < c.utf8Size then none
    else (splitAt (n - c.utf8Size) cs).map fun (before, after) => (c :: before, after)

theorem splitAt_eq_some {pre after : List Char} :
    splitAt n cs = some (pre, after) ↔ cs = pre ++ after ∧ size pre = n := by
  induction cs generalizing n pre with
  | nil =>
    rw [splitAt]
    constructor
    · intro h
      split at h
      · rename_i hn
        cases h
        exact ⟨rfl, hn.symm⟩
      · cases h
    · rintro ⟨hnil, hn⟩
      obtain ⟨rfl, rfl⟩ := List.append_eq_nil_iff.mp hnil.symm
      exact if_pos hn.symm
  | cons c cs ih =>
    rw [splitAt]
    have hpos := Char.utf8Size_pos c
    by_cases hn : n = 0
    · rw [if_pos hn]
      constructor
      · intro h
        cases h
        exact ⟨rfl, hn.symm⟩
      · rintro ⟨heq, hsi⟩
        have hbef := size_eq_zero (hsi.trans hn)
        subst hbef
        rw [heq, List.nil_append]
    · rw [if_neg hn]
      by_cases hlt : n < c.utf8Size
      · rw [if_pos hlt]
        constructor
        · intro h
          cases h
        · rintro ⟨heq, hsi⟩
          cases pre with
          | nil => exact absurd hsi.symm hn
          | cons d pre =>
            obtain ⟨rfl, -⟩ := List.cons.inj heq
            rw [size_cons] at hsi
            omega
      · rw [if_neg hlt]
        constructor
        · intro h
          obtain ⟨⟨front, rest⟩, hspl, heq⟩ := Option.map_eq_some_iff.mp h
          cases heq
          obtain ⟨hcs, hsi⟩ := ih.mp hspl
          rw [hcs, size_cons, hsi]
          exact ⟨rfl, by omega⟩
        · rintro ⟨heq, hsi⟩
          cases pre with
          | nil => exact absurd hsi.symm hn
          | cons d pre =>
            obtain ⟨rfl, hcs⟩ := List.cons.inj heq
            rw [size_cons] at hsi
            have hspl := ih.mpr ⟨hcs, show size pre = n - c.utf8Size by omega⟩
            rw [hspl]
            rfl

/-- The offset stands between two characters, or at an end. -/
def Boundary (cs : List Char) (n : Nat) : Prop := (splitAt n cs).isSome

instance (cs : List Char) (n : Nat) : Decidable (Boundary cs n) :=
  inferInstanceAs (Decidable (_ = true))

theorem boundary_iff : Boundary cs n ↔ ∃ pre after, cs = pre ++ after ∧ size pre = n := by
  rw [Boundary, Option.isSome_iff_exists]
  constructor
  · rintro ⟨⟨pre, after⟩, h⟩
    exact ⟨pre, after, splitAt_eq_some.mp h⟩
  · rintro ⟨pre, after, h⟩
    exact ⟨(pre, after), splitAt_eq_some.mpr h⟩

theorem Boundary.le (h : Boundary cs n) : n ≤ size cs := by
  obtain ⟨pre, after, rfl, rfl⟩ := boundary_iff.mp h
  rw [size_append]
  exact Nat.le_add_right _ _

/-! ## Finding a character -/

def rfind (p : Char → Bool) : List Char → Option Nat
  | [] => none
  | c :: cs =>
    match rfind p cs with
    | some n => some (c.utf8Size + n)
    | none => if p c then some 0 else none

def find (p : Char → Bool) : List Char → Option Nat
  | [] => none
  | c :: cs => if p c then some 0 else (find p cs).map (c.utf8Size + ·)

open List

/-- `str::as_bytes`. -/
def bytes (cs : List Char) : List UInt8 := cs.flatMap String.utf8EncodeChar

end Utf8
