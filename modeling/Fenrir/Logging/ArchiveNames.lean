import Fenrir.Lib.Text
import Fenrir.Lib.Utf8

/-! # Names of archived logs

`archive_path`, `is_archive_of` and `archive_stem` of `logging/retention.rs`: an archive is
named after its log, the time and perhaps a counter. The reader cuts the name at byte
offsets, and a cut inside a character panics. -/

namespace Fenrir.Archives

open List Utf8

/-! ## Writing a name -/

/-- A time of the years 0 to 9999. -/
structure Timestamp where
  year : Fin 10000
  month : Fin 13
  day : Fin 32
  hour : Fin 24
  (minute second : Fin 60)

def padded (width n : Nat) : List Char := (Nat.toDigits 10 n).leftpad width '0'

variable (now : Timestamp) (stem : List Char)

def Timestamp.date : List Char := padded 4 now.year ++ padded 2 now.month ++ padded 2 now.day

def Timestamp.time : List Char := padded 2 now.hour ++ padded 2 now.minute ++ padded 2 now.second

/-- What follows the stem and the dash. -/
def dated (date time counter : List Char) : List Char :=
  date ++ '_' :: time ++ counter ++ ".log".toList

def candidate (counter : List Char) : List Char := stem ++ '-' :: dated now.date now.time counter

inductive Panic
  | notABoundary

def digits (text : List Char) : Bool :=
  !text.isEmpty && (bytes text).all fun b => 48 ≤ b && b ≤ 57

/-- The stamp and the tail of a name that begins with the stem. -/
def cut (name stem : List Char) : Option (List Char × List Char) :=
  (((Text.stripStart stem name).bind (Text.stripStart ['-'])).bind
    (·.dropSuffix? ".log".toList)).bind (Utf8.splitAt 15)

variable {now stem} {text : List Char}

theorem encode_digit {c : Char} (h : c.isDigit = true) :
    ∃ b, String.utf8EncodeChar c = [b] ∧ (48 ≤ b && b ≤ 57) = true := by
  simp only [Char.isDigit, Bool.and_eq_true, decide_eq_true_eq, UInt32.le_iff_toNat_le,
    ge_iff_le] at h
  refine ⟨_, if_pos (h.2.trans (by decide)), ?_⟩
  have h1 : 48 ≤ c.val.toNat := h.1
  have h2 : c.val.toNat ≤ 57 := h.2
  simp only [Bool.and_eq_true, decide_eq_true_eq, UInt8.le_iff_toNat_le, UInt8.toNat_ofNat']
  constructor
  · show 48 ≤ _
    omega
  · show _ ≤ 57
    omega

/-- A number of digits. -/
def Fixed (n : Nat) (text : List Char) : Prop := text.length = n ∧ ∀ c ∈ text, c.isDigit = true

variable {n m : Nat}

theorem Fixed.digits (h : Fixed n text) (hn : 0 < n) : digits text = true := by
  rw [Archives.digits, Bool.and_eq_true, all_eq_true]
  refine ⟨by simpa [← length_pos_iff_ne_nil, h.1] using hn, fun b hb => ?_⟩
  obtain ⟨c, hc, hbc⟩ := mem_flatMap.mp hb
  obtain ⟨b', henc, hb'⟩ := encode_digit (h.2 c hc)
  rw [henc, mem_singleton] at hbc
  rw [hbc]
  exact hb'

theorem Fixed.size (h : Fixed n text) : size text = n := by
  rw [← h.1]
  replace h := h.2
  induction text with
  | nil => rfl
  | cons c cs ih =>
    obtain ⟨b, henc, -⟩ := encode_digit (h c mem_cons_self)
    rw [size_cons, length_cons, ih fun d hd => h d (mem_cons_of_mem _ hd),
      ← String.length_utf8EncodeChar, henc, length_singleton, Nat.add_comm]

theorem Fixed.append {more : List Char} (h : Fixed n text) (h' : Fixed m more) :
    Fixed (n + m) (text ++ more) :=
  ⟨by rw [length_append, h.1, h'.1], forall_mem_append.mpr ⟨h.2, h'.2⟩⟩

variable {name stem pre after tail : List Char}

end Fenrir.Archives
