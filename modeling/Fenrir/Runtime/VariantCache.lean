import Fenrir.Domain
import Fenrir.Lib.Parties

/-! # The cache of compressed variants

`StaticVariantCache` of `runtime/process.rs`: the lookup and the insertion each hold the
lock, the compression between them does not. -/

namespace Fenrir.Variants

open List

inductive Encoding
  | brotli | gzip
  deriving DecidableEq

/-- The file's ETag, and the encoding. -/
abbrev Key := String × Encoding

structure Entries where
  bytes : Nat
  variants : List (Key × Bytes)
  /-- The sizes of the variants replaced since the last `clear`; nothing reads it. -/
  replaced : Nat
  /-- The size of the variant inserted last; nothing reads it. -/
  last : Nat

def stored (variants : List (Key × Bytes)) : Nat := (variants.map (·.2.length)).sum

def Entries.makeRoom (budget : Nat) (packed : Bytes) (s : Entries) : Entries :=
  if budget < s.bytes + packed.length then ⟨0, [], 0, s.last⟩ else s

def Entries.insert (key : Key) (packed : Bytes) (s : Entries) : Entries where
  bytes := s.bytes + packed.length
  variants := s.variants.filter (·.1 ≠ key) ++ [(key, packed)]
  -- the map returns what it replaces, and it is dropped
  replaced := s.replaced + stored (s.variants.filter (·.1 = key))
  last := packed.length

/-- A call of `get_or_compress`; one that is dropped takes no further step. -/
inductive Call where
  | idle
  | compressing (key : Key) (input : Bytes)
  | packed (key : Key) (packed : Bytes)
  | done (result : Option Bytes)
  deriving DecidableEq

inductive Action where
  | lookup (key : Key) (input : Bytes)
  /-- What `compress_static` gives; `none` if it or its task fails. -/
  | compressed (packed : Option Bytes)
  | insert

def advance (budget : Nat) : Action → Call → Entries → Option (Call × Entries)
  | .lookup key input, .idle, s =>
    match s.variants.find? (·.1 = key) with
    | some hit => some (.done (some hit.2), s)
    | none => some (.compressing key input, s)
  | .compressed none, .compressing .., s => some (.done none, s)
  | .compressed (some packed), .compressing key input, s =>
    -- not worth it
    if packed.length ≥ input.length then some (.done none, s) else some (.packed key packed, s)
  | .insert, .packed key packed, s =>
    some (.done (some packed), (s.makeRoom budget packed).insert key packed)
  | _, _, _ => none

variable {ι : Type} [DecidableEq ι]

abbrev World (ι : Type) := Parties.World ι Entries Call

def step (budget : Nat) : World ι → ι × Action → World ι := Parties.step (advance budget)

def World.boot : World ι := ⟨⟨0, [], 0, 0⟩, fun _ => .idle⟩

structure Accounted (budget : Nat) (s : Entries) : Prop where
  counted : s.bytes = stored s.variants + s.replaced
  bounded : s.bytes ≤ max budget s.last

variable {budget : Nat} {s : Entries}

theorem counted_insert (key : Key) (packed : Bytes) (h : s.bytes = stored s.variants + s.replaced) :
    (s.insert key packed).bytes =
      stored (s.insert key packed).variants + (s.insert key packed).replaced := by
  have hparts := ((filter_append_perm (·.1 ≠ key) s.variants).map (·.2.length)).sum_eq
  simp only [decide_not, Bool.not_not, map_append, sum_append] at hparts
  simp only [Entries.insert, stored, decide_not, map_append, sum_append, map_cons, map_nil,
    sum_cons, sum_nil] at h ⊢
  omega

theorem Accounted.insert (h : Accounted budget s) (key : Key) (packed : Bytes) :
    Accounted budget ((s.makeRoom budget packed).insert key packed) := by
  rw [Entries.makeRoom]
  split_ifs with hover
  · refine ⟨counted_insert key packed rfl, ?_⟩
    exact (Nat.zero_add _).le.trans (Nat.le_max_right ..)
  · exact ⟨counted_insert key packed h.counted, (not_lt.mp hover).trans (Nat.le_max_left ..)⟩

/-- Only an insertion changes what is shared. -/
theorem advance_shared {a : Action} {c c' : Call} {s' : Entries}
    (h : advance budget a c s = some (c', s')) :
    s' = s ∨ ∃ key packed, s' = (s.makeRoom budget packed).insert key packed := by
  revert h
  fun_cases advance budget a c s
  all_goals
    intro h
    cases h
  case case6 => exact .inr ⟨_, _, rfl⟩
  all_goals exact .inl rfl

theorem accounted_step (w : World ι) (event : ι × Action) (h : Accounted budget w.shared) :
    Accounted budget (step budget w event).shared := by
  refine Parties.step_induction (Q := fun w => Accounted budget w.shared) h fun c s hadv => ?_
  rcases advance_shared hadv with rfl | ⟨key, packed, rfl⟩
  · exact h
  · exact h.insert key packed

/-- **COUNTED UNLESS REPLACED**: in every run the counter is the size of what is stored iff
no bytes were replaced since the last `clear`, and what is stored is within the budget or no
more than the last variant. -/
theorem accounted_iff (budget : Nat) (events : List (ι × Action)) :
    let s := (Run.run (step budget) World.boot events).shared
    (s.bytes = stored s.variants ↔ s.replaced = 0) ∧ stored s.variants ≤ max budget s.last := by
  have hboot : Accounted budget (World.boot : World ι).shared := ⟨rfl, Nat.zero_le _⟩
  obtain ⟨hcounted, hbounded⟩ := Run.always accounted_step hboot events
  refine ⟨?_, ?_⟩
  · rw [hcounted]
    exact Nat.add_eq_left
  · exact (Nat.le_add_right ..).trans (hcounted ▸ hbounded)

/-- Two calls that miss the same key both count their variant. -/
theorem replaced_counted_twice :
    let key := ("etag", Encoding.gzip)
    let s := (Run.run (step 64) World.boot [(0, .lookup key [1, 2]), (1, .lookup key [1, 2]),
      (0, .compressed (some [3])), (1, .compressed (some [3])), (0, .insert), (1, .insert)]).shared
    s.bytes = 2 ∧ stored s.variants = 1 := by
  decide

end Fenrir.Variants
