import Fenrir.Lib.Run

/-! # Parties over a shared state

Any number of parties, each in a state of its own, work on a state they share. A
step is one party's: what it does depends on the shared state and on its own, and
changes these two and nothing else. -/

namespace Parties

open Finset Function

variable {ι σ π α : Type} [DecidableEq ι]

structure World (ι σ π : Type) where
  shared : σ
  party : ι → π

/-- One step of one party; a step that is not possible changes nothing. -/
def step (advance : α → π → σ → Option (π × σ)) (w : World ι σ π) (event : ι × α) : World ι σ π :=
  match advance event.2 (w.party event.1) w.shared with
  | none => w
  | some (p, shared) => ⟨shared, update w.party event.1 p⟩

variable {advance : α → π → σ → Option (π × σ)} {w : World ι σ π}

variable {i : ι} {a : α}

theorem step_none (h : advance a (w.party i) w.shared = none) : step advance w (i, a) = w := by
  rw [step, h]

theorem step_some {p : π} {shared : σ} (h : advance a (w.party i) w.shared = some (p, shared)) :
    step advance w (i, a) = ⟨shared, update w.party i p⟩ := by
  rw [step, h]

theorem step_induction {Q : World ι σ π → Prop} (hw : Q w)
    (h : ∀ p shared, advance a (w.party i) w.shared = some (p, shared) →
      Q ⟨shared, update w.party i p⟩) : Q (step advance w (i, a)) := by
  cases hadv : advance a (w.party i) w.shared with
  | none =>
    rw [step_none hadv]
    exact hw
  | some result =>
    rw [step_some hadv]
    exact h result.1 result.2 hadv

/-! ## Quantities -/

section

def total (members : Finset ι) (f : π → ℤ) (x : ι → π) : ℤ := ∑ i ∈ members, f (x i)

variable {i : ι}

theorem total_update {members : Finset ι} (hi : i ∈ members) (f : π → ℤ) (x : ι → π) (p : π) :
    total members f (update x i p) = total members f x - f (x i) + f p := by
  have hre : ∑ j ∈ members.erase i, f (update x i p j) = ∑ j ∈ members.erase i, f (x j) := by
    refine sum_congr rfl fun j hj => ?_
    rw [update_of_ne (ne_of_mem_erase hj)]
  rw [total, total, ← add_sum_erase _ _ hi, ← add_sum_erase _ (fun j => f (x j)) hi,
    hre, update_self]
  ring

variable [Fintype ι]

def tally (f : π → ℤ) (party : ι → π) : ℤ := total univ f party

theorem tally_update (f : π → ℤ) (party : ι → π) (i : ι) (p : π) :
    tally f (update party i p) = tally f party - f (party i) + f p :=
  total_update (mem_univ i) f party p

omit [DecidableEq ι] in
theorem tally_mono {f g : π → ℤ} {party : ι → π} (h : ∀ i, f (party i) ≤ g (party i)) :
    tally f party ≤ tally g party :=
  Finset.sum_le_sum fun i _ => h i

omit [DecidableEq ι] in
theorem tally_congr {f g : π → ℤ} {party : ι → π} (h : ∀ i, f (party i) = g (party i)) :
    tally f party = tally g party :=
  sum_congr rfl fun i _ => h i

omit [DecidableEq ι] in
theorem le_tally {f : π → ℤ} {party : ι → π} (h : ∀ i, 0 ≤ f (party i)) (i : ι) :
    f (party i) ≤ tally f party :=
  Finset.single_le_sum (fun j _ => h j) (mem_univ i)

/-- **BALANCE.** What a party gives to the shared state, it no longer has. -/
theorem balance {f : π → ℤ} {party : ι → π} {p : π} {stock stock' : ℤ}
    (h : stock' + f p = stock + f (party i)) :
    stock' + tally f (update party i p) = stock + tally f party := by
  rw [tally_update]
  linarith

end

/-! ## What each party knows -/

/-- **THE RULE OF PARTIES.** A step keeps what the parties know if the one that steps
knows it again and the others go on knowing it. -/
theorem forall_party {I : σ → π → Prop}
    (hown : ∀ p shared, advance a (w.party i) w.shared = some (p, shared) →
      I w.shared (w.party i) → I shared p)
    (hoth : ∀ p shared, advance a (w.party i) w.shared = some (p, shared) →
      ∀ j, j ≠ i → I w.shared (w.party j) → I shared (w.party j))
    (h : ∀ j, I w.shared (w.party j)) :
    ∀ j, I (step advance w (i, a)).shared ((step advance w (i, a)).party j) := by
  refine step_induction (Q := fun w' => ∀ j, I w'.shared (w'.party j)) h ?_
  intro p shared hadv j
  by_cases hj : j = i
  · rw [hj]
    show I shared (update w.party i p i)
    rw [update_self]
    exact hown p shared hadv (h i)
  · show I shared (update w.party i p j)
    rw [update_of_ne hj]
    exact hoth p shared hadv j hj (h j)

end Parties
