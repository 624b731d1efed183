import Mathlib

/-! # Lists of writes to a keyed store

The abstract picture of a change that is made entry by entry: a store is a
partial map, a write sets or clears one key, a change is a list of writes
run in order. -/

namespace Writes

variable {K V : Type} [DecidableEq K]

def run (store : K → Option V) (writes : List (K × Option V)) : K → Option V :=
  writes.foldl (fun store w => Function.update store w.1 w.2) store

@[simp] theorem run_nil (store : K → Option V) : run store [] = store := rfl

@[simp] theorem run_cons (store : K → Option V) (w : K × Option V)
    (writes : List (K × Option V)) :
    run store (w :: writes) = run (Function.update store w.1 w.2) writes := rfl

variable {writes : List (K × Option V)} {k : K}

theorem run_of_absent (h : ∀ w ∈ writes, w.1 ≠ k) (store : K → Option V) :
    run store writes k = store k := by
  induction writes generalizing store with
  | nil => rfl
  | cons w ws ih =>
    rw [run_cons, ih (fun w' hw' => h w' (List.mem_cons_of_mem _ hw'))]
    exact Function.update_of_ne (h w List.mem_cons_self).symm _ _

theorem run_of_forall {P : Option V → Prop} (hP : ∀ w ∈ writes, w.1 = k → P w.2)
    (hk : ∃ w ∈ writes, w.1 = k) (store : K → Option V) : P (run store writes k) := by
  induction writes generalizing store with
  | nil => exact nomatch hk
  | cons w ws ih =>
    rw [run_cons]
    by_cases hlat : ∃ w' ∈ ws, w'.1 = k
    · exact ih (fun w' hw' => hP w' (List.mem_cons_of_mem _ hw')) hlat _
    · obtain ⟨w', hw', hkey⟩ := hk
      have hw : w' = w := by
        rcases List.mem_cons.mp hw' with heq | hmem
        · exact heq
        · exact absurd ⟨w', hmem, hkey⟩ hlat
      subst hw
      rw [run_of_absent (fun w'' hw'' heq => hlat ⟨w'', hw'', heq⟩), ← hkey, Function.update_self]
      exact hP w' List.mem_cons_self hkey

theorem run_of_agree {v : Option V} (hv : ∀ w ∈ writes, w.1 = k → w.2 = v)
    (hk : ∃ w ∈ writes, w.1 = k) (store : K → Option V) : run store writes k = v :=
  run_of_forall (P := (· = v)) hv hk store

/-- What the store holds at the given keys, as writes. -/
def snapshot (store : K → Option V) (keys : List K) : List (K × Option V) :=
  keys.map fun k => (k, store k)

end Writes
