import Mathlib

/-! # Runs of a state machine

A machine is a step function on states; a run takes a list of steps. A
condition on single steps holds `Along` a run when each step meets it in the
state the step is taken in. -/

namespace Run

variable {σ α : Type} (step : σ → α → σ)

def run (s : σ) (as : List α) : σ := as.foldl step s

@[simp] theorem run_nil (s : σ) : run step s [] = s := rfl

@[simp] theorem run_cons (s : σ) (a : α) (as : List α) :
    run step s (a :: as) = run step (step s a) as := rfl

theorem run_append (s : σ) (as bs : List α) : run step s (as ++ bs) = run step (run step s as) bs :=
  List.foldl_append

/-- Every step of the run meets the condition in the state it is taken in. -/
def Along (P : σ → α → Prop) : σ → List α → Prop
  | _, [] => True
  | s, a :: as => P s a ∧ Along P (step s a) as

instance (P : σ → α → Prop) [∀ s a, Decidable (P s a)] :
    ∀ (s : σ) (as : List α), Decidable (Along step P s as)
  | _, [] => isTrue trivial
  | s, a :: as =>
    have := instDecidableAlong P (step s a) as
    inferInstanceAs (Decidable (P s a ∧ Along step P (step s a) as))

variable {step} {P : σ → α → Prop} {Inv : σ → Prop}

variable {s : σ} {as : List α}

theorem along_append {bs : List α} :
    Along step P s (as ++ bs) ↔ Along step P s as ∧ Along step P (run step s as) bs := by
  induction as generalizing s with
  | nil => exact ⟨fun h => ⟨trivial, h⟩, fun h => h.2⟩
  | cons a as ih =>
    show P s a ∧ Along step P (step s a) (as ++ bs) ↔ _
    rw [ih]
    exact and_assoc.symm

theorem along_of_forall {Q : α → Prop} (h : ∀ a ∈ as, Q a) : Along step (fun _ a => Q a) s as := by
  induction as generalizing s with
  | nil => trivial
  | cons a as ih =>
    exact ⟨h a List.mem_cons_self, ih fun b hb => h b (List.mem_cons_of_mem _ hb)⟩

/-- **THE INVARIANT RULE.** -/
theorem invariant (hst : ∀ s a, Inv s → P s a → Inv (step s a)) (hs : Inv s)
    (hP : Along step P s as) : Inv (run step s as) := by
  induction as generalizing s with
  | nil => exact hs
  | cons a as ih => exact ih (hst s a hs hP.1) hP.2

theorem always (hst : ∀ s a, Inv s → Inv (step s a)) (hs : Inv s) (as : List α) :
    Inv (run step s as) := by
  induction as generalizing s with
  | nil => exact hs
  | cons a as ih => exact ih (hst s a hs)

/-- Conditions that agree wherever an invariant holds are met along the same runs, if the
steps that meet them keep the invariant. -/
theorem along_congr {Q : σ → α → Prop} (hst : ∀ s a, Inv s → Q s a → Inv (step s a))
    (hiff : ∀ s a, Inv s → (P s a ↔ Q s a)) (hs : Inv s) (as : List α) :
    Along step P s as ↔ Along step Q s as := by
  induction as generalizing s with
  | nil => exact Iff.rfl
  | cons a as ih =>
    constructor
    · rintro ⟨ha, has⟩
      have hq := (hiff s a hs).mp ha
      exact ⟨hq, (ih (hst s a hs hq)).mp has⟩
    · rintro ⟨hq, has⟩
      exact ⟨(hiff s a hs).mpr hq, (ih (hst s a hs hq)).mpr has⟩

/-- **THE SIMULATION RULE.** Two machines that take the same steps stay related. -/
theorem simulation {τ : Type} {step' : τ → α → τ} {R : σ → τ → Prop}
    (hst : ∀ s t a, R s t → P s a → R (step s a) (step' t a)) {t : τ} (hR : R s t)
    (hP : Along step P s as) : R (run step s as) (run step' t as) := by
  induction as generalizing s t with
  | nil => exact hR
  | cons a as ih => exact ih (hst s t a hR hP.1) hP.2

end Run
