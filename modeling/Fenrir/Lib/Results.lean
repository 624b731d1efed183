import Mathlib

/-! # Computations that can fail

`Except` as Rust's `Result`: what a `?` passes on, and loops that stop at the first
error. -/

namespace Results

variable {ε α β : Type}

theorem ok_bind (a : α) (f : α → Except ε β) : ((Except.ok a : Except ε α) >>= f) = f a := rfl

theorem bind_eq_ok {x : Except ε α} {f : α → Except ε β} {b : β} (h : (x >>= f) = .ok b) :
    ∃ a, x = .ok a ∧ f a = .ok b := by
  cases x with
  | error err => cases h
  | ok a => exact ⟨a, rfl, h⟩

theorem mapError_ok {x : Except ε α} {f : ε → β} {a : α} (h : x.mapError f = .ok a) :
    x = .ok a := by
  cases x with
  | error err => cases h
  | ok b =>
    cases h
    rfl

variable {l : List α} {bs : List β}

theorem mapM_ok {f : α → Except ε β} {g : α → β} (h : ∀ x ∈ l, f x = .ok (g x)) :
    l.mapM f = .ok (l.map g) := by
  induction l with
  | nil => rfl
  | cons x l ih =>
    rw [List.mapM_cons, h x List.mem_cons_self, ih fun y hy => h y (List.mem_cons_of_mem _ hy)]
    rfl

theorem foldlM_ok {f : β → α → Except ε β} {g : β → α → β} {b : β}
    (h : ∀ b, ∀ x ∈ l, f b x = .ok (g b x)) : l.foldlM f b = .ok (l.foldl g b) := by
  induction l generalizing b with
  | nil => rfl
  | cons x l ih =>
    rw [List.foldlM_cons, h b x List.mem_cons_self]
    exact ih fun b y hy => h b y (List.mem_cons_of_mem _ hy)

theorem mapM_forall₂ {f : α → Except ε β} (h : l.mapM f = .ok bs) :
    List.Forall₂ (fun a b => f a = .ok b) l bs := by
  induction l generalizing bs with
  | nil =>
    rw [List.mapM_nil] at h
    cases h
    exact .nil
  | cons a l ih =>
    rw [List.mapM_cons] at h
    obtain ⟨b, ha, h⟩ := bind_eq_ok h
    obtain ⟨rest, hl, h⟩ := bind_eq_ok h
    cases h
    exact .cons ha (ih hl)

theorem forall₂_at {R : α → β → Prop} (h : List.Forall₂ R l bs) {i : Nat} {a : α}
    (ha : l[i]? = some a) : ∃ b, bs[i]? = some b ∧ R a b := by
  obtain ⟨hi, rfl⟩ := List.getElem?_eq_some_iff.mp ha
  have hi' : i < bs.length := h.length_eq ▸ hi
  exact ⟨bs[i], List.getElem?_eq_getElem hi', h.get hi hi'⟩

end Results
