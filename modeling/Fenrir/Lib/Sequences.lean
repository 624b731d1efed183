import Mathlib

/-! # Lists: their ends, and partners in two -/

namespace Sequences

open List

variable {α : Type}

theorem append_singleton_eq {l pre after : List α} {x y : α} (h : l ++ [x] = pre ++ y :: after) :
    (pre = l ∧ y = x) ∨ ∃ after', l = pre ++ y :: after' := by
  rcases eq_nil_or_concat after with rfl | ⟨after', z, rfl⟩
  · obtain ⟨hl, hx⟩ := append_inj' h rfl
    exact .inl ⟨hl.symm, (singleton_inj.mp hx).symm⟩
  · have h' : l ++ [x] = (pre ++ y :: after') ++ [z] := by
      rw [h, concat_eq_append, append_assoc, cons_append]
    exact .inr ⟨after', (append_inj' h' rfl).1⟩

theorem rdropWhile_append (p : α → Bool) (front back : List α) : (front ++ back).rdropWhile p
      = if back.rdropWhile p = [] then front.rdropWhile p else front ++ back.rdropWhile p := by
  rw [List.rdropWhile, reverse_append, dropWhile_append]
  cases h : back.reverse.dropWhile p with
  | nil =>
    have hnil : back.rdropWhile p = [] := by rw [List.rdropWhile, h, reverse_nil]
    rw [if_pos hnil]
    rfl
  | cons c cs =>
    have hco : back.rdropWhile p = (c :: cs).reverse := by rw [List.rdropWhile, h]
    have hne : (c :: cs).reverse ≠ [] := by simp
    rw [hco, if_neg hne]
    show (c :: cs ++ front.reverse).reverse = _
    rw [reverse_append, reverse_reverse]

theorem find_of_nodup {κ : Type} [DecidableEq κ] {f : α → κ} {l : List α} {m : α}
    (h : (l.map f).Nodup) (hm : m ∈ l) : l.find? (fun k => f k = f m) = some m := by
  have hso : (l.find? (fun k => f k = f m)).isSome :=
    find?_isSome.mpr ⟨m, hm, decide_eq_true rfl⟩
  obtain ⟨k, hk⟩ := Option.isSome_iff_exists.mp hso
  have heq := List.find?_some hk
  rw [hk, inj_on_of_nodup_map h (mem_of_find?_eq_some hk) hm (of_decide_eq_true heq)]

variable {β : Type}

variable {as : List α} {bs : List β}

theorem forall₂_left_mem {R : α → β → Prop} (h : List.Forall₂ R as bs) {a : α} (ha : a ∈ as) :
    ∃ b ∈ bs, R a b := by
  obtain ⟨i, hi, rfl⟩ := mem_iff_getElem.mp ha
  have hi' : i < bs.length := h.length_eq ▸ hi
  exact ⟨bs[i], getElem_mem hi', h.get hi hi'⟩

theorem forall₂_right_mem {R : α → β → Prop} (h : List.Forall₂ R as bs) {b : β} (hb : b ∈ bs) :
    ∃ a ∈ as, R a b := by
  obtain ⟨a, ha, hR⟩ := forall₂_left_mem h.flip hb
  exact ⟨a, ha, hR⟩

end Sequences
