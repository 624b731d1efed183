import Mathlib

/-! # Depth-first traversal with a stack and a seen set

A graph is discovered while it is walked: following an edge produces a
value or fails, and a value has edges of its own. `walk` pops an edge,
skips it when its TARGET was seen before, and otherwise follows it and
pushes the edges of what it found. Every target is followed through ONE
edge only, the first that is popped. -/

namespace Worklist

open List Or

/-- A graph known by its edges: where an edge leads, what following it finds
and which edges leave that. Only finitely many targets can be found. -/
structure Graph (ι E β ε : Type) where
  target : E → ι
  visit : E → Except ε β
  next : β → List E
  nodes : List ι
  finite : ∀ e b, visit e = .ok b → target e ∈ nodes

variable {ι E β ε : Type} [DecidableEq ι]

def unseen (g : Graph ι E β ε) (seen : List ι) : List ι := g.nodes.filter (· ∉ seen)

variable {seen : List ι} {g : Graph ι E β ε} {out result : List β} {stack : List E}

theorem unseen_lt (g : Graph ι E β ε) {n : ι} (hn : n ∈ g.nodes) (hs : n ∉ seen) :
    (unseen g (n :: seen)).length < (unseen g seen).length := by
  have hsub : (unseen g (n :: seen)).Sublist (unseen g seen) := by
    refine monotone_filter_right _ ?_
    intro m hm
    simp only [mem_cons, not_or, decide_eq_true_eq] at hm ⊢
    exact hm.2
  have hmem : n ∈ unseen g seen := mem_filter.mpr ⟨hn, by simpa using hs⟩
  refine lt_of_le_of_ne hsub.length_le ?_
  intro heq
  rw [← hsub.eq_of_length heq] at hmem
  simp [unseen] at hmem

/-- `stack.extend(..)`: the last edge of a value ends up on top. -/
def push (g : Graph ι E β ε) (b : β) (rest : List E) : List E := (g.next b).reverse ++ rest

omit [DecidableEq ι] in
theorem mem_push {b : β} {rest : List E} {e : E} : e ∈ push g b rest ↔ e ∈ g.next b ∨ e ∈ rest := by
  rw [push, mem_append, mem_reverse]

/-- `while let Some(edge) = stack.pop()`, the top of the stack first. -/
def walk (g : Graph ι E β ε) (seen : List ι) (stack : List E) (out : List β) : Except ε (List β) :=
  match stack with
  | [] => .ok out
  | e :: rest =>
    if g.target e ∈ seen then walk g seen rest out
    else
      match _h : g.visit e with
      | .error err => .error err
      | .ok b => walk g (g.target e :: seen) (push g b rest) (out ++ [b])
termination_by ((unseen g seen).length, stack.length)
decreasing_by
  · exact Prod.Lex.right _ (by simp)
  · rename_i hs
    exact Prod.Lex.left _ _ (unseen_lt g (g.finite e b _h) hs)

section

variable (g : Graph ι E β ε) {seen : List ι} {e : E} {rest : List E} {out : List β}

@[simp] theorem walk_nil : walk g seen [] out = .ok out := by
  rw [walk]

theorem walk_seen (h : g.target e ∈ seen) : walk g seen (e :: rest) out = walk g seen rest out := by
  rw [walk, if_pos h]

theorem walk_stop (h : g.target e ∉ seen) {err : ε} (hv : g.visit e = .error err) :
    walk g seen (e :: rest) out = .error err := by
  rw [walk, if_neg h]
  split
  · rename_i err' hv'
    rw [hv] at hv'
    rw [Except.error.inj hv']
  · rename_i b hv'
    rw [hv] at hv'
    cases hv'

theorem walk_visit (h : g.target e ∉ seen) {b : β} (hv : g.visit e = .ok b) :
    walk g seen (e :: rest) out
      = walk g (g.target e :: seen) (push g b rest) (out ++ [b]) := by
  rw [walk, if_neg h]
  split
  · rename_i err hv'
    rw [hv] at hv'
    cases hv'
  · rename_i b' hv'
    rw [hv] at hv'
    rw [Except.ok.inj hv']

end

/-- A traversal that returns, by the steps it made: the stack was empty, the
top was skipped, or the top was followed. -/
theorem walk_induction {motive : List ι → List E → List β → Prop}
    (nil : ∀ seen, motive seen [] result)
    (skip : ∀ seen e rest out, g.target e ∈ seen → motive seen rest out →
      motive seen (e :: rest) out)
    (follow : ∀ seen e rest out b, g.target e ∉ seen → g.visit e = .ok b →
      motive (g.target e :: seen) (push g b rest) (out ++ [b]) →
      motive seen (e :: rest) out)
    (h : walk g seen stack out = .ok result) : motive seen stack out := by
  induction seen, stack, out using walk.induct g with
  | case1 seen out =>
    rw [walk_nil] at h
    rw [Except.ok.inj h]
    exact nil seen
  | case2 seen out e rest hseen ih =>
    rw [walk_seen g hseen] at h
    exact skip seen e rest out hseen (ih h)
  | case3 seen out e rest hseen err hv =>
    rw [walk_stop g hseen hv] at h
    cases h
  | case4 seen out e rest hseen b hv ih =>
    rw [walk_visit g hseen hv] at h
    exact follow seen e rest out b hseen hv (ih h)

/-- **INVARIANT RULE**: a property of the edges on the stack that following an
edge hands on holds of the edge each result was found through. -/
theorem walk_invariant {P : E → Prop} (hst : ∀ e b, P e → g.visit e = .ok b → ∀ e' ∈ g.next b, P e')
    (h : walk g seen stack out = .ok result) (hsta : ∀ e ∈ stack, P e) :
    ∀ b ∈ result, b ∈ out ∨ ∃ e, P e ∧ g.target e ∉ seen ∧ g.visit e = .ok b := by
  refine walk_induction (motive := fun seen stack out => (∀ e ∈ stack, P e) →
    ∀ b ∈ result, b ∈ out ∨ ∃ e, P e ∧ g.target e ∉ seen ∧ g.visit e = .ok b) ?_ ?_ ?_ h hsta
  · intro _ _ b hb
    exact inl hb
  · intro _ _ _ _ _ ih hsta
    exact ih (fun e he => hsta e (mem_cons_of_mem _ he))
  · intro seen e rest out b hse hv ih hsta c hc
    have he : P e := hsta e mem_cons_self
    have hpus : ∀ e' ∈ push g b rest, P e' := by
      intro e' he'
      rcases mem_push.mp he' with hnew | hold
      · exact hst e b he hv e' hnew
      · exact hsta e' (mem_cons_of_mem _ hold)
    rcases ih hpus c hc with hout | ⟨e', hP, hns, hv'⟩
    · rcases mem_append.mp hout with hold | hnew
      · exact inl hold
      · rw [mem_singleton.mp hnew]
        exact inr ⟨e, he, hse, hv⟩
    · exact inr ⟨e', hP, fun hmem => hns (mem_cons_of_mem _ hmem), hv'⟩

/-- The target was seen before, or some edge with that target was followed to
one of the results. -/
def Covered (g : Graph ι E β ε) (seen : List ι) (result : List β) (n : ι) : Prop :=
  n ∈ seen ∨ ∃ b ∈ result, ∃ e, g.target e = n ∧ g.visit e = .ok b

/-- **CLOSURE**: every edge on the stack, and every edge leaving a new result,
leads to a seen target or to a result. -/
theorem walk_covers (h : walk g seen stack out = .ok result) :
    (∀ e ∈ stack, Covered g seen result (g.target e)) ∧
      ∀ b ∈ result, b ∉ out → ∀ e ∈ g.next b, Covered g seen result (g.target e) := by
  -- a run of the rest covers with one more seen target; that target has a result
  have hba : ∀ {seen : List ι} {e : E} {b : β} {n : ι}, b ∈ result → g.visit e = .ok b →
      Covered g (g.target e :: seen) result n → Covered g seen result n := by
    intro seen e b n hb hv hcov
    rcases hcov with hmem | hres
    · rcases mem_cons.mp hmem with heq | hold
      · exact inr ⟨b, hb, e, heq.symm, hv⟩
      · exact inl hold
    · exact inr hres
  refine (walk_induction (motive := fun seen stack out => (∀ b ∈ out, b ∈ result) ∧
    (∀ e ∈ stack, Covered g seen result (g.target e)) ∧
      ∀ b ∈ result, b ∉ out → ∀ e ∈ g.next b, Covered g seen result (g.target e))
    ?_ ?_ ?_ h).2
  · intro _
    exact ⟨fun _ hb => hb, nofun, fun b hb hnot => absurd hb hnot⟩
  · rintro seen e rest out hse ⟨hout, hre, hnew⟩
    refine ⟨hout, ?_, hnew⟩
    intro e' he'
    rcases mem_cons.mp he' with rfl | hold
    · exact inl hse
    · exact hre e' hold
  · rintro seen e rest out b - hv ⟨hout, hsta, hnew⟩
    have hb : b ∈ result := hout b (by simp)
    refine ⟨fun c hc => hout c (mem_append_left _ hc), ?_, ?_⟩
    · intro e' he'
      rcases mem_cons.mp he' with rfl | hold
      · exact inr ⟨b, hb, e', rfl, hv⟩
      · exact hba hb hv (hsta e' (mem_push.mpr (inr hold)))
    · intro c hc hco e' he'
      by_cases hcb : c = b
      · rw [hcb] at he'
        exact hba hb hv (hsta e' (mem_push.mpr (inl he')))
      · exact hba hb hv (hnew c hc (by simp [hco, hcb]) e' he')

theorem walk_nodup {key : β → ι} (hkey : ∀ e b, g.visit e = .ok b → key b = g.target e)
    (h : walk g seen stack out = .ok result)
    (hse : ∀ b ∈ out, key b ∈ seen) (hout : (out.map key).Nodup) : (result.map key).Nodup := by
  refine walk_induction (motive := fun seen _ out => (∀ b ∈ out, key b ∈ seen) →
    (out.map key).Nodup → (result.map key).Nodup) ?_ ?_ ?_ h hse hout
  · intro _ _ hout
    exact hout
  · intro _ _ _ _ _ ih
    exact ih
  · intro seen e rest out b hns hv ih hse hout
    have hb : key b = g.target e := hkey e b hv
    refine ih ?_ ?_
    · intro c hc
      rcases mem_append.mp hc with hc | hc
      · exact mem_cons_of_mem _ (hse c hc)
      · rw [mem_singleton.mp hc, hb]
        exact mem_cons_self
    · rw [map_append, nodup_append]
      refine ⟨hout, nodup_singleton _, ?_⟩
      intro n hn m hm heq
      obtain ⟨c, hc, rfl⟩ := mem_map.mp hn
      rw [mem_singleton.mp hm, hb] at heq
      exact hns (heq ▸ hse c hc)

end Worklist
