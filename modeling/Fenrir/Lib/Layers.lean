import Mathlib

/-! # Counting dependencies off

Every node of a graph counts the dependencies that are not settled yet and knows its
children, the nodes that depend on it. Settling a node takes one off the count of each
child; a child whose count falls to zero is ready. -/

namespace Layers

open List Function

variable {α : Type} [DecidableEq α]

/-- The counters; a node that is not in the graph has none. `ready` is a set, its
elements once each. -/
structure Counters (α : Type) where
  indegree : α → Option Nat
  outgoing : α → Option (List α)
  ready : List α

/-- One off the count of a child. -/
def decrement (acc : (α → Option Nat) × List α) (child : α) : (α → Option Nat) × List α :=
  match acc.1 child with
  | some (k + 1) =>
    (Function.update acc.1 child (some k), if k = 0 then acc.2.insert child else acc.2)
  | _ => acc

/-- The node is settled: its children count it off. -/
def Counters.settle (c : Counters α) (node : α) : Counters α :=
  let children := (c.outgoing node).getD []
  let (indegree, ready) := children.foldl decrement (c.indegree, c.ready)
  ⟨indegree, Function.update c.outgoing node none, ready⟩

theorem decrement_indegree (acc : (α → Option Nat) × List α) (child m : α) :
    (decrement acc child).1 m = if m = child then (acc.1 m).map (· - 1) else acc.1 m := by
  by_cases hm : m = child
  · rw [if_pos hm, hm, decrement]
    split
    · next k hk =>
        show update acc.1 child (some k) child = _
        rw [update_self, hk]
        rfl
    · next hk =>
        cases hc : acc.1 child with
        | none => rfl
        | some k =>
          cases k with
          | zero => rfl
          | succ k => exact absurd hc (hk k)
  · rw [if_neg hm, decrement]
    split
    · next k hk =>
        show update acc.1 child (some k) m = _
        rw [update_of_ne hm]
    · rfl

theorem mem_decrement_ready (acc : (α → Option Nat) × List α) (child m : α) :
    m ∈ (decrement acc child).2 ↔ m ∈ acc.2 ∨ m = child ∧ acc.1 m = some 1 := by
  rw [decrement]
  split
  · next k hk =>
      by_cases hk0 : k = 0
      · rw [if_pos hk0, mem_insert_iff]
        constructor
        · rintro (rfl | hm)
          · exact .inr ⟨rfl, by rw [hk, hk0]⟩
          · exact .inl hm
        · rintro (hm | ⟨rfl, -⟩)
          · exact .inr hm
          · exact .inl rfl
      · rw [if_neg hk0]
        refine ⟨.inl, ?_⟩
        rintro (hm | ⟨rfl, hone⟩)
        · exact hm
        · rw [hk] at hone
          have := Option.some.inj hone
          omega
  · next hk =>
      refine ⟨.inl, ?_⟩
      rintro (hm | ⟨rfl, hone⟩)
      · exact hm
      · exact absurd hone (hk 0)

theorem nodup_decrement_ready {acc : (α → Option Nat) × List α} (h : acc.2.Nodup) (child : α) :
    (decrement acc child).2.Nodup := by
  rw [decrement]
  split
  · split
    · exact h.insert
    · exact h
  · exact h

theorem nodup_foldl_decrement {acc : (α → Option Nat) × List α} (h : acc.2.Nodup)
    (children : List α) : (children.foldl decrement acc).2.Nodup := by
  induction children generalizing acc with
  | nil => exact h
  | cons child rest ih => exact ih (nodup_decrement_ready h child)

theorem foldl_decrement {children : List α} (hnod : children.Nodup)
    (acc : (α → Option Nat) × List α) (m : α) :
    (children.foldl decrement acc).1 m
        = (if m ∈ children then (acc.1 m).map (· - 1) else acc.1 m) ∧
      (m ∈ (children.foldl decrement acc).2 ↔ m ∈ acc.2 ∨ m ∈ children ∧ acc.1 m = some 1) := by
  induction children generalizing acc with
  | nil =>
    refine ⟨by rw [if_neg not_mem_nil]; rfl, ?_⟩
    show m ∈ acc.2 ↔ _
    simp only [not_mem_nil, false_and, or_false]
  | cons child rest ih =>
    obtain ⟨hfre, hre⟩ := nodup_cons.mp hnod
    obtain ⟨hdeg, hrea⟩ := ih hre (decrement acc child)
    rw [foldl_cons, hdeg, hrea, decrement_indegree, mem_decrement_ready]
    by_cases hm : m = child
    · subst hm
      rw [if_neg hfre, if_pos rfl, if_pos mem_cons_self]
      refine ⟨rfl, ?_⟩
      simp only [hfre, mem_cons_self, true_and, false_and, or_false]
    · rw [if_neg hm]
      simp only [mem_cons, hm, false_or, false_and, or_false]
      exact ⟨trivial, trivial⟩

/-! ## The counts of a graph -/

/-- The counters of the graph with these nodes and dependencies, when the nodes of `done`
are settled. A dependency need not be a node: it is never settled then. -/
structure Counts (nodes : Finset α) (deps : α → Finset α) (done : Finset α) (c : Counters α) :
    Prop where
  closed : ∀ m ∈ done, deps m ⊆ done
  count : ∀ m ∈ nodes, c.indegree m = some (deps m \ done).card
  outside : ∀ m ∉ nodes, c.indegree m = none
  children : ∀ d ∈ nodes, d ∉ done → ∃ l, c.outgoing d = some l ∧ l.Nodup ∧
    ∀ m, m ∈ l ↔ m ∈ nodes ∧ d ∈ deps m

variable {nodes done : Finset α} {deps : α → Finset α} {c : Counters α} {node : α}

theorem Counts.mem_ready_settle (h : Counts nodes deps done c) (hno : node ∈ nodes)
    (hnew : node ∉ done) {m : α} :
    m ∈ (c.settle node).ready ↔
      m ∈ c.ready ∨ m ∈ nodes ∧ node ∈ deps m ∧ deps m ⊆ insert node done := by
  obtain ⟨l, hl, hnodu, hmem⟩ := h.children node hno hnew
  have hfo := (foldl_decrement hnodu (c.indegree, c.ready) m).2
  have hset : (c.settle node).ready = (l.foldl decrement (c.indegree, c.ready)).2 := by
    rw [Counters.settle, hl]
    rfl
  rw [hset, hfo, hmem, and_assoc]
  refine or_congr_right (and_congr_right fun hm => and_congr_right fun hdep => ?_)
  show c.indegree m = some 1 ↔ _
  rw [h.count m hm, Option.some_inj, Finset.card_eq_one]
  constructor
  · rintro ⟨x, hx⟩ d hd
    by_cases hdo : d ∈ done
    · exact Finset.mem_insert_of_mem hdo
    · have hnod : node ∈ deps m \ done := Finset.mem_sdiff.mpr ⟨hdep, hnew⟩
      have hdx : d ∈ deps m \ done := Finset.mem_sdiff.mpr ⟨hd, hdo⟩
      rw [hx, Finset.mem_singleton] at hnod hdx
      rw [hdx, ← hnod]
      exact Finset.mem_insert_self _ _
  · intro hsub
    refine ⟨node, Finset.ext fun d => ?_⟩
    rw [Finset.mem_sdiff, Finset.mem_singleton]
    constructor
    · rintro ⟨hd, hdo⟩
      exact (Finset.mem_insert.mp (hsub hd)).resolve_right hdo
    · rintro rfl
      exact ⟨hdep, hnew⟩

/-- **SETTLING KEEPS THE COUNTS.** -/
theorem Counts.settle (h : Counts nodes deps done c) (hno : node ∈ nodes) (hnew : node ∉ done)
    (hde : deps node ⊆ done) : Counts nodes deps (insert node done) (c.settle node) := by
  obtain ⟨l, hl, hnod, hmem⟩ := h.children node hno hnew
  have hind : ∀ m, (c.settle node).indegree m =
      if m ∈ l then (c.indegree m).map (· - 1) else c.indegree m := by
    intro m
    rw [← (foldl_decrement hnod (c.indegree, c.ready) m).1, Counters.settle, hl]
    rfl
  refine ⟨?_, ?_, ?_, ?_⟩
  · intro m hm
    rcases Finset.mem_insert.mp hm with rfl | hm
    · exact hde.trans (Finset.subset_insert _ _)
    · exact (h.closed m hm).trans (Finset.subset_insert _ _)
  · intro m hm
    rw [hind, h.count m hm]
    by_cases hchi : m ∈ l
    · have hdep : node ∈ deps m \ done := Finset.mem_sdiff.mpr ⟨((hmem m).mp hchi).2, hnew⟩
      rw [if_pos hchi, Finset.sdiff_insert, Finset.card_erase_of_mem hdep]
      rfl
    · have hdep : node ∉ deps m := fun hd => hchi ((hmem m).mpr ⟨hm, hd⟩)
      rw [if_neg hchi, Finset.sdiff_insert_of_notMem hdep]
  · intro m hm
    have hchi : m ∉ l := fun hl => hm ((hmem m).mp hl).1
    rw [hind, if_neg hchi]
    exact h.outside m hm
  · intro d hd hdo
    rw [Finset.mem_insert, not_or] at hdo
    show ∃ l, update c.outgoing node none d = some l ∧ _
    rw [update_of_ne hdo.1]
    exact h.children d hd hdo.2

/-! ## The frontier -/

/-- A layer is being settled, and the nodes of `todo` are left of it. They and the nodes
that are ready for the next layer are the unsettled ones without unsettled
dependencies. -/
structure Frontier (nodes : Finset α) (deps : α → Finset α) (done : Finset α) (c : Counters α)
    (todo : List α) : Prop where
  counts : Counts nodes deps done c
  inside : done ⊆ nodes
  front : ∀ m, m ∈ todo ∨ m ∈ c.ready ↔ m ∈ nodes ∧ m ∉ done ∧ deps m ⊆ done
  apart : ∀ m ∈ todo, m ∉ c.ready
  nodup : todo.Nodup
  readyNodup : c.ready.Nodup

namespace Frontier

variable {todo : List α}

theorem settle (h : Frontier nodes deps done c (node :: todo)) :
    Frontier nodes deps (insert node done) (c.settle node) todo := by
  obtain ⟨hno, hnew, hde⟩ := (h.front node).mp (.inl mem_cons_self)
  obtain ⟨hfre, hto⟩ := nodup_cons.mp h.nodup
  have hrea : ∀ m, m ∈ (c.settle node).ready ↔
      m ∈ c.ready ∨ m ∈ nodes ∧ node ∈ deps m ∧ deps m ⊆ insert node done :=
    fun m => h.counts.mem_ready_settle hno hnew
  refine ⟨h.counts.settle hno hnew hde, Finset.insert_subset hno h.inside, ?_, ?_, hto,
    nodup_foldl_decrement h.readyNodup _⟩
  · intro m
    rw [hrea, Finset.mem_insert, not_or]
    constructor
    · rintro (hm | hm | ⟨hm, hdep, hsub⟩)
      · obtain ⟨hn, hd, hsub⟩ := (h.front m).mp (.inl (mem_cons_of_mem _ hm))
        refine ⟨hn, ⟨?_, hd⟩, hsub.trans (Finset.subset_insert _ _)⟩
        rintro rfl
        exact hfre hm
      · obtain ⟨hn, hd, hsub⟩ := (h.front m).mp (.inr hm)
        refine ⟨hn, ⟨?_, hd⟩, hsub.trans (Finset.subset_insert _ _)⟩
        rintro rfl
        exact h.apart m mem_cons_self hm
      · -- a node that depends on the one just settled was not settled before
        refine ⟨hm, ⟨?_, fun hd => hnew (h.counts.closed m hd hdep)⟩, hsub⟩
        rintro rfl
        exact hnew (hde hdep)
    · rintro ⟨hn, ⟨hne, hd⟩, hsub⟩
      by_cases hdep : node ∈ deps m
      · exact .inr (.inr ⟨hn, hdep, hsub⟩)
      · have hold : deps m ⊆ done := (Finset.subset_insert_iff_of_notMem hdep).mp hsub
        rcases (h.front m).mpr ⟨hn, hd, hold⟩ with hm | hm
        · exact .inl ((mem_cons.mp hm).resolve_left hne)
        · exact .inr (.inl hm)
  · intro m hm hr
    rcases (hrea m).mp hr with hold | ⟨-, hdep, -⟩
    · exact h.apart m (mem_cons_of_mem _ hm) hold
    · exact hnew (((h.front m).mp (.inl (mem_cons_of_mem _ hm))).2.2 hdep)

theorem next (h : Frontier nodes deps done c []) {cur : List α} (hnod : cur.Nodup)
    (hcur : ∀ m, m ∈ cur ↔ m ∈ c.ready) :
    Frontier nodes deps done { c with ready := [] } cur where
  counts := ⟨h.counts.closed, h.counts.count, h.counts.outside, h.counts.children⟩
  inside := h.inside
  front m := by
    rw [hcur, ← h.front m]
    simp only [not_mem_nil, or_false, false_or]
  apart _ _ := not_mem_nil
  nodup := hnod
  readyNodup := nodup_nil

end Frontier

/-! ## What can never be settled -/

omit [DecidableEq α] in
theorem exists_cycle_of_successors {r : α → α → Prop} {s : Set α} (hs : s.Finite)
    (hsu : ∀ a ∈ s, ∃ b ∈ s, r a b) {a : α} (ha : a ∈ s) :
    ∃ c, Relation.ReflTransGen r a c ∧ Relation.TransGen r c c := by
  have hsu' : ∀ b : s, ∃ c : s, r b c := fun b => by simpa using hsu b b.2
  choose next hnext using hsu'
  have hit : ∀ (b : s) (n : Nat), Relation.ReflTransGen r b (next^[n] b) := by
    intro b n
    induction n with
    | zero => exact .refl
    | succ n ih =>
        rw [iterate_succ_apply']
        exact ih.tail (hnext _)
  have hfin : Finite s := hs
  obtain ⟨i, j, hne, heq⟩ := Finite.exists_ne_map_eq_of_infinite fun n => next^[n] ⟨a, ha⟩
  wlog hij : i < j generalizing i j
  · exact this j i hne.symm heq.symm (by omega)
  obtain ⟨k, rfl⟩ := Nat.exists_eq_add_of_lt hij
  have hrou : next^[k] (next (next^[i] ⟨a, ha⟩)) = next^[i] ⟨a, ha⟩ := by
    rw [← iterate_succ_apply, ← iterate_add_apply, show k.succ + i = i + k + 1 by omega]
    exact heq.symm
  refine ⟨_, hit ⟨a, ha⟩ i, ?_⟩
  have hcyc := Relation.TransGen.head' (hnext (next^[i] ⟨a, ha⟩)) (hit _ k)
  rwa [hrou] at hcyc

end Layers
