import Fenrir.Lib.Sequences
import Fenrir.Postgres.Pool

/-! # The statement cache is least recently used

`StatementCache` of `postgres/pool.rs` drops the entry with the smallest tick when it is full.
`Recent` keeps no ticks, only the order of use; the two agree after every run
(`cache_is_lru`), whose ticks do not wrap as long as it has fewer than 2^64 operations. -/

namespace Fenrir.Postgres

open List

/-- Statements by text, the one used least recently first. -/
abbrev Recent := List (String × Statement)

/-- `StatementCache::get`. -/
def StatementCache.get (self : StatementCache) (sql : String) : Option Statement × StatementCache :=
  ((self.entries.find? (·.sql = sql)).map (·.statement), self.touch sql)

inductive CacheOp
  | get (sql : String)
  | insert (sql : String) (statement : Statement)
  | remove (sql : String)
  | clear

def CacheOp.onCache (cache : StatementCache) : CacheOp → StatementCache
  | get sql => (cache.get sql).2
  | insert sql statement => cache.insert sql statement
  | remove sql => cache.remove sql
  | clear => cache.clear

def CacheOp.onRecent (capacity : Nat) (recent : Recent) : CacheOp → Recent
  -- the text moves to the end, if it is there
  | get sql => recent.filter (·.1 ≠ sql) ++ recent.filter (·.1 = sql)
  | insert sql statement =>
    let full := capacity ≤ recent.length ∧ recent.any (·.1 = sql) = false
    (if full then recent.tail else recent).filter (·.1 ≠ sql) ++ [(sql, statement)]
  | remove sql => recent.filter (·.1 ≠ sql)
  | clear => []

/-! ## Ticks are the order of use -/

def CachedStatement.view (e : CachedStatement) : String × Statement := (e.sql, e.statement)

def UsedBefore (a b : CachedStatement) : Prop := a.used < b.used ∧ a.sql ≠ b.sql

/-- `es` are the entries of the cache by tick. -/
structure Ordered (n : Nat) (cache : StatementCache) (es : List CachedStatement) : Prop where
  perm : cache.entries.Perm es
  sorted : es.Pairwise UsedBefore
  past : ∀ e ∈ es, e.used ≤ cache.tick
  few : es.length ≤ n
  capacity : cache.capacity = n

namespace Ordered

variable {n : Nat} {cache : StatementCache} {es kept last : List CachedStatement} {sql : String}

theorem oldest_eq {a : CachedStatement} (h : Ordered n cache (a :: es)) :
    cache.oldest = some a := by
  have hold : cache.oldest = cache.entries.argmin (·.used) := by
    rw [StatementCache.oldest, argmin]
    congr 1
    funext best e
    cases best with
    | none | some b => rfl
  cases hm : cache.entries.argmin (·.used) with
  | none =>
    have hper := h.perm
    rw [argmin_eq_none.mp hm] at hper
    cases hper.length_eq
  | some m =>
    rw [hold, hm]
    rcases mem_cons.mp (h.perm.mem_iff.mp (argmin_mem hm)) with rfl | hrest
    · rfl
    · have hlt := ((pairwise_cons.mp h.sorted).1 m hrest).1
      have hle := le_of_mem_argmin (h.perm.mem_iff.mpr mem_cons_self) hm
      exact absurd hlt hle.not_gt

variable (h : Ordered n cache es)

include h

/-- What is used now goes last. -/
theorem use (hsub : kept.Sublist es) (hlast : last.Pairwise UsedBefore)
    (hnow : ∀ e ∈ last, e.sql = sql ∧ e.used = cache.tick + 1)
    {entries : List CachedStatement} (hperm : entries.Perm (kept.filter (·.sql ≠ sql) ++ last))
    (hfew : (kept.filter (·.sql ≠ sql) ++ last).length ≤ n) :
    Ordered n { cache with tick := cache.tick + 1, entries }
      (kept.filter (·.sql ≠ sql) ++ last) where
  perm := hperm
  sorted := by
    refine pairwise_append.mpr ⟨(h.sorted.sublist hsub).filter _, hlast, ?_⟩
    intro a ha b hb
    obtain ⟨hmem, hne⟩ := mem_filter.mp ha
    obtain ⟨hsql, hused⟩ := hnow b hb
    rw [UsedBefore, hsql, hused]
    exact ⟨Nat.lt_succ_of_le (h.past a (hsub.subset hmem)), of_decide_eq_true hne⟩
  past := by
    intro e he
    rcases mem_append.mp he with hold | hnew
    · exact Nat.le_succ_of_le (h.past e (hsub.subset (mem_of_mem_filter hold)))
    · exact (hnow e hnew).2.le
  few := hfew
  capacity := h.capacity

variable (sql)

theorem touch : Ordered n (cache.touch sql) (es.filter (·.sql ≠ sql) ++
      (es.filter (·.sql = sql)).map ({ · with used := cache.tick + 1 })) := by
  have hparts := filter_append_perm (·.sql ≠ sql) es
  simp only [ne_eq, decide_not, Bool.not_not] at hparts
  refine h.use (Sublist.refl es) ?_ ?_ ?_ ?_
  · -- two entries of one text cannot be
    refine pairwise_map.mpr ((h.sorted.filter _).imp_of_mem fun ha hb hab => ?_)
    have hone := (of_decide_eq_true (mem_filter.mp ha).2).trans
      (of_decide_eq_true (mem_filter.mp hb).2).symm
    exact absurd hone hab.2
  · intro e he
    obtain ⟨old, hold, rfl⟩ := mem_map.mp he
    exact ⟨of_decide_eq_true (mem_filter.mp hold).2, rfl⟩
  · refine ((h.perm.trans hparts.symm).map _).trans (.of_eq ?_)
    simp only [map_append, ne_eq, decide_not]
    congr 1
    · exact (map_congr_left fun e he => if_neg (by simpa using (mem_filter.mp he).2)).trans
        (map_id _)
    · exact map_congr_left fun e he => if_pos (of_decide_eq_true (mem_filter.mp he).2)
  · have hle := hparts.length_eq
    simp only [length_append, length_map, ne_eq, decide_not] at hle ⊢
    exact hle.le.trans h.few

theorem insert (hn : 0 < n) (statement : Statement) : Ordered n (cache.insert sql statement)
      ((if n ≤ es.length ∧ es.any (·.sql = sql) = false then es.tail
        else es).filter (·.sql ≠ sql) ++ [⟨sql, statement, cache.tick + 1⟩]) := by
  rw [StatementCache.insert, StatementCache.contains, h.perm.length_eq, h.perm.any_eq, h.capacity]
  split
  · rename_i hfull
    cases es with
    | nil => exact absurd hfull.1 (Nat.not_le_of_lt hn)
    | cons a rest =>
      rw [h.oldest_eq]
      have hrest : (cache.remove a.sql).entries.Perm rest := by
        have hothers : rest.filter (·.sql ≠ a.sql) = rest := filter_eq_self.mpr fun e he =>
          decide_eq_true ((pairwise_cons.mp h.sorted).1 e he).2.symm
        have hperm := h.perm.filter (·.sql ≠ a.sql)
        rwa [filter_cons_of_neg (by simp), hothers] at hperm
      refine h.use (sublist_cons_self a rest) (pairwise_singleton ..)
        (by simp) ((hrest.filter _).append_right _) ?_
      rw [length_append]
      exact Nat.succ_le_of_lt ((length_filter_le _ _).trans_lt (Nat.lt_of_succ_le h.few))
  · rename_i hroom
    refine h.use (Sublist.refl es) (pairwise_singleton ..)
      (by simp) ((h.perm.filter _).append_right _) ?_
    rw [length_append]
    refine Nat.succ_le_of_lt ?_
    by_cases hle : n ≤ es.length
    · have hany := Bool.eq_true_of_not_eq_false fun hno => hroom ⟨hle, hno⟩
      obtain ⟨e, he, hsql⟩ := any_eq_true.mp hany
      refine lt_of_lt_of_le ?_ h.few
      exact length_filter_lt_length_iff_exists.mpr ⟨e, he, by simpa using hsql⟩
    · exact (length_filter_le _ _).trans_lt (Nat.lt_of_not_le hle)

theorem find_eq : cache.entries.find? (·.sql = sql) = es.find? (·.sql = sql) := by
  have hkeys : (es.map (·.sql)).Nodup := pairwise_map.mpr (h.sorted.imp fun hab => hab.2)
  cases hf : cache.entries.find? (·.sql = sql) with
  | none =>
    refine (find?_eq_none.mpr fun e he => ?_).symm
    exact find?_eq_none.mp hf e (h.perm.mem_iff.mpr he)
  | some e =>
    have hsql := find?_some hf
    obtain rfl := of_decide_eq_true hsql
    exact (Sequences.find_of_nodup hkeys (h.perm.mem_iff.mp (mem_of_find?_eq_some hf))).symm

/-- One operation, on both. -/
theorem step (hn : 0 < n) (op : CacheOp) : ∃ es', Ordered n (op.onCache cache) es' ∧
      op.onRecent n (es.map (·.view)) = es'.map (·.view) := by
  cases op with
  | get sql =>
    refine ⟨_, h.touch sql, ?_⟩
    rw [CacheOp.onRecent, map_append, map_map, filter_map, filter_map]
    rfl
  | insert sql statement =>
    refine ⟨_, h.insert sql hn statement, ?_⟩
    have hkept : ∀ l : List CachedStatement, (l.map (·.view)).filter (·.1 ≠ sql) =
        (l.filter (·.sql ≠ sql)).map (·.view) := fun l => filter_map
    rw [CacheOp.onRecent, map_append, ← hkept, apply_ite (map _), map_tail, length_map, any_map]
    rfl
  | remove sql =>
    refine ⟨es.filter (·.sql ≠ sql), ⟨h.perm.filter _, h.sorted.filter _, ?_, ?_, h.capacity⟩, ?_⟩
    · exact fun e he => h.past e (mem_of_mem_filter he)
    · exact (length_filter_le _ _).trans h.few
    · rw [CacheOp.onRecent, filter_map]
      rfl
  | clear => exact ⟨[], ⟨.nil, .nil, nofun, Nat.zero_le _, h.capacity⟩, rfl⟩

end Ordered

/-- **THE CACHE IS LEAST RECENTLY USED**, after any operations: `get` answers as the order of
use does, both hold the same, and no more than the capacity. -/
theorem cache_is_lru (capacity : Nat) (ops : List CacheOp) :
    let cache := ops.foldl CacheOp.onCache (.new capacity)
    let recent := ops.foldl (CacheOp.onRecent (max 1 capacity)) []
    (∀ sql, (cache.get sql).1 = (recent.find? (·.1 = sql)).map (·.2)) ∧
      (cache.entries.map (·.view)).Perm recent ∧ cache.entries.length ≤ max 1 capacity ∧
      cache.tick ≤ ops.length := by
  intro cache recent
  obtain ⟨es, hes, hrec, hti⟩ : ∃ es, Ordered (max 1 capacity) cache es ∧
      recent = es.map (·.view) ∧ cache.tick ≤ ops.length := by
    induction ops using List.reverseRecOn with
    | nil => exact ⟨[], ⟨.nil, .nil, nofun, Nat.zero_le _, max_comm ..⟩, rfl, le_rfl⟩
    | append_singleton ops op ih =>
      obtain ⟨es, hes, hrec, hti⟩ := ih
      obtain ⟨es', hes', hrec'⟩ := hes.step (Nat.lt_of_lt_of_le Nat.one_pos (le_max_left ..)) op
      simp only [cache, recent, foldl_append, foldl_cons, foldl_nil, length_append,
        length_singleton, hrec]
      refine ⟨es', hes', hrec', ?_⟩
      cases op with
      | get | insert => exact Nat.succ_le_succ hti
      | remove | clear => exact Nat.le_succ_of_le hti
  rw [hrec]
  refine ⟨?_, hes.perm.map _, ?_, hti⟩
  · intro sql
    rw [StatementCache.get, hes.find_eq, find?_map, Option.map_map]
    rfl
  · rw [hes.perm.length_eq]
    exact hes.few

end Fenrir.Postgres
