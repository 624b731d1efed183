import Fenrir.Canary.Promotion
import Fenrir.Lib.Parties

/-! # Which instance a request goes to

`runtime_selection_pool`, `should_route_to_canary` and `ordered_runtime_selection_pool`
of `services/module/service.rs`: a request to a service is given the canary pool or the
stable one by a cursor that counts to a hundred, and starts in its pool where a second
cursor stands. Both cursors are one for each service, under a lock each. -/

namespace Fenrir.Balance

open Canary (ModuleCanaryAllocation ModuleRolloutStrategy)
open List Function Nat

section

variable (c : Cursors) (service : String)

/-- `runtime_selection_pool` up to the question which of two pools it is. -/
inductive Selection where
  | pool (instances : List String)
  | split (percent : Nat) (canary stable : List String)

def runtimeSelectionPool (allocation : Option ModuleCanaryAllocation)
    (strategy : Option ModuleRolloutStrategy) (running : List String) : Selection :=
  match allocation with
  | none => .pool running
  | some allocation =>
    if allocation.trafficPercent = 0 ∨ strategy ≠ some .canaryReplace then .pool running
    else
      let canaryPool := running.filter (· ∈ allocation.instanceIds)
      let stablePool := running.filter (· ∉ allocation.instanceIds)
      if canaryPool.isEmpty then .pool stablePool
      else if stablePool.isEmpty then .pool canaryPool
      else .split allocation.trafficPercent canaryPool stablePool

/-- `canary_request_cursor` and `runtime_ingress_cursor`; a service that is not there yet
starts at 0. -/
structure Cursors where
  canary : String → Nat
  ingress : String → Nat

/-- One more decision, by `saturating_add` on `u64`. -/
def Cursors.count : Cursors :=
  { c with
    canary := Function.update c.canary service (min (c.canary service + 1) (2 ^ 64 - 1)) }

def Cursors.shouldRouteToCanary (percent : Nat) : Bool × Cursors :=
  if percent = 0 then (false, c)
  else if 100 ≤ percent then (true, c)
  else (c.canary service % 100 < percent, c.count service)

def Cursors.nextRuntimeIngressIndex (instanceCount : Nat) : Nat × Cursors :=
  if instanceCount ≤ 1 then (0, c)
  else
    let index := c.ingress service % instanceCount
    (index, { c with ingress := Function.update c.ingress service ((index + 1) % instanceCount) })

def orderedRuntimeCandidates (candidates : List String) (start : Nat) : List String :=
  if candidates.length ≤ 1 then candidates
  else
    let start := start % candidates.length
    candidates.drop start ++ candidates.take start

end

/-! ## The share of the canaries -/

/-- A request, or a call of `set_canary_routing` or `clear_canary_routing`. -/
inductive Request where
  | waiting
  | choosing (service : String) (percent : Nat) (canary stable : List String)
  | ordering (service : String) (pool : List String)
  | answered (targets : List String)
  /-- The allocation is there to be seen; the removal of the cursor comes next. -/
  | published (service : String)

/-- One time the lock of the first cursor was taken: for a decision, or to remove the cursor. -/
structure Mark where
  service : String
  decision : Option (Nat × Bool)

def Mark.toCanary (m : Mark) : Bool := m.decision.any (·.2)

/-- `log` is a history, the last mark first; nothing reads it. -/
structure Shared where
  allocations : String → Option ModuleCanaryAllocation
  cursors : Cursors
  log : List Mark

def Cursors.forget (c : Cursors) (service : String) : Cursors :=
  { c with canary := Function.update c.canary service 0 }

/-- A request comes with the instances it finds and reads the allocation of its module; the
two cursors are steps of their own. The allocation is published under one lock, and the
cursor of the module's service removed later under another. -/
inductive Action where
  | arrive (module service : String) (strategy : Option ModuleRolloutStrategy)
      (running : List String)
  | choose | order
  | publish (module service : String) (allocation : Option ModuleCanaryAllocation)
  | forget

def arrive (service : String) (s : Shared) : Selection → Request × Shared
  | .pool instances => (.ordering service instances, s)
  | .split percent canary stable => (.choosing service percent canary stable, s)

def advance : Action → Request → Shared → Option (Request × Shared)
  | .arrive module service strategy running, .waiting, s
  | .arrive module service strategy running, .answered _, s =>
    some (arrive service s (runtimeSelectionPool (s.allocations module) strategy running))
  | .choose, .choosing service percent canary stable, s =>
    let routed := s.cursors.shouldRouteToCanary service percent
    some (.ordering service (if routed.1 then canary else stable), { s with
        cursors := routed.2
        log := if 0 < percent ∧ percent < 100 then ⟨service, some (percent, routed.1)⟩ :: s.log
          else s.log })
  | .order, .ordering service pool, s =>
    let next := s.cursors.nextRuntimeIngressIndex service pool.length
    some (.answered (orderedRuntimeCandidates pool next.1), { s with cursors := next.2 })
  | .publish module service allocation, .waiting, s =>
    some (.published service,
      { s with allocations := Function.update s.allocations module allocation })
  | .forget, .published service, s =>
    some (.waiting, { s with cursors := s.cursors.forget service, log := ⟨service, none⟩ :: s.log })
  | _, _, _ => none

/-- The marks of one service, the latest first. -/
def Shared.of (s : Shared) (service : String) : List Mark := s.log.filter (·.service = service)

/-- The decisions since the cursor was last removed. -/
def sinceForgotten (log : List Mark) : Nat := (log.takeWhile (·.decision.isSome)).length

/-- Each decision was made by its number. -/
def Made : List Mark → Prop
  | [] => True
  | m :: rest => (∀ percent toCanary, m.decision = some (percent, toCanary) →
      toCanary = decide (min (sinceForgotten rest) (2 ^ 64 - 1) % 100 < percent)) ∧ Made rest

structure Counted (s : Shared) (steps : Nat) : Prop where
  bound : s.log.length ≤ steps
  cursor : ∀ service, s.cursors.canary service = min (sinceForgotten (s.of service)) (2 ^ 64 - 1)
  made : ∀ service, Made (s.of service)

variable {s : Shared}

theorem Counted.mono {steps : Nat} (h : Counted s steps) : Counted s (steps + 1) :=
  ⟨h.bound.trans (le_succ steps), h.cursor, h.made⟩

theorem Counted.same {s' : Shared} {steps : Nat} (h : Counted s steps) (hlog : s'.log = s.log)
    (hcan : s'.cursors.canary = s.cursors.canary) : Counted s' (steps + 1) := by
  have hof : s'.of = s.of := by
    funext service
    rw [Shared.of, hlog, Shared.of]
  refine ⟨hlog ▸ h.mono.bound, fun service => ?_, fun service => ?_⟩
  · rw [hcan, hof]
    exact h.cursor service
  · rw [hof]
    exact h.made service

/-- One more mark. -/
theorem Counted.mark {s' : Shared} {steps : Nat} (h : Counted s steps) {m : Mark}
    (hlog : s'.log = m :: s.log)
    (hcur : s'.cursors.canary = Function.update s.cursors.canary m.service
      (if m.decision.isSome then min (s.cursors.canary m.service + 1) (2 ^ 64 - 1) else 0))
    (hma : ∀ percent toCanary, m.decision = some (percent, toCanary) →
      toCanary = decide (s.cursors.canary m.service % 100 < percent)) : Counted s' (steps + 1) := by
  have hown : s'.of m.service = m :: s.of m.service := by
    rw [Shared.of, hlog, filter_cons_of_pos (by simp)]
    rfl
  have hother : ∀ other, other ≠ m.service → s'.of other = s.of other := by
    intro other hne
    rw [Shared.of, hlog, filter_cons_of_neg (by simpa using hne.symm)]
    rfl
  refine ⟨by rw [hlog]; exact succ_le_succ h.bound, fun service => ?_, fun service => ?_⟩
  · rw [hcur]
    by_cases hs : service = m.service
    · rw [hs, update_self, hown, h.cursor, sinceForgotten, sinceForgotten, takeWhile_cons]
      split
      · rw [length_cons]
        omega
      · rfl
    · rw [update_of_ne hs, hother service hs]
      exact h.cursor service
  · by_cases hs : service = m.service
    · rw [hs, hown]
      refine ⟨?_, h.made m.service⟩
      rw [← h.cursor]
      exact hma
    · rw [hother service hs]
      exact h.made service

variable {ι : Type} [DecidableEq ι]

abbrev World (ι : Type) := Parties.World ι Shared Request

def step (w : World ι) (event : ι × Action) : World ι := Parties.step advance w event

def World.boot : World ι := ⟨⟨fun _ => none, ⟨fun _ => 0, fun _ => 0⟩, []⟩, fun _ => .waiting⟩

theorem arrive_shared (service : String) (s : Shared) (selection : Selection) :
    (arrive service s selection).2 = s := by
  cases selection <;> rfl

theorem Counted.advance {a : Action} {p p' : Request} {s' : Shared} {steps : Nat}
    (h : Counted s steps) (hadv : advance a p s = some (p', s')) : Counted s' (steps + 1) := by
  revert hadv
  fun_cases Balance.advance a p s
  all_goals intro hadv
  case case1 module service strategy running | case2 module service strategy running _ =>
    have hs : s = s' := (arrive_shared ..).symm.trans (congrArg Prod.snd (Option.some.inj hadv))
    exact hs ▸ h.mono
  case case3 service percent canary stable routed =>
    cases hadv
    by_cases hper : 0 < percent ∧ percent < 100
    · have hrou : routed = _ := (if_neg (by omega)).trans (if_neg (by omega))
      refine h.mark (m := ⟨service, some (percent, routed.1)⟩) (if_pos hper) ?_ ?_
      · rw [hrou]
        rfl
      · intro _ _ heq
        cases heq
        rw [hrou]
    · refine h.same (if_neg hper) ?_
      by_cases hze : percent = 0
      · rw [show routed = _ from if_pos hze]
      · rw [show routed = _ from (if_neg hze).trans (if_pos (by omega))]
  case case4 service pool next =>
    cases hadv
    refine h.same rfl ?_
    by_cases hone : pool.length ≤ 1
    · rw [show next = _ from if_pos hone]
    · rw [show next = _ from if_neg hone]
  case case5 => cases hadv; exact h.same rfl rfl
  case case6 service =>
    cases hadv
    exact h.mark (m := ⟨service, none⟩) rfl rfl fun _ _ heq => by cases heq
  case case7 => cases hadv

theorem Counted.step {w : World ι} {steps : Nat} (h : Counted w.shared steps)
    (event : ι × Action) : Counted (step w event).shared (steps + 1) :=
  Parties.step_induction (Q := fun w' : World ι => Counted w'.shared (steps + 1)) h.mono
    fun _ _ => h.advance

/-- The pool a call is given, what it returns, and the cursors after it. -/
def resolve (selection : Selection) (service : String) (c : Cursors) :
    (List String × List String) × Cursors :=
  let selected := match selection with
    | .pool instances => (instances, c)
    | .split percent canary stable =>
      let routed := c.shouldRouteToCanary service percent
      (if routed.1 then canary else stable, routed.2)
  let next := selected.2.nextRuntimeIngressIndex service selected.1.length
  ((selected.1, orderedRuntimeCandidates selected.1 next.1), next.2)

/-- Some calls one after another: what each is given and returns. -/
def resolves (selection : Selection) (service : String) (c : Cursors) :
    Nat → List (List String × List String) × Cursors
  | 0 => ([], c)
  | n + 1 =>
    let before := resolves selection service c n
    let call := resolve selection service before.2
    (before.1 ++ [call.1], call.2)

def Selection.pools : Selection → List (List String)
  | .pool instances => [instances]
  | .split _ canary stable => [canary, stable]

/-- The pools a call can be given. -/
def Selection.used : Selection → List (List String)
  | .split percent canary stable => if 100 ≤ percent then [canary] else [canary, stable]
  | selection => selection.pools

theorem Selection.used_subset (selection : Selection) : selection.used ⊆ selection.pools := by
  cases selection with
  | pool _ => exact Subset.refl _
  | split percent canary stable =>
    rw [Selection.used]
    split
    · exact cons_subset_cons _ (nil_subset _)
    · exact Subset.refl _

theorem orderedRuntimeCandidates_perm (pool : List String) (start : Nat) :
    (orderedRuntimeCandidates pool start).Perm pool := by
  rw [orderedRuntimeCandidates]
  split
  · exact .refl pool
  · exact perm_append_comm.trans (.of_eq (take_append_drop ..))

variable {selection : Selection} {service : String} {c : Cursors} {pool : List String}

/-- A call works on one of the pools, whatever the first cursor says. -/
theorem resolve_cases (selection : Selection) (service : String) (c : Cursors) :
    ∃ pool ∈ selection.used, ∃ c' : Cursors, c'.ingress = c.ingress ∧ resolve selection service c =
        ((pool, orderedRuntimeCandidates pool
          (c'.nextRuntimeIngressIndex service pool.length).1),
        (c'.nextRuntimeIngressIndex service pool.length).2) := by
  cases selection with
  | pool instances => exact ⟨instances, mem_singleton_self _, c, rfl, rfl⟩
  | split percent canary stable =>
    refine ⟨if (c.shouldRouteToCanary service percent).1 then canary else stable, ?_,
      (c.shouldRouteToCanary service percent).2, ?_, rfl⟩
    · rw [Selection.used]
      by_cases hall : 100 ≤ percent
      · have hto : (c.shouldRouteToCanary service percent).1 = true := by
          rw [Cursors.shouldRouteToCanary, if_neg (by omega), if_pos hall]
        rw [if_pos hall, if_pos hto]
        exact mem_cons_self
      · rw [if_neg hall]
        split
        · exact mem_cons_self
        · exact mem_cons_of_mem _ mem_cons_self
    · rw [Cursors.shouldRouteToCanary]
      split
      · rfl
      · split <;> rfl

/-- The pool has been given out `k` times since the cursor stood at `start`. -/
structure Rotated (pool : List String) (service : String) (start k : Nat)
    (calls : List (List String × List String) × Cursors) : Prop where
  cursor : calls.2.ingress service % pool.length = (start + k) % pool.length
  firsts : ∀ x ∈ pool, calls.1.countP (·.2.head? = some x) =
    Nat.count (fun j => pool[(start + j) % pool.length]? = some x) k

/-- A call moves the rotation on, or has another pool with one instance at most. -/
theorem Rotated.resolve {start k n : Nat} (hma : 1 < pool.length)
    (hoth : ∀ other ∈ selection.used, other ≠ pool → other.length ≤ 1 ∧ ∀ x ∈ other, x ∉ pool)
    (h : Rotated pool service start k (resolves selection service c n)) :
    ∃ k, Rotated pool service start k (resolves selection service c (n + 1)) := by
  rw [resolves]
  obtain ⟨p, hp, c', hing, hca⟩ :=
    resolve_cases selection service (resolves selection service c n).2
  simp only [hca]
  by_cases heq : p = pool
  · subst heq
    have hne : c'.nextRuntimeIngressIndex service p.length =
        ((start + k) % p.length, ⟨c'.canary, update c'.ingress service
          (((start + k) % p.length + 1) % p.length)⟩) := by
      rw [Cursors.nextRuntimeIngressIndex, if_neg (by omega), hing, h.cursor]
    have hlt : (start + k) % p.length < p.length := mod_lt _ (by omega)
    have hhe : (orderedRuntimeCandidates p ((start + k) % p.length)).head? =
        p[(start + k) % p.length]? := by
      rw [orderedRuntimeCandidates, if_neg (by omega), mod_mod, List.head?_append,
        List.head?_drop, List.getElem?_eq_getElem hlt]
      rfl
    refine ⟨k + 1, ?_, fun x hx => ?_⟩
    · rw [hne]
      show update c'.ingress service _ service % _ = _
      rw [update_self, mod_mod, mod_add_mod, Nat.add_assoc]
    · rw [countP_append, h.firsts x hx, countP_singleton, count_succ, hne, hhe]
      simp only [decide_eq_true_eq]
  · obtain ⟨hone, hapa⟩ := hoth p hp heq
    have hne : c'.nextRuntimeIngressIndex service p.length = (0, c') := if_pos hone
    refine ⟨k, ?_, fun x hx => ?_⟩
    · rw [hne, hing]
      exact h.cursor
    · rw [countP_append, h.firsts x hx, countP_singleton, hne, if_neg, Nat.add_zero]
      intro hhe
      have hmem := mem_of_mem_head? (decide_eq_true_eq.mp hhe)
      exact hapa x ((orderedRuntimeCandidates_perm p 0).mem_iff.mp hmem) hx

theorem resolves_pools (n : Nat) : ∀ call ∈ (resolves selection service c n).1,
    call.1 ∈ selection.used ∧ call.2.Perm call.1 := by
  induction n with
  | zero =>
    intro call hca
    cases (show call ∈ [] from hca)
  | succ n ih =>
    intro call hca
    rcases mem_append.mp hca with hca | hca
    · exact ih call hca
    · obtain ⟨pool, hpo, c', -, heq⟩ :=
        resolve_cases selection service (resolves selection service c n).2
      rw [mem_singleton.mp hca, heq]
      exact ⟨hpo, orderedRuntimeCandidates_perm ..⟩

/-- In a rotation nobody is ahead by more than one. -/
theorem count_rotation (hnod : pool.Nodup) (start k : Nat) {x y : String} (hx : x ∈ pool)
    (hy : y ∈ pool) : Nat.count (fun j => pool[(start + j) % pool.length]? = some x) k ≤
      Nat.count (fun j => pool[(start + j) % pool.length]? = some y) k + 1 := by
  have hpos : 0 < pool.length := length_pos_of_mem hx
  have hcou : ∀ z ∈ pool, ∃ a < pool.length,
      Nat.count (fun j => pool[(start + j) % pool.length]? = some z) k + (start / pool.length +
        if a < start % pool.length then 1 else 0) =
        (start + k) / pool.length + if a < (start + k) % pool.length then 1 else 0 := by
    intro z hz
    obtain ⟨a, ha, rfl⟩ := mem_iff_getElem.mp hz
    refine ⟨a, ha, ?_⟩
    have hiff : ∀ i, (pool[i % pool.length]? = some pool[a]) ↔ i ≡ a [MOD pool.length] := by
      intro i
      rw [List.getElem?_eq_some_iff, ModEq, mod_eq_of_lt ha]
      constructor
      · rintro ⟨hi, heq⟩
        exact (hnod.getElem_inj_iff).mp heq
      · intro hi
        exact ⟨hi ▸ ha, by simp only [hi]⟩
    simp only [hiff]
    have hshi := count_add (· ≡ a [MOD pool.length]) start k
    rw [count_modEq_card _ hpos, count_modEq_card _ hpos, mod_eq_of_lt ha] at hshi
    omega
  obtain ⟨a, ha, hax⟩ := hcou x hx
  obtain ⟨b, hb, hby⟩ := hcou y hy
  grind

/-- No instance is listed twice, in one pool or in two. -/
theorem pools_nodup (alloc : Option ModuleCanaryAllocation)
    (strategy : Option ModuleRolloutStrategy) {running : List String} (h : running.Nodup) :
    (∀ pool ∈ (runtimeSelectionPool alloc strategy running).pools, pool.Nodup) ∧
      ∀ pool ∈ (runtimeSelectionPool alloc strategy running).pools,
        ∀ other ∈ (runtimeSelectionPool alloc strategy running).pools, other ≠ pool →
          ∀ x ∈ other, x ∉ pool := by
  fun_cases runtimeSelectionPool alloc strategy running
  case case5 alloc _ canaryPool stablePool _ _ =>
    have hapa : ∀ x ∈ canaryPool, x ∉ stablePool := by
      intro x hx hx'
      exact of_decide_eq_true (mem_filter.mp hx').2 (of_decide_eq_true (mem_filter.mp hx).2)
    refine ⟨?_, by grind [Selection.pools]⟩
    exact forall_mem_cons.mpr ⟨h.filter _, forall_mem_singleton.mpr (h.filter _)⟩
  all_goals
    refine ⟨forall_mem_singleton.mpr ?_, by grind [Selection.pools]⟩
    first
    | exact h
    | exact h.filter _

/-- One of the two pools at most is more than one instance to choose from. -/
def OneRotates : Selection → Prop
  | .pool _ => True
  | .split percent canary stable =>
    100 ≤ percent ∨ canary.length ≤ 1 ∨ stable.length ≤ 1

/-- **FAIR WITHIN A POOL.** Each call returns the pool it was given in some order. If at most
one of the pools has more than one instance, or the canaries are given all requests, then after
any number of calls, wherever the cursors stood, two instances of a pool have been listed first
equally often, up to one. -/
theorem balance_fair (allocation : Option ModuleCanaryAllocation)
    (strategy : Option ModuleRolloutStrategy) (running : List String) (hnodup : running.Nodup)
    (service : String) (c : Cursors) (n : Nat) :
    let selection := runtimeSelectionPool allocation strategy running
    let calls := (resolves selection service c n).1
    (∀ call ∈ calls, call.1 ∈ selection.pools ∧ call.2.Perm call.1) ∧
    (OneRotates selection → ∀ pool ∈ selection.pools, ∀ x ∈ pool, ∀ y ∈ pool,
      calls.countP (·.2.head? = some x) ≤ calls.countP (·.2.head? = some y) + 1) := by
  intro selection calls
  have hall : ∀ call ∈ calls, call.1 ∈ selection.used ∧ call.2.Perm call.1 := resolves_pools n
  refine ⟨fun call hca => ⟨selection.used_subset (hall call hca).1, (hall call hca).2⟩, ?_⟩
  · intro hone pool hpo x hx y hy
    obtain ⟨hsub, hapa⟩ := pools_nodup allocation strategy hnodup
    have hoth : pool ∈ selection.used → 1 < pool.length → ∀ other ∈ selection.used,
        other ≠ pool → other.length ≤ 1 ∧ ∀ x ∈ other, x ∉ pool := by
      intro huse hma other hmem hne
      refine ⟨?_, hapa pool hpo other (selection.used_subset hmem) hne⟩
      revert hone huse hmem
      generalize selection = s
      cases s <;> grind [Selection.used, Selection.pools, OneRotates]
    by_cases huse : pool ∉ selection.used
    · -- nobody of this pool is ever first
      have hzero : ∀ z ∈ pool, calls.countP (·.2.head? = some z) = 0 := by
        intro z hz
        refine countP_eq_zero.mpr fun call hca hhead => ?_
        obtain ⟨hin, hperm⟩ := hall call hca
        have hmem := hperm.mem_iff.mp (mem_of_mem_head? (decide_eq_true_eq.mp hhead))
        refine hapa pool hpo call.1 (selection.used_subset hin) ?_ z hmem hz
        rintro rfl
        exact huse hin
      rw [hzero x hx]
      exact Nat.zero_le _
    have huse := not_not.mp huse
    by_cases hma : 1 < pool.length
    · have hrot : ∃ k, Rotated pool service (c.ingress service) k
          (resolves selection service c n) := by
        clear hall
        induction n with
        | zero => exact ⟨0, rfl, fun _ _ => rfl⟩
        | succ n ih =>
          obtain ⟨k, hk⟩ := ih
          exact hk.resolve hma (hoth huse hma)
      obtain ⟨k, hk⟩ := hrot
      rw [hk.firsts x hx, hk.firsts y hy]
      exact count_rotation (hsub pool hpo) _ k hx hy
    · obtain rfl : x = y := by
        obtain ⟨z, rfl⟩ := length_eq_one_iff.mp
          (Nat.le_antisymm (Nat.not_lt.mp hma) (length_pos_of_mem hx))
        rw [mem_singleton.mp hx, mem_singleton.mp hy]
      exact le_succ _

/-- One canary at ten percent beside two stable instances. -/
theorem balance_fair_pair :
    let selection := runtimeSelectionPool (some ⟨10, ["c"], none⟩) (some .canaryReplace)
      ["a", "b", "c"]
    let calls := (resolves selection "web" ⟨fun _ => 0, fun _ => 0⟩ 25).1
    calls.countP (·.2.head? = some "a") ≤ calls.countP (·.2.head? = some "b") + 1 :=
  (balance_fair (some ⟨10, ["c"], none⟩) (some .canaryReplace) ["a", "b", "c"] (by decide) "web"
    ⟨fun _ => 0, fun _ => 0⟩ 25).2 (.inr (.inl (by decide))) ["a", "b"] (by decide) "a" (by decide)
    "b" (by decide)

/-- Two canaries at one percent and two stable instances: the first and the hundred-and-first
call start with the same canary, since the calls in between have moved the cursor. -/
theorem balance_unfair :
    let selection := runtimeSelectionPool (some ⟨1, ["a", "b"], none⟩) (some .canaryReplace)
      ["a", "b", "c", "d"]
    let calls := (resolves selection "web" ⟨fun _ => 0, fun _ => 0⟩ 101).1
    calls.countP (·.2.head? = some "a") = 2 ∧ calls.countP (·.2.head? = some "b") = 0 := by
  decide +kernel

end Fenrir.Balance
