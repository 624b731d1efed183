import Fenrir.Runtime.AutostartPlan
import Fenrir.Lib.Run

/-! # Running the plan of an autostart

`ensure_all_running` of `services/module/runtime.rs`. The layers run one after the
other. The futures of a layer are pulled into a buffer of bounded size and polled
there in any order; they finish in any order and with any outcome. -/

namespace Fenrir.Autostart

open Modules List

/-- `autostart_concurrency_limit`: the variable is not set, is not a number, or is one. -/
def autostartConcurrencyLimit : Option (Option Nat) → Nat
  | none => 4
  | some none => 4
  | some (some value) => max 1 (min value 16)

theorem autostartConcurrencyLimit_pos (raw : Option (Option Nat)) :
    0 < autostartConcurrencyLimit raw := by
  cases raw with
  | none => exact Nat.zero_lt_succ 3
  | some parsed =>
    cases parsed with
    | none => exact Nat.zero_lt_succ 3
    | some value => exact Nat.lt_of_lt_of_le Nat.zero_lt_one (Nat.le_max_left 1 _)

/-- What the run does for others to see. -/
inductive Occurrence where
  | blocked (id : String) (reason : String)
  /-- `ensure_running_with_trigger` is called. -/
  | called (id : String)
  | returned (id : String) (ok : Bool)
  /-- The report of a module that is not started is stored. -/
  | skipped (id : String) (reason : String)
  deriving DecidableEq

inductive Stage where
  | fresh
  /-- Awaiting `store_startup_report`. -/
  | reporting (reason : String)
  /-- Awaiting `ensure_running_with_trigger`. -/
  | starting

structure AutostartRun where
  /-- The layers after the current one. -/
  later : List (List AutostartNode)
  /-- The futures of the current layer that are not pulled yet. -/
  waiting : List AutostartNode
  buffered : List (AutostartNode × Stage)
  results : List (String × Bool)
  /-- Changes between the layers only. -/
  succeeded : Finset String
  log : List Occurrence

inductive AutostartEvent where
  /-- All futures of the layer have finished: collect, and go on to the next one. -/
  | nextLayer | pull
  | poll (k : Nat)
  | finish (k : Nat) (ok : Bool)

namespace AutostartRun

/-- The reports of the blocked modules, then the layers. -/
def begin (plan : AutostartPlan) : AutostartRun where
  later := plan.layers
  waiting := []
  buffered := []
  results := []
  succeeded := ∅
  log := plan.blocked.map fun b => .blocked b.moduleId (b.code ++ ": " ++ b.reason)

/-- The first poll of a future: look for a dependency that has not succeeded. -/
def pollFresh (w : AutostartRun) (k : Nat) (node : AutostartNode) : AutostartRun :=
  match node.dependencies.find? (· ∉ w.succeeded) with
  | some dep =>
    let reason := s!"{dependencyUpstreamFailed}: dependency '{dep}' failed to start"
    { w with buffered := w.buffered.set k (node, .reporting reason) }
  | none =>
    { w with
      buffered := w.buffered.set k (node, .starting)
      log := w.log ++ [.called node.moduleId] }

def finishAt (w : AutostartRun) (k : Nat) (id : String) (ok : Bool) (occurrence : Occurrence) :
    AutostartRun :=
  { w with
    buffered := w.buffered.eraseIdx k
    results := w.results ++ [(id, ok)]
    log := w.log ++ [occurrence] }

def step (limit : Nat) (w : AutostartRun) : AutostartEvent → AutostartRun
  | .nextLayer =>
    match w.waiting, w.buffered, w.later with
    | [], [], layer :: later =>
      { w with
        later
        waiting := layer
        results := []
        succeeded := w.results.foldl (fun s r => if r.2 then insert r.1 s else s) w.succeeded }
    | _, _, _ => w
  | .pull =>
    match w.waiting with
    | node :: rest =>
      if w.buffered.length < limit then
        { w with waiting := rest, buffered := w.buffered ++ [(node, .fresh)] }
      else w
    | [] => w
  | .poll k =>
    match w.buffered[k]? with
    | some (node, .fresh) => w.pollFresh k node
    | _ => w
  | .finish k ok =>
    match w.buffered[k]? with
    | some (node, .starting) => w.finishAt k node.moduleId ok (.returned node.moduleId ok)
    | some (node, .reporting reason) =>
      w.finishAt k node.moduleId false (.skipped node.moduleId reason)
    | _ => w

end AutostartRun

/-- `ensure_all_running` after the modules are listed. -/
def ensureAllRunning [SemverReq] (limit : Nat) (modules : List Modules.InstalledModule)
    (events : List AutostartEvent) : AutostartRun :=
  Run.run (AutostartRun.step limit) (.begin (buildAutostartPlan modules)) events

/-! ## What the log tells -/

def Finished (log : List Occurrence) (id : String) : Prop :=
  (∃ ok, .returned id ok ∈ log) ∨ ∃ reason, .skipped id reason ∈ log

theorem finished_append {log : List Occurrence} {o : Occurrence} {id : String} :
    Finished (log ++ [o]) id ↔ Finished log id ∨ Finished [o] id := by
  simp only [Finished, mem_append, exists_or]
  exact or_or_or_comm

/-- The nodes of `done` are those of the finished layers, `layer` is the current one. -/
structure RunSound (plan : AutostartPlan) (w : AutostartRun) (done layer : List AutostartNode) :
    Prop where
  cut : plan.layers.flatten = done ++ (layer ++ w.later.flatten)
  deps : ∀ node ∈ layer, ∀ d ∈ node.dependencies, d ∈ idsOf done
  laterDeps : ∀ before l after, w.later = before ++ l :: after →
    ∀ node ∈ l, ∀ d ∈ node.dependencies, d ∈ idsOf (done ++ (layer ++ before.flatten))
  /-- The layer, by where its futures are. -/
  current : (idsOf layer).Perm
    (w.results.map Prod.fst ++ (idsOf (w.buffered.map Prod.fst) ++ idsOf w.waiting))
  members : ∀ node ∈ w.buffered.map Prod.fst ++ w.waiting, node ∈ layer
  finished : ∀ id, Finished w.log id ↔ id ∈ idsOf done ∨ id ∈ w.results.map Prod.fst
  succeeded : ∀ id, id ∈ w.succeeded ↔ id ∈ idsOf done ∧ .returned id true ∈ w.log
  results : ∀ id ok, (id, ok) ∈ w.results → (ok = true ↔ .returned id true ∈ w.log)
  called : ∀ id, .called id ∈ w.log ↔ (∃ ok, .returned id ok ∈ w.log) ∨
    ∃ node, (node, Stage.starting) ∈ w.buffered ∧ node.moduleId = id
  /-- Every call is the first one of its module and comes after its dependencies. -/
  calls : ∀ earlier id after, w.log = earlier ++ .called id :: after → .called id ∉ earlier ∧
    ∃ node ∈ plan.layers.flatten, node.moduleId = id ∧
      ∀ d ∈ node.dependencies, .returned d true ∈ earlier
  /-- A module is passed over because of a dependency that has finished otherwise. -/
  skipped : ∀ id reason, .skipped id reason ∈ w.log → ∃ node ∈ plan.layers.flatten,
    node.moduleId = id ∧ ∃ d ∈ node.dependencies, Finished w.log d ∧ .returned d true ∉ w.log
  reporting : ∀ node reason, (node, Stage.reporting reason) ∈ w.buffered →
    ∃ d ∈ node.dependencies, d ∉ w.succeeded

namespace RunSound

variable {plan : AutostartPlan} {w : AutostartRun} {done layer : List AutostartNode}

theorem perm (h : RunSound plan w done layer) {buffered : List (AutostartNode × Stage)}
    (hpe : w.buffered.Perm buffered) :
    RunSound plan { w with buffered } done layer where
  cut := h.cut
  deps := h.deps
  laterDeps := h.laterDeps
  current := h.current.trans
    (((hpe.map Prod.fst).map (·.moduleId)).append_right _ |>.append_left _)
  members node hnode := by
    refine h.members node ?_
    rcases mem_append.mp hnode with hb | hw
    · exact mem_append_left _ ((hpe.map Prod.fst).mem_iff.mpr hb)
    · exact mem_append_right _ hw
  finished := h.finished
  succeeded := h.succeeded
  results := h.results
  called id := by
    rw [h.called id]
    exact or_congr_right (exists_congr fun node => and_congr_left fun _ => hpe.mem_iff)
  calls := h.calls
  skipped := h.skipped
  reporting node reason hmem := h.reporting node reason (hpe.mem_iff.mpr hmem)

theorem apart (h : RunSound plan w done layer) (hpl : (idsOf plan.layers.flatten).Nodup) :
    (idsOf done ++ (w.results.map Prod.fst ++
      (idsOf (w.buffered.map Prod.fst) ++ idsOf w.waiting))).Nodup := by
  rw [h.cut, idsOf, map_append, map_append, ← append_assoc] at hpl
  have hfro := (nodup_append.mp hpl).1
  exact (h.current.append_left _).nodup_iff.mp hfro

variable {node : AutostartNode} {stage : Stage} {rest : List (AutostartNode × Stage)} {k : Nat}
  {entry : AutostartNode × Stage}

theorem unfinished (h : RunSound plan w done layer) (hpl : (idsOf plan.layers.flatten).Nodup)
    (hmem : (node, stage) ∈ w.buffered) : ¬ Finished w.log node.moduleId := by
  have hid : node.moduleId ∈ idsOf (w.buffered.map Prod.fst) ++ idsOf w.waiting :=
    mem_append_left _ (mem_map_of_mem (mem_map_of_mem hmem))
  obtain ⟨-, hre, hdo⟩ := nodup_append.mp (h.apart hpl)
  obtain ⟨-, -, hres⟩ := nodup_append.mp hre
  intro hfin
  rcases (h.finished _).mp hfin with hd | hr
  · exact hdo _ hd _ (mem_append_right _ hid) rfl
  · exact hres _ hr _ hid rfl

theorem mem_succeeded_foldl (results : List (String × Bool)) (s : Finset String) (id : String) :
    id ∈ results.foldl (fun s r => if r.2 then insert r.1 s else s) s ↔
      id ∈ s ∨ (id, true) ∈ results := by
  induction results generalizing s with
  | nil => exact (or_iff_left not_mem_nil).symm
  | cons r results ih =>
    obtain ⟨rid, ok⟩ := r
    rw [foldl_cons, ih, mem_cons, Prod.mk.injEq]
    cases ok with
    | true =>
      rw [if_pos rfl, Finset.mem_insert]
      tauto
    | false =>
      rw [if_neg Bool.false_ne_true]
      have hne : ¬ (id = rid ∧ true = false) := fun hand => nomatch hand.2
      tauto

theorem nextLayer {l : List AutostartNode} {later : List (List AutostartNode)}
    (h : RunSound plan w done layer) (hwai : w.waiting = []) (hbuf : w.buffered = [])
    (hlat : w.later = l :: later) :
    RunSound plan { w with
      later, waiting := l, results := []
      succeeded := w.results.foldl (fun s r => if r.2 then insert r.1 s else s) w.succeeded }
      (done ++ layer) l := by
  have hcur : ∀ id, id ∈ idsOf layer ↔ id ∈ w.results.map Prod.fst := by
    intro id
    rw [h.current.mem_iff, hwai, hbuf]
    simp only [idsOf, map_nil, append_nil]
  have hids : ∀ id, id ∈ idsOf (done ++ layer) ↔ id ∈ idsOf done ∨ id ∈ w.results.map Prod.fst := by
    intro id
    rw [idsOf, map_append, mem_append, ← hcur]
    rfl
  refine ⟨?_, ?_, ?_, ?_, ?_, ?_, ?_, ?_, ?_, h.calls, h.skipped, ?_⟩
  · rw [h.cut, hlat, flatten_cons, append_assoc]
  · intro node hno d hd
    have hmem := h.laterDeps [] l later hlat node hno d hd
    rwa [flatten_nil, append_nil] at hmem
  · intro pre l' after hspl node hno d hd
    have hmem := h.laterDeps (l :: pre) l' after
      (by rw [hlat, show later = _ from hspl]; rfl) node hno d hd
    rwa [flatten_cons, ← append_assoc] at hmem
  · rw [hbuf]
    exact List.Perm.refl _
  · intro node hno
    rw [hbuf] at hno
    exact hno
  · intro id
    rw [hids, h.finished]
    exact (or_iff_left not_mem_nil).symm
  · intro id
    show id ∈ w.results.foldl _ _ ↔ _
    rw [mem_succeeded_foldl, h.succeeded, hids]
    constructor
    · rintro (⟨hd, hret⟩ | hres)
      · exact ⟨.inl hd, hret⟩
      · exact ⟨.inr (mem_map_of_mem hres), (h.results id true hres).mp rfl⟩
    · rintro ⟨hd | hr, hret⟩
      · exact .inl ⟨hd, hret⟩
      · obtain ⟨⟨id', ok⟩, hmem, rfl⟩ := mem_map.mp hr
        have hok := (h.results id' ok hmem).mpr hret
        exact .inr (hok ▸ hmem)
  · exact fun _ _ h => by cases h
  · intro id
    rw [h.called id, hbuf]
  · intro node why hmem
    rw [hbuf] at hmem
    cases hmem

theorem pull {rest : List AutostartNode} (h : RunSound plan w done layer)
    (hwai : w.waiting = node :: rest) :
    RunSound plan { w with waiting := rest, buffered := w.buffered ++ [(node, .fresh)] } done
      layer := by
  have hsta : ∀ node' stage, stage ≠ Stage.fresh →
      ((node', stage) ∈ w.buffered ++ [(node, Stage.fresh)] ↔ (node', stage) ∈ w.buffered) := by
    intro node' stage hne
    rw [mem_append, mem_singleton, Prod.mk.injEq]
    exact or_iff_left fun hand => hne hand.2
  refine ⟨h.cut, h.deps, h.laterDeps, ?_, ?_, h.finished, h.succeeded, h.results, ?_, h.calls,
    h.skipped, ?_⟩
  · have hcur := h.current
    rw [hwai] at hcur
    simpa only [idsOf, map_append, map_cons, map_nil, append_assoc,
      cons_append, nil_append] using hcur
  · intro n hn
    refine h.members n ?_
    rw [hwai]
    simpa only [map_append, map_cons, map_nil, append_assoc, cons_append, nil_append] using hn
  · intro id
    rw [h.called id]
    exact or_congr_right (exists_congr fun n => and_congr_left fun _ =>
      (hsta n .starting (by simp)).symm)
  · intro n why hmem
    exact h.reporting n why ((hsta n (.reporting why) (by simp)).mp hmem)

theorem report {why : String}
    (h : RunSound plan { w with buffered := (node, .fresh) :: rest } done layer)
    (hdep : ∃ d ∈ node.dependencies, d ∉ w.succeeded) :
    RunSound plan { w with buffered := (node, .reporting why) :: rest } done layer := by
  refine ⟨h.cut, h.deps, h.laterDeps, h.current, h.members, h.finished, h.succeeded, h.results,
    ?_, h.calls, h.skipped, ?_⟩
  · intro id
    rw [h.called id]
    refine or_congr_right (exists_congr fun n => and_congr_left fun _ => ?_)
    rw [mem_cons, mem_cons, or_iff_right, or_iff_right]
    · exact fun heq => nomatch (Prod.mk.inj heq).2
    · exact fun heq => nomatch (Prod.mk.inj heq).2
  · intro n r hmem
    rcases mem_cons.mp hmem with heq | hmem
    · rw [(Prod.mk.inj heq).1]
      exact hdep
    · exact h.reporting n r (mem_cons_of_mem _ hmem)

theorem start (h : RunSound plan { w with buffered := (node, .fresh) :: rest } done layer)
    (hpl : (idsOf plan.layers.flatten).Nodup) (hde : ∀ d ∈ node.dependencies, d ∈ w.succeeded) :
    RunSound plan { w with
      buffered := (node, .starting) :: rest, log := w.log ++ [.called node.moduleId] } done
      layer := by
  have hmem : ∀ o : Occurrence, (∀ id, o ≠ .called id) →
      (o ∈ w.log ++ [.called node.moduleId] ↔ o ∈ w.log) := by
    intro o ho
    rw [mem_append, mem_singleton]
    exact or_iff_left (ho _)
  have hret : ∀ id ok, Occurrence.returned id ok ∈ w.log ++ [.called node.moduleId] ↔
      .returned id ok ∈ w.log := fun id ok => hmem _ nofun
  have hsk : ∀ id why, Occurrence.skipped id why ∈ w.log ++ [.called node.moduleId] ↔
      .skipped id why ∈ w.log := fun id why => hmem _ nofun
  have hfi : ∀ id, Finished (w.log ++ [.called node.moduleId]) id ↔ Finished w.log id :=
    fun id => finished_append.trans (or_iff_left (by simp [Finished]))
  have hlay : node ∈ layer := h.members node (mem_cons_self ..)
  have hno : node ∈ plan.layers.flatten := by
    rw [h.cut]
    exact mem_append_right _ (mem_append_left _ hlay)
  -- it was not called before: it has not returned, and is in the buffer once
  have hnew : Occurrence.called node.moduleId ∉ w.log := by
    intro hcal
    rcases (h.called node.moduleId).mp hcal with hreturned | ⟨n, hn, hid⟩
    · exact h.unfinished hpl (mem_cons_self ..) (.inl hreturned)
    · obtain ⟨-, hre, -⟩ := nodup_append.mp (h.apart hpl)
      have hbuf := (nodup_append.mp (nodup_append.mp hre).2.1).1
      have hfre : node.moduleId ∉ idsOf (rest.map Prod.fst) := (nodup_cons.mp hbuf).1
      rcases mem_cons.mp hn with heq | hn
      · cases heq
      · refine hfre ?_
        rw [← hid]
        exact mem_map_of_mem (mem_map_of_mem hn)
  refine ⟨h.cut, h.deps, h.laterDeps, h.current, h.members, ?_, ?_, ?_, ?_, ?_, ?_, ?_⟩
  · intro id
    rw [hfi]
    exact h.finished id
  · intro id
    rw [hret]
    exact h.succeeded id
  · intro id ok hres
    rw [hret]
    exact h.results id ok hres
  · intro id
    simp only [hret, mem_append, mem_singleton, Occurrence.called.injEq]
    rw [h.called id, or_assoc]
    refine or_congr_right ?_
    simp only [mem_cons, Prod.mk.injEq, reduceCtorEq, and_false, false_or, and_true,
      or_and_right, exists_or, exists_eq_left]
    exact or_comm.trans (or_congr_left eq_comm)
  · intro earlier id after hspl
    rcases Sequences.append_singleton_eq hspl with ⟨rfl, heq⟩ | ⟨after', hold⟩
    · rw [Occurrence.called.inj heq]
      refine ⟨hnew, node, hno, rfl, ?_⟩
      intro d hd
      exact ((h.succeeded d).mp (hde d hd)).2
    · exact h.calls earlier id after' hold
  · intro id why hs
    rw [hsk] at hs
    obtain ⟨n, hn, hid, d, hd, hfin, hnot⟩ := h.skipped id why hs
    refine ⟨n, hn, hid, d, hd, (hfi d).mpr hfin, ?_⟩
    rw [hret]
    exact hnot
  · intro n r hm
    refine h.reporting n r ((mem_cons.mp hm).resolve_left ?_ |> mem_cons_of_mem _)
    exact fun heq => nomatch (Prod.mk.inj heq).2

theorem finish {ok : Bool} {occurrence : Occurrence}
    (h : RunSound plan { w with buffered := (node, stage) :: rest } done layer)
    (hpl : (idsOf plan.layers.flatten).Nodup)
    (hki : stage = .starting ∧ occurrence = .returned node.moduleId ok ∨
      (∃ why, stage = .reporting why ∧ occurrence = .skipped node.moduleId why) ∧ ok = false) :
    RunSound plan { w with
      buffered := rest
      results := w.results ++ [(node.moduleId, ok)]
      log := w.log ++ [occurrence] } done layer := by
  have hunf : ¬ Finished w.log node.moduleId := h.unfinished hpl (mem_cons_self ..)
  have hmem : ∀ o, o ∈ w.log ++ [occurrence] ↔ o ∈ w.log ∨ o = occurrence := by
    intro o
    rw [mem_append, mem_singleton]
  have hcal : ∀ id, occurrence ≠ .called id := by
    rintro id rfl
    rcases hki with ⟨-, heq⟩ | ⟨⟨_, -, heq⟩, -⟩
    · cases heq
    · cases heq
  -- what the log now says of an id
  have htr : ∀ id, Occurrence.returned id true ∈ w.log ++ [occurrence] ↔
      .returned id true ∈ w.log ∨ id = node.moduleId ∧ ok = true := by
    intro id
    rw [hmem]
    refine or_congr_right ?_
    rcases hki with ⟨-, rfl⟩ | ⟨⟨_, -, rfl⟩, rfl⟩
    · rw [Occurrence.returned.injEq]
      exact and_congr_right fun _ => eq_comm
    · exact iff_of_false nofun fun hand => by cases hand.2
  have hfi : ∀ id, Finished (w.log ++ [occurrence]) id ↔
      Finished w.log id ∨ id = node.moduleId := by
    intro id
    rw [finished_append]
    refine or_congr_right ?_
    rcases hki with ⟨-, rfl⟩ | ⟨⟨_, -, rfl⟩, -⟩
    · simp [Finished]
    · simp [Finished]
  have hlay : node ∈ layer := h.members node (mem_cons_self ..)
  have hno : node.moduleId ∉ idsOf done := fun hd => hunf ((h.finished _).mpr (.inl hd))
  refine ⟨h.cut, h.deps, h.laterDeps, ?_, ?_, ?_, ?_, ?_, ?_, ?_, ?_, ?_⟩
  · simpa only [idsOf, map_append, map_cons, map_nil, append_assoc,
      cons_append, nil_append] using h.current
  · exact fun n hn => h.members n (mem_cons_of_mem _ hn)
  · intro id
    rw [hfi, h.finished, map_append, mem_append, or_assoc]
    refine or_congr_right (or_congr_right ?_)
    exact mem_singleton.symm
  · intro id
    rw [htr]
    refine (h.succeeded id).trans (and_congr_right fun hd => ?_)
    refine (or_iff_left ?_).symm
    rintro ⟨rfl, -⟩
    exact hno hd
  · intro id b hres
    rw [htr]
    rcases mem_append.mp hres with hold | hnew
    · rw [or_iff_left]
      · exact h.results id b hold
      · rintro ⟨rfl, -⟩
        exact hunf ((h.finished _).mpr (.inr (mem_map_of_mem hold)))
    · obtain ⟨rfl, rfl⟩ := Prod.mk.inj (mem_singleton.mp hnew)
      rw [or_iff_right fun hret => hunf (.inl ⟨true, hret⟩)]
      exact (and_iff_right rfl).symm
  · intro id
    rw [hmem, or_iff_left (hcal id).symm, h.called id]
    simp only [hmem]
    rcases hki with ⟨rfl, rfl⟩ | ⟨⟨r, rfl, rfl⟩, -⟩
    · simp only [Occurrence.returned.injEq, mem_cons, Prod.mk.injEq, and_true, exists_or,
        or_and_right, exists_eq_left, exists_and_left, exists_eq, or_assoc]
      exact or_congr_right (or_congr_left eq_comm)
    · simp only [mem_cons, Prod.mk.injEq, reduceCtorEq, and_false, false_or, or_false]
  · intro earlier id after hspl
    rcases Sequences.append_singleton_eq hspl with ⟨-, heq⟩ | ⟨after', hold⟩
    · exact absurd heq.symm (hcal id)
    · exact h.calls earlier id after' hold
  · intro id why hs
    rcases (hmem _).mp hs with hold | hnew
    · obtain ⟨n, hn, hid, d, hd, hfin, hnot⟩ := h.skipped id why hold
      refine ⟨n, hn, hid, d, hd, (hfi d).mpr (.inl hfin), ?_⟩
      rw [htr, not_or]
      refine ⟨hnot, ?_⟩
      rintro ⟨rfl, -⟩
      exact hunf hfin
    · -- the dependency that has not succeeded is in an earlier layer, so it has finished
      rcases hki with ⟨-, rfl⟩ | ⟨⟨r, rfl, rfl⟩, rfl⟩
      · cases hnew
      · obtain ⟨d, hd, hfai⟩ := h.reporting node r (mem_cons_self ..)
        have hdo : d ∈ idsOf done := h.deps node hlay d hd
        refine ⟨node, ?_, (Occurrence.skipped.inj hnew).1.symm, d, hd,
          (hfi d).mpr (.inl ((h.finished d).mpr (.inl hdo))), ?_⟩
        · rw [h.cut]
          exact mem_append_right _ (mem_append_left _ hlay)
        · rw [htr, not_or]
          exact ⟨fun hret => hfai ((h.succeeded d).mpr ⟨hdo, hret⟩), fun hand => by cases hand.2⟩
  · exact fun n r hm => h.reporting n r (mem_cons_of_mem _ hm)

theorem front (h : RunSound plan w done layer) (hk : w.buffered[k]? = some entry) :
    RunSound plan { w with buffered := entry :: w.buffered.eraseIdx k } done layer := by
  obtain ⟨hlt, heq⟩ := List.getElem?_eq_some_iff.mp hk
  refine h.perm ?_
  rw [← heq]
  exact (getElem_cons_eraseIdx_perm hlt).symm

theorem set {entry' : AutostartNode × Stage} (hk : w.buffered[k]? = some entry')
    (h : RunSound plan { w with buffered := entry :: w.buffered.eraseIdx k } done layer) :
    RunSound plan { w with buffered := w.buffered.set k entry } done layer :=
  h.perm (set_perm_cons_eraseIdx (List.getElem?_eq_some_iff.mp hk).1 entry).symm

theorem pollFresh (h : RunSound plan w done layer) (hpl : (idsOf plan.layers.flatten).Nodup)
    (hk : w.buffered[k]? = some (node, .fresh)) :
    RunSound plan (w.pollFresh k node) done layer := by
  rw [AutostartRun.pollFresh]
  split
  · next dep hfind =>
      refine set hk ((h.front hk).report ⟨dep, mem_of_find?_eq_some hfind, ?_⟩)
      simpa using List.find?_some hfind
  · next hfind =>
      have hde : ∀ d ∈ node.dependencies, d ∈ w.succeeded := by
        intro d hd
        simpa using List.find?_eq_none.mp hfind d hd
      exact ((h.front hk).start hpl hde).perm
        (set_perm_cons_eraseIdx (List.getElem?_eq_some_iff.mp hk).1 _).symm

/-- **ONE STEP.** -/
theorem step (h : RunSound plan w done layer) (hpl : (idsOf plan.layers.flatten).Nodup)
    (limit : Nat) (event : AutostartEvent) :
    ∃ done' layer', RunSound plan (w.step limit event) done' layer' := by
  fun_cases AutostartRun.step limit w event
  case case1 l later hlater hbuffered hwaiting =>
    exact ⟨_, _, h.nextLayer hwaiting hbuffered hlater⟩
  case case3 node rest hwaiting _ => exact ⟨_, _, h.pull hwaiting⟩
  case case6 k node hk => exact ⟨_, _, h.pollFresh hpl hk⟩
  case case8 k ok node hk => exact ⟨_, _, (h.front hk).finish hpl (.inl ⟨rfl, rfl⟩)⟩
  case case9 k ok node reason hk =>
    exact ⟨_, _, (h.front hk).finish hpl (.inr ⟨⟨reason, rfl, rfl⟩, rfl⟩)⟩
  all_goals exact ⟨_, _, h⟩

end RunSound

/-! ## The run ends -/

def Stage.weight : Stage → Nat
  | .fresh => 2
  | .reporting _ | .starting => 1

def AutostartRun.remaining (w : AutostartRun) : Nat :=
  (w.later.map fun l => 3 * l.length + 1).sum + 3 * w.waiting.length +
    (w.buffered.map fun e => e.2.weight).sum

namespace AutostartRun

variable {w : AutostartRun} {limit : Nat}

variable {k : Nat} {entry : AutostartNode × Stage}

theorem weight_front (hk : w.buffered[k]? = some entry) : (w.buffered.map fun e => e.2.weight).sum =
      entry.2.weight + ((w.buffered.eraseIdx k).map fun e => e.2.weight).sum := by
  obtain ⟨hlt, heq⟩ := List.getElem?_eq_some_iff.mp hk
  rw [← heq]
  exact ((getElem_cons_eraseIdx_perm hlt).map fun e => e.2.weight).sum_eq.symm

theorem weight_set {entry' : AutostartNode × Stage} (hk : w.buffered[k]? = some entry) :
    ((w.buffered.set k entry').map fun e => e.2.weight).sum =
      entry'.2.weight + ((w.buffered.eraseIdx k).map fun e => e.2.weight).sum :=
  ((set_perm_cons_eraseIdx (List.getElem?_eq_some_iff.mp hk).1 entry').map
    fun e => e.2.weight).sum_eq

theorem remaining_pollFresh {node : AutostartNode} (hk : w.buffered[k]? = some (node, .fresh)) :
    (w.pollFresh k node).remaining < w.remaining := by
  have hfro : (w.buffered.map fun e => e.2.weight).sum =
      2 + ((w.buffered.eraseIdx k).map fun e => e.2.weight).sum := weight_front hk
  have hset : ∀ stage : Stage, stage.weight = 1 →
      ((w.buffered.set k (node, stage)).map fun e => e.2.weight).sum =
        1 + ((w.buffered.eraseIdx k).map fun e => e.2.weight).sum := by
    intro stage hsta
    rw [weight_set hk, hsta]
  rw [pollFresh]
  split
  · simp only [remaining]
    rw [hset _ rfl, hfro]
    omega
  · simp only [remaining]
    rw [hset _ rfl, hfro]
    omega

theorem remaining_finishAt (hk : w.buffered[k]? = some entry) (id : String) (ok : Bool)
    (occ : Occurrence) : (w.finishAt k id ok occ).remaining < w.remaining := by
  have hfro := weight_front hk
  have hpos : 0 < entry.2.weight := by
    cases entry.2 with
    | fresh => exact Nat.zero_lt_succ 1
    | reporting why | starting => exact Nat.zero_lt_one
  simp only [remaining, finishAt, hfro]
  omega

theorem step_decreases (limit : Nat) (w : AutostartRun) (event : AutostartEvent) :
    w.step limit event = w ∨ (w.step limit event).remaining < w.remaining := by
  fun_cases AutostartRun.step limit w event
  case case1 l later hlater hbuffered hwaiting =>
    right
    simp only [remaining, hlater, hwaiting, map_cons, sum_cons, length_nil]
    omega
  case case3 node rest hwaiting _ =>
    right
    simp only [remaining, hwaiting, map_append, sum_append, map_cons,
      map_nil, sum_cons, sum_nil, length_cons, Stage.weight]
    omega
  case case6 k node hk => exact .inr (remaining_pollFresh hk)
  case case8 k ok node hk | case9 k ok node reason hk => exact .inr (remaining_finishAt hk ..)
  all_goals exact .inl rfl

theorem ended (hlim : 0 < limit) (hstu : ∀ event, w.step limit event = w) :
    w.waiting = [] ∧ w.buffered = [] ∧ w.later = [] := by
  have hbuf : w.buffered = [] := by
    cases hb : w.buffered with
    | nil => rfl
    | cons entry rest =>
      exfalso
      obtain ⟨node, stage⟩ := entry
      have hk : w.buffered[0]? = some (node, stage) := by rw [hb]; rfl
      cases stage with
      | fresh =>
        have hpo : w.step limit (.poll 0) = w.pollFresh 0 node := by simp only [step, hk]
        have hle := remaining_pollFresh hk
        rw [← hpo, hstu] at hle
        exact lt_irrefl _ hle
      | reporting why =>
        have hfin : w.step limit (.finish 0 true) =
            w.finishAt 0 node.moduleId false (.skipped node.moduleId why) := by
          simp only [step, hk]
        have hle := remaining_finishAt hk node.moduleId false (.skipped node.moduleId why)
        rw [← hfin, hstu] at hle
        exact lt_irrefl _ hle
      | starting =>
        have hfin : w.step limit (.finish 0 true) =
            w.finishAt 0 node.moduleId true (.returned node.moduleId true) := by
          simp only [step, hk]
        have hle := remaining_finishAt hk node.moduleId true (.returned node.moduleId true)
        rw [← hfin, hstu] at hle
        exact lt_irrefl _ hle
  have hwai : w.waiting = [] := by
    cases hw : w.waiting with
    | nil => rfl
    | cons node rest =>
      exfalso
      have hpu : w.step limit .pull =
          { w with waiting := rest, buffered := w.buffered ++ [(node, .fresh)] } := by
        simp only [step, hw, hbuf, length_nil, hlim, if_true]
      have hlen := congrArg (fun w' => w'.buffered.length) (hpu.symm.trans (hstu .pull))
      simp only [hbuf, nil_append, length_cons, length_nil] at hlen
      cases hlen
  refine ⟨hwai, hbuf, ?_⟩
  cases hl : w.later with
  | nil => rfl
  | cons layer later =>
    exfalso
    have hne : (w.step limit .nextLayer).later = later := by
      simp only [step, hwai, hbuf, hl]
    rw [hstu, hl] at hne
    exact cons_ne_self _ _ hne

end AutostartRun

/-! ## Dependencies are respected -/

theorem runSound_begin {modules : List Modules.InstalledModule} {plan : AutostartPlan}
    (h : PlanSound modules plan) : RunSound plan (.begin plan) [] [] := by
  have hlog : ∀ o ∈ (AutostartRun.begin plan).log, ∃ id reason, o = .blocked id reason := by
    intro o ho
    obtain ⟨b, -, rfl⟩ := mem_map.mp ho
    exact ⟨_, _, rfl⟩
  have hcal : ∀ id, Occurrence.called id ∉ (AutostartRun.begin plan).log := by
    intro id hmem
    obtain ⟨_, _, heq⟩ := hlog _ hmem
    cases heq
  have hret : ∀ id ok, Occurrence.returned id ok ∉ (AutostartRun.begin plan).log := by
    intro id ok hmem
    obtain ⟨_, _, heq⟩ := hlog _ hmem
    cases heq
  have hski : ∀ id reason, Occurrence.skipped id reason ∉ (AutostartRun.begin plan).log := by
    intro id reason hmem
    obtain ⟨_, _, heq⟩ := hlog _ hmem
    cases heq
  refine ⟨rfl, nofun, ?_, List.Perm.refl _, nofun, ?_, ?_, nofun, ?_, ?_, ?_, nofun⟩
  · intro pre l after hspl node hno d hd
    exact h.earlier pre l after hspl node hno d hd
  · intro id
    refine iff_of_false ?_ fun hor => hor.elim nofun nofun
    rintro (⟨ok, hmem⟩ | ⟨reason, hmem⟩)
    · exact hret id ok hmem
    · exact hski id reason hmem
  · intro id
    exact iff_of_false (Finset.notMem_empty id) fun hand => nomatch hand.1
  · intro id
    refine iff_of_false (hcal id) ?_
    rintro (⟨ok, hmem⟩ | ⟨_, hmem, _⟩)
    · exact hret id ok hmem
    · cases hmem
  · intro earlier id after hspl
    refine absurd ?_ (hcal id)
    rw [hspl]
    exact mem_append_right _ (mem_cons_self ..)
  · exact fun id reason hmem => absurd hmem (hski id reason)

/-- Every required dependency of the manifest names a module that has returned `Ok`. -/
def RequiredOk (log : List Occurrence) (manifest : ModuleManifest) : Prop :=
  ∀ dependency ∈ manifest.dependencies, dependency.isRequired = true →
    ∃ dep, Resolves dependency dep ∧ .returned dep true ∈ log

/-- **AUTOSTART RESPECTS DEPENDENCIES.** For installed modules with distinct ids, every
concurrency limit and every order and outcome of the starts: a module is started at
most once, and after the modules it requires have returned `Ok`; the run ends; and
when it has ended, every module that is not blocked and whose required modules have
returned `Ok` was started. -/
theorem autostart_respects_dependencies [SemverReq] (modules : List Modules.InstalledModule)
    (hdistinct : DistinctIds modules) (raw : Option (Option Nat)) (events : List AutostartEvent) :
    let limit := autostartConcurrencyLimit raw
    let w := ensureAllRunning limit modules events
    (∀ earlier id after, w.log = earlier ++ .called id :: after → .called id ∉ earlier ∧
      ∀ m ∈ modules, moduleId m.manifest.id = .ok id → RequiredOk earlier m.manifest) ∧
    (∀ event, w.step limit event = w ∨ (w.step limit event).remaining < w.remaining) ∧
    ((∀ event, w.step limit event = w) → ∀ m ∈ modules, ∀ id, moduleId m.manifest.id = .ok id →
      (∀ b ∈ (buildAutostartPlan modules).blocked, b.moduleId ≠ id) →
      RequiredOk w.log m.manifest → .called id ∈ w.log) := by
  intro limit w
  have hpl : PlanSound modules (buildAutostartPlan modules) := plan_sound hdistinct
  have hrun : ∃ done layer, RunSound (buildAutostartPlan modules) w done layer := by
    have hst : ∀ (w : AutostartRun) (event : AutostartEvent),
        (∃ done layer, RunSound (buildAutostartPlan modules) w done layer) →
        ∃ done layer, RunSound (buildAutostartPlan modules) (w.step limit event) done layer := by
      rintro w event ⟨done, layer, h⟩
      exact h.step hpl.nodup limit event
    exact Run.always hst ⟨[], [], runSound_begin hpl⟩ events
  obtain ⟨done, layer, h⟩ := hrun
  refine ⟨?_, AutostartRun.step_decreases limit w, ?_⟩
  · intro earlier id after hspl
    obtain ⟨hfir, node, hno, rfl, hde⟩ := h.calls earlier id after hspl
    refine ⟨hfir, ?_⟩
    intro m hm hid dependency hdep hreq
    obtain ⟨dep, hmem, hres⟩ := (hpl.required node hno m hm hid).1 dependency hdep hreq
    exact ⟨dep, hres, hde dep hmem⟩
  · intro hstu m hm id hid hfr hok
    obtain ⟨hwai, hbuf, hlat⟩ := AutostartRun.ended (autostartConcurrencyLimit_pos raw) hstu
    have hin : id ∈ idsOf (buildAutostartPlan modules).layers.flatten := by
      rcases hpl.complete m hm id hid with hin | ⟨b, hb, heq⟩
      · exact hin
      · exact absurd heq (hfr b hb)
    -- everything in a layer has finished
    have hfin : Finished w.log id := by
      rw [h.finished]
      rw [h.cut, hlat, flatten_nil, append_nil, idsOf, map_append, mem_append] at hin
      refine hin.imp_right fun hl => ?_
      have hcur := h.current.mem_iff.mp hl
      rw [hwai, hbuf] at hcur
      simpa only [idsOf, map_nil, append_nil] using hcur
    rcases hfin with hreturned | ⟨reason, hski⟩
    · exact (h.called id).mpr (.inl hreturned)
    · obtain ⟨node, hno, rfl, d, hd, -, hnot⟩ := h.skipped id reason hski
      obtain ⟨dependency, hdep, hres⟩ := (hpl.required node hno m hm hid).2 d hd
      obtain ⟨dep, hre', hret⟩ := hok dependency hdep hres.1
      rw [Except.ok.inj (hres.2.symm.trans hre'.2)] at hnot
      exact absurd hret hnot

/-! ## Two layers -/

/-- No requirement is met, and no tag is compared. -/
@[reducible] def sampleSemver : SemverReq where
  comparePre _ _ := .eq
  compareBuild _ _ := .eq
  reqMatches _ _ := false
  comparatorMatches _ _ := false
  displayReq _ := ""

attribute [local instance] sampleSemver

def sampleModule (id : String) (dependencies : List ModuleDependency) : Modules.InstalledModule where
  manifest :=
    { id
      version := ⟨1, 0, 0, "", ""⟩
      title := none
      description := none
      fenrirVersion := none
      authors := []
      license := none
      artifact := ⟨"", ⟨.sha256, ""⟩, none, none⟩
      signature := ⟨.ed25519, "", ""⟩
      dependencies
      tags := []
      publishedAt := none }
  path := "/modules/" ++ id
  source := .distribution

/-- `web` requires `core`, `mail` requires a module that is not there. -/
def sampleModules : List Modules.InstalledModule :=
  [sampleModule "web" [.id "core"], sampleModule "core" [], sampleModule "mail" [.id "smtp"]]

def sampleEvents : List AutostartEvent :=
  [.nextLayer, .pull, .poll 0, .finish 0 true, .nextLayer, .pull, .poll 0]

theorem web_after_core : DistinctIds sampleModules ∧
      (ensureAllRunning (autostartConcurrencyLimit (some (some 0))) sampleModules
        sampleEvents).log =
        [.blocked "mail" "MODULE-DEP-001: required dependency 'smtp' is not installed",
          .called "core", .returned "core" true] ++ .called "web" :: [] ∧
      RequiredOk [.blocked "mail" "MODULE-DEP-001: required dependency 'smtp' is not installed",
        .called "core", .returned "core" true] (sampleModule "web" [.id "core"]).manifest := by
  have hdis : DistinctIds sampleModules := by
    rw [DistinctIds]
    decide +kernel
  have hlog : (ensureAllRunning (autostartConcurrencyLimit (some (some 0))) sampleModules
      sampleEvents).log =
        [.blocked "mail" "MODULE-DEP-001: required dependency 'smtp' is not installed",
          .called "core", .returned "core" true] ++ .called "web" :: [] := by decide +kernel
  have hres := autostart_respects_dependencies sampleModules hdis (some (some 0)) sampleEvents
  refine ⟨hdis, hlog, (hres.1 _ "web" [] hlog).2 _ (mem_cons_self ..) ?_⟩
  decide +kernel

end Fenrir.Autostart
