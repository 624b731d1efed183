import Fenrir.Postgres.Connections

/-! # Invalidating the statement caches

`invalidate_statement_caches` only counts up a generation, a `u64`. A checkout reads the
number once, and empties the cache of a connection that has another number; checkouts that
began earlier still write older numbers. What carries the proof is `Since`: a connection
with the number of the invalidation or a later one has only statements whose preparation
began after it, as long as the counter does not begin again (`Fits`). -/

namespace Fenrir.Postgres

open Parties Function

variable {settings : PoolSettings} {action : Action} {pool pool' : PgPool} {p p' : Phase}
  {conn conn' : PgConn}

/-! ## Caches -/

namespace StatementCache

variable {cache : StatementCache} {sql : String} {statement : Statement} {e : CachedStatement}

theorem mem_touch (h : e ∈ (cache.touch sql).entries) :
    ∃ old ∈ cache.entries, e.statement = old.statement := by
  obtain ⟨old, hold, rfl⟩ := List.mem_map.mp h
  refine ⟨old, hold, ?_⟩
  split_ifs <;> rfl

theorem mem_remove (h : e ∈ (cache.remove sql).entries) : e ∈ cache.entries :=
  List.mem_of_mem_filter h

theorem mem_insert (h : e ∈ (cache.insert sql statement).entries) :
    e ∈ cache.entries ∨ e.statement = statement := by
  rcases List.mem_append.mp h with hrest | hnew
  · left
    have hro := mem_remove hrest
    split_ifs at hro
    · cases hold : cache.oldest with
      | none =>
        rw [hold] at hro
        exact hro
      | some old =>
        rw [hold] at hro
        exact mem_remove hro
    · exact hro
  · right
    rw [List.mem_singleton.mp hnew]

end StatementCache

/-! ## Generations -/

/-- The generation a checkout has read, or has left on its connection. -/
def readGeneration : Phase → Option Nat
  | .looping _ generation | .examining _ generation _ | .pinging _ generation _
  | .healthy _ generation _ | .makingRoom _ generation | .roomListing _ generation
  | .scanning _ generation _ _ | .evicting _ generation _ | .connecting _ generation =>
    some generation
  | .holding _ conn _ _ => some conn.generation
  | _ => none

theorem tagged_generation (conn : PgConn) (generation : Nat) :
    (conn.tagged generation).generation = generation := by
  rw [PgConn.tagged]
  split_ifs with h
  · rfl
  · exact not_not.mp h

theorem abandoned_generation (conn : PgConn) (preparing : Option (String × Nat)) :
    (conn.abandoned preparing).generation = conn.generation ∧
      (conn.abandoned preparing).statements = conn.statements := by
  rw [PgConn.abandoned]
  split_ifs <;> exact ⟨rfl, rfl⟩

def Action.isInvalidate : Action → Bool
  | .invalidate => true
  | _ => false

variable {generation : Nat}

section

variable (h : advance settings action p pool = some (p', pool'))

include h

theorem advance_readGeneration (hre : readGeneration p' = some generation) :
    readGeneration p = some generation ∨ generation = pool.generation := by
  revert h
  fun_cases advance settings action p pool
  case case3 now closed =>
    fun_cases advanceNext settings now closed pool p
    all_goals intro h
    all_goals cases h
    case case11 => exact .inr (Option.some.inj hre).symm
    case case17 =>
      rw [readGeneration, tagged_generation] at hre
      exact .inl hre
    all_goals exact .inl hre
  all_goals intro h
  all_goals cases h
  all_goals first | exact .inl hre | cases hre

theorem advance_clocks : pool.clock ≤ pool'.clock ∧ pool'.generation =
    if action.isInvalidate then (pool.generation + 1) % 2 ^ 64 else pool.generation := by
  revert h
  fun_cases advance settings action p pool
  case case3 now closed =>
    fun_cases advanceNext settings now closed pool p
    all_goals intro h
    all_goals cases h
    case case5 =>
      show _ ∧ (pool.poolFor _).generation = pool.generation
      rw [PgPool.poolFor]
      split_ifs <;> exact ⟨le_refl _, rfl⟩
    case case23 hevict =>
      obtain ⟨k, kept, _, rfl⟩ := evict_spec hevict
      exact ⟨le_refl _, rfl⟩
    all_goals exact ⟨le_refl _, rfl⟩
  all_goals intro h
  all_goals cases h
  all_goals first
    | exact ⟨le_refl _, rfl⟩
    | exact ⟨Nat.le_succ _, rfl⟩

theorem advance_preparing {key : DbPoolKey} {discard : Bool} {sql : String} {start : Nat}
    (hpre : p' = .holding key conn discard (some (sql, start))) :
    start = pool.clock ∨ ∃ discard, p = .holding key conn discard (some (sql, start)) := by
  revert h
  fun_cases advance settings action p pool
  case case3 now closed =>
    fun_cases advanceNext settings now closed pool p
    all_goals intro h
    all_goals cases h
    all_goals cases hpre
  all_goals intro h
  all_goals cases h
  case case15 =>
    cases hpre
    exact .inl rfl
  case case20 =>
    cases hpre
    exact .inr ⟨_, rfl⟩
  all_goals cases hpre

end

/-! ## After an invalidation -/

/-- With the number of the invalidation or a later one, only statements prepared since. -/
def Since (generation clock : Nat) (conn : PgConn) : Prop :=
  generation ≤ conn.generation → ∀ e ∈ conn.statements.entries, clock ≤ e.statement.preparedAt

/-- A preparation that is under way began since. -/
def PreparingSince (generation clock : Nat) (p : Phase) : Prop :=
  ∀ key conn discard sql start, p = .holding key conn discard (some (sql, start)) →
    generation ≤ conn.generation → clock ≤ start

theorem Origin.since {clock : Nat} (hori : Origin pool p conn')
    (hcon : ∀ conn, Within pool p conn → Since generation clock conn)
    (hpre : PreparingSince generation clock p) : Since generation clock conn' := by
  have hown : ∀ conn, (hands p).own = some conn → Since generation clock conn :=
    fun conn hco => hcon conn (.inr hco)
  intro hnum e he
  cases hori with
  | kept hkept => exact hown conn' hkept hnum e he
  | taken key hidle => exact hcon conn' (.inl ⟨key, hidle⟩) hnum e he
  | opened => cases he
  | tagged key read conn hp =>
    -- either the number stood there already, or the cache is empty
    by_cases hsa : conn.generation ≠ read
    · rw [PgConn.tagged, if_pos hsa] at he
      cases he
    · rw [PgConn.tagged, if_neg hsa] at he hnum
      exact hown conn (by rw [hp]; rfl) hnum e he
  | touched key conn discard sql hp =>
    obtain ⟨old, hold, heq⟩ := StatementCache.mem_touch he
    rw [heq]
    exact hown conn (by rw [hp]; rfl) hnum old hold
  | inserted key conn discard sql start hp =>
    rcases StatementCache.mem_insert he with hold | hnew
    · exact hown conn (by rw [hp]; rfl) hnum e hold
    · rw [hnew]
      exact hpre key conn discard sql start hp hnum
  | removed key conn discard sql hp =>
    exact hown conn (by rw [hp]; rfl) hnum e (StatementCache.mem_remove he)
  | used key conn discard sess hp => exact hown conn (by rw [hp]; rfl) hnum e he
  | abandoned key conn discard preparing hp =>
    obtain ⟨hgen, hsta⟩ := abandoned_generation conn preparing
    rw [hgen] at hnum
    rw [hsta] at he
    exact hown conn (by rw [hp]; rfl) hnum e he

section

variable {ι : Type} [DecidableEq ι] {w : PoolWorld ι}

/-- The counter does not begin again. -/
def Fits (w : PoolWorld ι) (event : ι × Action) : Prop :=
  event.2.isInvalidate = true → w.shared.generation + 1 < 2 ^ 64

variable (settings) in
theorem generation_step (w : PoolWorld ι) (event : ι × Action) (hfits : Fits w event) :
    w.shared.generation ≤ (step (advance settings) w event).shared.generation ∧
      w.shared.clock ≤ (step (advance settings) w event).shared.clock ∧
      (step (advance settings) w event).shared.generation ≤
        w.shared.generation + if event.2.isInvalidate then 1 else 0 := by
  refine step_induction (Q := fun w' : PoolWorld ι => w.shared.generation ≤ w'.shared.generation ∧
    w.shared.clock ≤ w'.shared.clock ∧ w'.shared.generation ≤
      w.shared.generation + if event.2.isInvalidate then 1 else 0)
    ⟨le_refl _, le_refl _, Nat.le_add_right ..⟩ ?_
  intro p' pool' hadv
  obtain ⟨hclo, hgen⟩ := advance_clocks hadv
  show _ ≤ pool'.generation ∧ _ ≤ pool'.clock ∧ pool'.generation ≤ _
  rw [hgen]
  split_ifs with hinv
  · rw [Nat.mod_eq_of_lt (hfits hinv)]
    exact ⟨Nat.le_succ _, hclo, le_refl _⟩
  · exact ⟨le_refl _, hclo, le_refl _⟩

/-- Fewer invalidations than numbers. -/
theorem fits_run {w : PoolWorld ι} {evs : List (ι × Action)}
    (hfew : w.shared.generation + evs.countP (·.2.isInvalidate) < 2 ^ 64) :
    Run.Along (step (advance settings)) Fits w evs := by
  induction evs generalizing w with
  | nil => trivial
  | cons event evs ih =>
    rw [List.countP_cons] at hfew
    have hfits : Fits w event := by
      intro hinv
      rw [if_pos hinv] at hfew
      omega
    have hle := (generation_step settings w event hfits).2.2
    exact ⟨hfits, ih (by omega)⟩

/-- What holds of the pool, its calls and their connections after an invalidation. -/
structure SinceAll (generation clock : Nat) (w : PoolWorld ι) : Prop where
  number : generation ≤ w.shared.generation
  time : clock ≤ w.shared.clock
  conns : ∀ i conn, Within w.shared (w.party i) conn → Since generation clock conn
  preparing : ∀ i, PreparingSince generation clock (w.party i)

variable {clock generation : Nat}

theorem sinceAll_step (hw : SinceAll generation clock w) (event : ι × Action)
    (hfits : Fits w event) : SinceAll generation clock (step (advance settings) w event) := by
  obtain ⟨hgen, hclo, -⟩ := generation_step settings w event hfits
  obtain ⟨i, action⟩ := event
  refine ⟨hw.number.trans hgen, hw.time.trans hclo, ?_, ?_⟩
  · exact conns_step (fun _ _ hco => hco)
      (fun _ hori => hori.since (hw.conns i) (hw.preparing i)) hw.conns
  · refine forall_party (I := fun _ p => PreparingSince generation clock p) ?_
      (fun _ _ _ _ _ hbef => hbef) hw.preparing
    intro p' pool' hadv hbef key conn discard sql start hp hnum
    rcases advance_preparing hadv hp with rfl | ⟨discard', hp'⟩
    · exact hw.time
    · exact hbef key conn discard' sql start hp' hnum

/-! ## Before an invalidation -/

/-- No number is ahead of the pool's. -/
structure Behind (w : PoolWorld ι) : Prop where
  conns : ∀ i conn, Within w.shared (w.party i) conn → conn.generation ≤ w.shared.generation
  read : ∀ i generation, readGeneration (w.party i) = some generation →
    generation ≤ w.shared.generation

theorem Origin.behind (hori : Origin pool p conn') {bound : Nat}
    (hcon : ∀ conn, Within pool p conn → conn.generation ≤ bound)
    (hre : ∀ generation, readGeneration p = some generation → generation ≤ bound) :
    conn'.generation ≤ bound := by
  cases hori with
  | kept hkept => exact hcon conn' (.inr hkept)
  | taken key hidle => exact hcon conn' (.inl ⟨key, hidle⟩)
  | opened _ key generation now hp => exact hre generation (by rw [hp]; rfl)
  | tagged key generation conn hp =>
    rw [tagged_generation]
    exact hre generation (by rw [hp]; rfl)
  | touched key conn discard sql hp | inserted key conn discard sql start hp =>
    exact hcon conn (.inr (by rw [hp]; rfl))
  | removed key conn discard sql hp | used key conn discard sess hp =>
    exact hcon conn (.inr (by rw [hp]; rfl))
  | abandoned key conn discard preparing hp =>
    rw [(abandoned_generation conn preparing).1]
    exact hcon conn (.inr (by rw [hp]; rfl))

theorem behind_step (hw : Behind w) (event : ι × Action) (hfits : Fits w event) :
    Behind (step (advance settings) w event) := by
  have hgen := (generation_step settings w event hfits).1
  obtain ⟨i, action⟩ := event
  constructor
  · exact conns_step (fun _ _ hco => hco)
      (fun _ hori => (hori.behind (hw.conns i) (hw.read i)).trans hgen)
      (fun j conn hco => (hw.conns j conn hco).trans hgen)
  · refine forall_party
      (I := fun _ p => ∀ generation, readGeneration p = some generation →
        generation ≤ (step (advance settings) w (i, action)).shared.generation) ?_
      (fun _ _ _ _ _ hbef => hbef)
      (fun j generation hre => (hw.read j generation hre).trans hgen)
    intro p' pool' hadv hbef generation hre
    rcases advance_readGeneration hadv hre with hread' | rfl
    · exact hbef generation hread'
    · exact hgen

omit [DecidableEq ι] in
theorem behind_initial (now : Nat) : Behind (PoolWorld.initial settings now : PoolWorld ι) where
  conns := by
    rintro i conn (⟨key, hid⟩ | hown)
    · cases hid
    · cases hown
  read := by
    intro i generation hre
    cases hre

variable (settings) in
theorem behind_run (now : Nat) (evs : List (ι × Action))
    (hfits : Run.Along (step (advance settings)) Fits (PoolWorld.initial settings now) evs) :
    Behind (Run.run (step (advance settings)) (PoolWorld.initial settings now) evs) := by
  have hst : ∀ (w : PoolWorld ι) event, Behind w → Fits w event →
      Behind (step (advance settings) w event) := fun w event hw hf => behind_step hw event hf
  exact Run.invariant hst (behind_initial now) hfits

/-- The pool after `n` invalidations. -/
def PgPool.invalidated (pool : PgPool) (n : Nat) : PgPool :=
  { pool with generation := (pool.generation + n) % 2 ^ 64, clock := pool.clock + n }

variable (settings) in
theorem step_invalidate {j : ι} (hfin : w.party j = .finished) :
    step (advance settings) w (j, .invalidate) = ⟨w.shared.invalidated 1, w.party⟩ := by
  rw [step, hfin]
  show Parties.World.mk (w.shared.invalidated 1) (update w.party j .finished) = _
  rw [← hfin, update_eq_self]

variable (settings) in
theorem sinceAll_invalidate (hw : Behind w) {j : ι} (hfin : w.party j = .finished)
    (hfits : Fits w (j, .invalidate)) :
    SinceAll (w.shared.generation + 1) (w.shared.clock + 1)
      (step (advance settings) w (j, .invalidate)) := by
  rw [step_invalidate settings hfin, PgPool.invalidated, Nat.mod_eq_of_lt (hfits rfl)]
  refine ⟨le_refl _, le_refl _, ?_, ?_⟩
  · intro i conn hco hnum
    have hbeh := hw.conns i conn hco
    omega
  · intro i key conn discard sql start hp hnum
    have hbeh := hw.conns i conn (.inr (by rw [show w.party i = _ from hp]; rfl))
    omega

/-! ## Checkouts that begin later -/

variable (settings) in
theorem read_later {i : ι} (hw : SinceAll generation clock w)
    (hre : ∀ number, readGeneration (w.party i) = some number → generation ≤ number)
    {evs : List (ι × Action)} (hfits : Run.Along (step (advance settings)) Fits w evs) :
    SinceAll generation clock (Run.run (step (advance settings)) w evs) ∧
      ∀ number, readGeneration ((Run.run (step (advance settings)) w evs).party i) =
        some number → generation ≤ number := by
  induction evs generalizing w with
  | nil => exact ⟨hw, hre⟩
  | cons event evs ih =>
    refine ih (sinceAll_step hw event hfits.1) ?_ hfits.2
    obtain ⟨j, action⟩ := event
    refine step_induction (Q := fun w' : PoolWorld ι => ∀ number,
      readGeneration (w'.party i) = some number → generation ≤ number) hre ?_
    intro p' pool' hadv number hnum
    change readGeneration (update w.party j p' i) = _ at hnum
    by_cases hi : i = j
    · subst hi
      rw [update_self] at hnum
      rcases advance_readGeneration hadv hnum with hbefore | rfl
      · exact hre number hbefore
      · exact hw.number
    · rw [update_of_ne hi] at hnum
      exact hre number hnum

/-- **INVALIDATION IS COMPLETE**, in runs of fewer than 2^64 invalidations. A call invalidates
the caches; a checkout of `i` begins some time later. What it holds then, at whatever time, has
only statements whose preparation began after the invalidation. -/
theorem invalidation_complete (settings : PoolSettings) (now : Nat)
    (before between after : List (ι × Action)) (i j : ι)
    (hfew : (before ++ (j, .invalidate) :: between ++ after).countP (·.2.isInvalidate) < 2 ^ 64)
    (hinvalidates : (Run.run (step (advance settings)) (PoolWorld.initial settings now)
      before).party j = .finished)
    (hbegins : (Run.run (step (advance settings)) (PoolWorld.initial settings now)
      (before ++ (j, .invalidate) :: between)).party i = .finished)
    {key : DbPoolKey} {conn : PgConn} {discard : Bool} {preparing : Option (String × Nat)}
    (hholds : (Run.run (step (advance settings)) (PoolWorld.initial settings now)
      (before ++ (j, .invalidate) :: between ++ after)).party i =
        .holding key conn discard preparing) : ∀ e ∈ conn.statements.entries,
      (Run.run (step (advance settings)) (PoolWorld.initial settings now) before).shared.clock <
        e.statement.preparedAt := by
  intro e he
  rw [Run.run_append, Run.run_cons] at hbegins
  rw [Run.run_append, Run.run_append, Run.run_cons] at hholds
  have hfits : Run.Along (step (advance settings)) Fits (PoolWorld.initial settings now)
      (before ++ (j, .invalidate) :: between ++ after) :=
    fits_run (by simpa [PoolWorld.initial, PgPool.new] using hfew)
  rw [List.append_assoc, Run.along_append, List.cons_append] at hfits
  obtain ⟨hbefore, hinv, hrest⟩ := hfits
  rw [Run.along_append] at hrest
  have hbeh := behind_run settings now before hbefore
  generalize Run.run (step (advance settings)) (PoolWorld.initial settings now) before = w₀
    at hinvalidates hbegins hholds hbeh hinv hrest ⊢
  have hst : ∀ (w : PoolWorld ι) event,
      SinceAll (w₀.shared.generation + 1) (w₀.shared.clock + 1) w → Fits w event →
      SinceAll (w₀.shared.generation + 1) (w₀.shared.clock + 1) (step (advance settings) w event) :=
    fun w event hw hf => sinceAll_step hw event hf
  have hbet := Run.invariant hst (sinceAll_invalidate settings hbeh hinvalidates hinv) hrest.1
  have hre : ∀ number, readGeneration ((Run.run (step (advance settings))
      (step (advance settings) w₀ (j, .invalidate)) between).party i) = some number →
      w₀.shared.generation + 1 ≤ number := by
    intro number hnum
    rw [hbegins] at hnum
    cases hnum
  obtain ⟨haft, hlat⟩ := read_later settings hbet hre hrest.2
  refine haft.conns i conn (.inr ?_) ?_ e he
  · rw [hholds]
    rfl
  · refine hlat conn.generation ?_
    rw [hholds]
    rfl

theorem run_invalidations {j : ι} (hfin : w.party j = .finished)
    (hlt : w.shared.generation < 2 ^ 64) (n : Nat) :
    Run.run (step (advance settings)) w (List.replicate n (j, .invalidate)) =
      ⟨w.shared.invalidated n, w.party⟩ := by
  induction n with
  | zero =>
    rw [PgPool.invalidated, Nat.add_zero, Nat.mod_eq_of_lt hlt]
    rfl
  | succ n ih =>
    rw [List.replicate_succ', Run.run_append, ih, Run.run_cons, step_invalidate]
    · simp only [Run.run_nil, PgPool.invalidated, Nat.mod_add_mod, Nat.add_assoc]
    · exact hfin

end

def preparedAndReturned : List (Fin 1 × Action) :=
  let next : Fin 1 × Action := (lone, .next 0 fun _ => false)
  (lone, .get ⟨"host"⟩ 0 true) :: List.replicate 7 next ++
    [(lone, .connected 0), (lone, .statement "select 1"), (lone, .prepared), (lone, .drop)] ++
    List.replicate 4 next

def takenAgain : List (Fin 1 × Action) :=
  (lone, .get ⟨"host"⟩ 0 true) :: List.replicate 8 (lone, .next 0 fun _ => false) ++
    [(lone, .statement "select 1"), (lone, .prepared)]

def preparedAgain : PgConn :=
  ⟨1, ⟨256, 4, [⟨"select 1", ⟨2⟩, 4⟩]⟩, 0, 0, 1, .clean, ⟨"host"⟩⟩

theorem invalidation_complete_again : preparedAgain.statements.entries.length = 1 ∧
      ∀ e ∈ preparedAgain.statements.entries, 1 < e.statement.preparedAt :=
  ⟨rfl, invalidation_complete .default 0 preparedAndReturned [] takenAgain 0 0 (by decide) rfl rfl
    (show _ = Phase.holding ⟨"host"⟩ preparedAgain false none from rfl)⟩

def preparedOnce : PgConn :=
  ⟨1, ⟨256, 2, [⟨"select 1", ⟨0⟩, 2⟩]⟩, 0, 0, 0, .clean, ⟨"host"⟩⟩

/-- After 2^64 invalidations the counter stands where it stood, and the old statement is
handed out again. -/
theorem invalidations_wrap :
    let run := Run.run (step (advance .default)) (PoolWorld.initial .default 0)
    let before := preparedAndReturned ++ List.replicate (2 ^ 64 - 1) (lone, .invalidate)
    (run before).party lone = .finished ∧ ∃ conn,
      (run (before ++ (lone, .invalidate) :: takenAgain.take 9)).party lone =
        .holding ⟨"host"⟩ conn false none ∧
      ∃ e ∈ conn.statements.entries, e.statement.preparedAt < (run before).shared.clock := by
  intro run before
  have hone := @run_invalidations .default (Fin 1) _ (run preparedAndReturned) lone rfl (by decide)
  have hbefore : run before = _ := (Run.run_append ..).trans (hone _)
  have hafter : ∀ n tail, run (preparedAndReturned ++ List.replicate n (lone, .invalidate) ++
      (lone, .invalidate) :: tail) = Run.run (step (advance .default))
        ⟨(run preparedAndReturned).shared.invalidated (n + 1), (run preparedAndReturned).party⟩
        tail := by
    intro n tail
    rw [List.append_cons, List.append_assoc _ _ [_], ← List.replicate_succ', ← hone (n + 1)]
    exact (Run.run_append ..).trans (congrArg (Run.run _ · _) (Run.run_append ..))
  -- the generation is back where it was, and only the clock of the model tells the difference
  have hback : ∀ pool : PgPool, pool.generation = 0 →
      pool.invalidated (2 ^ 64) = { pool with clock := pool.clock + 2 ^ 64 } := by
    intro pool hgen
    rw [PgPool.invalidated, hgen, Nat.zero_add, Nat.mod_self]
  have htaken : ∀ clock, (Run.run (step (advance .default))
      ⟨{ (run preparedAndReturned).shared with clock := clock }, (run preparedAndReturned).party⟩
      (takenAgain.take 9)).party lone = .holding ⟨"host"⟩ preparedOnce false none := fun _ => rfl
  refine ⟨congrArg (World.party · lone) hbefore, preparedOnce, ?_, _, List.mem_cons_self, ?_⟩
  · rw [hafter, show 2 ^ 64 - 1 + 1 = 2 ^ 64 by norm_num, hback _ rfl]
    exact htaken _
  · rw [hbefore]
    exact Nat.lt_add_right _ (show 0 < (run preparedAndReturned).shared.clock by decide)

end Fenrir.Postgres
