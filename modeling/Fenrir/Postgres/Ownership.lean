import Fenrir.Postgres.Accounting
import Fenrir.Postgres.Context

/-! # Connections are not shared between keys

A connection is in the pool of one key: among its idle connections, or in the hands of
a call that uses that key (`Belongs`). It comes there when it is opened, and no step
moves it to another key (`Effect.belongs`), not even one that evicts it, which takes it
out for good. -/

namespace Fenrir.Postgres

open Parties Function

variable {pool pool' : PgPool} {h h' : Hands} {key : DbPoolKey} {conn conn' : PgConn}

/-! ## What one call sees -/

/-- Idle in the pool of the key, or in the hands of a call that uses the key. -/
def BelongsHere (pool : PgPool) (h : Hands) (key : DbPoolKey) (conn : PgConn) : Prop :=
  conn ∈ pool.idle key ∨ (h.pool = some key ∧ h.own = some conn)

/-- A new connection of the call. -/
def Fresh (pool pool' : PgPool) (h' : Hands) (key : DbPoolKey) (conn : PgConn) : Prop :=
  h'.pool = some key ∧ conn.id = pool.nextId ∧ conn.openedFor = key ∧ pool'.nextId = pool.nextId + 1

/-- **NO STEP MOVES A CONNECTION TO ANOTHER KEY.** -/
theorem Effect.belongs (heff : Effect pool h pool' h') (hhe : BelongsHere pool' h' key conn') :
    (∃ conn, BelongsHere pool h key conn ∧ SameConn conn conn') ∨
      Fresh pool pool' h' key conn' := by
  have hsta : BelongsHere pool h key conn' →
      ∃ conn, BelongsHere pool h key conn ∧ SameConn conn conn' :=
    fun hbef => ⟨conn', hbef, rfl, rfl⟩
  cases heff with
  | nothing hsame =>
    left
    rw [BelongsHere, hsame.idle] at hhe
    exact hsta hhe
  | change conn changed hsame hown hconn =>
    left
    rw [BelongsHere, hsame.idle] at hhe
    rcases hhe with hidl | ⟨hpo, hcha⟩
    · exact hsta (.inl hidl)
    · cases hcha
      exact ⟨conn, .inr ⟨hpo, hown⟩, hconn⟩
  | enter k hno =>
    left
    rw [BelongsHere, poolFor_idle] at hhe
    rcases hhe with hmem | ⟨_, hown⟩
    · exact hsta (.inl hmem)
    · cases hno.symm.trans hown
  | leave hno | releaseKey k hkey hno =>
    rcases hhe with hmem | ⟨hpo, _⟩
    · exact .inl (hsta (.inl hmem))
    · cases hpo
  | pop k conn hkey hla hno =>
    left
    have hidl : conn ∈ pool.idle k := List.mem_of_getLast? hla
    rcases hhe with hmem | ⟨hpo, hown⟩
    · rcases mem_setIdle hmem with ⟨rfl, hre⟩ | hre
      · exact hsta (.inl (List.mem_of_mem_dropLast hre))
      · exact hsta (.inl hre)
    · cases hown
      cases hkey.symm.trans hpo
      exact hsta (.inl hidl)
  | push k conn now hkey hown =>
    left
    rcases hhe with hmem | ⟨_, hno⟩
    · rcases mem_setIdle hmem with ⟨rfl, hpus⟩ | hre
      · rcases List.mem_append.mp hpus with hre | hla
        · exact hsta (.inl hre)
        · cases List.mem_singleton.mp hla
          exact ⟨conn, .inr ⟨hkey, hown⟩, rfl, rfl⟩
      · exact hsta (.inl hre)
    · cases hno
  | sweep k gone =>
    left
    rcases hhe with hmem | hown
    · rcases mem_setIdle hmem with ⟨rfl, hke⟩ | hre
      · exact hsta (.inl (List.mem_of_mem_filter hke))
      · exact hsta (.inl hre)
    · exact hsta (.inr hown)
  | evict k conn kept hke =>
    left
    rcases hhe with hmem | hown
    · rcases mem_setIdle hmem with ⟨rfl, hre⟩ | hre
      · exact hsta (.inl (hke.mem_iff.mp (List.mem_cons_of_mem _ hre)))
      · exact hsta (.inl hre)
    · exact hsta (.inr hown)
  | closeOwn conn hown | lose conn hown =>
    rcases hhe with hmem | ⟨_, hno⟩
    · exact .inl (hsta (.inl hmem))
    · cases hno
  | connect k conn hkey hno hid hopened =>
    rcases hhe with hmem | ⟨hpo, hown⟩
    · exact .inl (hsta (.inl hmem))
    · right
      cases hown
      cases hkey.symm.trans hpo
      exact ⟨hpo, hid, hopened, rfl⟩
  | _ => exact .inl (hsta hhe)

theorem Effect.nextId_le (heff : Effect pool h pool' h') : pool.nextId ≤ pool'.nextId := by
  cases heff with
  | nothing hsame | change conn conn' hsame => rw [hsame.nextId]
  | enter key =>
    rw [PgPool.poolFor]
    split_ifs <;> exact le_refl _
  | connect => exact Nat.le_succ _
  | _ => exact le_refl _

/-! ## All calls -/

section

variable {ι : Type} [DecidableEq ι] {settings : PoolSettings} {w w0 : PoolWorld ι}

/-- In the pool of the key: idle, or with one of the calls. -/
def Belongs (w : PoolWorld ι) (key : DbPoolKey) (conn : PgConn) : Prop :=
  ∃ i, BelongsHere w.shared (hands (w.party i)) key conn

/-- Where a connection of `w'` comes from: it was there, or it is the new one. -/
def Traced (w w' : PoolWorld ι) (opened key : DbPoolKey) (conn' : PgConn) : Prop :=
  (∃ conn, Belongs w key conn ∧ SameConn conn conn') ∨
    (key = opened ∧ conn'.id = w.shared.nextId ∧ conn'.openedFor = key ∧
      w'.shared.nextId = w.shared.nextId + 1)

variable (settings w) in
theorem belongs_step (event : ι × Action) :
    w.shared.nextId ≤ (step (advance settings) w event).shared.nextId ∧
    ∃ opened, ∀ key conn', Belongs (step (advance settings) w event) key conn' →
      Traced w (step (advance settings) w event) opened key conn' := by
  obtain ⟨i, action⟩ := event
  cases hadv : advance settings action (w.party i) w.shared with
  | none =>
    rw [step_none hadv]
    exact ⟨le_refl _, .host, fun key conn' hco => .inl ⟨conn', hco, rfl, rfl⟩⟩
  | some result =>
    obtain ⟨p', pool'⟩ := result
    have heff := advance_effect hadv
    rw [step_some hadv]
    refine ⟨heff.nextId_le, (hands p').pool.getD .host, ?_⟩
    rintro key conn' ⟨j, hco⟩
    have hste : BelongsHere pool' (hands p') key conn' →
        Traced w ⟨pool', update w.party i p'⟩ ((hands p').pool.getD .host) key
          conn' := by
      intro hhe
      rcases heff.belongs hhe with ⟨conn, hbef, hsa⟩ | ⟨hpo, hid, hope, hne⟩
      · exact .inl ⟨conn, ⟨i, hbef⟩, hsa⟩
      · refine .inr ⟨?_, hid, hope, hne⟩
        rw [hpo]
        rfl
    by_cases hj : j = i
    · subst hj
      change BelongsHere pool' (hands (update w.party j p' j)) key conn' at hco
      rw [update_self] at hco
      exact hste hco
    · change BelongsHere pool' (hands (update w.party i p' j)) key conn' at hco
      rw [update_of_ne hj] at hco
      rcases hco with hidle | hown
      · exact hste (.inl hidle)
      · exact .inl ⟨conn', ⟨j, .inr hown⟩, rfl, rfl⟩

/-- Every connection has its number and belongs to the key it was opened for. -/
def Keyed (w : PoolWorld ι) : Prop :=
  ∀ key conn, Belongs w key conn → conn.id < w.shared.nextId ∧ conn.openedFor = key

/-- Connections of both states with one number belong to one key. -/
def Follows (w0 w : PoolWorld ι) : Prop :=
  w0.shared.nextId ≤ w.shared.nextId ∧
    ∀ key₀ conn₀ key conn, Belongs w0 key₀ conn₀ → Belongs w key conn → conn.id = conn₀.id →
      key = key₀

theorem keyed_step (hw : Keyed w) (event : ι × Action) :
    Keyed (step (advance settings) w event) := by
  obtain ⟨hne, opened, hste⟩ := belongs_step settings w event
  intro key conn' hco'
  rcases hste key conn' hco' with ⟨conn, hco, hid, hope⟩ | ⟨_, hid, hope, hone⟩
  · obtain ⟨hbel, hkey⟩ := hw key conn hco
    exact ⟨by omega, hope.trans hkey⟩
  · exact ⟨by omega, hope⟩

theorem follows_step (hw0 : Keyed w0) (hw : Follows w0 w) (event : ι × Action) :
    Follows w0 (step (advance settings) w event) := by
  obtain ⟨hne, opened, hste⟩ := belongs_step settings w event
  refine ⟨hw.1.trans hne, ?_⟩
  intro key0 conn0 key conn' hco0 hco' hsa
  rcases hste key conn' hco' with ⟨conn, hco, hid, _⟩ | ⟨_, hid, _, _⟩
  · exact hw.2 key0 conn0 key conn hco0 hco (hid.symm.trans hsa)
  · -- a number that is given out now was not there before
    have hbel := (hw0 key0 conn0 hco0).1
    have hgro := hw.1
    omega

theorem unique_step (hw : Keyed w) (huni : Follows w w) (event : ι × Action) :
    Follows (step (advance settings) w event) (step (advance settings) w event) := by
  obtain ⟨hne, opened, hste⟩ := belongs_step settings w event
  refine ⟨le_refl _, ?_⟩
  intro key0 conn₀' key conn' hco₀' hco' hsa
  rcases hste key0 conn₀' hco₀' with ⟨conn0, hco0, hid0, _⟩ | ⟨hke0, hid0, _, _⟩ <;>
    rcases hste key conn' hco' with ⟨conn, hco, hid, _⟩ | ⟨hkey, hid, _, _⟩
  · exact huni.2 key0 conn0 key conn hco0 hco (by omega)
  · have hbel := (hw key0 conn0 hco0).1
    omega
  · have hbel := (hw key conn hco).1
    omega
  · rw [hkey, hke0]

omit [DecidableEq ι] in
theorem no_belongs_initial (now : Nat) (key : DbPoolKey) (conn : PgConn) :
    ¬ Belongs (PoolWorld.initial settings now : PoolWorld ι) key conn := by
  rintro ⟨i, hid | ⟨_, hown⟩⟩
  · cases hid
  · cases hown

variable (settings) in
theorem keyed_run (now : Nat) (evs : List (ι × Action)) :
    Keyed (Run.run (step (advance settings)) (PoolWorld.initial settings now) evs) ∧
      Follows (Run.run (step (advance settings)) (PoolWorld.initial settings now) evs)
        (Run.run (step (advance settings)) (PoolWorld.initial settings now) evs) := by
  have hst : ∀ (w : PoolWorld ι) event, (Keyed w ∧ Follows w w) →
      Keyed (step (advance settings) w event) ∧
        Follows (step (advance settings) w event) (step (advance settings) w event) :=
    fun w event hw => ⟨keyed_step hw.1 event, unique_step hw.1 hw.2 event⟩
  refine Run.always hst ⟨?_, le_refl _, ?_⟩ evs
  · exact fun key conn hco => absurd hco (no_belongs_initial now key conn)
  · exact fun key0 conn0 _ _ hco => absurd hco (no_belongs_initial now key0 conn0)

variable {i : ι}

omit [DecidableEq ι] in
theorem belongs_of_holding {discard : Bool} {preparing : Option (String × Nat)}
    (hpar : w.party i = .holding key conn discard preparing) : Belongs w key conn := by
  refine ⟨i, .inr ?_⟩
  rw [hpar]
  exact ⟨rfl, rfl⟩

/-- What `get` hands out for a key was opened for it, and is at no other time handed out for
another. -/
theorem handed_out_by_key (now : Nat) (earlier later : List (ι × Action)) {j : ι}
    {key1 key2 : DbPoolKey} {conn1 conn2 : PgConn} {discard1 discard2 : Bool}
    {preparing1 preparing2 : Option (String × Nat)}
    (h1 : (Run.run (step (advance settings)) (PoolWorld.initial settings now) earlier).party i =
      .holding key1 conn1 discard1 preparing1)
    (h2 : (Run.run (step (advance settings)) (PoolWorld.initial settings now)
      (earlier ++ later)).party j = .holding key2 conn2 discard2 preparing2) :
    conn2.openedFor = key2 ∧ (conn1.id = conn2.id → key1 = key2) := by
  obtain ⟨hke1, hun1⟩ := keyed_run settings now earlier
  obtain ⟨hke2, _⟩ := keyed_run settings now (earlier ++ later)
  refine ⟨(hke2 _ _ (belongs_of_holding h2)).2, fun hid => ?_⟩
  rw [Run.run_append] at h2
  have hst : ∀ (w : PoolWorld ι) event, Follows _ w → Follows _ (step (advance settings) w event) :=
    fun w event hw => follows_step hke1 hw event
  have hfol := Run.always hst hun1 later
  exact (hfol.2 _ _ _ _ (belongs_of_holding h1) (belongs_of_holding h2) hid.symm).symm

/-- **CONNECTIONS ARE NOT SHARED.** A connection is handed out by `get` for the key it was
opened for and no other, at whatever two times; two requests of the connector use one
key only if their claims name one service and one tenant; and none uses the host's. -/
theorem connections_not_shared (settings : PoolSettings) (now : Nat)
    (earlier later : List (ι × Action)) (analyzeStatement : String → StatementAnalysis) :
    (∀ i j key₁ key₂ conn₁ conn₂ discard₁ discard₂ preparing₁ preparing₂,
      (Run.run (step (advance settings)) (PoolWorld.initial settings now) earlier).party i =
        .holding key₁ conn₁ discard₁ preparing₁ →
      (Run.run (step (advance settings)) (PoolWorld.initial settings now)
        (earlier ++ later)).party j = .holding key₂ conn₂ discard₂ preparing₂ →
      conn₂.openedFor = key₂ ∧ (conn₁.id = conn₂.id → key₁ = key₂)) ∧
    (∀ statement₁ statement₂ claims₁ claims₂ ctx₁ ctx₂ m₁ m₂,
      claims₁.actor.identifier = moduleServiceId m₁ →
      claims₂.actor.identifier = moduleServiceId m₂ →
      connectorContext analyzeStatement statement₁ (.ok claims₁) = .ok ctx₁ →
      connectorContext analyzeStatement statement₂ (.ok claims₂) = .ok ctx₂ →
      ctx₁.pool = ctx₂.pool →
      claims₁.actor.identifier = claims₂.actor.identifier ∧ claims₁.tenantId = claims₂.tenantId) ∧
    (∀ statement validated ctx,
      connectorContext analyzeStatement statement validated = .ok ctx → ctx.pool ≠ .host) := by
  refine ⟨?_, ?_, ?_⟩
  · intro i j key₁ key₂ conn₁ conn₂ discard₁ discard₂ preparing₁ preparing₂ h₁ h₂
    exact handed_out_by_key now earlier later h₁ h₂
  · intro statement₁ statement₂ claims₁ claims₂ ctx₁ ctx₂ m₁ m₂ hm₁ hm₂ h₁ h₂ hpo
    obtain ⟨_, serviceId₁, _, hcl₁, hac₁, hpo₁⟩ := connectorContext_pool h₁
    obtain ⟨_, serviceId₂, _, hcl₂, hac₂, hpo₂⟩ := connectorContext_pool h₂
    cases hcl₁
    cases hcl₂
    rw [hac₁, DelegatedActor.identifier] at hm₁ ⊢
    rw [hac₂, DelegatedActor.identifier] at hm₂ ⊢
    have hke := hpo₁.symm.trans (hpo.trans hpo₂)
    refine DbPoolKey.service_injective ?_ ?_ hke
    · rw [hm₁]
      exact moduleServiceId_at m₁
    · rw [hm₂]
      exact moduleServiceId_at m₂
  · intro statement validated ctx h
    obtain ⟨claims, serviceId, _, _, _, hpo⟩ := connectorContext_pool h
    rw [hpo]
    exact DbPoolKey.service_ne_host _ _

end

def firstConn : PgConn := ⟨1, .new 256, 0, 0, 0, .clean, .host⟩

def sampleModule : Runtime.ModuleId := ⟨"m1", by decide +kernel⟩

def sampleClaims : DelegatedTokenClaims :=
  ⟨"id", .service (moduleServiceId sampleModule) .read, "tenant", [⟨"db:read"⟩], 0, 900⟩

/-- A connection that is taken again after its health check, and two requests with one
token. -/
theorem connections_not_shared_reused :
    firstConn.openedFor = .host ∧ sampleClaims.tenantId = "tenant" ∧
      (callContext (moduleServiceId sampleModule) "tenant" ⟨true, .none⟩).pool ≠ .host := by
  obtain ⟨hru, hke, hho⟩ := connections_not_shared .default 0 (passedCheck.take 9)
    (passedCheck.drop 9) fun _ => ⟨true, .none⟩
  refine ⟨?_, ?_, ?_⟩
  · exact (hru 0 0 .host .host firstConn firstConn false false none none rfl rfl).1
  · exact (hke "select 1" "select 2" sampleClaims sampleClaims _ _ sampleModule sampleModule
      rfl rfl rfl rfl rfl).2
  · exact hho "select 1" (.ok sampleClaims) _ rfl

end Fenrir.Postgres
