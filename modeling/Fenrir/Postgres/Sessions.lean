import Fenrir.Postgres.Adapter
import Fenrir.Postgres.Connections

/-! # Pooled sessions

An attempt leaves its session clean, or has its connection closed: `settle` sees to it. But
a future that is dropped while it waits drops its guard before `settle` was reached
(`dropped_before_reset`). -/

namespace Fenrir.Postgres

open Parties

variable {settings : PoolSettings} {pool pool' : PgPool} {p p' : Phase} {s s' : RunState}

/-! ## The pool's steps -/

def IdleClean (pool : PgPool) : Prop := ∀ key, ∀ conn ∈ pool.idle key, conn.session = .clean

/-- On the way through `get` or the guard's `drop`, with nothing left in a session that will
be returned. -/
def Walking : Phase → Prop
  | .holding _ _ _ _ => False
  | .examining _ _ conn | .pinging _ _ conn | .healthy _ _ conn => conn.session = .clean
  | .dropping _ conn discard => discard = true ∨ ∀ c ∈ conn, c.session = .clean
  | .returning _ conn discard => discard = true ∨ conn.session = .clean
  | _ => True

/-- On the way through the guard's `drop`. -/
def Departing : Phase → Prop
  | .dropping _ conn discard => discard = true ∨ ∀ c ∈ conn, c.session = .clean
  | .returning _ conn discard => discard = true ∨ conn.session = .clean
  | .releasing _ | .releasingTotal | .finished => True
  | _ => False

/-- `get` has returned a clean connection. -/
def Holding (p : Phase) : Prop :=
  ∃ key conn, p = .holding key conn false none ∧ conn.session = .clean

theorem tagged_session (conn : PgConn) (gen : Nat) : (conn.tagged gen).session = conn.session := by
  rw [PgConn.tagged]
  split_ifs <;> rfl

variable {action : Action} {attempt now : Nat} {call : Call} {resetSucceeds reused : Bool}
  {again : Option Call} {failure : Option Failure}

theorem Walking.idleClean (hwal : Walking p) (hid : IdleClean pool)
    (h : advance settings action p pool = some (p', pool')) : IdleClean pool' := by
  intro key conn' hco'
  rcases advance_idle h hco' with hbefore | ⟨conn, now, hp, rfl⟩
  · exact hid key conn' hbefore
  · subst hp
    exact hwal.resolve_left Bool.false_ne_true

theorem Walking.advance (hwal : Walking p) (hid : IdleClean pool)
    (h : Postgres.advance settings action p pool = some (p', pool')) : Walking p' ∨ Holding p' := by
  revert h
  fun_cases Postgres.advance settings action p pool
  case case3 now closed =>
    fun_cases advanceNext settings now closed pool p
    all_goals intro h
    all_goals cases h
    case case12 hlast => exact .inl (hid _ _ (List.mem_of_getLast? hlast))
    case case17 => exact .inr ⟨_, _, rfl, (tagged_session _ _).trans hwal⟩
    case case26 =>
      exact .inl (hwal.imp_right fun hcle => hcle _ rfl)
    all_goals first | exact .inl trivial | exact .inl hwal
  all_goals intro h
  all_goals cases h
  case case11 => exact .inr ⟨_, _, rfl, rfl⟩
  all_goals first
    | exact .inl trivial
    | exact .inl hwal
    | exact False.elim hwal
    | exact .inl (.inr fun _ h => by cases h)

theorem Departing.walking (hdep : Departing p) : Walking p := by
  cases p <;> first | exact hdep | trivial

theorem Departing.next {cl : Nat → Bool} (hdep : Departing p)
    (h : Postgres.advance settings (.next now cl) p pool = some (p', pool')) : Departing p' := by
  cases p with
  | dropping key conn discard =>
    cases conn with
    | none =>
      cases h
      trivial
    | some conn =>
      cases h
      exact hdep.imp_right fun hcle => hcle conn rfl
  | returning key conn discard =>
    rw [Postgres.advance, advanceNext] at h
    split_ifs at h <;> cases h <;> trivial
  | releasing | releasingTotal =>
    cases h
    trivial
  | finished => cases h
  | _ => exact False.elim hdep

theorem departing_cancel (h : advance settings .cancel p pool = some (p', pool')) :
    Departing p' := by
  cases p with
  | waitingKey | waitingTotal =>
    cases h
    trivial
  | pinging | connecting =>
    cases h
    exact .inr nofun
  | _ => cases h

/-! ## The runs -/

/-- What a run may have in its session, where it is. -/
def Fine (s : RunState) : Prop :=
  match s.run with
  | .idle | .again _ => s.phase = .finished
  | .getting _ _ => Walking s.phase
  | .leaving _ => Departing s.phase
  | .ready _ _ _ | .bound _ _ _ => Holding s.phase
  | .preparing _ _ _ =>
    ∃ key conn preparing, s.phase = .holding key conn false (some preparing) ∧ conn.session = .clean
  | .executing call _ _ =>
    ∃ key conn, s.phase = .holding key conn false none ∧
      leaves call.ctx.session .clean conn.session = true
  | .resetting _ succeeds =>
    ∃ key conn, s.phase = .holding key conn false none ∧ (succeeds = true → conn.session = .clean)

/-- A future is dropped only where nothing is left behind: while it waits for the pool, for
the answer to a statement that leaves nothing, or for a reset that succeeds. -/
def safeDrop (s : RunState) (action : RunAction) : Bool :=
  match action, s.run with
  | .dropped, .preparing _ _ _ => false
  | .dropped, .executing call _ _ => call.ctx.session = .none
  | .dropped, .resetting _ succeeds => succeeds
  | _, _ => true

theorem gotten_fine (hp : Walking p ∨ Holding p) : Fine ⟨p, gotten call attempt reused p⟩ := by
  rcases hp with hwalking | ⟨key, conn, rfl, hcle⟩
  · cases p <;> first | exact hwalking | exact False.elim hwalking | rfl
  · show Fine ⟨_, if call.prepared then _ else _⟩
    split_ifs <;> exact ⟨key, conn, rfl, hcle⟩

theorem left_fine (hp : Departing p) : Fine ⟨p, left again p⟩ := by
  cases p with
  | finished => cases again <;> rfl
  | _ => exact hp

theorem Walking.gets (hwal : Walking s.phase) (hid : IdleClean pool)
    (h : s.via settings action (gotten call attempt reused) pool = some (s', pool')) :
    Fine s' ∧ IdleClean pool' := by
  obtain ⟨p', hadv, rfl⟩ := via_spec h
  exact ⟨gotten_fine (hwal.advance hid hadv), hwal.idleClean hid hadv⟩

/-! ## The end of an attempt -/

/-- A guard that holds nothing, is to be closed, or has a clean connection. -/
def Droppable (p : Phase) : Prop :=
  ∃ key conn discard, p = .holding key conn discard none ∧ (discard = true ∨ conn.session = .clean)

theorem Droppable.drops (hdr : Droppable s.phase) (hid : IdleClean pool)
    (h : s.via settings .drop (left again) pool = some (s', pool')) :
    Fine s' ∧ IdleClean pool' := by
  obtain ⟨p', hadv, rfl⟩ := via_spec h
  obtain ⟨key, conn, discard, hp, hcle⟩ := hdr
  rw [hp] at hadv
  cases hadv
  refine ⟨left_fine (hcle.imp_right ?_), hid⟩
  rintro hco c ⟨⟩
  exact hco

/-- The statement has left what its classification allows. -/
def Left (effect : DbSessionEffect) (p : Phase) : Prop :=
  ∃ key conn, p = .holding key conn false none ∧ leaves effect .clean conn.session = true

theorem Holding.left {effect : DbSessionEffect} (hp : Holding p) : Left effect p := by
  obtain ⟨key, conn, rfl, hcle⟩ := hp
  refine ⟨key, conn, rfl, ?_⟩
  rw [hcle]
  cases effect <;> rfl

theorem discardAndDrop_fine {key : DbPoolKey} {conn : PgConn}
    (hp : s.phase = .holding key conn false none) (hid : IdleClean pool)
    (h : discardAndDrop settings again s pool = some (s', pool')) : Fine s' ∧ IdleClean pool' := by
  obtain ⟨⟨s1, pool1⟩, hdiscard, hdrop⟩ := Option.bind_eq_some_iff.mp h
  obtain ⟨p', hadv, rfl⟩ := via_spec hdiscard
  rw [hp] at hadv
  cases hadv
  exact Droppable.drops ⟨key, conn, true, rfl, .inl rfl⟩ hid hdrop

/-- **SETTLING LEAVES A CLEAN SESSION.** -/
theorem settle_fine (hle : Left call.ctx.session s.phase) (hid : IdleClean pool)
    (h : settle settings call again failure resetSucceeds s pool = some (s', pool')) :
    Fine s' ∧ IdleClean pool' := by
  obtain ⟨key, conn, hp, hses⟩ := hle
  revert h
  fun_cases settle settings call again failure resetSucceeds s pool
  case case1 => exact discardAndDrop_fine hp hid
  case case2 heffect _ =>
    rw [heffect] at hses
    exact Droppable.drops ⟨key, conn, false, hp, .inr (of_decide_eq_true hses)⟩ hid
  case case3 => exact discardAndDrop_fine hp hid
  case case4 heffect _ conn' _ _ hp' _ =>
    intro h
    obtain ⟨p', hadv, rfl⟩ := via_spec h
    cases hp.symm.trans hp'
    rw [hp] at hadv
    cases hadv
    refine ⟨⟨key, _, rfl, ?_⟩, hid⟩
    rintro rfl
    rw [heffect] at hses
    show conn.session.reset = .clean
    rw [Session.reset, of_decide_eq_true hses]
  case case5 => exact fun h => by cases h

theorem settled_fine (hle : Left call.ctx.session s.phase) (hid : IdleClean pool)
    (h : settled settings call attempt reused failure resetSucceeds s pool = some (s', pool')) :
    Fine s' ∧ IdleClean pool' :=
  settle_fine hle hid h

/-! ## The steps of a run -/

theorem get_fine {contended : Bool} (hp : s.phase = .finished) (hid : IdleClean pool)
    (h : s.via settings (.get call.ctx.pool now contended) (fun _ => .getting call attempt) pool =
      some (s', pool')) : Fine s' ∧ IdleClean pool' := by
  obtain ⟨p', hadv, rfl⟩ := via_spec h
  rw [hp, advance] at hadv
  split_ifs at hadv <;> cases hadv <;> exact ⟨trivial, hid⟩

theorem stated_fine (hp : Holding s.phase) (hid : IdleClean pool)
    (h : s.via settings (.statement call.sql) (stated call attempt reused) pool =
      some (s', pool')) : Fine s' ∧ IdleClean pool' := by
  obtain ⟨p', hadv, rfl⟩ := via_spec h
  obtain ⟨key, conn, hp, hcle⟩ := hp
  rw [hp, advance] at hadv
  split_ifs at hadv <;> cases hadv
  · exact ⟨⟨key, _, rfl, hcle⟩, hid⟩
  · exact ⟨⟨key, _, _, rfl, hcle⟩, hid⟩

theorem prepared_fine (hfi : Fine ⟨p, .preparing call attempt reused⟩) (hid : IdleClean pool)
    (h : RunState.via settings .prepared (fun _ => .bound call attempt reused)
      ⟨p, .preparing call attempt reused⟩ pool = some (s', pool')) : Fine s' ∧ IdleClean pool' := by
  obtain ⟨p', hadv, rfl⟩ := via_spec h
  obtain ⟨key, conn, preparing, rfl, hcle⟩ := hfi
  cases hadv
  exact ⟨⟨key, _, rfl, hcle⟩, hid⟩

theorem prepareFails_fine {failure : Failure} (hfi : Fine ⟨p, .preparing call attempt reused⟩)
    (hid : IdleClean pool) (h : advanceRun settings (.prepareFails failure resetSucceeds)
      ⟨p, .preparing call attempt reused⟩ pool = some (s', pool')) : Fine s' ∧ IdleClean pool' := by
  obtain ⟨⟨s1, pool1⟩, hfails, hsettle⟩ := Option.bind_eq_some_iff.mp h
  obtain ⟨p', hadv, rfl⟩ := via_spec hfails
  obtain ⟨key, conn, preparing, rfl, hcle⟩ := hfi
  cases hadv
  exact settled_fine (Holding.left ⟨key, conn, rfl, hcle⟩) hid hsettle

theorem send_fine {after : Session} (hp : Holding s.phase) (hid : IdleClean pool)
    (h : send settings call attempt reused after s pool = some (s', pool')) :
    Fine s' ∧ IdleClean pool' := by
  obtain ⟨key, conn, hp, hcle⟩ := hp
  rw [send, hp] at h
  obtain ⟨hlea, h⟩ := Option.ite_none_right_eq_some.mp h
  obtain ⟨p', hadv, rfl⟩ := via_spec h
  rw [hp] at hadv
  cases hadv
  rw [hcle] at hlea
  exact ⟨⟨key, _, rfl, hlea⟩, hid⟩

theorem answer_fine {response : Response} (hle : Left call.ctx.session s.phase)
    (hid : IdleClean pool)
    (h : answer settings call attempt reused response resetSucceeds s pool = some (s', pool')) :
    Fine s' ∧ IdleClean pool' := by
  revert h
  fun_cases answer settings call attempt reused response resetSucceeds s pool
  case case1 =>
    intro h
    obtain ⟨⟨s1, pool1⟩, hforget, hsettle⟩ := Option.bind_eq_some_iff.mp h
    obtain ⟨p', hadv, rfl⟩ := via_spec hforget
    obtain ⟨key, conn, hp, hses⟩ := hle
    rw [hp] at hadv
    cases hadv
    refine settled_fine ?_ hid hsettle
    exact ⟨key, _, rfl, hses⟩
  all_goals exact fun h => settled_fine hle hid h

/-- **EVERY STEP OF A RUN.** -/
theorem fine_step {action : RunAction} (hsa : safeDrop s action = true) (hfi : Fine s)
    (hid : IdleClean pool) (h : advanceRun settings action s pool = some (s', pool')) :
    Fine s' ∧ IdleClean pool' := by
  obtain ⟨phase, run⟩ := s
  cases run with
  | idle | again call =>
    cases action <;> first | exact get_fine hfi hid h | cases h
  | getting call attempt =>
    cases action with
    | next | fails | pinged | connected => exact Walking.gets hfi hid h
    | dropped =>
      obtain ⟨p', hadv, rfl⟩ := via_spec h
      exact ⟨left_fine (departing_cancel hadv), Walking.idleClean hfi hid hadv⟩
    | _ => cases h
  | leaving again =>
    cases action with
    | next =>
      obtain ⟨p', hadv, rfl⟩ := via_spec h
      exact ⟨left_fine (Departing.next hfi hadv),
        Walking.idleClean (Departing.walking hfi) hid hadv⟩
    | _ => cases h
  | ready call attempt reused =>
    cases action with
    | statement => exact stated_fine hfi hid h
    | _ => cases h
  | preparing call attempt reused =>
    cases action with
    | prepared => exact prepared_fine hfi hid h
    | prepareFails => exact prepareFails_fine hfi hid h
    | dropped => cases hsa
    | _ => cases h
  | bound call attempt reused =>
    cases action with
    | bindFails =>
      obtain ⟨_, h⟩ := Option.ite_none_right_eq_some.mp h
      exact settled_fine (Holding.left hfi) hid h
    | send => exact send_fine hfi hid h
    | _ => cases h
  | executing call attempt reused =>
    cases action with
    | answered => exact answer_fine hfi hid h
    | dropped =>
      have hle : Left call.ctx.session phase := hfi
      obtain ⟨key, conn, rfl, hses⟩ := hle
      have hno : call.ctx.session = .none := of_decide_eq_true hsa
      rw [hno] at hses
      exact Droppable.drops ⟨key, conn, false, rfl, .inr (of_decide_eq_true hses)⟩ hid h
    | _ => cases h
  | resetting again succeeds =>
    obtain ⟨key, conn, hp, hcle⟩ := hfi
    cases action with
    | resetAnswered =>
      cases succeeds with
      | true => exact Droppable.drops ⟨key, conn, false, hp, .inr (hcle rfl)⟩ hid h
      | false => exact discardAndDrop_fine hp hid h
    | dropped =>
      have hsuc : succeeds = true := hsa
      exact Droppable.drops ⟨key, conn, false, hp, .inr (hcle hsuc)⟩ hid h
    | _ => cases h

/-! ## All runs -/

section

variable {ι : Type} [DecidableEq ι]

/-- **POOLED SESSIONS ARE CLEAN.** In every run in which futures are dropped only where that
leaves nothing behind, no idle connection has anything left in its session. -/
theorem pooled_sessions_clean (settings : PoolSettings) (now : Nat) (events : List (ι × RunAction))
    (hsafe : Run.Along (step (advanceRun settings))
      (fun w event => safeDrop (w.party event.1) event.2 = true)
      (RunWorld.initial settings now) events) :
    ∀ key, ∀ conn ∈ (Run.run (step (advanceRun settings)) (RunWorld.initial settings now)
      events).shared.idle key, conn.session = .clean := by
  have hst : ∀ (w : RunWorld ι) event, ((∀ i, Fine (w.party i)) ∧ IdleClean w.shared) →
      safeDrop (w.party event.1) event.2 = true →
      (∀ i, Fine ((step (advanceRun settings) w event).party i)) ∧
        IdleClean (step (advanceRun settings) w event).shared := by
    rintro w ⟨i, action⟩ ⟨hfi, hid⟩ hsafe
    constructor
    · refine forall_party (I := fun _ s => Fine s) ?_ (fun _ _ _ _ _ hbef => hbef) hfi
      exact fun s' pool' hadv hbef => (fine_step hsafe hbef hid hadv).1
    · refine step_induction (Q := fun w' : RunWorld ι => IdleClean w'.shared) hid ?_
      exact fun s' pool' hadv => (fine_step hsafe (hfi i) hid hadv).2
  have hini : (∀ i, Fine ((RunWorld.initial settings now : RunWorld ι).party i)) ∧
      IdleClean (RunWorld.initial settings now : RunWorld ι).shared :=
    ⟨fun _ => rfl, nofun⟩
  exact (Run.invariant hst hini hsafe).2

end

def settingCall : Call :=
  ⟨⟨.service "module:m1" "t", .readWrite, .resettable⟩, "SET search_path TO m1", false⟩

def queryCall : Call := ⟨⟨.service "module:m1" "t", .readWrite, .none⟩, "SELECT $1", true⟩

def untilConnected (call : Call) : List (Fin 1 × RunAction) :=
  (lone, .start call 0 true) :: List.replicate 7 (lone, .next 0 fun _ => false) ++
    [(lone, .connected 0)]

def guardDropped : List (Fin 1 × RunAction) := List.replicate 4 (lone, .next 0 fun _ => false)

def settingReset : List (Fin 1 × RunAction) :=
  untilConnected settingCall ++ [(lone, .send { Session.clean with settings := true }),
      (lone, .answered (.answered ⟨none, none, none⟩) true), (lone, .resetAnswered)] ++ guardDropped

theorem setting_reset_clean : ((Run.run (step (advanceRun .default)) (RunWorld.initial .default 0)
      settingReset).shared.idle settingCall.ctx.pool).length = 1 ∧
    ∀ conn ∈ (Run.run (step (advanceRun .default)) (RunWorld.initial .default 0)
      settingReset).shared.idle settingCall.ctx.pool, conn.session = .clean :=
  ⟨by decide +kernel, pooled_sessions_clean .default 0 settingReset (by decide +kernel) _⟩

def settingDropped : List (Fin 1 × RunAction) :=
  untilConnected settingCall ++
    [(lone, .send { Session.clean with settings := true }), (lone, .dropped)] ++ guardDropped

def queryDropped : List (Fin 1 × RunAction) :=
  untilConnected queryCall ++ [(lone, .statement), (lone, .dropped)] ++ guardDropped

/-- The setting is left on an idle connection, and so is a statement nobody knows of. -/
theorem dropped_before_reset : ((Run.run (step (advanceRun .default)) (RunWorld.initial .default 0)
      settingDropped).shared.idle settingCall.ctx.pool).map (·.session) =
        [{ Session.clean with settings := true }] ∧
    ((Run.run (step (advanceRun .default)) (RunWorld.initial .default 0)
      queryDropped).shared.idle queryCall.ctx.pool).map (·.session) =
        [{ Session.clean with statements := true }] := by
  refine ⟨by decide +kernel, by decide +kernel⟩

end Fenrir.Postgres
