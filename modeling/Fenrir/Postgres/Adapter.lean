import Fenrir.Postgres.Context

/-! # Statements on the pool

`infra/db/adapters/postgres/adapter.rs`: `run` gets a connection, runs one statement or one
text on it, leaves the session clean for the next caller (`settle`) and, if the attempt
failed in a way that is safe to repeat, does it once more.

A run is a machine over the pool's (`RunState.via`). What the server answers comes with the
step, and the state in which a statement leaves its session has to be one that its
classification allows (`leaves`). -/

namespace Fenrir.Postgres

/-! ## Failures -/

/-- `tokio_postgres::Error`: the SQLSTATE and the message of a server's error, and the text
of any error. -/
structure PgError where
  code : Option String
  (message text : String)

inductive Failure where
  | stalePlan (err : String)
  | connection (err : String)
  | statement (err : String)

def isStalePlan (err : PgError) : Bool :=
  match err.code with
  | none => false
  | some code =>
    (code == "0A000" &&
      decide ("cached plan must not change result type".toList.IsInfix err.message.toList))
      || code == "26000"

def endsTheSession (code : String) : Bool :=
  "08".toList.isPrefixOf code.toList || "57P".toList.isPrefixOf code.toList

def classifyPgError (err : PgError) : Failure :=
  if isStalePlan err then .stalePlan err.text
  else
    match err.code with
    | some code => if !endsTheSession code then .statement err.text else .connection err.text
    | none => .connection err.text

/-- The errors of the three messages of a read-only statement; a read-write one has the
middle one only. -/
structure Answers where
  (begin result commit : Option PgError)

inductive Response where
  | answered (answers : Answers)
  | timeout

def readOnly (answers : Answers) : Option Failure :=
  match answers.begin with
  | some err => some (.connection err.text)
  | none =>
    match answers.result with
    | some err => some (classifyPgError err)
    | none => answers.commit.map fun err => .connection err.text

def attemptFailure (access : DbAccess) : Response → Option Failure
  | .timeout => some (.connection "query timeout")
  | .answered answers =>
    match access with
    | .readWrite => answers.result.map classifyPgError
    | .readOnly => readOnly answers

/-- Whether `run` tries again. -/
def retries (attempt : Nat) (reused : Bool) (access : DbAccess) : Failure → Bool
  | .stalePlan _ => attempt == 1
  | .connection _ => attempt == 1 && (reused && access == .readOnly)
  | .statement _ => false

/-! ## Sessions -/

/-- The states a statement may leave a session in, by its classification. -/
def leaves (effect : DbSessionEffect) (before after : Session) : Bool :=
  match effect with
  | .none => after = before
  | .resettable => after.statements = before.statements
  | .unrecoverable => true

/-- `SESSION_RESET`: everything but the prepared statements. -/
def Session.reset (session : Session) : Session :=
  { Session.clean with statements := session.statements }

/-! ## Runs -/

/-- One call of `run`: its text, and whether it has parameters. -/
structure Call where
  ctx : DbCallContext
  sql : String
  prepared : Bool

inductive RunPhase where
  | idle
  /-- It waits for the pool. -/
  | getting (call : Call) (attempt : Nat)
  /-- It has a connection, and is to get its statement. -/
  | ready (call : Call) (attempt : Nat) (reused : Bool)
  /-- It waits for the preparation. -/
  | preparing (call : Call) (attempt : Nat) (reused : Bool)
  | bound (call : Call) (attempt : Nat) (reused : Bool)
  /-- The statement is sent. -/
  | executing (call : Call) (attempt : Nat) (reused : Bool)
  /-- `SESSION_RESET` is sent, and will succeed or not. -/
  | resetting (again : Option Call) (succeeds : Bool)
  /-- The guard is dropped. -/
  | leaving (again : Option Call)
  /-- The second attempt begins. -/
  | again (call : Call)

structure RunState where
  phase : Phase
  run : RunPhase

inductive RunAction where
  | start (call : Call) (now : Nat) (contended : Bool)
  | again (now : Nat) (contended : Bool)
  /-- A step of the pool, while the run waits for a connection or returns one. -/
  | next (now : Nat) (closed : Nat → Bool)
  | fails | pinged
  | connected (now : Nat)
  | statement | prepared
  | prepareFails (failure : Failure) (resetSucceeds : Bool)
  | bindFails (err : String) (resetSucceeds : Bool)
  | send (after : Session)
  | answered (response : Response) (resetSucceeds : Bool)
  | resetAnswered
  /-- The future is dropped where it waits. -/
  | dropped

namespace RunState

/-- A step of the pool, and where the run is then. -/
def via (settings : PoolSettings) (action : Action) (run : Phase → RunPhase) (s : RunState)
    (pool : PgPool) : Option (RunState × PgPool) :=
  (advance settings action s.phase pool).map fun r => (⟨r.1, run r.1⟩, r.2)

end RunState

section

variable (settings : PoolSettings) (call : Call) (again : Option Call) (attempt : Nat)
  (reused : Bool)

/-- While it waits for the pool: `get` may return a connection, or fail. -/
def gotten : Phase → RunPhase
  | .holding _ _ _ _ =>
    if call.prepared then .ready call attempt reused else .bound call attempt reused
  | .finished => .idle
  | _ => .getting call attempt

/-- A statement that is cached needs no preparation. -/
def stated : Phase → RunPhase
  | .holding _ _ _ none => .bound call attempt reused
  | _ => .preparing call attempt reused

/-- While the guard is dropped. -/
def left : Phase → RunPhase
  | .finished =>
    match again with
    | none => .idle
    | some call => .again call
  | _ => .leaving again

/-- The guard is marked and dropped, which closes its connection. -/
def discardAndDrop (s : RunState) (pool : PgPool) : Option (RunState × PgPool) := do
  let (s, pool) ← s.via settings .discard (fun _ => .leaving again) pool
  s.via settings .drop (left again) pool

/-- `settle`, and the end of the attempt. -/
def settle (failure : Option Failure)
    (resetSucceeds : Bool) (s : RunState) (pool : PgPool) : Option (RunState × PgPool) :=
  match failure with
  | some (.connection _) => discardAndDrop settings again s pool
  | _ =>
    match call.ctx.session with
    | .none => s.via settings .drop (left again) pool
    | .unrecoverable => discardAndDrop settings again s pool
    | .resettable =>
      match s.phase with
      | .holding _ conn _ _ =>
        s.via settings (.use (if resetSucceeds then conn.session.reset else conn.session))
          (fun _ => .resetting again resetSucceeds) pool
      | _ => none

def settled (failure : Option Failure) (resetSucceeds : Bool) (s : RunState) (pool : PgPool) :
    Option (RunState × PgPool) :=
  let again := match failure with
    | some failure => if retries attempt reused call.ctx.access failure then some call else none
    | none => none
  settle settings call again failure resetSucceeds s pool

/-- The statement is sent, and leaves the session as its classification allows. -/
def send (after : Session) (s : RunState) (pool : PgPool) : Option (RunState × PgPool) :=
  match s.phase with
  | .holding _ conn _ _ =>
    if leaves call.ctx.session conn.session after then
      s.via settings (.use after) (fun _ => .executing call attempt reused) pool
    else none
  | _ => none

/-- The server answers, or does not in time. A stale statement is forgotten. -/
def answer (response : Response) (resetSucceeds : Bool) (s : RunState) (pool : PgPool) :
    Option (RunState × PgPool) :=
  match attemptFailure call.ctx.access response with
  | some (.stalePlan err) =>
    if call.prepared then do
      let (s, pool) ← s.via settings (.forget call.sql) (fun _ => s.run) pool
      settled settings call attempt reused (some (.stalePlan err)) resetSucceeds s pool
    else settled settings call attempt reused (some (.stalePlan err)) resetSucceeds s pool
  | failure => settled settings call attempt reused failure resetSucceeds s pool

def advanceRun (action : RunAction) (s : RunState) (pool : PgPool) : Option (RunState × PgPool) :=
  match action, s.run with
  | .start call now contended, .idle =>
    s.via settings (.get call.ctx.pool now contended) (fun _ => .getting call 1) pool
  | .again now contended, .again call =>
    s.via settings (.get call.ctx.pool now contended) (fun _ => .getting call 2) pool
  | .next now closed, .getting call attempt =>
    s.via settings (.next now closed) (gotten call attempt true) pool
  | .fails, .getting call attempt => s.via settings .fails (gotten call attempt true) pool
  | .pinged, .getting call attempt => s.via settings .pinged (gotten call attempt true) pool
  | .connected now, .getting call attempt =>
    s.via settings (.connected now) (gotten call attempt false) pool
  | .next now closed, .leaving again => s.via settings (.next now closed) (left again) pool
  | .statement, .ready call attempt reused =>
    s.via settings (.statement call.sql) (stated call attempt reused) pool
  | .prepared, .preparing call attempt reused =>
    s.via settings .prepared (fun _ => .bound call attempt reused) pool
  | .prepareFails failure resetSucceeds, .preparing call attempt reused => do
      let (s, pool) ← s.via settings .fails (fun _ => .bound call attempt reused) pool
      settled settings call attempt reused (some failure) resetSucceeds s pool
  | .bindFails err resetSucceeds, .bound call attempt reused =>
    if call.prepared then
      settled settings call attempt reused (some (.statement err)) resetSucceeds s pool
    else none
  | .send after, .bound call attempt reused => send settings call attempt reused after s pool
  | .answered response resetSucceeds, .executing call attempt reused =>
    answer settings call attempt reused response resetSucceeds s pool
  | .resetAnswered, .resetting again succeeds =>
    if succeeds then s.via settings .drop (left again) pool
    else discardAndDrop settings again s pool
  -- dropping the future drops its guard
  | .dropped, .getting _ _ => s.via settings .cancel (left none) pool
  | .dropped, .preparing _ _ _ | .dropped, .executing _ _ _ | .dropped, .resetting _ _ =>
    s.via settings .drop (left none) pool
  | _, _ => none

abbrev RunWorld (ι : Type) : Type := Parties.World ι PgPool RunState

def RunWorld.initial {ι : Type} (settings : PoolSettings) (now : Nat) : RunWorld ι :=
  ⟨.new settings now, fun _ => ⟨.finished, .idle⟩⟩

end

theorem via_spec {settings : PoolSettings} {pool pool' : PgPool} {s s' : RunState}
    {action : Action} {run : Phase → RunPhase}
    (h : s.via settings action run pool = some (s', pool')) :
    ∃ p', advance settings action s.phase pool = some (p', pool') ∧ s' = ⟨p', run p'⟩ := by
  obtain ⟨⟨p', pool''⟩, hadvance, heq⟩ := Option.map_eq_some_iff.mp h
  cases heq
  exact ⟨p', hadvance, rfl⟩

end Fenrir.Postgres
