import Fenrir.Lib.Parties

/-! # The Postgres connection pool

`infra/db/adapters/postgres/pool.rs`: connections by key. A `get` takes a permit of its key
and one of all keys, then an idle connection that is healthy, or makes room and opens a new
one; dropping the guard puts the connection back.

One step here is what a call does between two points at which another may come in between.
Clock readings, whether a connection was closed by the server and how a wait ends come with
the step. -/

namespace Fenrir.Postgres

structure DbPoolKey where
  text : String
  deriving DecidableEq

/-- The limits of `PoolSettings`, times in milliseconds. -/
structure PoolSettings where
  (maxPerPool maxTotal maxLifetime idleTimeout healthCheckAfter sweepInterval statementCache : Nat)

def PoolSettings.default : PoolSettings where
  maxPerPool := 8
  maxTotal := 48
  maxLifetime := 30 * 60 * 1000
  idleTimeout := 5 * 60 * 1000
  healthCheckAfter := 30 * 1000
  sweepInterval := 30 * 1000
  statementCache := 256

/-! ## Statement caches -/

/-- A prepared statement, and when its preparation began (`PgPool.clock`). -/
structure Statement where
  preparedAt : Nat

structure CachedStatement where
  sql : String
  statement : Statement
  used : Nat

structure StatementCache where
  (capacity tick : Nat)
  entries : List CachedStatement

namespace StatementCache

section

variable (self : StatementCache) (sql : String)

def new (capacity : Nat) : StatementCache := ⟨max capacity 1, 0, []⟩

def contains : Bool := self.entries.any (·.sql = sql)

/-- `StatementCache::get`: an entry that is found counts as used. -/
def touch : StatementCache :=
  { self with
    tick := self.tick + 1
    entries := self.entries.map fun e =>
      if e.sql = sql then { e with used := self.tick + 1 } else e }

def oldest : Option CachedStatement :=
  self.entries.foldl
    (fun best e =>
      match best with
      | none => some e
      | some b => if e.used < b.used then some e else some b) none

def remove : StatementCache :=
  { self with entries := self.entries.filter (·.sql ≠ sql) }

def insert (statement : Statement) : StatementCache :=
  let full := self.capacity ≤ self.entries.length ∧ self.contains sql = false
  let room :=
    if full then
      match self.oldest with
      | none => self
      | some e => self.remove e.sql
    else self
  { room with
    tick := self.tick + 1
    entries := (room.remove sql).entries ++ [⟨sql, statement, self.tick + 1⟩] }

def clear : StatementCache := { self with entries := [] }

end

end StatementCache

/-! ## Connections -/

/-- What a session has been left with. -/
structure Session where
  (settings transaction temporary : Bool)
  /-- Named statements that are not in the connection's cache. -/
  statements : Bool
  deriving DecidableEq

def Session.clean : Session := ⟨false, false, false, false⟩

/-- `PgConn`, with the state of its session and the key it was opened for. -/
structure PgConn where
  id : Nat
  statements : StatementCache
  (created lastUsed generation : Nat)
  session : Session
  openedFor : DbPoolKey

/-- A connection past its lifetime or its idle limit, or closed by the server. -/
def expired (settings : PoolSettings) (now : Nat) (closed : Nat → Bool) (conn : PgConn) : Bool :=
  closed conn.id || settings.maxLifetime < now - conn.created
    || settings.idleTimeout < now - conn.lastUsed

/-- The generation check of `get`. -/
def PgConn.tagged (conn : PgConn) (generation : Nat) : PgConn :=
  if conn.generation ≠ generation then
    { conn with statements := conn.statements.clear, generation }
  else conn

def swapRemove {α : Type} (xs : List α) (index : Nat) : List α :=
  match xs.getLast? with
  | none => []
  | some last => (xs.set index last).dropLast

/-! ## The pool -/

/-- `PgPool`: the semaphores by what is left of them. The two counters are integers, and
never below zero. `clock` counts preparations and invalidations, `lost` the connections
that were dropped without being counted; no function reads these two. -/
structure PgPool where
  pools : List DbPoolKey
  idle : DbPoolKey → List PgConn
  inUse : DbPoolKey → Int
  keyPermits : DbPoolKey → Nat
  totalPermits : Nat
  openTotal : Int
  (nextId generation lastSweep clock lost : Nat)

def PgPool.new (settings : PoolSettings) (now : Nat) : PgPool where
  pools := []
  idle _ := []
  inUse _ := 0
  keyPermits _ := max settings.maxPerPool 1
  totalPermits := max settings.maxTotal 1
  openTotal := 0
  nextId := 1
  generation := 0
  lastSweep := now
  clock := 0
  lost := 0

namespace PgPool

section

variable (pool : PgPool) (key : DbPoolKey)

def setIdle (conns : List PgConn) : PgPool :=
  { pool with idle := Function.update pool.idle key conns }

def close : PgPool := { pool with openTotal := pool.openTotal - 1 }

def poolFor : PgPool :=
  if key ∈ pool.pools then pool else { pool with pools := pool.pools ++ [key] }

def takeKeyPermit : PgPool :=
  { pool with keyPermits := Function.update pool.keyPermits key (pool.keyPermits key - 1) }

def releaseKeyPermit : PgPool :=
  { pool with keyPermits := Function.update pool.keyPermits key (pool.keyPermits key + 1) }

def enterUse : PgPool :=
  { pool with inUse := Function.update pool.inUse key (pool.inUse key + 1) }

def leaveUse : PgPool :=
  { pool with inUse := Function.update pool.inUse key (pool.inUse key - 1) }

end

end PgPool

/-! ## Calls -/

/-- How far a call is, from the start of `get` to the end of the guard's `drop`. -/
inductive Phase where
  | finished
  /-- A sweep is due; the pools are listed next. -/
  | sweepListing (key : DbPoolKey)
  /-- The pools to sweep, and the connections of the last one that are to be closed. -/
  | sweeping (key : DbPoolKey) (rest : List DbPoolKey) (expired : List PgConn)
  | entering (key : DbPoolKey)
  | waitingKey (key : DbPoolKey)
  | waitingTotal (key : DbPoolKey)
  | granted (key : DbPoolKey)
  /-- The guard is there, without a connection. -/
  | guarded (key : DbPoolKey)
  | looping (key : DbPoolKey) (generation : Nat)
  | examining (key : DbPoolKey) (generation : Nat) (conn : PgConn)
  | pinging (key : DbPoolKey) (generation : Nat) (conn : PgConn)
  | healthy (key : DbPoolKey) (generation : Nat) (conn : PgConn)
  | makingRoom (key : DbPoolKey) (generation : Nat)
  | roomListing (key : DbPoolKey) (generation : Nat)
  | scanning (key : DbPoolKey) (generation : Nat) (rest : List DbPoolKey)
      (oldest : Option (DbPoolKey × Nat))
  /-- A connection that was evicted and is to be closed. -/
  | evicting (key : DbPoolKey) (generation : Nat) (conn : PgConn)
  | connecting (key : DbPoolKey) (generation : Nat)
  /-- `get` has returned. A preparation under way has its text and its start. -/
  | holding (key : DbPoolKey) (conn : PgConn) (discard : Bool) (preparing : Option (String × Nat))
  /-- The guard is being dropped. -/
  | dropping (key : DbPoolKey) (conn : Option PgConn) (discard : Bool)
  | returning (key : DbPoolKey) (conn : PgConn) (discard : Bool)
  | releasing (key : DbPoolKey)
  | releasingTotal

inductive Action where
  /-- `get` is called; the lock of the sweep may be taken. -/
  | get (key : DbPoolKey) (now : Nat) (contended : Bool)
  /-- The next piece of code, with the clock and the connections that are closed. -/
  | next (now : Nat) (closed : Nat → Bool)
  /-- A limit passes while the call waits, or what it waits for fails. -/
  | fails | pinged
  | connected (now : Nat)
  /-- The future is dropped where it waits. -/
  | cancel
  /-- The caller asks for a statement, which is prepared unless it is cached. -/
  | statement (sql : String)
  | prepared
  | forget (sql : String)
  /-- The caller uses the session. -/
  | use (session : Session)
  | discard | drop | invalidate

def oldestUse (conns : List PgConn) : Option Nat := (conns.map (·.lastUsed)).min?

/-- The oldest connection of the pools seen so far. -/
def olderOf (key : DbPoolKey) (candidate : Option Nat) (oldest : Option (DbPoolKey × Nat)) :
    Option (DbPoolKey × Nat) :=
  match candidate with
  | none => oldest
  | some lastUsed =>
    if oldest.all (fun best => lastUsed < best.2) then some (key, lastUsed) else oldest

/-- The eviction of `make_room`: the connection, unless it is gone. -/
def evict (pool : PgPool) (oldest : Option (DbPoolKey × Nat)) : Option (PgConn × PgPool) :=
  match oldest with
  | none => none
  | some (key, lastUsed) =>
    match (pool.idle key).findIdx? (·.lastUsed = lastUsed) with
    | none => none
    | some index =>
      ((pool.idle key)[index]?).map fun conn =>
        (conn, pool.setIdle key (swapRemove (pool.idle key) index))

/-- A session in which a preparation was left under way. -/
def PgConn.abandoned (conn : PgConn) (preparing : Option (String × Nat)) : PgConn :=
  if preparing.isSome then { conn with session := { conn.session with statements := true } }
  else conn

/-- What a call does next in the code that does not wait. -/
def advanceNext (settings : PoolSettings) (now : Nat) (closed : Nat → Bool) (pool : PgPool) :
    Phase → Option (Phase × PgPool)
  | .sweepListing key => some (.sweeping key pool.pools [], pool)
  | .sweeping key rest (_ :: conns) => some (.sweeping key rest conns, pool.close)
  | .sweeping key (k :: rest) [] =>
    some (.sweeping key rest ((pool.idle k).filter (expired settings now closed)),
      pool.setIdle k ((pool.idle k).filter (!expired settings now closed ·)))
  | .sweeping key [] [] => some (.entering key, pool)
  | .entering key => some (.waitingKey key, pool.poolFor key)
  | .waitingKey key =>
    if 0 < pool.keyPermits key then some (.waitingTotal key, pool.takeKeyPermit key) else none
  | .waitingTotal key =>
    if 0 < pool.totalPermits then
      some (.granted key, { pool with totalPermits := pool.totalPermits - 1 })
    else none
  | .granted key => some (.guarded key, pool.enterUse key)
  | .guarded key => some (.looping key pool.generation, pool)
  | .looping key generation =>
    match (pool.idle key).getLast? with
    | some conn =>
      some (.examining key generation conn, pool.setIdle key (pool.idle key).dropLast)
    | none => some (.makingRoom key generation, pool)
  | .examining key generation conn =>
    if expired settings now closed conn then some (.looping key generation, pool.close)
    else if settings.healthCheckAfter < now - conn.lastUsed then
      some (.pinging key generation conn, pool)
    else some (.healthy key generation conn, pool)
  | .healthy key generation conn => some (.holding key (conn.tagged generation) false none, pool)
  | .makingRoom key generation =>
    if pool.openTotal < settings.maxTotal then some (.connecting key generation, pool)
    else some (.roomListing key generation, pool)
  | .roomListing key generation => some (.scanning key generation pool.pools none, pool)
  | .scanning key generation (k :: rest) oldest =>
    some (.scanning key generation rest (olderOf k (oldestUse (pool.idle k)) oldest), pool)
  | .scanning key generation [] oldest =>
    match evict pool oldest with
    | none => some (.connecting key generation, pool)
    | some (conn, pool) => some (.evicting key generation conn, pool)
  | .evicting key generation _ => some (.connecting key generation, pool.close)
  | .dropping key none _ => some (.releasing key, pool.leaveUse key)
  | .dropping key (some conn) discard => some (.returning key conn discard, pool.leaveUse key)
  | .returning key conn discard =>
    if discard || closed conn.id then some (.releasing key, pool.close)
    else
      some (.releasing key, pool.setIdle key (pool.idle key ++ [{ conn with lastUsed := now }]))
  | .releasing key => some (.releasingTotal, pool.releaseKeyPermit key)
  | .releasingTotal => some (.finished, { pool with totalPermits := pool.totalPermits + 1 })
  | _ => none

def advance (settings : PoolSettings) : Action → Phase → PgPool → Option (Phase × PgPool)
  | .get key now contended, .finished, pool =>
    if contended || now - pool.lastSweep < settings.sweepInterval then some (.entering key, pool)
    else some (.sweepListing key, { pool with lastSweep := now })
  | .next now closed, phase, pool => advanceNext settings now closed pool phase
  -- a permit that was taken is released with the future
  | .fails, .waitingKey _, pool | .cancel, .waitingKey _, pool => some (.finished, pool)
  | .fails, .waitingTotal key, pool | .cancel, .waitingTotal key, pool =>
    some (.finished, pool.releaseKeyPermit key)
  | .pinged, .pinging key generation conn, pool => some (.healthy key generation conn, pool)
  | .fails, .pinging key generation _, pool => some (.looping key generation, pool.close)
  -- the connection is a local variable of the future, not yet in the guard
  | .cancel, .pinging key _ _, pool =>
    some (.dropping key none false, { pool with lost := pool.lost + 1 })
  | .connected now, .connecting key generation, pool =>
    some (.holding key ⟨pool.nextId, .new settings.statementCache, now, now, generation, .clean,
        key⟩ false none,
      { pool with openTotal := pool.openTotal + 1, nextId := pool.nextId + 1 })
  | .fails, .connecting key _, pool | .cancel, .connecting key _, pool =>
    some (.dropping key none false, pool)
  | .statement sql, .holding key conn discard none, pool =>
    if conn.statements.contains sql then
      some (.holding key { conn with statements := conn.statements.touch sql } discard none, pool)
    else
      some (.holding key { conn with statements := conn.statements.touch sql } discard
        (some (sql, pool.clock)), { pool with clock := pool.clock + 1 })
  | .prepared, .holding key conn discard (some (sql, start)), pool =>
    some (.holding key { conn with statements := conn.statements.insert sql ⟨start⟩ } discard
      none, pool)
  | .fails, .holding key conn discard (some _), pool =>
    some (.holding key conn discard none, pool)
  | .forget sql, .holding key conn discard none, pool =>
    some (.holding key { conn with statements := conn.statements.remove sql } discard none, pool)
  | .use session, .holding key conn discard none, pool =>
    some (.holding key { conn with session } discard none, pool)
  | .discard, .holding key conn _ preparing, pool => some (.holding key conn true preparing, pool)
  | .drop, .holding key conn discard preparing, pool =>
    some (.dropping key (some (conn.abandoned preparing)) discard, pool)
  | .invalidate, .finished, pool =>
    -- `fetch_add` on an `AtomicU64`
    some (.finished,
      { pool with generation := (pool.generation + 1) % 2 ^ 64, clock := pool.clock + 1 })
  | _, _, _ => none

abbrev PoolWorld (ι : Type) : Type := Parties.World ι PgPool Phase

def PoolWorld.initial {ι : Type} (settings : PoolSettings) (now : Nat) : PoolWorld ι :=
  ⟨.new settings now, fun _ => .finished⟩

end Fenrir.Postgres
