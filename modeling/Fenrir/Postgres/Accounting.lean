import Fenrir.Postgres.Pool

/-! # What the pool counts

The semaphores, `in_use` and `open_total` are changed at other places than those at
which permits and connections change hands. What a call has in its hands is read off
its phase (`hands`), and each step does one of a few things to the pool and to the
hands of its call (`Effect`, `advance_effect`). -/

namespace Fenrir.Postgres

open Parties List Function

open PgPool (poolFor setIdle close)

/-! ## What a call has in its hands -/

structure Hands where
  /-- The key whose pool the call uses. -/
  pool : Option DbPoolKey
  /-- The key whose permit is held. -/
  key : Option DbPoolKey
  /-- One of all permits is held. -/
  total : Bool
  /-- The key of the guard that counts as in use. -/
  guard : Option DbPoolKey
  /-- The call's own connection: taken from the idle ones, or in its guard. -/
  own : Option PgConn
  /-- Connections the call is about to close for others. -/
  closing : List PgConn

def Hands.empty : Hands := ⟨none, none, false, none, none, []⟩

def Hands.guarding (key : DbPoolKey) (own : Option PgConn) : Hands :=
  ⟨some key, some key, true, some key, own, []⟩

def hands : Phase → Hands
  | .finished | .sweepListing _ | .entering _ => .empty
  | .sweeping _ _ conns => { Hands.empty with closing := conns }
  | .waitingKey key => { Hands.empty with pool := some key }
  | .waitingTotal key => { Hands.empty with pool := some key, key := some key }
  | .granted key | .releasing key =>
    { Hands.empty with pool := some key, key := some key, total := true }
  | .guarded key | .looping key _ | .makingRoom key _ | .roomListing key _ | .scanning key _ _ _
  | .connecting key _ => .guarding key none
  | .examining key _ conn | .pinging key _ conn | .healthy key _ conn | .holding key conn _ _ =>
    .guarding key (some conn)
  | .evicting key _ conn => { Hands.guarding key none with closing := [conn] }
  | .dropping key conn _ => .guarding key conn
  | .returning key conn _ => { Hands.guarding key (some conn) with guard := none }
  | .releasingTotal => { Hands.empty with total := true }

/-! ## What a step does -/

/-- One connection at two times. -/
def SameConn (conn conn' : PgConn) : Prop :=
  conn'.id = conn.id ∧ conn'.openedFor = conn.openedFor

theorem tagged_same (conn : PgConn) (gen : Nat) : SameConn conn (conn.tagged gen) := by
  rw [PgConn.tagged]
  split_ifs <;> exact ⟨rfl, rfl⟩

theorem abandoned_same (conn : PgConn) (preparing : Option (String × Nat)) :
    SameConn conn (conn.abandoned preparing) := by
  rw [PgConn.abandoned]
  split_ifs <;> exact ⟨rfl, rfl⟩

/-- The pool as far as it is counted. -/
structure Same (pool pool' : PgPool) : Prop where
  pools : pool'.pools = pool.pools
  idle : pool'.idle = pool.idle
  inUse : pool'.inUse = pool.inUse
  keyPermits : pool'.keyPermits = pool.keyPermits
  totalPermits : pool'.totalPermits = pool.totalPermits
  openTotal : pool'.openTotal = pool.openTotal
  nextId : pool'.nextId = pool.nextId
  lost : pool'.lost = pool.lost

theorem Same.refl (pool : PgPool) : Same pool pool := ⟨rfl, rfl, rfl, rfl, rfl, rfl, rfl, rfl⟩

/-- What a step does to the pool and to the hands of its call. -/
inductive Effect (pool : PgPool) (h : Hands) : PgPool → Hands → Prop
  | nothing {pool' : PgPool} (hsame : Same pool pool') : Effect pool h pool' h
  | enter (key : DbPoolKey) (hnone : h.own = none) :
      Effect pool h (pool.poolFor key) { h with pool := some key }
  | leave (hnone : h.own = none) : Effect pool h pool { h with pool := none }
  | takeKey (key : DbPoolKey) (hleft : 0 < pool.keyPermits key) (hnone : h.key = none) :
      Effect pool h (pool.takeKeyPermit key) { h with key := some key }
  | releaseKey (key : DbPoolKey) (hkey : h.key = some key) (hnone : h.own = none) :
      Effect pool h (pool.releaseKeyPermit key) { h with pool := none, key := none }
  | takeTotal (hleft : 0 < pool.totalPermits) (hnone : h.total = false) :
      Effect pool h { pool with totalPermits := pool.totalPermits - 1 } { h with total := true }
  | releaseTotal (htotal : h.total = true) :
      Effect pool h { pool with totalPermits := pool.totalPermits + 1 } { h with total := false }
  | enterUse (key : DbPoolKey) (hnone : h.guard = none) :
      Effect pool h (pool.enterUse key) { h with guard := some key }
  | leaveUse (key : DbPoolKey) (hguard : h.guard = some key) :
      Effect pool h (pool.leaveUse key) { h with guard := none }
  /-- The last idle connection is taken. -/
  | pop (key : DbPoolKey) (conn : PgConn) (hkey : h.pool = some key)
      (hlast : (pool.idle key).getLast? = some conn) (hnone : h.own = none) :
      Effect pool h (pool.setIdle key (pool.idle key).dropLast) { h with own := some conn }
  /-- The call's connection is tagged or used. -/
  | change (conn conn' : PgConn) {pool' : PgPool} (hsame : Same pool pool')
      (hown : h.own = some conn) (hconn : SameConn conn conn') :
      Effect pool h pool' { h with own := some conn' }
  /-- The connection is put back. -/
  | push (key : DbPoolKey) (conn : PgConn) (now : Nat) (hkey : h.pool = some key)
      (hown : h.own = some conn) :
      Effect pool h (pool.setIdle key (pool.idle key ++ [{ conn with lastUsed := now }]))
        { h with own := none }
  /-- The idle connections of one key that are past a limit are taken out. -/
  | sweep (key : DbPoolKey) (gone : PgConn → Bool) (hnone : h.closing = []) :
      Effect pool h (pool.setIdle key ((pool.idle key).filter (!gone ·)))
        { h with closing := (pool.idle key).filter gone }
  /-- One idle connection is taken out to make room. -/
  | evict (key : DbPoolKey) (conn : PgConn) (kept : List PgConn)
      (hkept : (conn :: kept).Perm (pool.idle key)) (hnone : h.closing = []) :
      Effect pool h (pool.setIdle key kept) { h with closing := [conn] }
  | closeOwn (conn : PgConn) (hown : h.own = some conn) :
      Effect pool h pool.close { h with own := none }
  | closeOther (conn : PgConn) (conns : List PgConn) (hclosing : h.closing = conn :: conns) :
      Effect pool h pool.close { h with closing := conns }
  | connect (key : DbPoolKey) (conn : PgConn) (hkey : h.pool = some key) (hnone : h.own = none)
      (hid : conn.id = pool.nextId) (hopened : conn.openedFor = key) :
      Effect pool h { pool with openTotal := pool.openTotal + 1, nextId := pool.nextId + 1 }
        { h with own := some conn }
  /-- The connection goes away with the future, and nobody counts it. -/
  | lose (conn : PgConn) (hown : h.own = some conn) :
      Effect pool h { pool with lost := pool.lost + 1 } { h with own := none }

theorem swapRemove_perm {α : Type} {xs : List α} {index : Nat} {x : α}
    (h : xs[index]? = some x) : (x :: swapRemove xs index).Perm xs := by
  rcases eq_nil_or_concat xs with rfl | ⟨front, last, rfl⟩
  · cases h
  rw [concat_eq_append] at h ⊢
  have hsw : swapRemove (front ++ [last]) index = ((front ++ [last]).set index last).dropLast := by
    rw [swapRemove, List.getLast?_concat]
  have hla : (last :: front).Perm (front ++ [last]) := (perm_append_singleton last front).symm
  rw [hsw]
  rcases lt_or_ge index front.length with hlt | hge
  · rw [List.getElem?_append_left hlt] at h
    obtain ⟨_, hx⟩ := List.getElem?_eq_some_iff.mp h
    rw [set_append_left _ _ hlt, dropLast_concat, ← hx]
    calc List.Perm (front[index] :: front.set index last)
          (front[index] :: last :: front.eraseIdx index) :=
          (set_perm_cons_eraseIdx hlt last).cons _
      List.Perm _ (last :: front[index] :: front.eraseIdx index) := List.Perm.swap ..
      List.Perm _ (last :: front) := (getElem_cons_eraseIdx_perm hlt).cons _
      List.Perm _ (front ++ [last]) := hla
  · have hind : index = front.length := by
      have := (List.getElem?_eq_some_iff.mp h).1
      rw [length_append, length_singleton] at this
      omega
    subst hind
    rw [List.getElem?_concat_length] at h
    cases h
    rw [set_append_right _ _ (le_refl _), Nat.sub_self, set_cons_zero, dropLast_concat]
    exact hla

variable {conn : PgConn} {settings : PoolSettings} {p p' : Phase} {k : DbPoolKey}
  {conns : List PgConn}

theorem evict_spec {pool pool' : PgPool} {oldest : Option (DbPoolKey × Nat)}
    (h : evict pool oldest = some (conn, pool')) :
    ∃ key kept, (conn :: kept).Perm (pool.idle key) ∧ pool' = pool.setIdle key kept := by
  cases oldest with
  | none => cases h
  | some best =>
    obtain ⟨key, lastUsed⟩ := best
    cases hind : (pool.idle key).findIdx? (·.lastUsed = lastUsed) with
    | none => simp only [evict, hind, reduceCtorEq] at h
    | some index =>
      simp only [evict, hind] at h
      obtain ⟨conn', hco, heq⟩ := Option.map_eq_some_iff.mp h
      cases heq
      exact ⟨key, _, swapRemove_perm hco, rfl⟩

theorem advanceNext_effect {now : Nat} {cl : Nat → Bool} {pool pool' : PgPool}
    (h : advanceNext settings now cl pool p = some (p', pool')) :
    Effect pool (hands p) pool' (hands p') := by
  revert h
  fun_cases advanceNext settings now cl pool p
  all_goals intro h
  all_goals cases h
  case case2 | case24 => exact .closeOther _ _ rfl
  case case3 => exact .sweep _ _ rfl
  case case5 => exact .enter _ rfl
  case case6 hleft => exact .takeKey _ hleft rfl
  case case8 hleft => exact .takeTotal hleft rfl
  case case10 => exact .enterUse _ rfl
  case case12 hlast => exact .pop _ _ rfl hlast rfl
  case case14 | case27 => exact .closeOwn _ rfl
  case case17 => exact .change _ _ (.refl _) rfl (tagged_same _ _)
  case case23 hevict =>
    obtain ⟨k, kept, hkept, rfl⟩ := evict_spec hevict
    exact .evict k _ kept hkept rfl
  case case25 | case26 => exact .leaveUse _ rfl
  case case28 => exact .push _ _ _ rfl rfl
  case case29 => exact .releaseKey _ rfl rfl
  case case30 => exact .releaseTotal rfl
  -- the rest only changes the phase
  all_goals exact .nothing (.refl _)

/-- **WHAT A STEP DOES.** -/
theorem advance_effect {action : Action} {pool pool' : PgPool}
    (h : advance settings action p pool = some (p', pool')) :
    Effect pool (hands p) pool' (hands p') := by
  revert h
  fun_cases advance settings action p pool
  case case3 => exact advanceNext_effect
  all_goals intro h
  all_goals cases h
  case case4 | case5 => exact .leave rfl
  case case6 | case7 => exact .releaseKey _ rfl rfl
  case case9 => exact .closeOwn _ rfl
  case case10 => exact .lose _ rfl
  case case11 => exact .connect _ _ rfl rfl rfl rfl
  case case14 | case16 | case18 | case19 => exact .change _ _ (.refl _) rfl ⟨rfl, rfl⟩
  case case15 => exact .change _ _ ⟨rfl, rfl, rfl, rfl, rfl, rfl, rfl, rfl⟩ rfl ⟨rfl, rfl⟩
  case case21 => exact .change _ _ (.refl _) rfl (abandoned_same _ _)
  all_goals exact .nothing ⟨rfl, rfl, rfl, rfl, rfl, rfl, rfl, rfl⟩

/-! ## Balances -/

section

variable (pool : PgPool) (h : Hands)

def keyHeld (key : DbPoolKey) (h : Hands) : ℤ := if h.key = some key then 1 else 0

def totalHeld : ℤ := if h.total then 1 else 0

def guards (key : DbPoolKey) (h : Hands) : ℤ := if h.guard = some key then 1 else 0

/-- The connection the call has for itself. -/
def owned : ℤ := if h.own.isSome then 1 else 0

def inHand : ℤ := owned h + h.closing.length

def idleTotal : ℤ :=
  total pool.pools.toFinset (fun conns => (conns.length : ℤ)) pool.idle

/-- Every key with idle connections is in the table of pools. -/
def Known : Prop := ∀ key, pool.idle key ≠ [] → key ∈ pool.pools

/-- The key a call uses is in the table of pools. -/
def Registered : Prop := ∀ key, h.pool = some key → key ∈ pool.pools

end

theorem idleTotal_setIdle {pool : PgPool} {key : DbPoolKey} (hkey : key ∈ pool.pools)
    (conns : List PgConn) : idleTotal (pool.setIdle key conns) =
      idleTotal pool - (pool.idle key).length + conns.length :=
  total_update (mem_toFinset.mpr hkey) _ _ _

theorem poolFor_idle (pool : PgPool) (key : DbPoolKey) : (pool.poolFor key).idle = pool.idle := by
  rw [poolFor]
  split_ifs <;> rfl

theorem idleTotal_poolFor {pool : PgPool} (hkno : Known pool) (key : DbPoolKey) :
    idleTotal (pool.poolFor key) = idleTotal pool := by
  rw [poolFor]
  split_ifs with hkey
  · rfl
  · have hid : pool.idle key = [] := by
      by_contra hne
      exact hkey (hkno key hne)
    have hke : (pool.pools ++ [key]).toFinset = insert key pool.pools.toFinset := by
      ext k
      simp
    show total (pool.pools ++ [key]).toFinset _ pool.idle = _
    rw [hke, total, Finset.sum_insert (fun hmem => hkey (mem_toFinset.mp hmem)), hid]
    exact zero_add _

theorem idleTotal_sweep {pool : PgPool} (hkno : Known pool) (key : DbPoolKey)
    (gone : PgConn → Bool) : idleTotal (pool.setIdle key ((pool.idle key).filter (!gone ·))) +
      ((pool.idle key).filter gone).length = idleTotal pool := by
  by_cases hkey : key ∈ pool.pools
  · rw [idleTotal_setIdle hkey]
    have := length_eq_length_filter_add (l := pool.idle key) gone
    omega
  · have hid : pool.idle key = [] := by
      by_contra hne
      exact hkey (hkno key hne)
    have hsa : pool.setIdle key [] = pool := by
      rw [setIdle, ← hid, update_eq_self]
    rw [hid]
    show idleTotal (pool.setIdle key []) + 0 = _
    rw [hsa, add_zero]

variable {pool pool' : PgPool} {h h' : Hands}

section

variable (heff : Effect pool h pool' h')

include heff

theorem Effect.key (k : DbPoolKey) :
    (pool'.keyPermits k : ℤ) + keyHeld k h' = pool.keyPermits k + keyHeld k h := by
  cases heff with
  | nothing hsame => rw [hsame.keyPermits]
  | change conn conn' hsame => rw [hsame.keyPermits]; rfl
  | enter key => rw [poolFor]; split_ifs <;> rfl
  | takeKey key hleft hnone =>
    by_cases hk : key = k
    · subst hk
      simp [PgPool.takeKeyPermit, keyHeld, hnone]
      omega
    · simp [PgPool.takeKeyPermit, keyHeld, hnone, hk, Ne.symm hk]
  | releaseKey key hkey =>
    by_cases hk : key = k
    · subst hk
      simp [PgPool.releaseKeyPermit, keyHeld, hkey]
    · simp [PgPool.releaseKeyPermit, keyHeld, hkey, hk, Ne.symm hk]
  | _ => rfl

theorem Effect.total :
    (pool'.totalPermits : ℤ) + totalHeld h' = pool.totalPermits + totalHeld h := by
  cases heff with
  | nothing hsame => rw [hsame.totalPermits]
  | change conn conn' hsame => rw [hsame.totalPermits]; rfl
  | enter key => rw [poolFor]; split_ifs <;> rfl
  | takeTotal hleft hnone =>
    simp [totalHeld, hnone]
    omega
  | releaseTotal htotal => simp [totalHeld, htotal]
  | _ => rfl

theorem Effect.inUse (k : DbPoolKey) :
    - pool'.inUse k + guards k h' = - pool.inUse k + guards k h := by
  cases heff with
  | nothing hsame => rw [hsame.inUse]
  | change conn conn' hsame => rw [hsame.inUse]; rfl
  | enter key => rw [poolFor]; split_ifs <;> rfl
  | enterUse key hnone =>
    by_cases hk : key = k
    · subst hk
      simp [PgPool.enterUse, guards, hnone]
    · simp [PgPool.enterUse, guards, hnone, hk, Ne.symm hk]
  | leaveUse key hguard =>
    by_cases hk : key = k
    · subst hk
      simp [PgPool.leaveUse, guards, hguard]
      omega
    · simp [PgPool.leaveUse, guards, hguard, hk, Ne.symm hk]
  | _ => rfl

theorem Effect.opened (hkno : Known pool)
    (hreg : Registered pool h) : idleTotal pool' + pool'.lost - pool'.openTotal + inHand h' =
      idleTotal pool + pool.lost - pool.openTotal + inHand h := by
  cases heff with
  | nothing hsame =>
    rw [idleTotal, hsame.pools, hsame.idle, hsame.lost, hsame.openTotal]
    rfl
  | change conn conn' hsame hown =>
    rw [idleTotal, hsame.pools, hsame.idle, hsame.lost, hsame.openTotal]
    simp [inHand, owned, hown, idleTotal]
  | enter key =>
    rw [idleTotal_poolFor hkno]
    rw [poolFor]
    split_ifs <;> rfl
  | pop key conn hkey hlast hnone =>
    rw [idleTotal_setIdle (hreg key hkey), length_dropLast]
    have hpos : 0 < (pool.idle key).length := by
      rw [length_pos_iff]
      rintro hnil
      rw [hnil] at hlast
      cases hlast
    simp [inHand, owned, hnone, setIdle]
    omega
  | push key conn now hkey hown =>
    rw [idleTotal_setIdle (hreg key hkey)]
    simp [inHand, owned, hown, setIdle]
    omega
  | sweep key gone hnone =>
    have hmov := idleTotal_sweep hkno key gone
    simp [inHand, owned, hnone, setIdle] at hmov ⊢
    omega
  | evict key conn kept hkept hnone =>
    have hmem : key ∈ pool.pools := by
      refine hkno key fun hnil => ?_
      rw [hnil] at hkept
      cases hkept.length_eq
    rw [idleTotal_setIdle hmem, ← hkept.length_eq]
    simp [inHand, owned, hnone, setIdle]
    omega
  | closeOwn conn hown =>
    simp [inHand, owned, hown, close, idleTotal]
    omega
  | closeOther conn conns hclosing =>
    simp [inHand, owned, hclosing, close, idleTotal]
    omega
  | connect key conn hkey hnone =>
    simp [inHand, owned, hnone, idleTotal]
    omega
  | lose conn hown =>
    simp [inHand, owned, hown, idleTotal]
    omega
  | _ => rfl

theorem Effect.pools {key : DbPoolKey} (hkey : key ∈ pool.pools) : key ∈ pool'.pools := by
  cases heff with
  | nothing hsame | change conn conn' hsame => rwa [hsame.pools]
  | enter k =>
    rw [poolFor]
    split_ifs
    · exact hkey
    · exact mem_append_left _ hkey
  | _ => exact hkey

end

theorem mem_poolFor (pool : PgPool) (key : DbPoolKey) : key ∈ (pool.poolFor key).pools := by
  rw [poolFor]
  split_ifs with hkey
  · exact hkey
  · exact mem_append_right _ mem_cons_self

theorem Effect.registered (heff : Effect pool h pool' h') (hreg : Registered pool h) :
    Registered pool' h' := by
  intro key hkey
  cases heff with
  | nothing hsame | change conn conn' hsame => exact hsame.pools ▸ hreg key hkey
  | enter k =>
    cases hkey
    exact mem_poolFor pool key
  | leave | releaseKey => cases hkey
  | _ => exact hreg key hkey

theorem setIdle_self (pool : PgPool) (key : DbPoolKey) (conns : List PgConn) :
    (pool.setIdle key conns).idle key = conns := update_self ..

theorem setIdle_ne (pool : PgPool) {key : DbPoolKey} (hk : k ≠ key) (conns : List PgConn) :
    (pool.setIdle key conns).idle k = pool.idle k := update_of_ne hk ..

theorem mem_setIdle {key : DbPoolKey} (hmem : conn ∈ (pool.setIdle key conns).idle k) :
    (k = key ∧ conn ∈ conns) ∨ conn ∈ pool.idle k := by
  by_cases hk : k = key
  · subst hk
    rw [setIdle_self] at hmem
    exact .inl ⟨rfl, hmem⟩
  · rw [setIdle_ne pool hk] at hmem
    exact .inr hmem

theorem Known.setIdle {key : DbPoolKey} (hkno : Known pool) (hkey : conns ≠ [] → key ∈ pool.pools) :
    Known (pool.setIdle key conns) := by
  intro k hk
  by_cases hkk : k = key
  · subst hkk
    rw [setIdle_self] at hk
    exact hkey hk
  · rw [setIdle_ne pool hkk] at hk
    exact hkno k hk

theorem Effect.known (heff : Effect pool h pool' h') (hkno : Known pool)
    (hreg : Registered pool h) : Known pool' := by
  cases heff with
  | nothing hsame | change conn conn' hsame =>
    intro key hkey
    rw [hsame.pools]
    exact hkno key (hsame.idle ▸ hkey)
  | enter key =>
    intro k hk
    rw [poolFor_idle] at hk
    exact Effect.pools (h := h) (.enter key ‹_›) (hkno k hk)
  | pop key conn hkey | push key conn now hkey => exact hkno.setIdle fun _ => hreg key hkey
  | sweep key gone =>
    refine hkno.setIdle fun hne => hkno key fun hnil => hne ?_
    rw [hnil]
    rfl
  | evict key conn kept hkept =>
    refine hkno.setIdle fun _ => hkno key fun hnil => ?_
    rw [hnil] at hkept
    cases hkept.length_eq
  | _ => exact hkno

/-! ## The books -/

section

variable {ι : Type} [Fintype ι] [DecidableEq ι] {settings : PoolSettings}

def inHands (f : Hands → ℤ) (w : PoolWorld ι) : ℤ := tally (fun p => f (hands p)) w.party

/-- What holds between the counts and what the calls have in their hands. -/
structure Books (settings : PoolSettings) (w : PoolWorld ι) : Prop where
  known : Known w.shared
  registered : ∀ i, Registered w.shared (hands (w.party i))
  key : ∀ k, (w.shared.keyPermits k : ℤ) + inHands (keyHeld k) w = max settings.maxPerPool 1
  total : (w.shared.totalPermits : ℤ) + inHands totalHeld w = max settings.maxTotal 1
  inUse : ∀ k, - w.shared.inUse k + inHands (guards k) w = 0
  opened : idleTotal w.shared + w.shared.lost - w.shared.openTotal + inHands inHand w = 0

omit [DecidableEq ι] in
theorem inHands_initial {f : Hands → ℤ} (hf : f .empty = 0) (now : Nat) :
    inHands f (PoolWorld.initial settings now : PoolWorld ι) = 0 :=
  Finset.sum_eq_zero fun _ _ => hf

omit [DecidableEq ι] in
theorem books_initial (now : Nat) :
    Books settings (PoolWorld.initial settings now : PoolWorld ι) where
  known _ h := absurd rfl h
  registered _ _ h := nomatch h
  key _ := by
    rw [inHands_initial rfl]
    rfl
  total := by
    rw [inHands_initial rfl]
    rfl
  inUse _ := by
    rw [inHands_initial rfl]
    rfl
  opened := by
    rw [inHands_initial rfl]
    rfl

/-- **THE BOOKS ARE KEPT.** -/
theorem books_step {w : PoolWorld ι} (hw : Books settings w) (event : ι × Action) :
    Books settings (step (advance settings) w event) := by
  obtain ⟨i, action⟩ := event
  refine step_induction hw ?_
  intro p pool hadv
  have heff := advance_effect hadv
  have hreg := hw.registered i
  constructor
  · exact heff.known hw.known hreg
  · intro j
    show Registered pool (hands (update w.party i p j))
    by_cases hj : j = i
    · subst hj
      rw [update_self]
      exact heff.registered hreg
    · rw [update_of_ne hj]
      exact fun key hkey => heff.pools (hw.registered j key hkey)
  · exact fun k => (balance (f := fun p => keyHeld k (hands p)) (heff.key k)).trans (hw.key k)
  · exact (balance (f := fun p => totalHeld (hands p)) heff.total).trans hw.total
  · exact fun k => (balance (f := fun p => guards k (hands p)) (heff.inUse k)).trans (hw.inUse k)
  · exact (balance (f := fun p => inHand (hands p)) (heff.opened hw.known hreg)).trans hw.opened

variable (settings) in
/-- **THE BOOKS OF EVERY RUN.** -/
theorem books (now : Nat) (evs : List (ι × Action)) :
    Books settings (Run.run (step (advance settings)) (PoolWorld.initial settings now) evs) := by
  have hst : ∀ (w : PoolWorld ι) event, Books settings w →
      Books settings (step (advance settings) w event) := fun w event hw => books_step hw event
  exact Run.always hst (books_initial now) evs

/-! ## Lost and new connections -/

/-- The future is dropped during the health check of a connection. -/
def losesConnection : Action → Phase → Bool
  | .cancel, .pinging _ _ _ => true
  | _, _ => false

def opensConnection : Action → Phase → Bool
  | .connected _, .connecting _ _ => true
  | _, _ => false

variable {p p' : Phase}

theorem advanceNext_counts {now : Nat} {cl : Nat → Bool}
    (h : advanceNext settings now cl pool p = some (p', pool')) :
    pool'.lost = pool.lost ∧ pool'.nextId = pool.nextId := by
  revert h
  fun_cases advanceNext settings now cl pool p
  all_goals intro h
  all_goals cases h
  case case5 =>
    rw [poolFor]
    split_ifs <;> exact ⟨rfl, rfl⟩
  case case23 hevict =>
    obtain ⟨k, kept, _, rfl⟩ := evict_spec hevict
    exact ⟨rfl, rfl⟩
  all_goals exact ⟨rfl, rfl⟩

theorem advance_counts {action : Action} (h : advance settings action p pool = some (p', pool')) :
    pool'.lost = pool.lost + (losesConnection action p).toNat ∧
      pool'.nextId = pool.nextId + (opensConnection action p).toNat := by
  revert h
  fun_cases advance settings action p pool
  case case3 => exact advanceNext_counts
  all_goals intro h
  all_goals cases h
  all_goals exact ⟨rfl, rfl⟩

variable (settings) in
omit [Fintype ι] in
theorem lost_step (w : PoolWorld ι) (i : ι) (action : Action) :
    w.shared.lost ≤ (step (advance settings) w (i, action)).shared.lost ∧
      ((step (advance settings) w (i, action)).shared.lost = w.shared.lost ↔
        losesConnection action (w.party i) = false) := by
  cases hadv : advance settings action (w.party i) w.shared with
  | none =>
    rw [step_none hadv]
    refine ⟨le_refl _, iff_of_true rfl ?_⟩
    -- such a step is always possible
    cases hlo : losesConnection action (w.party i) with
    | false => rfl
    | true =>
      revert hadv hlo
      fun_cases losesConnection action (w.party i)
      · exact fun hadv _ => nomatch hadv
      · exact nofun
  | some result =>
    have hlos := (advance_counts hadv).1
    rw [step_some hadv]
    show w.shared.lost ≤ result.2.lost ∧ (result.2.lost = w.shared.lost ↔ _)
    rw [hlos]
    cases losesConnection action (w.party i) <;> simp

/-- Every connection is counted as long as no future is dropped during a health check. -/
def NoneLost (w : PoolWorld ι) (event : ι × Action) : Prop :=
  losesConnection event.2 (w.party event.1) = false

instance (w : PoolWorld ι) (event : ι × Action) : Decidable (NoneLost w event) :=
  inferInstanceAs (Decidable (_ = _))

variable (settings) in
omit [Fintype ι] in
theorem lost_run (w : PoolWorld ι) (evs : List (ι × Action)) :
    w.shared.lost ≤ (Run.run (step (advance settings)) w evs).shared.lost ∧
      ((Run.run (step (advance settings)) w evs).shared.lost = w.shared.lost ↔
        Run.Along (step (advance settings)) NoneLost w evs) := by
  induction evs generalizing w with
  | nil => exact ⟨le_refl _, iff_of_true rfl trivial⟩
  | cons event evs ih =>
    obtain ⟨i, action⟩ := event
    obtain ⟨hle, hst⟩ := lost_step settings w i action
    obtain ⟨hle', hre⟩ := ih (step (advance settings) w (i, action))
    refine ⟨hle.trans hle', ?_⟩
    show _ ↔ losesConnection action (w.party i) = false ∧ _
    rw [← hst, ← hre, Run.run_cons]
    omega

/-! ## Exact accounting -/

/-- A call that is not in the middle of a step: it has not begun or is done, it waits for a
permit or a new connection, or its guard is in use. -/
def quiet : Phase → Bool
  | .finished | .waitingKey _ | .waitingTotal _ | .connecting _ _ | .holding _ _ _ _ => true
  | _ => false

/-- `open_total` and each `in_use` are what they stand for. -/
def Exact (w : PoolWorld ι) : Prop :=
  w.shared.openTotal = idleTotal w.shared + inHands owned w ∧
    ∀ key, w.shared.inUse key = inHands (guards key) w

theorem quiet_closing (h : quiet p = true) : inHand (hands p) = owned (hands p) := by
  cases p <;> first | rfl | exact nomatch h

/-- **EXACT ACCOUNTING.** In a quiet state the counts are exact if and only if no future
was dropped during a health check on the way. -/
theorem accounting_exact_iff (now : Nat) (events : List (ι × Action))
    (hquiet : ∀ i, quiet ((Run.run (step (advance settings))
      (PoolWorld.initial settings now) events).party i) = true) :
    Exact (Run.run (step (advance settings)) (PoolWorld.initial settings now) events) ↔
      Run.Along (step (advance settings)) NoneLost (PoolWorld.initial settings now) events := by
  have hboo := books settings now events
  rw [← (lost_run settings _ events).2]
  generalize Run.run (step (advance settings)) (PoolWorld.initial settings now) events = w
    at hquiet hboo
  have hclo : inHands inHand w = inHands owned w := tally_congr fun i => quiet_closing (hquiet i)
  have hope := hboo.opened
  have huse : ∀ key, w.shared.inUse key = inHands (guards key) w := fun key => by
    have := hboo.inUse key
    omega
  have hze : (PoolWorld.initial settings now : PoolWorld ι).shared.lost = 0 := rfl
  rw [hclo] at hope
  rw [hze]
  constructor
  · intro hexa
    have := hexa.1
    omega
  · intro hlo
    refine ⟨?_, huse⟩
    omega

end

def lone : Fin 1 := ⟨0, Nat.one_pos⟩

/-- A connection is opened and returned; 31 seconds later it is taken again, and its health
is checked. -/
def untilCheck : List (Fin 1 × Action) :=
  let next : Fin 1 × Action := (0, .next 31000 fun _ => false)
  [(0, .get ⟨"host"⟩ 0 false), next, next, next, next, next, next, next, (0, .connected 0),
    (0, .drop), next, (0, .next 0 fun _ => false), next, next,
    (0, .get ⟨"host"⟩ 31000 true), next, next, next, next, next, next, next]

def passedCheck : List (Fin 1 × Action) :=
  untilCheck ++ [(0, .pinged), (0, .next 31000 fun _ => false)]

theorem passed_check_exact :
    (∀ i, quiet ((Run.run (step (advance .default)) (PoolWorld.initial .default 0)
      passedCheck).party i) = true) ∧
      Exact (Run.run (step (advance .default)) (PoolWorld.initial .default 0) passedCheck) :=
  ⟨by decide +kernel, (accounting_exact_iff 0 passedCheck (by decide +kernel)).mpr
    (by decide +kernel)⟩

/-- The future is dropped during the check, and its guard with it. -/
def cancelledCheck : List (Fin 1 × Action) :=
  let next : Fin 1 × Action := (0, .next 31000 fun _ => false)
  untilCheck ++ [(0, .cancel), next, next, next]

/-- All calls are done and no connection is left, but one still counts as open. -/
theorem cancelled_check_counts :
    let w := Run.run (step (advance .default)) (PoolWorld.initial .default 0) cancelledCheck
    (∀ i, w.party i = .finished) ∧ w.shared.openTotal = 1 ∧
      idleTotal w.shared + inHands owned w = 0 ∧ ¬ Exact w := by
  refine ⟨fun i => ?_, by decide +kernel, by decide +kernel, fun hexa => ?_⟩
  · match i with
    | 0 => rfl
  · exact absurd hexa.1 (by decide +kernel)

end Fenrir.Postgres
