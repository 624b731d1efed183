import Fenrir.Postgres.Accounting

/-! # The limits of the pool

The limits on connections in use follow from the permits. The limit on open connections is
checked before a connection is opened, and the new one counts only when it is there: of two
calls that check at about the same time, both may find room for one
(`two_checks_open_three`). -/

namespace Fenrir.Postgres

open Parties List Function

variable {pool pool' : PgPool} {h h' : Hands}

/-! ## Connections in use -/

/-- The connection of this key that the call has for itself. -/
def ownedOf (key : DbPoolKey) (h : Hands) : ℤ :=
  if h.pool = some key ∧ h.own.isSome then 1 else 0

theorem ownedOf_le_keyHeld (key : DbPoolKey) (p : Phase) :
    ownedOf key (hands p) ≤ keyHeld key (hands p) := by
  cases p <;> simp [hands, ownedOf, keyHeld, Hands.empty, Hands.guarding]
  all_goals split_ifs <;> simp_all

theorem owned_le_totalHeld (p : Phase) : owned (hands p) ≤ totalHeld (hands p) := by
  cases p <;> simp [hands, owned, totalHeld, Hands.empty, Hands.guarding]
  all_goals split_ifs <;> simp_all

section

variable {ι : Type} [Fintype ι] [DecidableEq ι] {settings : PoolSettings} {w : PoolWorld ι}

omit [DecidableEq ι] in
/-- **CONNECTIONS IN USE.** -/
theorem checked_out_limits (hw : Books settings w) :
    (∀ key, inHands (ownedOf key) w ≤ max settings.maxPerPool 1) ∧
      inHands owned w ≤ max settings.maxTotal 1 := by
  constructor
  · intro key
    have hhe : inHands (ownedOf key) w ≤ inHands (keyHeld key) w :=
      tally_mono fun i => ownedOf_le_keyHeld key (w.party i)
    have hkey := hw.key key
    omega
  · have hhe : inHands owned w ≤ inHands totalHeld w :=
      tally_mono fun i => owned_le_totalHeld (w.party i)
    have htot := hw.total
    omega

end

/-! ## Open connections -/

section

variable (heff : Effect pool h pool' h')

include heff

theorem Effect.counted : pool'.openTotal - pool'.lost - h'.closing.length ≤
      pool.openTotal - pool.lost - h.closing.length + (pool'.nextId - pool.nextId) := by
  cases heff with
  | nothing hsame =>
    rw [hsame.openTotal, hsame.lost, hsame.nextId]
    omega
  | change conn conn' hsame =>
    rw [hsame.openTotal, hsame.lost, hsame.nextId]
    show pool.openTotal - pool.lost - h.closing.length ≤ _
    omega
  | enter key =>
    rw [PgPool.poolFor]
    split_ifs <;> simp
  | sweep key gone hnone | evict key conn kept hkept hnone =>
    rw [hnone]
    simp [PgPool.setIdle]
  | closeOther conn conns hclosing =>
    rw [hclosing]
    simp [PgPool.close]
    omega
  | closeOwn =>
    simp [PgPool.close]
  | connect =>
    simp
    omega
  | lose =>
    simp
    omega
  | _ => simp [PgPool.setIdle, PgPool.takeKeyPermit, PgPool.releaseKeyPermit, PgPool.enterUse,
      PgPool.leaveUse]

theorem Effect.adds (hkno : Known pool) (hreg : Registered pool h) :
    idleTotal pool' + owned h' ≤ idleTotal pool + owned h + (pool'.nextId - pool.nextId) := by
  have hope := heff.opened hkno hreg
  have hcou := heff.counted
  rw [inHand, inHand] at hope
  omega

theorem Effect.idle_stay (hkno : Known pool)
    (hreg : Registered pool h) (htak : h.own = none → h'.own = none) :
    (∀ key conn, conn ∈ pool.idle key → conn ∈ pool'.idle key) ∨
      idleTotal pool' + owned h' < idleTotal pool + owned h := by
  have hope := heff.opened hkno hreg
  cases heff with
  | nothing hsame | change conn conn' hsame =>
    left
    rw [hsame.idle]
    exact fun _ _ hco => hco
  | enter key =>
    left
    rw [poolFor_idle]
    exact fun _ _ hco => hco
  | pop key conn hkey hlast hnone => cases htak hnone
  | push key conn now =>
    left
    intro k other hoth
    by_cases hk : k = key
    · subst hk
      rw [setIdle_self]
      exact mem_append_left _ hoth
    · rw [setIdle_ne pool hk]
      exact hoth
  | sweep key gone hnone =>
    cases hgo : (pool.idle key).filter gone with
    | nil =>
      left
      intro k other hoth
      by_cases hk : k = key
      · subst hk
        rw [setIdle_self, mem_filter]
        refine ⟨hoth, ?_⟩
        have := filter_eq_nil_iff.mp hgo other hoth
        simpa using this
      · rw [setIdle_ne pool hk]
        exact hoth
    | cons conn conns =>
      right
      rw [hgo] at hope
      simp only [inHand, hnone, PgPool.setIdle, length_cons, length_nil] at hope ⊢
      push_cast at hope
      show _ + owned h < _
      change _ + (owned h + _) = _ at hope
      omega
  | evict key conn kept hkept hnone =>
    right
    simp only [inHand, hnone, PgPool.setIdle, length_cons, length_nil] at hope ⊢
    push_cast at hope
    show _ + owned h < _
    change _ + (owned h + _) = _ at hope
    omega
  | _ => exact .inl fun _ _ hco => hco

end

/-! ## Making room -/

def searching : Phase → Bool
  | .roomListing _ _ | .scanning _ _ _ _ => true
  | _ => false

def opening : Phase → Bool
  | .evicting _ _ _ | .connecting _ _ => true
  | p => searching p

def takesIdle : Action → Phase → Bool
  | .next _ _, .looping _ _ => true
  | _, _ => false

def checksRoom : Action → Phase → Bool
  | .next _ _, .makingRoom _ _ => true
  | _, _ => false

variable {settings : PoolSettings} {action : Action} {p p' : Phase}

theorem advance_takes (hadv : advance settings action p pool = some (p', pool'))
    (hope : opensConnection action p = false) (htak : takesIdle action p = false) :
    (hands p).own = none → (hands p').own = none := by
  intro hno
  revert hadv
  fun_cases advance settings action p pool
  case case3 now closed =>
    fun_cases advanceNext settings now closed pool p
    all_goals intro hadv
    all_goals cases hadv
    case case12 => cases htak
    all_goals first | rfl | cases hno
  all_goals intro hadv
  all_goals cases hadv
  case case11 => cases hope
  all_goals first | rfl | cases hno

theorem advance_opening (hadv : advance settings action p pool = some (p', pool'))
    (hope : opening p' = true) :
    (∃ now cl, action = .next now cl) ∧ (opening p = true ∨ checksRoom action p = true) := by
  revert hadv
  fun_cases advance settings action p pool
  case case3 now cl =>
    fun_cases advanceNext settings now cl pool p
    all_goals intro hadv
    all_goals cases hadv
    all_goals first
      | exact ⟨⟨now, cl, rfl⟩, .inl rfl⟩
      | exact ⟨⟨now, cl, rfl⟩, .inr rfl⟩
      | cases hope
  all_goals intro hadv
  all_goals cases hadv
  all_goals cases hope

/-- There is an idle connection to close: the one that was found, or one of a pool that is
still to be looked at. -/
def Found (idle : DbPoolKey → List PgConn) (rest : List DbPoolKey) : Option (DbPoolKey × Nat) → Prop
  | none => ∃ key ∈ rest, idle key ≠ []
  | some (key, lastUsed) => ∃ conn ∈ idle key, conn.lastUsed = lastUsed

variable {rest : List DbPoolKey} {oldest : Option (DbPoolKey × Nat)} {conns : List PgConn}

theorem Found.mono {idle idle' : DbPoolKey → List PgConn} (hfou : Found idle rest oldest)
    (h : ∀ key conn, conn ∈ idle key → conn ∈ idle' key) : Found idle' rest oldest := by
  cases oldest with
  | none =>
    obtain ⟨key, hkey, hne⟩ := hfou
    obtain ⟨conn, hco⟩ := exists_mem_of_ne_nil _ hne
    exact ⟨key, hkey, ne_nil_of_mem (h key conn hco)⟩
  | some best =>
    obtain ⟨conn, hco, hus⟩ := hfou
    exact ⟨conn, h _ conn hco, hus⟩

theorem oldestUse_none (h : oldestUse conns = none) : conns = [] := by
  rw [oldestUse, List.min?_eq_none_iff, map_eq_nil_iff] at h
  exact h

theorem oldestUse_some {lastUsed : Nat} (h : oldestUse conns = some lastUsed) :
    ∃ conn ∈ conns, conn.lastUsed = lastUsed :=
  mem_map.mp (List.min?_mem h)

theorem Found.look {idle : DbPoolKey → List PgConn} {key : DbPoolKey}
    (hfou : Found idle (key :: rest) oldest) :
    Found idle rest (olderOf key (oldestUse (idle key)) oldest) := by
  cases hcan : oldestUse (idle key) with
  | none =>
    rw [olderOf]
    cases oldest with
    | some best => exact hfou
    | none =>
      obtain ⟨k, hk, hne⟩ := hfou
      rcases mem_cons.mp hk with rfl | hk
      · exact absurd (oldestUse_none hcan) hne
      · exact ⟨k, hk, hne⟩
  | some lastUsed =>
    rw [olderOf]
    split_ifs with holder
    · exact oldestUse_some hcan
    · cases oldest with
      | none => exact absurd rfl holder
      | some best => exact hfou

theorem Found.evict (hfou : Found pool.idle [] oldest) : Postgres.evict pool oldest ≠ none := by
  cases oldest with
  | none =>
    obtain ⟨key, hkey, _⟩ := hfou
    cases hkey
  | some best =>
    obtain ⟨key, lastUsed⟩ := best
    obtain ⟨conn, hco, hus⟩ := hfou
    cases hind : (pool.idle key).findIdx? (·.lastUsed = lastUsed) with
    | none =>
      have := List.findIdx?_eq_none_iff.mp hind conn hco
      simp [hus] at this
    | some index =>
      obtain ⟨hlt, _⟩ := List.findIdx?_eq_some_iff_getElem.mp hind
      simp [Postgres.evict, hind, List.getElem?_eq_getElem hlt]

/-! ## One call at a time -/

section

variable {ι : Type} [Fintype ι] [DecidableEq ι] {w : PoolWorld ι} {i : ι}

/-- The connections that are idle or belong to a call. -/
def openCount (w : PoolWorld ι) : ℤ := idleTotal w.shared + inHands owned w

/-- A call looks for room only while no other is about to open a connection, and takes an
idle connection only while no other looks for one to close. -/
def OneOpening (w : PoolWorld ι) (event : ι × Action) : Prop :=
  (checksRoom event.2 (w.party event.1) = true → ∀ j, opening (w.party j) = false) ∧
    (takesIdle event.2 (w.party event.1) = true → ∀ j, searching (w.party j) = false)

/-- There is room for the connection that a call is about to open, or will be. -/
def Room (settings : PoolSettings) (w : PoolWorld ι) : Phase → Prop
  | .scanning _ _ rest oldest =>
    openCount w < settings.maxTotal ∨ Found w.shared.idle rest oldest
  | .evicting _ _ _ | .connecting _ _ => openCount w < settings.maxTotal
  | _ => True

structure Limited (settings : PoolSettings) (w : PoolWorld ι) : Prop where
  books : Books settings w
  within : openCount w ≤ settings.maxTotal
  single : ∀ i j, opening (w.party i) = true → opening (w.party j) = true → i = j
  room : ∀ i, Room settings w (w.party i)

theorem openCount_update (pool : PgPool) (p : Phase) : openCount ⟨pool, update w.party i p⟩ =
      openCount w + (idleTotal pool + owned (hands p)) -
        (idleTotal w.shared + owned (hands (w.party i))) := by
  show idleTotal pool + tally (fun p => owned (hands p)) (update w.party i p) = _
  rw [tally_update, openCount, inHands]
  ring

omit [DecidableEq ι] in
/-- A call that is about to open a connection has a permit for it, so that not every
connection that may be open is in use. -/
theorem owned_lt (hw : Books settings w) (htot : 1 ≤ settings.maxTotal)
    (hope : opening (w.party i) = true) : inHands owned w < settings.maxTotal := by
  have hone : totalHeld (hands (w.party i)) = owned (hands (w.party i)) + 1 := by
    cases hp : w.party i <;> rw [hp] at hope <;> first | rfl | cases hope
  have hspa : totalHeld (hands (w.party i)) - owned (hands (w.party i)) ≤
      tally (fun p => totalHeld (hands p) - owned (hands p)) w.party :=
    le_tally (f := fun p => totalHeld (hands p) - owned (hands p))
      (fun j => sub_nonneg.mpr (owned_le_totalHeld (w.party j))) i
  have hspl : tally (fun p => totalHeld (hands p) - owned (hands p)) w.party =
      inHands totalHeld w - inHands owned w := Finset.sum_sub_distrib ..
  have hboo := hw.total
  omega

omit [DecidableEq ι] in
theorem openCount_le (hw : Books settings w) : openCount w ≤ w.shared.openTotal := by
  have hhan : inHands owned w ≤ inHands inHand w := by
    refine tally_mono fun j => ?_
    show owned _ ≤ owned _ + _
    omega
  have hope := hw.opened
  rw [openCount]
  omega

omit [DecidableEq ι] in
theorem room_listed (hw : Limited settings w) (htot : 1 ≤ settings.maxTotal)
    (hope : opening (w.party i) = true) :
    openCount w < settings.maxTotal ∨ Found w.shared.idle w.shared.pools none := by
  by_cases hro : openCount w < settings.maxTotal
  · exact .inl hro
  · have hown := owned_lt hw.books htot hope
    have hid : idleTotal w.shared ≠ 0 := by
      rw [openCount] at hro
      omega
    obtain ⟨key, hkey, hne⟩ :
        ∃ key ∈ w.shared.pools.toFinset, ((w.shared.idle key).length : ℤ) ≠ 0 :=
      Finset.exists_ne_zero_of_sum_ne_zero hid
    refine .inr ⟨key, mem_toFinset.mp hkey, fun hnil => hne ?_⟩
    rw [hnil]
    rfl

omit [DecidableEq ι] in
theorem room_of_not_opening (h : opening p = false) : Room settings w p := by
  cases p <;> trivial

theorem openCount_step (hw : Books settings w)
    (hadv : advance settings action (w.party i) w.shared = some (p', pool')) :
    openCount ⟨pool', update w.party i p'⟩ ≤
      openCount w + (opensConnection action (w.party i)).toNat := by
  have had := (advance_effect hadv).adds hw.known (hw.registered i)
  rw [(advance_counts hadv).2] at had
  rw [openCount_update]
  omega

theorem openCount_evict (hw : Limited settings w) {oldest : Option (DbPoolKey × Nat)}
    {conn : PgConn} (hevi : evict w.shared oldest = some (conn, pool'))
    (hown : owned (hands p') = owned (hands (w.party i))) :
    openCount ⟨pool', update w.party i p'⟩ < settings.maxTotal := by
  obtain ⟨key, kept, hke, rfl⟩ := evict_spec hevi
  have hkey : key ∈ w.shared.pools := by
    refine hw.books.known key fun hnil => ?_
    rw [hnil] at hke
    cases hke.length_eq
  have hwit := hw.within
  have hlen : kept.length + 1 = (w.shared.idle key).length := hke.length_eq
  rw [openCount_update, idleTotal_setIdle hkey, hown]
  omega

theorem room_own (hw : Limited settings w) (htot : 1 ≤ settings.maxTotal)
    (hadv : advance settings action (w.party i) w.shared = some (p', pool')) :
    Room settings ⟨pool', update w.party i p'⟩ p' := by
  cases hope : opening p' with
  | false => exact room_of_not_opening hope
  | true =>
    obtain ⟨⟨now, cl, rfl⟩, hbef⟩ := advance_opening hadv hope
    have hopens : opensConnection (.next now cl) (w.party i) = false := rfl
    have hle : openCount ⟨pool', update w.party i p'⟩ ≤ openCount w := by
      have := openCount_step hw.books hadv
      simpa [hopens] using this
    have hro := hw.room i
    cases hp : w.party i with
    | makingRoom key gen =>
      have hop := openCount_le hw.books
      rw [hp, advance, advanceNext] at hadv
      split_ifs at hadv with hles <;> cases hadv
      · show openCount _ < _
        omega
      · trivial
    | roomListing key gen =>
      have hlis := room_listed (i := i) hw htot (by rw [hp]; rfl)
      rw [hp] at hadv
      cases hadv
      exact hlis.imp_left fun hles => hle.trans_lt hles
    | scanning key gen rest oldest =>
      rw [hp] at hadv hro
      cases rest with
      | cons k rest =>
        cases hadv
        exact hro.imp (fun hles => hle.trans_lt hles) Found.look
      | nil =>
        cases hevi : evict w.shared oldest with
        | none =>
          rw [advance, advanceNext, hevi] at hadv
          cases hadv
          rcases hro with hles | hfou
          · exact hle.trans_lt hles
          · exact absurd hevi hfou.evict
        | some result =>
          rw [advance, advanceNext, hevi] at hadv
          cases hadv
          refine openCount_evict hw hevi ?_
          rw [hp]
          rfl
    | evicting key gen conn =>
      rw [hp] at hadv hro
      cases hadv
      exact hle.trans_lt hro
    | connecting key gen =>
      rw [hp] at hadv
      cases hadv
    | _ =>
      rw [hp] at hbef
      rcases hbef with hbef | hbef <;> cases hbef

theorem opening_of_opensConnection (h : opensConnection action p = true) : opening p = true := by
  revert h
  fun_cases opensConnection action p
  · exact fun _ => rfl
  · exact nofun

theorem room_other (hw : Limited settings w) {j : ι} (hj : j ≠ i) (hmee : OneOpening w (i, action))
    (hadv : advance settings action (w.party i) w.shared = some (p', pool')) :
    Room settings ⟨pool', update w.party i p'⟩ (w.party j) := by
  cases hope : opening (w.party j) with
  | false => exact room_of_not_opening hope
  | true =>
    -- another call is about to open a connection, so this one is not
    have hop : opensConnection action (w.party i) = false := by
      rw [← Bool.not_eq_true]
      exact fun hop => hj (hw.single j i hope (opening_of_opensConnection hop))
    have hle : openCount ⟨pool', update w.party i p'⟩ ≤ openCount w := by
      have := openCount_step hw.books hadv
      simpa [hop] using this
    have hro := hw.room j
    cases hp : w.party j with
    | scanning key gen rest oldest =>
      rw [hp] at hro
      have htak : takesIdle action (w.party i) = false := by
        rw [← Bool.not_eq_true]
        intro htak
        have := hmee.2 htak j
        rw [hp] at this
        cases this
      have hst := (advance_effect hadv).idle_stay hw.books.known (hw.books.registered i)
        (advance_takes hadv hop htak)
      show openCount _ < _ ∨ Found pool'.idle rest oldest
      rcases hst with hst | hfew
      · exact hro.imp (fun hles => hle.trans_lt hles) fun hfou => hfou.mono hst
      · left
        have hwit := hw.within
        rw [openCount_update]
        omega
    | evicting key gen conn | connecting key gen =>
      rw [hp] at hro
      exact hle.trans_lt hro
    | _ => trivial

omit [DecidableEq ι] in
theorem room_of_opensConnection (hope : opensConnection action p = true)
    (hro : Room settings w p) : openCount w < settings.maxTotal := by
  revert hope hro
  fun_cases opensConnection action p
  · exact fun _ hro => hro
  · exact nofun

theorem single_step (hw : Limited settings w) (hmee : OneOpening w (i, action))
    (hadv : advance settings action (w.party i) w.shared = some (p', pool')) :
    ∀ j k, opening (update w.party i p' j) = true →
      opening (update w.party i p' k) = true → j = k := by
  have hnew : opening p' = true → ∀ j, opening (w.party j) = true → j = i := by
    intro hope j hj
    rcases (advance_opening hadv hope).2 with hbefore | hche
    · exact hw.single j i hj hbefore
    · exact absurd hj (by rw [hmee.1 hche j]; exact Bool.false_ne_true)
  intro j k hj hk
  by_cases hji : j = i <;> by_cases hki : k = i
  · rw [hji, hki]
  · rw [hji, update_self] at hj
    rw [update_of_ne hki] at hk
    rw [hji, hnew hj k hk]
  · rw [hki, update_self] at hk
    rw [update_of_ne hji] at hj
    rw [hki, hnew hk j hj]
  · rw [update_of_ne hji] at hj
    rw [update_of_ne hki] at hk
    exact hw.single j k hj hk

/-- **ONE CALL AT A TIME KEEPS THE LIMIT.** -/
theorem limited_step (htot : 1 ≤ settings.maxTotal) (hw : Limited settings w)
    {event : ι × Action} (hmee : OneOpening w event) :
    Limited settings (step (advance settings) w event) := by
  obtain ⟨i, action⟩ := event
  have hboo := books_step hw.books (i, action)
  cases hadv : advance settings action (w.party i) w.shared with
  | none =>
    rw [step_none hadv]
    exact hw
  | some result =>
    obtain ⟨p', pool'⟩ := result
    rw [step_some hadv] at hboo ⊢
    refine ⟨hboo, ?_, ?_, ?_⟩
    · have hle := openCount_step hw.books hadv
      have hwit := hw.within
      cases hope : opensConnection action (w.party i) with
      | false =>
        rw [hope] at hle
        exact hle.trans (by simpa using hwit)
      | true =>
        have hro := room_of_opensConnection hope (hw.room i)
        rw [hope] at hle
        exact hle.trans (by simpa using hro)
    · exact single_step hw hmee hadv
    · intro j
      show Room settings _ (update w.party i p' j)
      by_cases hj : j = i
      · subst hj
        rw [update_self]
        exact room_own hw htot hadv
      · rw [update_of_ne hj]
        exact room_other hw hj hmee hadv

omit [DecidableEq ι] in
theorem limited_initial (now : Nat) :
    Limited settings (PoolWorld.initial settings now : PoolWorld ι) where
  books := books_initial now
  within := by
    rw [openCount, inHands_initial rfl]
    exact Int.natCast_nonneg _
  single _ _ h := nomatch h
  room _ := trivial

/-- **THE LIMITS OF THE POOL.** In every state of every run the limits on connections in use
hold, and the limit on open connections if one call at a time opened them. -/
theorem pool_limits (settings : PoolSettings) (hper : 1 ≤ settings.maxPerPool)
    (htotal : 1 ≤ settings.maxTotal) (now : Nat) (events : List (ι × Action)) :
    let w := Run.run (step (advance settings)) (PoolWorld.initial settings now) events
    (∀ key, inHands (ownedOf key) w ≤ settings.maxPerPool) ∧ inHands owned w ≤ settings.maxTotal ∧
      (Run.Along (step (advance settings)) OneOpening (PoolWorld.initial settings now) events →
        openCount w ≤ settings.maxTotal) := by
  intro w
  have hboo : Books settings w := books settings now events
  obtain ⟨hke, hall⟩ := checked_out_limits hboo
  refine ⟨fun key => ?_, ?_, fun hone => ?_⟩
  · have := hke key
    omega
  · omega
  · have hst : ∀ (w : PoolWorld ι) event, Limited settings w → OneOpening w event →
        Limited settings (step (advance settings) w event) :=
      fun w event hw hmee => limited_step htotal hw hmee
    exact (Run.invariant hst (limited_initial now) hone).within

instance (w : PoolWorld ι) (event : ι × Action) : Decidable (OneOpening w event) :=
  inferInstanceAs (Decidable ((_ → _) ∧ (_ → _)))

end

def twoInAll : PoolSettings := { PoolSettings.default with maxPerPool := 1, maxTotal := 2 }

/-- A call of `get` up to where it opens a connection. -/
def untilConnecting {n : Nat} (i : Fin n) (key : String) : List (Fin n × Action) :=
  (i, .get ⟨key⟩ 0 true) :: List.replicate 7 (i, .next 0 fun _ => false)

def openedAndReturned {n : Nat} (i : Fin n) (key : String) : List (Fin n × Action) :=
  untilConnecting i key ++ [(i, .connected 0), (i, .drop)] ++
    List.replicate 4 (i, .next 0 fun _ => false)

/-- One connection is idle; the other caller opens the second one, and only then the first
one takes the idle one again. -/
theorem pool_limits_two :
    openCount (Run.run (step (advance twoInAll)) (PoolWorld.initial twoInAll 0)
      (openedAndReturned (0 : Fin 2) "a" ++ untilConnecting 1 "b" ++ [(0, .get ⟨"a"⟩ 0 true),
        (1, .connected 0)] ++ List.replicate 7 (0, .next 0 fun _ => false))) ≤ 2 :=
  (pool_limits twoInAll (by decide) (by decide) 0 _).2.2 (by decide +kernel)

/-- Two calls find room for one connection, and both open one. -/
def twoChecks : List (Fin 2 × Action) :=
  openedAndReturned 0 "a" ++ untilConnecting 0 "b" ++ untilConnecting 1 "c" ++
    [(0, .connected 0), (1, .connected 0)]

/-- One connection is idle and two are in use: three, of two in all. -/
theorem two_checks_open_three :
    let w := Run.run (step (advance twoInAll)) (PoolWorld.initial twoInAll 0) twoChecks
    idleTotal w.shared = 1 ∧ inHands owned w = 2 ∧ ¬ openCount w ≤ twoInAll.maxTotal := by
  refine ⟨by decide +kernel, by decide +kernel, by decide +kernel⟩

/-! ## No deadlock -/

/-- What can only fail or be dropped waits for a permit. -/
theorem stuck_cases {settings : PoolSettings} {p : Phase} {pool : PgPool} (hp : p ≠ .finished)
    (h : ∀ action, action ≠ .fails → action ≠ .cancel → advance settings action p pool = none) :
    (∃ key, p = .waitingKey key ∧ pool.keyPermits key = 0) ∨
      ∃ key, p = .waitingTotal key ∧ pool.totalPermits = 0 := by
  have hnext : advanceNext settings 0 (fun _ => false) pool p = none :=
    h (.next ..) (by simp) (by simp)
  cases p with
  | finished => exact absurd rfl hp
  | waitingKey key =>
    refine .inl ⟨key, rfl, Nat.eq_zero_of_not_pos fun hpos => ?_⟩
    cases (if_pos hpos).symm.trans hnext
  | waitingTotal key =>
    refine .inr ⟨key, rfl, Nat.eq_zero_of_not_pos fun hpos => ?_⟩
    cases (if_pos hpos).symm.trans hnext
  | pinging => cases h .pinged (by simp) (by simp)
  | connecting => cases h (.connected 0) (by simp) (by simp)
  | holding => cases h .drop (by simp) (by simp)
  | sweeping key rest conns => cases conns <;> cases rest <;> cases hnext
  | dropping key conn => cases conn <;> cases hnext
  | scanning key generation rest oldest =>
    cases rest with
    | cons k rest => cases hnext
    | nil =>
      rw [advanceNext] at hnext
      split at hnext <;> cases hnext
  | looping | examining | makingRoom | returning =>
    rw [advanceNext] at hnext
    repeat' split at hnext
    all_goals cases hnext
  | _ => cases hnext

variable {ι : Type} [Fintype ι] [DecidableEq ι]

omit [DecidableEq ι] in
theorem inHands_unfinished {f : Hands → ℤ} {w : PoolWorld ι} (hf : f .empty = 0)
    (h : ∀ i, w.party i ≠ .finished → f (hands (w.party i)) = 0) : inHands f w = 0 := by
  refine Finset.sum_eq_zero fun i _ => ?_
  by_cases hi : w.party i = .finished
  · rw [hi]
    exact hf
  · exact h i hi

/-- **NO DEADLOCK.**  A call waits for one of all permits while it has one of its key, but
none waits for its key's with one of all: as long as a call is not finished, one of them
can go on without a failure and without being dropped. -/
theorem pool_never_stuck (settings : PoolSettings) (now : Nat) (events : List (ι × Action)) (i : ι)
    (hbusy : (Run.run (step (advance settings)) (PoolWorld.initial settings now) events).party i ≠
      .finished) :
    let w := Run.run (step (advance settings)) (PoolWorld.initial settings now) events
    ∃ j action next, w.party j ≠ .finished ∧ action ≠ .fails ∧ action ≠ .cancel ∧
      advance settings action (w.party j) w.shared = some next := by
  intro w
  have hboo : Books settings w := books settings now events
  by_contra hno
  have hstu : ∀ j, w.party j ≠ .finished → _ := fun j hj => stuck_cases hj fun action hf hc =>
    Option.eq_none_iff_forall_ne_some.mpr fun next hadv => hno ⟨j, action, next, hj, hf, hc, hadv⟩
  -- nobody has one of all permits, so nobody waits for one
  have hwai : ∀ j, w.party j ≠ .finished →
      ∃ key, w.party j = .waitingKey key ∧ w.shared.keyPermits key = 0 := by
    intro j hj
    refine (hstu j hj).resolve_right ?_
    rintro ⟨_, -, hze⟩
    have htot := hboo.total
    rw [inHands_unfinished rfl fun k hk => ?_] at htot
    · omega
    · rcases hstu k hk with ⟨key, heq, -⟩ | ⟨key, heq, -⟩ <;> rw [heq] <;> rfl
  obtain ⟨key, -, hze⟩ := hwai i hbusy
  have hkey := hboo.key key
  rw [inHands_unfinished rfl fun k hk => ?_] at hkey
  · omega
  · obtain ⟨_, heq, -⟩ := hwai k hk
    rw [heq]
    rfl

/-- The second call waits for the permit that the first one has. -/
theorem pool_never_stuck_waiting :
    let w := Run.run (step (advance twoInAll)) (PoolWorld.initial twoInAll 0)
      (untilConnecting (0 : Fin 2) "a" ++ untilConnecting 1 "a")
    ∃ j action next, w.party j ≠ .finished ∧ action ≠ .fails ∧ action ≠ .cancel ∧
      advance twoInAll action (w.party j) w.shared = some next :=
  pool_never_stuck twoInAll 0 _ 0 (ne_of_apply_ne (totalHeld ∘ hands) (by decide +kernel))

end Fenrir.Postgres
