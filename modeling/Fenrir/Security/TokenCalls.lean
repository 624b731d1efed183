import Fenrir.Security.ServiceTokens
import Fenrir.Lib.Parties

/-! # Concurrent calls on the token store

`security/service_tokens.rs` between threads. Each call is cut at every reading of a clock,
at the load and the swap of `next_cleanup_ns`, and at every time the lock is taken. Under
the read lock the verdict and the `touch` are two steps, since other readers run there too. -/

namespace Fenrir

open List Function Option

open ServiceTokenStore (verdict cleanupIfNeeded validateWith)

open Prod (fst)

/-- `validate` or `validate_for_refresh`. -/
inductive TokenCheckKind where
  | strict | refresh
  deriving DecidableEq

/-- One call of `validate_with`: its reading of the clock, and the tokens whose revocation
had returned when it started. -/
structure TokenCheck where
  kind : TokenCheckKind
  token : String
  now : Int
  revokedBefore : List String
  deriving DecidableEq

inductive TokenPhase where
  | idle
  /-- `issue`, before the write lock. -/
  | issuing (request : DelegatedTokenRequest) (token tokenId : String) (now : Int)
  /-- `revoke`, before the write lock. -/
  | revoking (token : String)
  /-- The clock is read, `cleanup_if_needed` comes next. -/
  | cleaning (check : TokenCheck)
  /-- A sweep was due at `due`; the swap comes next. -/
  | swapping (check : TokenCheck) (due next : Int)
  /-- The swap is won, the write lock of the sweep comes next. -/
  | sweeping (check : TokenCheck)
  /-- Before the read lock. -/
  | reading (check : TokenCheck)
  /-- Under the read lock, with a verdict `Valid`. -/
  | touching (check : TokenCheck) (claims : DelegatedTokenClaims)
  /-- The read lock is released; the write lock of the second check comes next. -/
  | rechecking (check : TokenCheck)
  | accepted (check : TokenCheck) (claims : DelegatedTokenClaims)
  | refused (check : TokenCheck) (err : ServiceTokenError)
  deriving DecidableEq

def TokenPhase.ready : TokenPhase → Bool
  | .idle | .accepted _ _ | .refused _ _ => true
  | _ => false

structure TokenShared where
  store : ServiceTokenStore
  /-- Holders of the read lock. -/
  readers : Nat
  /-- The latest reading of the clock. -/
  clock : Int
  /-- What `generate_token` has returned so far. -/
  drawn : List String
  /-- What `issue` has put into the store. -/
  issued : List (String × DelegatedTokenClaims)
  /-- The issued tokens that a `revoke` has removed. -/
  revoked : List String

inductive TokenAction where
  | issue (request : DelegatedTokenRequest) (token tokenId : String) (now : Int)
  | revoke (token : String)
  | validate (kind : TokenCheckKind) (token : String) (now : Int)
  /-- The next step of the call the caller is in; `elapsed` is what it reads from the
      store's epoch if it does. -/
  | next (elapsed : Int)

namespace ServiceTokenStore

section

variable (self : ServiceTokenStore)

def new (lifetime idleTimeout refreshGrace cleanupInterval : Int) : ServiceTokenStore :=
  { lifetime
    idleTimeout
    refreshGrace
    cleanupInterval
    tokens := ∅
    nextCleanup := cleanupInterval
    poisoned := false }

def limits : TokenCheckKind → Limits
  | .strict => self.lifetimeLimits
  | .refresh => self.refreshLimits

/-- The `retain` of `cleanup_if_needed`. -/
def sweep (now : Int) : ServiceTokenStore :=
  { self with tokens := self.tokens.filter fun _ e => self.sweepKeeps now e }

/-- `touch` of the token's entry. -/
def touch (self : ServiceTokenStore) (token : String) (now : Int) : ServiceTokenStore :=
  match self.tokens[token]? with
  | none => self
  | some entry => { self with tokens := self.tokens.insert token (entry.touch now) }

def remove (token : String) : ServiceTokenStore :=
  { self with tokens := self.tokens.erase token }

end

end ServiceTokenStore

namespace TokenShared

/-- `issue` under the write lock. -/
def insert (s : TokenShared) (request : DelegatedTokenRequest) (token tokenId : String)
    (now : Int) : TokenShared :=
  match s.store.issue request token tokenId now with
  | (.error _, store) => { s with store }
  | (.ok delegated, store) =>
    { s with store, issued := (token, delegated.claims) :: s.issued }

/-- `revoke` under the write lock. -/
def revoke (s : TokenShared) (token : String) : TokenShared :=
  match s.store.revoke token with
  | (.error _, store) => { s with store }
  | (.ok (), store) =>
    { s with
      store
      revoked := if token ∈ s.issued.map fst then token :: s.revoked else s.revoked }

end TokenShared

open ServiceTokenStore in
/-- The first look at the entry, under the read lock; a `Valid` one keeps the lock. -/
def readToken (check : TokenCheck) (s : TokenShared) : TokenPhase × TokenShared :=
  if s.store.poisoned then (.refused check lockPoisoned, s)
  else
    match s.store.tokens[check.token]? with
    | none => (.refused check .notFound, s)
    | some entry =>
      match verdict entry check.now (s.store.limits check.kind) with
      | .valid => (.touching check entry.claims, { s with readers := s.readers + 1 })
      | .expired => (.rechecking check, s)
      | .idle => (.rechecking check, s)

open ServiceTokenStore in
/-- The second look, under the write lock. -/
def recheckToken (check : TokenCheck) (s : TokenShared) : TokenPhase × TokenShared :=
  if s.store.poisoned then (.refused check lockPoisoned, s)
  else
    match s.store.tokens[check.token]? with
    | none => (.refused check .notFound, s)
    | some entry =>
      match verdict entry check.now (s.store.limits check.kind) with
      | .valid =>
        (.accepted check entry.claims, { s with store := s.store.touch check.token check.now })
      | .expired => (.refused check .expired, { s with store := s.store.remove check.token })
      | .idle => (.refused check .idleTimeout, { s with store := s.store.remove check.token })

open ServiceTokenStore in
/-- The sweep, under the write lock. -/
def sweepTokens (check : TokenCheck) (s : TokenShared) : TokenPhase × TokenShared :=
  if s.store.poisoned then (.refused check lockPoisoned, s)
  else (.reading check, { s with store := s.store.sweep check.now })

/-- The next step of a call. The write lock is had only when nobody reads. -/
def nextToken (elapsed : Int) : TokenPhase → TokenShared → Option (TokenPhase × TokenShared)
  | .issuing request token tokenId now, s =>
    if s.readers = 0 then some (.idle, s.insert request token tokenId now) else none
  | .revoking token, s => if s.readers = 0 then some (.idle, s.revoke token) else none
  | .cleaning check, s =>
    if elapsed < s.store.nextCleanup then some (.reading check, s)
    else
      some (.swapping check s.store.nextCleanup (elapsed + s.store.cleanupInterval), s)
  | .swapping check due next, s =>
    if s.store.nextCleanup = due then
      some (.sweeping check, { s with store := { s.store with nextCleanup := next } })
    else some (.reading check, s) -- another caller won this interval's sweep
  | .sweeping check, s => if s.readers = 0 then some (sweepTokens check s) else none
  | .reading check, s => some (readToken check s)
  | .touching check claims, s =>
    some (.accepted check claims,
      { s with store := s.store.touch check.token check.now, readers := s.readers - 1 })
  | .rechecking check, s => if s.readers = 0 then some (recheckToken check s) else none
  | _, _ => none

/-- A step of a caller. The clock is never read to an earlier time than before, and no
token is drawn twice. -/
def advanceToken : TokenAction → TokenPhase → TokenShared → Option (TokenPhase × TokenShared)
  | .issue request token tokenId now, p, s =>
    if p.ready ∧ s.clock ≤ now ∧ token ∉ s.drawn then
      some (.issuing request token tokenId now, { s with clock := now, drawn := token :: s.drawn })
    else none
  | .revoke token, p, s => if p.ready then some (.revoking token, s) else none
  | .validate kind token now, p, s =>
    if p.ready ∧ s.clock ≤ now then
      some (.cleaning ⟨kind, token, now, s.revoked⟩, { s with clock := now })
    else none
  | .next elapsed, p, s => nextToken elapsed p s

abbrev TokenWorld (ι : Type) := Parties.World ι TokenShared TokenPhase

def TokenWorld.start (ι : Type) (store : ServiceTokenStore) (now : Int) : TokenWorld ι :=
  ⟨{ store, readers := 0, clock := now, drawn := [], issued := [], revoked := [] }, fun _ => .idle⟩

/-! ## One call alone -/

namespace ServiceTokenStore

variable {entry : ServiceTokenEntry} {now : Int} {limits : Limits}

theorem verdict_valid_iff : verdict entry now limits = .valid ↔
    now < entry.claims.expiresAt + limits.expiryGrace ∧ now - entry.lastActivity ≤ limits.idle := by
  fun_cases verdict entry now limits
  case case3 => exact ⟨fun _ => by omega, fun _ => rfl⟩
  all_goals exact ⟨nofun, fun h => by omega⟩

theorem sweepKeeps_iff (self : ServiceTokenStore) (now : Int) (entry : ServiceTokenEntry) :
    self.sweepKeeps now entry = true ↔ verdict entry now self.refreshLimits = .valid := by
  rw [sweepKeeps, verdict_valid_iff, refreshLimits]
  dsimp only
  split
  · exact ⟨nofun, fun h => by omega⟩
  · rw [decide_eq_true_eq]
    omega

theorem verdict_valid_of_le {later : Int} (hle : now ≤ later)
    (h : verdict entry later limits = .valid) : verdict entry now limits = .valid := by
  rw [verdict_valid_iff] at h ⊢
  omega

theorem verdict_valid_lt (h : verdict entry now limits = .valid) :
    now < entry.claims.expiresAt + limits.expiryGrace := (verdict_valid_iff.mp h).1

theorem touch_of_get {self : ServiceTokenStore} {token : String}
    (h : self.tokens[token]? = some entry) (now : Int) :
    self.touch token now = { self with tokens := self.tokens.insert token (entry.touch now) } := by
  rw [touch, h]

end ServiceTokenStore

variable {s s' : TokenShared} {elapsed : Int} {p p' : TokenPhase}

/-! ## What holds between calls -/

/-- What one store has of another: the same settings, and no entry of its own. -/
structure ServiceTokenStore.Under (store store' : ServiceTokenStore) : Prop where
  grace : store'.refreshGrace = store.refreshGrace
  entries : ∀ (token : String) (entry' : ServiceTokenEntry), store'.tokens[token]? = some entry' →
      ∃ entry : ServiceTokenEntry, store.tokens[token]? = some entry ∧ entry.claims = entry'.claims

namespace ServiceTokenStore

theorem under_sweep (self : ServiceTokenStore) (now : Int) : self.Under (self.sweep now) := by
  refine ⟨rfl, ?_⟩
  intro token entry' h
  rw [sweep, Std.ExtTreeMap.getElem?_filter, pfilter_eq_filter] at h
  obtain ⟨hget, -⟩ := Option.filter_eq_some_iff.mp h
  exact ⟨entry', hget, rfl⟩

theorem under_remove (self : ServiceTokenStore) (token : String) :
    self.Under (self.remove token) := by
  exact ⟨rfl, fun t entry' h => ⟨entry', BTreeMap.get_of_erase h, rfl⟩⟩

theorem under_touch (self : ServiceTokenStore) (token : String) (now : Int) :
    self.Under (self.touch token now) := by
  cases hget : self.tokens[token]? with
  | none =>
    rw [touch, hget]
    exact ⟨rfl, fun t entry' h => ⟨entry', h, rfl⟩⟩
  | some entry =>
    rw [touch_of_get hget]
    exact ⟨rfl, BTreeMap.forall_insert ⟨entry, hget, rfl⟩ fun t entry' h => ⟨entry', h, rfl⟩⟩

end ServiceTokenStore

/-- The entries are what was issued, drawn tokens only, and nothing that was revoked. -/
structure TokenShared.Fine (s : TokenShared) : Prop where
  entries : ∀ (token : String) (entry : ServiceTokenEntry), s.store.tokens[token]? = some entry →
    (token, entry.claims) ∈ s.issued
  drawn : ∀ token claims, (token, claims) ∈ s.issued → token ∈ s.drawn
  gone : ∀ token ∈ s.revoked, token ∈ s.issued.map fst ∧ s.store.tokens[token]? = none

/-- What an accepted token is: not revoked before the call started, issued with these
claims, and within its expiry by the call's reading of the clock. -/
structure TokenCheck.Accepts (check : TokenCheck) (s : TokenShared)
    (claims : DelegatedTokenClaims) : Prop where
  unrevoked : check.token ∉ check.revokedBefore
  issued : (check.token, claims) ∈ s.issued
  current : check.now < claims.expiresAt + (s.store.limits check.kind).expiryGrace

/-- What a caller knows. -/
def TokenPhase.Fine (s : TokenShared) : TokenPhase → Prop
  | .issuing _ token _ _ => token ∈ s.drawn ∧ token ∉ s.issued.map fst
  | .cleaning check => check.revokedBefore ⊆ s.revoked
  | .swapping check _ _ => check.revokedBefore ⊆ s.revoked
  | .sweeping check => check.revokedBefore ⊆ s.revoked
  | .reading check => check.revokedBefore ⊆ s.revoked
  | .rechecking check => check.revokedBefore ⊆ s.revoked
  | .touching check claims => check.Accepts s claims
  | .accepted check claims => check.Accepts s claims
  | _ => True

def TokenPhase.pending : TokenPhase → Option String
  | .issuing _ token _ _ => some token
  | _ => none

structure TokenShared.Grows (s s' : TokenShared) : Prop where
  grace : s'.store.refreshGrace = s.store.refreshGrace
  drawn : s.drawn ⊆ s'.drawn
  issued : s.issued ⊆ s'.issued
  revoked : s.revoked ⊆ s'.revoked

theorem TokenShared.Grows.refl (s : TokenShared) : s.Grows s :=
  ⟨rfl, List.Subset.refl _, List.Subset.refl _, List.Subset.refl _⟩

theorem ServiceTokenStore.limits_grace {store store' : ServiceTokenStore}
    (h : store'.refreshGrace = store.refreshGrace) (kind : TokenCheckKind) :
    (store'.limits kind).expiryGrace = (store.limits kind).expiryGrace := by
  cases kind with
  | strict => rfl
  | refresh => exact h

theorem TokenCheck.Accepts.grow {check : TokenCheck} {claims : DelegatedTokenClaims}
    (h : check.Accepts s claims) (hgro : s.Grows s') : check.Accepts s' claims := by
  refine ⟨h.unrevoked, hgro.issued h.issued, ?_⟩
  rw [ServiceTokenStore.limits_grace hgro.grace]
  exact h.current

/-- What a caller knows stays true while others step, as long as nobody inserts the token
it is about to insert. -/
theorem TokenPhase.Fine.grow (h : p.Fine s) (hgro : s.Grows s')
    (hpen : ∀ token ∈ p.pending, token ∈ s'.issued.map fst →
      token ∈ s.issued.map fst) : p.Fine s' := by
  cases p with
  | issuing request token tokenId now =>
    exact ⟨hgro.drawn h.1, fun hin => h.2 (hpen token rfl hin)⟩
  | cleaning check | swapping check due next | sweeping check =>
    exact List.Subset.trans h hgro.revoked
  | reading check | rechecking check => exact List.Subset.trans h hgro.revoked
  | touching check claims | accepted check claims => exact TokenCheck.Accepts.grow h hgro
  | idle | revoking token | refused check err => trivial

/-- A step that adds nothing to the store or to its history. -/
structure TokenShared.Shrinks (s s' : TokenShared) : Prop where
  store : s.store.Under s'.store
  drawn : s'.drawn = s.drawn
  issued : s'.issued = s.issued
  revoked : s'.revoked = s.revoked

theorem TokenShared.Shrinks.grows (h : s.Shrinks s') : s.Grows s' :=
  ⟨h.store.grace, h.drawn ▸ List.Subset.refl _, h.issued ▸ List.Subset.refl _,
    h.revoked ▸ List.Subset.refl _⟩

theorem TokenShared.Shrinks.fine (h : s.Shrinks s') (hs : s.Fine) : s'.Fine := by
  refine ⟨?_, ?_, ?_⟩
  · intro token entry' hget
    obtain ⟨entry, hent, hcla⟩ := h.store.entries token entry' hget
    rw [h.issued, ← hcla]
    exact hs.entries token entry hent
  · intro token claims hin
    rw [h.issued] at hin
    rw [h.drawn]
    exact hs.drawn token claims hin
  · intro token hrev
    rw [h.revoked] at hrev
    obtain ⟨hiss, hgo⟩ := hs.gone token hrev
    refine ⟨h.issued ▸ hiss, ?_⟩
    cases hget : s'.store.tokens[token]? with
    | none => rfl
    | some entry' =>
      obtain ⟨entry, hent, -⟩ := h.store.entries token entry' hget
      rw [hgo] at hent
      cases hent

inductive TokenMove (s : TokenShared) : TokenPhase → TokenPhase → TokenShared → Prop where
  | draw {p : TokenPhase} (request : DelegatedTokenRequest) (token tokenId : String) (now : Int)
      (hfresh : token ∉ s.drawn) :
      TokenMove s p (.issuing request token tokenId now)
        { s with clock := now, drawn := token :: s.drawn }
  | insert (request : DelegatedTokenRequest) (token tokenId : String) (now : Int) :
      TokenMove s (.issuing request token tokenId now) .idle (s.insert request token tokenId now)
  | revoke (token : String) : TokenMove s (.revoking token) .idle (s.revoke token)
  | quiet {p p' : TokenPhase} {s' : TokenShared} (hshrinks : s.Shrinks s')
      (hpending : p'.pending = none) (hfine : s.Fine → p.Fine s → p'.Fine s') :
      TokenMove s p p' s'

theorem accepts_of_valid {check : TokenCheck} {entry : ServiceTokenEntry} (hs : s.Fine)
    (hbef : check.revokedBefore ⊆ s.revoked) (hget : s.store.tokens[check.token]? = some entry)
    (hval : verdict entry check.now (s.store.limits check.kind) = .valid) :
    check.Accepts s entry.claims := by
  refine ⟨?_, hs.entries _ _ hget, ServiceTokenStore.verdict_valid_lt hval⟩
  intro hrev
  obtain ⟨-, hgo⟩ := hs.gone _ (hbef hrev)
  rw [hgo] at hget
  cases hget

theorem quiet_refused (check : TokenCheck) (err : ServiceTokenError) (hshr : s.Shrinks s') :
    TokenMove s p (.refused check err) s' :=
  .quiet hshr rfl fun _ _ => trivial

theorem TokenShared.Shrinks.of_store {store : ServiceTokenStore} (h : s.store.Under store)
    (readers : Nat) : s.Shrinks { s with store, readers } :=
  ⟨h, rfl, rfl, rfl⟩

theorem ServiceTokenStore.under_due (self : ServiceTokenStore) (next : Int) :
    self.Under { self with nextCleanup := next } :=
  ⟨rfl, fun _ entry h => ⟨entry, h, rfl⟩⟩

theorem ServiceTokenStore.Under.refl (store : ServiceTokenStore) : store.Under store :=
  store.under_due store.nextCleanup

theorem TokenShared.Shrinks.refl (s : TokenShared) : s.Shrinks s :=
  .of_store (.refl s.store) s.readers

theorem readToken_move (check : TokenCheck) (s : TokenShared) :
    TokenMove s (.reading check) (readToken check s).1 (readToken check s).2 := by
  fun_cases readToken check s
  case case1 | case2 => exact quiet_refused check _ (.refl s)
  case case3 entry hget hvalid =>
    refine .quiet (.of_store (.refl s.store) _) rfl ?_
    intro hs hbef
    exact (accepts_of_valid hs hbef hget hvalid).grow
      (TokenShared.Shrinks.of_store (.refl s.store) _).grows
  case case4 | case5 => exact .quiet (.refl s) rfl fun _ h => h

theorem recheckToken_move (check : TokenCheck) (s : TokenShared) :
    TokenMove s (.rechecking check) (recheckToken check s).1 (recheckToken check s).2 := by
  fun_cases recheckToken check s
  case case1 | case2 => exact quiet_refused check _ (.refl s)
  case case3 entry hget hvalid =>
    have hshr := TokenShared.Shrinks.of_store (s.store.under_touch check.token check.now) s.readers
    refine .quiet hshr rfl ?_
    intro hs hbef
    exact (accepts_of_valid hs hbef hget hvalid).grow hshr.grows
  case case4 | case5 => exact quiet_refused check _ (.of_store (s.store.under_remove _) _)

theorem sweepTokens_move (check : TokenCheck) (s : TokenShared) :
    TokenMove s (.sweeping check) (sweepTokens check s).1 (sweepTokens check s).2 := by
  fun_cases sweepTokens check s
  case case1 => exact quiet_refused check _ (.refl s)
  case case2 => exact .quiet (.of_store (s.store.under_sweep _) _) rfl fun _ h => h

theorem nextToken_move (h : nextToken elapsed p s = some (p', s')) : TokenMove s p p' s' := by
  revert h
  fun_cases nextToken elapsed p s
  all_goals intro h
  all_goals first
    | obtain ⟨rfl, rfl⟩ := Prod.mk.inj (some.inj h)
    | cases h
  case case1 => exact .insert _ _ _ _
  case case3 => exact .revoke _
  case case5 | case6 => exact .quiet (.refl s) rfl fun _ hbef => hbef
  case case7 => exact .quiet (.of_store (s.store.under_due _) _) rfl fun _ hbef => hbef
  case case8 => exact .quiet (.refl s) rfl fun _ hbef => hbef
  case case9 check _ => exact sweepTokens_move check s
  case case11 check => exact readToken_move check s
  case case12 check claims =>
    have hshr := TokenShared.Shrinks.of_store (s.store.under_touch check.token check.now)
      (s.readers - 1)
    exact .quiet hshr rfl fun _ hacc => TokenCheck.Accepts.grow hacc hshr.grows
  case case13 check _ => exact recheckToken_move check s

/-- **EVERY STEP** draws a token, inserts one, revokes one, or adds nothing. -/
theorem advanceToken_move {a : TokenAction} (h : advanceToken a p s = some (p', s')) :
    TokenMove s p p' s' := by
  revert h
  fun_cases advanceToken a p s
  case case7 elapsed => exact nextToken_move
  all_goals intro h
  all_goals first
    | obtain ⟨rfl, rfl⟩ := Prod.mk.inj (some.inj h)
    | cases h
  case case1 hready => exact .draw _ _ _ _ hready.2.2
  case case3 => exact .quiet (.refl s) rfl fun _ _ => trivial
  case case5 => exact .quiet ⟨.refl s.store, rfl, rfl, rfl⟩ rfl fun _ _ => List.Subset.refl _

/-! ## Every run -/

namespace TokenShared

theorem insert_cases (s : TokenShared) (request : DelegatedTokenRequest) (token tokenId : String)
    (now : Int) :
    s.insert request token tokenId now = s ∨
    ∃ claims, s.insert request token tokenId now =
      { s with
        store := { s.store with tokens := s.store.tokens.insert token ⟨claims, now⟩ }
        issued := (token, claims) :: s.issued } := by
  rw [insert, ServiceTokenStore.issue]
  dsimp only
  split
  · rename_i herr
    split at herr
    · obtain ⟨-, rfl⟩ := Prod.mk.inj herr
      exact .inl rfl
    · cases herr
  · rename_i hok
    split at hok
    · cases hok
    · cases hok
      exact .inr ⟨_, rfl⟩

theorem revoke_cases (s : TokenShared) (token : String) : s.revoke token = s ∨ s.revoke token =
      { s with
        store := s.store.remove token
        revoked := if token ∈ s.issued.map fst then token :: s.revoked else s.revoked } := by
  rw [revoke, ServiceTokenStore.revoke]
  by_cases hpoi : s.store.poisoned = true
  · rw [if_pos hpoi]
    exact .inl rfl
  · rw [if_neg hpoi]
    exact .inr rfl

variable {s : TokenShared} {request : DelegatedTokenRequest} {token tokenId : String}

theorem insert_issued {t : String} {now : Int}
    (h : t ∈ (s.insert request token tokenId now).issued.map fst) :
    t = token ∨ t ∈ s.issued.map fst := by
  obtain hsame | ⟨claims, hins⟩ := s.insert_cases request token tokenId now
  · exact .inr (hsame ▸ h)
  · rw [hins] at h
    exact mem_cons.mp h

theorem insert_grows (s : TokenShared) (request : DelegatedTokenRequest) (token tokenId : String)
    (now : Int) : s.Grows (s.insert request token tokenId now) := by
  obtain hsame | ⟨claims, hins⟩ := s.insert_cases request token tokenId now
  · rw [hsame]
    exact .refl s
  · rw [hins]
    exact ⟨rfl, List.Subset.refl _, subset_cons_self _ _, List.Subset.refl _⟩

theorem Fine.insert (hs : s.Fine) {now : Int} (hdra : token ∈ s.drawn)
    (hnew : token ∉ s.issued.map fst) : (s.insert request token tokenId now).Fine := by
  obtain hsame | ⟨claims, hins⟩ := s.insert_cases request token tokenId now
  · rw [hsame]
    exact hs
  · rw [hins]
    refine ⟨?_, ?_, ?_⟩
    · exact BTreeMap.forall_insert mem_cons_self fun t entry hget =>
        mem_cons_of_mem _ (hs.entries t entry hget)
    · intro t claims' hin
      rcases mem_cons.mp hin with heq | hin
      · rw [(Prod.mk.inj heq).1]
        exact hdra
      · exact hs.drawn t claims' hin
    · intro t hrev
      obtain ⟨hiss, hgo⟩ := hs.gone t hrev
      refine ⟨mem_cons_of_mem _ hiss, ?_⟩
      rw [BTreeMap.get_insert, if_neg]
      · exact hgo
      · intro ht
        exact hnew (ht ▸ hiss)

theorem revoke_issued (s : TokenShared) (token : String) : (s.revoke token).issued = s.issued := by
  rcases s.revoke_cases token with hsame | hrev
  · rw [hsame]
  · rw [hrev]

theorem revoke_grows (s : TokenShared) (token : String) : s.Grows (s.revoke token) := by
  rcases s.revoke_cases token with hsame | hrev
  · rw [hsame]
    exact .refl s
  · rw [hrev]
    refine ⟨rfl, List.Subset.refl _, List.Subset.refl _, ?_⟩
    dsimp only
    split
    · exact subset_cons_self _ _
    · exact List.Subset.refl _

theorem Fine.revoke (hs : s.Fine) (token : String) : (s.revoke token).Fine := by
  rcases s.revoke_cases token with hsame | hrev
  · rw [hsame]
    exact hs
  · -- the entry goes first; only then does the token count as revoked
    have hrem : ({ s with store := s.store.remove token } : TokenShared).Fine :=
      (Shrinks.of_store (s.store.under_remove token) s.readers).fine hs
    rw [hrev]
    refine ⟨hrem.entries, hrem.drawn, ?_⟩
    intro t hre
    dsimp only at hre
    split at hre
    · rename_i hiss
      rcases mem_cons.mp hre with rfl | hbef
      · refine ⟨hiss, ?_⟩
        show (s.store.tokens.erase t)[t]? = none
        rw [BTreeMap.get_erase, if_pos rfl]
      · exact hrem.gone t hbef
    · exact hrem.gone t hre

end TokenShared

section

variable {ι : Type} [DecidableEq ι]

structure TokensSound (w : TokenWorld ι) : Prop where
  store : w.shared.Fine
  callers : ∀ i, (w.party i).Fine w.shared
  pending : ∀ i j token, token ∈ (w.party i).pending → token ∈ (w.party j).pending → i = j

omit [DecidableEq ι] in
theorem sound_start (store : ServiceTokenStore) (hemp : store.tokens = ∅) (now : Int) :
    TokensSound (TokenWorld.start ι store now) := by
  refine ⟨⟨?_, ?_, ?_⟩, fun _ => trivial, ?_⟩
  · intro token entry hget
    rw [TokenWorld.start, hemp] at hget
    simp at hget
  · intro token claims hin
    cases hin
  · intro token hin
    cases hin
  · intro i j token hi
    cases hi

variable {w : TokenWorld ι} {i : ι} {p p' : TokenPhase} {s s' : TokenShared} {token : String}

/-- A step whose caller ends with nothing pending, and that adds to what is issued at most
what it had pending. -/
theorem sound_update (h : TokensSound w) (hsto : s'.Fine) (hown : p'.Fine s')
    (hgro : w.shared.Grows s') (hpen : p'.pending = none) (hiss : ∀ t ∈ s'.issued.map fst,
      t ∈ (w.party i).pending ∨ t ∈ w.shared.issued.map fst) :
    TokensSound (⟨s', update w.party i p'⟩ : TokenWorld ι) := by
  have hnot : ∀ token, token ∉ (update w.party i p' i).pending := by
    intro token
    rw [update_self, hpen]
    exact nofun
  refine ⟨hsto, ?_, ?_⟩
  · intro j
    by_cases hj : j = i
    · subst hj
      show (update w.party j p' j).Fine s'
      rw [update_self]
      exact hown
    · show (update w.party i p' j).Fine s'
      rw [update_of_ne hj]
      refine (h.callers j).grow hgro ?_
      intro token htok hin
      rcases hiss token hin with hmine | hbef
      · exact absurd (h.pending j i token htok hmine) hj
      · exact hbef
  · intro j k token hj hk
    have hji : j ≠ i := by
      rintro rfl
      exact hnot token hj
    have hki : k ≠ i := by
      rintro rfl
      exact hnot token hk
    dsimp only at hj hk
    rw [update_of_ne hji] at hj
    rw [update_of_ne hki] at hk
    exact h.pending j k token hj hk

theorem pending_drawn (h : p.Fine s) (hpen : token ∈ p.pending) : token ∈ s.drawn := by
  cases p with
  | issuing request t tokenId now =>
    cases hpen
    exact h.1
  | _ => cases hpen

theorem sound_draw (h : TokensSound w) (request : DelegatedTokenRequest) (tokenId : String)
    (now : Int) (hfre : token ∉ w.shared.drawn) :
    TokensSound (⟨{ w.shared with clock := now, drawn := token :: w.shared.drawn },
      update w.party i (.issuing request token tokenId now)⟩ : TokenWorld ι) := by
  have hoth : ∀ j, token ∉ (w.party j).pending := fun j hj => hfre (pending_drawn (h.callers j) hj)
  refine ⟨⟨h.store.entries, ?_, h.store.gone⟩, ?_, ?_⟩
  · intro t claims hin
    exact mem_cons_of_mem _ (h.store.drawn t claims hin)
  · intro j
    by_cases hj : j = i
    · subst hj
      dsimp only
      rw [update_self]
      refine ⟨mem_cons_self, ?_⟩
      intro hin
      obtain ⟨⟨t, claims⟩, hmem, rfl⟩ := mem_map.mp hin
      exact hfre (h.store.drawn t claims hmem)
    · dsimp only
      rw [update_of_ne hj]
      refine (h.callers j).grow ⟨rfl, subset_cons_self _ _, List.Subset.refl _,
        List.Subset.refl _⟩ ?_
      exact fun _ _ hin => hin
  · intro j k t hj hk
    dsimp only at hj hk
    by_cases hji : j = i
    · by_cases hki : k = i
      · rw [hji, hki]
      · rw [hji, update_self] at hj
        rw [update_of_ne hki, ← some.inj hj] at hk
        exact absurd hk (hoth k)
    · by_cases hki : k = i
      · rw [hki, update_self] at hk
        rw [update_of_ne hji, ← some.inj hk] at hj
        exact absurd hj (hoth j)
      · rw [update_of_ne hji] at hj
        rw [update_of_ne hki] at hk
        exact h.pending j k t hj hk

theorem sound_step (w : TokenWorld ι) (event : ι × TokenAction) (h : TokensSound w) :
    TokensSound (Parties.step advanceToken w event) := by
  obtain ⟨i, a⟩ := event
  refine Parties.step_induction (Q := fun w' : TokenWorld ι => TokensSound w') h ?_
  intro p' s' hadv
  have hcal := h.callers i
  have hmo := advanceToken_move hadv
  generalize hp : w.party i = p at hmo hcal
  cases hmo with
  | draw request token tokenId now hfresh => exact sound_draw h request tokenId now hfresh
  | insert request token tokenId now =>
    refine sound_update h (h.store.insert hcal.1 hcal.2) trivial
      (w.shared.insert_grows request token tokenId now) rfl ?_
    intro t hin
    rcases TokenShared.insert_issued hin with rfl | hbef
    · left
      rw [hp]
      rfl
    · exact .inr hbef
  | revoke token =>
    refine sound_update h (h.store.revoke token) trivial (w.shared.revoke_grows token) rfl ?_
    intro t hin
    rw [TokenShared.revoke_issued] at hin
    exact .inr hin
  | quiet hshrinks hpending hfine =>
    refine sound_update h (hshrinks.fine h.store) (hfine h.store hcal) hshrinks.grows hpending ?_
    intro t hin
    rw [hshrinks.issued] at hin
    exact .inr hin

/-- **EVERY RUN** on a new store keeps store and callers sound. -/
theorem sound_run (store : ServiceTokenStore) (hemp : store.tokens = ∅) (now : Int)
    (evs : List (ι × TokenAction)) :
    TokensSound (Run.run (Parties.step advanceToken) (TokenWorld.start ι store now) evs) :=
  Run.always sound_step (sound_start store hemp now) evs

/-- The check a caller is in, or has ended with. -/
def TokenPhase.check : TokenPhase → Option TokenCheck
  | .cleaning check => some check
  | .swapping check _ _ => some check
  | .sweeping check => some check
  | .reading check => some check
  | .touching check _ => some check
  | .rechecking check => some check
  | .accepted check _ => some check
  | .refused check _ => some check
  | _ => none

theorem readToken_check (check : TokenCheck) (s : TokenShared) :
    (readToken check s).1.check = some check := by
  fun_cases readToken check s
  all_goals rfl

theorem recheckToken_check (check : TokenCheck) (s : TokenShared) :
    (recheckToken check s).1.check = some check := by
  fun_cases recheckToken check s
  all_goals rfl

theorem sweepTokens_check (check : TokenCheck) (s : TokenShared) :
    (sweepTokens check s).1.check = some check := by
  fun_cases sweepTokens check s
  all_goals rfl

theorem advanceToken_check {a : TokenAction} (h : advanceToken a p s = some (p', s'))
    {check : TokenCheck} (hche : check ∈ p'.check) :
    check ∈ p.check ∨ check.revokedBefore = s.revoked := by
  revert h
  fun_cases advanceToken a p s
  case case7 elapsed =>
    fun_cases nextToken elapsed p s
    all_goals intro h
    case case9 before _ =>
      have hp : (sweepTokens before s).1 = p' := congrArg fst (some.inj h)
      rw [← hp, sweepTokens_check] at hche
      exact .inl hche
    case case11 before =>
      have hp : (readToken before s).1 = p' := congrArg fst (some.inj h)
      rw [← hp, readToken_check] at hche
      exact .inl hche
    case case13 before _ =>
      have hp : (recheckToken before s).1 = p' := congrArg fst (some.inj h)
      rw [← hp, recheckToken_check] at hche
      exact .inl hche
    all_goals first
      | obtain ⟨rfl, rfl⟩ := Prod.mk.inj (some.inj h)
      | cases h
    all_goals exact .inl hche
  all_goals intro h
  all_goals cases h
  case case1 => cases hche
  case case3 => cases hche
  case case5 =>
    cases hche
    exact .inr rfl

/-- The token is revoked, and every check the caller is in or ended with knows it. -/
def KnowsRevoked (token : String) (i : ι) (w : TokenWorld ι) : Prop :=
  token ∈ w.shared.revoked ∧ ∀ check ∈ (w.party i).check, token ∈ check.revokedBefore

theorem TokenMove.grows (h : TokenMove s p p' s') : s.Grows s' := by
  cases h with
  | draw request token tokenId now _ =>
    exact ⟨rfl, subset_cons_self _ _, List.Subset.refl _, List.Subset.refl _⟩
  | insert request token tokenId now => exact s.insert_grows request token tokenId now
  | revoke token => exact s.revoke_grows token
  | quiet hshrinks _ _ => exact hshrinks.grows

theorem knowsRevoked_step (token : String) (i : ι) (w : TokenWorld ι) (event : ι × TokenAction)
    (h : KnowsRevoked token i w) : KnowsRevoked token i (Parties.step advanceToken w event) := by
  obtain ⟨j, a⟩ := event
  refine Parties.step_induction (Q := fun w' : TokenWorld ι => KnowsRevoked token i w') h ?_
  intro p' s' hadv
  refine ⟨(advanceToken_move hadv).grows.revoked h.1, ?_⟩
  intro check hche
  dsimp only at hche
  by_cases hi : i = j
  · subst hi
    rw [update_self] at hche
    rcases advanceToken_check hadv hche with hbefore | hsta
    · exact h.2 check hbefore
    · rw [hsta]
      exact h.1
  · rw [update_of_ne hi] at hche
    exact h.2 check hche

theorem knowsRevoked_begins {kind : TokenCheckKind} {named : String} {now : Int}
    (hrea : (w.party i).ready = true) (hclo : w.shared.clock ≤ now)
    (hrev : token ∈ w.shared.revoked) :
    KnowsRevoked token i (Parties.step advanceToken w (i, .validate kind named now)) := by
  have hadv : advanceToken (.validate kind named now) (w.party i) w.shared =
      some (.cleaning ⟨kind, named, now, w.shared.revoked⟩, { w.shared with clock := now }) := by
    rw [advanceToken, if_pos ⟨hrea, hclo⟩]
  rw [Parties.step_some hadv]
  refine ⟨hrev, ?_⟩
  intro check hche
  dsimp only at hche
  rw [update_self] at hche
  cases hche
  exact hrev

theorem swept_not_valid {check : TokenCheck} (elapsed : Int) {entry : ServiceTokenEntry}
    (hswe : w.party i = .sweeping check) (hget : w.shared.store.tokens[token]? = some entry)
    (hsw : (Parties.step advanceToken w (i, .next elapsed)).shared.store.tokens[token]? = none)
    {later : Int} (hlat : check.now ≤ later) :
    verdict entry later w.shared.store.refreshLimits ≠ .valid := by
  intro hval
  have hkee : w.shared.store.sweepKeeps check.now entry = true :=
    (ServiceTokenStore.sweepKeeps_iff _ _ _).mpr (ServiceTokenStore.verdict_valid_of_le hlat hval)
  revert hsw
  refine Parties.step_induction (w := w)
    (Q := fun w' : TokenWorld ι => w'.shared.store.tokens[token]? = none → False) ?_ ?_
  · rw [hget]
    exact nofun
  · intro p' s' hadv hno
    rw [hswe, advanceToken, nextToken] at hadv
    split at hadv
    · have hsha : (sweepTokens check w.shared).2 = s' := congrArg Prod.snd (some.inj hadv)
      rw [← hsha, sweepTokens] at hno
      split at hno
      · rw [hget] at hno
        cases hno
      · rw [ServiceTokenStore.sweep, Std.ExtTreeMap.getElem?_filter, hget] at hno
        simp [hkee] at hno
    · cases hadv

def tokenRun (store : ServiceTokenStore) (now : Int) (events : List (ι × TokenAction)) :
    TokenWorld ι :=
  Run.run (Parties.step advanceToken) (TokenWorld.start ι store now) events

theorem tokenRun_grace (store : ServiceTokenStore) (now : Int) (evs : List (ι × TokenAction)) :
    (tokenRun store now evs).shared.store.refreshGrace = store.refreshGrace := by
  have hst : ∀ (w : TokenWorld ι) (event : ι × TokenAction),
      w.shared.store.refreshGrace = store.refreshGrace →
      (Parties.step advanceToken w event).shared.store.refreshGrace = store.refreshGrace := by
    rintro w ⟨i, a⟩ h
    refine Parties.step_induction
      (Q := fun w' : TokenWorld ι => w'.shared.store.refreshGrace = store.refreshGrace) h ?_
    intro p' s' hadv
    exact (advanceToken_move hadv).grows.grace.trans h
  exact Run.always hst rfl evs

/-- **REVOCATION IS EXACT** in every interleaving. A caller that begins a check after a
`revoke` of an issued token returned accepts that token no more. What is accepted was
issued with these claims, was not revoked before the call started and is within its
expiry, with the grace for a refresh. A sweep removes nothing that a refresh by the
same or a later reading of the clock would accept. -/
theorem revocation_exact (lifetime idleTimeout refreshGrace cleanupInterval now : Int)
    (before after : List (ι × TokenAction)) (i : ι) :
    let store := ServiceTokenStore.new lifetime idleTimeout refreshGrace cleanupInterval
    (∀ kind token named reading, token ∈ (tokenRun store now before).shared.revoked →
      ((tokenRun store now before).party i).ready = true →
      (tokenRun store now before).shared.clock ≤ reading →
      ∀ check claims,
        (tokenRun store now (before ++ (i, .validate kind named reading) :: after)).party i =
          .accepted check claims → check.token ≠ token) ∧
    (∀ check claims, (tokenRun store now before).party i = .accepted check claims →
      (check.token, claims) ∈ (tokenRun store now before).shared.issued ∧
      check.token ∉ check.revokedBefore ∧
      check.now < claims.expiresAt + (if check.kind = .refresh then refreshGrace else 0)) ∧
    (∀ (check : TokenCheck) (elapsed : Int) (token : String) (entry : ServiceTokenEntry)
        (later : Int),
      (tokenRun store now before).party i = .sweeping check →
      (tokenRun store now before).shared.store.tokens[token]? = some entry →
      (tokenRun store now (before ++ [(i, .next elapsed)])).shared.store.tokens[token]? = none →
      check.now ≤ later →
      ServiceTokenStore.verdict entry later
        (tokenRun store now before).shared.store.refreshLimits ≠ .valid) := by
  intro store
  have hsou : ∀ events : List (ι × TokenAction), TokensSound (tokenRun store now events) :=
    sound_run store rfl now
  refine ⟨?_, ?_, ?_⟩
  · intro kind token named reading hrev hrea hclo check claims hacc htok
    have hkno : KnowsRevoked token i
        (tokenRun store now (before ++ (i, .validate kind named reading) :: after)) := by
      rw [tokenRun, Run.run_append, Run.run_cons]
      exact Run.always (knowsRevoked_step token i) (knowsRevoked_begins hrea hclo hrev) after
    have hbef : token ∈ check.revokedBefore := by
      refine hkno.2 check ?_
      rw [hacc]
      rfl
    have hcal := (hsou (before ++ (i, .validate kind named reading) :: after)).callers i
    rw [hacc] at hcal
    exact hcal.unrevoked (htok ▸ hbef)
  · intro check claims hacc
    have hcal := (hsou before).callers i
    rw [hacc] at hcal
    refine ⟨hcal.issued, hcal.unrevoked, ?_⟩
    have hcur := hcal.current
    rw [ServiceTokenStore.limits_grace (tokenRun_grace store now before)] at hcur
    cases hki : check.kind with
    | strict | refresh =>
      rw [hki] at hcur
      exact hcur
  · intro check elapsed token entry later hswe hget hsw hlat
    refine swept_not_valid elapsed hswe hget ?_ hlat
    rw [tokenRun, Run.run_append] at hsw
    exact hsw

/-- **WHAT THE STORE HOLDS**, in every interleaving: what was issued, with the claims it was
issued with, and nothing that a `revoke` has returned for. -/
theorem stored_tokens (lifetime idleTimeout refreshGrace cleanupInterval now : Int)
    (events : List (ι × TokenAction)) :
    let s := (tokenRun (.new lifetime idleTimeout refreshGrace cleanupInterval) now events).shared
    ∀ (token : String) (entry : ServiceTokenEntry), s.store.tokens[token]? = some entry →
      (token, entry.claims) ∈ s.issued ∧ token ∉ s.revoked := by
  intro s token entry hget
  have hfine : s.Fine := (sound_run _ rfl now events).store
  refine ⟨hfine.entries token entry hget, fun hrev => ?_⟩
  rw [(hfine.gone token hrev).2] at hget
  cases hget

end

def sampleTokens : ServiceTokenStore := ServiceTokenStore.new 90 1000 10 100

def sampleRequest : DelegatedTokenRequest := ⟨.service "billing" .read, "t1", []⟩

def revokeFirst : List (Bool × TokenAction) :=
  [(false, .issue sampleRequest "a" "1" 0), (false, .next 0),
    (false, .issue sampleRequest "b" "2" 0), (false, .next 0), (true, .revoke "a"),
    (true, .next 0)]

def checkBoth : List (Bool × TokenAction) :=
  [(false, .next 1), (false, .next 1), (false, .validate .refresh "b" 95), (false, .next 95),
    (false, .next 95), (false, .next 95)]

def sweepLate : List (Bool × TokenAction) :=
  revokeFirst ++ [(false, .validate .strict "b" 200), (false, .next 200), (false, .next 200)]

def claimsOfB : DelegatedTokenClaims :=
  ⟨"2", .service "billing" .read, "t1", [], 0, 90⟩

/-- The caller that finds the revoked token gone has the other one accepted; a later sweep
removes what nobody would accept any more. -/
theorem revocation_exact_two_tokens : "b" ≠ "a" ∧
    (("b", claimsOfB) ∈ (tokenRun sampleTokens 0 (revokeFirst ++
        (false, .validate .strict "a" 1) :: checkBoth)).shared.issued ∧
      (95 : Int) < claimsOfB.expiresAt + 10) ∧
    ServiceTokenStore.verdict ⟨claimsOfB, 0⟩ 200
      (tokenRun sampleTokens 0 sweepLate).shared.store.refreshLimits ≠ .valid := by
  have hrev := (revocation_exact 90 1000 10 100 0 revokeFirst checkBoth false).1
  have hacc := (revocation_exact 90 1000 10 100 0 (revokeFirst ++
    (false, .validate .strict "a" 1) :: checkBoth) [] false).2.1
  have hswe := (revocation_exact 90 1000 10 100 0 sweepLate [] false).2.2
  refine ⟨?_, ?_, ?_⟩
  · exact hrev .strict "a" "a" 1 (by decide +kernel) (by decide +kernel) (by decide +kernel)
      ⟨.refresh, "b", 95, ["a"]⟩ claimsOfB (by decide +kernel)
  · obtain ⟨hiss, -, hcur⟩ := hacc ⟨.refresh, "b", 95, ["a"]⟩ claimsOfB (by decide +kernel)
    exact ⟨hiss, hcur⟩
  · exact hswe ⟨.strict, "b", 200, ["a"]⟩ 200 "b" ⟨claimsOfB, 0⟩ 200 (by decide +kernel)
      (by decide +kernel) (by decide +kernel) (by decide)

/-- A refresh reads the clock at 99 and pauses; another caller reads 100 and wins the sweep. -/
def overtaken : List (Bool × TokenAction) :=
  [(false, .issue sampleRequest "b" "2" 0), (false, .next 0),
    (false, .validate .refresh "b" 99), (false, .next 99),
    (true, .validate .strict "b" 100), (true, .next 100), (true, .next 100)]

/-- A sweep can remove an entry that a refresh by an earlier reading would accept: the
refresh that read 99 finds nothing once the caller that read 100 has swept. -/
theorem earlier_reading_swept :
    (tokenRun sampleTokens 0 overtaken).party true = .sweeping ⟨.strict, "b", 100, []⟩ ∧
    (tokenRun sampleTokens 0 overtaken).party false = .reading ⟨.refresh, "b", 99, []⟩ ∧
    (tokenRun sampleTokens 0 overtaken).shared.store.tokens["b"]? = some ⟨claimsOfB, 0⟩ ∧
    ServiceTokenStore.verdict ⟨claimsOfB, 0⟩ 99
      (tokenRun sampleTokens 0 overtaken).shared.store.refreshLimits = .valid ∧
    (tokenRun sampleTokens 0 (overtaken ++ [(true, .next 100)])).shared.store.tokens["b"]? = none ∧
    (tokenRun sampleTokens 0 (overtaken ++ [(true, .next 100), (false, .next 99)])).party false =
      .refused ⟨.refresh, "b", 99, []⟩ .notFound := by
  refine ⟨?_, ?_, ?_, ?_, ?_, ?_⟩
  all_goals decide +kernel

end Fenrir
