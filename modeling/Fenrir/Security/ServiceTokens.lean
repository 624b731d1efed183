import Fenrir.Domain

/-! # Service tokens

`security/service_tokens.rs`: the store of delegated tokens. A token is
known by its text; what it says (its claims) never changes, only the time
of its last use does. Times are nanoseconds. -/

namespace Fenrir

inductive Role where
  | admin | operator | viewer
  deriving DecidableEq

inductive ServiceRole where
  | admin | write | read
  deriving DecidableEq

def ServiceRole.satisfies : ServiceRole → ServiceRole → Bool
  | .admin, _ => true
  | .write, .write => true
  | .write, .read => true
  | .read, .read => true
  | _, _ => false

/-- `ServiceScope`, by its text `domain:action`. -/
structure ServiceScope where
  text : String
  deriving DecidableEq

inductive DelegatedActor where
  | user (userId : String) (role : Role)
  | service (serviceId : String) (role : ServiceRole)
  deriving DecidableEq

def DelegatedActor.identifier : DelegatedActor → String
  | .user userId _ => userId
  | .service serviceId _ => serviceId

structure DelegatedTokenRequest where
  actor : DelegatedActor
  tenantId : String
  scopes : List ServiceScope
  deriving DecidableEq

structure DelegatedTokenClaims where
  tokenId : String
  actor : DelegatedActor
  tenantId : String
  scopes : List ServiceScope
  (issuedAt expiresAt : Int)
  deriving DecidableEq

structure DelegatedToken where
  token : String
  claims : DelegatedTokenClaims
  deriving DecidableEq

structure ServiceTokenEntry where
  claims : DelegatedTokenClaims
  lastActivity : Int
  deriving DecidableEq

/-- `touch`: the time of last use never moves backwards. `unix_nanos` stops at the largest
`i64`, in the year 2262; times here are before that. -/
def ServiceTokenEntry.touch (entry : ServiceTokenEntry) (now : Int) : ServiceTokenEntry :=
  { entry with lastActivity := max entry.lastActivity now }

inductive ServiceTokenError where
  | notFound | expired | idleTimeout
  | store (message : String)
  deriving DecidableEq

inductive TokenVerdict where
  | valid | expired | idle
  deriving DecidableEq

/-- Expiry grace and idle limit of one kind of validation. -/
structure Limits where
  (expiryGrace idle : Int)

structure ServiceTokenStore where
  (lifetime idleTimeout refreshGrace cleanupInterval : Int)
  tokens : BTreeMap ServiceTokenEntry
  nextCleanup : Int
  /-- A thread panicked while it held the lock; every later call fails. -/
  poisoned : Bool

namespace ServiceTokenStore

section

variable (self : ServiceTokenStore) (token : String) (now : Int) (elapsed : Int)

def lockPoisoned : ServiceTokenError := .store "service token store lock poisoned"

/-- `issue`: the token and its id are drawn at random by the caller of this model. -/
def issue (request : DelegatedTokenRequest) (token tokenId : String)
    (now : Int) : Except ServiceTokenError DelegatedToken × ServiceTokenStore :=
  let claims : DelegatedTokenClaims :=
    { tokenId
      actor := request.actor
      tenantId := request.tenantId
      scopes := request.scopes
      issuedAt := now
      expiresAt := now + self.lifetime }
  if self.poisoned then (.error lockPoisoned, self)
  else (.ok ⟨token, claims⟩, { self with tokens := self.tokens.insert token ⟨claims, now⟩ })

def lifetimeLimits : Limits := ⟨0, self.idleTimeout⟩

def refreshLimits : Limits :=
  ⟨self.refreshGrace, self.idleTimeout + self.refreshGrace⟩

def verdict (entry : ServiceTokenEntry) (now : Int) (limits : Limits) : TokenVerdict :=
  if entry.claims.expiresAt + limits.expiryGrace ≤ now then .expired
  else if now - entry.lastActivity > limits.idle then .idle
  else .valid

/-- The sweep keeps what is within the grace window. -/
def sweepKeeps (entry : ServiceTokenEntry) : Bool :=
  if entry.claims.expiresAt + self.refreshGrace ≤ now then false
  else now - entry.lastActivity ≤ self.idleTimeout + self.refreshGrace

/-- `cleanup_if_needed`: at most one sweep per interval (`elapsed` since the epoch). -/
def cleanupIfNeeded : Except ServiceTokenError Unit × ServiceTokenStore :=
  if elapsed < self.nextCleanup then (.ok (), self)
  else
    let self := { self with nextCleanup := elapsed + self.cleanupInterval }
    if self.poisoned then (.error lockPoisoned, self)
    else (.ok (), { self with tokens := self.tokens.filter fun _ e => self.sweepKeeps now e })

def validateWith (limits : Limits)
    (now elapsed : Int) : Except ServiceTokenError DelegatedTokenClaims × ServiceTokenStore :=
  match self.cleanupIfNeeded now elapsed with
  | (.error err, self) => (.error err, self)
  | (.ok (), self) =>
    if self.poisoned then (.error lockPoisoned, self)
    else
      match self.tokens[token]? with
      | none => (.error .notFound, self)
      | some entry =>
        match verdict entry now limits with
        | .valid =>
          (.ok entry.claims, { self with tokens := self.tokens.insert token (entry.touch now) })
        | .expired => (.error .expired, { self with tokens := self.tokens.erase token })
        | .idle => (.error .idleTimeout, { self with tokens := self.tokens.erase token })

def validate : Except ServiceTokenError DelegatedTokenClaims × ServiceTokenStore :=
  self.validateWith token self.lifetimeLimits now elapsed

def validateForRefresh : Except ServiceTokenError DelegatedTokenClaims × ServiceTokenStore :=
  self.validateWith token self.refreshLimits now elapsed

def revoke : Except ServiceTokenError Unit × ServiceTokenStore :=
  if self.poisoned then (.error lockPoisoned, self)
  else (.ok (), { self with tokens := self.tokens.erase token })

end

/-! ## Live tokens -/

/-- The store answers, and has the token. -/
def live (self : ServiceTokenStore) (token : String) : Bool :=
  !self.poisoned && self.tokens[token]?.isSome

theorem issue_cases (self : ServiceTokenStore) (req : DelegatedTokenRequest)
    (token tid : String) (now : Int) : self.issue req token tid now = (.error lockPoisoned, self) ∨
    ∃ claims store, self.issue req token tid now = (.ok ⟨token, claims⟩, store) ∧
      claims.actor = req.actor ∧
      ∀ t, store.live t = true → t = token ∨ self.live t = true := by
  rw [issue]
  split
  · exact .inl rfl
  · refine .inr ⟨_, _, rfl, rfl, ?_⟩
    intro t ht
    by_cases htok : token = t
    · exact .inl htok.symm
    · simp only [live, BTreeMap.get_insert, if_neg htok] at ht
      exact .inr ht

variable {self : ServiceTokenStore} {token t : String} {limits : Limits} {now el : Int}

theorem live_erase (h : live { self with tokens := self.tokens.erase token } t = true) :
    t ≠ token ∧ self.live t = true := by
  simp only [live, BTreeMap.get_erase, Bool.and_eq_true] at h ⊢
  by_cases ht : token = t
  · rw [if_pos ht] at h
    cases h.2
  · rw [if_neg ht] at h
    exact ⟨Ne.symm ht, h⟩

theorem live_cleanupIfNeeded (h : (self.cleanupIfNeeded now el).2.live t = true) :
    self.live t = true := by
  revert h
  fun_cases cleanupIfNeeded self now el
  case case3 =>
    intro h
    simp only [live, Bool.and_eq_true] at h ⊢
    refine ⟨h.1, ?_⟩
    have hget := h.2
    rw [Std.ExtTreeMap.getElem?_filter] at hget
    cases hs : self.tokens[t]? with
    | none =>
      rw [hs] at hget
      exact hget
    | some entry => rfl
  all_goals exact id

theorem live_validateWith (h : (self.validateWith token limits now el).2.live t = true) :
    self.live t = true := by
  have hswe : ∀ {r swept}, self.cleanupIfNeeded now el = (r, swept) → swept.live t = true →
      self.live t = true := by
    intro r swept hc hl
    exact live_cleanupIfNeeded (by rw [hc]; exact hl)
  revert h
  fun_cases validateWith self token limits now el
  case case4 swept hc hp entry hget hv =>
    intro h
    refine hswe hc ?_
    simp only [live, BTreeMap.get_insert, Bool.and_eq_true] at h ⊢
    refine ⟨h.1, ?_⟩
    by_cases ht : token = t
    · rw [← ht, hget]
      rfl
    · rw [if_neg ht] at h
      exact h.2
  case case5 swept hc _ _ _ _ | case6 swept hc _ _ _ _ => exact fun h => hswe hc (live_erase h).2
  all_goals exact hswe (by assumption)

theorem validateWith_live {claims : DelegatedTokenClaims}
    (h : (self.validateWith token limits now el).1 = .ok claims) : self.live token = true := by
  revert h
  fun_cases validateWith self token limits now el
  case case4 swept hc hp entry hget hv =>
    intro _
    refine @live_cleanupIfNeeded self token now el ?_
    rw [hc]
    simp [live, hget, hp]
  all_goals exact nofun

theorem live_revoke (h : (self.revoke token).2.live t = true) : t ≠ token ∧ self.live t = true := by
  rw [revoke] at h
  split at h
  · rename_i hp
    simp [live, hp] at h
  · exact live_erase h

end ServiceTokenStore

end Fenrir
