import Fenrir.Security.TokenCalls

/-! # Strict and lenient checks of one token

`validate` and `validate_for_refresh` share one store: each removes what it rejects and
touches what it accepts. -/

namespace Fenrir

open List Option

inductive TokenCall where
  | check (kind : TokenCheckKind) (token : String) (now elapsed : Int)
  | cleanup (now elapsed : Int)

namespace TokenCall

def now : TokenCall → Int
  | .check _ _ now _ => now
  | .cleanup now _ => now

/-- How the call checks the token, if it does. -/
def kindOn (token : String) : TokenCall → Option TokenCheckKind
  | .check kind x _ _ => if x = token then some kind else none
  | .cleanup _ _ => none

end TokenCall

namespace ServiceTokenStore

def serve (self : ServiceTokenStore) : TokenCall → Bool × ServiceTokenStore
  | .check kind token now elapsed =>
    let answer := self.validateWith token (self.limits kind) now elapsed
    (answer.1.isOk, answer.2)
  | .cleanup now elapsed => (false, (self.cleanupIfNeeded now elapsed).2)

/-- The calls in turn, each with whether it was accepted. -/
def serveAll (self : ServiceTokenStore) : List TokenCall → List (TokenCall × Bool)
  | [] => []
  | c :: cs => (c, (self.serve c).1) :: (self.serve c).2.serveAll cs

def after (self : ServiceTokenStore) (calls : List TokenCall) : ServiceTokenStore :=
  calls.foldl (fun s c => (s.serve c).2) self

end ServiceTokenStore

def acceptsToken (token : String) (o : TokenCall × Bool) : Bool :=
  (o.1.kindOn token).isSome && o.2

/-- When the token was last used, by what was accepted. -/
def lastUse (token : String) (start : Int) : List (TokenCall × Bool) → Int
  | [] => start
  | o :: os => lastUse token (if acceptsToken token o then max start o.1.now else start) os

namespace ServiceTokenStore

variable {self : ServiceTokenStore} {token : String} {entry : ServiceTokenEntry}
  {calls : List TokenCall} {now elapsed : Int}

/-! ## One call -/

/-- The store still answers, with the same limits. -/
def Alike (self other : ServiceTokenStore) : Prop :=
  other.poisoned = false ∧ other.limits = self.limits

theorem cleanup_cases (hp : self.poisoned = false) (now elapsed : Int) (token : String) :
    ∃ swept, self.cleanupIfNeeded now elapsed = (.ok (), swept) ∧ self.Alike swept ∧
      (swept.tokens[token]? = self.tokens[token]? ∨ swept.tokens[token]? = none ∧
        ∃ entry, self.tokens[token]? = some entry ∧
          verdict entry now (self.limits .refresh) ≠ .valid) := by
  rw [cleanupIfNeeded]
  split
  · exact ⟨self, rfl, ⟨hp, rfl⟩, .inl rfl⟩
  · dsimp only
    rw [if_neg (by simp [hp])]
    refine ⟨_, rfl, ⟨hp, rfl⟩, ?_⟩
    dsimp only
    rw [Std.ExtTreeMap.getElem?_filter, pfilter_eq_filter]
    cases hget : self.tokens[token]? with
    | none => exact .inl rfl
    | some entry =>
      by_cases hke : self.sweepKeeps now entry = true
      · exact .inl (filter_some_pos hke)
      · exact .inr ⟨filter_some_neg (Bool.eq_false_iff.mpr hke), entry, rfl, fun h =>
          hke ((sweepKeeps_iff self now entry).mpr h)⟩

/-- What the call `c`, answered `ok`, does to the token's entry. -/
inductive EntryMove (self : ServiceTokenStore) (token : String) (c : TokenCall) (ok : Bool)
    (left : Option ServiceTokenEntry) : Prop where
  | kept (hleft : left = self.tokens[token]?)
      (hfound : c.kindOn token ≠ none → self.tokens[token]? = none)
      (hok : acceptsToken token (c, ok) = false)
  | removed (entry : ServiceTokenEntry) (kind : TokenCheckKind) (hleft : left = none)
      (hget : self.tokens[token]? = some entry)
      (hkind : kind = .refresh ∨ c.kindOn token = some kind)
      (hv : verdict entry c.now (self.limits kind) ≠ .valid)
      (hok : acceptsToken token (c, ok) = false)
  | touched (entry : ServiceTokenEntry) (kind : TokenCheckKind)
      (hleft : left = some (entry.touch c.now)) (hget : self.tokens[token]? = some entry)
      (hkind : c.kindOn token = some kind)
      (hv : verdict entry c.now (self.limits kind) = .valid) (hok : ok = true)

/-- **ONE CALL, ONE TOKEN**: its entry is left alone, or removed because a refresh or the
call's own check would reject it, or accepted and touched. -/
theorem serve_cases (hp : self.poisoned = false) (c : TokenCall) (token : String) :
    self.Alike (self.serve c).2 ∧
      self.EntryMove token c (self.serve c).1 ((self.serve c).2.tokens[token]?) := by
  cases c with
  | cleanup now elapsed =>
    obtain ⟨swept, hcle, hli, hget⟩ := cleanup_cases hp now elapsed token
    rw [serve, hcle]
    rcases hget with hget | ⟨hno, entry, hget, hv⟩
    · exact ⟨hli, .kept hget (fun h => absurd rfl h) rfl⟩
    · exact ⟨hli, .removed entry .refresh hno hget (.inl rfl) hv rfl⟩
  | check kind x now elapsed =>
    obtain ⟨swept, hcle, hli, hget⟩ := cleanup_cases hp now elapsed token
    -- the entry is as the sweep left it
    have hswe : ∀ {ok left}, left = swept.tokens[token]? →
        acceptsToken token (.check kind x now elapsed, ok) = false →
        (x = token → swept.tokens[token]? = none) →
        self.EntryMove token (.check kind x now elapsed) ok left := by
      rintro ok _ rfl hok hfou
      rcases hget with hget | ⟨hno, entry, hget, hv⟩
      · refine .kept hget (fun h => ?_) hok
        by_cases hx : x = token
        · rw [← hget, hfou hx]
        · exact absurd (if_neg hx) h
      · exact .removed entry .refresh hno hget (.inl rfl) hv hok
    have hoth : ∀ {ok}, x ≠ token → acceptsToken token (.check kind x now elapsed, ok) = false := by
      intro ok hx
      simp [acceptsToken, TokenCall.kindOn, hx]
    simp only [serve, validateWith, hcle, hli.1, Bool.false_eq_true, if_false]
    cases hfi : swept.tokens[x]? with
    | none => exact ⟨hli, hswe rfl (Bool.and_false _) fun hx => hx ▸ hfi⟩
    | some entry =>
      have hhe : x = token → self.tokens[token]? = some entry := by
        rintro rfl
        rcases hget with hget | ⟨hno, -⟩
        · rw [← hget, hfi]
        · rw [hfi] at hno
          cases hno
      have hrem : verdict entry now (self.limits kind) ≠ .valid →
          self.EntryMove token (.check kind x now elapsed) false
            ((swept.tokens.erase x)[token]?) := by
        intro hv
        by_cases hx : x = token
        · exact .removed entry kind (by rw [BTreeMap.get_erase, if_pos hx]) (hhe hx)
            (.inr (if_pos hx)) hv (Bool.and_false _)
        · exact hswe (by rw [BTreeMap.get_erase, if_neg hx]) (hoth hx) fun h => absurd h hx
      cases hv : verdict entry now (self.limits kind) with
      | valid =>
        simp only [hv]
        refine ⟨⟨rfl, hli.2⟩, ?_⟩
        by_cases hx : x = token
        · exact .touched entry kind (by rw [BTreeMap.get_insert, if_pos hx]; rfl) (hhe hx)
            (if_pos hx) hv rfl
        · exact hswe (by rw [BTreeMap.get_insert, if_neg hx]) (hoth hx) fun h => absurd h hx
      | expired | idle =>
        simp only [hv]
        exact ⟨⟨rfl, hli.2⟩, hrem (by rw [hv]; decide)⟩

/-! ## Runs -/

/-- A token that is gone is not accepted and does not come back. -/
theorem gone_run (hp : self.poisoned = false) (h : self.tokens[token]? = none) :
    (self.after calls).tokens[token]? = none ∧
      ∀ o ∈ self.serveAll calls, acceptsToken token o = false := by
  induction calls generalizing self with
  | nil => exact ⟨h, forall_mem_nil _⟩
  | cons c cs ih =>
    obtain ⟨hli, hmo⟩ := serve_cases hp c token
    cases hmo with
    | kept hleft _ hok =>
      obtain ⟨haft, hall⟩ := ih hli.1 (hleft.trans h)
      exact ⟨haft, forall_mem_cons.mpr ⟨hok, hall⟩⟩
    | removed entry kind _ hget | touched entry kind _ hget => cases h.symm.trans hget

theorem lastUse_gone {start : Int} {outcomes : List (TokenCall × Bool)}
    (h : ∀ o ∈ outcomes, acceptsToken token o = false) : lastUse token start outcomes = start := by
  induction outcomes with
  | nil => rfl
  | cons o os ih =>
    obtain ⟨ho, hos⟩ := forall_mem_cons.mp h
    rw [lastUse, ho]
    exact ih hos

theorem gone_rejected (h : self.tokens[token]? = none) :
    (self.serve (.check .refresh token now elapsed)).1 ≠ true := by
  intro hok
  cases hans : (self.validateWith token (self.limits .refresh) now elapsed).1 with
  | error err =>
    rw [serve, hans] at hok
    cases hok
  | ok claims =>
    have hli := validateWith_live hans
    simp [live, h] at hli

variable {t : Int}

/-- A run within the grace: the refresh at its end is accepted iff no strict check of the
token was rejected. -/
theorem refresh_run (hp : self.poisoned = false) (hget : self.tokens[token]? = some entry)
    (hclo : ∀ c ∈ calls, c.now ≤ t)
    (hexp : t < entry.claims.expiresAt + (self.limits .refresh).expiryGrace)
    (hid : t - lastUse token entry.lastActivity (self.serveAll calls) ≤ (self.limits .refresh).idle) :
    ((self.after calls).serve (.check .refresh token t elapsed)).1 = true ↔
      ∀ o ∈ self.serveAll calls, o.1.kindOn token = some .strict → o.2 = true := by
  induction calls generalizing self entry with
  | nil =>
    refine ⟨fun _ => forall_mem_nil _, fun _ => ?_⟩
    have hval := verdict_valid_iff.mpr ⟨hexp, hid⟩
    cases (serve_cases hp (.check .refresh token t elapsed) token).2 with
    | kept _ hfound => cases hget.symm.trans (hfound (by simp [TokenCall.kindOn]))
    | removed e kind _ he hki hv =>
      cases he.symm.trans hget
      simp only [TokenCall.kindOn, if_true, some.injEq] at hki
      rcases hki with rfl | rfl <;> exact absurd hval hv
    | touched _ _ _ _ _ _ hok => exact hok
  | cons c cs ih =>
    obtain ⟨hc, hcs⟩ := forall_mem_cons.mp hclo
    obtain ⟨⟨hp', hlim⟩, hmove⟩ := serve_cases hp c token
    rw [serveAll, lastUse] at hid
    rw [serveAll, forall_mem_cons]
    rw [← hlim] at hexp hid
    have ih := @ih (self.serve c).2
    cases hmove with
    | kept hleft hfound hok =>
      rw [hok] at hid
      refine (ih hp' (hleft.trans hget) hcs hexp hid).trans ⟨fun h => ⟨?_, h⟩, And.right⟩
      intro hki
      cases hget.symm.trans (hfound (by simp [hki]))
    | removed e kind hleft he hki hv hok =>
      -- gone for good: the last use is the entry's own, so only a strict check removes it
      cases he.symm.trans hget
      obtain ⟨hgo, hnot⟩ := @gone_run _ token cs hp' hleft
      rw [hok, lastUse_gone hnot] at hid
      have hval := verdict_valid_of_le hc (verdict_valid_iff.mpr ⟨hexp, hid⟩)
      rw [hlim] at hval
      refine ⟨fun h => absurd h (gone_rejected hgo), fun h => ?_⟩
      rcases hki with rfl | hki
      · exact absurd hval hv
      · cases kind with
        | refresh => exact absurd hval hv
        | strict =>
          rw [acceptsToken, hki, h.1 hki] at hok
          cases hok
    | touched e kind hleft he hki hv hok =>
      cases he.symm.trans hget
      rw [acceptsToken, hki, hok] at hid
      refine (ih hp' hleft hcs hexp hid).trans ⟨fun h => ⟨fun _ => hok, h⟩, And.right⟩

/-- What is dead at `t` is dead after every run from `t` on, if it has expired or no refresh
is accepted. -/
theorem dead_run (hp : self.poisoned = false) (hclo : ∀ c ∈ calls, t ≤ c.now)
    (hde : ∀ entry, self.tokens[token]? = some entry →
      entry.claims.expiresAt + (self.limits .strict).expiryGrace ≤ t ∨
        (self.limits .strict).idle < t - entry.lastActivity ∧
          ∀ o ∈ self.serveAll calls, o.1.kindOn token = some .refresh → o.2 = false)
    {t' : Int} (ht : t ≤ t') :
    ((self.after calls).serve (.check .strict token t' elapsed)).1 = false := by
  have hnot : ∀ {entry : ServiceTokenEntry} {limits : Limits} {now : Int} {p : Prop}, t ≤ now →
      (entry.claims.expiresAt + limits.expiryGrace ≤ t ∨
        limits.idle < t - entry.lastActivity ∧ p) → verdict entry now limits ≠ .valid := by
    intro entry limits now p hle h hval
    have := verdict_valid_iff.mp hval
    omega
  induction calls generalizing self with
  | nil =>
    show (self.serve (.check .strict token t' elapsed)).1 = false
    cases (serve_cases hp (.check .strict token t' elapsed) token).2 with
    | kept _ _ hok | removed _ _ _ _ _ _ hok => simpa [acceptsToken, TokenCall.kindOn] using hok
    | touched entry kind _ hget hkind hv =>
      simp only [TokenCall.kindOn, if_true, some.injEq] at hkind
      subst hkind
      exact absurd hv (hnot ht (hde entry hget))
  | cons c cs ih =>
    obtain ⟨hc, hcs⟩ := forall_mem_cons.mp hclo
    obtain ⟨⟨hp', hlim⟩, hmove⟩ := serve_cases hp c token
    refine ih hp' hcs fun entry hent => ?_
    rw [hlim]
    cases hmove with
    | kept hleft _ _ =>
      refine (hde entry (hleft.symm.trans hent)).imp_right fun h => ⟨h.1, ?_⟩
      exact (forall_mem_cons.mp h.2).2
    | removed _ _ hleft => cases hleft.symm.trans hent
    | touched e kind hleft he hkind hv hok =>
      cases hleft.symm.trans hent
      cases kind with
      | strict => exact absurd hv (hnot hc (hde e he))
      | refresh =>
        rcases hde e he with hexpired | ⟨-, hno⟩
        · exact .inl hexpired
        · cases hok.symm.trans ((forall_mem_cons.mp hno).1 hkind)

/-- **WITHIN THE GRACE**: after any calls on the store, a refresh by its expiry and idle
time in the grace is accepted iff no strict check of the token has been rejected. -/
theorem refresh_within_grace (self store : ServiceTokenStore) (request : DelegatedTokenRequest)
    (token tokenId : String) (issuedAt : Int) (issued : DelegatedToken)
    (hissue : self.issue request token tokenId issuedAt = (.ok issued, store))
    (calls : List TokenCall) (t elapsed : Int) (hclock : ∀ c ∈ calls, c.now ≤ t)
    (hexpiry : t < issued.claims.expiresAt + store.refreshGrace)
    (hidle : t - lastUse token issuedAt (store.serveAll calls) ≤
      store.idleTimeout + store.refreshGrace) :
    ((store.after calls).validateForRefresh token t elapsed).1.isOk = true ↔
      ∀ o ∈ store.serveAll calls, o.1.kindOn token = some .strict → o.2 = true := by
  rw [issue] at hissue
  split at hissue
  · cases hissue
  · rename_i hp
    cases hissue
    exact refresh_run (Bool.eq_false_iff.mpr hp) (by rw [BTreeMap.get_insert, if_pos rfl]) hclock
      hexpiry hidle

/-- `sampleTokens` with the token `b`, issued at 0. -/
def issuedB : ServiceTokenStore := (sampleTokens.issue sampleRequest "b" "2" 0).2

theorem refresh_within_grace_late :
    sampleTokens.issue sampleRequest "b" "2" 0 = (.ok ⟨"b", claimsOfB⟩, issuedB) ∧
      ((issuedB.after [.check .strict "b" 80 80]).validateForRefresh "b" 95 95).1.isOk = true :=
  ⟨rfl, (refresh_within_grace sampleTokens issuedB sampleRequest "b" "2" 0 _ rfl _ 95 95
    (by decide) (by decide +kernel) (by decide +kernel)).mpr (by decide +kernel)⟩

/-- Expired at 90, it may be refreshed until 100; a strict check at 92 removes it. -/
theorem strict_check_ends_grace :
    (issuedB.serveAll [.check .strict "b" 92 92]).map Prod.snd = [false] ∧
      (issuedB.validateForRefresh "b" 93 93).1 = .ok claimsOfB ∧
      ((issuedB.after [.check .strict "b" 92 92]).validateForRefresh "b" 93 93).1 =
        .error .notFound := by
  decide +kernel

/-- **DEAD FOR STRICT USE**: a token whose strict verdict at `t` is not `Valid` is rejected by
every strict check from then on, if it has expired or no refresh of it is accepted. -/
theorem dead_stays_dead (self : ServiceTokenStore) (token : String) (entry : ServiceTokenEntry)
    (hp : self.poisoned = false) (hget : self.tokens[token]? = some entry) (t : Int)
    (hdead : verdict entry t self.lifetimeLimits ≠ .valid) (calls : List TokenCall)
    (hclock : ∀ c ∈ calls, t ≤ c.now) (hrefresh : verdict entry t self.lifetimeLimits = .expired ∨
      ∀ o ∈ self.serveAll calls, o.1.kindOn token = some .refresh → o.2 = false)
    (t' elapsed : Int) (ht : t ≤ t') :
    ((self.after calls).validate token t' elapsed).1.isOk = false := by
  refine dead_run hp hclock ?_ ht
  intro e he
  cases he.symm.trans hget
  by_cases hexp : entry.claims.expiresAt + self.lifetimeLimits.expiryGrace ≤ t
  · exact .inl hexp
  · have hnot : verdict entry t self.lifetimeLimits ≠ .expired := by
      rw [verdict, if_neg hexp]
      split
      · decide
      · decide
    refine .inr ⟨?_, hrefresh.resolve_left hnot⟩
    have := mt verdict_valid_iff.mpr hdead
    show self.idleTimeout < t - entry.lastActivity
    dsimp only [lifetimeLimits] at this hexp
    omega

theorem dead_stays_dead_late : verdict ⟨claimsOfB, 0⟩ 92 issuedB.lifetimeLimits = .expired ∧
      ((issuedB.after [.check .refresh "b" 95 95]).validate "b" 96 96).1.isOk = false :=
  ⟨by decide, dead_stays_dead issuedB "b" ⟨claimsOfB, 0⟩ rfl (by decide +kernel) 92 (by decide) _
    (by decide) (.inl (by decide)) 96 96 (by decide)⟩

def issuedIdle : ServiceTokenStore :=
  ((ServiceTokenStore.new 90 10 5 100).issue sampleRequest "b" "2" 0).2

/-- At 12 a strict check rejects the token, unless a refresh came first. -/
theorem refresh_revives_idle : (issuedIdle.validate "b" 12 12).1 = .error .idleTimeout ∧
      ((issuedIdle.after [.check .refresh "b" 12 12]).validate "b" 12 12).1 = .ok claimsOfB := by
  decide +kernel

end ServiceTokenStore

end Fenrir
