import Fenrir.Lib.Run
import Fenrir.Security.ServiceTokens

/-! # Token leases of modules

The module service hands every module it starts a service token and keeps a
lease for it: one lease a module, in a map of its own beside the token store
(`services/module/service.rs`, `runtime.rs`; `services/token_exchange.rs` in
front of it). Stopping or uninstalling a module revokes the token of its
lease.

What storage, the process runtime and the other ports answer during a call
comes with the call (`StartAnswers`, …), and so do the clock and the random
draw of a new token (`Draw`). `issued` remembers every token handed out; no
function reads it. -/

namespace Fenrir.Tokens

/-- `module_service_id`: how a module is named as an actor. -/
def moduleServiceId (moduleId : String) : String := "module:" ++ moduleId

variable {m m' : String} {s : ModuleService} {call : Call} {token : DelegatedToken}

theorem moduleServiceId_inj : moduleServiceId m = moduleServiceId m' ↔ m = m' :=
  String.append_right_inj _

structure ModuleTokenLease where
  token : String
  (issuedAt expiresAt : Int)
  scopes : List ServiceScope

def ModuleTokenLease.ofToken (token : DelegatedToken) : ModuleTokenLease :=
  ⟨token.token, token.claims.issuedAt, token.claims.expiresAt, token.claims.scopes⟩

/-- The requests of one module to the token exchange since `start`. -/
structure RateBucket where
  start : Int
  count : Nat

def rateLimitWindow : Int := 30000000000

def rateLimitMaxRequests : Nat := 60

/-- The clock during a call, and what the call draws for a token and its id. -/
structure Draw where
  (token tokenId : String)
  (now elapsed : Int)

/-- The module service and the token exchange, as far as tokens go. -/
structure ModuleService where
  security : ServiceTokenStore
  serviceTokens : BTreeMap ModuleTokenLease
  windows : BTreeMap RateBucket
  defaultServiceScopes : List ServiceScope
  devOverrides : List String
  issued : List DelegatedToken

def ServiceTokenError.display : ServiceTokenError → String
  | .notFound => "service token not found"
  | .expired => "service token expired"
  | .idleTimeout => "service token idle timeout"
  | .store message => message

inductive TokenExchangeError where
  | rateLimited
  | runtime (err : ModuleRuntimeError)

namespace ModuleService

def isDevOverrideActive (self : ModuleService) (moduleId : String) : Bool :=
  self.devOverrides.contains moduleId

/-! ## Issuing and recording -/

section

variable (self : ModuleService) (moduleId : String) (draw : Draw)

def issueServiceTokenWithScopes (scopes : List ServiceScope) (draw : Draw) :
    Except ModuleRuntimeError DelegatedToken × ModuleService :=
  let request : DelegatedTokenRequest :=
    ⟨.service (moduleServiceId moduleId) .write, "default", scopes⟩
  match self.security.issue request draw.token draw.tokenId draw.now with
  | (.ok token, security) =>
    (.ok token, { self with security, issued := token :: self.issued })
  | (.error err, security) =>
    (.error (.invalidState (ServiceTokenError.display err)), { self with security })

def issueDefaultServiceToken : Except ModuleRuntimeError DelegatedToken × ModuleService :=
  self.issueServiceTokenWithScopes moduleId self.defaultServiceScopes draw

/-- The scopes of `issue_scoped_service_token`: the default ones, then each new one once. -/
def mergedScopes (extra : List ServiceScope) : List ServiceScope :=
  extra.foldl (fun merged scope => if merged.contains scope then merged else merged ++ [scope])
    self.defaultServiceScopes

def issueScopedServiceToken (extra : List ServiceScope) (draw : Draw) :
    Except ModuleRuntimeError DelegatedToken × ModuleService :=
  self.issueServiceTokenWithScopes moduleId (self.mergedScopes extra) draw

/-- `issue_module_service_token`; no module is unmanaged (`is_unmanaged_module`). -/
def issueModuleServiceToken : Except ModuleRuntimeError (Option DelegatedToken) × ModuleService :=
  if self.isDevOverrideActive moduleId then (.ok none, self)
  else
    match self.issueDefaultServiceToken moduleId draw with
    | (.ok token, self) => (.ok (some token), self)
    | (.error err, self) => (.error err, self)

/-- `record_service_token`: the lease replaces the one there was. -/
def recordServiceToken (token : DelegatedToken) : ModuleService :=
  { self with serviceTokens := self.serviceTokens.insert moduleId (.ofToken token) }

def refreshServiceToken : Except ModuleRuntimeError ModuleTokenLease × ModuleService :=
  match self.issueDefaultServiceToken moduleId draw with
  | (.error err, self) => (.error err, self)
  | (.ok token, self) => (.ok (.ofToken token), self.recordServiceToken moduleId token)

end

/-! ## The token exchange -/

section

variable (self : ModuleService) (moduleId : String)

def checkRateLimit (now : Int) : Except TokenExchangeError Unit × ModuleService :=
  let entry := (self.windows[moduleId]?).getD ⟨now, 0⟩
  let entry := if now - entry.start > rateLimitWindow then ⟨now, 0⟩ else entry
  if entry.count ≥ rateLimitMaxRequests then
    (.error .rateLimited, { self with windows := self.windows.insert moduleId entry })
  else
    (.ok (), { self with
      windows := self.windows.insert moduleId { entry with count := entry.count + 1 } })

/-- What `issue_default_token` and `issue_scoped_token` share: the limit, then a
token from `issue`, then its lease. -/
def exchange (now : Int)
    (issue : ModuleService → Except ModuleRuntimeError DelegatedToken × ModuleService) :
    Except TokenExchangeError DelegatedToken × ModuleService :=
  match self.checkRateLimit moduleId now with
  | (.error err, self) => (.error err, self)
  | (.ok (), self) =>
    match issue self with
    | (.error err, self) => (.error (.runtime err), self)
    | (.ok token, self) => (.ok token, self.recordServiceToken moduleId token)

def issueDefaultToken (draw : Draw) : Except TokenExchangeError DelegatedToken × ModuleService :=
  self.exchange moduleId draw.now fun s => s.issueDefaultServiceToken moduleId draw

def issueScopedToken (scopes : List ServiceScope)
    (draw : Draw) : Except TokenExchangeError DelegatedToken × ModuleService :=
  self.exchange moduleId draw.now fun s => s.issueScopedServiceToken moduleId scopes draw

/-- `force_refresh`: no limit, and a known bucket starts over. -/
def forceRefresh (draw : Draw) : Except ModuleRuntimeError ModuleTokenLease × ModuleService :=
  match self.refreshServiceToken moduleId draw with
  | (.error err, self) => (.error err, self)
  | (.ok lease, self) =>
    if (self.windows[moduleId]?).isSome then
      (.ok lease, { self with windows := self.windows.insert moduleId ⟨draw.now, 0⟩ })
    else (.ok lease, self)

end

/-! ## Revoking -/

/-- `SecurityManager::revoke_service_token`: the claims are read first, for the audit
record; reading them counts as a use of the token. -/
def revokeServiceToken (self : ModuleService) (token : String) (draw : Draw) : ModuleService :=
  let read := (self.security.validate token draw.now draw.elapsed).2
  { self with security := (read.revoke token).2 }

/-- `revoke_service_token_if_any`: a failed revocation is logged. -/
def revokeServiceTokenIfAny (self : ModuleService) (moduleId : String) (draw : Draw) :
    ModuleService :=
  match self.serviceTokens[moduleId]? with
  | none => self
  | some lease =>
    { self with serviceTokens := self.serviceTokens.erase moduleId }.revokeServiceToken
      lease.token draw

end ModuleService

/-! ## Start, stop and uninstall -/

inductive RuntimeStart where
  | started
  | failed (err : ModuleRuntimeError)
  | timedOut (err : ModuleRuntimeError)
  deriving DecidableEq

/-- What the ports answer during one `start`, in the order they are asked. -/
structure StartAnswers where
  /-- The installed module; a module that is not installed is an error here. -/
  (load registerDeclaredServices : Except ModuleRuntimeError Unit)
  running : Bool
  (quarantine assignedPort preflight gatewayEndpoint : Except ModuleRuntimeError Unit)
  injectRuntimeEnv : Except ModuleRuntimeError Unit
  runtimeStart : RuntimeStart
  desiredReplicas : Nat
  reconcileInstances : Except ModuleRuntimeError Unit

structure StopAnswers where
  (runtimeStop load : Except ModuleRuntimeError Unit)

structure UninstallAnswers where
  /-- The installed module; a module that is not installed is an error here. -/
  (load remove : Except ModuleRuntimeError Unit)

/-- The checks of `start_with_trigger` between the dev override and the token. -/
def StartAnswers.beforeToken (answers : StartAnswers) (moduleId : String) :
    Except ModuleRuntimeError Unit := do
  if answers.running then throw (.alreadyRunning moduleId)
  answers.quarantine
  answers.assignedPort
  answers.preflight
  answers.gatewayEndpoint

/-- `reconcile_instances`, asked for only with more than one replica. -/
def StartAnswers.reconciled (answers : StartAnswers) : Except ModuleRuntimeError Unit :=
  if answers.desiredReplicas > 1 then answers.reconcileInstances else .ok ()

namespace ModuleService

section

variable (self : ModuleService) (moduleId : String)

/-- The rest of `start_with_trigger` once the runtime has its token: a token the
runtime could not use is revoked, one it runs with is recorded. -/
def startWithToken (answers : StartAnswers) (token : Option DelegatedToken) (draw : Draw) :
    Except ModuleRuntimeError Unit × ModuleService :=
  match answers.injectRuntimeEnv with
  | .error err => (.error err, self)
  | .ok () =>
    match answers.runtimeStart with
    | .failed err | .timedOut err =>
      match token with
      | none => (.error err, self)
      | some token => (.error err, self.revokeServiceToken token.token draw)
    | .started =>
      match answers.reconciled with
      | .error err => (.error err, self)
      | .ok () =>
        match token with
        | none => (.ok (), self)
        | some token => (.ok (), self.recordServiceToken moduleId token)

def startWithTrigger (answers : StartAnswers)
    (draw : Draw) : Except ModuleRuntimeError Unit × ModuleService :=
  match answers.load, answers.registerDeclaredServices with
  | .error err, _ => (.error err, self)
  | .ok (), .error err => (.error err, self)
  | .ok (), .ok () =>
    if self.isDevOverrideActive moduleId then (.ok (), self)
    else
      match answers.beforeToken moduleId with
      | .error err => (.error err, self)
      | .ok () =>
        match self.issueModuleServiceToken moduleId draw with
        | (.error err, self) => (.error err, self)
        | (.ok token, self) => self.startWithToken moduleId answers token draw

def stop (answers : StopAnswers) (draw : Draw) : Except ModuleRuntimeError Unit × ModuleService :=
  if self.isDevOverrideActive moduleId then (.ok (), self)
  else
    match answers.runtimeStop, answers.load with
    | .error err, _ => (.error err, self)
    | .ok (), .error err => (.error err, self)
    | .ok (), .ok () => (.ok (), self.revokeServiceTokenIfAny moduleId draw)

/-- `uninstall`: `stop_module_process` revokes whatever the runtime answers, and
before the removal that may still fail. -/
def uninstall (answers : UninstallAnswers)
    (draw : Draw) : Except ModuleRuntimeError Unit × ModuleService :=
  match answers.load with
  | .error err => (.error err, self)
  | .ok () =>
    let self := self.revokeServiceTokenIfAny moduleId draw
    match answers.remove with
    | .error err => (.error err, self)
    | .ok () => (.ok (), self)

end

end ModuleService

/-! ## Runs -/

inductive Call where
  | start (moduleId : String) (answers : StartAnswers) (draw : Draw)
  | refreshServiceToken (moduleId : String) (draw : Draw)
  | issueDefaultToken (moduleId : String) (draw : Draw)
  | issueScopedToken (moduleId : String) (scopes : List ServiceScope) (draw : Draw)
  | forceRefresh (moduleId : String) (draw : Draw)
  | stop (moduleId : String) (answers : StopAnswers) (draw : Draw)
  | uninstall (moduleId : String) (answers : UninstallAnswers) (draw : Draw)
  | validate (token : String) (draw : Draw)
  | validateForRefresh (token : String) (draw : Draw)

namespace ModuleService

/-- The state a call leaves, and whether it returned `Ok`. -/
def answer (self : ModuleService) : Call → Bool × ModuleService
  | .start m answers draw =>
    let (r, self) := self.startWithTrigger m answers draw
    (r.isOk, self)
  | .refreshServiceToken m draw =>
    let (r, self) := self.refreshServiceToken m draw
    (r.isOk, self)
  | .issueDefaultToken m draw =>
    let (r, self) := self.issueDefaultToken m draw
    (r.isOk, self)
  | .issueScopedToken m scopes draw =>
    let (r, self) := self.issueScopedToken m scopes draw
    (r.isOk, self)
  | .forceRefresh m draw =>
    let (r, self) := self.forceRefresh m draw
    (r.isOk, self)
  | .stop m answers draw =>
    let (r, self) := self.stop m answers draw
    (r.isOk, self)
  | .uninstall m answers draw =>
    let (r, self) := self.uninstall m answers draw
    (r.isOk, self)
  | .validate token draw =>
    let (r, security) := self.security.validate token draw.now draw.elapsed
    (r.isOk, { self with security })
  | .validateForRefresh token draw =>
    let (r, security) := self.security.validateForRefresh token draw.now draw.elapsed
    (r.isOk, { self with security })

def step (self : ModuleService) (call : Call) : ModuleService := (self.answer call).2

end ModuleService

/-! ## What one call can do -/

namespace Call

def draw : Call → Draw
  | .start _ _ d | .refreshServiceToken _ d | .issueDefaultToken _ d | .issueScopedToken _ _ d
  | .forceRefresh _ d | .stop _ _ d | .uninstall _ _ d | .validate _ d
  | .validateForRefresh _ d => d

def target : Call → Option String
  | .start m _ _ | .refreshServiceToken m _ | .issueDefaultToken m _ | .issueScopedToken m _ _
  | .forceRefresh m _ | .stop m _ _ | .uninstall m _ _ => some m
  | .validate _ _ | .validateForRefresh _ _ => none

/-- A call that can put a new lease in the place of the old one. -/
def replaces : Call → Bool
  | .start _ answers _ => answers.runtimeStart = .started
  | .refreshServiceToken _ _ | .issueDefaultToken _ _ | .issueScopedToken _ _ _
  | .forceRefresh _ _ => true
  | _ => false

/-- A start that returns between the issue of its token and the record of it. -/
def abandons : Call → Bool
  | .start _ answers _ =>
    !answers.injectRuntimeEnv.isOk ||
      (answers.runtimeStart = .started && !answers.reconciled.isOk)
  | _ => false

/-- The calls that revoke the module's token. -/
def ends (m : String) : Call → Bool
  | .stop m' _ _ | .uninstall m' _ _ => m' = m
  | _ => false

def stops (m : String) : Call → Bool
  | .stop m' _ _ => m' = m
  | _ => false

end Call

abbrev ModuleService.live (self : ModuleService) (token : String) : Bool :=
  self.security.live token

/-- A token as issued to the module in this call. -/
structure Issued (m : String) (call : Call) (token : DelegatedToken) : Prop where
  drawn : token.token = call.draw.token
  actor : token.claims.actor.identifier = moduleServiceId m

/-- **WHAT A CALL DOES** to the issued tokens, the leases and the live tokens. -/
inductive Move (s : ModuleService) (call : Call) (s' : ModuleService) : Prop
  | kept (issued : s'.issued = s.issued) (leases : s'.serviceTokens = s.serviceTokens)
      (live : ∀ t, s'.live t = true → s.live t = true)
  | renewed (m : String) (token : DelegatedToken) (target : call.target = some m)
      (replaces : call.replaces = true) (isIssued : Issued m call token)
      (issued : s'.issued = token :: s.issued)
      (leases : s'.serviceTokens = s.serviceTokens.insert m (.ofToken token))
      (live : ∀ t, s'.live t = true → t = call.draw.token ∨ s.live t = true)
  | revoked (m : String) (token : DelegatedToken) (target : call.target = some m)
      (isIssued : Issued m call token) (issued : s'.issued = token :: s.issued)
      (leases : s'.serviceTokens = s.serviceTokens)
      (live : ∀ t, s'.live t = true → t ≠ call.draw.token ∧ s.live t = true)
  | abandoned (m : String) (token : DelegatedToken) (target : call.target = some m)
      (abandons : call.abandons = true) (isIssued : Issued m call token)
      (issued : s'.issued = token :: s.issued)
      (leases : s'.serviceTokens = s.serviceTokens)
      (live : ∀ t, s'.live t = true → t = call.draw.token ∨ s.live t = true)
  | dropped (m : String) (target : call.target = some m) (issued : s'.issued = s.issued)
      (leases : s'.serviceTokens = s.serviceTokens.erase m)
      (live : ∀ t, s'.live t = true → s.live t = true ∧
        ∀ lease, s.serviceTokens[m]? = some lease → t ≠ lease.token)

namespace ModuleService

variable {s : ModuleService} {m : String} {draw : Draw}

theorem issueServiceTokenWithScopes_cases (s : ModuleService) (m : String)
    (scopes : List ServiceScope) (draw : Draw) :
    (∃ err, s.issueServiceTokenWithScopes m scopes draw = (.error err, s)) ∨
    ∃ token s', s.issueServiceTokenWithScopes m scopes draw = (.ok token, s') ∧
      token.token = draw.token ∧ token.claims.actor.identifier = moduleServiceId m ∧
      s'.issued = token :: s.issued ∧ s'.serviceTokens = s.serviceTokens ∧
      ∀ t, s'.live t = true → t = draw.token ∨ s.live t = true := by
  rw [issueServiceTokenWithScopes]
  rcases s.security.issue_cases ⟨.service (moduleServiceId m) .write, "default", scopes⟩
    draw.token draw.tokenId draw.now with hi | ⟨claims, store, hi, hact, hli⟩
  · rw [hi]
    exact .inl ⟨_, rfl⟩
  · rw [hi]
    refine .inr ⟨_, _, rfl, rfl, ?_, rfl, rfl, hli⟩
    show claims.actor.identifier = _
    rw [hact]
    rfl

/-- Equal in all that a `Move` speaks of; the windows may differ. -/
structure Agree (s s' : ModuleService) : Prop where
  security : s'.security = s.security
  issued : s'.issued = s.issued
  leases : s'.serviceTokens = s.serviceTokens

theorem Agree.refl (s : ModuleService) : Agree s s := ⟨rfl, rfl, rfl⟩

variable {call : Call} {s' s1 : ModuleService} {answers : StartAnswers}

theorem Agree.kept (h : Agree s s') : Move s call s' := by
  refine .kept h.issued h.leases ?_
  intro t ht
  rw [live, h.security] at ht
  exact ht

/-- What a refresh leaves: a token issued and recorded, or nothing new. -/
def renew (s : ModuleService) (m : String) (scopes : List ServiceScope) (draw : Draw) :
    ModuleService :=
  match s.issueServiceTokenWithScopes m scopes draw with
  | (.error _, s) => s
  | (.ok token, s) => s.recordServiceToken m token

theorem move_renew (scopes : List ServiceScope) (htar : call.target = some m)
    (hrep : call.replaces = true) (hbef : Agree s s1)
    (haft : Agree (s1.renew m scopes call.draw) s') : Move s call s' := by
  rw [renew] at haft
  rcases s1.issueServiceTokenWithScopes_cases m scopes call.draw with
    ⟨err, hi⟩ | ⟨token, s2, hi, htok, hact, hnew, hsa, hli⟩
  · rw [hi] at haft
    exact Agree.kept ⟨haft.security.trans hbef.security,
      haft.issued.trans hbef.issued, haft.leases.trans hbef.leases⟩
  · rw [hi] at haft
    refine .renewed m token htar hrep ⟨htok, hact⟩ ?_ ?_ ?_
    · rw [haft.issued, ← hbef.issued]
      exact hnew
    · rw [haft.leases, ← hbef.leases, ← hsa]
      rfl
    · intro t ht
      rw [live, haft.security] at ht
      rw [live, ← hbef.security]
      exact hli t ht

theorem refreshServiceToken_snd :
    (s.refreshServiceToken m draw).2 = s.renew m s.defaultServiceScopes draw := by
  rw [refreshServiceToken, renew, issueDefaultServiceToken]
  cases s.issueServiceTokenWithScopes m s.defaultServiceScopes draw with
  | mk r s' => cases r <;> rfl

theorem forceRefresh_agree :
    Agree (s.renew m s.defaultServiceScopes draw) (s.forceRefresh m draw).2 := by
  rw [← refreshServiceToken_snd, forceRefresh]
  cases s.refreshServiceToken m draw with
  | mk r s' =>
    cases r with
    | error err => exact Agree.refl _
    | ok lease =>
      dsimp only
      split
      · exact ⟨rfl, rfl, rfl⟩
      · exact Agree.refl _

theorem checkRateLimit_agree (now : Int) : Agree s (s.checkRateLimit m now).2 := by
  rw [checkRateLimit]
  split <;> split <;> exact ⟨rfl, rfl, rfl⟩

theorem move_exchange {now : Int}
    {issue : ModuleService → Except ModuleRuntimeError DelegatedToken × ModuleService}
    (htar : call.target = some m) (hrep : call.replaces = true)
    (hiss : ∀ s, ∃ scopes, issue s = s.issueServiceTokenWithScopes m scopes call.draw) :
    Move s call (s.exchange m now issue).2 := by
  have hlim := checkRateLimit_agree (s := s) (m := m) now
  rw [exchange]
  cases hc : s.checkRateLimit m now with
  | mk r s1 =>
    rw [hc] at hlim
    cases r with
    | error err => exact hlim.kept
    | ok u =>
      obtain ⟨scopes, hi⟩ := hiss s1
      refine move_renew scopes htar hrep hlim ?_
      dsimp only
      rw [hi, renew]
      cases s1.issueServiceTokenWithScopes m scopes call.draw with
      | mk r s2 => cases r <;> exact Agree.refl _

theorem live_revokeServiceToken {token t : String}
    (h : (s.revokeServiceToken token draw).live t = true) : t ≠ token ∧ s.live t = true := by
  obtain ⟨hne, hl⟩ := ServiceTokenStore.live_revoke h
  exact ⟨hne, ServiceTokenStore.live_validateWith hl⟩

theorem revokeServiceTokenIfAny_cases (s : ModuleService) (m : String) (draw : Draw) :
    (s.serviceTokens[m]? = none ∧ s.revokeServiceTokenIfAny m draw = s) ∨
    ∃ lease, s.serviceTokens[m]? = some lease ∧ s.revokeServiceTokenIfAny m draw =
      { s with serviceTokens := s.serviceTokens.erase m }.revokeServiceToken lease.token draw := by
  rw [revokeServiceTokenIfAny]
  cases hl : s.serviceTokens[m]? with
  | none => exact .inl ⟨rfl, rfl⟩
  | some lease => exact .inr ⟨lease, rfl, rfl⟩

theorem move_revokeServiceTokenIfAny (htar : call.target = some m) :
    Move s call (s.revokeServiceTokenIfAny m draw) := by
  rcases revokeServiceTokenIfAny_cases s m draw with
    ⟨-, hs⟩ | ⟨lease, hlea, hs⟩
  · rw [hs]
    exact (Agree.refl s).kept
  · rw [hs]
    refine .dropped m htar rfl rfl ?_
    intro t ht
    obtain ⟨hne, hl⟩ := live_revokeServiceToken ht
    refine ⟨hl, ?_⟩
    intro lease' hle'
    cases hlea.symm.trans hle'
    exact hne

theorem move_startWithToken (hiss : Issued m (.start m answers draw) token)
    (hnew : s1.issued = token :: s.issued) (hlea : s1.serviceTokens = s.serviceTokens)
    (hli : ∀ t, s1.live t = true → t = draw.token ∨ s.live t = true) :
    Move s (.start m answers draw) (s1.startWithToken m answers (some token) draw).2 := by
  rw [startWithToken]
  cases henv : answers.injectRuntimeEnv with
  | error err =>
    refine .abandoned m token rfl ?_ hiss hnew hlea hli
    simp only [Call.abandons, henv]
    rfl
  | ok u =>
    -- a token the runtime could not use is revoked at once
    have hrev : Move s (.start m answers draw) (s1.revokeServiceToken token.token draw) := by
      refine .revoked m token rfl hiss hnew hlea ?_
      intro t ht
      obtain ⟨hne, hl⟩ := live_revokeServiceToken ht
      have hdra : t ≠ draw.token := fun h => hne (h.trans hiss.drawn.symm)
      exact ⟨hdra, (hli t hl).resolve_left hdra⟩
    dsimp only
    cases hrt : answers.runtimeStart with
    | failed err | timedOut err => exact hrev
    | started =>
      dsimp only
      cases hrec : answers.reconciled with
      | error err =>
        refine .abandoned m token rfl ?_ hiss hnew hlea hli
        simp only [Call.abandons, hrt, hrec]
        exact Bool.or_true _
      | ok u =>
        refine .renewed m token rfl (by simp [Call.replaces, hrt]) hiss hnew ?_ hli
        show s1.serviceTokens.insert m _ = _
        rw [hlea]

theorem move_startWithTrigger :
    Move s (.start m answers draw) (s.startWithTrigger m answers draw).2 := by
  have hke : Move s (.start m answers draw) s := (Agree.refl s).kept
  fun_cases startWithTrigger s m answers draw
  case case1 | case2 | case3 | case4 => exact hke
  all_goals
    rename_i hdev _ _ _ hi
    rw [issueModuleServiceToken, if_neg hdev, issueDefaultServiceToken] at hi
    rcases s.issueServiceTokenWithScopes_cases m s.defaultServiceScopes draw with
      ⟨err, hi'⟩ | ⟨token, s1, hi', htok, hact, hnew, hsa, hli⟩
    all_goals
      rw [hi'] at hi
      cases hi
  · exact hke
  · exact move_startWithToken ⟨htok, hact⟩ hnew hsa hli

theorem move_step (s : ModuleService) (call : Call) : Move s call (s.step call) := by
  have hke : Move s call s := (Agree.refl s).kept
  cases call with
  | start m answers draw => exact move_startWithTrigger
  | refreshServiceToken m draw =>
    show Move s _ (s.refreshServiceToken m draw).2
    rw [refreshServiceToken_snd]
    exact move_renew _ rfl rfl (Agree.refl s) (Agree.refl _)
  | issueDefaultToken m draw | issueScopedToken m scopes draw =>
    exact move_exchange rfl rfl (fun s => ⟨_, rfl⟩)
  | forceRefresh m draw => exact move_renew _ rfl rfl (Agree.refl s) forceRefresh_agree
  | stop m answers draw =>
    show Move s _ (s.stop m answers draw).2
    rw [ModuleService.stop]
    split
    · exact hke
    · split
      · exact hke
      · exact hke
      · exact move_revokeServiceTokenIfAny rfl
  | uninstall m answers draw =>
    show Move s _ (s.uninstall m answers draw).2
    rw [ModuleService.uninstall]
    split
    · exact hke
    · dsimp only
      split <;> exact move_revokeServiceTokenIfAny rfl
  | validate token draw | validateForRefresh token draw =>
    exact .kept rfl rfl fun t ht => ServiceTokenStore.live_validateWith ht

end ModuleService

/-! ## Tokens of a stopped module -/

def ModuleService.leaseLive (s : ModuleService) (m : String) : Bool :=
  match s.serviceTokens[m]? with
  | none => false
  | some lease => s.live lease.token

/-- The condition on a step: the token drawn is a new one; a lease of the module is
replaced only once its token is dead; no start of the module gives up between
issue and record; and `stop` is not asked of a module under a dev override. -/
structure Meets (m : String) (s : ModuleService) (call : Call) : Prop where
  fresh : ∀ t ∈ s.issued, t.token ≠ call.draw.token
  dead : call.target = some m → call.replaces = true → s.leaseLive m = false
  recorded : call.target = some m → call.abandons = false
  managed : call.stops m = true → s.isDevOverrideActive m = false

instance (m : String) (s : ModuleService) (call : Call) : Decidable (Meets m s call) :=
  decidable_of_iff
    ((∀ t ∈ s.issued, t.token ≠ call.draw.token) ∧
      (call.target = some m → call.replaces = true → s.leaseLive m = false) ∧
      (call.target = some m → call.abandons = false) ∧
      (call.stops m = true → s.isDevOverrideActive m = false))
    ⟨fun h => ⟨h.1, h.2.1, h.2.2.1, h.2.2.2⟩, fun h => ⟨h.fresh, h.dead, h.recorded, h.managed⟩⟩

/-- The token was handed to this module. -/
def ModuleService.IssuedTo (s : ModuleService) (m : String) (token : DelegatedToken) : Prop :=
  token ∈ s.issued ∧ token.claims.actor.identifier = moduleServiceId m

/-- Every live token of the module is the one its lease names. -/
def Leased (m : String) (s : ModuleService) : Prop :=
  ∀ token, s.IssuedTo m token → s.live token.token = true →
    ∃ lease, s.serviceTokens[m]? = some lease ∧ lease.token = token.token

theorem leaseLive_of {lease : ModuleTokenLease} (hlea : s.serviceTokens[m]? = some lease) :
    s.leaseLive m = s.live lease.token := by
  rw [ModuleService.leaseLive, hlea]

theorem Issued.not_issuedTo (h : Issued m' call token) (hne : m' ≠ m) :
    token.claims.actor.identifier ≠ moduleServiceId m := by
  rw [h.actor]
  exact fun heq => hne (moduleServiceId_inj.mp heq)

theorem leased_step (hs : Leased m s) (hmee : Meets m s call) : Leased m (s.step call) := by
  -- an old token is live now only if it was before: it is not the one just drawn
  have hold : ∀ t ∈ s.issued, t.token = call.draw.token ∨ s.live t.token = true →
      s.live t.token = true := by
    intro t ht h
    exact h.resolve_left (hmee.fresh t ht)
  rintro token ⟨hmem, hact⟩ hlive
  cases s.move_step call with
  | kept issued leases live =>
    rw [leases]
    exact hs token ⟨issued ▸ hmem, hact⟩ (live _ hlive)
  | renewed m' new target replaces isIssued issued leases live =>
    rw [issued] at hmem
    rw [leases, BTreeMap.get_insert]
    by_cases hm : m' = m
    · rw [if_pos hm]
      subst hm
      rcases List.mem_cons.mp hmem with rfl | hmem
      · exact ⟨_, rfl, rfl⟩
      · have hwas := hold token hmem (live _ hlive)
        obtain ⟨lease, hlea, htok⟩ := hs token ⟨hmem, hact⟩ hwas
        have hde := hmee.dead target replaces
        rw [leaseLive_of hlea, htok, hwas] at hde
        cases hde
    · rw [if_neg hm]
      rcases List.mem_cons.mp hmem with rfl | hmem
      · exact absurd hact (isIssued.not_issuedTo hm)
      · exact hs token ⟨hmem, hact⟩ (hold token hmem (live _ hlive))
  | revoked m' new target isIssued issued leases live =>
    rw [issued] at hmem
    rw [leases]
    rcases List.mem_cons.mp hmem with rfl | hmem
    · exact absurd isIssued.drawn (live _ hlive).1
    · exact hs token ⟨hmem, hact⟩ (live _ hlive).2
  | abandoned m' new target abandons isIssued issued leases live =>
    have hm : m' ≠ m := by
      rintro rfl
      rw [hmee.recorded target] at abandons
      cases abandons
    rw [issued] at hmem
    rw [leases]
    rcases List.mem_cons.mp hmem with rfl | hmem
    · exact absurd hact (isIssued.not_issuedTo hm)
    · exact hs token ⟨hmem, hact⟩ (hold token hmem (live _ hlive))
  | dropped m' target issued leases live =>
    rw [issued] at hmem
    obtain ⟨lease, hlea, htok⟩ := hs token ⟨hmem, hact⟩ (live _ hlive).1
    rw [leases, BTreeMap.get_erase]
    by_cases hm : m' = m
    · subst hm
      exact absurd htok.symm ((live _ hlive).2 lease hlea)
    · rw [if_neg hm]
      exact ⟨lease, hlea, htok⟩

def Dead (token : DelegatedToken) (s : ModuleService) : Prop :=
  token ∈ s.issued ∧ s.live token.token = false

theorem dead_step (hs : Dead token s) (hmee : Meets m s call) : Dead token (s.step call) := by
  obtain ⟨hmem, hde⟩ := hs
  have hfre := hmee.fresh token hmem
  have hsti : ∀ s' : ModuleService,
      (s'.live token.token = true → token.token = call.draw.token ∨ s.live token.token = true) →
      s'.live token.token = false := by
    intro s' h
    cases hl : s'.live token.token with
    | false => rfl
    | true =>
      rcases h hl with hdrawn | hli
      · exact absurd hdrawn hfre
      · exact absurd hli (by rw [hde]; exact Bool.false_ne_true)
  cases s.move_step call with
  | kept issued leases live =>
    exact ⟨issued ▸ hmem, hsti _ fun h => .inr (live _ h)⟩
  | renewed m' new target replaces isIssued issued leases live =>
    exact ⟨issued ▸ List.mem_cons_of_mem _ hmem, hsti _ (live _)⟩
  | revoked m' new target isIssued issued leases live =>
    exact ⟨issued ▸ List.mem_cons_of_mem _ hmem, hsti _ fun h => .inr (live _ h).2⟩
  | abandoned m' new target abandons isIssued issued leases live =>
    exact ⟨issued ▸ List.mem_cons_of_mem _ hmem, hsti _ (live _)⟩
  | dropped m' target issued leases live =>
    exact ⟨issued ▸ hmem, hsti _ fun h => .inr (live _ h).1⟩

theorem step_of_ends (hen : call.ends m = true)
    (hman : call.stops m = true → s.isDevOverrideActive m = false)
    (hok : (s.answer call).1 = true) : s.step call = s.revokeServiceTokenIfAny m call.draw := by
  cases call with
  | stop m' answers draw =>
    obtain rfl : m' = m := of_decide_eq_true hen
    show (s.stop m' answers draw).2 = _
    have hok' : (s.stop m' answers draw).1.isOk = true := hok
    rw [ModuleService.stop, if_neg (by rw [hman hen]; exact Bool.false_ne_true)] at hok' ⊢
    split at hok'
    · cases hok'
    · cases hok'
    · rfl
  | uninstall m' answers draw =>
    obtain rfl : m' = m := of_decide_eq_true hen
    show (s.uninstall m' answers draw).2 = _
    have hok' : (s.uninstall m' answers draw).1.isOk = true := hok
    rw [ModuleService.uninstall] at hok' ⊢
    cases hlo : answers.load with
    | error err =>
      rw [hlo] at hok'
      cases hok'
    | ok u =>
      dsimp only
      split <;> rfl
  | start _ _ _ | refreshServiceToken _ _ | issueDefaultToken _ _ | issueScopedToken _ _ _
  | forceRefresh _ _ | validate _ _ | validateForRefresh _ _ => cases hen

theorem dead_of_revoke {draw : Draw} (hs : Leased m s) (hto : s.IssuedTo m token) :
    (s.revokeServiceTokenIfAny m draw).live token.token = false := by
  rw [Bool.eq_false_iff]
  intro hli
  rcases s.revokeServiceTokenIfAny_cases m draw with ⟨hno, hst⟩ | ⟨lease, hso, hst⟩
  · rw [hst] at hli
    obtain ⟨lease, hlea, -⟩ := hs token hto hli
    cases hno.symm.trans hlea
  · rw [hst] at hli
    obtain ⟨hne, hl⟩ := ModuleService.live_revokeServiceToken hli
    obtain ⟨lease', hlea, htok⟩ := hs token hto hl
    cases hso.symm.trans hlea
    exact hne htok.symm

theorem Dead.rejected (hs : Dead token s) (limits : Limits) (now el : Int) :
    (s.security.validateWith token.token limits now el).1.isOk = false := by
  cases hv : (s.security.validateWith token.token limits now el).1 with
  | error err => rfl
  | ok claims =>
    have hli := ServiceTokenStore.validateWith_live hv
    exact absurd hli (by rw [show s.security.live token.token = false from hs.2]; decide)

open Run in
/-- **A STOPPED MODULE HOLDS NO VALID TOKEN**, in every run whose steps all meet the
condition: once a stop or an uninstall of the module has returned `Ok`, no token
issued to it before is accepted again, by either validation. -/
theorem stopped_token_rejected (m : String) (init : ModuleService) (hinit : init.issued = [])
    (before after : List Call) (ending : Call) (hends : ending.ends m = true)
    (hmeets : Along ModuleService.step (Meets m) init (before ++ ending :: after))
    (hok : ((run ModuleService.step init before).answer ending).1 = true)
    (token : DelegatedToken)
    (htoken : (run ModuleService.step init (before ++ [ending])).IssuedTo m token)
    (now elapsed : Int) :
    let s := run ModuleService.step init (before ++ ending :: after)
    (s.security.validate token.token now elapsed).1.isOk = false ∧
      (s.security.validateForRefresh token.token now elapsed).1.isOk = false := by
  intro s
  rw [along_append] at hmeets
  obtain ⟨hbef, hen, haft⟩ := hmeets
  rw [run_append, run_cons, run_nil] at htoken
  generalize hb : run ModuleService.step init before = b at hen haft hok htoken
  have hlea : Leased m b := by
    rw [← hb]
    refine invariant ?_ ?_ hbef
    · exact fun s a hs ha => leased_step hs ha
    · rintro t ⟨ht, -⟩
      rw [hinit] at ht
      cases ht
  have hst := step_of_ends hends hen.managed hok
  have hiss : b.IssuedTo m token := by
    refine ⟨?_, htoken.2⟩
    have hmem := htoken.1
    rw [hst] at hmem
    rcases b.revokeServiceTokenIfAny_cases m ending.draw with ⟨-, h⟩ | ⟨lease, -, h⟩ <;>
      rw [h] at hmem <;> exact hmem
  have hde : Dead token (b.step ending) := by
    refine ⟨htoken.1, ?_⟩
    rw [hst]
    exact dead_of_revoke hlea hiss
  have hend : Dead token s := by
    have hs : s = run ModuleService.step (b.step ending) after := by
      rw [← hb]
      exact run_append _ _ _ _
    rw [hs]
    refine invariant ?_ hde haft
    exact fun s a hs ha => dead_step hs ha
  exact ⟨hend.rejected _ now elapsed, hend.rejected _ now elapsed⟩

/-! ### A module started, refreshed and stopped -/

def sampleStore : ServiceTokenStore :=
  { lifetime := 1000, idleTimeout := 1000, refreshGrace := 100, cleanupInterval := 10,
    tokens := ∅, nextCleanup := 0, poisoned := false }

def sampleService : ModuleService :=
  { security := sampleStore, serviceTokens := ∅, windows := ∅, defaultServiceScopes := [],
    devOverrides := [], issued := [] }

def sampleStart (draw : Draw) : Call :=
  .start "notes" ⟨.ok (), .ok (), false, .ok (), .ok (), .ok (), .ok (), .ok (), .started, 1,
    .ok ()⟩ draw

def sampleStop (draw : Draw) : Call := .stop "notes" ⟨.ok (), .ok ()⟩ draw

def sampleToken (text id : String) (now : Int) : DelegatedToken :=
  ⟨text, id, .service "module:notes" .write, "default", [], now, now + 1000⟩

open Run in
theorem stopped_token_rejected_notes :
    let s := run ModuleService.step sampleService
      ([sampleStart ⟨"t1", "1", 0, 0⟩] ++ [sampleStop ⟨"", "", 5, 5⟩])
    (s.security.validate "t1" 6 6).1.isOk = false ∧
      (s.security.validateForRefresh "t1" 6 6).1.isOk = false := by
  refine stopped_token_rejected "notes" sampleService rfl [sampleStart ⟨"t1", "1", 0, 0⟩] []
    (sampleStop ⟨"", "", 5, 5⟩) rfl ?_ ?_ (sampleToken "t1" "1" 0) ⟨?_, by decide⟩ 6 6
  · decide +kernel
  · decide +kernel
  · decide +kernel

open Run in
/-- A module is started and runs with `t1`; its token is refreshed to `t2`; it is
stopped. `t2` is revoked, `t1` is accepted as before. -/
theorem refreshed_token_survives :
    let calls := [sampleStart ⟨"t1", "1", 0, 0⟩, .refreshServiceToken "notes" ⟨"t2", "2", 3, 3⟩]
    let running := run ModuleService.step sampleService calls
    let stopped := run ModuleService.step sampleService (calls ++ [sampleStop ⟨"", "", 5, 5⟩])
    (running.answer (sampleStop ⟨"", "", 5, 5⟩)).1 = true ∧
      sampleToken "t1" "1" 0 ∈ stopped.issued ∧
      (stopped.security.validate "t2" 6 6).1.isOk = false ∧
      (stopped.security.validate "t1" 6 6).1.isOk = true ∧
      (stopped.security.validateForRefresh "t1" 6 6).1.isOk = true := by
  decide +kernel

open Run in
/-- **ONE LIVE TOKEN**: in every run whose steps all meet the condition, at most one token
that was issued to a module is live. -/
theorem one_live_token (m : String) (init : ModuleService) (hinit : init.issued = [])
    (calls : List Call) (hmeets : Along ModuleService.step (Meets m) init calls) :
    let s := run ModuleService.step init calls
    ∀ t t', s.IssuedTo m t → s.IssuedTo m t' → s.live t.token = true → s.live t'.token = true →
      t.token = t'.token := by
  intro s t t' ht ht' hlive hlive'
  have hlea : Leased m s := by
    refine invariant (fun _ _ hs hm => leased_step hs hm) ?_ hmeets
    rintro t ⟨ht, -⟩
    rw [hinit] at ht
    cases ht
  obtain ⟨lease, hget, htok⟩ := hlea t ht hlive
  obtain ⟨lease', hget', htok'⟩ := hlea t' ht' hlive'
  cases hget.symm.trans hget'
  exact htok.symm.trans htok'

open Run in
/-- The module is started, stopped and started again. -/
theorem one_live_token_notes :
    let s := run ModuleService.step sampleService
      [sampleStart ⟨"t1", "1", 0, 0⟩, sampleStop ⟨"", "", 5, 5⟩, sampleStart ⟨"t2", "2", 7, 7⟩]
    sampleToken "t1" "1" 0 ∈ s.issued ∧ s.live "t2" = true ∧
      ∀ t, s.IssuedTo "notes" t → s.live t.token = true → t.token = "t2" :=
  ⟨by decide +kernel, by decide +kernel, fun t ht hlive =>
    one_live_token "notes" sampleService rfl _ (by decide +kernel)
      t (sampleToken "t2" "2" 7) ht ⟨by decide +kernel, by decide⟩ hlive (by decide +kernel)⟩

end Fenrir.Tokens
