import Fenrir.Gateway.Proxy

/-! # Who a gateway request says it is from

The host states the identity of a request upstream in five headers. They
are appended to the request first, and then every header of the client that
is not filtered out is appended too: the header map keeps both. -/

namespace Fenrir.Gateway

open List

def gatewayServiceHeader : String := "x-fenrir-gateway-service"
def gatewayProtocolHeader : String := "x-fenrir-gateway-protocol"
def actorHeader : String := "x-fenrir-actor"
def tenantHeader : String := "x-fenrir-tenant"
def scopesHeader : String := "x-fenrir-scopes"

def identityHeaders : List String :=
  [gatewayServiceHeader, gatewayProtocolHeader, actorHeader, tenantHeader, scopesHeader]

/-- The host-derived identity: one value for each header, none or one for the scopes. -/
structure CarriesIdentity (serviceId : String) (kind : GatewayRequestKind)
    (claims : Option DelegatedTokenClaims) (headers : HeaderMap) : Prop where
  service : headers.getAll gatewayServiceHeader = [Text.utf8 serviceId]
  protocol : headers.getAll gatewayProtocolHeader = [Text.utf8 kind.asStr]
  actor : headers.getAll actorHeader = [Text.utf8 ((claims.map (·.actor.identifier)).getD "public")]
  tenant : headers.getAll tenantHeader = [Text.utf8 ((claims.map (·.tenantId)).getD "public")]
  scopes : headers.getAll scopesHeader = match (claims.map (·.scopes)).getD [] with
    | [] => []
    | scopes => [Text.utf8 (String.intercalate " " (scopes.map (·.text)))]

theorem getAll_append (as bs : HeaderMap) (name : String) :
    HeaderMap.getAll (as ++ bs) name = as.getAll name ++ bs.getAll name := by
  simp [HeaderMap.getAll]

variable {headers : HeaderMap} {env : GatewayEnv} {request : GatewayRequest} {admitted : Admitted}
  {upstream : UpstreamRequest}

theorem getAll_eq_nil_iff {name : String} :
    headers.getAll name = [] ↔ ∀ field ∈ headers, field.1 ≠ name := by
  simp [HeaderMap.getAll]

theorem hostHeaders_carry (admitted : Admitted) (kind : GatewayRequestKind) :
    CarriesIdentity admitted.serviceId kind admitted.claims (hostHeaders admitted kind) := by
  cases hc : admitted.claims with
  | none =>
    refine ⟨?_, ?_, ?_, ?_, ?_⟩ <;>
      simp [hostHeaders, hc, HeaderMap.getAll, gatewayServiceHeader, gatewayProtocolHeader,
        actorHeader, tenantHeader, scopesHeader]
  | some claims =>
    cases hs : claims.scopes with
    | nil | cons scope more =>
      refine ⟨?_, ?_, ?_, ?_, ?_⟩ <;>
        simp [hostHeaders, hc, hs, HeaderMap.getAll, gatewayServiceHeader,
          gatewayProtocolHeader, actorHeader, tenantHeader, scopesHeader]

theorem CarriesIdentity.iff_of_own {sid : String} {kind : GatewayRequestKind}
    {claims : Option DelegatedTokenClaims} {own : HeaderMap}
    (h : CarriesIdentity sid kind claims own) : CarriesIdentity sid kind claims headers ↔
      ∀ name ∈ identityHeaders, headers.getAll name = own.getAll name := by
  constructor
  · intro hc name hna
    simp only [identityHeaders, mem_cons, not_mem_nil, or_false] at hna
    rcases hna with rfl | rfl | rfl | rfl | rfl
    · rw [hc.service, h.service]
    · rw [hc.protocol, h.protocol]
    · rw [hc.actor, h.actor]
    · rw [hc.tenant, h.tenant]
    · rw [hc.scopes, h.scopes]
  · intro hall
    refine ⟨?_, ?_, ?_, ?_, ?_⟩
    · rw [hall _ (by simp [identityHeaders]), h.service]
    · rw [hall _ (by simp [identityHeaders]), h.protocol]
    · rw [hall _ (by simp [identityHeaders]), h.actor]
    · rw [hall _ (by simp [identityHeaders]), h.tenant]
    · rw [hall _ (by simp [identityHeaders]), h.scopes]

section

variable {env : GatewayEnv} {request : GatewayRequest} {admitted : Admitted}

variable {target : ModuleIngressTarget} {upstream : UpstreamRequest}

theorem getAll_built (h : buildRequest env request admitted target = some upstream)
    {name : String} (hna : name ∈ identityHeaders) :
    upstream.headers.getAll name = (hostHeaders admitted request.kind).getAll name
      ++ (letThrough env request admitted.claims).getAll name := by
  have hne : name ≠ forwardedForHeader := by
    intro heq
    rw [heq] at hna
    exact absurd hna (by decide)
  simp only [buildRequest] at h
  split at h
  · cases h
    have hfor : ∀ value : Option Bytes,
        HeaderMap.getAll (value.map fun v => (forwardedForHeader, v)).toList name = [] := by
      intro value
      cases value with
      | none => rfl
      | some v => exact getAll_eq_nil_iff.mpr (by simpa using hne.symm)
    show HeaderMap.getAll (_ ++ _ ++ _) name = _
    rw [getAll_append, getAll_append, hfor, append_nil]
  · cases h

/-- No header the client sent under an identity name goes on to the service. -/
def NoneForged (env : GatewayEnv) (request : GatewayRequest) (admitted : Admitted) : Prop :=
  ∀ field ∈ request.headers, field.1 ∈ identityHeaders →
    forwardsHeader env (trustedHop env request admitted.claims) field.1 = false

theorem built_carries_iff (h : buildRequest env request admitted target = some upstream) :
    CarriesIdentity admitted.serviceId request.kind admitted.claims upstream.headers ↔
      NoneForged env request admitted := by
  rw [(hostHeaders_carry admitted request.kind).iff_of_own]
  constructor
  · intro hall field hfie hna
    have hval := hall field.1 hna
    rw [getAll_built h hna, append_right_eq_self, getAll_eq_nil_iff] at hval
    by_contra hfor
    exact hval field (mem_filter.mpr ⟨hfie, by simpa using hfor⟩) rfl
  · intro hno name hna
    rw [getAll_built h hna, append_right_eq_self, getAll_eq_nil_iff]
    intro field hfie heq
    obtain ⟨hmem, hfor⟩ := mem_filter.mp hfie
    rw [hno field hmem (heq ▸ hna)] at hfor
    cases hfor

end

/-! ## What is sent -/

theorem sendWithFailover_tried {T : Type} (method : String)
    (send : Nat → T → Except UpstreamError UpstreamResponse) (index : Nat) (targets : List T) :
    (sendWithFailover method send index targets).1.head? = targets.head? ∧
      ∀ target ∈ (sendWithFailover method send index targets).1, target ∈ targets := by
  induction targets generalizing index with
  | nil => exact ⟨rfl, nofun⟩
  | cons target targets ih =>
    rw [sendWithFailover]
    dsimp only
    split
    · refine ⟨rfl, ?_⟩
      intro t ht
      rcases mem_cons.mp ht with rfl | hmo
      · exact mem_cons_self
      · exact mem_cons_of_mem _ ((ih (index + 1)).2 t hmo)
    · refine ⟨rfl, ?_⟩
      intro t ht
      rw [mem_singleton.mp ht]
      exact mem_cons_self

theorem gatewayProxy_refused {err : ServiceActionProblem} (h : admission env request = .error err) :
    (gatewayProxy env request).1 = [] := by
  simp only [gatewayProxy, h]

section

variable (h : admission env request = .ok admitted)

include h

theorem gatewayProxy_requests : (gatewayProxy env request).1 =
      (sendWithFailover request.method (sendTo env request admitted) 0
        admitted.targets).1.filterMap (buildRequest env request admitted) := by
  simp only [gatewayProxy, h]

theorem gatewayProxy_built (hse : upstream ∈ (gatewayProxy env request).1) :
    ∃ target ∈ admitted.targets, buildRequest env request admitted target = some upstream := by
  rw [gatewayProxy_requests h] at hse
  obtain ⟨target, htri, hbui⟩ := mem_filterMap.mp hse
  exact ⟨target, (sendWithFailover_tried _ _ 0 admitted.targets).2 target htri, hbui⟩

theorem gatewayProxy_first
    {target : ModuleIngressTarget} (hfir : admitted.targets.head? = some target)
    (hbui : buildRequest env request admitted target = some upstream) :
    upstream ∈ (gatewayProxy env request).1 := by
  rw [gatewayProxy_requests h]
  have hhe := (sendWithFailover_tried request.method (sendTo env request admitted) 0
    admitted.targets).1
  exact mem_filterMap.mpr ⟨target, mem_of_head? (hhe.trans hfir), hbui⟩

end

/-- The first target of an admitted request can be sent to: there is one, its address
is a URL and the host's own values are header values. -/
def Sendable (env : GatewayEnv) (request : GatewayRequest) (admitted : Admitted) : Prop :=
  ∃ target, admitted.targets.head? = some target ∧ (buildRequest env request admitted target).isSome

theorem gatewayProxy_sendable (h : admission env request = .ok admitted)
    (hse : upstream ∈ (gatewayProxy env request).1) : Sendable env request admitted := by
  rw [gatewayProxy_requests h] at hse
  cases htar : admitted.targets with
  | nil =>
    rw [htar] at hse
    cases hse
  | cons target tgts =>
    cases hbui : buildRequest env request admitted target with
    | some first => exact ⟨target, by rw [htar]; rfl, by rw [hbui]; rfl⟩
    | none =>
      have hst : sendTo env request admitted 0 target = .error .other := by
        rw [sendTo, hbui]
      simp [htar, sendWithFailover, hst, failsOver, shouldFailOverGatewayError, hbui] at hse

/-- Every request that leaves the host carries the host-derived identity and no other. -/
def IdentityKept (env : GatewayEnv) (request : GatewayRequest) : Prop :=
  ∀ upstream ∈ (gatewayProxy env request).1, ∃ admitted, admission env request = .ok admitted ∧
    CarriesIdentity admitted.serviceId request.kind admitted.claims upstream.headers

/-- **FORGED IDENTITY.** The identity upstream is the host's own exactly when no
identity header of the client survives the filter (or nothing is sent at all). -/
theorem identityKept_iff (env : GatewayEnv) (request : GatewayRequest) : IdentityKept env request ↔
      ∀ admitted, admission env request = .ok admitted → Sendable env request admitted →
        NoneForged env request admitted := by
  constructor
  · rintro hke admitted hadm ⟨target, hfir, hso⟩
    obtain ⟨upstream, hbui⟩ := Option.isSome_iff_exists.mp hso
    obtain ⟨admitted', had', hcar⟩ := hke upstream (gatewayProxy_first hadm hfir hbui)
    obtain rfl : admitted = admitted' := Except.ok.inj (hadm.symm.trans had')
    exact (built_carries_iff hbui).mp hcar
  · intro hno upstream hse
    cases hadm : admission env request with
    | error err =>
      rw [gatewayProxy_refused hadm] at hse
      cases hse
    | ok admitted =>
      obtain ⟨target, htar, hbui⟩ := gatewayProxy_built hadm hse
      refine ⟨admitted, rfl, (built_carries_iff hbui).mpr ?_⟩
      exact hno admitted hadm (gatewayProxy_sendable hadm hse)

/-! ## A forged actor -/

/-- A host with one public service, `notes`, that listens on a local port. -/
def sampleEnv : GatewayEnv where
  moduleService := true
  securityManager := true
  decode := some
  registry := fun id =>
    if id = "notes" then
      some ⟨.active, some ⟨none, .publicAccess, .default, [.http]⟩, none⟩
    else none
  validateServiceToken := fun _ => .error (.serviceToken .notFound)
  tryAcquireWithLimit := fun _ _ => true
  resolveIngressTargets := fun _ => .ok [.runtimePort "notes" "notes" 8080]
  validMethod := fun _ => true
  validUrl := fun _ => true
  headerText := fun _ => none
  validHeaderValue := fun _ => true
  edgeHopSecret := [0]
  clientIp := ⟨none, fun peer _ => peer⟩
  send := fun _ _ => .ok ⟨200, [], []⟩
  convert := .ok
  securityErrorText := fun _ => ""

def forgedRequest : GatewayRequest where
  serviceParam := "notes"
  tail := "list"
  query := none
  peer := some "192.0.2.1"
  method := "GET"
  headers := [("x-fenrir-actor", Text.utf8 "admin")]
  body := .ok []
  kind := .http

/-- The service sees both the host's `public` and the client's `admin`. -/
theorem forged_actor_forwarded : ¬ IdentityKept sampleEnv forgedRequest := by
  intro hke
  have hse : (gatewayProxy sampleEnv forgedRequest).1.map
      (fun upstream => upstream.headers.getAll actorHeader) =
      [[Text.utf8 "public", Text.utf8 "admin"]] := by
    decide +kernel
  obtain ⟨upstream, hmem, hact⟩ := mem_map.mp (hse ▸ mem_cons_self)
  obtain ⟨admitted, -, hcar⟩ := hke upstream hmem
  have htwo := congrArg List.length (hact.symm.trans hcar.actor)
  cases htwo

end Fenrir.Gateway
