import Fenrir.Security.ServiceTokens
import Fenrir.Lib.Text

/-! # The module gateway

`gateway_proxy` of `infra/http/routes.rs`: a request for a service is
checked (service, protocol, token, rate limit, targets), then sent to the
service's targets in turn until one answers for good. What leaves the host
is a list of `UpstreamRequest`s; their headers are the host's own first and
then the client's, less a few. -/

namespace Fenrir.Gateway

/-! ## Services as the gateway sees them -/

inductive ServiceIngressProtocol where
  | http | grpc
  deriving DecidableEq

inductive ServiceIngressAccess where
  | internalAccess | publicAccess
  deriving DecidableEq

inductive ServiceRateLimit where
  | default | unlimited
  | customPerSecond (limit : Nat)

inductive ServiceTenantGuard where
  | any
  | fixed (tenant : String)
  | allowList (tenants : List String)
  deriving DecidableEq

def ServiceTenantGuard.allows : ServiceTenantGuard → String → Bool
  | .any, _ => true
  | .fixed value, tenantId => value == tenantId
  | .allowList values, tenantId => values.contains tenantId

structure ServiceIngressMetadata where
  routePrefix : Option String
  access : ServiceIngressAccess
  rateLimit : ServiceRateLimit
  protocols : List ServiceIngressProtocol

structure ServiceSecurityMetadata where
  internalOnly : Bool
  allowedRoles : List ServiceRole
  requiredScopes : List ServiceScope
  tenant : ServiceTenantGuard
  deriving DecidableEq

def ServiceSecurityMetadata.allowsRole (self : ServiceSecurityMetadata) (role : ServiceRole) :
    Bool :=
  self.allowedRoles.isEmpty || self.allowedRoles.any role.satisfies

def ServiceSecurityMetadata.allowsClaims (self : ServiceSecurityMetadata)
    (claims : DelegatedTokenClaims) : Bool :=
  let actorAllowed :=
    if self.internalOnly then
      match claims.actor with
      | .service _ role => self.allowsRole role
      | .user _ _ => false
    else true
  actorAllowed && self.tenant.allows claims.tenantId
    && self.requiredScopes.all claims.scopes.contains

structure ServiceSnapshot where
  status : ServiceStatus
  ingress : Option ServiceIngressMetadata
  security : Option ServiceSecurityMetadata

/-! ## Targets -/

/-- The characters of a printed socket address: they never end the authority of a URL. -/
def isAddressChar (c : Char) : Bool :=
  c.isAlphanum || c == '.' || c == ':' || c == '[' || c == ']' || c == '%'

/-- `SocketAddr`, by the text it prints as. -/
structure SocketAddr where
  text : String
  nonempty : text.toList ≠ []
  printed : ∀ c ∈ text.toList, isAddressChar c = true

inductive ModuleIngressTarget where
  | runtimePort (moduleId instanceId : String) (port : UInt16)
  | devService (moduleId serviceId : String) (endpoint : SocketAddr)
  | declaredService (moduleId serviceId : String) (endpoint : SocketAddr)

def targetOrigin : ModuleIngressTarget → String
  | .runtimePort _ _ port => s!"127.0.0.1:{port.toNat}"
  | .devService _ _ endpoint => endpoint.text
  | .declaredService _ _ endpoint => endpoint.text

def buildTargetUrl (target : ModuleIngressTarget) (path : String) : String :=
  "http://" ++ targetOrigin target ++ path

/-! ## The path sent upstream -/

/-- What the route prefix keeps of itself: without its slashes at both ends. -/
def normalizedRoute (routePrefix : List Char) : List Char :=
  (((routePrefix.reverse.dropWhile (· == '/')).reverse).dropWhile (· == '/'))

/-- `service_route_path` up to the query. -/
def routedPath (ingress : Option ServiceIngressMetadata) (path : List Char) : List Char :=
  let tail := path.dropWhile (· == '/')
  match ingress.bind (·.routePrefix) with
  | none => '/' :: tail
  | some routePrefix =>
    let normalized := normalizedRoute routePrefix.toList
    if routePrefix == "/" || normalized.isEmpty then '/' :: tail
    else
      match Text.stripStart normalized tail with
      | some [] => '/' :: normalized
      | some ('/' :: _) => '/' :: tail
      | _ => '/' :: normalized ++ (if tail.isEmpty then [] else '/' :: tail)

/-- The query as it is appended; an empty one is dropped. -/
def askedText : Option String → List Char
  | none => []
  | some query => if query.toList.isEmpty then [] else '?' :: query.toList

def serviceRoutePath (ingress : Option ServiceIngressMetadata) (path : String)
    (query : Option String) : String :=
  String.ofList (routedPath ingress path.toList ++ askedText query)

/-! ## Requests and answers -/

inductive GatewayRequestKind where
  | http | grpc
  deriving DecidableEq

def GatewayRequestKind.asStr : GatewayRequestKind → String
  | .http => "http"
  | .grpc => "grpc"

structure ServiceActionProblem where
  status : Nat
  (code message : String)

/-- Header fields in the order of iteration; names are lower case, one may repeat. -/
abbrev HeaderMap := List (String × Bytes)

/-- `HeaderMap::get`: the first value. -/
def HeaderMap.get (headers : HeaderMap) (name : String) : Option Bytes :=
  (headers.find? (·.1 == name)).map Prod.snd

def HeaderMap.getAll (headers : HeaderMap) (name : String) : List Bytes :=
  (headers.filter (·.1 == name)).map Prod.snd

structure UpstreamRequest where
  (method url : String)
  headers : HeaderMap
  body : Bytes

structure UpstreamResponse where
  status : Nat
  headers : HeaderMap
  body : Bytes

/-- `reqwest::Error`, as far as the failover rules ask. -/
inductive UpstreamError where
  | connect | timeout | other
  deriving DecidableEq

inductive SecurityError where
  | serviceToken (err : ServiceTokenError)
  | other (message : String)

inductive ModuleIngressError where
  | unsupportedService | invalidModuleId | moduleNotRunning | modulePortUnknown
  | devServiceInactive | declaredServiceMissing
  | runtime (message : String)
  deriving DecidableEq

/-- `[server.edge]`: the configured client-address header and how a client's address is
resolved from the peer and the values of that header. -/
structure ClientIpPolicy where
  header : Option String
  resolve : Option String → List Bytes → Option String

def clientAddressHeaders : List String :=
  ["x-forwarded-for", "x-real-ip", "forwarded", "cf-connecting-ip", "true-client-ip"]

def ClientIpPolicy.isAddressHeader (self : ClientIpPolicy) (name : String) : Bool :=
  clientAddressHeaders.contains name || self.header == some name

structure GatewayRequest where
  (serviceParam tail : String)
  (query peer : Option String)
  method : String
  headers : HeaderMap
  body : Except String Bytes
  kind : GatewayRequestKind

/-- The host around one request: its services, what the security manager, the rate
limiter and the module service answer, and what happens upstream (per attempt). -/
structure GatewayEnv where
  (moduleService securityManager : Bool)
  /-- `urlencoding::decode`. -/
  decode : String → Option String
  registry : String → Option ServiceSnapshot
  validateServiceToken : String → Except SecurityError DelegatedTokenClaims
  tryAcquireWithLimit : String → Option Nat → Bool
  resolveIngressTargets : String → Except ModuleIngressError (List ModuleIngressTarget)
  /-- `Method::from_bytes` of the client crate. -/
  validMethod : String → Bool
  /-- `Url::parse` of the client crate. -/
  validUrl : String → Bool
  /-- `HeaderValue::to_str`. -/
  headerText : Bytes → Option String
  /-- `HeaderValue::try_from`. -/
  validHeaderValue : Bytes → Bool
  edgeHopSecret : Bytes
  clientIp : ClientIpPolicy
  send : Nat → UpstreamRequest → Except UpstreamError UpstreamResponse
  convert : UpstreamResponse → Except ServiceActionProblem UpstreamResponse
  securityErrorText : SecurityError → String

def problem (status : Nat) (code message : String) : ServiceActionProblem :=
  ⟨status, code, message⟩

/-! ## The service token of a request -/

def tokenInvalid : ServiceActionProblem :=
  problem 401 "gateway_token_invalid" "service token is malformed or unsupported"

def extractOptionalGatewayToken (env : GatewayEnv) (headers : HeaderMap) :
    Except ServiceActionProblem (Option String) :=
  match headers.get "authorization" with
  | none => .ok none
  | some value =>
    match env.headerText value with
    | none => .error tokenInvalid
    | some raw =>
      let text := (Text.trim raw).toList
      if text.isEmpty then .ok none
      else
        let stripped :=
          (Text.stripStart "Bearer ".toList text).orElse fun _ =>
            Text.stripStart "bearer ".toList text
        match stripped with
        | none => .error tokenInvalid
        | some rest =>
          let token := Text.trim (String.ofList rest)
          if token.isEmpty then .error tokenInvalid else .ok (some token)

def extractGatewayToken (env : GatewayEnv) (headers : HeaderMap) :
    Except ServiceActionProblem String :=
  match extractOptionalGatewayToken env headers with
  | .error err => .error err
  | .ok (some token) => .ok token
  | .ok none =>
    .error (problem 401 "gateway_token_missing" "service token missing from Authorization header")

/-- The token errors that mean "no such token any more". -/
def SecurityError.isTokenGone : SecurityError → Bool
  | .serviceToken .notFound => true
  | .serviceToken .expired => true
  | .serviceToken .idleTimeout => true
  | _ => false

def mapServiceTokenError (env : GatewayEnv) (err : SecurityError) : ServiceActionProblem :=
  if err.isTokenGone then
    problem 401 "gateway_token_expired" "service token is expired, revoked, or idle timed out"
  else
    problem 502 "gateway_security_failure"
      ("security subsystem rejected token: " ++ env.securityErrorText err)

def mapIngressError (serviceId : String) : ModuleIngressError → ServiceActionProblem
  | .unsupportedService | .devServiceInactive | .declaredServiceMissing =>
    problem 404 "gateway_unknown_service"
      s!"service '{serviceId}' is not registered for ingress"
  | .invalidModuleId =>
    problem 400 "gateway_invalid_service" s!"service identifier '{serviceId}' is invalid"
  | .moduleNotRunning | .modulePortUnknown =>
    problem 503 "gateway_service_unavailable"
      s!"service '{serviceId}' is not currently running"
  | .runtime inner =>
    problem 502 "gateway_service_failure"
      s!"service '{serviceId}' cannot be reached: {inner}"

/-! ## The checks -/

/-- A request that passed: who is asking, and where it may go. -/
structure Admitted where
  serviceId : String
  claims : Option DelegatedTokenClaims
  targets : List ModuleIngressTarget
  path : String
  body : Bytes

/-- A token the service's own rules accept. -/
def checkClaims (serviceId : String) (security : Option ServiceSecurityMetadata)
    (claims : DelegatedTokenClaims) : Except ServiceActionProblem (Option DelegatedTokenClaims) :=
  match security with
  | none => .ok (some claims)
  | some metadata =>
    if metadata.allowsClaims claims then .ok (some claims)
    else .error (problem 403 "gateway_access_denied"
      s!"service '{serviceId}' denied the provided token")

/-- The claims of a request: an internal service needs a valid token, a public one
takes a valid token into account and ignores one that is gone. -/
def requestClaims (env : GatewayEnv) (serviceId : String) (access : ServiceIngressAccess)
    (security : Option ServiceSecurityMetadata) (headers : HeaderMap) :
    Except ServiceActionProblem (Option DelegatedTokenClaims) :=
  match access with
  | .internalAccess => do
      let token ← extractGatewayToken env headers
      match env.validateServiceToken token with
      | .error err => .error (mapServiceTokenError env err)
      | .ok validated => checkClaims serviceId security validated
  | .publicAccess => do
      match ← extractOptionalGatewayToken env headers with
      | none => .ok none
      | some token =>
        match env.validateServiceToken token with
        | .ok validated => checkClaims serviceId security validated
        | .error err =>
          if err.isTokenGone then .ok none else .error (mapServiceTokenError env err)

/-- What the service itself requires of the kind of request. -/
def checkService (snapshot : ServiceSnapshot) (serviceId : String) (kind : GatewayRequestKind) :
    Except ServiceActionProblem ServiceIngressAccess :=
  let access := (snapshot.ingress.map (·.access)).getD .internalAccess
  let supportsGrpc := (snapshot.ingress.map (·.protocols.contains .grpc)).getD false
  if kind = .grpc ∧ supportsGrpc = false then
    .error (problem 400 "gateway_protocol_unsupported"
      s!"service '{serviceId}' does not expose {kind.asStr} ingress")
  else if access = .internalAccess ∧ snapshot.security = none then
    .error (problem 403 "gateway_security_missing"
      s!"service '{serviceId}' is missing security metadata")
  else .ok access

/-- `gateway_proxy` up to the first request that leaves the host. -/
def admission (env : GatewayEnv) (request : GatewayRequest) :
    Except ServiceActionProblem Admitted := do
  if !env.moduleService then
    .error (problem 503 "module_service_unavailable" "module service unavailable")
  if !env.securityManager then
    .error (problem 503 "gateway_security_unavailable"
      "security manager unavailable for service gateway")
  let serviceId ← match env.decode request.serviceParam with
    | some id => .ok id
    | none => .error (problem 400 "gateway_invalid_service"
        s!"service identifier '{request.serviceParam}' is invalid")
  let snapshot ← match env.registry serviceId with
    | some snapshot => .ok snapshot
    | none => .error (problem 404 "gateway_unknown_service"
        s!"service '{serviceId}' is not registered for ingress")
  if snapshot.status ≠ .active then
    .error (problem 503 "gateway_service_unavailable"
      s!"service '{serviceId}' is not currently running")
  let access ← checkService snapshot serviceId request.kind
  let claims ← requestClaims env serviceId access snapshot.security request.headers
  let rateLimitOverride := snapshot.ingress.bind fun ingress =>
    match ingress.rateLimit with
    | .default => none
    | .unlimited => some 0
    | .customPerSecond limit => some limit
  if !env.tryAcquireWithLimit serviceId rateLimitOverride then
    .error (problem 429 "gateway_rate_limited" s!"service '{serviceId}' exceeded the rate limit")
  let targets ← match env.resolveIngressTargets serviceId with
    | .ok targets => .ok targets
    | .error err => .error (mapIngressError serviceId err)
  if !env.validMethod request.method then
    .error (problem 405 "gateway_method_not_allowed"
      s!"HTTP method '{request.method}' is not supported")
  match request.body with
  | .error err => .error (problem 400 "gateway_body_read_failed"
      s!"failed to read request body: {err}")
  | .ok body =>
    pure {
      serviceId
      claims
      targets
      path := serviceRoutePath snapshot.ingress request.tail request.query
      body }

/-! ## The headers sent upstream -/

section

variable (env : GatewayEnv) (request : GatewayRequest)

def hostHeader : String := "host"

/-- `EDGE_HOP_HEADER`. -/
def edgeHopHeader : String := "x-fenrir-edge-hop"

/-- `FORWARDED_FOR`. -/
def forwardedForHeader : String := "x-forwarded-for"

/-- A module with a valid token, or the host's own static edge. -/
def trustedHop (claims : Option DelegatedTokenClaims) : Bool :=
  claims.isSome || request.headers.get edgeHopHeader == some env.edgeHopSecret

/-- `str::from_utf8` of a header's parts: the entries of a forwarded chain. -/
def forwardedEntries (values : List Bytes) : List String :=
  (values.filterMap fun value => String.fromUTF8? ⟨value.toArray⟩).flatMap fun value =>
    ((value.toList.splitOn ',').map fun hop => Text.trim (String.ofList hop)).filter (· ≠ "")

def gatewayForwardedFor (trusted : Bool) : Option String :=
  if trusted then
    let chain := forwardedEntries (request.headers.getAll forwardedForHeader)
      ++ request.peer.toList
    if chain.isEmpty then none else some (String.intercalate ", " chain)
  else
    env.clientIp.resolve request.peer
      ((env.clientIp.header.map request.headers.getAll).getD [])

/-- The host's own headers, set before any of the client's. -/
def hostHeaders (admitted : Admitted) (kind : GatewayRequestKind) : HeaderMap :=
  [("x-fenrir-gateway-service", Text.utf8 admitted.serviceId),
   ("x-fenrir-gateway-protocol", Text.utf8 kind.asStr)]
  ++ match admitted.claims with
    | some claims =>
      [("x-fenrir-actor", Text.utf8 claims.actor.identifier),
       ("x-fenrir-tenant", Text.utf8 claims.tenantId)]
      ++ if claims.scopes.isEmpty then []
        else [("x-fenrir-scopes", Text.utf8 (String.intercalate " " (claims.scopes.map (·.text))))]
    | none => [("x-fenrir-actor", Text.utf8 "public"), ("x-fenrir-tenant", Text.utf8 "public")]

def forwardsHeader (trusted : Bool) (name : String) : Bool :=
  !(name == hostHeader || name == edgeHopHeader || name == forwardedForHeader
    || (!trusted && env.clientIp.isAddressHeader name))

/-- The client's header fields that go on to the service. -/
def letThrough (claims : Option DelegatedTokenClaims) : HeaderMap :=
  request.headers.filter (forwardsHeader env (trustedHop env request claims) ·.1)

/-- The request the send closure builds for one target. The client's header fields are
valid as they are; a value of the host's own that is not makes the builder fail. -/
def buildRequest (admitted : Admitted) (target : ModuleIngressTarget) : Option UpstreamRequest :=
  let trusted := trustedHop env request admitted.claims
  let forwarded := (gatewayForwardedFor env request trusted).map Text.utf8
  let own := hostHeaders admitted request.kind
  let url := buildTargetUrl target admitted.path
  if env.validUrl url && own.all (env.validHeaderValue ·.2)
      && forwarded.all env.validHeaderValue then
    some {
      method := request.method
      url
      headers := own
        ++ letThrough env request admitted.claims
        ++ (forwarded.map fun value => (forwardedForHeader, value)).toList
      body := admitted.body }
  else none

end

/-! ## Failover -/

section

variable (method : String)

def isRetrySafeMethod : Bool :=
  method == "GET" || method == "HEAD" || method == "OPTIONS"

def shouldFailOverGatewayResponse (status : Nat) : Bool :=
  method == "GET" && (status == 502 || status == 503 || status == 504)

def shouldFailOverGatewayError : UpstreamError → Bool
  | .connect => true
  | .timeout => isRetrySafeMethod method
  | .other => false

def failsOver : Except UpstreamError UpstreamResponse → Bool
  | .ok response => shouldFailOverGatewayResponse method response.status
  | .error err => shouldFailOverGatewayError method err

/-- `send_with_failover`: the targets that were tried, and the last outcome. -/
def sendWithFailover {T : Type} (method : String)
    (send : Nat → T → Except UpstreamError UpstreamResponse) :
    Nat → List T → List T × Option (Except UpstreamError UpstreamResponse)
  | _, [] => ([], none)
  | index, target :: targets =>
    let result := send index target
    if !targets.isEmpty && failsOver method result then
      let (tried, last) := sendWithFailover method send (index + 1) targets
      (target :: tried, last)
    else ([target], some result)

/-- One attempt; a request that cannot be built is an error of no connection and no
timeout. -/
def sendTo (env : GatewayEnv) (request : GatewayRequest) (admitted : Admitted) (index : Nat)
    (target : ModuleIngressTarget) : Except UpstreamError UpstreamResponse :=
  match buildRequest env request admitted target with
  | none => .error .other
  | some upstream => env.send index upstream

/-- `gateway_proxy`: the requests that left the host, and the answer to the client. -/
def gatewayProxy (env : GatewayEnv) (request : GatewayRequest) :
    List UpstreamRequest × Except ServiceActionProblem UpstreamResponse :=
  match admission env request with
  | .error err => ([], .error err)
  | .ok admitted =>
    let (tried, last) :=
      sendWithFailover request.method (sendTo env request admitted) 0 admitted.targets
    let answer := match last with
      | some (.ok response) => env.convert response
      | _ => .error (problem 502 "gateway_upstream_unreachable"
          s!"service '{admitted.serviceId}' is unreachable")
    (tried.filterMap (buildRequest env request admitted), answer)

end

end Fenrir.Gateway
