import Fenrir.Gateway.Proxy
import Fenrir.Lib.Results

/-! # Requests that are sent again

Two gateways repeat a request that failed: `send_with_failover` goes through the
targets of a service, and the runtime gateway (`services/module/gateway.rs`), which
modules call to reach each other, goes through its targets and then tries the last
one again. Both repeat a request that may have side effects only where the last
attempt had no connection. -/

namespace Fenrir.Gateway

open List

/-! ## The runtime gateway -/

section

variable (env : CallEnv) (method : String)

/-- The body of the `/call` request (`GatewayRequest` of `gateway.rs`). The maps are in
the order of iteration; the body is what `serde_json::to_vec` makes of it. -/
structure CallRequest where
  target : String
  verb : Option String
  path : String
  body : Option (Except String Bytes)
  (headers query : List (String × String))

inductive GatewayError where
  | moduleUnavailable
  | invalidTarget (target : String)
  | missingToken
  | invalidHeader (header : String)
  | serialization (err : String)
  | invalidMethod (method : String)
  | ingress (err : ModuleIngressError)
  | http (err : UpstreamError)
  deriving DecidableEq

inductive GatewayBody where
  | empty
  | text (text : String)
  | base64 (text : String)
  | rawJson (text : String)

structure GatewayResponsePayload where
  status : Nat
  auditId : String
  headers : BTreeMap String
  body : GatewayBody

/-- The host around the runtime gateway of a module, what the client crates make of
texts, and what happens upstream (per attempt). -/
structure CallEnv where
  /-- The module service is still there. -/
  host : Bool
  resolveIngressTargets : String → Except ModuleIngressError (List ModuleIngressTarget)
  activeServiceTokenValue : Option String
  retries : Nat
  toUppercase : String → String
  /-- `Method::from_bytes`. -/
  validMethod : String → Bool
  urlEncode : String → String
  /-- `HeaderName::try_from`: the name in lower case. -/
  headerName : String → Option String
  /-- `HeaderValue::try_from`. -/
  headerValue : String → Option Bytes
  /-- `HeaderValue::to_str`. -/
  headerText : Bytes → Option String
  /-- The texts `RawValue::from_string` takes. -/
  isJson : String → Bool
  encodeBase64 : Bytes → String
  send : Nat → UpstreamRequest → Except UpstreamError UpstreamResponse
  /-- `Response::bytes`. -/
  readBody : Nat → UpstreamResponse → Except UpstreamError Bytes

def serviceTokenHeader : String := "x-fenrir-service-token"

def contentTypeHeader : String := "content-type"

def normalizeTarget (raw : String) : Except GatewayError String :=
  let trimmed := Text.trim raw
  if trimmed = "" then .error (.invalidTarget raw)
  else .ok (((Text.stripStart "service://".toList trimmed.toList).map String.ofList).getD trimmed)

def parseMethod : Option String → Except GatewayError String
  | some method =>
    let upper := env.toUppercase (Text.trim method)
    if env.validMethod upper then .ok upper else .error (.invalidMethod method)
  | none => .ok "POST"

def normalizePath (value : String) : String :=
  let trimmed := Text.trim value
  match trimmed.toList with
  | [] => "/"
  | '/' :: _ => trimmed
  | _ => "/" ++ trimmed

def encodeQuery (params : List (String × String)) : String :=
  if params.isEmpty then ""
  else "?" ++ String.intercalate "&"
    (params.map fun param => env.urlEncode param.1 ++ "=" ++ env.urlEncode param.2)

/-- `build_target_url` of `gateway.rs`. -/
def buildCallUrl (target : ModuleIngressTarget) (request : CallRequest) : String :=
  "http://" ++ targetOrigin target ++ normalizePath request.path ++ encodeQuery env request.query

/-- The caller's headers; the first one that is not a header is the error. -/
def callHeaders (env : CallEnv) : List (String × String) → Except GatewayError HeaderMap
  | [] => .ok []
  | (key, value) :: rest =>
    match env.headerName key with
    | none => .error (.invalidHeader key)
    | some name =>
      match env.headerValue value with
      | none => .error (.invalidHeader key)
      | some bytes => (callHeaders env rest).map ((name, bytes) :: ·)

/-- `send_request` up to the request. -/
def buildCall (url token : String) (request : CallRequest) :
    Except GatewayError UpstreamRequest := do
  let given ← callHeaders env request.headers
  let withToken :=
    if request.headers.any (·.1 = serviceTokenHeader) then given
    else given ++ [(serviceTokenHeader, Text.utf8 ("Bearer " ++ token))]
  match request.body with
  | none => .ok ⟨method, url, withToken, []⟩
  | some (.error err) => .error (.serialization err)
  | some (.ok bytes) =>
    .ok ⟨method, url, if given.any (·.1 = contentTypeHeader) then withToken
      else withToken ++ [(contentTypeHeader, Text.utf8 "application/json")], bytes⟩

/-- One attempt: the request that was sent, if one was, and what came back. -/
structure CallAttempt where
  sent : Option UpstreamRequest
  outcome : Except GatewayError UpstreamResponse

def sendRequest (made : Nat) (method url token : String) (request : CallRequest) : CallAttempt :=
  match buildCall env method url token request with
  | .error err => ⟨none, .error err⟩
  | .ok upstream =>
    ⟨some upstream, match env.send made upstream with
      | .error err => .error (.http err)
      | .ok response => .ok response⟩

def repeatIsSafe : GatewayError → Bool
  | .http .connect => true
  | .http .timeout => method == "GET" || method == "HEAD" || method == "OPTIONS"
  | _ => false

def shouldRetry (err : GatewayError) (attempt maxRetries : Nat) : Bool :=
  attempt < maxRetries && repeatIsSafe method err

def shouldFailOver (err : GatewayError) (candidateIndex candidateCount : Nat) : Bool :=
  candidateIndex + 1 < candidateCount && repeatIsSafe method err

def GatewayBody.fromBytes (bytes : Bytes) : GatewayBody :=
  if bytes.isEmpty then .empty
  else
    match String.fromUTF8? ⟨bytes.toArray⟩ with
    | none => .base64 (env.encodeBase64 bytes)
    | some decoded =>
      let first := (decoded.toList.dropWhile Text.isWhitespace).head?
      if (first = some '\x7b' ∨ first = some '[') ∧ env.isJson decoded then .rawJson decoded
      else .text decoded

/-- `map_headers`: a later field of a name replaces an earlier one. -/
def mapHeaders (headers : HeaderMap) : BTreeMap String :=
  headers.foldl
    (fun mapped field =>
      match env.headerText field.2 with
      | some text => mapped.insert field.1 text
      | none => mapped) ∅

/-- What is returned after an attempt that is not repeated. -/
def conclude (auditId : String) (made : Nat) :
    Except GatewayError UpstreamResponse → Except GatewayError GatewayResponsePayload
  | .error err => .error err
  | .ok response =>
    match env.readBody made response with
    | .error err => .error (.http err)
    | .ok bytes =>
      .ok ⟨response.status, auditId, mapHeaders env response.headers, .fromBytes env bytes⟩

/-- What `execute` has done: its attempts, and what it returned. Nothing is returned where
the index is out of range. -/
structure Executed where
  attempts : List CallAttempt
  returned : Option (Except GatewayError GatewayResponsePayload)

def Executed.after (attempt : CallAttempt) (rest : Executed) : Executed :=
  ⟨attempt :: rest.attempts, rest.returned⟩

/-- The loop of `execute`; `made` counts the attempts before. -/
def executeLoop (env : CallEnv) (auditId method token : String) (request : CallRequest)
    (ingresses : List ModuleIngressTarget) (made attempt candidateIndex : Nat) : Executed :=
  match ingresses[candidateIndex]? with
  | none => ⟨[], none⟩
  | some ingress =>
    let this := sendRequest env made method (buildCallUrl env ingress request) token request
    match this.outcome with
    | .ok response => ⟨[this], some (conclude env auditId made (.ok response))⟩
    | .error err =>
      if _h : shouldFailOver method err candidateIndex ingresses.length then
        (executeLoop env auditId method token request ingresses (made + 1) attempt
          (candidateIndex + 1)).after this
      else if _h : shouldRetry method err attempt env.retries
          && candidateIndex == ingresses.length - 1 then
        (executeLoop env auditId method token request ingresses (made + 1) (attempt + 1)
          candidateIndex).after this
      else ⟨[this], some (.error err)⟩
termination_by (ingresses.length - candidateIndex) + (env.retries - attempt)
decreasing_by
  · rw [shouldFailOver, Bool.and_eq_true, decide_eq_true_eq] at _h
    omega
  · rw [Bool.and_eq_true, shouldRetry, Bool.and_eq_true, decide_eq_true_eq] at _h
    omega

/-- `RuntimeGatewayContext::execute` up to its loop: the targets, the method and the
token. -/
def prepareCall (request : CallRequest) :
    Except GatewayError (List ModuleIngressTarget × String × String) :=
  if env.host then do
    let targetId ← normalizeTarget request.target
    let ingresses ← (env.resolveIngressTargets targetId).mapError .ingress
    let method ← parseMethod env request.verb
    match env.activeServiceTokenValue with
    | none => .error .missingToken
    | some token => .ok (ingresses, method, token)
  else .error .moduleUnavailable

def execute (request : CallRequest) (auditId : String) : Executed :=
  match prepareCall env request with
  | .error err => ⟨[], some (.error err)⟩
  | .ok (ingresses, method, token) =>
    executeLoop env auditId method token request ingresses 0 0 0

end

/-! ## Deliveries -/

/-- An attempt without a connection delivers nothing; any other may have. -/
def delivered : Except UpstreamError UpstreamResponse → Bool
  | .error .connect => false
  | _ => true

/-- The same for an attempt of the runtime gateway, which may also fail before it sends. -/
def CallAttempt.delivered (attempt : CallAttempt) : Bool :=
  match attempt.sent, attempt.outcome with
  | none, _ => false
  | some _, .error (.http .connect) => false
  | some _, _ => true

theorem countP_le_one {α : Type} {p : α → Bool} {xs : List α}
    (h : ∀ x ∈ xs.dropLast, p x = false) : xs.countP p ≤ 1 := by
  rcases eq_nil_or_concat xs with rfl | ⟨front, last, rfl⟩
  · exact Nat.zero_le 1
  · rw [concat_eq_append, dropLast_concat] at h
    have hfro : front.countP p = 0 := by
      rw [countP_eq_zero]
      intro x hx
      rw [h x hx]
      decide
    rw [concat_eq_append, countP_append, hfro, Nat.zero_add]
    exact countP_le_length

/-! ### The control-plane gateway -/

section

variable {T : Type} {method : String} {send : Nat → T → Except UpstreamError UpstreamResponse}

/-- The outcomes of the attempts at these targets. -/
def outcomesOf (send : Nat → T → Except UpstreamError UpstreamResponse) (index : Nat)
    (tried : List T) : List (Except UpstreamError UpstreamResponse) :=
  (tried.zipIdx index).map fun attempt => send attempt.2 attempt.1

variable (method send) in
theorem sendWithFailover_outcomes (tgts : List T) (index : Nat) :
    let tried := (sendWithFailover method send index tgts).1
    (sendWithFailover method send index tgts).2 = (outcomesOf send index tried).getLast? ∧
      ∀ o ∈ (outcomesOf send index tried).dropLast, failsOver method o = true := by
  induction tgts generalizing index with
  | nil => exact ⟨rfl, nofun⟩
  | cons target tgts ih =>
    rw [sendWithFailover]
    dsimp only
    cases hmo : !tgts.isEmpty && failsOver method (send index target) with
    | false => exact ⟨rfl, nofun⟩
    | true =>
      obtain ⟨hla, hrep⟩ := ih (index + 1)
      obtain ⟨hne, hfai⟩ := Bool.and_eq_true_iff.mp hmo
      cases hre : sendWithFailover method send (index + 1) tgts with
      | mk tried last =>
        rw [hre] at hla hrep
        -- there is another target, so there is another attempt
        have htri : outcomesOf send (index + 1) tried ≠ [] := by
          intro hnil
          cases tgts with
          | nil => cases hne
          | cons next more =>
            rw [sendWithFailover] at hre
            obtain rfl : tried = [] := by
              simpa [outcomesOf] using hnil
            dsimp only at hre
            split at hre <;> exact nomatch (Prod.mk.inj hre).1
        show last = (send index target :: outcomesOf send (index + 1) tried).getLast? ∧
          ∀ o ∈ (send index target :: outcomesOf send (index + 1) tried).dropLast,
            failsOver method o = true
        constructor
        · rw [List.getLast?_cons_of_ne_nil htri]
          exact hla
        · rw [dropLast_cons_of_ne_nil htri]
          exact forall_mem_cons.mpr ⟨hfai, hrep⟩

theorem failsOver_undelivered (hmet : isRetrySafeMethod method = false)
    {o : Except UpstreamError UpstreamResponse} (h : failsOver method o = true) :
    delivered o = false := by
  cases o with
  | ok response =>
    have hget : method ≠ "GET" := by
      rintro rfl
      exact absurd hmet (by decide)
    rw [failsOver, shouldFailOverGatewayResponse, beq_false_of_ne hget] at h
    cases h
  | error err =>
    cases err with
    | connect => rfl
    | timeout =>
      rw [failsOver, shouldFailOverGatewayError, hmet] at h
      cases h
    | other => cases h

end

/-! ### The runtime gateway -/

section

variable {env : CallEnv} {auditId method token : String} {request : CallRequest}
  {ingresses : List ModuleIngressTarget} {made attempt candidateIndex : Nat}

/-- What the loop has done: it has repeated only what is safe to repeat, what it returns
is the outcome of the last attempt, and it has kept to the number of attempts. -/
structure Repeats (env : CallEnv) (auditId method : String) (made bound : Nat)
    (executed : Executed) : Prop where
  safe : ∀ a ∈ executed.attempts.dropLast, ∃ err, a.outcome = .error err ∧
    repeatIsSafe method err = true
  last : ∀ a, executed.attempts.getLast? = some a →
    executed.returned = some (conclude env auditId (made + executed.attempts.length - 1) a.outcome)
  bounded : executed.attempts.length ≤ bound

variable {bound : Nat} {a : CallAttempt} {err : GatewayError}

theorem Repeats.ends (hbou : 0 < bound) :
    Repeats env auditId method made bound ⟨[a], some (conclude env auditId made a.outcome)⟩ := by
  refine ⟨nofun, ?_, hbou⟩
  intro a' ha'
  cases ha'
  rfl

theorem Repeats.after {executed : Executed}
    (h : Repeats env auditId method (made + 1) bound executed) (hne : executed.attempts ≠ [])
    (herr : a.outcome = .error err) (hsa : repeatIsSafe method err = true) :
    Repeats env auditId method made (bound + 1) (executed.after a) := by
  refine ⟨?_, ?_, ?_⟩
  · rw [Executed.after, dropLast_cons_of_ne_nil hne]
    exact forall_mem_cons.mpr ⟨⟨err, herr, hsa⟩, h.safe⟩
  · intro last hla
    rw [Executed.after, List.getLast?_cons_of_ne_nil hne] at hla
    rw [Executed.after, length_cons, h.last last hla, Nat.add_right_comm made 1]
    rfl
  · rw [Executed.after, length_cons]
    exact Nat.succ_le_succ h.bounded

theorem executeLoop_attempts (h : candidateIndex < ingresses.length) :
    (executeLoop env auditId method token request ingresses made attempt
      candidateIndex).attempts ≠ [] := by
  rw [executeLoop, List.getElem?_eq_getElem h]
  dsimp only
  split
  · exact cons_ne_nil _ _
  · split
    · exact cons_ne_nil _ _
    · split <;> exact cons_ne_nil _ _

/-- **THE LOOP OF `execute`** from any of its rounds on. -/
theorem executeLoop_repeats :
    Repeats env auditId method made ((ingresses.length - candidateIndex) + (env.retries - attempt))
      (executeLoop env auditId method token request ingresses made attempt candidateIndex) := by
  fun_induction executeLoop env auditId method token request ingresses made attempt candidateIndex
    with
  | case1 made attempt candidateIndex hnone =>
    exact ⟨nofun, nofun, Nat.zero_le _⟩
  | case2 made attempt candidateIndex ingress hsome this response hok =>
    obtain ⟨hlt, -⟩ := List.getElem?_eq_some_iff.mp hsome
    rw [← hok]
    exact Repeats.ends (by omega)
  | case3 made attempt candidateIndex ingress hsome this err herr hfail ih =>
    rw [shouldFailOver, Bool.and_eq_true, decide_eq_true_eq] at hfail
    have hbou : (ingresses.length - candidateIndex) + (env.retries - attempt) =
        (ingresses.length - (candidateIndex + 1)) + (env.retries - attempt) + 1 := by
      omega
    rw [hbou]
    exact ih.after (executeLoop_attempts hfail.1) herr hfail.2
  | case4 made attempt candidateIndex ingress hsome this err herr _ hretry ih =>
    obtain ⟨hlt, -⟩ := List.getElem?_eq_some_iff.mp hsome
    rw [Bool.and_eq_true, shouldRetry, Bool.and_eq_true, decide_eq_true_eq] at hretry
    have hbou : (ingresses.length - candidateIndex) + (env.retries - attempt) =
        (ingresses.length - candidateIndex) + (env.retries - (attempt + 1)) + 1 := by
      omega
    rw [hbou]
    exact ih.after (executeLoop_attempts hlt) herr hretry.1.2
  | case5 made attempt candidateIndex ingress hsome this err herr =>
    obtain ⟨hlt, -⟩ := List.getElem?_eq_some_iff.mp hsome
    have hcon : conclude env auditId made this.outcome = .error err := by
      rw [herr]
      rfl
    rw [← hcon]
    exact Repeats.ends (by omega)

theorem repeatIsSafe_undelivered (hmet : isRetrySafeMethod method = false)
    (herr : a.outcome = .error err) (h : repeatIsSafe method err = true) : a.delivered = false := by
  have hcon : err = .http .connect := by
    cases err with
    | http e =>
      cases e with
      | connect => rfl
      | timeout =>
        rw [repeatIsSafe, ← isRetrySafeMethod, hmet] at h
        cases h
      | other => cases h
    | _ => cases h
  rw [CallAttempt.delivered, herr, hcon]
  cases a.sent <;> rfl

theorem prepareCall_ok (h : prepareCall env request = .ok (ingresses, method, token)) :
    ∃ targetId, normalizeTarget request.target = .ok targetId ∧
      env.resolveIngressTargets targetId = .ok ingresses ∧
      parseMethod env request.verb = .ok method := by
  rw [prepareCall] at h
  split at h
  · obtain ⟨targetId, htar, h⟩ := Results.bind_eq_ok h
    obtain ⟨tgts, hres, h⟩ := Results.bind_eq_ok h
    obtain ⟨parsed, hmet, h⟩ := Results.bind_eq_ok h
    refine ⟨targetId, htar, ?_⟩
    split at h
    · cases h
    · cases h
      exact ⟨Results.mapError_ok hres, hmet⟩
  · cases h

end

/-- **A REQUEST WITH SIDE EFFECTS REACHES ONE UPSTREAM**, by either gateway; both return
the outcome of their last attempt, and the runtime gateway makes no more attempts than
it has targets and retries. It makes none only where the call could not be prepared, and
returns that error, or where there is no target to index. -/
theorem unsafe_reaches_one_upstream :
    (∀ {T : Type} (method : String) (send : Nat → T → Except UpstreamError UpstreamResponse)
        (targets : List T),
      let tried := (sendWithFailover method send 0 targets).1
      (isRetrySafeMethod method = false → (outcomesOf send 0 tried).countP delivered ≤ 1) ∧
        (sendWithFailover method send 0 targets).2 = (outcomesOf send 0 tried).getLast?) ∧
    (∀ (env : CallEnv) (request : CallRequest) (auditId : String),
      let executed := execute env request auditId
      (∀ method, parseMethod env request.verb = .ok method → isRetrySafeMethod method = false →
        executed.attempts.countP CallAttempt.delivered ≤ 1) ∧
      (∀ last, executed.attempts.getLast? = some last → executed.returned =
        some (conclude env auditId (executed.attempts.length - 1) last.outcome)) ∧
      (∀ err, prepareCall env request = .error err → executed = ⟨[], some (.error err)⟩) ∧
      (∀ ingresses method token, prepareCall env request = .ok (ingresses, method, token) →
        if ingresses = [] then executed = ⟨[], none⟩ else executed.attempts ≠ []) ∧
      (∀ targetId targets, normalizeTarget request.target = .ok targetId →
        env.resolveIngressTargets targetId = .ok targets →
        executed.attempts.length ≤ targets.length + env.retries)) := by
  constructor
  · intro T method send targets
    obtain ⟨hla, hrep⟩ := sendWithFailover_outcomes method send targets 0
    refine ⟨fun hmet => countP_le_one fun o ho => ?_, hla⟩
    exact failsOver_undelivered hmet (hrep o ho)
  · intro env request auditId
    rw [execute]
    cases hpre : prepareCall env request with
    | error err =>
      refine ⟨fun _ _ _ => Nat.zero_le 1, nofun, ?_, nofun, fun _ _ _ _ => Nat.zero_le _⟩
      intro err' herr
      cases herr
      rfl
    | ok prepared =>
      obtain ⟨ingresses, method, token⟩ := prepared
      obtain ⟨targetId, htar, hres, hmet⟩ := prepareCall_ok hpre
      have hre : Repeats env auditId method 0
          ((ingresses.length - 0) + (env.retries - 0))
          (executeLoop env auditId method token request ingresses 0 0 0) := executeLoop_repeats
      refine ⟨?_, ?_, nofun, ?_, ?_⟩
      · intro method' hme' huns
        obtain rfl := Except.ok.inj (hmet.symm.trans hme')
        refine countP_le_one fun a ha => ?_
        obtain ⟨err, herr, hsa⟩ := hre.safe a ha
        exact repeatIsSafe_undelivered huns herr hsa
      · intro last hla
        have hret := hre.last last hla
        rw [Nat.zero_add] at hret
        exact hret
      · intro ingresses' method' token' hok
        cases hok
        split
        · subst ingresses
          show executeLoop env auditId method token request [] 0 0 0 = _
          rw [executeLoop]
          rfl
        · exact executeLoop_attempts (length_pos_iff.mpr ‹_›)
      · intro targetId' targets hta' hre'
        obtain rfl := Except.ok.inj (htar.symm.trans hta')
        obtain rfl := Except.ok.inj (hres.symm.trans hre')
        exact hre.bounded

/-- Two targets; at the first nobody listens, the second takes the request and is silent. -/
def silentCallEnv : CallEnv where
  host := true
  resolveIngressTargets _ :=
    .ok [.runtimePort "notes" "notes:primary" 4100, .runtimePort "notes" "notes:replica:1" 4101]
  activeServiceTokenValue := some "t1"
  retries := 2
  toUppercase := String.toUpper
  validMethod _ := true
  urlEncode := id
  headerName := some
  headerValue value := some (Text.utf8 value)
  headerText _ := none
  isJson _ := false
  encodeBase64 _ := ""
  send made _ := if made = 0 then .error .connect else .error .timeout
  readBody _ response := .ok response.body

def sampleCall : CallRequest := ⟨"service://module:notes", none, "/tasks", none, [], []⟩

theorem unsafe_reaches_one_upstream_silent :
    (outcomesOf (fun _ (up : Bool) => if up then .error .timeout else .error .connect) 0
        (sendWithFailover "POST" (fun _ (up : Bool) =>
          if up then .error .timeout else .error .connect) 0 [false, true, true]).1).countP
        delivered ≤ 1 ∧
      (execute silentCallEnv sampleCall "a1").attempts.countP CallAttempt.delivered ≤ 1 ∧
      (execute silentCallEnv sampleCall "a1").attempts ≠ [] ∧
      (execute silentCallEnv sampleCall "a1").attempts.length ≤ 2 + 2 :=
  have hca := unsafe_reaches_one_upstream.2 silentCallEnv sampleCall "a1"
  ⟨(unsafe_reaches_one_upstream.1 "POST" _ _).1 (by decide), hca.1 "POST" rfl (by decide),
    hca.2.2.2.1 (_ :: _) "POST" "t1" rfl,
    hca.2.2.2.2 "module:notes" _ (by decide +kernel) rfl⟩

end Fenrir.Gateway
