import Fenrir.Postgres.Pool
import Fenrir.Runtime.Instances
import Fenrir.Security.ServiceTokens

/-! # Whose connections a statement uses

`domain/db/context.rs` and `services/db_connector/mod.rs`: a request of the connector
runs in the pool of its module service and tenant, which its token says; the host's own
tools run in the pool of the host. How a statement is analysed is the module kit's
affair, and given here. -/

namespace Fenrir.Postgres

/-! ## Keys -/

namespace DbPoolKey

def host : DbPoolKey := ⟨"host"⟩

def service (serviceId tenantId : String) : DbPoolKey :=
  ⟨"service:" ++ serviceId ++ "@" ++ tenantId⟩

theorem service_ne_host (sid tenantId : String) : service sid tenantId ≠ host := by
  intro h
  have hte := congrArg (fun key => key.text.toList.head?) h
  simp [service, host] at hte

theorem service_injective {sid serviceId' tenantId tenantId' : String}
    (hser : '@' ∉ sid.toList) (hse' : '@' ∉ serviceId'.toList)
    (h : service sid tenantId = service serviceId' tenantId') :
    sid = serviceId' ∧ tenantId = tenantId' := by
  have hte : "service:".toList ++ (sid.toList ++ '@' :: tenantId.toList) =
      "service:".toList ++ (serviceId'.toList ++ '@' :: tenantId'.toList) := by
    simpa [service] using congrArg (fun key => key.text.toList) h
  obtain ⟨hse, hten⟩ := Text.append_cons_inj hser hse' (List.append_cancel_left hte)
  exact ⟨String.toList_inj.mp hse, String.toList_inj.mp hten⟩

end DbPoolKey

def moduleServiceId (m : Runtime.ModuleId) : String := "module:" ++ m.value

theorem moduleServiceId_at (m : Runtime.ModuleId) : '@' ∉ (moduleServiceId m).toList := by
  rw [moduleServiceId, String.toList_append, List.mem_append]
  rintro (hmem | hmem)
  · exact absurd hmem (by decide)
  · exact absurd (m.chars hmem) (by decide)

/-! ## Contexts -/

inductive DbAccess where
  | readOnly | readWrite
  deriving DecidableEq

/-- What a statement may leave behind in its session. -/
inductive DbSessionEffect where
  | none | resettable | unrecoverable
  deriving DecidableEq

structure DbCallContext where
  pool : DbPoolKey
  access : DbAccess
  session : DbSessionEffect

def DbCallContext.host : DbCallContext := ⟨.host, .readWrite, .resettable⟩

/-- `StatementAnalysis` of the module kit. -/
structure StatementAnalysis where
  isRead : Bool
  session : DbSessionEffect

/-! ## Requests of the connector -/

inductive DbConnectorError where
  | invalidRequest (message : String)
  | token (err : ServiceTokenError)
  | unauthorized (message : String)

def maxStatementLen : Nat := 32 * 1024

def callContext (serviceId tenantId : String) (analysis : StatementAnalysis) : DbCallContext where
  pool := .service serviceId tenantId
  access := if analysis.isRead then .readOnly else .readWrite
  session := analysis.session

/-- `process`, up to the context the statement runs in; `validated` is what the token store
says of the request's token. -/
def connectorContext (analyzeStatement : String → StatementAnalysis) (statement : String)
    (validated : Except ServiceTokenError DelegatedTokenClaims) :
    Except DbConnectorError DbCallContext :=
  if (Text.trim statement).isEmpty then .error (.invalidRequest "statement must not be empty")
  else if maxStatementLen < statement.utf8ByteSize then
    .error (.invalidRequest s!"statement exceeds maximum size ({maxStatementLen} bytes)")
  else
    match validated with
    | .error err => .error (.token err)
    | .ok claims =>
      match claims.actor with
      | .user _ _ => .error (.unauthorized "db connector accepts service tokens only")
      | .service serviceId _ =>
        let analysis := analyzeStatement statement
        let requiredScope := if analysis.isRead then "db:read" else "db:write"
        if claims.scopes.any (·.text = requiredScope) then
          .ok (callContext serviceId claims.tenantId analysis)
        else .error (.unauthorized s!"connector access requires scope '{requiredScope}'")

theorem connectorContext_pool {analyzeStatement : String → StatementAnalysis} {statement : String}
    {validated : Except ServiceTokenError DelegatedTokenClaims} {ctx : DbCallContext}
    (h : connectorContext analyzeStatement statement validated = .ok ctx) :
    ∃ claims sid role, validated = .ok claims ∧ claims.actor = .service sid role ∧
      ctx.pool = .service sid claims.tenantId := by
  revert h
  fun_cases connectorContext analyzeStatement statement validated
  case case5 claims sid role hactor analysis requiredScope hscope =>
    intro h
    cases h
    exact ⟨claims, sid, role, rfl, hactor, rfl⟩
  all_goals exact nofun

end Fenrir.Postgres
