import Fenrir.Postgres.Context

/-! # The tenant policy of a connector request

`services/db_connector/mod.rs`: a module may ask that a parameter of its prepared
statement carries the tenant of its token. The policy names the parameter; the
statement refers to parameters by their position, and nothing keeps a request from
giving two parameters one name. -/

namespace Fenrir.Connector

open Postgres (DbConnectorError)

/-! ## Requests -/

/-- `serde_json::Number`; a finite double by its value. -/
inductive JsonNumber where
  | posInt (n : Nat) (hrange : n < 2 ^ 64)
  | negInt (n : Int) (hrange : -2 ^ 63 ≤ n ∧ n < 0)
  | float (value : ℚ)

inductive JsonValue where
  | null
  | bool (flag : Bool)
  | number (num : JsonNumber)
  | string (text : String)
  | array (values : List JsonValue)
  | object (fields : List (String × JsonValue))

structure DbPreparedParam where
  name : String
  value : JsonValue

inductive DbTenantBindingMode where
  | inject | requireMatch

structure DbTenantPolicy where
  param : String
  mode : DbTenantBindingMode

inductive DbConnectorCommand where
  | simple (statement : String)
  | prepared (statement : String) (params : List DbPreparedParam)

/-! ## The policy -/

def tenantPolicyRequiresPrepared : DbConnectorError :=
  .invalidRequest "tenant policies require prepared statements"

def tenantParamMissing (name : String) : DbConnectorError :=
  .invalidRequest s!"tenant binding parameter '{name}' is missing"

def tenantParamMismatch (name : String) : DbConnectorError :=
  .invalidRequest s!"tenant binding parameter '{name}' does not match the caller tenant"

/-- The first parameter of the name gets the value; `none` if there is none. -/
def setFirst (param : String) (value : JsonValue) :
    List DbPreparedParam → Option (List DbPreparedParam)
  | [] => none
  | p :: ps =>
    if p.name = param then some ({ p with value } :: ps)
    else (setFirst param value ps).map (p :: ·)

def applyTenantPolicy (params : List DbPreparedParam) (policy : DbTenantPolicy)
    (tenantId : String) : Except DbConnectorError (List DbPreparedParam) :=
  match policy.mode with
  | .inject =>
    match setFirst policy.param (.string tenantId) params with
    | some bound => .ok bound
    | none => .ok (params ++ [⟨policy.param, .string tenantId⟩])
  | .requireMatch =>
    match params.find? (·.name = policy.param) with
    | none => .error (tenantParamMissing policy.param)
    | some target =>
      match target.value with
      | .string value =>
        if value = tenantId then .ok params
        else .error (tenantParamMismatch policy.param)
      | _ => .error (tenantParamMismatch policy.param)

def prepareCommand (command : DbConnectorCommand) (tenantPolicy : Option DbTenantPolicy)
    (tenantId : String) : Except DbConnectorError DbConnectorCommand :=
  match tenantPolicy with
  | none => .ok command
  | some policy =>
    match command with
    | .simple _ => .error tenantPolicyRequiresPrepared
    | .prepared statement params =>
      match applyTenantPolicy params policy tenantId with
      | .error err => .error err
      | .ok bound => .ok (.prepared statement bound)

/-! ## What a policy that is met does -/

variable {param tenantId : String} {params bound : List DbPreparedParam} {policy : DbTenantPolicy}

def named (param : String) (params : List DbPreparedParam) : List DbPreparedParam :=
  params.filter (·.name = param)

variable {p : DbPreparedParam} {value : JsonValue}

theorem mem_named : p ∈ named param params ↔ p ∈ params ∧ p.name = param := by
  rw [named, List.mem_filter, decide_eq_true_iff]

theorem named_cons_of_eq (h : p.name = param) :
    named param (p :: params) = p :: named param params := by
  simp [named, h]

theorem named_cons_of_ne (h : p.name ≠ param) : named param (p :: params) = named param params := by
  simp [named, h]

theorem setFirst_named (h : setFirst param value params = some bound) :
    named param bound = ⟨param, value⟩ :: (named param params).tail := by
  induction params generalizing bound with
  | nil => cases h
  | cons p ps ih =>
    rw [setFirst] at h
    by_cases hp : p.name = param
    · rw [if_pos hp] at h
      rw [← Option.some.inj h, named_cons_of_eq hp, List.tail_cons,
        named_cons_of_eq (p := { p with value }) hp, hp]
    · rw [if_neg hp] at h
      obtain ⟨rest, hre, rfl⟩ := Option.map_eq_some_iff.mp h
      rw [named_cons_of_ne hp, named_cons_of_ne hp]
      exact ih hre

theorem setFirst_none (h : setFirst param value params = none) : named param params = [] := by
  induction params with
  | nil => rfl
  | cons p ps ih =>
    rw [setFirst] at h
    by_cases hp : p.name = param
    · rw [if_pos hp] at h
      cases h
    · rw [if_neg hp] at h
      rw [named_cons_of_ne hp]
      exact ih (Option.map_eq_none_iff.mp h)

theorem find_named {target : DbPreparedParam} (h : params.find? (·.name = param) = some target) :
    named param params = target :: (named param params).tail := by
  have hhe : (named param params).head? = some target := by
    rw [named, List.head?_filter]
    exact h
  obtain ⟨rest, hre⟩ := List.head?_eq_some_iff.mp hhe
  rw [hre, List.tail_cons]

/-- **A POLICY THAT IS MET**, in either mode: the first parameter of its name carries the
tenant's id, the later ones are the request's. -/
theorem applyTenantPolicy_named (h : applyTenantPolicy params policy tenantId = .ok bound) :
    named policy.param bound =
      ⟨policy.param, .string tenantId⟩ :: (named policy.param params).tail := by
  revert h
  fun_cases applyTenantPolicy params policy tenantId
  all_goals intro h
  case case1 set hset =>
    cases h
    exact setFirst_named hset
  case case2 hnone =>
    have hemp : params.filter (·.name = policy.param) = [] := setFirst_none hnone
    cases h
    rw [named, named, List.filter_append, hemp]
    simp
  case case4 target hfind hvalue =>
    have hna : target.name = policy.param := by simpa using List.find?_some hfind
    have htar : target = ⟨policy.param, .string tenantId⟩ := by
      rw [← hna, ← hvalue]
    cases h
    rw [← htar]
    exact find_named hfind
  all_goals cases h

/-! ## Every parameter of the name -/

/-- The command is a prepared statement with the parameter, and whatever has its name
carries the tenant's id. -/
def BindsTenant (policy : DbTenantPolicy) (tenantId : String) : DbConnectorCommand → Prop
  | .simple _ => False
  | .prepared _ params =>
    (∃ p ∈ params, p.name = policy.param) ∧
      ∀ p ∈ params, p.name = policy.param → p.value = .string tenantId

/-- All parameters of the policy's name but the first carry the tenant's id as they were
sent. -/
def LaterCarryTenant (policy : DbTenantPolicy) (tenantId : String) : DbConnectorCommand → Prop
  | .simple _ => True
  | .prepared _ params => ∀ p ∈ (named policy.param params).tail, p.value = .string tenantId

/-- **EXACTLY WHEN THE POLICY BINDS EVERY OCCURRENCE.** `find` stops at the first one. -/
theorem tenant_policy_binds_iff {command prepared : DbConnectorCommand} {policy : DbTenantPolicy}
    {tenantId : String} (h : prepareCommand command (some policy) tenantId = .ok prepared) :
    BindsTenant policy tenantId prepared ↔ LaterCarryTenant policy tenantId command := by
  cases command with
  | simple statement => cases h
  | prepared statement params =>
    rw [prepareCommand] at h
    cases happ : applyTenantPolicy params policy tenantId with
    | error err =>
      rw [happ] at h
      cases h
    | ok bound =>
      rw [happ] at h
      have hbou := applyTenantPolicy_named happ
      cases h
      constructor
      · rintro ⟨-, hall⟩ p hp
        have hmem : p ∈ named policy.param bound := by
          rw [hbou]
          exact List.mem_cons_of_mem _ hp
        exact hall p (mem_named.mp hmem).1 (mem_named.mp hmem).2
      · intro hlat
        have hfir : (⟨policy.param, .string tenantId⟩ : DbPreparedParam) ∈
            named policy.param bound := by
          rw [hbou]
          exact List.mem_cons_self
        refine ⟨⟨_, (mem_named.mp hfir).1, rfl⟩, ?_⟩
        intro p hp hna
        have hmem : p ∈ named policy.param bound := mem_named.mpr ⟨hp, hna⟩
        rw [hbou] at hmem
        rcases List.mem_cons.mp hmem with rfl | hta
        · rfl
        · exact hlat p hta

def plainRequest : DbConnectorCommand :=
  .prepared "select * from notes where tenant = $1 and id = $2"
    [⟨"tenant_id", .null⟩, ⟨"id", .string "n1"⟩]

theorem plain_request_binds : BindsTenant ⟨"tenant_id", .inject⟩ "acme"
      (.prepared "select * from notes where tenant = $1 and id = $2"
        [⟨"tenant_id", .string "acme"⟩, ⟨"id", .string "n1"⟩]) := by
  have hpre : prepareCommand plainRequest (some ⟨"tenant_id", .inject⟩) "acme" =
      .ok (.prepared "select * from notes where tenant = $1 and id = $2"
        [⟨"tenant_id", .string "acme"⟩, ⟨"id", .string "n1"⟩]) := rfl
  refine (tenant_policy_binds_iff hpre).mpr ?_
  intro p hp
  simp [named] at hp

/-- A request of `acme` that gives the policy's name twice; the statement uses the second. -/
def twiceNamed : DbConnectorCommand :=
  .prepared "select * from notes where tenant = $2 and $1 <> ''"
    [⟨"tenant_id", .string "acme"⟩, ⟨"tenant_id", .string "other"⟩]

/-- Both modes let it through as it is, with another tenant in `$2`. -/
theorem second_name_unbound :
    (prepareCommand twiceNamed (some ⟨"tenant_id", .inject⟩) "acme" = .ok twiceNamed ∧
      ¬ BindsTenant ⟨"tenant_id", .inject⟩ "acme" twiceNamed) ∧
    prepareCommand twiceNamed (some ⟨"tenant_id", .requireMatch⟩) "acme" = .ok twiceNamed ∧
      ¬ BindsTenant ⟨"tenant_id", .requireMatch⟩ "acme" twiceNamed := by
  have hunb : ∀ mode, ¬ BindsTenant ⟨"tenant_id", mode⟩ "acme" twiceNamed := by
    rintro mode ⟨-, hall⟩
    have hoth := hall ⟨"tenant_id", .string "other"⟩ (by simp) rfl
    simp at hoth
  exact ⟨⟨rfl, hunb _⟩, rfl, hunb _⟩

end Fenrir.Connector
