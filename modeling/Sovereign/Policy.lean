import Sovereign.Models
import Sovereign.Identity
import Sovereign.Rego

/-! The policy step: the document the broker builds, the layered decision the
policy bundles compose, and the gate that acts on it. -/
namespace Sovereign.Policy
open Sovereign Rego

structure Call where
  actor : String
  tenantId : String
  serviceType : String
  planId : String
  parameters : List (String × Json)
  context : Option (List (String × Json)) := none
  approvedServices : Option (List Json) := none
  approvedPlans : Option (List (String × Json)) := none
  approvedRegions : Option (List Json) := none

def optionalMember (name : String) (value : Option Json) : List (String × Json) :=
  match value with
  | none => []
  | some v => [(name, v)]

def buildPolicyInput (c : Call) : Json :=
  .obj ([("actor", .str c.actor), ("tenant_id", .str c.tenantId),
    ("service_type", .str c.serviceType), ("plan_id", .str c.planId),
    ("parameters", .obj c.parameters), ("context", .obj (c.context.getD []))] ++
    optionalMember "approved_services" (c.approvedServices.map .arr) ++
    optionalMember "approved_plans" (c.approvedPlans.map .obj) ++
    optionalMember "approved_regions" (c.approvedRegions.map .arr))

def inputNames : List String :=
  ["actor", "tenant_id", "service_type", "plan_id", "parameters", "context",
   "approved_services", "approved_plans", "approved_regions"]

theorem optionalMember_name {name : String} {value : Option Json} {m : String × Json}
    (h : m∈optionalMember name value) : m.1=name := by
  cases value with
  | none => simp [optionalMember] at h
  | some v =>
    simp only [optionalMember, List.mem_singleton] at h
    rw [h]

theorem get?_buildPolicyInput_other (c : Call) (name : String) (h : name∉inputNames) :
    Json.get? name (buildPolicyInput c)=none := by
  rw [buildPolicyInput, Json.get?_obj]
  apply Json.lookup_eq_none
  intro m hm he
  apply h
  subst he
  simp only [List.mem_append, List.mem_cons, List.not_mem_nil, or_false] at hm
  obtain ((hm|hm)|hm)|hm := hm
  · obtain rfl|rfl|rfl|rfl|rfl|rfl := hm <;> simp [inputNames]
  · rw [optionalMember_name hm]
    decide
  · rw [optionalMember_name hm]
    decide
  · rw [optionalMember_name hm]
    decide

theorem path_parameters (c : Call) (rest : List String) :
    Json.path ("parameters"::rest) (buildPolicyInput c)=Json.path rest (.obj c.parameters) := by
  simp [Json.path, buildPolicyInput, Json.lookup]

theorem path_serviceType (c : Call) :
    Json.get? "service_type" (buildPolicyInput c)=some (.str c.serviceType) := by
  simp [buildPolicyInput, Json.lookup]

theorem path_context (c : Call) :
    Json.get? "context" (buildPolicyInput c)=some (.obj (c.context.getD [])) := by
  simp [buildPolicyInput, Json.lookup]

structure Layer where
  deny : List Rule := []
  obligations : List Rule := []

/-- `data.sovereign`: the base rules, and the packages below `pack` and `tenant`. -/
structure Layers where
  base : List Rule := []
  packs : List (String × Layer) := []
  tenants : List (String × Layer) := []

section Decision
variable (sprintf : String → List Json → String) (layers : Layers) (doc : Json)

def denies : List String :=
  Text.sortedSet (ruleSet sprintf layers.base doc ++
    layers.packs.flatMap (fun p => ruleSet sprintf p.2.deny doc) ++
    layers.tenants.flatMap (fun t => ruleSet sprintf t.2.deny doc))

def layerLabels (kind : String) (named : List (String × Layer)) : List String :=
  (named.filter fun l => !(ruleSet sprintf l.2.deny doc).isEmpty).map fun l => kind ++ ":" ++ l.1

def matchedLayers : List String :=
  Text.sortedSet ((if (ruleSet sprintf layers.base doc).isEmpty then [] else ["base"]) ++
    layerLabels sprintf doc "pack" layers.packs ++
    layerLabels sprintf doc "tenant" layers.tenants)

def obligations : List String :=
  Text.sortedSet (layers.packs.flatMap (fun p => ruleSet sprintf p.2.obligations doc) ++
    layers.tenants.flatMap (fun t => ruleSet sprintf t.2.obligations doc))

def decision : PolicyDecision :=
  let denies := denies sprintf layers doc
  { allow := denies.isEmpty
    reason := String.intercalate "; " denies
    obligations := obligations sprintf layers doc
    denies
    matchedLayers := matchedLayers sprintf layers doc }

theorem decision_allow_iff :
    (decision sprintf layers doc).allow=true ↔
      ruleSet sprintf layers.base doc=[] ∧
      (∀ p∈layers.packs, ruleSet sprintf p.2.deny doc=[]) ∧
      (∀ t∈layers.tenants, ruleSet sprintf t.2.deny doc=[]) := by
  simp only [decision, denies, List.isEmpty_iff, Text.sortedSet_eq_nil, List.append_eq_nil_iff,
    List.flatMap_eq_nil_iff, and_assoc]

end Decision

/-- Per-tenant limits from the tenant's metadata. A failed read of the tenant gives
the same as an absent tenant. -/
structure TenantContext where
  approvedServices : Option (List Json) := none
  approvedRegions : Option (List Json) := none
  approvedPlans : Option (List (String × Json)) := none

def listOf : Option Json → Option (List Json)
  | some (.arr items) => some items
  | _ => none

def dictOf : Option Json → Option (List (String × Json))
  | some (.obj members) => some members
  | _ => none

def tenantPolicyContext (tenant : Option Tenant) : TenantContext :=
  match tenant with
  | none => {}
  | some t =>
    { approvedServices := listOf (Json.lookup "approved_services" t.metadata)
      approvedRegions := listOf (Json.lookup "approved_regions" t.metadata)
      approvedPlans := dictOf (Json.lookup "approved_plans" t.metadata) }

def amrOf (claims : Claims) : Json :=
  match claims.amr with
  | some (.str s) => .arr [.str s]
  | some (.arr items) => .arr items
  | _ => .arr []

def requestContext (caller : Caller) (action : String) : List (String × Json) :=
  [("action", .str action),
   ("auth_scheme", .str (if caller.isBasic then "basic" else "oidc")),
   ("caller_groups", .arr (caller.user.groups.map .str)),
   ("amr", amrOf caller.user.raw),
   ("acr", caller.user.raw.acr.getD (.str "")),
   ("require_mfa", .bool (!caller.isBasic))]

def gateCall (caller : Caller) (tenant : Option Tenant) (serviceType planId : String)
    (parameters : List (String × Json)) (tenantId action : String) : Call :=
  let overrides := tenantPolicyContext tenant
  { actor := caller.user.principal, tenantId, serviceType, planId, parameters
    context := some (requestContext caller action)
    approvedServices := overrides.approvedServices
    approvedPlans := overrides.approvedPlans
    approvedRegions := overrides.approvedRegions }

/-- How a registered obligation handler ends. -/
inductive HandlerOutcome where
  | returned (honoured : Bool)
  | raised
deriving DecidableEq

def obligationHandlers (ob : String) : Option HandlerOutcome :=
  if ob∈["pii-redaction", "audit-model-provenance", "siem-self-monitor",
    "tag-data-classification", "tag-cloud-classification", "record-edge-attestation",
    "audit-identity-binding", "archive-comms-metadata", "register-validator-identities"]
  then some (.returned true) else none

def honoured (handlers : String → Option HandlerOutcome) (ob : String) : Bool :=
  match handlers ob with
  | some (.returned b) => b
  | _ => false

/-- Stops at the first obligation that is not honoured. -/
def enforceObligations (handlers : String → Option HandlerOutcome) (caller : Caller)
    (instanceId serviceType tenantId action : String) : List String → Gate
  | [] => {}
  | ob::rest =>
    let ok := honoured handlers ob
    let event : AuditRecord :=
      { action := if ok then "obligation.enforced" else "obligation.failed"
        resource := action ++ ":" ++ instanceId, actor := caller.user.principal, tenantId
        decision := if ok then "allow" else "deny"
        metadata := [("obligation", .str ob), ("service_type", .str serviceType)] }
    if ok then
      Gate.andThen { audits := [event] }
        (enforceObligations handlers caller instanceId serviceType tenantId action rest)
    else
      { audits := [event]
        raised := some ⟨503, .obj [("message", .str "policy obligation could not be enforced"),
          ("obligation", .str ob)]⟩ }

theorem enforceObligations_raised_none (handlers : String → Option HandlerOutcome)
    (caller : Caller) (instanceId serviceType tenantId action : String) (obs : List String) :
    (enforceObligations handlers caller instanceId serviceType tenantId action obs).raised=none ↔
      ∀ ob∈obs, honoured handlers ob=true := by
  induction obs with
  | nil => simp [enforceObligations]
  | cons ob rest ih =>
    by_cases ho : honoured handlers ob=true
    · simp [enforceObligations, ho, ih]
    · simp [enforceObligations, ho]

/-- `_evaluate_policy` after the decision is in: audit it, raise 403 on a deny, and
honour the obligations of an allow. -/
def actOnDecision (handlers : String → Option HandlerOutcome) (caller : Caller)
    (instanceId : String) (c : Call) (action : String) (d : PolicyDecision) : Gate :=
  let evaluated : AuditRecord :=
    { action := "policy.evaluated", resource := action ++ ":" ++ instanceId
      actor := caller.user.principal, tenantId := c.tenantId
      decision := if d.allow then "allow" else "deny"
      metadata := [("service_type", .str c.serviceType), ("plan_id", .str c.planId),
        ("denies", .arr (d.denies.map .str)),
        ("matched_layers", .arr (d.matchedLayers.map .str)),
        ("obligations", .arr (d.obligations.map .str)), ("action", .str action)] }
  Gate.andThen
    { audits := [evaluated]
      raised := if d.allow then none else
        some ⟨403, .obj [("message", .str "policy rejected the request"),
          ("denies", .arr (d.denies.map .str)),
          ("matched_layers", .arr (d.matchedLayers.map .str))]⟩ }
    (enforceObligations handlers caller instanceId c.serviceType c.tenantId action d.obligations)

def evaluatePolicy (policy : Json → PolicyDecision)
    (handlers : String → Option HandlerOutcome) (caller : Caller) (tenant : Option Tenant)
    (instanceId serviceType planId : String) (parameters : List (String × Json))
    (tenantId action : String) : Gate :=
  let c := gateCall caller tenant serviceType planId parameters tenantId action
  actOnDecision handlers caller instanceId c action (policy (buildPolicyInput c))

/-- The policy step passes exactly when the decision allows and every obligation is
honoured. -/
theorem evaluatePolicy_raised_none (policy : Json → PolicyDecision)
    (handlers : String → Option HandlerOutcome) (caller : Caller) (tenant : Option Tenant)
    (instanceId serviceType planId : String) (parameters : List (String × Json))
    (tenantId action : String) :
    (evaluatePolicy policy handlers caller tenant instanceId serviceType planId parameters
      tenantId action).raised=none ↔
    (policy (buildPolicyInput
      (gateCall caller tenant serviceType planId parameters tenantId action))).allow=true ∧
    ∀ ob∈(policy (buildPolicyInput
      (gateCall caller tenant serviceType planId parameters tenantId action))).obligations,
      honoured handlers ob=true := by
  simp only [evaluatePolicy, actOnDecision, Gate.andThen_raised_none,
    enforceObligations_raised_none]
  refine and_congr_left fun _ => ?_
  split <;> simp_all

/-- The call `POST /v2/policy/check` makes: the raw parameters, and neither context
nor tenant limits. -/
def checkCall (caller : Caller) (tenantId serviceType planId : String)
    (parameters : List (String × Json)) : Call :=
  { actor := caller.user.principal, tenantId, serviceType, planId, parameters }

def policyCheck (policy : Json → PolicyDecision) (caller : Caller)
    (tenantId serviceType planId : String) (parameters : List (String × Json)) :
    PolicyDecision :=
  policy (buildPolicyInput (checkCall caller tenantId serviceType planId parameters))

end Sovereign.Policy
