import Sovereign.BasePolicy

/-! The policy pre-check against the policy step of a provision request. The gate sees
the parameters through `LbParameters`, whose validation from the raw body is the
parameter `validate`; the pre-check sees the raw body. -/
namespace Sovereign.Precheck
open Sovereign Rego Policy

def provisionPolicyStep (validate : List (String × Json) → Option LbParameters)
    (policy : Json → PolicyDecision) (handlers : String → Option HandlerOutcome)
    (caller : Caller) (tenant : Option Tenant)
    (instanceId serviceId planId tenantId : String) (raw : List (String × Json)) :
    Option Gate :=
  (validate raw).map fun p =>
    evaluatePolicy policy handlers caller tenant instanceId serviceId planId p.modelDump tenantId
      Action.provision.value

section Agreement
variable (validate : List (String × Json) → Option LbParameters)
variable (handlers : String → Option HandlerOutcome) (caller : Caller) (tenant : Option Tenant)
variable (instanceId serviceId planId tenantId : String) (raw : List (String × Json))

/-- The pre-check allows exactly when the gate lets the request pass. -/
def Agrees (policy : Json → PolicyDecision) : Prop :=
  (policyCheck policy caller tenantId serviceId planId raw).allow=true ↔
    ∃ gate, provisionPolicyStep validate policy handlers caller tenant instanceId serviceId planId
      tenantId raw=some gate ∧ gate.raised=none

def requireContext (doc : Json) : PolicyDecision :=
  { allow := decide (Json.get? "context" doc≠some (.obj [])) }

theorem check_has_no_context :
    Json.get? "context" (buildPolicyInput (checkCall caller tenantId serviceId planId raw)) =
      some (.obj []) :=
  path_context _

theorem gate_has_context (p : LbParameters) (action : String) :
    Json.get? "context" (buildPolicyInput
      (gateCall caller tenant serviceId planId p.modelDump tenantId action))≠some (.obj []) := by
  rw [path_context]
  simp [gateCall, requestContext]

/-- The policy document of a provision request never carries `logging_enabled`. -/
theorem gate_has_no_logging (p : LbParameters) (action : String) :
    Json.path ["parameters", "logging_enabled"] (buildPolicyInput
      (gateCall caller tenant serviceId planId p.modelDump tenantId action))=none := by
  rw [path_parameters]
  have hn := p.modelDump_undeclared "logging_enabled" (by decide)
  simp [gateCall, Json.path, hn]

theorem requireContext_disagrees {p : LbParameters} (hv : validate raw=some p) :
    ¬ Agrees validate handlers caller tenant instanceId serviceId planId tenantId raw
      requireContext := by
  intro h
  have hgate : ∃ gate, provisionPolicyStep validate requireContext handlers caller tenant
      instanceId serviceId planId tenantId raw=some gate ∧ gate.raised=none := by
    refine ⟨_, by rw [provisionPolicyStep, hv]; rfl, ?_⟩
    rw [evaluatePolicy_raised_none]
    refine ⟨?_, by simp [requireContext]⟩
    simpa [requireContext] using
      gate_has_context caller tenant serviceId planId tenantId p Action.provision.value
  have hcheck := h.mpr hgate
  have hnone := check_has_no_context caller serviceId planId tenantId raw
  simp only [policyCheck, requireContext, decide_eq_true_eq] at hcheck
  exact hcheck hnone

theorem base_rejects_every_provision (sprintf : String → List Json → String) (layers : Layers)
    (hb : layers.base=BasePolicy.base) {gate : Gate}
    (hg : provisionPolicyStep validate (decision sprintf layers) handlers caller tenant instanceId
      serviceId planId tenantId raw=some gate) : gate.raised≠none := by
  obtain ⟨p, _, rfl⟩ := Option.map_eq_some_iff.mp hg
  intro hpass
  have hallow := ((evaluatePolicy_raised_none ..).mp hpass).1
  have hdeny := BasePolicy.base_denies_without_logging sprintf layers hb _
    (gate_has_no_logging caller tenant serviceId planId tenantId p Action.provision.value)
  rw [hdeny] at hallow
  cases hallow

end Agreement

/-- For no caller, tenant, service, plan and accepted body do the two agree under every
policy; and under the shipped base rules, whatever packs and tenant layers are
installed, no body at all passes the gate. -/
theorem precheck_never_agrees (validate : List (String × Json) → Option LbParameters)
    (handlers : String → Option HandlerOutcome) (caller : Caller) (tenant : Option Tenant)
    (instanceId serviceId planId tenantId : String) (raw : List (String × Json))
    (p : LbParameters) (hv : validate raw=some p) :
    (¬ ∀ policy, Agrees validate handlers caller tenant instanceId serviceId planId tenantId raw
      policy) ∧
    ∀ sprintf layers gate, layers.base=BasePolicy.base →
      provisionPolicyStep validate (decision sprintf layers) handlers caller tenant instanceId
        serviceId planId tenantId raw=some gate → gate.raised≠none := by
  refine ⟨fun h => requireContext_disagrees validate handlers caller tenant instanceId serviceId
    planId tenantId raw hv (h requireContext), ?_⟩
  intro sprintf layers gate hb hg
  exact base_rejects_every_provision validate handlers caller tenant instanceId serviceId planId
    tenantId raw sprintf layers hb hg

def compliantBody : List (String × Json) :=
  [("region", .str "us-gov-west-1"), ("tls", .bool true), ("logging_enabled", .bool true),
   ("encryption_at_rest", .bool true), ("cipher_suites", .arr [.str "TLS_AES_256_GCM_SHA384"])]

/-- Validation on bodies that give at most the region: names that are not declared are
ignored, and the other fields take their defaults. -/
def validateRegion (raw : List (String × Json)) : Option LbParameters :=
  match Json.lookup "region" raw with
  | none => some {}
  | some (.str region) => some { region }
  | some _ => none

def mfaCaller : Caller :=
  { user := { principal := "alice", tenantId := some "treasury", groups := []
              raw := { sub := some "alice", tid := some "treasury", amr := some (.arr [.str "mfa"]) } }
    isBasic := false }

theorem precheck_never_agrees_compliant :
    (∃ p, validateRegion compliantBody=some p) ∧
    ¬ ∀ policy, Agrees validateRegion obligationHandlers mfaCaller none "lb-1" "sovereign-envoy-lb"
      "standard-regional" "treasury" compliantBody policy :=
  ⟨⟨{ region := "us-gov-west-1" }, rfl⟩,
    (precheck_never_agrees validateRegion obligationHandlers mfaCaller none "lb-1"
      "sovereign-envoy-lb" "standard-regional" "treasury" compliantBody
      { region := "us-gov-west-1" } rfl).1⟩

/-- The base bundle allows the body in the pre-check and rejects it at the gate. -/
theorem compliant_body_rejected :
    (policyCheck (decision (fun format _ => format) { base := BasePolicy.base }) mfaCaller
      "treasury" "sovereign-envoy-lb" "standard-regional" compliantBody).allow=true ∧
    ¬ Agrees validateRegion obligationHandlers mfaCaller none "lb-1" "sovereign-envoy-lb"
      "standard-regional" "treasury" compliantBody
      (decision (fun format _ => format) { base := BasePolicy.base }) := by
  have hc : (policyCheck (decision (fun format _ => format) { base := BasePolicy.base }) mfaCaller
      "treasury" "sovereign-envoy-lb" "standard-regional" compliantBody).allow=true := by
    rw [policyCheck, decision_allow_iff]
    exact ⟨by decide, by simp, by simp⟩
  refine ⟨hc, fun h => ?_⟩
  obtain ⟨gate, hg, hp⟩ := h.mp hc
  exact base_rejects_every_provision validateRegion obligationHandlers mfaCaller none "lb-1"
    "sovereign-envoy-lb" "standard-regional" "treasury" compliantBody _ _ rfl hg hp

end Sovereign.Precheck
