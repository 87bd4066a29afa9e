import Sovereign.Policy

/-! The base bundle, one definition for each `deny` rule under `policies/base`.
A set of strings passed to a built-in is written as an array. -/
namespace Sovereign.BasePolicy
open Sovereign Rego Json

def tenancy : List Rule :=
  [{ head := .text "AC-6: missing tenant_id on provisioning request"
     body := fun input => single do
       guard (!holds (get? "tenant_id" input))
       return [] },
   { head := .sprintf "AC-6: empty tenant_id on provisioning request" []
     body := fun input => single do
       guard (get? "tenant_id" input=some (.str ""))
       return [] },
   { head := .sprintf "AC-6: tenant_id %q is not a valid identifier" [.ref ["tenant_id"]]
     body := fun input => single do
       guard (holds (get? "tenant_id" input))
       guard (!identifier (get? "tenant_id" input))
       return [] }]
where
  /-- `regex.match("^[a-zA-Z0-9_-]+$", x)`, undefined on values that are no strings. -/
  identifier : Option Json → Bool
    | some (.str s) => !s.toList.isEmpty && s.toList.all fun c => c.isAlphanum || c == '_' || c == '-'
    | _ => false

def stateChangingAction : List String := ["provision", "update", "delete", "bind", "deprovision"]

def amrValues (input : Json) : List (List Char) :=
  (((path ["context", "amr"] input).map members).getD []).filterMap fun v =>
    match v with
    | .str s => some (Text.lower s.toList)
    | _ => none

def authentication : List Rule :=
  [{ head := .sprintf "IA-2(11): MFA is required for %q" [.ref ["context", "action"]]
     body := fun input => single do
       guard (path ["context", "require_mfa"] input=some (.bool true))
       guard (inSet stateChangingAction (path ["context", "action"] input))
       guard ("mfa".toList∉amrValues input)
       return [] }]

/-- `input.parameters.<name>` given, be it `true` or `false`. -/
def hasParam (name : String) (input : Json) : Bool :=
  holds (path ["parameters", name] input) ||
    decide (path ["parameters", name] input=some (.bool false))

def auditLogging : List Rule :=
  [{ head := .text "AU-2: logging_enabled must be true on every provisioned service"
     body := fun input => single do
       guard (path ["parameters", "logging_enabled"] input=some (.bool false))
       return [] },
   { head := .text "AU-2: logging_enabled must be explicitly set to true"
     body := fun input => single do
       guard (!hasParam "logging_enabled" input)
       return [] }]

def requiredFlag (services : List String) (name off missing : String) : List Rule :=
  [{ head := .sprintf off [.ref ["service_type"]]
     body := fun input => single do
       guard (inSet services (get? "service_type" input))
       guard (path ["parameters", name] input=some (.bool false))
       return [] },
   { head := .sprintf missing [.ref ["service_type"]]
     body := fun input => single do
       guard (inSet services (get? "service_type" input))
       guard (!hasParam name input)
       return [] }]

def networkFacing : List String :=
  ["sovereign-envoy-lb", "inference-endpoint", "rag-workspace", "ai-gateway"]

def transmission : List Rule :=
  requiredFlag networkFacing "tls" "SC-8: TLS must be enabled on network-facing service %q"
    "SC-8: TLS parameter must be explicitly set on network-facing service %q"

def storageBacked : List String :=
  ["rag-workspace", "vector-db", "managed-database", "container-registry", "siem-workspace"]

def encryptionAtRest : List Rule :=
  requiredFlag storageBacked "encryption_at_rest"
    "SC-28: encryption_at_rest must be true on storage-backed service %q"
    "SC-28: encryption_at_rest must be explicitly set on storage-backed service %q"

def fipsApproved : List String :=
  ["TLS_AES_256_GCM_SHA384", "TLS_AES_128_GCM_SHA256", "TLS_CHACHA20_POLY1305_SHA256",
   "TLS_ECDHE_RSA_WITH_AES_256_GCM_SHA384", "TLS_ECDHE_RSA_WITH_AES_128_GCM_SHA256",
   "TLS_ECDHE_ECDSA_WITH_AES_256_GCM_SHA384", "TLS_ECDHE_ECDSA_WITH_AES_128_GCM_SHA256"]

def crypto : List Rule :=
  [{ head := .sprintf "SC-13: cipher suite %q is not FIPS-approved" [.var 0]
     body := fun input =>
       ((((path ["parameters", "cipher_suites"] input).map members).getD []).filter fun suite =>
         !inSet fipsApproved (some suite)).map fun suite => [suite] }]

def allowedServices : List Rule :=
  [{ head := .sprintf "CM-7: service_type %q is not approved for tenant %q"
       [.ref ["service_type"], .ref ["tenant_id"]]
     body := fun input => single do
       let approved ← get? "approved_services" input
       guard (holds (some approved))
       guard (0<(← count approved))
       guard (!isIn (get? "service_type" input) (some approved))
       return [] },
   { head := .sprintf "CM-7: plan_id %q is not approved for service %q (tenant %q)"
       [.ref ["plan_id"], .ref ["service_type"], .ref ["tenant_id"]]
     body := fun input => single do
       guard (holds (get? "approved_plans" input))
       let plans ← index (get? "approved_plans" input) (get? "service_type" input)
       guard (0<(← count plans))
       guard (!isIn (get? "plan_id" input) (some plans))
       return [] }]

def defaultApproved : Json :=
  .arr [.str "us-gov-east-1", .str "us-gov-west-1", .str "usgovarizona", .str "usgovvirginia"]

/-- The complete rule `approved`; undefined when `approved_regions` has no count. -/
def approved (input : Json) : Option Json :=
  match get? "approved_regions" input with
  | none => some defaultApproved
  | some (.bool false) => some defaultApproved
  | some regions => (count regions).map fun n => if 0 < n then regions else defaultApproved

def govRegion : List Rule :=
  [{ head := .sprintf "gov-region: parameters.region is required" []
     body := fun input => single do
       guard (!holds (path ["parameters", "region"] input))
       return [] },
   { head := .sprintf "gov-region: %q is not an approved GovCloud region (allowed: %v)"
       [.ref ["parameters", "region"], .var 0]
     body := fun input => single do
       guard (holds (path ["parameters", "region"] input))
       guard (!isIn (path ["parameters", "region"] input) (approved input))
       return (approved input).toList }]

def base : List Rule :=
  tenancy ++ authentication ++ auditLogging ++ transmission ++ crypto ++ encryptionAtRest ++
    allowedServices ++ govRegion

/-- A document whose parameters leave `logging_enabled` out is denied by the base layer. -/
theorem base_denies_without_logging (sprintf : String → List Json → String)
    (layers : Policy.Layers) (hb : layers.base=base) (doc : Json)
    (h : path ["parameters", "logging_enabled"] doc=none) :
    (Policy.decision sprintf layers doc).allow=false := by
  rw [Bool.eq_false_iff, Ne, Policy.decision_allow_iff, hb, ruleSet_eq_nil_iff]
  intro hall
  have hmem : (⟨.text "AU-2: logging_enabled must be explicitly set to true",
      fun input => single do
        guard (!hasParam "logging_enabled" input)
        return []⟩ : Rule)∈base := by
    simp [base, auditLogging]
  have hv := hall.1 _ hmem
  simp [Rule.values, hasParam, h, holds, single, Head.eval] at hv

end Sovereign.BasePolicy
