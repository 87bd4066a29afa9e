import Sovereign.BasePolicy

/-! The bundles of the data, ai and blockchain packs. Every `deny` head names the
instance it rejects, `input.instance_id`. -/
namespace Sovereign.PackPolicy
open Sovereign Rego Json Policy

def classified : List String := ["CUI", "SECRET"]

def classifiedFlag (services : List String) (format name : String) : Rule :=
  { head := .sprintf format [.var 0, .ref ["instance_id"]]
    body := fun input => single do
      guard (inSet services (get? "service_type" input))
      let classification ← path ["parameters", "classification"] input
      guard (inSet classified (some classification))
      guard (path ["parameters", name] input=some (.bool false))
      return [classification] }

/-! `sovereign.pack.data` -/

def storageServices : List String := ["managed-database", "vector-db"]

def dataEncryption : Rule :=
  classifiedFlag storageServices
    "SC-28: %q data service %q must set encryption_at_rest=true" "encryption_at_rest"

def dataRetention : Rule :=
  { head := .sprintf "CP-9: %q database %q backup_retention_days (%d) below the 7-day floor"
      [.var 0, .ref ["instance_id"], .var 1]
    body := fun input => single do
      guard (get? "service_type" input=some (.str "managed-database"))
      let classification ← path ["parameters", "classification"] input
      guard (inSet classified (some classification))
      let retention ← path ["parameters", "backup_retention_days"] input
      guard (ltNum 7 retention)
      return [classification, retention] }

def dataDeletion : Rule :=
  classifiedFlag ["managed-database"]
    "SI-12: %q database %q must keep deletion_protection=true" "deletion_protection"

def data : Layer :=
  { deny := [dataEncryption, dataRetention, dataDeletion]
    obligations :=
      [{ head := .text "tag-data-classification"
         body := fun input => single do
           guard (inSet storageServices (get? "service_type" input))
           return [] }] }

/-! `sovereign.pack.ai` -/

def aiResidency : Rule :=
  { head := .sprintf "AC-4: %q workload %q must declare data_residency"
      [.var 0, .ref ["instance_id"]]
    body := fun input => single do
      let classification ← path ["parameters", "classification"] input
      guard (inSet classified (some classification))
      guard (!holds (path ["parameters", "data_residency"] input))
      return [classification] }

def aiLogging : Rule :=
  { head := .sprintf "SI-12: SECRET workload %q must keep logging_enabled=true"
      [.ref ["instance_id"]]
    body := fun input => single do
      guard (path ["parameters", "classification"] input=some (.str "SECRET"))
      guard (path ["parameters", "logging_enabled"] input=some (.bool false))
      return [] }

def aiEncryption : Rule :=
  classifiedFlag ["rag-workspace"]
    "SC-28: %q RAG workspace %q must set encryption_at_rest=true" "encryption_at_rest"

def ai : Layer :=
  { deny := [aiResidency, aiLogging, aiEncryption]
    obligations :=
      [{ head := .text "pii-redaction"
         body := fun input => single do
           guard (inSet classified (path ["parameters", "classification"] input))
           guard (path ["parameters", "pii_redaction"] input=some (.bool false))
           return [] },
       { head := .text "audit-model-provenance"
         body := fun input => single do
           guard (inSet ["inference-endpoint", "rag-workspace"] (get? "service_type" input))
           return [] }] }

/-! `sovereign.pack.blockchain` -/

def ledger : List String := ["permissioned-ledger"]

def ledgerFlag (format name : String) : Rule :=
  { head := .sprintf format [.ref ["instance_id"]]
    body := fun input => single do
      guard (inSet ledger (get? "service_type" input))
      guard (path ["parameters", name] input=some (.bool false))
      return [] }

def ledgerPermissioned : Rule :=
  ledgerFlag "AC-3: ledger %q must be permissioned" "permissioned"

def ledgerIdentity : Rule :=
  ledgerFlag "IA-3: ledger %q must require validator identity" "validator_identity_required"

def ledgerCustody : Rule :=
  classifiedFlag ledger "SC-12: %q ledger %q must use HSM key custody" "hsm_key_custody"

def ledgerCrypto : Rule :=
  classifiedFlag ledger "SC-13: %q ledger %q must use FIPS crypto" "fips_crypto"

def bft : List String := ["ibft2", "qbft"]

def ledgerConsensus : Rule :=
  { head := .sprintf "AC-3: ledger %q with %d validators must use BFT consensus (got %q)"
      [.ref ["instance_id"], .var 0, .var 1]
    body := fun input => single do
      guard (get? "service_type" input=some (.str "permissioned-ledger"))
      let count ← path ["parameters", "validator_count"] input
      guard (gtNum 7 count)
      let consensus ← path ["parameters", "consensus"] input
      guard (!inSet bft (some consensus))
      return [count, consensus] }

def blockchain : Layer :=
  { deny := [ledgerPermissioned, ledgerIdentity, ledgerCustody, ledgerCrypto, ledgerConsensus]
    obligations :=
      [{ head := .text "register-validator-identities"
         body := fun input => single do
           guard (inSet ledger (get? "service_type" input))
           return [] }] }

inductive Pack where
  | data | ai | blockchain
deriving DecidableEq

def Pack.name : Pack → String
  | .data => "data"
  | .ai => "ai"
  | .blockchain => "blockchain"

def Pack.layer : Pack → Layer
  | .data => PackPolicy.data
  | .ai => PackPolicy.ai
  | .blockchain => PackPolicy.blockchain

/-- The base bundle with the three packs installed. -/
def shipped : Layers :=
  { base := BasePolicy.base
    packs := [.data, .ai, .blockchain].map fun p : Pack => (p.name, p.layer) }

theorem head_names_instance (p : Pack) (r : Rule) (hr : r∈p.layer.deny) :
    ∃ format args, r.head=.sprintf format args ∧ Term.ref ["instance_id"]∈args := by
  cases p with
  | data =>
    simp only [Pack.layer, data, List.mem_cons, List.not_mem_nil, or_false] at hr
    obtain rfl|rfl|rfl := hr <;> exact ⟨_, _, rfl, by decide⟩
  | ai =>
    simp only [Pack.layer, ai, List.mem_cons, List.not_mem_nil, or_false] at hr
    obtain rfl|rfl|rfl := hr <;> exact ⟨_, _, rfl, by decide⟩
  | blockchain =>
    simp only [Pack.layer, blockchain, List.mem_cons, List.not_mem_nil, or_false] at hr
    obtain rfl|rfl|rfl|rfl|rfl := hr <;> exact ⟨_, _, rfl, by decide⟩

/-- The builder supplies no `instance_id`, so no pack rule ever contributes. -/
theorem pack_deny_empty (sprintf : String → List Json → String) (p : Pack) (c : Call) :
    ruleSet sprintf p.layer.deny (buildPolicyInput c)=[] := by
  rw [ruleSet_eq_nil_iff]
  intro r hr
  obtain ⟨format, args, hh, ha⟩ := head_names_instance p r hr
  have hp : path ["instance_id"] (buildPolicyInput c)=none := by
    simp [path, get?_buildPolicyInput_other c "instance_id" (by decide)]
  exact values_undefined_head sprintf r _ format args ["instance_id"] hh ha hp

/-- On the documents the broker builds a pack rule binds only where it says nothing:
whenever its body holds, its pack's deny set is empty all the same. -/
theorem pack_rule_binds_iff (sprintf : String → List Json → String) (layers : Layers)
    (p : Pack) (c : Call) :
    ∀ r∈p.layer.deny,
      ((r.bodyHolds (buildPolicyInput c) →
        (decision sprintf layers (buildPolicyInput c)).allow=false ∧
          ruleSet sprintf p.layer.deny (buildPolicyInput c)≠[]) ↔
      ¬ r.bodyHolds (buildPolicyInput c)) := by
  intro r _
  constructor
  · intro h hb
    exact (h hb).2 (pack_deny_empty sprintf p c)
  · intro hn hb
    exact absurd hb hn

def shortRetention : Call :=
  { actor := "alice", tenantId := "treasury", serviceType := "managed-database"
    planId := "small"
    parameters := [("classification", .str "CUI"), ("backup_retention_days", .num 1),
      ("encryption_at_rest", .bool true), ("logging_enabled", .bool true),
      ("region", .str "us-gov-west-1")] }

theorem pack_rule_binds_iff_shortRetention :
    dataRetention.bodyHolds (buildPolicyInput shortRetention) ∧
    ¬ (dataRetention.bodyHolds (buildPolicyInput shortRetention) →
      (decision (fun format _ => format) shipped (buildPolicyInput shortRetention)).allow=false ∧
        ruleSet (fun format _ => format) Pack.data.layer.deny
          (buildPolicyInput shortRetention)≠[]) := by
  have hb : dataRetention.bodyHolds (buildPolicyInput shortRetention) := by decide
  refine ⟨hb, fun h => ?_⟩
  exact (pack_rule_binds_iff (fun format _ => format) shipped .data shortRetention dataRetention
    (by simp [Pack.layer, data])).mp h hb

/-- The composed decision allows that call, with all three packs installed. -/
theorem short_retention_allowed :
    ¬ ∀ (p : Pack) (r : Rule) (c : Call), r∈p.layer.deny →
      r.bodyHolds (buildPolicyInput c) →
      (decision (fun format _ => format) shipped (buildPolicyInput c)).allow=false ∧
        ruleSet (fun format _ => format) p.layer.deny (buildPolicyInput c)≠[] := by
  intro h
  have hd := (h .data dataRetention shortRetention (by simp [Pack.layer, data]) (by decide)).1
  have ha : (decision (fun format _ => format) shipped
      (buildPolicyInput shortRetention)).allow=true := by
    rw [decision_allow_iff]
    refine ⟨by decide, ?_, by simp [shipped]⟩
    intro p hp
    simp only [shipped, List.mem_map] at hp
    obtain ⟨q, _, rfl⟩ := hp
    exact pack_deny_empty _ q shortRetention
  rw [ha] at hd
  cases hd

end Sovereign.PackPolicy
