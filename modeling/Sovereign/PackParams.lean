import Sovereign.Models
import Sovereign.Text

/-! The parameter models of the service packs. A pack reads its own fields from the
string map `tags` of the instance, coerces some of them and validates the rest; what
the validation library itself parses from a string is the parameter `Lax`. -/
namespace Sovereign.Packs
open Sovereign

/-- Why `_params` raises: `int()` on a tag, or a field that does not validate. Of several
failures the first one found stands for all; no caller tells them apart. -/
inductive ParamError where
  | notAnInt (field : String)
  | invalid (field : String)
deriving DecidableEq

theorem bind_eq_ok {ε α β : Type} {x : Except ε α} {f : α → Except ε β} {b : β}
    (h : (x >>= f)=.ok b) : ∃ a, x=.ok a ∧ f a=.ok b := by
  cases x with
  | error e => cases h
  | ok a => exact ⟨a, rfl, h⟩

theorem map_eq_ok {ε α β : Type} {x : Except ε α} {f : α → β} {b : β}
    (h : x.map f=.ok b) : ∃ a, x=.ok a ∧ f a=b := by
  cases x with
  | error e => cases h
  | ok a => exact ⟨a, rfl, by simpa [Except.map] using h⟩

/-- The validation library's own reading of a string as a Boolean or an integer. -/
structure Lax where
  bool : String → Option Bool
  int : String → Option Int

abbrev Bounded (lo hi : Int) := { n : Int // lo ≤ n ∧ n ≤ hi }

theorem twenty_bounded : (10 : Int) ≤ 20 ∧ (20 : Int) ≤ 65536 := by decide
theorem three_bounded : (1 : Int) ≤ 3 ∧ (3 : Int) ≤ 100 := by decide

abbrev NonEmpty := { s : String // s≠"" }

/-! Readers of one tag, each with the default of its field. -/
section Readers
variable (tags : List (String × String)) (name : String)

def strTag (default : String) : String := (tags.lookup name).getD default

/-- `str(x).lower() in {"1", "true", "yes"}` when the tag is there. -/
def boolTag (default : Bool) : Bool :=
  match tags.lookup name with
  | none => default
  | some s => Text.truthy s

def bounded (lo hi : Int) (n : Int) : Except ParamError (Bounded lo hi) :=
  if h : lo ≤ n ∧ n ≤ hi then .ok ⟨n, h⟩ else .error (.invalid name)

/-- `int(x)` when the tag is there, then the bounds of the field. -/
def intTag {lo hi : Int} (default : Bounded lo hi) : Except ParamError (Bounded lo hi) :=
  match tags.lookup name with
  | none => .ok default
  | some s =>
    match Text.pyInt s with
    | none => .error (.notAnInt name)
    | some n => bounded name lo hi n

def laxBoolTag (lax : Lax) (default : Bool) : Except ParamError Bool :=
  match tags.lookup name with
  | none => .ok default
  | some s =>
    match lax.bool s with
    | none => .error (.invalid name)
    | some b => .ok b

def laxIntTag {lo hi : Int} (lax : Lax) (default : Bounded lo hi) :
    Except ParamError (Bounded lo hi) :=
  match tags.lookup name with
  | none => .ok default
  | some s =>
    match lax.int s with
    | none => .error (.invalid name)
    | some n => bounded name lo hi n

def literalTag {α : Type} (value : α → String) (all : List α) (default : α) :
    Except ParamError α :=
  match tags.lookup name with
  | none => .ok default
  | some s =>
    match all.find? fun a => decide (value a=s) with
    | none => .error (.invalid name)
    | some a => .ok a

def nonEmptyTag (fill : String) : Except ParamError NonEmpty :=
  if h : strTag tags name fill≠"" then .ok ⟨strTag tags name fill, h⟩ else .error (.invalid name)

/-- A list field the renderer does not split: a string is rejected. -/
def unsplitListTag (default : List String) : Except ParamError (List String) :=
  match tags.lookup name with
  | none => .ok default
  | some _ => .error (.invalid name)

/-- `[v.strip() for v in s.split(",") if v.strip()]`. -/
def splitList (s : String) : List String :=
  ((s.toList.splitOnP (· == ',')).map Text.strip).filterMap fun v =>
    if v=[] then none else some (String.ofList v)

def splitListTag (default : List String) : List String :=
  match tags.lookup name with
  | none => default
  | some s => splitList s

end Readers

inductive Classification where
  | u | cui | secret
deriving DecidableEq

def Classification.value : Classification → String
  | .u => "U"
  | .cui => "CUI"
  | .secret => "SECRET"

def Classification.all : List Classification := [.u, .cui, .secret]

def classificationTag (tags : List (String × String)) (default : Classification) :
    Except ParamError Classification :=
  literalTag tags "classification" Classification.value Classification.all default

/-! Data pack. -/

inductive Engine where
  | postgres | mysql
deriving DecidableEq

def Engine.value : Engine → String
  | .postgres => "postgres"
  | .mysql => "mysql"

inductive VectorStore where
  | pgvector | qdrant | milvus
deriving DecidableEq

def VectorStore.value : VectorStore → String
  | .pgvector => "pgvector"
  | .qdrant => "qdrant"
  | .milvus => "milvus"

def VectorStore.all : List VectorStore := [.pgvector, .qdrant, .milvus]

structure ManagedDatabaseParams where
  engine : Engine := .postgres
  version : String := "16"
  storageGb : Bounded 10 65536 := ⟨20, twenty_bounded⟩
  instanceClass : String := "db.t3.medium"
  multiAz : Bool := false
  namespace_ : String := "sovereign-data"
  region : String := "us-gov-west-1"
  classification : Classification := .cui
  encryptionAtRest : Bool := true
  backupRetentionDays : Bounded 0 35 := ⟨7, by decide⟩
  deletionProtection : Bool := true
deriving DecidableEq

def ManagedDatabaseParams.ofTags (tags : List (String × String)) :
    Except ParamError ManagedDatabaseParams := do
  let d : ManagedDatabaseParams := {}
  let storageGb ← intTag tags "storage_gb" d.storageGb
  let backupRetentionDays ← intTag tags "backup_retention_days" d.backupRetentionDays
  let engine ← literalTag tags "engine" Engine.value [.postgres, .mysql] d.engine
  let classification ← classificationTag tags d.classification
  return { engine, storageGb, classification, backupRetentionDays
           version := strTag tags "version" d.version
           instanceClass := strTag tags "instance_class" d.instanceClass
           multiAz := boolTag tags "multi_az" d.multiAz
           namespace_ := strTag tags "namespace" d.namespace_
           region := strTag tags "region" d.region
           encryptionAtRest := boolTag tags "encryption_at_rest" d.encryptionAtRest
           deletionProtection := boolTag tags "deletion_protection" d.deletionProtection }

def ManagedDatabaseParams.modelDump (p : ManagedDatabaseParams) : List (String × Json) :=
  [("engine", .str p.engine.value), ("version", .str p.version),
   ("storage_gb", .num p.storageGb.1), ("instance_class", .str p.instanceClass),
   ("multi_az", .bool p.multiAz), ("namespace", .str p.namespace_), ("region", .str p.region),
   ("classification", .str p.classification.value),
   ("encryption_at_rest", .bool p.encryptionAtRest),
   ("backup_retention_days", .num p.backupRetentionDays.1),
   ("deletion_protection", .bool p.deletionProtection)]

structure VectorDbParams where
  store : VectorStore := .pgvector
  storageGb : Bounded 10 65536 := ⟨20, twenty_bounded⟩
  namespace_ : String := "sovereign-data"
  region : String := "us-gov-west-1"
  classification : Classification := .cui
  encryptionAtRest : Bool := true
deriving DecidableEq

def VectorDbParams.ofTags (tags : List (String × String)) : Except ParamError VectorDbParams := do
  let d : VectorDbParams := {}
  let storageGb ← intTag tags "storage_gb" d.storageGb
  let store ← literalTag tags "store" VectorStore.value VectorStore.all d.store
  let classification ← classificationTag tags d.classification
  return { store, storageGb, classification
           namespace_ := strTag tags "namespace" d.namespace_
           region := strTag tags "region" d.region
           encryptionAtRest := boolTag tags "encryption_at_rest" d.encryptionAtRest }

def VectorDbParams.modelDump (p : VectorDbParams) : List (String × Json) :=
  [("store", .str p.store.value), ("storage_gb", .num p.storageGb.1),
   ("namespace", .str p.namespace_), ("region", .str p.region),
   ("classification", .str p.classification.value),
   ("encryption_at_rest", .bool p.encryptionAtRest)]

/-! AI pack. Its renderers coerce nothing: the validation library reads the strings. -/

inductive ServingEngine where
  | vllm | tgi
deriving DecidableEq

def ServingEngine.value : ServingEngine → String
  | .vllm => "vllm"
  | .tgi => "tgi"

inductive Accelerator where
  | cpu | a10 | a100 | h100
deriving DecidableEq

def Accelerator.value : Accelerator → String
  | .cpu => "cpu"
  | .a10 => "a10"
  | .a100 => "a100"
  | .h100 => "h100"

def isGpu : Accelerator → Bool
  | .cpu => false
  | _ => true

structure InferenceEndpointParams where
  modelId : NonEmpty
  engine : ServingEngine := .vllm
  accelerator : Accelerator := .a10
  replicas : Bounded 1 64 := ⟨1, by decide⟩
  maxContextTokens : Bounded 512 1000000 := ⟨8192, by decide⟩
  namespace_ : String := "sovereign-ai"
  classification : Classification := .u
  dataResidency : String := "us-gov-west-1"
  piiRedaction : Bool := true
  tls : Bool := true
  loggingEnabled : Bool := true
deriving DecidableEq

def InferenceEndpointParams.ofTags (lax : Lax) (instanceId : String)
    (tags : List (String × String)) : Except ParamError InferenceEndpointParams := do
  let modelId ← nonEmptyTag tags "model_id" instanceId
  let d : InferenceEndpointParams := { modelId }
  let engine ← literalTag tags "engine" ServingEngine.value [.vllm, .tgi] d.engine
  let accelerator ←
    literalTag tags "accelerator" Accelerator.value [.cpu, .a10, .a100, .h100] d.accelerator
  let replicas ← laxIntTag tags "replicas" lax d.replicas
  let maxContextTokens ← laxIntTag tags "max_context_tokens" lax d.maxContextTokens
  let classification ← classificationTag tags d.classification
  let piiRedaction ← laxBoolTag tags "pii_redaction" lax d.piiRedaction
  let tls ← laxBoolTag tags "tls" lax d.tls
  let loggingEnabled ← laxBoolTag tags "logging_enabled" lax d.loggingEnabled
  return { d with
    engine, accelerator, replicas, maxContextTokens, classification, piiRedaction, tls
    loggingEnabled
    namespace_ := strTag tags "namespace" d.namespace_
    dataResidency := strTag tags "data_residency" d.dataResidency }

structure RagWorkspaceParams where
  name : NonEmpty
  embeddingModel : String := "text-embedding-3-large"
  vectorStore : VectorStore := .pgvector
  namespace_ : String := "sovereign-ai"
  connectors : List String := []
  classification : Classification := .cui
  dataResidency : String := "us-gov-west-1"
  encryptionAtRest : Bool := true
  piiRedaction : Bool := true
deriving DecidableEq

def RagWorkspaceParams.ofTags (lax : Lax) (instanceId : String)
    (tags : List (String × String)) : Except ParamError RagWorkspaceParams := do
  let name ← nonEmptyTag tags "name" instanceId
  let d : RagWorkspaceParams := { name }
  let vectorStore ← literalTag tags "vector_store" VectorStore.value VectorStore.all d.vectorStore
  let connectors ← unsplitListTag tags "connectors" d.connectors
  let classification ← classificationTag tags d.classification
  let encryptionAtRest ← laxBoolTag tags "encryption_at_rest" lax d.encryptionAtRest
  let piiRedaction ← laxBoolTag tags "pii_redaction" lax d.piiRedaction
  return { d with
    vectorStore, connectors, classification, encryptionAtRest, piiRedaction
    embeddingModel := strTag tags "embedding_model" d.embeddingModel
    namespace_ := strTag tags "namespace" d.namespace_
    dataResidency := strTag tags "data_residency" d.dataResidency }

def RagWorkspaceParams.modelDump (p : RagWorkspaceParams) : List (String × Json) :=
  [("name", .str p.name.1), ("embedding_model", .str p.embeddingModel),
   ("vector_store", .str p.vectorStore.value), ("namespace", .str p.namespace_),
   ("connectors", .arr (p.connectors.map .str)),
   ("classification", .str p.classification.value), ("data_residency", .str p.dataResidency),
   ("encryption_at_rest", .bool p.encryptionAtRest), ("pii_redaction", .bool p.piiRedaction)]

/-! Blockchain pack. -/

inductive LedgerPlatform where
  | fabric | besu
deriving DecidableEq

def LedgerPlatform.value : LedgerPlatform → String
  | .fabric => "fabric"
  | .besu => "besu"

inductive ConsensusType where
  | raft | ibft2 | qbft
deriving DecidableEq

def ConsensusType.value : ConsensusType → String
  | .raft => "raft"
  | .ibft2 => "ibft2"
  | .qbft => "qbft"

structure PermissionedLedgerParams where
  platform : LedgerPlatform := .fabric
  consensus : ConsensusType := .raft
  namespace_ : String := "sovereign-ledger"
  region : String := "us-gov-west-1"
  classification : Classification := .cui
  validatorCount : Bounded 1 100 := ⟨4, by decide⟩
  permissioned : Bool := true
  validatorIdentityRequired : Bool := true
  hsmKeyCustody : Bool := true
  fipsCrypto : Bool := true
deriving DecidableEq

def PermissionedLedgerParams.ofTags (tags : List (String × String)) :
    Except ParamError PermissionedLedgerParams := do
  let d : PermissionedLedgerParams := {}
  let validatorCount ← intTag tags "validator_count" d.validatorCount
  let platform ← literalTag tags "platform" LedgerPlatform.value [.fabric, .besu] d.platform
  let consensus ←
    literalTag tags "consensus" ConsensusType.value [.raft, .ibft2, .qbft] d.consensus
  let classification ← classificationTag tags d.classification
  return { platform, consensus, classification, validatorCount
           namespace_ := strTag tags "namespace" d.namespace_
           region := strTag tags "region" d.region
           permissioned := boolTag tags "permissioned" d.permissioned
           validatorIdentityRequired :=
             boolTag tags "validator_identity_required" d.validatorIdentityRequired
           hsmKeyCustody := boolTag tags "hsm_key_custody" d.hsmKeyCustody
           fipsCrypto := boolTag tags "fips_crypto" d.fipsCrypto }

def PermissionedLedgerParams.modelDump (p : PermissionedLedgerParams) : List (String × Json) :=
  [("platform", .str p.platform.value), ("consensus", .str p.consensus.value),
   ("namespace", .str p.namespace_), ("region", .str p.region),
   ("classification", .str p.classification.value), ("validator_count", .num p.validatorCount.1),
   ("permissioned", .bool p.permissioned),
   ("validator_identity_required", .bool p.validatorIdentityRequired),
   ("hsm_key_custody", .bool p.hsmKeyCustody), ("fips_crypto", .bool p.fipsCrypto)]

/-! SecOps pack. -/

inductive SiemBackend where
  | elastic | opensearch | splunk
deriving DecidableEq

def SiemBackend.value : SiemBackend → String
  | .elastic => "elastic"
  | .opensearch => "opensearch"
  | .splunk => "splunk"

structure SiemWorkspaceParams where
  backend : SiemBackend := .opensearch
  namespace_ : String := "sovereign-secops"
  region : String := "us-gov-west-1"
  classification : Classification := .cui
  retentionDays : Bounded 1 3650 := ⟨90, by decide⟩
  immutableStorage : Bool := true
  encryptionAtRest : Bool := true
  hotNodes : Bounded 1 100 := ⟨3, three_bounded⟩
deriving DecidableEq

def SiemWorkspaceParams.ofTags (tags : List (String × String)) :
    Except ParamError SiemWorkspaceParams := do
  let d : SiemWorkspaceParams := {}
  let retentionDays ← intTag tags "retention_days" d.retentionDays
  let hotNodes ← intTag tags "hot_nodes" d.hotNodes
  let backend ←
    literalTag tags "backend" SiemBackend.value [.elastic, .opensearch, .splunk] d.backend
  let classification ← classificationTag tags d.classification
  return { backend, classification, retentionDays, hotNodes
           namespace_ := strTag tags "namespace" d.namespace_
           region := strTag tags "region" d.region
           immutableStorage := boolTag tags "immutable_storage" d.immutableStorage
           encryptionAtRest := boolTag tags "encryption_at_rest" d.encryptionAtRest }

structure LogPipelineParams where
  name : NonEmpty
  namespace_ : String := "sovereign-secops"
  sinks : List String := ["siem"]
  sources : List String := []
  classification : Classification := .cui
  signRecords : Bool := true
deriving DecidableEq

def LogPipelineParams.ofTags (instanceId : String) (tags : List (String × String)) :
    Except ParamError LogPipelineParams := do
  let name ← nonEmptyTag tags "name" instanceId
  let d : LogPipelineParams := { name }
  let classification ← classificationTag tags d.classification
  return { d with
    classification
    namespace_ := strTag tags "namespace" d.namespace_
    sinks := splitListTag tags "sinks" d.sinks
    sources := splitListTag tags "sources" d.sources
    signRecords := boolTag tags "sign_records" d.signRecords }

/-! Edge pack. -/

structure EdgeNodeParams where
  namespace_ : String := "sovereign-edge"
  region : String := "us-gov-west-1"
  classification : Classification := .cui
  fipsImage : Bool := true
  attestationRequired : Bool := true
  diskEncryption : Bool := true
deriving DecidableEq

def EdgeNodeParams.ofTags (tags : List (String × String)) : Except ParamError EdgeNodeParams := do
  let d : EdgeNodeParams := {}
  let classification ← classificationTag tags d.classification
  return { classification
           namespace_ := strTag tags "namespace" d.namespace_
           region := strTag tags "region" d.region
           fipsImage := boolTag tags "fips_image" d.fipsImage
           attestationRequired := boolTag tags "attestation_required" d.attestationRequired
           diskEncryption := boolTag tags "disk_encryption" d.diskEncryption }

structure EdgeClusterParams where
  namespace_ : String := "sovereign-edge"
  region : String := "us-gov-west-1"
  classification : Classification := .cui
  nodeCount : Bounded 1 50 := ⟨3, by decide⟩
  fipsImage : Bool := true
  attestationRequired : Bool := true
  offlineMode : Bool := true
deriving DecidableEq

def EdgeClusterParams.ofTags (tags : List (String × String)) :
    Except ParamError EdgeClusterParams := do
  let d : EdgeClusterParams := {}
  let nodeCount ← intTag tags "node_count" d.nodeCount
  let classification ← classificationTag tags d.classification
  return { classification, nodeCount
           namespace_ := strTag tags "namespace" d.namespace_
           region := strTag tags "region" d.region
           fipsImage := boolTag tags "fips_image" d.fipsImage
           attestationRequired := boolTag tags "attestation_required" d.attestationRequired
           offlineMode := boolTag tags "offline_mode" d.offlineMode }

/-! Multi-cloud pack. -/

inductive CloudProvider where
  | awsGovcloud | azureGov | gcp
deriving DecidableEq

def CloudProvider.value : CloudProvider → String
  | .awsGovcloud => "aws-govcloud"
  | .azureGov => "azure-gov"
  | .gcp => "gcp"

def CloudProvider.all : List CloudProvider := [.awsGovcloud, .azureGov, .gcp]

structure CloudAccountParams where
  provider : CloudProvider := .awsGovcloud
  region : String := "us-gov-west-1"
  classification : Classification := .cui
  guardrailsEnabled : Bool := true
  orgAuditEnabled : Bool := true
deriving DecidableEq

def CloudAccountParams.ofTags (tags : List (String × String)) :
    Except ParamError CloudAccountParams := do
  let d : CloudAccountParams := {}
  let provider ← literalTag tags "provider" CloudProvider.value CloudProvider.all d.provider
  let classification ← classificationTag tags d.classification
  return { provider, classification
           region := strTag tags "region" d.region
           guardrailsEnabled := boolTag tags "guardrails_enabled" d.guardrailsEnabled
           orgAuditEnabled := boolTag tags "org_audit_enabled" d.orgAuditEnabled }

structure LandingZoneParams where
  provider : CloudProvider := .awsGovcloud
  region : String := "us-gov-west-1"
  classification : Classification := .cui
  accountCount : Bounded 1 100 := ⟨3, three_bounded⟩
  networkBoundary : Bool := true
deriving DecidableEq

def LandingZoneParams.ofTags (tags : List (String × String)) :
    Except ParamError LandingZoneParams := do
  let d : LandingZoneParams := {}
  let accountCount ← intTag tags "account_count" d.accountCount
  let provider ← literalTag tags "provider" CloudProvider.value CloudProvider.all d.provider
  let classification ← classificationTag tags d.classification
  return { provider, classification, accountCount
           region := strTag tags "region" d.region
           networkBoundary := boolTag tags "network_boundary" d.networkBoundary }

/-! Comms and identity packs, whose services deploy nothing. -/

structure SecureEmailParams where
  provider : String := "m365-gcc-high"
  classification : Classification := .cui
  tlsRequired : Bool := true
  cipherSuite : String := "TLS_AES_256_GCM_SHA384"
  retentionDays : Bounded 1 36500 := ⟨2555, by decide⟩
  dlpEnabled : Bool := true
deriving DecidableEq

def SecureEmailParams.ofTags (tags : List (String × String)) :
    Except ParamError SecureEmailParams := do
  let d : SecureEmailParams := {}
  let retentionDays ← intTag tags "retention_days" d.retentionDays
  let classification ← classificationTag tags d.classification
  return { classification, retentionDays
           provider := strTag tags "provider" d.provider
           tlsRequired := boolTag tags "tls_required" d.tlsRequired
           cipherSuite := strTag tags "cipher_suite" d.cipherSuite
           dlpEnabled := boolTag tags "dlp_enabled" d.dlpEnabled }

structure SecureChatParams where
  provider : String := "teams-gcc-high"
  classification : Classification := .cui
  tlsRequired : Bool := true
  cipherSuite : String := "TLS_AES_256_GCM_SHA384"
  retentionDays : Bounded 1 36500 := ⟨365, by decide⟩
  externalFederation : Bool := false
deriving DecidableEq

def SecureChatParams.ofTags (tags : List (String × String)) :
    Except ParamError SecureChatParams := do
  let d : SecureChatParams := {}
  let retentionDays ← intTag tags "retention_days" d.retentionDays
  let classification ← classificationTag tags d.classification
  return { classification, retentionDays
           provider := strTag tags "provider" d.provider
           tlsRequired := boolTag tags "tls_required" d.tlsRequired
           cipherSuite := strTag tags "cipher_suite" d.cipherSuite
           externalFederation := boolTag tags "external_federation" d.externalFederation }

inductive Protocol where
  | oidc | saml
deriving DecidableEq

def Protocol.value : Protocol → String
  | .oidc => "oidc"
  | .saml => "saml"

inductive Aal where
  | aal1 | aal2 | aal3
deriving DecidableEq

def Aal.value : Aal → String
  | .aal1 => "aal1"
  | .aal2 => "aal2"
  | .aal3 => "aal3"

structure IdpBrokerParams where
  issuerUrl : NonEmpty
  protocol : Protocol := .oidc
  audience : String := ""
  requiredAal : Aal := .aal2
  requireMfa : Bool := true
  allowPivCac : Bool := true
  maxTokenMinutes : Bounded 1 1440 := ⟨60, by decide⟩
deriving DecidableEq

def IdpBrokerParams.ofTags (instanceId : String) (tags : List (String × String)) :
    Except ParamError IdpBrokerParams := do
  let issuerUrl ← nonEmptyTag tags "issuer_url" ("https://idp/" ++ instanceId)
  let d : IdpBrokerParams := { issuerUrl }
  let maxTokenMinutes ← intTag tags "max_token_minutes" d.maxTokenMinutes
  let protocol ← literalTag tags "protocol" Protocol.value [.oidc, .saml] d.protocol
  let requiredAal ← literalTag tags "required_aal" Aal.value [.aal1, .aal2, .aal3] d.requiredAal
  return { d with
    protocol, requiredAal, maxTokenMinutes
    audience := strTag tags "audience" d.audience
    requireMfa := boolTag tags "require_mfa" d.requireMfa
    allowPivCac := boolTag tags "allow_piv_cac" d.allowPivCac }

structure ScimBridgeParams where
  endpointUrl : NonEmpty
  syncIntervalMinutes : Bounded 1 1440 := ⟨15, by decide⟩
  deprovisionOnRemove : Bool := true
deriving DecidableEq

def ScimBridgeParams.ofTags (instanceId : String) (tags : List (String × String)) :
    Except ParamError ScimBridgeParams := do
  let endpointUrl ← nonEmptyTag tags "endpoint_url" ("https://scim/" ++ instanceId)
  let d : ScimBridgeParams := { endpointUrl }
  let syncIntervalMinutes ← intTag tags "sync_interval_minutes" d.syncIntervalMinutes
  return { d with
    syncIntervalMinutes
    deprovisionOnRemove := boolTag tags "deprovision_on_remove" d.deprovisionOnRemove }

end Sovereign.Packs
