import Sovereign.PackParams

/-! The renderers: from an instance to its configuration files and the steps that deploy
them. Serializers (YAML and JSON) and the schema check of the Envoy bootstrap are
parameters; what is written into the files is not. -/
namespace Sovereign.Renderers
open Sovereign Packs

abbrev Bytes := List UInt8

structure Codec where
  lax : Lax
  safeDump : Json → Bytes
  safeLoad : Bytes → Option Json
  jsonDumps : Json → Bytes
  jsonLoads : Bytes → Option Json
  validateBootstrap : Json → Bool
  yamlError : Bytes → String
  jsonError : Bytes → String
  schemaError : Json → String
  /-- what an exception says that a renderer does not handle -/
  exceptionText : ServiceInstance → String
  /-- Python's `repr` of a list of texts -/
  repr : List String → String

structure RenderSettings where
  configBucket : String := "sovereign-configs"
  assertedWorkloadIdentity : String := "spiffe://sovereign/control-plane"
  meshTrustDomain : String := "sovereign"
  meshSdsEnabled : Bool := false
  meshSdsSocketPath : String := "/run/spire/sockets/agent.sock"

/-- `validation` is the error the control plane answers with 422; every other exception
of a renderer is `raised`. -/
inductive RenderError where
  | validation
  | raised
deriving DecidableEq

structure RenderedArtifact where
  instanceId : String
  serviceType : String
  version : Int
  configFiles : List (String × Bytes)
  metadata : List (String × Json)
  deploymentManifest : List DeploymentStep
  version_pos : 1 ≤ version
deriving DecidableEq

structure TeardownResult where
  ok : Bool
  removed : List String := []
  failed : List String := []
  detail : String := ""
deriving DecidableEq

/-- The artifact of an instance; a version below one does not validate. -/
def artifact (inst : ServiceInstance) (serviceType : String)
    (configFiles : List (String × Bytes)) (metadata : List (String × Json))
    (deploymentManifest : List DeploymentStep) : Except RenderError RenderedArtifact :=
  if h : 1 ≤ inst.version then
    .ok { instanceId := inst.instanceId, serviceType, version := inst.version, configFiles
          metadata, deploymentManifest, version_pos := h }
  else .error .raised

def ofParams {α : Type} (params : Except ParamError α) : Except RenderError α :=
  params.mapError fun _ => .raised

def lowerBool (b : Bool) : Json := .str (if b then "true" else "false")

def int (n : Int) : Json := .num n

section Envoy
variable (s : RenderSettings)

def meshTlsDir : String := "/etc/sovereign/tls"
def sdsClusterName : String := "spiffe_sds"

def fileCommonTlsContext : Json :=
  .obj [("tls_certificates", .arr [.obj [
      ("certificate_chain", .obj [("filename", .str (meshTlsDir ++ "/tls.crt"))]),
      ("private_key", .obj [("filename", .str (meshTlsDir ++ "/tls.key"))])]]),
    ("validation_context", .obj [
      ("trusted_ca", .obj [("filename", .str (meshTlsDir ++ "/ca.crt"))])])]

def sdsConfig : Json :=
  .obj [("api_config_source", .obj [("api_type", .str "GRPC"),
    ("transport_api_version", .str "V3"),
    ("grpc_services", .arr [.obj [("envoy_grpc", .obj [("cluster_name", .str sdsClusterName)])]])])]

def sdsCommonTlsContext : Json :=
  .obj [("tls_certificate_sds_secret_configs",
      .arr [.obj [("name", .str s.assertedWorkloadIdentity), ("sds_config", sdsConfig)]]),
    ("validation_context_sds_secret_config",
      .obj [("name", .str ("spiffe://" ++ s.meshTrustDomain)), ("sds_config", sdsConfig)])]

def commonTlsContext : Json :=
  if s.meshSdsEnabled then sdsCommonTlsContext s else fileCommonTlsContext

def socketAddress (address : String) (port : Int) : Json :=
  .obj [("socket_address", .obj [("address", .str address), ("port_value", int port)])]

def loadAssignment (name : String) (addresses : List Json) : Json :=
  .obj [("cluster_name", .str name),
    ("endpoints", .arr [.obj [("lb_endpoints",
      .arr (addresses.map fun a => .obj [("endpoint", .obj [("address", a)])]))]])]

def sdsCluster : Json :=
  .obj [("name", .str sdsClusterName), ("type", .str "STATIC"), ("connect_timeout", .str "1s"),
    ("http2_protocol_options", .obj []),
    ("load_assignment", loadAssignment sdsClusterName
      [.obj [("pipe", .obj [("path", .str s.meshSdsSocketPath)])]])]

def tlsSocket (context : String) (requireClient : Bool) : Json :=
  .obj [("name", .str "envoy.transport_sockets.tls"),
    ("typed_config", .obj (
      [("@type", .str ("type.googleapis.com/envoy.extensions.transport_sockets.tls.v3." ++ context))] ++
      (if requireClient then [("require_client_certificate", .bool true)] else []) ++
      [("common_tls_context", commonTlsContext s)]))]

def downstreamTlsTransportSocket : Json := tlsSocket s "DownstreamTlsContext" true
def upstreamTlsTransportSocket : Json := tlsSocket s "UpstreamTlsContext" false

def xfccHcmFields : List (String × Json) :=
  [("forward_client_cert_details", .str "SANITIZE_SET"),
   ("set_current_client_cert_details", .obj [("uri", .bool true)])]

def listenerDoc (inst : ServiceInstance) (l : Listener) : Json :=
  let params := inst.parameters
  let domains := match Text.sortedSet (params.routes.map (·.host)) with
    | [] => ["*"]
    | hosts => hosts
  let routes := match params.routes with
    | [] => [Json.obj [("match", .obj [("prefix", .str "/")]),
        ("direct_response", .obj [("status", int 404)])]]
    | routes => routes.map fun r => Json.obj [("match", .obj [("prefix", .str r.pathPrefix)]),
        ("route", .obj [("cluster", .str r.cluster)])]
  let hcm : Json := .obj (
    [("@type", .str "type.googleapis.com/envoy.extensions.filters.network.http_connection_manager.v3.HttpConnectionManager"),
     ("stat_prefix", .str (inst.instanceId ++ "_" ++ l.name)),
     ("route_config", .obj [("name", .str (l.name ++ "_routes")),
       ("virtual_hosts", .arr [.obj [("name", .str "service_routes"),
         ("domains", .arr (domains.map .str)), ("routes", .arr routes)]])])] ++
    (if params.mtlsEnabled then xfccHcmFields else []) ++
    [("http_filters", .arr [.obj [("name", .str "envoy.filters.http.router"),
      ("typed_config", .obj [("@type", .str
        "type.googleapis.com/envoy.extensions.filters.http.router.v3.Router")])]])])
  let chain : Json := .obj (
    [("filters", .arr [.obj [("name", .str "envoy.filters.network.http_connection_manager"),
      ("typed_config", hcm)]])] ++
    (if params.mtlsEnabled then [("transport_socket", downstreamTlsTransportSocket s)] else []))
  .obj [("name", .str l.name), ("address", socketAddress "0.0.0.0" l.port),
    ("filter_chains", .arr [chain])]

/-- `ep.split(":")[0]` and `int(ep.split(":")[1])`; `none` where they raise. -/
def endpointAddress (ep : String) : Option Json :=
  match ep.toList.splitOnP (· == ':') with
  | host::port::_ =>
    (Text.pyInt (String.ofList port)).map fun n => socketAddress (String.ofList host) n
  | _ => none

def clusterDoc (mtlsEnabled : Bool) (c : Cluster) : Option Json :=
  (c.endpoints.mapM endpointAddress).map fun addresses => .obj (
    [("name", .str c.name), ("connect_timeout", .str "2s"), ("type", .str "STRICT_DNS"),
     ("load_assignment", loadAssignment c.name addresses)] ++
    (if mtlsEnabled then [("transport_socket", upstreamTlsTransportSocket s)] else []))

def buildDoc (inst : ServiceInstance) : Option Json :=
  let params := inst.parameters
  (params.clusters.mapM (clusterDoc s params.mtlsEnabled)).map fun clusters => .obj
    [("static_resources", .obj
      [("listeners", .arr (params.listeners.map (listenerDoc s inst))),
       ("clusters", .arr (clusters ++
         if params.mtlsEnabled && s.meshSdsEnabled then [sdsCluster s] else []))]),
     ("admin", .obj [("access_log_path", .str "/tmp/admin_access.log"),
       ("address", socketAddress "0.0.0.0" 9901)])]

def keyFor (instanceId : String) (version : Int) (filename : String) : String :=
  "instances/" ++ instanceId ++ "/v" ++ toString version ++ "/" ++ filename

def renderEnvoy (k : Codec) (inst : ServiceInstance) : Except RenderError RenderedArtifact :=
  match buildDoc s inst with
  | none => .error .raised
  | some doc =>
    if k.validateBootstrap doc then
      artifact inst "sovereign-envoy-lb" [("envoy.yaml", k.safeDump doc)]
        [("listener_count", int inst.parameters.listeners.length),
         ("cluster_count", int inst.parameters.clusters.length),
         ("route_count", int inst.parameters.routes.length)]
        [{ kind := "s3-put", target := keyFor inst.instanceId inst.version "envoy.yaml"
           payload := [("bucket", .str s.configBucket),
             ("content_type", .str "application/x-yaml")] },
         { kind := "envoy-snapshot", target := inst.instanceId
           payload := [("version", int inst.version)] }]
    else .error .validation

end Envoy

def podSecurity : Json :=
  .obj [("runAsNonRoot", .bool true), ("seccompProfile", .obj [("type", .str "RuntimeDefault")])]

def containerSecurity : Json :=
  .obj [("allowPrivilegeEscalation", .bool false), ("readOnlyRootFilesystem", .bool true),
    ("capabilities", .obj [("drop", .arr [.str "ALL"])])]

def labels (name pack : String) (c : Classification) : Json :=
  .obj [("app", .str name), ("sovereign.pack", .str pack),
    ("sovereign.classification", .str c.value)]

def selector (name : String) : Json := .obj [("matchLabels", .obj [("app", .str name)])]

def podTemplate (name : String) (containers : List Json) : Json :=
  .obj [("metadata", .obj [("labels", .obj [("app", .str name)])]),
    ("spec", .obj [("securityContext", podSecurity), ("containers", .arr containers)])]

def configMap (name namespace_ : String) (values : List (String × Json)) : Json :=
  .obj [("apiVersion", .str "v1"), ("kind", .str "ConfigMap"),
    ("metadata", .obj [("name", .str name), ("namespace", .str namespace_)]),
    ("data", .obj values)]

def k8sDeployment (p : InferenceEndpointParams) (name : String) : Json :=
  .obj [("apiVersion", .str "apps/v1"), ("kind", .str "Deployment"),
    ("metadata", .obj [("name", .str name), ("namespace", .str p.namespace_),
      ("labels", labels name "ai" p.classification)]),
    ("spec", .obj [("replicas", int p.replicas.1), ("selector", selector name),
      ("template", podTemplate name [.obj [("name", .str "model-server"),
        ("image", .str ("sovereign/" ++ p.engine.value ++ ":latest")),
        ("args", .arr [.str ("--model=" ++ p.modelId.1),
          .str ("--max-model-len=" ++ toString p.maxContextTokens.1)]),
        ("ports", .arr [.obj [("containerPort", int 8000)]]),
        ("resources", .obj [
          ("requests", .obj [("cpu", .str "1"), ("memory", .str "4Gi")]),
          ("limits", .obj ([("cpu", .str "4"), ("memory", .str "16Gi")] ++
            if isGpu p.accelerator then [("nvidia.com/gpu", .str "1")] else []))]),
        ("securityContext", containerSecurity)]])])]

def ragConfigMap (p : RagWorkspaceParams) (name : String) : Json :=
  configMap (name ++ "-rag") p.namespace_
    [("vector_store", .str p.vectorStore.value), ("embedding_model", .str p.embeddingModel),
     ("encryption_at_rest", lowerBool p.encryptionAtRest)]

def ledgerStatefulSet (p : PermissionedLedgerParams) (name : String) : Json :=
  .obj [("apiVersion", .str "apps/v1"), ("kind", .str "StatefulSet"),
    ("metadata", .obj [("name", .str name), ("namespace", .str p.namespace_),
      ("labels", labels name "blockchain" p.classification),
      ("annotations", .obj [("sovereign.ac3/permissioned", lowerBool p.permissioned),
        ("sovereign.sc12/hsm-custody", lowerBool p.hsmKeyCustody),
        ("sovereign.ledger/consensus", .str p.consensus.value)])]),
    ("spec", .obj [("serviceName", .str name), ("replicas", int p.validatorCount.1),
      ("selector", selector name),
      ("template", podTemplate name [.obj [("name", .str "ledger-node"),
        ("image", .str ("sovereign/" ++ p.platform.value ++ ":latest")),
        ("securityContext", containerSecurity)]])])]

def siemStatefulSet (p : SiemWorkspaceParams) (name : String) : Json :=
  .obj [("apiVersion", .str "apps/v1"), ("kind", .str "StatefulSet"),
    ("metadata", .obj [("name", .str name), ("namespace", .str p.namespace_),
      ("labels", labels name "secops" p.classification),
      ("annotations", .obj [("sovereign.au11/retention-days", .str (toString p.retentionDays.1)),
        ("sovereign.au9/immutable", lowerBool p.immutableStorage)])]),
    ("spec", .obj [("serviceName", .str name), ("replicas", int p.hotNodes.1),
      ("selector", selector name),
      ("template", podTemplate name [.obj [("name", .str "siem"),
        ("image", .str ("sovereign/" ++ p.backend.value ++ ":latest")),
        ("ports", .arr [.obj [("containerPort", int 9200)]]),
        ("securityContext", containerSecurity)]])])]

def pipelineConfigMap (p : LogPipelineParams) (name : String) : Json :=
  configMap (name ++ "-pipeline") p.namespace_
    [("sources", .str (String.intercalate "," p.sources)),
     ("sinks", .str (String.intercalate "," p.sinks)),
     ("sign_records", lowerBool p.signRecords)]

def edgeAgent : Json :=
  .obj [("name", .str "edge-agent"), ("image", .str "sovereign/edge-agent:fips"),
    ("securityContext", containerSecurity)]

def edgePod (p : EdgeNodeParams) (name : String) : Json :=
  .obj [("apiVersion", .str "v1"), ("kind", .str "Pod"),
    ("metadata", .obj [("name", .str name), ("namespace", .str p.namespace_),
      ("labels", labels name "edge" p.classification),
      ("annotations", .obj [("sovereign.si7/fips-image", lowerBool p.fipsImage),
        ("sovereign.si7-9/attestation", lowerBool p.attestationRequired)])]),
    ("spec", .obj [("securityContext", podSecurity), ("containers", .arr [edgeAgent])])]

def edgeDaemonSet (p : EdgeClusterParams) (name : String) : Json :=
  .obj [("apiVersion", .str "apps/v1"), ("kind", .str "DaemonSet"),
    ("metadata", .obj [("name", .str name), ("namespace", .str p.namespace_),
      ("labels", labels name "edge" p.classification),
      ("annotations", .obj [("sovereign.si7/fips-image", lowerBool p.fipsImage),
        ("sovereign.edge/offline-mode", lowerBool p.offlineMode),
        ("sovereign.edge/node-count", .str (toString p.nodeCount.1))])]),
    ("spec", .obj [("selector", selector name), ("template", podTemplate name [edgeAgent])])]

def tfResource (type name : String) (body : List (String × Json)) : Json :=
  .obj [("resource", .obj [(type, .obj [(name, .obj body)])])]

def tfDatabase (p : ManagedDatabaseParams) (name : String) : Json :=
  tfResource "aws_db_instance" name
    [("identifier", .str name), ("engine", .str p.engine.value),
     ("engine_version", .str p.version), ("allocated_storage", int p.storageGb.1),
     ("instance_class", .str p.instanceClass), ("multi_az", .bool p.multiAz),
     ("storage_encrypted", .bool p.encryptionAtRest),
     ("backup_retention_period", int p.backupRetentionDays.1),
     ("deletion_protection", .bool p.deletionProtection), ("region", .str p.region),
     ("tags", .obj [("sovereign.pack", .str "data"),
       ("sovereign.classification", .str p.classification.value)])]

def tfVectorStore (p : VectorDbParams) (name : String) : Json :=
  tfResource "sovereign_vector_store" name
    [("store", .str p.store.value), ("allocated_storage", int p.storageGb.1),
     ("storage_encrypted", .bool p.encryptionAtRest), ("region", .str p.region)]

def tfCloudAccount (p : CloudAccountParams) (name : String) : Json :=
  tfResource "sovereign_cloud_account" name
    [("provider", .str p.provider.value), ("region", .str p.region),
     ("guardrails_enabled", .bool p.guardrailsEnabled),
     ("org_audit_enabled", .bool p.orgAuditEnabled),
     ("tags", .obj [("sovereign.pack", .str "multicloud"),
       ("sovereign.classification", .str p.classification.value)])]

def tfLandingZone (p : LandingZoneParams) (name : String) : Json :=
  tfResource "sovereign_landing_zone" name
    [("provider", .str p.provider.value), ("region", .str p.region),
     ("account_count", int p.accountCount.1), ("network_boundary", .bool p.networkBoundary)]

section Shapes
variable (k : Codec) (inst : ServiceInstance) (serviceType : String)

def artifactPath (inst : ServiceInstance) : String := "/artifacts/" ++ inst.instanceId

def k8sArtifact (filename namespace_ : String) (doc : Json) (metadata : List (String × Json)) :
    Except RenderError RenderedArtifact :=
  artifact inst serviceType [(filename, k.safeDump doc)] metadata
    [{ kind := "k8s-apply", target := namespace_
       payload := [("manifest_path", .str (artifactPath inst ++ "/" ++ filename))] }]

def tfArtifact (doc : Json) (metadata : List (String × Json)) :
    Except RenderError RenderedArtifact :=
  artifact inst serviceType [("main.tf.json", k.jsonDumps doc)] metadata
    [{ kind := "terraform-apply", target := inst.instanceId
       payload := [("module_dir", .str (artifactPath inst))] }]

def configArtifact (filename : String) (doc : Json) (metadata : List (String × Json)) :
    Except RenderError RenderedArtifact :=
  artifact inst serviceType [(filename, k.jsonDumps doc)] metadata []

end Shapes

inductive ServiceType where
  | envoy
  | inferenceEndpoint | ragWorkspace
  | managedDatabase | vectorDb
  | permissionedLedger
  | siemWorkspace | logPipeline
  | edgeNode | edgeCluster
  | cloudAccount | landingZone
  | secureEmail | secureChat
  | idpBroker | scimBridge
deriving DecidableEq

namespace ServiceType

def value : ServiceType → String
  | .envoy => "sovereign-envoy-lb"
  | .inferenceEndpoint => "inference-endpoint"
  | .ragWorkspace => "rag-workspace"
  | .managedDatabase => "managed-database"
  | .vectorDb => "vector-db"
  | .permissionedLedger => "permissioned-ledger"
  | .siemWorkspace => "siem-workspace"
  | .logPipeline => "log-pipeline"
  | .edgeNode => "edge-node"
  | .edgeCluster => "edge-cluster"
  | .cloudAccount => "cloud-account"
  | .landingZone => "landing-zone"
  | .secureEmail => "secure-email"
  | .secureChat => "secure-chat"
  | .idpBroker => "idp-broker"
  | .scimBridge => "scim-bridge"

def all : List ServiceType :=
  [.envoy, .inferenceEndpoint, .ragWorkspace, .managedDatabase, .vectorDb, .permissionedLedger,
   .siemWorkspace, .logPipeline, .edgeNode, .edgeCluster, .cloudAccount, .landingZone,
   .secureEmail, .secureChat, .idpBroker, .scimBridge]

def get (serviceId : String) : Option ServiceType :=
  all.find? fun t => decide (t.value=serviceId)

def filename : ServiceType → String
  | .envoy => "envoy.yaml"
  | .inferenceEndpoint => "deployment.yaml"
  | .ragWorkspace => "rag.yaml"
  | .managedDatabase => "main.tf.json"
  | .vectorDb => "main.tf.json"
  | .permissionedLedger => "ledger.yaml"
  | .siemWorkspace => "siem.yaml"
  | .logPipeline => "pipeline.yaml"
  | .edgeNode => "node.yaml"
  | .edgeCluster => "cluster.yaml"
  | .cloudAccount => "main.tf.json"
  | .landingZone => "main.tf.json"
  | .secureEmail => "email.json"
  | .secureChat => "chat.json"
  | .idpBroker => "idp.json"
  | .scimBridge => "scim.json"

section Render
variable (k : Codec) (s : RenderSettings)

def render (t : ServiceType) (inst : ServiceInstance) : Except RenderError RenderedArtifact :=
  let name := inst.instanceId
  let tags := inst.parameters.tags
  match t with
  | .envoy => renderEnvoy s k inst
  | .inferenceEndpoint => do
    let p ← ofParams (InferenceEndpointParams.ofTags k.lax name tags)
    k8sArtifact k inst t.value t.filename p.namespace_ (k8sDeployment p name)
      [("model_id", .str p.modelId.1), ("accelerator", .str p.accelerator.value),
       ("replicas", int p.replicas.1), ("classification", .str p.classification.value),
       ("gpu", .bool (isGpu p.accelerator))]
  | .ragWorkspace => do
    let p ← ofParams (RagWorkspaceParams.ofTags k.lax name tags)
    k8sArtifact k inst t.value t.filename p.namespace_ (ragConfigMap p name)
      [("vector_store", .str p.vectorStore.value), ("classification", .str p.classification.value)]
  | .managedDatabase => do
    let p ← ofParams (ManagedDatabaseParams.ofTags tags)
    tfArtifact k inst t.value (tfDatabase p name)
      [("engine", .str p.engine.value), ("classification", .str p.classification.value),
       ("encryption_at_rest", .bool p.encryptionAtRest)]
  | .vectorDb => do
    let p ← ofParams (VectorDbParams.ofTags tags)
    tfArtifact k inst t.value (tfVectorStore p name)
      [("store", .str p.store.value), ("classification", .str p.classification.value)]
  | .permissionedLedger => do
    let p ← ofParams (PermissionedLedgerParams.ofTags tags)
    k8sArtifact k inst t.value t.filename p.namespace_ (ledgerStatefulSet p name)
      [("platform", .str p.platform.value), ("consensus", .str p.consensus.value),
       ("validator_count", int p.validatorCount.1),
       ("classification", .str p.classification.value)]
  | .siemWorkspace => do
    let p ← ofParams (SiemWorkspaceParams.ofTags tags)
    k8sArtifact k inst t.value t.filename p.namespace_ (siemStatefulSet p name)
      [("backend", .str p.backend.value), ("retention_days", int p.retentionDays.1),
       ("immutable", .bool p.immutableStorage), ("classification", .str p.classification.value)]
  | .logPipeline => do
    let p ← ofParams (LogPipelineParams.ofTags name tags)
    k8sArtifact k inst t.value t.filename p.namespace_ (pipelineConfigMap p name)
      [("sources", .arr (p.sources.map .str)), ("classification", .str p.classification.value)]
  | .edgeNode => do
    let p ← ofParams (EdgeNodeParams.ofTags tags)
    k8sArtifact k inst t.value t.filename p.namespace_ (edgePod p name)
      [("fips_image", .bool p.fipsImage), ("classification", .str p.classification.value)]
  | .edgeCluster => do
    let p ← ofParams (EdgeClusterParams.ofTags tags)
    k8sArtifact k inst t.value t.filename p.namespace_ (edgeDaemonSet p name)
      [("node_count", int p.nodeCount.1), ("offline_mode", .bool p.offlineMode)]
  | .cloudAccount => do
    let p ← ofParams (CloudAccountParams.ofTags tags)
    tfArtifact k inst t.value (tfCloudAccount p name)
      [("provider", .str p.provider.value), ("region", .str p.region),
       ("classification", .str p.classification.value)]
  | .landingZone => do
    let p ← ofParams (LandingZoneParams.ofTags tags)
    tfArtifact k inst t.value (tfLandingZone p name)
      [("provider", .str p.provider.value), ("account_count", int p.accountCount.1)]
  | .secureEmail => do
    let p ← ofParams (SecureEmailParams.ofTags tags)
    configArtifact k inst t.value t.filename
      (.obj [("provider", .str p.provider), ("classification", .str p.classification.value),
        ("tls_required", .bool p.tlsRequired), ("cipher_suite", .str p.cipherSuite),
        ("retention_days", int p.retentionDays.1), ("dlp_enabled", .bool p.dlpEnabled)])
      [("provider", .str p.provider), ("classification", .str p.classification.value)]
  | .secureChat => do
    let p ← ofParams (SecureChatParams.ofTags tags)
    configArtifact k inst t.value t.filename
      (.obj [("provider", .str p.provider), ("classification", .str p.classification.value),
        ("tls_required", .bool p.tlsRequired), ("cipher_suite", .str p.cipherSuite),
        ("retention_days", int p.retentionDays.1),
        ("external_federation", .bool p.externalFederation)])
      [("provider", .str p.provider), ("classification", .str p.classification.value)]
  | .idpBroker => do
    let p ← ofParams (IdpBrokerParams.ofTags name tags)
    configArtifact k inst t.value t.filename
      (.obj [("issuer_url", .str p.issuerUrl.1), ("protocol", .str p.protocol.value),
        ("required_aal", .str p.requiredAal.value), ("require_mfa", .bool p.requireMfa),
        ("allow_piv_cac", .bool p.allowPivCac), ("max_token_minutes", int p.maxTokenMinutes.1)])
      [("protocol", .str p.protocol.value), ("required_aal", .str p.requiredAal.value)]
  | .scimBridge => do
    let p ← ofParams (ScimBridgeParams.ofTags name tags)
    configArtifact k inst t.value t.filename
      (.obj [("endpoint_url", .str p.endpointUrl.1),
        ("sync_interval_minutes", int p.syncIntervalMinutes.1),
        ("deprovision_on_remove", .bool p.deprovisionOnRemove)])
      [("sync_interval_minutes", int p.syncIntervalMinutes.1)]

/-- What `validate` demands of the file: a valid bootstrap, a kind, that it parses, or a resource
block. -/
inductive Check where
  | bootstrap
  | yaml (kind : Option String)
  | json
  | resource (missing : String)

def check : ServiceType → Check
  | .envoy => .bootstrap
  | .inferenceEndpoint => .yaml (some "Deployment")
  | .ragWorkspace => .yaml none
  | .managedDatabase => .resource "terraform config has no resource block"
  | .vectorDb => .json
  | .permissionedLedger => .yaml (some "StatefulSet")
  | .siemWorkspace => .yaml (some "StatefulSet")
  | .logPipeline => .yaml none
  | .edgeNode => .yaml (some "Pod")
  | .edgeCluster => .yaml (some "DaemonSet")
  | .cloudAccount => .resource "no resource block"
  | .landingZone => .json
  | .secureEmail => .json
  | .secureChat => .json
  | .idpBroker => .json
  | .scimBridge => .json

def missingFile (t : ServiceType) : String :=
  "missing " ++ t.filename ++ if t=.envoy then " in artifact" else ""

/-- The errors of the `ValidationResult`, which is ok when there is none. -/
def validate (t : ServiceType) (a : RenderedArtifact) : List String :=
  match a.configFiles.lookup t.filename with
  | none => [t.missingFile]
  | some body =>
    match t.check with
    | .bootstrap =>
      match k.safeLoad body with
      | none => [k.yamlError body]
      | some doc => if k.validateBootstrap doc then [] else [k.schemaError doc]
    | .yaml kind =>
      match k.safeLoad body with
      | none => [k.yamlError body]
      | some doc => kind.toList.flatMap fun kind =>
          if Json.get? "kind" doc=some (.str kind) then [] else ["artifact is not a " ++ kind]
    | .json => if (k.jsonLoads body).isSome then [] else [k.jsonError body]
    | .resource missing =>
      match k.jsonLoads body with
      | none => [k.jsonError body]
      | some doc => if (Json.get? "resource" doc).isSome then [] else [missing]

end Render
end ServiceType
end Sovereign.Renderers
