import Sovereign.Json

/-! The persisted records and the request bodies. The schema version of a record and its time
stamps but the first are written and never read by the modelled code; they are left out. Field
bounds that a request must meet are fields of the record types. -/
namespace Sovereign

inductive InstanceStatus where
  | provisioning | succeeded | failed | deprovisioning
deriving DecidableEq, Repr

def InstanceStatus.value : InstanceStatus → String
  | .provisioning => "provisioning"
  | .succeeded => "succeeded"
  | .failed => "failed"
  | .deprovisioning => "deprovisioning"

inductive DriftStatus where
  | unknown | inSync | drifted | reconciling
deriving DecidableEq, Repr

def DriftStatus.value : DriftStatus → String
  | .unknown => "unknown"
  | .inSync => "in_sync"
  | .drifted => "drifted"
  | .reconciling => "reconciling"

inductive OperationState where
  | inProgress | succeeded | failed
deriving DecidableEq, Repr

def OperationState.value : OperationState → String
  | .inProgress => "in progress"
  | .succeeded => "succeeded"
  | .failed => "failed"

structure Listener where
  name : String
  port : Nat
  protocol : String := "HTTP"
  port_pos : 1 ≤ port := by decide
  port_le : port≤65535 := by decide
deriving DecidableEq

structure Route where
  host : String
  pathPrefix : String := "/"
  cluster : String
deriving DecidableEq

structure Cluster where
  name : String
  endpoints : List String
  endpoints_ne : endpoints≠[] := by simp
deriving DecidableEq

def defaultListener : Listener := { name := "http", port := 8080 }

theorem nodup_noTags : (([] : List (String × String)).map Prod.fst).Nodup := List.nodup_nil

/-- `tags` is a Python dict: at most one value for a key, in insertion order. -/
structure LbParameters where
  region : String := "us-east-1"
  listeners : List Listener := [defaultListener]
  routes : List Route := []
  clusters : List Cluster := []
  mtlsEnabled : Bool := false
  sidecarMode : Bool := false
  tags : List (String × String) := []
  tags_nodup : (tags.map Prod.fst).Nodup := by first | exact nodup_noTags | decide
deriving DecidableEq

structure DeploymentStep where
  kind : String
  target : String := ""
  payload : List (String × Json) := []
deriving DecidableEq

structure ServiceInstance where
  instanceId : String
  serviceId : String
  planId : String
  organizationGuid : Option String := none
  spaceGuid : Option String := none
  parameters : LbParameters := {}
  status : InstanceStatus := .provisioning
  version : Int := 1
  appliedVersion : Option Int := none
  operationId : Option String := none
  operationType : Option String := none
  operationState : Option OperationState := none
  operationReason : String := ""
  failedStepKind : Option String := none
  applyOutputs : List (String × Json) := []
  driftStatus : DriftStatus := .unknown
  reconcileAttempts : Nat := 0
  createdAt : String := ""
deriving DecidableEq

structure Binding where
  bindingId : String
  instanceId : String
  appGuid : Option String := none
  credentials : List (String × String)
deriving DecidableEq

structure ProvisionRequest where
  serviceId : String
  planId : String
  organizationGuid : Option String := none
  spaceGuid : Option String := none
  parameters : LbParameters := {}

structure UpdateRequest where
  planId : Option String := none
  parameters : Option LbParameters := none

structure BindRequest where
  appGuid : Option String := none

structure PolicyDecision where
  allow : Bool
  reason : String := ""
  obligations : List String := []
  denies : List String := []
  matchedLayers : List String := []
deriving DecidableEq

def Listener.toJson (l : Listener) : Json :=
  .obj [("name", .str l.name), ("port", .num l.port), ("protocol", .str l.protocol)]

def Route.toJson (r : Route) : Json :=
  .obj [("host", .str r.host), ("prefix", .str r.pathPrefix), ("cluster", .str r.cluster)]

def Cluster.toJson (c : Cluster) : Json :=
  .obj [("name", .str c.name), ("endpoints", .arr (c.endpoints.map .str))]

/-- `LbParameters.model_dump(mode="json")`: exactly the declared fields. -/
def LbParameters.modelDump (p : LbParameters) : List (String × Json) :=
  [("region", .str p.region),
   ("listeners", .arr (p.listeners.map Listener.toJson)),
   ("routes", .arr (p.routes.map Route.toJson)),
   ("clusters", .arr (p.clusters.map Cluster.toJson)),
   ("mtls_enabled", .bool p.mtlsEnabled),
   ("sidecar_mode", .bool p.sidecarMode),
   ("tags", .obj (p.tags.map fun (k,v) => (k, .str v)))]

/-- The dump carries no name beyond the declared fields. -/
theorem LbParameters.modelDump_undeclared (p : LbParameters) (name : String)
    (h : name∉["region", "listeners", "routes", "clusters", "mtls_enabled", "sidecar_mode",
      "tags"]) : Json.lookup name p.modelDump=none := by
  apply Json.lookup_eq_none
  intro m hm he
  apply h
  subst he
  simp only [modelDump, List.mem_cons, List.not_mem_nil, or_false] at hm
  obtain rfl|rfl|rfl|rfl|rfl|rfl|rfl := hm <;> simp

def ServiceInstance.ofRequest (instanceId : String) (req : ProvisionRequest) (now : String) :
    ServiceInstance :=
  { instanceId, serviceId := req.serviceId, planId := req.planId
    organizationGuid := req.organizationGuid, spaceGuid := req.spaceGuid
    parameters := req.parameters, createdAt := now }

end Sovereign
