import Sovereign.Store
import Sovereign.Policy
import Sovereign.Quota
import Sovereign.Renderers
import Sovereign.Trace

/-! The broker's handlers. A handler runs without interruption from its start, or from
the answer to a call it awaits, to the next call it awaits or to its reply. Each such
segment reads the shared tables first and then issues its writes, so it is a function
from the tables to a list of writes. What a handler carries across an await, the copies
of records it will write back above all, is its `Task`. -/
namespace Sovereign.Broker
open Sovereign Policy Renderers

abbrev Artifact := List (String × Json)

structure Faults extends StoreFaults where
  put : Bool := false
  delete : Bool := false
  /-- a read of `_check_quota` raises -/
  quota : Bool := false
  /-- the read of the catalog in `_emit_usage` raises -/
  catalog : Bool := false
  metering : Bool := false
  /-- the post of the record to the audit service fails -/
  audit : AuditRecord → Bool := fun _ => false

/-- What a segment runs under; it may differ from one segment to the next. -/
structure Env where
  settings : Settings := {}
  decode : String → Except HttpError Claims
  directory : Directory := {}
  quotas : List Quotas.Quota := []
  host : Quotas.Host String := {}
  packOf : String → Option String := fun _ => none
  policy : Json → PolicyDecision
  handlers : String → Option HandlerOutcome := obligationHandlers
  faults : Faults := {}
  /-- the rows in the answer to a scan, which ends after 1 MB -/
  fits : Nat := 1000
  /-- the text of an artifact in an audit record -/
  repr : Artifact → String := fun _ => ""
  /-- the text of the current time -/
  now : String := ""

abbrev UsageRecord := Usage String

structure Tables where
  rows : List Row := []
  bindings : List Binding := []
  usage : List UsageRecord := []
  /-- what the broker has emitted -/
  audits : List AuditRecord := []

inductive ReconcileResult where
  | skipped (instanceId state driftStatus : String)
  | failed (instanceId state : String) (operationId : Option String) (reason : String)
      (failedStepKind : Option String)
  | reconciled (instanceId state : String) (operationId : Option String)
      (appliedVersion : Option Int) (artifact : Artifact)

inductive Reply where
  | alreadyExists
  | provisioning
  | provisioned (config : Artifact)
  | updated (config : Artifact)
  | deprovisioned
  | bound (credentials : List (String × String))
  | unbound
  | reconciled (checked : Nat) (results : List ReconcileResult)

/-- Why an awaited render fails: the control plane could not be asked or refused, or its
answer could not be read. -/
inductive RenderFault where
  | http (text : String)
  | other (text : String)

/-- A pass over a list of records: what remains, whether drift is refreshed first, and
whether a request waits for the results. -/
structure Pass where
  checked : Nat
  refreshDrift : Bool
  manual : Bool
  rest : List ServiceInstance
  results : List ReconcileResult

/-- A handler at an await, with what it carries across. -/
inductive Task where
  | provision (inst : ServiceInstance) (caller : Caller) (tenantId : String) (background : Bool)
  | update (inst : ServiceInstance) (caller : Caller) (tenantId : String)
  | teardown (instanceId : String) (inst : ServiceInstance) (caller : Caller)
      (tenantId : String)
  | diff (inst : ServiceInstance) (pass : Pass)
  | reconcile (inst : ServiceInstance) (pass : Pass)

def Task.copies : Task → List ServiceInstance
  | .provision inst _ _ _ => [inst]
  | .update inst _ _ => [inst]
  | .teardown _ _ _ _ => []
  | .diff inst pass => inst::pass.rest
  | .reconcile inst pass => inst::pass.rest

/-- How an awaited call ends; a diff raises where its answer is no JSON or no object. -/
inductive Outcome where
  | rendered (result : Except RenderFault Artifact)
  | diffed (result : Option Artifact)
  | diffRaised
  | tornDown (result : Except String TeardownResult)

inductive Write where
  | put (inst : ServiceInstance)
  | delete (instanceId : String)
  | putBinding (binding : Binding)
  | deleteBinding (bindingId : String)
  | meter (record : UsageRecord)
  | audit (record : AuditRecord)

/-- What a segment does: its writes in order, its reply if it ends a request, and the
task that is left when it ends at an await. -/
structure Segment where
  writes : List Write := []
  reply : Option (Except HttpError Reply) := none
  task : Option Task := none

def dropBinding (bindingId : String) (bindings : List Binding) : List Binding :=
  bindings.filter fun b => decide (b.bindingId≠bindingId)

def Write.apply (hash : String → Nat) (t : Tables) : Write → Tables
  | .put inst => { t with rows := Store.putInstance hash inst t.rows }
  | .delete instanceId => { t with rows := Store.deleteInstance instanceId t.rows }
  | .putBinding b => { t with bindings := b::dropBinding b.bindingId t.bindings }
  | .deleteBinding bindingId => { t with bindings := dropBinding bindingId t.bindings }
  | .meter record => { t with usage := record::t.usage }
  | .audit record => { t with audits := t.audits++[record] }

def failure (writes : List Write) (e : HttpError) : Segment :=
  { writes, reply := some (.error e) }

def internalError : HttpError := ⟨500, .str "internal server error"⟩

def operationId (inst : ServiceInstance) (operationType : String) : String :=
  inst.instanceId ++ ":v" ++ toString inst.version ++ ":" ++ operationType

def beginOperation (inst : ServiceInstance) (operationType : String) : ServiceInstance :=
  { inst with
    operationId := some (operationId inst operationType)
    operationType := some operationType
    operationState := some .inProgress
    operationReason := ""
    failedStepKind := none
    driftStatus := .reconciling }

/-- The version a render reports; `none` where `int()` raises on a string. -/
def appliedVersion (inst : ServiceInstance) (artifact : Artifact) : Option Int :=
  match Json.lookup "version" artifact with
  | none => some inst.version
  | some (.num n) => if n.den=1 then some n.num else some inst.version
  | some (.bool b) => some (if b then 1 else 0)
  | some (.str s) => Text.pyInt s
  | some _ => some inst.version

def markOperationSucceeded (inst : ServiceInstance) (artifact : Artifact) :
    Option ServiceInstance :=
  (appliedVersion inst artifact).map fun version =>
    { inst with
      appliedVersion := some version
      operationState := some .succeeded
      operationReason := ""
      failedStepKind := none
      driftStatus := .inSync
      applyOutputs :=
        [("bucket", (Json.lookup "bucket" artifact).getD (.str "")),
         ("key", (Json.lookup "key" artifact).getD (.str "")),
         ("service_type", (Json.lookup "service_type" artifact).getD (.str inst.serviceId)),
         ("manifest", (Json.lookup "manifest" artifact).getD (.arr []))] }

def failureDetail : RenderFault → String × Option String
  | .http text => ("control plane unavailable: " ++ text, none)
  | .other text => (text, none)

def RenderFault.str : RenderFault → String
  | .http text => "503: control plane unavailable: " ++ text
  | .other text => text

def markOperationFailed (inst : ServiceInstance) (fault : RenderFault) : ServiceInstance :=
  { inst with
    operationState := some .failed
    operationReason := (failureDetail fault).1
    failedStepKind := (failureDetail fault).2
    driftStatus := .drifted }

def renderError : RenderFault → HttpError
  | .http text => ⟨503, .str ("control plane unavailable: " ++ text)⟩
  | .other _ => internalError

def needsReconcile (inst : ServiceInstance) : Bool :=
  decide (inst.status=.provisioning ∨ inst.status=.failed) ||
  decide (inst.driftStatus=.drifted ∨ inst.driftStatus=.reconciling) ||
  decide (inst.appliedVersion≠some inst.version)

def optString : Option String → Json
  | none => .null
  | some s => .str s

def optInt : Option Int → Json
  | none => .null
  | some n => .num n

section Handlers
variable (env : Env)

def putOr (inst : ServiceInstance) : List Write :=
  if env.faults.put then [] else [.put inst]

def provisionGates (caller : Caller) (tenantId instanceId : String) (req : ProvisionRequest)
    (usage : List UsageRecord) : Gate :=
  ((enforceRbac env.settings env.directory caller tenantId .provision).andThen
    (if env.faults.quota then { raised := some internalError }
      else Quotas.checkQuota env.host env.quotas usage tenantId caller req.serviceId
        (env.packOf req.serviceId))).andThen
    (evaluatePolicy env.policy env.handlers caller (tenantById env.directory.tenants tenantId)
      instanceId req.serviceId req.planId req.parameters.modelDump tenantId
      Action.provision.value)

def provision (caller : Caller) (instanceId : String) (req : ProvisionRequest)
    (acceptsIncomplete : Bool) (t : Tables) : Segment :=
  match Store.getInstance env.faults.toStoreFaults t.rows instanceId with
  | .error e => failure [] e
  | .ok (some _) => { reply := some (.ok .alreadyExists) }
  | .ok none =>
    let tenantId := resolveTenantId caller req.organizationGuid
    let gate := provisionGates env caller tenantId instanceId req t.usage
    let audits := gate.audits.map Write.audit
    match gate.raised with
    | some e => failure audits e
    | none =>
      let inst := beginOperation (ServiceInstance.ofRequest instanceId req env.now) "provision"
      if env.faults.put then failure audits ⟨503, .str "state store unavailable"⟩
      else
        { writes := audits++[.put inst]
          reply := if acceptsIncomplete then some (.ok .provisioning) else none
          task := some (.provision inst caller tenantId acceptsIncomplete) }

structure Finalized where
  writes : List Write
  inst : ServiceInstance
  result : Except HttpError Artifact

def usageRecord (inst : ServiceInstance) (tenantId : String) : UsageRecord :=
  { ts := env.now, tenantId, resourceId := inst.instanceId, resourceType := "instance"
    quantity := 1, unit := "instance"
    metadata := [("service_type", .str inst.serviceId), ("plan_id", .str inst.planId),
      ("pack", optString (env.packOf inst.serviceId)), ("emitted_by", .str "broker")] }

def finalizeProvision (inst : ServiceInstance) (caller : Caller) (tenantId : String)
    (recordUsage : Bool) (auditAction : String) (result : Except RenderFault Artifact) :
    Finalized :=
  match result with
  | .error fault =>
    let inst := markOperationFailed { inst with status := .failed } fault
    { inst
      writes := putOr env inst ++ [.audit
        { action := "instance.provision_failed", resource := inst.instanceId
          details := fault.str, actor := caller.user.principal, tenantId
          decision := "deny"
          metadata := [("service_id", .str inst.serviceId), ("plan_id", .str inst.planId),
            ("operation_id", optString inst.operationId),
            ("reason", .str inst.operationReason),
            ("failed_step_kind", optString inst.failedStepKind)] }]
      result := .error (renderError fault) }
  | .ok artifact =>
    let inst := { inst with status := .succeeded }
    match markOperationSucceeded inst artifact with
    | none => { writes := [], inst, result := .error internalError }
    | some inst =>
      if env.faults.put then
        { writes := [], inst
          result := .error ⟨503, .str "state store unavailable after render"⟩ }
      else if recordUsage && env.faults.catalog then
        { writes := [.put inst], inst, result := .error internalError }
      else
        { inst
          writes := [.put inst] ++
            (if recordUsage && !env.faults.metering then [.meter (usageRecord env inst tenantId)]
              else []) ++
            [.audit { action := auditAction, resource := inst.instanceId
                      details := env.repr artifact, actor := caller.user.principal, tenantId
                      metadata := [("service_id", .str inst.serviceId),
                        ("plan_id", .str inst.planId),
                        ("operation_id", optString inst.operationId),
                        ("applied_version", optInt inst.appliedVersion)] }]
          result := .ok artifact }

/-- A provision after its render; in the background the result is dropped. -/
def provisionRendered (inst : ServiceInstance) (caller : Caller) (tenantId : String)
    (background : Bool) (result : Except RenderFault Artifact) : Segment :=
  let done := finalizeProvision env inst caller tenantId true "instance.provisioned" result
  { writes := done.writes
    reply := if background then none else some (done.result.map .provisioned) }

def updatedRecord (inst : ServiceInstance) (req : UpdateRequest) : ServiceInstance :=
  beginOperation
    { inst with
      planId := orElseStr req.planId inst.planId
      parameters := req.parameters.getD inst.parameters
      version := inst.version+1 } "update"

def updateGates (caller : Caller) (tenantId : String) (inst : ServiceInstance)
    (instanceId : String) (req : UpdateRequest) : Gate :=
  (enforceRbac env.settings env.directory caller tenantId .update).andThen
    (evaluatePolicy env.policy env.handlers caller (tenantById env.directory.tenants tenantId)
      instanceId inst.serviceId (orElseStr req.planId inst.planId)
      (req.parameters.getD inst.parameters).modelDump tenantId Action.update.value)

def update (caller : Caller) (instanceId : String) (req : UpdateRequest) (t : Tables) :
    Segment :=
  match Store.getInstance env.faults.toStoreFaults t.rows instanceId with
  | .error e => failure [] e
  | .ok none => failure [] ⟨404, .str "instance not found"⟩
  | .ok (some inst) =>
    let tenantId := resolveTenantId caller inst.organizationGuid
    let gate := updateGates env caller tenantId inst instanceId req
    let audits := gate.audits.map Write.audit
    match gate.raised with
    | some e => failure audits e
    | none =>
      let inst := updatedRecord inst req
      if env.faults.put then failure audits internalError
      else { writes := audits++[.put inst], task := some (.update inst caller tenantId) }

def updateRendered (inst : ServiceInstance) (caller : Caller) (tenantId : String)
    (result : Except RenderFault Artifact) : Segment :=
  match result with
  | .error fault =>
    let inst := markOperationFailed { inst with status := .failed } fault
    if env.faults.put then failure [] internalError
    else failure [.put inst] (renderError fault)
  | .ok artifact =>
    match markOperationSucceeded { inst with status := .succeeded } artifact with
    | none => failure [] internalError
    | some inst =>
      if env.faults.put then failure [] internalError
      else
        { writes := [.put inst, .audit
            { action := "instance.updated", resource := inst.instanceId
              details := env.repr artifact, actor := caller.user.principal, tenantId
              metadata := [("version", .num inst.version),
                ("operation_id", optString inst.operationId),
                ("applied_version", optInt inst.appliedVersion)] }]
          reply := some (.ok (.updated artifact)) }

def deleteRecord (instanceId : String) (caller : Caller) (tenantId : String)
    (writes : List Write) : Segment :=
  if env.faults.delete then failure writes internalError
  else
    { writes := writes ++ [.delete instanceId, .audit
        { action := "instance.deprovisioned", resource := instanceId
          actor := caller.user.principal, tenantId }]
      reply := some (.ok .deprovisioned) }

def teardownSkipped (inst : ServiceInstance) (caller : Caller) (tenantId : String) :
    AuditRecord :=
  { action := "instance.teardown_skipped", resource := inst.instanceId
    actor := caller.user.principal, tenantId, decision := "deny"
    metadata := [("service_id", .str inst.serviceId), ("reason", .str "no renderer")] }

def teardownRecord (inst : ServiceInstance) (caller : Caller) (tenantId : String)
    (result : Except String TeardownResult) : AuditRecord :=
  match result with
  | .error e =>
    { action := "instance.teardown_failed", resource := inst.instanceId
      actor := caller.user.principal, tenantId, decision := "deny"
      metadata := [("service_id", .str inst.serviceId), ("reason", .str e)] }
  | .ok r =>
    { action := if r.ok then "instance.torn_down" else "instance.teardown_failed"
      resource := inst.instanceId, actor := caller.user.principal, tenantId
      decision := if r.ok then "allow" else "deny"
      metadata := [("service_id", .str inst.serviceId), ("removed", .arr (r.removed.map .str)),
        ("failed", .arr (r.failed.map .str)), ("detail", .str r.detail)] }

def deprovision (caller : Caller) (instanceId : String) (t : Tables) : Segment :=
  match Store.getInstance env.faults.toStoreFaults t.rows instanceId with
  | .error e => failure [] e
  | .ok none => failure [] ⟨410, .str "instance already absent"⟩
  | .ok (some inst) =>
    let tenantId := resolveTenantId caller inst.organizationGuid
    let gate := enforceRbac env.settings env.directory caller tenantId .deprovision
    let audits := gate.audits.map Write.audit
    match gate.raised with
    | some e => failure audits e
    | none =>
      match ServiceType.get inst.serviceId with
      | none =>
        deleteRecord env instanceId caller tenantId
          (audits++[.audit (teardownSkipped inst caller tenantId)])
      | some _ => { writes := audits, task := some (.teardown instanceId inst caller tenantId) }

def deprovisionTornDown (instanceId : String) (inst : ServiceInstance) (caller : Caller)
    (tenantId : String) (result : Except String TeardownResult) : Segment :=
  deleteRecord env instanceId caller tenantId
    [.audit (teardownRecord inst caller tenantId result)]

def withBinding (caller : Caller) (instanceId : String) (absent : HttpError) (t : Tables)
    (done : ServiceInstance → String → Segment) : Segment :=
  match Store.getInstance env.faults.toStoreFaults t.rows instanceId with
  | .error e => failure [] e
  | .ok none => failure [] absent
  | .ok (some inst) =>
    let tenantId := resolveTenantId caller inst.organizationGuid
    let gate := enforceRbac env.settings env.directory caller tenantId .bind
    match gate.raised with
    | some e => failure (gate.audits.map Write.audit) e
    | none => if env.faults.put then failure [] internalError else done inst tenantId

def bindingAudit (action bindingId instanceId : String) (caller : Caller) (tenantId : String) :
    Write :=
  .audit { action, resource := bindingId, details := instanceId, actor := caller.user.principal
           tenantId, metadata := [("instance_id", .str instanceId)] }

def bind (caller : Caller) (instanceId bindingId : String) (req : BindRequest) (t : Tables) :
    Segment :=
  withBinding env caller instanceId ⟨404, .str "instance not found"⟩ t fun inst tenantId =>
    let credentials := [
      ("config_url", "/instances/" ++ instanceId ++ "/versions/" ++ toString inst.version ++
        "/envoy.yaml"),
      ("instance_id", instanceId), ("version", toString inst.version)]
    { writes := [.putBinding { bindingId, instanceId, appGuid := req.appGuid, credentials },
        bindingAudit "binding.created" bindingId instanceId caller tenantId]
      reply := some (.ok (.bound credentials)) }

def unbind (caller : Caller) (instanceId bindingId : String) (t : Tables) : Segment :=
  withBinding env caller instanceId ⟨410, .str "instance already absent"⟩ t fun _ tenantId =>
    { writes := [.deleteBinding bindingId,
        bindingAudit "binding.deleted" bindingId instanceId caller tenantId]
      reply := some (.ok .unbound) }

def systemReconciler : Caller :=
  { user := { principal := "system:reconciler", tenantId := none, groups := [], raw := {} }
    isBasic := true }

def skippedResult (inst : ServiceInstance) : ReconcileResult :=
  .skipped inst.instanceId inst.status.value inst.driftStatus.value

def reconcileStarted (inst : ServiceInstance) : ServiceInstance :=
  beginOperation { inst with reconcileAttempts := inst.reconcileAttempts+1 } "reconcile"

/-- The loop of a pass, up to the next await or the end of the list. -/
def reconcileNext (pass : Pass) (writes : List Write) : List ServiceInstance →
    List ReconcileResult → Segment
  | [], results =>
    { writes, reply := if pass.manual then some (.ok (.reconciled pass.checked results)) else none }
  | inst::rest, results =>
    if pass.refreshDrift && decide (inst.status=.succeeded) then
      { writes, task := some (.diff inst { pass with rest, results }) }
    else if needsReconcile inst then
      let inst := reconcileStarted inst
      { writes := writes ++ putOr env inst
        task := some (.reconcile inst { pass with rest, results }) }
    else reconcileNext pass writes rest (results++[skippedResult inst])

def scanned (rows : List Row) : List Row := rows.take env.fits

def startPass (refreshDrift manual : Bool) (instances : List ServiceInstance) : Segment :=
  reconcileNext env { checked := instances.length, refreshDrift, manual, rest := [], results := [] }
    [] instances []

/-- `_refresh_drift` after the diff; `none` when the diff could not be had. -/
def refreshedDrift (inst : ServiceInstance) (result : Option Artifact) :
    Option ServiceInstance :=
  match result with
  | none => none
  | some r =>
    if truthyMember "unknown" r then none
    else some { inst with
      driftStatus := if truthyMember "drifted" r then .drifted else .inSync }
where
  /-- `result.get(name)` is true. -/
  truthyMember (name : String) (r : Artifact) : Bool :=
    match Json.lookup name r with
    | none => false
    | some .null => false
    | some (.bool b) => b
    | some (.num n) => decide (n≠0)
    | some (.str s) => decide (s≠"")
    | some (.arr xs) => !xs.isEmpty
    | some (.obj ms) => !ms.isEmpty

def diffed (inst : ServiceInstance) (pass : Pass) (result : Option Artifact) : Segment :=
  let refreshed := refreshedDrift inst result
  let writes := (refreshed.map (putOr env)).getD []
  let inst := refreshed.getD inst
  if needsReconcile inst then
    let inst := reconcileStarted inst
    { writes := writes ++ putOr env inst, task := some (.reconcile inst pass) }
  else reconcileNext env pass writes pass.rest (pass.results++[skippedResult inst])

/-- An answer that raises ends the pass. -/
def abandoned (pass : Pass) : Segment :=
  { reply := if pass.manual then some (.error internalError) else none }

def reconcileRendered (inst : ServiceInstance) (pass : Pass)
    (result : Except RenderFault Artifact) : Segment :=
  let tenantId := orElseStr inst.organizationGuid "default"
  let done := finalizeProvision env inst systemReconciler tenantId false "instance.reconciled" result
  let outcome : ReconcileResult :=
    match done.result with
    | .error _ => .failed inst.instanceId done.inst.status.value done.inst.operationId
        done.inst.operationReason done.inst.failedStepKind
    | .ok artifact => .reconciled inst.instanceId done.inst.status.value done.inst.operationId
        done.inst.appliedVersion artifact
  reconcileNext env pass done.writes pass.rest (pass.results++[outcome])

def reconcile (caller : Caller) (instanceId : Option String) (limit : Int) (t : Tables) :
    Segment :=
  if caller.isBasic then
    match instanceId.filter fun i => decide (i≠"") with
    | some i =>
      match Store.getInstance env.faults.toStoreFaults t.rows i with
      | .error e => failure [] e
      | .ok found => startPass env false true found.toList
    | none =>
      startPass env false true
        (Store.listInstances env.faults.toStoreFaults (scanned env t.rows) none limit)
  else failure [] ⟨403, .str "reconcile requires system credentials"⟩

end Handlers

inductive Request where
  | provision (instanceId : String) (req : ProvisionRequest) (acceptsIncomplete : Bool)
  | update (instanceId : String) (req : UpdateRequest)
  | deprovision (instanceId : String)
  | bind (instanceId bindingId : String) (req : BindRequest)
  | unbind (instanceId bindingId : String)
  | reconcile (instanceId : Option String) (limit : Int)

inductive Event where
  | request (auth : AuthHeader) (req : Request)
  | tick
  | resume (task : Nat) (outcome : Outcome)

def serve (env : Env) (caller : Caller) (t : Tables) : Request → Segment
  | .provision instanceId req acceptsIncomplete =>
    provision env caller instanceId req acceptsIncomplete t
  | .update instanceId req => update env caller instanceId req t
  | .deprovision instanceId => deprovision env caller instanceId t
  | .bind instanceId bindingId req => bind env caller instanceId bindingId req t
  | .unbind instanceId bindingId => unbind env caller instanceId bindingId t
  | .reconcile instanceId limit => reconcile env caller instanceId limit t

/-- An awaited call ends; an outcome of another call's kind cannot occur. -/
def Task.resume (env : Env) : Task → Outcome → Option Segment
  | .provision inst caller tenantId background, .rendered result =>
    some (provisionRendered env inst caller tenantId background result)
  | .update inst caller tenantId, .rendered result =>
    some (updateRendered env inst caller tenantId result)
  | .teardown instanceId inst caller tenantId, .tornDown result =>
    some (deprovisionTornDown env instanceId inst caller tenantId result)
  | .diff inst pass, .diffed result => some (diffed env inst pass result)
  | .diff _ pass, .diffRaised => some (abandoned pass)
  | .reconcile inst pass, .rendered result => some (reconcileRendered env inst pass result)
  | _, _ => none

structure State where
  tables : Tables := {}
  tasks : List (Nat × Task) := []
  nextTask : Nat := 0

def segment (env : Env) (s : State) : Event → Option (Option Nat × Segment)
  | .request auth req =>
    match stateChangeIdentify env.settings env.decode auth with
    | .error e => some (none, failure [] e)
    | .ok caller => some (none, serve env caller s.tables req)
  | .tick =>
    some (none, startPass env true false
      (Store.listInstances env.faults.toStoreFaults (scanned env s.tables.rows) none
        env.settings.reconcileBatchLimit))
  | .resume id outcome =>
    ((s.tasks.lookup id).bind fun task => task.resume env outcome).map fun seg => (some id, seg)

def State.run (hash : String → Nat) (s : State) (resumed : Option Nat) (seg : Segment) : State :=
  let others := match resumed with
    | none => s.tasks
    | some id => s.tasks.filter fun t => decide (t.1≠id)
  let id := resumed.getD s.nextTask
  { tables := seg.writes.foldl (Write.apply hash) s.tables
    tasks := others ++ (seg.task.toList.map fun task => (id, task))
    nextTask := s.nextTask+1 }

def step (hash : String → Nat) (s : State) (a : Env × Event) : State :=
  match segment a.1 s a.2 with
  | none => s
  | some (resumed, seg) => s.run hash resumed seg

def reply (s : State) (a : Env × Event) : Option (Except HttpError Reply) :=
  (segment a.1 s a.2).bind fun seg => seg.2.reply

end Sovereign.Broker
