import Sovereign.ManualPass
import Sovereign.ControlPlane
import Sovereign.Inventory
import Sovereign.ReadFaults

/-! How the kind of a failed step travels: from the control plane's error to the answer it
sends, through the broker's call and the exception that call raises, into the record. -/
namespace Sovereign.Broker
open Sovereign

/-- An answer over HTTP; `json` fails with the message of the decoder. -/
structure Response where
  status : Nat
  json : Except String Json
  text : String := ""

def titleFor (status : Nat) : String :=
  match status with
  | 400 => "bad request"
  | 401 => "unauthorized"
  | 403 => "forbidden"
  | 404 => "not found"
  | 405 => "method not allowed"
  | 409 => "conflict"
  | 410 => "gone"
  | 422 => "unprocessable entity"
  | 429 => "too many requests"
  | 500 => "internal server error"
  | 502 => "bad gateway"
  | 503 => "service unavailable"
  | 504 => "gateway timeout"
  | n => "HTTP " ++ toString n

/-- `_http_exc`: strings, objects and lists stay as they are in the problem detail. -/
def problem (pyStr : Json → String) (service : String) (e : HttpError) : Response :=
  { status := e.status
    json := .ok (.obj [("type", .str "about:blank"), ("title", .str (titleFor e.status)),
      ("status", .num e.status),
      ("detail", match e.detail with
        | .str s => .str s
        | .obj members => .obj members
        | .arr items => .arr items
        | detail => .str (pyStr detail)),
      ("service", .str service)]) }

def stepJson (step : DeploymentStep) : Json :=
  .obj [("kind", .str step.kind), ("target", .str step.target), ("payload", .obj step.payload)]

def replyMembers (r : ControlPlane.RenderReply) : Artifact :=
  [("bucket", .str r.bucket), ("key", .str r.key), ("version", .num r.version),
   ("service_type", .str r.serviceType), ("manifest", .arr (r.manifest.map stepJson))]

def respond (pyStr : Json → String) : Except HttpError ControlPlane.RenderReply → Response
  | .error e => problem pyStr "control-plane" e
  | .ok r => { status := 200, json := .ok (.obj (replyMembers r)) }

inductive Exchange where
  | unreachable (text : String)
  | answered (response : Response)

inductive Raised where
  | httpException (status : Nat) (detail : Json)
  | statusError (text : String) (response : Response)
  | other (text : String)

def afterFirst (marker : List Char) : List Char → Option (List Char)
  | [] => if marker=[] then some [] else none
  | c::cs =>
    if marker.isPrefixOf (c::cs) then some ((c::cs).drop marker.length) else afterFirst marker cs

def stepInText (detail : String) : Option String :=
  (afterFirst "apply failed at step ".toList detail.toList).map fun rest =>
    String.ofList (rest.takeWhile (· != ':'))

def failedStepOf (detail : List (String × Json)) : Option String :=
  match Json.lookup "failed_step" detail with
  | some (.str kind) => some kind
  | _ => none

/-- `_failure_detail`; `none` where it raises, on a body that is no object. -/
def failureDetailOf (dumps pyStr : Json → String) : Raised → Option (String × Option String)
  | .httpException _ (.obj members) => some (dumps (.obj members), failedStepOf members)
  | .httpException _ (.str s) => some (s, none)
  | .httpException _ detail => some (pyStr detail, none)
  | .statusError text response =>
    let detail : Option Json := match response.json with
      | .error _ => some (.str response.text)
      | .ok (.obj members) => some ((Json.lookup "detail" members).getD .null)
      | .ok _ => none
    detail.map fun
      | .obj members => (dumps (.obj members), failedStepOf members)
      | .str s => (s, stepInText s)
      | _ => (text, none)
  | .other text => some (text, none)

/-- The broker's `render`: every failure of the call becomes a 503 with a text. -/
def callRender (statusText : Nat → String) : Exchange → Except Raised Json
  | .unreachable text => .error (.httpException 503 (.str ("control plane unavailable: " ++ text)))
  | .answered r =>
    if 200 ≤ r.status ∧ r.status ≤ 299 then
      match r.json with
      | .ok doc => .ok doc
      | .error text => .error (.other text)
    else
      .error (.httpException 503
        (.str ("control plane unavailable: " ++ statusText r.status)))

def RenderFault.raised : RenderFault → Raised
  | .http text => .httpException 503 (.str ("control plane unavailable: " ++ text))
  | .other text => .other text

theorem failureDetail_raised (dumps pyStr : Json → String) (fault : RenderFault) :
    failureDetailOf dumps pyStr fault.raised=some (failureDetail fault) := by
  cases fault <;> rfl

/-- The faults are all that a call can raise. -/
theorem callRender_error {statusText : Nat → String} {ex : Exchange} {e : Raised}
    (h : callRender statusText ex=.error e) : ∃ fault : RenderFault, e=fault.raised := by
  cases ex with
  | unreachable text =>
    cases h
    exact ⟨.http text, rfl⟩
  | answered r =>
    simp only [callRender] at h
    split at h
    · split at h
      · cases h
      · cases h
        exact ⟨.other _, rfl⟩
    · cases h
      exact ⟨.http (statusText r.status), rfl⟩

/-- The non-empty kind of the failed step that an answer reports. -/
def reported : Exchange → Option String
  | .unreachable _ => none
  | .answered r =>
    if 200 ≤ r.status ∧ r.status ≤ 299 then none
    else
      match r.json with
      | .ok doc =>
        match doc.path ["detail", "failed_step"] with
        | some (.str kind) => if kind="" then none else some kind
        | _ => none
      | .error _ => none

/-- An apply that fails is reported with the kind of its failed step. -/
theorem reported_applyArtifact (pyStr : Json → String) (plane : ControlPlane.Plane)
    (inst : ServiceInstance) (t : Renderers.ServiceType) (a : Renderers.RenderedArtifact)
    (w : Executors.World) {ar : Executors.ApplyResult}
    (har : (Executors.apply plane.backend plane.settings t a w).1=.ok ar) (h : ar.ok=false) :
    reported (.answered (respond pyStr (ControlPlane.applyArtifact plane inst t a w).reply))=
      (ar.failedStep.map (·.kind)).filter fun kind => decide (kind≠"") := by
  unfold ControlPlane.applyArtifact
  generalize Executors.apply plane.backend plane.settings t a w=out at har ⊢
  obtain ⟨result, w'⟩ := out
  dsimp only at har
  subst har
  simp only [h, Bool.false_eq_true, if_false, respond, problem, reported]
  cases ar.failedStep with
  | none => simp [Json.path, Json.lookup]
  | some step =>
    by_cases hk : step.kind="" <;> simp [Json.path, Json.lookup, hk, Option.filter]

def failedRecord (inst : ServiceInstance) (fault : RenderFault) : ServiceInstance :=
  markOperationFailed { inst with status := .failed } fault

section Stored
variable {env : Env} {task : Task} {inst : ServiceInstance} (fault : RenderFault)

theorem onStored_finalize_failed (hput : env.faults.put=false) (caller : Caller)
    (tenantId : String) (recordUsage : Bool) (auditAction : String)
    (v : Option ServiceInstance) :
    (finalizeProvision env inst caller tenantId recordUsage auditAction
      (.error fault)).writes.foldl (Write.onStored inst.instanceId) v=
        some (failedRecord inst fault) := by
  simp [finalizeProvision, putOr, hput, Write.onStored, failedRecord, markOperationFailed]

/-- A failed render of a provision, an update or a reconcile stores the failed record. -/
theorem onStored_resume_failed (hi : task.rendering=some inst) (hput : env.faults.put=false)
    (hn : task.ids.Nodup) (v : Option ServiceInstance) :
    ∃ seg, task.resume env (.rendered (.error fault))=some seg ∧
      seg.writes.foldl (Write.onStored inst.instanceId) v=some (failedRecord inst fault) := by
  cases task with
  | provision x caller tenantId background =>
    cases hi
    exact ⟨_, rfl, onStored_finalize_failed fault hput caller tenantId true "instance.provisioned" v⟩
  | update x caller tenantId =>
    cases hi
    refine ⟨_, rfl, ?_⟩
    simp [updateRendered, hput, failure, Write.onStored, failedRecord, markOperationFailed]
  | reconcile x pass =>
    cases hi
    refine ⟨_, rfl, ?_⟩
    have hne : ∀ c∈pass.rest, c.instanceId≠inst.instanceId := rest_ne hn
    have hrest : WritesOnly (fun x => x.instanceId≠inst.instanceId)
        (startWrites env pass.refreshDrift pass.rest) := by
      constructor
      · intro x hx
        obtain ⟨c, hc, he⟩ := startWrites_puts hx
        cases he
        exact hne c hc
      · intro j hj
        obtain ⟨c, hc, he⟩ := startWrites_puts hj
        cases he
    simp only [reconcileRendered, reconcileNext_writes, List.foldl_append]
    rw [onStored_finalize_failed fault hput, onStored_frame hrest]
  | teardown i x caller tenantId => cases hi
  | diff x pass => cases hi

/-- The stored record names no step, whatever was reported. -/
theorem failedRecord_failedStepKind : (failedRecord inst fault).failedStepKind=none := by
  cases fault <;> rfl

end Stored

theorem lastOperation_stored (s : Settings) (decode : String → Except HttpError Claims)
    {faults : StoreFaults} {rows : List Row} {auth : AuthHeader} {caller : Caller}
    {instanceId : String} {c : ServiceInstance} (hid : identify s decode auth=.ok caller)
    (hget : faults.get=false) (hs : Store.stored rows instanceId=some c) :
    Inventory.lastOperation s decode faults rows auth instanceId=
      .ok (.operation (Inventory.describe c)) := by
  simp [Inventory.lastOperation, hid, ReadFaults.getInstance_stored hget hs]

theorem exec_distinct (hash : String → Nat) {s : State} (hw : Store.WellFormed s.tables.rows)
    (hd : s.Distinct) (as : List (Env × Event)) : (Trace.exec (step hash) s as).Distinct := by
  induction as generalizing s with
  | nil => exact hd
  | cons a as ih => exact ih (step_wellFormed hash hw a) (step_distinct hw hd)

/-- The control plane reports the kind of the step its apply failed at. In every run, a
provision, update or reconcile whose render fails leaves its record with the kind that was
reported exactly when none was; the record and its last operation show what
`_failure_detail` makes of the exception. -/
theorem attribution_survives_iff (hash : String → Nat) (dumps pyStr : Json → String)
    (statusText : Nat → String) (t : Tables) (hw : Store.WellFormed t.rows)
    (as : List (Env × Event)) (env : Env) (id : Nat) (task : Task) (inst : ServiceInstance)
    (ex : Exchange) (e : Raised)
    (hl : (Trace.exec (step hash) { tables := t } as).tasks.lookup id=some task)
    (hi : task.rendering=some inst) (hput : env.faults.put=false)
    (hr : callRender statusText ex=.error e) :
    (∀ plane x service a w ar,
      (Executors.apply plane.backend plane.settings service a w).1=.ok ar → ar.ok=false →
      reported (.answered (respond pyStr (ControlPlane.applyArtifact plane x service a w).reply))=
        (ar.failedStep.map (·.kind)).filter fun kind => decide (kind≠"")) ∧
    ∃ fault : RenderFault, e=fault.raised ∧
    ∃ s', s'=step hash (Trace.exec (step hash) { tables := t } as)
        (env, .resume id (.rendered (.error fault))) ∧
    ∃ c, Store.stored s'.tables.rows inst.instanceId=some c ∧ c.status=.failed ∧
      failureDetailOf dumps pyStr e=some (c.operationReason, c.failedStepKind) ∧
      (∀ auth caller, identify env.settings env.decode auth=.ok caller → env.faults.get=false →
        ∃ op, Inventory.lastOperation env.settings env.decode env.faults.toStoreFaults
          s'.tables.rows auth inst.instanceId=.ok (.operation op) ∧
          op.failedStepKind=c.failedStepKind) ∧
      (c.failedStepKind=reported ex ↔ reported ex=none) := by
  refine ⟨fun plane x service a w ar har h =>
    reported_applyArtifact pyStr plane x service a w har h, ?_⟩
  have hd := exec_distinct hash (s := { tables := t }) hw (by simp [State.Distinct]) as
  generalize Trace.exec (step hash) { tables := t } as=s at *
  obtain ⟨fault, rfl⟩ := callRender_error hr
  obtain ⟨seg, hres, hstored⟩ := onStored_resume_failed fault hi hput
    (hd (id, task) (mem_tasks_of_lookup hl)) (Store.stored s.tables.rows inst.instanceId)
  have hseg : segment env s (.resume id (.rendered (.error fault)))=some (some id, seg) := by
    simp [segment, hl, hres]
  have hrow : Store.stored (step hash s (env, .resume id (.rendered (.error fault)))).tables.rows
      inst.instanceId=some (failedRecord inst fault) := by
    rw [step_segment hseg, State.run, stored_foldl, hstored]
  refine ⟨fault, rfl, _, rfl, failedRecord inst fault, hrow, rfl,
    failureDetail_raised dumps pyStr fault, ?_, ?_⟩
  · intro auth caller hid hget
    exact ⟨_, lastOperation_stored _ _ hid hget hrow, rfl⟩
  · rw [failedRecord_failedStepKind]
    exact eq_comm

/-! A balancer whose object cannot be put. -/

def balancer : ServiceInstance :=
  { instanceId := "lb-1", serviceId := "sovereign-envoy-lb", planId := "standard-regional" }

def fullBucket : ControlPlane.Plane :=
  { codec := { ControlPlane.samplePlane.codec with
               safeLoad := fun _ => Renderers.buildDoc {} balancer }
    backend := { ControlPlane.samplePlane.backend with
                 putFault := fun _ _ => some "disk full" } }

def refusedApply : Exchange :=
  .answered (respond (fun _ => "") (ControlPlane.render fullBucket balancer
    { files := fun _ => none }).reply)

def serverError (status : Nat) : String := "Server error '" ++ toString status ++ "'"

theorem attribution_survives_refused :
    ∃ fault : RenderFault, ∃ s',
      s'=step (fun _ => 0) (Trace.exec (step fun _ => 0) {} [(sampleEnv, provisionEvent)])
        (sampleEnv, .resume 0 (.rendered (.error fault))) ∧
      ∃ c, Store.stored s'.tables.rows "lb-1"=some c ∧ c.status=.failed ∧
        (c.failedStepKind=reported refusedApply ↔ reported refusedApply=none) := by
  have htask : ∃ task inst, (Trace.exec (step fun _ => 0) {}
      [(sampleEnv, provisionEvent)]).tasks.lookup 0=some task ∧ task.rendering=some inst ∧
        inst.instanceId="lb-1" := ⟨_, _, rfl, rfl, rfl⟩
  obtain ⟨task, inst, hl, hi, hid⟩ := htask
  have hcall : ∃ e, callRender serverError refusedApply=.error e := ⟨_, rfl⟩
  obtain ⟨e, he⟩ := hcall
  obtain ⟨-, fault, -, s', hs', c, hc, hfailed, -, -, hiff⟩ :=
    attribution_survives_iff (fun _ => 0) (fun _ => "") (fun _ => "") serverError {}
      Store.WellFormed.nil [(sampleEnv, provisionEvent)] sampleEnv 0 task inst refusedApply e
      hl hi rfl he
  rw [hid] at hc
  exact ⟨fault, s', hs', c, hc, hfailed, hiff⟩

/-- The control plane names the failed step, and the broker stores none. -/
theorem failed_step_lost :
    reported refusedApply=some "s3-put" ∧
    callRender serverError refusedApply=.error (RenderFault.http (serverError 503)).raised ∧
    (Store.stored (Trace.exec (step fun _ => 0) {} [(sampleEnv, provisionEvent),
      (sampleEnv, .resume 0 (.rendered (.error (.http (serverError 503)))))]).tables.rows
        "lb-1").map (fun c => (c.operationReason, c.failedStepKind))=
      some ("control plane unavailable: Server error '503'", none) :=
  ⟨by decide +kernel, by rfl, by decide +kernel⟩

end Sovereign.Broker
