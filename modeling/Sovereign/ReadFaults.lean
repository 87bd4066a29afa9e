import Sovereign.Interleaving
import Sovereign.Ownership
import Sovereign.Inventory

/-! Failed reads of the instance table. `get_instance` answers a failed read with `None`,
which every handler takes for an absent instance. -/
namespace Sovereign.ReadFaults
open Sovereign Policy Broker

def SaysAbsent : Option (Except HttpError Broker.Reply) → Prop
  | some (.error e) => e.status=404 ∨ e.status=410
  | _ => False

def NeverAbsent (env : Env) (caller : Caller) (t : Tables) (req : Broker.Request) : Prop :=
  ¬ SaysAbsent (serve env caller t req).reply ∧
  ∀ task∈(serve env caller t req).task, ∀ env' outcome seg, task.resume env' outcome=some seg →
    ¬ SaysAbsent seg.reply

/-- A provision request leaves the record of a stored instance as it is, with nothing left
to do, and answers `already_exists` or 503. -/
def KeepsRecord (hash : String → Nat) (env : Env) (caller : Caller) (t : Tables)
    (instanceId : String) (req : ProvisionRequest) (acceptsIncomplete : Bool) : Prop :=
  let seg := provision env caller instanceId req acceptsIncomplete t
  Store.stored (seg.writes.foldl (Write.apply hash) t).rows instanceId =
    Store.stored t.rows instanceId ∧ seg.task=none ∧
  (seg.reply=some (.ok .alreadyExists) ∨ ∃ e, seg.reply=some (.error e) ∧ e.status=503)

def UnavailableAnyway (env : Env) (caller : Caller) (t : Tables) (instanceId : String)
    (req : ProvisionRequest) : Prop :=
  (∃ e, (provisionGates env caller (resolveTenantId caller req.organizationGuid) instanceId req
    t.usage).raised=some e ∧ e.status=503) ∨
  ((provisionGates env caller (resolveTenantId caller req.organizationGuid) instanceId req
    t.usage).raised=none ∧ env.faults.put=true)

theorem getInstance_fault {faults : StoreFaults} (h : faults.get=true) (rows : List Row)
    (instanceId : String) : Store.getInstance faults rows instanceId=.ok none := by
  rw [Store.getInstance, if_pos h]

theorem getInstance_stored {faults : StoreFaults} {rows : List Row} {instanceId : String}
    {inst : ServiceInstance} (h : faults.get=false)
    (hs : Store.stored rows instanceId=some inst) :
    Store.getInstance faults rows instanceId=.ok (some inst) := by
  obtain ⟨row, hr, hp⟩ := Option.bind_eq_some_iff.mp hs
  rw [Store.getInstance, if_neg (by simp [h]), hr]
  simp only [hp]

theorem enforceRbac_status {s : Settings} {d : Directory} {caller : Caller} {tenantId : String}
    {action : Action} {e : HttpError}
    (h : (enforceRbac s d caller tenantId action).raised=some e) : e.status=403 := by
  simp only [enforceRbac] at h
  split at h
  · cases h
  · split at h
    · cases h
    · cases h
      rfl

theorem andThen_raised {g g' : Gate} {e : HttpError} (h : (g.andThen g').raised=some e) :
    g.raised=some e ∨ g'.raised=some e := by
  cases hg : g.raised with
  | none => exact Or.inr (by simpa [Gate.andThen, hg] using h)
  | some x => exact Or.inl (by simpa [Gate.andThen, hg] using h)

theorem enforceObligations_status {handlers : String → Option HandlerOutcome} {caller : Caller}
    {instanceId serviceType tenantId action : String} {obs : List String} {e : HttpError}
    (h : (enforceObligations handlers caller instanceId serviceType tenantId action
      obs).raised=some e) : e.status=503 := by
  induction obs with
  | nil => cases h
  | cons ob rest ih =>
    simp only [enforceObligations] at h
    split at h
    · cases andThen_raised h with
      | inl h => cases h
      | inr h => exact ih h
    · cases h
      rfl

theorem evaluatePolicy_status {policy : Json → PolicyDecision}
    {handlers : String → Option HandlerOutcome} {caller : Caller} {tenant : Option Tenant}
    {instanceId serviceType planId tenantId action : String} {parameters : List (String × Json)}
    {e : HttpError} (h : (evaluatePolicy policy handlers caller tenant instanceId serviceType planId
      parameters tenantId action).raised=some e) : e.status=403 ∨ e.status=503 := by
  cases andThen_raised h with
  | inl h =>
    left
    simp only at h
    split at h
    · cases h
    · cases h
      rfl
  | inr h => exact Or.inr (enforceObligations_status h)

/-- An error with one of the statuses the handlers use once they have their instance. -/
theorem not_absent_of_status {ws : List Write} {e : HttpError}
    (h : e.status=403 ∨ e.status=500 ∨ e.status=503) : ¬ SaysAbsent (failure ws e).reply := by
  intro ha
  cases ha with
  | inl ha => omega
  | inr ha => omega

theorem not_absent_internal (ws : List Write) : ¬ SaysAbsent (failure ws internalError).reply :=
  not_absent_of_status (Or.inr (Or.inl rfl))

theorem renderError_status (fault : RenderFault) :
    (renderError fault).status=403 ∨ (renderError fault).status=500 ∨
      (renderError fault).status=503 := by
  cases fault with
  | http text => exact Or.inr (Or.inr rfl)
  | other text => exact Or.inr (Or.inl rfl)

section Resume
variable (env : Env)

theorem finalizeProvision_status {inst : ServiceInstance} {caller : Caller} {tenantId : String}
    {recordUsage : Bool} {auditAction : String} {result : Except RenderFault Artifact}
    {e : HttpError} (h : (finalizeProvision env inst caller tenantId recordUsage auditAction
      result).result=.error e) : e.status=403 ∨ e.status=500 ∨ e.status=503 := by
  cases result with
  | error fault =>
    cases h
    exact renderError_status fault
  | ok artifact =>
    simp only [finalizeProvision] at h
    split at h
    · cases h
      exact Or.inr (Or.inl rfl)
    · split at h
      · cases h
        exact Or.inr (Or.inr rfl)
      · split at h
        · cases h
          exact Or.inr (Or.inl rfl)
        · cases h

theorem provisionRendered_not_absent (inst : ServiceInstance) (caller : Caller)
    (tenantId : String) (background : Bool) (result : Except RenderFault Artifact) :
    ¬ SaysAbsent (provisionRendered env inst caller tenantId background result).reply := by
  cases background with
  | true => exact id
  | false =>
    simp only [provisionRendered]
    cases hd : (finalizeProvision env inst caller tenantId true "instance.provisioned"
      result).result with
    | ok artifact => exact id
    | error e =>
      have hs := finalizeProvision_status env hd
      intro ha
      cases ha with
      | inl ha => omega
      | inr ha => omega

theorem updateRendered_not_absent (inst : ServiceInstance) (caller : Caller) (tenantId : String)
    (result : Except RenderFault Artifact) :
    ¬ SaysAbsent (updateRendered env inst caller tenantId result).reply := by
  cases result with
  | error fault =>
    simp only [updateRendered]
    split
    · exact not_absent_internal _
    · exact not_absent_of_status (renderError_status fault)
  | ok artifact =>
    simp only [updateRendered]
    split
    · exact not_absent_internal _
    · split
      · exact not_absent_internal _
      · exact id

theorem deleteRecord_not_absent (instanceId : String) (caller : Caller) (tenantId : String)
    (ws : List Write) : ¬ SaysAbsent (deleteRecord env instanceId caller tenantId ws).reply := by
  rw [deleteRecord]
  split
  · exact not_absent_internal _
  · exact id

theorem reconcileNext_not_absent (pass : Pass) (ws : List Write) (list : List ServiceInstance)
    (results : List ReconcileResult) :
    ¬ SaysAbsent (reconcileNext env pass ws list results).reply := by
  induction list generalizing results with
  | nil =>
    simp only [reconcileNext]
    split <;> exact id
  | cons inst rest ih =>
    simp only [reconcileNext]
    split
    · exact id
    · split
      · exact id
      · exact ih _

theorem abandoned_not_absent (pass : Pass) : ¬ SaysAbsent (abandoned pass).reply := by
  simp only [abandoned]
  split
  · exact not_absent_internal []
  · exact id

/-- Once a handler awaits, it has its instance, and no later answer denies it. -/
theorem resume_not_absent {task : Task} {outcome : Outcome} {seg : Segment}
    (h : task.resume env outcome=some seg) : ¬ SaysAbsent seg.reply := by
  cases resumed_of_resume h with
  | provision inst caller tenantId background result =>
    exact provisionRendered_not_absent env inst caller tenantId background result
  | update inst caller tenantId result =>
    exact updateRendered_not_absent env inst caller tenantId result
  | teardown instanceId inst caller tenantId result =>
    exact deleteRecord_not_absent env instanceId caller tenantId _
  | diff inst pass result =>
    simp only [diffed]
    split
    · exact id
    · exact reconcileNext_not_absent env pass _ _ _
  | abandoned inst pass => exact abandoned_not_absent pass
  | reconcile inst pass result => exact reconcileNext_not_absent env pass _ _ _

end Resume

section Requests
variable {env : Env} {caller : Caller} {t : Tables} {instanceId : String}

theorem update_found {inst : ServiceInstance} (req : UpdateRequest)
    (h : Store.getInstance env.faults.toStoreFaults t.rows instanceId=.ok (some inst)) :
    ¬ SaysAbsent (update env caller instanceId req t).reply := by
  simp only [update, h]
  split
  · next e hr =>
    refine not_absent_of_status ?_
    cases andThen_raised hr with
    | inl hr => exact Or.inl (enforceRbac_status hr)
    | inr hr => exact (evaluatePolicy_status hr).imp_right Or.inr
  · split
    · exact not_absent_internal _
    · exact id

theorem deprovision_found {inst : ServiceInstance}
    (h : Store.getInstance env.faults.toStoreFaults t.rows instanceId=.ok (some inst)) :
    ¬ SaysAbsent (deprovision env caller instanceId t).reply := by
  simp only [deprovision, h]
  split
  · next e hr => exact not_absent_of_status (Or.inl (enforceRbac_status hr))
  · split
    · exact deleteRecord_not_absent env _ _ _ _
    · exact id

theorem withBinding_found {inst : ServiceInstance} {absent : HttpError}
    {done : ServiceInstance → String → Segment}
    (h : Store.getInstance env.faults.toStoreFaults t.rows instanceId=.ok (some inst))
    (hdone : ∀ inst tenantId, ¬ SaysAbsent (done inst tenantId).reply) :
    ¬ SaysAbsent (withBinding env caller instanceId absent t done).reply := by
  simp only [withBinding, h]
  split
  · next e hr => exact not_absent_of_status (Or.inl (enforceRbac_status hr))
  · split
    · exact not_absent_internal _
    · exact hdone _ _

/-- A failed read reads like an absent record, and the handlers say so. -/
theorem serve_absent {req : Broker.Request} {action : Action}
    (hreq : req.operates=some (instanceId, action))
    (hnone : Store.getInstance env.faults.toStoreFaults t.rows instanceId=.ok none) :
    SaysAbsent (serve env caller t req).reply := by
  cases req with
  | update i r =>
    cases hreq
    simp only [serve, update, hnone]
    exact Or.inl rfl
  | deprovision i =>
    cases hreq
    simp only [serve, deprovision, hnone]
    exact Or.inr rfl
  | bind i b r =>
    cases hreq
    simp only [serve, Broker.bind, withBinding, hnone]
    exact Or.inl rfl
  | unbind i b =>
    cases hreq
    simp only [serve, unbind, withBinding, hnone]
    exact Or.inr rfl
  | provision i r b => cases hreq
  | reconcile i n => cases hreq

theorem serve_found {inst : ServiceInstance} {req : Broker.Request} {action : Action}
    (hreq : req.operates=some (instanceId, action))
    (hfound : Store.getInstance env.faults.toStoreFaults t.rows instanceId=.ok (some inst)) :
    ¬ SaysAbsent (serve env caller t req).reply := by
  cases req with
  | update i r =>
    cases hreq
    exact update_found r hfound
  | deprovision i =>
    cases hreq
    exact deprovision_found hfound
  | bind i b r =>
    cases hreq
    exact withBinding_found hfound fun _ _ => id
  | unbind i b =>
    cases hreq
    exact withBinding_found hfound fun _ _ => id
  | provision i r b => cases hreq
  | reconcile i n => cases hreq

/-- On a stored instance, the requests that act on it deny it exactly when the read
fails. -/
theorem neverAbsent_iff {inst : ServiceInstance} (hs : Store.stored t.rows instanceId=some inst)
    {req : Broker.Request} {action : Action} (hreq : req.operates=some (instanceId, action)) :
    NeverAbsent env caller t req ↔ env.faults.get=false := by
  constructor
  · intro h
    by_contra hget
    exact h.1 (serve_absent hreq (getInstance_fault (by simpa using hget) t.rows instanceId))
  · intro hget
    refine ⟨serve_found hreq (getInstance_stored hget hs), ?_⟩
    intro task _ env' outcome seg hseg
    exact resume_not_absent env' hseg

/-- On a stored instance, a provision request keeps the record exactly when the read does
not fail or the request is answered 503 for another reason. -/
theorem keepsRecord_iff (hash : String → Nat) {inst : ServiceInstance}
    (hs : Store.stored t.rows instanceId=some inst) (req : ProvisionRequest)
    (acceptsIncomplete : Bool) :
    KeepsRecord hash env caller t instanceId req acceptsIncomplete ↔
      env.faults.get=false ∨ UnavailableAnyway env caller t instanceId req := by
  cases hget : env.faults.get with
  | false =>
    have hfound := getInstance_stored hget hs
    simp only [KeepsRecord, provision, hfound, true_or, iff_true]
    simp
  | true =>
    have hnone := getInstance_fault hget t.rows instanceId
    simp only [KeepsRecord, UnavailableAnyway, provision, hnone, reduceCtorEq, false_or]
    cases hr : (provisionGates env caller (resolveTenantId caller req.organizationGuid) instanceId
      req t.usage).raised with
    | some e =>
      have hkept := stored_plain hash (WritesOnly.writesBack (writesOnly_audits (provisionGates env caller
        (resolveTenantId caller req.organizationGuid) instanceId req t.usage).audits)) t instanceId
      simp [Broker.failure, hkept]
    | none =>
      cases hp : env.faults.put with
      | true =>
        have hkept := stored_plain hash (WritesOnly.writesBack (writesOnly_audits (provisionGates env caller
          (resolveTenantId caller req.organizationGuid) instanceId req t.usage).audits)) t instanceId
        simp [Broker.failure, hkept]
      | false => simp

theorem lastOperation_gone_iff {inst : ServiceInstance}
    (hs : Store.stored t.rows instanceId=some inst) (auth : AuthHeader) :
    Inventory.lastOperation env.settings env.decode env.faults.toStoreFaults t.rows auth
        instanceId≠.ok .gone ↔
      env.faults.get=false ∨ ∃ e, identify env.settings env.decode auth=.error e := by
  rw [Inventory.lastOperation]
  cases hi : identify env.settings env.decode auth with
  | error e => simp
  | ok caller =>
    cases hget : env.faults.get with
    | false => simp [getInstance_stored hget hs]
    | true => simp [getInstance_fault hget t.rows instanceId]

end Requests

/-- A read of a stored instance looks like its absence exactly when it fails: to a
provision request unless that is answered 503 for another reason, to the requests that
act on the instance, and to `last_operation` unless the caller is turned away. -/
theorem read_faults_surface_iff (hash : String → Nat) (env : Env) (t : Tables)
    (instanceId : String) (inst : ServiceInstance)
    (hs : Store.stored t.rows instanceId=some inst) :
    (∀ caller req acceptsIncomplete,
      KeepsRecord hash env caller t instanceId req acceptsIncomplete ↔
        env.faults.get=false ∨ UnavailableAnyway env caller t instanceId req) ∧
    (∀ caller req action, req.operates=some (instanceId, action) →
      (NeverAbsent env caller t req ↔ env.faults.get=false)) ∧
    (∀ auth, Inventory.lastOperation env.settings env.decode env.faults.toStoreFaults t.rows auth
        instanceId≠.ok .gone ↔
      env.faults.get=false ∨ ∃ e, identify env.settings env.decode auth=.error e) :=
  ⟨fun _ req b => keepsRecord_iff hash hs req b, fun _ _ _ hreq => neverAbsent_iff hs hreq,
    fun auth => lastOperation_gone_iff hs auth⟩

def updatedRun : List (Env × Event) :=
  [provisionEvent, .resume 0 (.rendered (.ok [])), updateEvent,
    .resume 2 (.rendered (.ok []))].map fun e => (sampleEnv, e)

def faultyEnv : Env := { sampleEnv with faults := { get := true } }

theorem read_faults_surface_iff_updated :
    (Store.stored (Trace.exec (Broker.step fun _ => 0) {} updatedRun).tables.rows
      "lb-1").map (·.version)=some 2 ∧
    (∀ auth, Inventory.lastOperation sampleEnv.settings sampleEnv.decode {}
      (Trace.exec (Broker.step fun _ => 0) {} updatedRun).tables.rows auth "lb-1"≠.ok .gone) := by
  have hv : (Store.stored (Trace.exec (Broker.step fun _ => 0) {} updatedRun).tables.rows
      "lb-1").map (·.version)=some 2 := by decide +kernel
  obtain ⟨inst, hs, _⟩ := Option.map_eq_some_iff.mp hv
  refine ⟨hv, fun auth => ?_⟩
  exact ((read_faults_surface_iff (fun _ => 0) sampleEnv _ "lb-1" inst hs).2.2 auth).mpr
    (Or.inl rfl)

/-- The read of the next provision request fails: version 2 is overwritten by a new
version 1, and `last_operation` answers that the instance is gone. -/
theorem fault_overwrites_record :
    (Store.stored (Trace.exec (Broker.step fun _ => 0) {} updatedRun).tables.rows
      "lb-1").map (·.version)=some 2 ∧
    (Store.stored (Trace.exec (Broker.step fun _ => 0) {}
      (updatedRun++[(faultyEnv, provisionEvent)])).tables.rows "lb-1").map (·.version)=some 1 ∧
    Inventory.lastOperation faultyEnv.settings faultyEnv.decode faultyEnv.faults.toStoreFaults
      (Trace.exec (Broker.step fun _ => 0) {} updatedRun).tables.rows operator "lb-1"=.ok .gone := by
  refine ⟨by decide +kernel, by decide +kernel, ?_⟩
  have hi : (identify faultyEnv.settings faultyEnv.decode operator).isOk=true := by decide +kernel
  rw [Inventory.lastOperation]
  cases hc : identify faultyEnv.settings faultyEnv.decode operator with
  | error e =>
    rw [hc] at hi
    cases hi
  | ok caller =>
    have hget : faultyEnv.faults.get=true := rfl
    simp only [getInstance_fault hget]

end Sovereign.ReadFaults
