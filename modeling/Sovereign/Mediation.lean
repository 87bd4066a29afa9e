import Sovereign.GateAtomicity
import Sovereign.Interleaving

/-! Complete mediation. Over every run, whatever configuration the broker stores, or holds while
it waits for a render, a diff or its turn in a pass, is one that an earlier step of the run put
to every gate and that every gate let pass. -/
namespace Sovereign.Broker
open Sovereign Policy Renderers

def GatedRequest.instanceId : GatedRequest → String
  | .provision instanceId _ _ => instanceId
  | .update instanceId _ => instanceId

/-- The document carries all that a render of the record is made from but its version. -/
structure Configures (document : Json) (x : ServiceInstance) : Prop
    extends Describes document x where
  service : Json.get? "service_type" document=some (.str x.serviceId)

/-- The step serves a request about the instance of the record, and every gate lets pass a
document with the record's configuration. The gates stand at the tenant that the broker resolves
for the caller at that step. -/
structure Admits (s : State) (a : Env × Event) (x : ServiceInstance) (auth : AuthHeader)
    (req : GatedRequest) (sc : Screening) : Prop where
  event : a.2=.request auth req.request
  instanceId : req.instanceId=x.instanceId
  screened : screened a.1 s auth req=some sc
  passed : ¬ sc.Rejects a.1
  configures : Configures sc.document x

def AdmittedIn (hash : String → Nat) (as : List (Env × Event)) (x : ServiceInstance) : Prop :=
  ∃ pre a post auth req sc, as=pre++a::post ∧
    Admits (Trace.exec (step hash) {} pre) a x auth req sc

section Configuration
variable {document : Json} {c x : ServiceInstance}

structure Recorded (c x : ServiceInstance) : Prop extends Touched c x where
  serviceId : x.serviceId=c.serviceId

theorem recorded_refreshed {result : Option Artifact} (h : refreshedDrift c result=some x) :
    Recorded c x := by
  refine ⟨touched_refreshedDrift h, ?_⟩
  cases result with
  | none => cases h
  | some r =>
    simp only [refreshedDrift] at h
    split at h
    · cases h
    · cases h
      rfl

theorem recorded_succeeded {artifact : Artifact}
    (h : markOperationSucceeded { c with status := .succeeded } artifact=some x) :
    Recorded c x := by
  refine ⟨touched_succeeded h, ?_⟩
  obtain ⟨version, _, rfl⟩ := Option.map_eq_some_iff.mp h
  rfl

theorem Configures.recorded (h : Configures document c) (hr : Recorded c x) :
    Configures document x where
  toDescribes := h.toDescribes.touched hr.toTouched
  service := by rw [hr.serviceId]; exact h.service

theorem Admits.recorded {s : State} {a : Env × Event} {auth : AuthHeader} {req : GatedRequest}
    {sc : Screening} (h : Admits s a c auth req sc) (hr : Recorded c x) :
    Admits s a x auth req sc where
  event := h.event
  instanceId := h.instanceId.trans hr.instanceId.symm
  screened := h.screened
  passed := h.passed
  configures := h.configures.recorded hr

theorem AdmittedIn.recorded {hash : String → Nat} {as : List (Env × Event)}
    (h : AdmittedIn hash as c) (hr : Recorded c x) : AdmittedIn hash as x := by
  obtain ⟨pre, a, post, auth, req, sc, he, ha⟩ := h
  exact ⟨pre, a, post, auth, req, sc, he, ha.recorded hr⟩

theorem AdmittedIn.later {hash : String → Nat} {as : List (Env × Event)} (h : AdmittedIn hash as x)
    (b : Env × Event) : AdmittedIn hash (as++[b]) x := by
  obtain ⟨pre, a, post, auth, req, sc, rfl, ha⟩ := h
  exact ⟨pre, a, post++[b], auth, req, sc, by simp, ha⟩

theorem kept_admittedIn (hash : String → Nat) (as : List (Env × Event)) :
    Kept (AdmittedIn hash as) where
  failed := fun c fault h => h.recorded ⟨touched_failed c fault, rfl⟩
  started := fun c h => h.recorded ⟨touched_reconcileStarted c, rfl⟩
  refreshed := fun _ _ _ h hr => h.recorded (recorded_refreshed hr)

end Configuration

/-! A step that stores a record of a request admits it. -/

section Admission
variable {s : State} {a : Env × Event}

theorem service_buildPolicyInput (c : Call) {x : ServiceInstance} (h : c.serviceType=x.serviceId) :
    Json.get? "service_type" (buildPolicyInput c)=some (.str x.serviceId) := by
  rw [path_serviceType, h]

/-- The document of a provision names the service asked for; that of an update names the service
of the record found. -/
theorem service_screening {env : Env} {caller : Caller} {t : Tables} {sc : Screening} :
    ∀ {req : GatedRequest}, screening env caller t req=some sc → ∀ x : ServiceInstance,
      (match req with
        | .provision _ r _ => r.serviceId=x.serviceId
        | .update i _ => Store.getInstance env.faults.toStoreFaults t.rows i=.ok (some x)) →
      Json.get? "service_type" sc.document=some (.str x.serviceId)
  | .provision i r b, h, x, hx => by
    simp only [screening] at h
    split at h
    · cases h
      exact service_buildPolicyInput _ hx
    · cases h
  | .update i r, h, x, hx => by
    simp only at hx
    simp only [screening, hx] at h
    cases h
    exact service_buildPolicyInput _ rfl

/-- The put of an arriving request is of the record that its gates were asked about. -/
theorem admits_of_stores {env : Env} {auth : AuthHeader} {req : GatedRequest} {x : ServiceInstance}
    (hid : req.instanceId=x.instanceId) (hstores : (asked env s auth req).Stores x)
    (hservice : ∀ sc, screened env s auth req=some sc →
      Json.get? "service_type" sc.document=some (.str x.serviceId)) :
    ∃ sc, Admits s (env, .request auth req.request) x auth req sc := by
  obtain ⟨ws, hws, hwrites⟩ := hstores.writes
  have hput : Write.put x∈(asked env s auth req).writes := by simp [hwrites]
  cases asked_passage env s auth req with
  | reported audits writes task =>
    rw [writes] at hput
    simp at hput
  | stored judged y audits reached passed describes writes task =>
    rw [writes] at hput
    have hxy : x=y := by simpa using hput
    subst hxy
    exact ⟨judged, rfl, hid, reached, passed, describes, hservice judged reached⟩

theorem asked_eq {env : Env} {auth : AuthHeader} {caller : Caller} (req : GatedRequest)
    (hi : stateChangeIdentify env.settings env.decode auth=.ok caller) :
    asked env s auth req=serve env caller s.tables req.request := by
  rw [asked, hi]

theorem screened_eq {env : Env} {auth : AuthHeader} {caller : Caller} (req : GatedRequest)
    (hi : stateChangeIdentify env.settings env.decode auth=.ok caller) :
    screened env s auth req=screening env caller s.tables req := by
  rw [screened, hi]

theorem requested_some {caller : Caller} {req : Request} (h : requested a=some (caller, req)) :
    ∃ auth, a.2=.request auth req ∧
      stateChangeIdentify a.1.settings a.1.decode auth=.ok caller := by
  obtain ⟨env, event⟩ := a
  cases event with
  | request auth r =>
    simp only [requested] at h
    split at h
    · next hi =>
      cases h
      exact ⟨auth, rfl, hi⟩
    · cases h
  | tick => cases h
  | resume id outcome => cases h

theorem admits_created {c : Creation} (h : created s a=some c) :
    ∃ auth req sc, Admits s a c.record auth req sc := by
  simp only [created] at h
  split at h
  · next caller i r b hreq =>
    split at h
    · next hadm =>
      cases h
      obtain ⟨auth, he, hi⟩ := requested_some hreq
      obtain ⟨env, event⟩ := a
      cases he
      have hstores : (asked env s auth (.provision i r b)).Stores
          (provisionedRecord i r env.now) := by
        rw [asked_eq _ hi]
        exact provision_admitted b hadm
      obtain ⟨sc, hsc⟩ := admits_of_stores rfl hstores fun sc hsc =>
        service_screening ((screened_eq _ hi).symm.trans hsc) _ rfl
      exact ⟨auth, _, sc, hsc⟩
    · cases h
  · cases h

theorem admits_updated (hw : Store.WellFormed s.tables.rows) {inst : ServiceInstance}
    {r : UpdateRequest} (h : updated s a=some (inst, r)) :
    ∃ auth req sc, Admits s a (updatedRecord inst r) auth req sc := by
  simp only [updated] at h
  split at h
  · next caller i req hreq =>
    obtain ⟨x, hadm, hx⟩ := Option.map_eq_some_iff.mp h
    cases hx
    obtain ⟨auth, he, hi⟩ := requested_some hreq
    obtain ⟨env, event⟩ := a
    cases he
    have hget : Store.getInstance env.faults.toStoreFaults s.tables.rows i=.ok (some inst) := by
      simp only [updateAdmitted] at hadm
      split at hadm
      · next found hg =>
        split at hadm
        · cases hadm
          exact hg
        · cases hadm
      · cases hadm
    have hid : (GatedRequest.update i r).instanceId=(updatedRecord inst r).instanceId :=
      (hw.stored_eq (Store.stored_of_getInstance hget)).symm
    have hstores : (asked env s auth (.update i r)).Stores (updatedRecord inst r) := by
      rw [asked_eq _ hi]
      exact (update_admitted hadm).2
    have hservice : ∀ sc, screened env s auth (.update i r)=some sc →
        Json.get? "service_type" sc.document=some (.str inst.serviceId) := fun sc hsc =>
      service_screening ((screened_eq _ hi).symm.trans hsc) inst hget
    obtain ⟨sc, hsc⟩ := admits_of_stores hid hstores hservice
    exact ⟨auth, _, sc, hsc⟩
  · cases h

end Admission

/-- Over every run, in whatever order requests, passes and answers come, the configuration of every
record that is stored or held by a waiting handler was put to every gate at an earlier step, in
a request about that instance, and none of them rejected it. -/
theorem complete_mediation (hash : String → Nat) (as : List (Env × Event)) (x : ServiceInstance)
    (h : (Trace.exec (step hash) {} as).Source x) : AdmittedIn hash as x := by
  have hinv : Store.WellFormed (Trace.exec (step hash) {} as).tables.rows ∧
      ∀ c, (Trace.exec (step hash) {} as).Source c → AdmittedIn hash as c := by
    have hstart : ({} : State)=Trace.exec (step hash) {} [] ∧
        Store.WellFormed ({} : State).tables.rows ∧
        ∀ c, ({} : State).Source c → AdmittedIn hash [] c := by
      refine ⟨rfl, Store.WellFormed.nil, fun c hc => ?_⟩
      cases hc with
      | inl hc => cases hc
      | inr hc => cases hc
    refine (Trace.exec_history (fun pre s => s=Trace.exec (step hash) {} pre ∧
      Store.WellFormed s.tables.rows ∧ ∀ c, s.Source c → AdmittedIn hash pre c) ?_ hstart as).2
    · intro pre s a hI
      obtain ⟨rfl, hw, hP⟩ := hI
      refine ⟨by rw [Trace.exec_append]; rfl, step_wellFormed hash hw a, fun c hc => ?_⟩
      have hnow : ∀ {y}, (∃ auth req sc, Admits (Trace.exec (step hash) {} pre) a y auth req sc) →
          AdmittedIn hash (pre++[a]) y := by
        rintro y ⟨auth, req, sc, ha⟩
        exact ⟨pre, a, [], auth, req, sc, rfl, ha⟩
      refine source_step (kept_admittedIn hash (pre++[a])) hw (fun c hc => (hP c hc).later a) ?_ ?_
        ?_ hc
      · exact fun c hc => hnow (admits_created hc)
      · exact fun inst req hu _ => hnow (admits_updated hw hu)
      · intro inst artifact y _ hr hy
        exact ((hP inst (source_of_rendered hr)).later a).recorded (recorded_succeeded hy)
  exact hinv.2 x h

/-- In the calm run the balancer has its second plan, which the update was let pass with. -/
theorem complete_mediation_calm :
    ∃ x, Store.stored (Trace.exec (step fun _ => 0) {} calmRun).tables.rows "lb-1"=some x ∧
      x.planId="premium" ∧ AdmittedIn (fun _ => 0) calmRun x := by
  have hstored : (Store.stored (Trace.exec (step fun _ => 0) {} calmRun).tables.rows "lb-1").map
      (fun x => (x.instanceId, x.planId))=some ("lb-1", "premium") := by decide +kernel
  obtain ⟨x, hx, he⟩ := Option.map_eq_some_iff.mp hstored
  obtain ⟨hid, hplan⟩ := Prod.ext_iff.mp he
  have hsource : (Trace.exec (step fun _ => 0) {} calmRun).Source x := by
    refine Or.inr ?_
    simp only at hid
    rw [hid]
    exact hx
  exact ⟨x, hx, hplan, complete_mediation _ _ x hsource⟩

/-- The step serves a deprovision of the instance by an identified caller, and RBAC lets it pass at
the tenant that the broker resolves for the caller and the record that is stored. -/
structure Releases (s : State) (a : Env × Event) (instanceId : String) (caller : Caller)
    (inst : ServiceInstance) : Prop where
  event : requested a=some (caller, .deprovision instanceId)
  found : Store.stored s.tables.rows instanceId=some inst
  passed : (enforceRbac a.1.settings a.1.directory caller
    (resolveTenantId caller inst.organizationGuid) .deprovision).raised=none

def ReleasedIn (hash : String → Nat) (as : List (Env × Event)) (instanceId : String) : Prop :=
  ∃ pre a post caller inst, as=pre++a::post ∧
    Releases (Trace.exec (step hash) {} pre) a instanceId caller inst

theorem ReleasedIn.later {hash : String → Nat} {as : List (Env × Event)} {instanceId : String}
    (h : ReleasedIn hash as instanceId) (b : Env × Event) :
    ReleasedIn hash (as++[b]) instanceId := by
  obtain ⟨pre, a, post, caller, inst, rfl, ha⟩ := h
  exact ⟨pre, a, post++[b], caller, inst, by simp, ha⟩

section Teardowns
variable {env : Env} {s : State}

theorem deprovision_passed {auth : AuthHeader} {caller : Caller} {instanceId : String}
    (hi : stateChangeIdentify env.settings env.decode auth=.ok caller)
    (h : (∃ task, (deprovision env caller instanceId s.tables).task=some task) ∨
      (deprovision env caller instanceId s.tables).acknowledges=true) :
    ∃ inst, Releases s (env, .request auth (.deprovision instanceId)) instanceId caller inst := by
  simp only [deprovision] at h
  split at h
  · simp [failure, Segment.acknowledges] at h
  · simp [failure, Segment.acknowledges] at h
  · next inst hget =>
    split at h
    · simp [failure, Segment.acknowledges] at h
    · next hpass =>
      exact ⟨inst, requested_eq hi _, Store.stored_of_getInstance hget, hpass⟩

theorem reconcileNext_task (pass : Pass) (ws : List Write) (list : List ServiceInstance)
    (results : List ReconcileResult) {task : Task}
    (h : (reconcileNext env pass ws list results).task=some task) : task.isTeardown=false := by
  induction list generalizing results with
  | nil => cases h
  | cons inst rest ih =>
    simp only [reconcileNext] at h
    split at h
    · cases h
      rfl
    · split at h
      · cases h
        rfl
      · exact ih _ h

theorem withBinding_task {caller : Caller} {instanceId : String} {absent : HttpError}
    {t : Tables} {done : ServiceInstance → String → Segment}
    (hd : ∀ inst tenantId, (done inst tenantId).task=none) :
    (withBinding env caller instanceId absent t done).task=none := by
  simp only [withBinding]
  split
  · rfl
  · rfl
  · split
    · rfl
    · split
      · rfl
      · exact hd _ _

theorem serve_teardown {auth : AuthHeader} {caller : Caller} {req : Request} {i : String}
    {inst : ServiceInstance} {c : Caller} {tenantId : String}
    (hi : stateChangeIdentify env.settings env.decode auth=.ok caller)
    (h : (serve env caller s.tables req).task=some (.teardown i inst c tenantId)) :
    ∃ x, Releases s (env, .request auth req) i caller x := by
  cases req with
  | provision instanceId req acceptsIncomplete =>
    simp only [serve, provision] at h
    split at h
    · cases h
    · cases h
    · split at h
      · cases h
      · split at h
        · cases h
        · cases h
  | update instanceId req =>
    simp only [serve, update] at h
    split at h
    · cases h
    · cases h
    · split at h
      · cases h
      · split at h
        · cases h
        · cases h
  | deprovision instanceId =>
    have hid : instanceId=i := by
      have h' := h
      simp only [serve, deprovision] at h'
      split at h'
      · cases h'
      · cases h'
      · split at h'
        · cases h'
        · split at h'
          · simp only [deleteRecord] at h'
            split at h' <;> cases h'
          · cases h'
            rfl
    subst hid
    exact deprovision_passed hi (Or.inl ⟨_, h⟩)
  | bind instanceId bindingId req =>
    have hnone : (bind env caller instanceId bindingId req s.tables).task=none :=
      withBinding_task fun _ _ => rfl
    simp only [serve] at h
    rw [hnone] at h
    cases h
  | unbind instanceId bindingId =>
    have hnone : (unbind env caller instanceId bindingId s.tables).task=none :=
      withBinding_task fun _ _ => rfl
    simp only [serve] at h
    rw [hnone] at h
    cases h
  | reconcile instanceId limit =>
    have hnone := fun results list task (ht : (reconcileNext env results [] list []).task=some task) =>
      reconcileNext_task _ _ _ _ ht
    simp only [serve, reconcile, startPass] at h
    split at h
    · split at h
      · split at h
        · cases h
        · exact absurd (hnone _ _ _ h) (by simp [Task.isTeardown])
      · exact absurd (hnone _ _ _ h) (by simp [Task.isTeardown])
    · cases h

theorem resume_task {task next : Task} {outcome : Outcome} {seg : Segment}
    (h : task.resume env outcome=some seg) (ht : seg.task=some next) : next.isTeardown=false := by
  cases resumed_of_resume h with
  | provision inst caller tenantId background result => cases ht
  | update inst caller tenantId result =>
    have hnone : (updateRendered env inst caller tenantId result).task=none := by
      cases result with
      | error fault =>
        simp only [updateRendered]
        split <;> rfl
      | ok artifact =>
        simp only [updateRendered]
        split
        · rfl
        · split <;> rfl
    rw [hnone] at ht
    cases ht
  | teardown instanceId inst caller tenantId result =>
    simp only [deprovisionTornDown, deleteRecord] at ht
    split at ht <;> cases ht
  | diff inst pass result =>
    simp only [diffed] at ht
    split at ht
    · cases ht
      rfl
    · exact reconcileNext_task _ _ _ _ ht
  | abandoned inst pass => cases ht
  | reconcile inst pass result => exact reconcileNext_task _ _ _ _ ht

end Teardowns

def TeardownsReleased (hash : String → Nat) (as : List (Env × Event)) (s : State) : Prop :=
  ∀ p∈s.tasks, ∀ i inst caller tenantId, p.2=.teardown i inst caller tenantId →
    ReleasedIn hash as i

theorem teardowns_step {hash : String → Nat} {as : List (Env × Event)} (a : Env × Event)
    (h : TeardownsReleased hash as (Trace.exec (step hash) {} as)) :
    TeardownsReleased hash (as++[a]) (step hash (Trace.exec (step hash) {} as) a) := by
  intro p hp i inst caller tenantId ht
  cases hseg : segment a.1 (Trace.exec (step hash) {} as) a.2 with
  | none =>
    rw [step, hseg] at hp
    exact (h p hp i inst caller tenantId ht).later a
  | some r =>
    obtain ⟨resumed, seg⟩ := r
    rw [step_segment hseg] at hp
    cases mem_tasks_run hp with
    | inl hp => exact (h p hp i inst caller tenantId ht).later a
    | inr hleft =>
      obtain ⟨env, event⟩ := a
      rw [ht] at hleft
      cases event with
      | request auth req =>
        simp only [segment] at hseg
        split at hseg
        · cases hseg
          cases hleft
        · next hi =>
          cases hseg
          obtain ⟨x, hx⟩ := serve_teardown hi hleft
          exact ⟨as, _, [], _, x, rfl, hx⟩
      | tick =>
        cases hseg
        exact absurd (reconcileNext_task _ _ _ _ hleft) (by simp [Task.isTeardown])
      | resume id outcome =>
        obtain ⟨seg', hb, he⟩ := Option.map_eq_some_iff.mp hseg
        obtain ⟨task, hl, hres⟩ := Option.bind_eq_some_iff.mp hb
        cases he
        exact absurd (resume_task hres hleft) (by simp [Task.isTeardown])

theorem teardowns_run (hash : String → Nat) (as : List (Env × Event)) :
    TeardownsReleased hash as (Trace.exec (step hash) {} as) := by
  have hstart : TeardownsReleased hash [] {} := fun p hp => by cases hp
  refine (Trace.exec_history (fun pre s => s=Trace.exec (step hash) {} pre ∧
    TeardownsReleased hash pre s) ?_ ⟨rfl, hstart⟩ as).2
  intro pre s a hI
  obtain ⟨rfl, h⟩ := hI
  exact ⟨by rw [Trace.exec_append]; rfl, teardowns_step a h⟩

theorem rows_wellFormed (hash : String → Nat) (as : List (Env × Event)) :
    Store.WellFormed (Trace.exec (step hash) {} as).tables.rows :=
  Trace.Along.invariant (fun s : State => Store.WellFormed s.tables.rows) (fun _ => True)
    (fun _ a _ h _ => step_wellFormed hash h a) Store.WellFormed.nil (fun _ _ => trivial)
    (Trace.Along.of_true _ as)

/-- Over every run, a step after which a stored record is gone acknowledges a deprovision of the
instance, and a caller whom RBAC let pass at the record's tenant had asked for it, at that step or
at an earlier one. -/
theorem removal_mediated (hash : String → Nat) (as : List (Env × Event)) (a : Env × Event)
    (instanceId : String)
    (hbefore : Store.stored (Trace.exec (step hash) {} as).tables.rows instanceId≠none)
    (hafter : Store.stored (Trace.exec (step hash) {} (as++[a])).tables.rows instanceId=none) :
    deprovisioned (Trace.exec (step hash) {} as) a=some instanceId ∧
      ReleasedIn hash (as++[a]) instanceId := by
  have hw := rows_wellFormed hash as
  have hlast : Trace.exec (step hash) {} (as++[a])=step hash (Trace.exec (step hash) {} as) a := by
    rw [Trace.exec_append]
    rfl
  rw [hlast] at hafter
  have hd : deprovisioned (Trace.exec (step hash) {} as) a=some instanceId := by
    cases step_kind hash hw a with
    | quiet _ _ _ _ effect =>
      obtain he | ⟨x, _, hx, _⟩ := effect.table instanceId
      · exact absurd (he.symm.trans hafter) hbefore
      · exact absurd (hx.symm.trans hafter) (by simp)
    | create c _ _ _ _ effect =>
      by_cases he : instanceId=c.record.instanceId
      · rw [he] at hafter
        exact absurd (effect.same.symm.trans hafter) (by simp)
      · exact absurd ((effect.other instanceId he).symm.trans hafter) hbefore
    | update inst req _ _ _ _ _ effect =>
      by_cases he : instanceId=(updatedRecord inst req).instanceId
      · rw [he] at hafter
        exact absurd (effect.same.symm.trans hafter) (by simp)
      · exact absurd ((effect.other instanceId he).symm.trans hafter) hbefore
    | delete i _ _ hdep _ effect =>
      by_cases he : instanceId=i
      · rw [he]
        exact hdep
      · exact absurd ((effect.other instanceId he).symm.trans hafter) hbefore
  refine ⟨hd, ?_⟩
  obtain ⟨env, event⟩ := a
  simp only [deprovisioned] at hd
  split at hd
  · next hack =>
    cases event with
    | request auth req =>
      cases req with
      | deprovision i =>
        cases hd
        simp only [segment] at hack
        split at hack
        · simp [failure, Segment.acknowledges] at hack
        · next hi =>
          obtain ⟨inst, hinst⟩ := deprovision_passed hi (Or.inr hack)
          exact ⟨as, _, [], _, inst, rfl, hinst⟩
      | provision i r b => cases hd
      | update i r => cases hd
      | bind i b r => cases hd
      | unbind i b => cases hd
      | reconcile i n => cases hd
    | tick => cases hd
    | resume id outcome =>
      simp only at hd
      split at hd
      · next i inst caller tenantId hl =>
        cases hd
        exact (teardowns_run hash as _ (mem_tasks_of_lookup hl) instanceId inst caller tenantId rfl).later _
      · cases hd
  · cases hd

def leavingRun : List (Env × Event) :=
  [provisionEvent, .resume 0 (.rendered (.ok [])), .request operator (.deprovision "lb-1")].map
    fun e => (sampleEnv, e)

def tornDownEvent : Env × Event := (sampleEnv, .resume 2 (.tornDown (.error "unreachable")))

theorem removal_mediated_leaving :
    Store.stored (Trace.exec (step fun _ => 0) {} leavingRun).tables.rows "lb-1"≠none ∧
      Store.stored (Trace.exec (step fun _ => 0) {} (leavingRun++[tornDownEvent])).tables.rows
        "lb-1"=none ∧
      deprovisioned (Trace.exec (step fun _ => 0) {} leavingRun) tornDownEvent=some "lb-1" ∧
      ReleasedIn (fun _ => 0) (leavingRun++[tornDownEvent]) "lb-1" := by
  have hbefore : (Store.stored (Trace.exec (step fun _ => 0) {} leavingRun).tables.rows
      "lb-1").isSome=true := by decide +kernel
  have hafter : (Store.stored (Trace.exec (step fun _ => 0) {}
      (leavingRun++[tornDownEvent])).tables.rows "lb-1").isNone=true := by decide +kernel
  have hb := Option.isSome_iff_ne_none.mp hbefore
  have ha := Option.isNone_iff_eq_none.mp hafter
  exact ⟨hb, ha, removal_mediated (fun _ => 0) leavingRun tornDownEvent "lb-1" hb ha⟩

end Sovereign.Broker
