import Sovereign.SideTables
import Sovereign.Interleaving

/-! The audit trail and the usage ledger. Over every run each record of the trail is attributed to
the reconciler or to a caller who was identified before, and the ledger of usage is what the
trail says was provisioned. -/
namespace Sovereign.Broker
open Sovereign Policy Renderers

/-- What the trail and the ledger both keep of a provision. -/
structure Entry where
  tenantId : String
  resourceId : String
  service : Json
  plan : Json
deriving DecidableEq

def ledgerEntry (r : UsageRecord) : Entry :=
  { tenantId := r.tenantId, resourceId := r.resourceId
    service := (Json.lookup "service_type" r.metadata).getD .null
    plan := (Json.lookup "plan_id" r.metadata).getD .null }

def AuditRecord.entry (r : AuditRecord) : Option Entry :=
  if r.action="instance.provisioned" then
    some { tenantId := r.tenantId, resourceId := r.resource
           service := (Json.lookup "service_id" r.metadata).getD .null
           plan := (Json.lookup "plan_id" r.metadata).getD .null }
  else none

def ledgerOf : Write → Option Entry
  | .meter r => some (ledgerEntry r)
  | _ => none

def Write.record : Write → Option AuditRecord
  | .audit r => some r
  | _ => none

def trailOf : Write → Option Entry
  | .audit r => AuditRecord.entry r
  | _ => none

def Write.reportedBy (caller : Caller) : Write → Prop
  | .audit r => r.actor=caller.user.principal ∧ AuditRecord.entry r=none
  | .meter _ => False
  | _ => True

def Gate.reportedBy (g : Gate) (caller : Caller) : Prop :=
  ∀ r∈g.audits, r.actor=caller.user.principal ∧ AuditRecord.entry r=none

section Gates
variable {caller : Caller} {env : Env}

theorem reportedBy_andThen {g h : Gate} (hg : Gate.reportedBy g caller)
    (hh : Gate.reportedBy h caller) : Gate.reportedBy (g.andThen h) caller := by
  rw [Gate.andThen]
  split
  · exact hg
  · intro r hr
    cases List.mem_append.mp hr with
    | inl hr => exact hg r hr
    | inr hr => exact hh r hr

theorem reportedBy_one {r : AuditRecord} (hactor : r.actor=caller.user.principal)
    (haction : r.action≠"instance.provisioned") (raised : Option HttpError) :
    Gate.reportedBy { audits := [r], raised } caller := by
  intro r' hr
  rw [List.mem_singleton.mp hr]
  exact ⟨hactor, if_neg haction⟩

theorem reportedBy_none (raised : Option HttpError) :
    Gate.reportedBy { audits := [], raised } caller := fun _ hr => by cases hr

theorem enforceRbac_reportedBy (s : Settings) (d : Directory) (tenantId : String)
    (action : Action) : Gate.reportedBy (enforceRbac s d caller tenantId action) caller := by
  simp only [enforceRbac]
  split
  · exact reportedBy_none none
  · split
    · exact reportedBy_none none
    · exact reportedBy_one rfl (by simp) _

theorem checkQuota_reportedBy (host : Quotas.Host String) (quotas : List Quotas.Quota)
    (usage : List UsageRecord) (tenantId serviceType : String) (pack : Option String) :
    Gate.reportedBy (Quotas.checkQuota host quotas usage tenantId caller serviceType pack)
      caller := by
  simp only [Quotas.checkQuota]
  split
  · exact reportedBy_none none
  · exact reportedBy_one rfl (by simp) _

theorem enforceObligations_reportedBy (handlers : String → Option HandlerOutcome)
    (instanceId serviceType tenantId action : String) (obs : List String) : Gate.reportedBy
      (enforceObligations handlers caller instanceId serviceType tenantId action obs) caller := by
  induction obs with
  | nil => exact reportedBy_none none
  | cons ob rest ih =>
    simp only [enforceObligations]
    split
    · exact reportedBy_andThen (reportedBy_one rfl (by simp) none) ih
    · exact reportedBy_one rfl (by simp) _

theorem evaluatePolicy_reportedBy (policy : Json → PolicyDecision)
    (handlers : String → Option HandlerOutcome) (tenant : Option Tenant)
    (instanceId serviceType planId : String) (parameters : List (String × Json))
    (tenantId action : String) : Gate.reportedBy (evaluatePolicy policy handlers caller tenant
      instanceId serviceType planId parameters tenantId action) caller :=
  reportedBy_andThen (reportedBy_one rfl (by simp) _) (enforceObligations_reportedBy _ _ _ _ _ _)

theorem provisionGates_reportedBy (tenantId instanceId : String) (req : ProvisionRequest)
    (usage : List UsageRecord) :
    Gate.reportedBy (provisionGates env caller tenantId instanceId req usage) caller := by
  refine reportedBy_andThen (reportedBy_andThen (enforceRbac_reportedBy _ _ _ _) ?_)
    (evaluatePolicy_reportedBy _ _ _ _ _ _ _ _ _)
  split
  · exact reportedBy_none _
  · exact checkQuota_reportedBy _ _ _ _ _ _

theorem updateGates_reportedBy (tenantId : String) (inst : ServiceInstance) (instanceId : String)
    (req : UpdateRequest) :
    Gate.reportedBy (updateGates env caller tenantId inst instanceId req) caller :=
  reportedBy_andThen (enforceRbac_reportedBy _ _ _ _) (evaluatePolicy_reportedBy _ _ _ _ _ _ _ _ _)

end Gates

def Task.caller : Task → Caller
  | .provision _ caller _ _ => caller
  | .update _ caller _ => caller
  | .teardown _ _ caller _ => caller
  | .diff _ _ => systemReconciler
  | .reconcile _ _ => systemReconciler

structure Segment.ReportedBy (caller : Caller) (seg : Segment) : Prop where
  writes : ∀ w∈seg.writes, w.reportedBy caller
  task : ∀ task∈seg.task, task.caller=caller

section Segments
variable {caller : Caller} {env : Env}

theorem reported_append {ws vs : List Write} (h : ∀ w∈ws, w.reportedBy caller)
    (h' : ∀ w∈vs, w.reportedBy caller) : ∀ w∈ws++vs, w.reportedBy caller := by
  intro w hw
  cases List.mem_append.mp hw with
  | inl hw => exact h w hw
  | inr hw => exact h' w hw

theorem reported_audits {g : Gate} (h : Gate.reportedBy g caller) :
    ∀ w∈g.audits.map Write.audit, w.reportedBy caller := by
  intro w hw
  obtain ⟨r, hr, rfl⟩ := List.mem_map.mp hw
  exact h r hr

theorem reported_put (inst : ServiceInstance) : ∀ w∈[Write.put inst], w.reportedBy caller := by
  intro w hw
  rw [List.mem_singleton.mp hw]
  trivial

theorem reported_putOr (inst : ServiceInstance) : ∀ w∈putOr env inst, w.reportedBy caller := by
  rw [putOr]
  split
  · exact fun w hw => by cases hw
  · exact reported_put inst

theorem reported_audit {r : AuditRecord} (hactor : r.actor=caller.user.principal)
    (haction : r.action≠"instance.provisioned") : ∀ w∈[Write.audit r], w.reportedBy caller := by
  intro w hw
  rw [List.mem_singleton.mp hw]
  exact ⟨hactor, if_neg haction⟩

theorem reported_done {ws : List Write} {r : Option (Except HttpError Reply)}
    (h : ∀ w∈ws, w.reportedBy caller) :
    Segment.ReportedBy caller { writes := ws, reply := r } :=
  ⟨h, fun _ ht => by cases ht⟩

theorem reported_failure {ws : List Write} (e : HttpError) (h : ∀ w∈ws, w.reportedBy caller) :
    (failure ws e).ReportedBy caller := reported_done h

theorem reported_refusal (e : HttpError) : (failure [] e).ReportedBy caller :=
  reported_failure e fun _ hw => by cases hw

theorem reported_left {ws : List Write} {r : Option (Except HttpError Reply)} {task : Task}
    (h : ∀ w∈ws, w.reportedBy caller) (ht : task.caller=caller) :
    Segment.ReportedBy caller { writes := ws, reply := r, task := some task } :=
  ⟨h, fun task' h' => by cases h'; exact ht⟩

theorem provision_reported (instanceId : String) (req : ProvisionRequest)
    (acceptsIncomplete : Bool) (t : Tables) :
    (provision env caller instanceId req acceptsIncomplete t).ReportedBy caller := by
  have hgates : ∀ w∈(provisionGates env caller (resolveTenantId caller req.organizationGuid)
      instanceId req t.usage).audits.map Write.audit, w.reportedBy caller :=
    reported_audits (provisionGates_reportedBy _ _ _ _)
  simp only [provision]
  split
  · exact reported_refusal _
  · exact reported_done fun _ hw => by cases hw
  · split
    · exact reported_failure _ hgates
    · split
      · exact reported_failure _ hgates
      · exact reported_left (reported_append hgates (reported_put _)) rfl

theorem update_reported (instanceId : String) (req : UpdateRequest) (t : Tables) :
    (update env caller instanceId req t).ReportedBy caller := by
  simp only [update]
  split
  · exact reported_refusal _
  · exact reported_refusal _
  · next inst _ =>
    have hgates : ∀ w∈(updateGates env caller (resolveTenantId caller inst.organizationGuid)
        inst instanceId req).audits.map Write.audit, w.reportedBy caller :=
      reported_audits (updateGates_reportedBy _ _ _ _)
    split
    · exact reported_failure _ hgates
    · split
      · exact reported_failure _ hgates
      · exact reported_left (reported_append hgates (reported_put _)) rfl

theorem deleteRecord_reported (instanceId tenantId : String) {ws : List Write}
    (h : ∀ w∈ws, w.reportedBy caller) :
    (deleteRecord env instanceId caller tenantId ws).ReportedBy caller := by
  rw [deleteRecord]
  split
  · exact reported_failure _ h
  · refine reported_done (reported_append h fun w hw => ?_)
    obtain rfl | hw := List.mem_cons.mp hw
    · trivial
    · exact reported_audit rfl (by simp) w hw

theorem deprovision_reported (instanceId : String) (t : Tables) :
    (deprovision env caller instanceId t).ReportedBy caller := by
  simp only [deprovision]
  split
  · exact reported_refusal _
  · exact reported_refusal _
  · split
    · exact reported_failure _ (reported_audits (enforceRbac_reportedBy _ _ _ _))
    · split
      · exact deleteRecord_reported _ _ (reported_append
          (reported_audits (enforceRbac_reportedBy _ _ _ _)) (reported_audit rfl (by simp [teardownSkipped])))
      · exact reported_left (reported_audits (enforceRbac_reportedBy _ _ _ _)) rfl

theorem withBinding_reported (instanceId : String) (absent : HttpError) (t : Tables)
    {done : ServiceInstance → String → Segment}
    (h : ∀ inst tenantId, (done inst tenantId).ReportedBy caller) :
    (withBinding env caller instanceId absent t done).ReportedBy caller := by
  simp only [withBinding]
  split
  · exact reported_refusal _
  · exact reported_refusal _
  · split
    · exact reported_failure _ (reported_audits (enforceRbac_reportedBy _ _ _ _))
    · split
      · exact reported_refusal _
      · exact h _ _

theorem reconcileNext_reported (pass : Pass) {ws : List Write} (list : List ServiceInstance)
    (results : List ReconcileResult) (h : ∀ w∈ws, w.reportedBy systemReconciler) :
    (reconcileNext env pass ws list results).ReportedBy systemReconciler := by
  induction list generalizing results with
  | nil => exact reported_done h
  | cons inst rest ih =>
    simp only [reconcileNext]
    split
    · exact reported_left h rfl
    · split
      · exact reported_left (reported_append h (reported_putOr _)) rfl
      · exact ih _

theorem startPass_reported (refreshDrift manual : Bool) (list : List ServiceInstance) :
    (startPass env refreshDrift manual list).ReportedBy systemReconciler :=
  reconcileNext_reported _ list [] fun _ hw => by cases hw

theorem reconcile_reported (caller' : Caller) (instanceId : Option String) (limit : Int)
    (t : Tables) : (reconcile env caller' instanceId limit t).ReportedBy systemReconciler := by
  simp only [reconcile]
  split
  · split
    · split
      · exact reported_refusal _
      · exact startPass_reported _ _ _
    · exact startPass_reported _ _ _
  · exact reported_refusal _

/-- A request is reported in its caller's name, a reconcile in the reconciler's. -/
theorem serve_reported (caller : Caller) (t : Tables) (req : Request) :
    (serve env caller t req).ReportedBy caller ∨
      (serve env caller t req).ReportedBy systemReconciler := by
  cases req with
  | provision instanceId req acceptsIncomplete => exact .inl (provision_reported _ _ _ _)
  | update instanceId req => exact .inl (update_reported _ _ _)
  | deprovision instanceId => exact .inl (deprovision_reported _ _)
  | bind instanceId bindingId req =>
    refine .inl (withBinding_reported _ _ _ fun inst tenantId => reported_done fun w hw => ?_)
    obtain rfl | hw := List.mem_cons.mp hw
    · trivial
    · exact reported_audit rfl (by simp) w hw
  | unbind instanceId bindingId =>
    refine .inl (withBinding_reported _ _ _ fun inst tenantId => reported_done fun w hw => ?_)
    obtain rfl | hw := List.mem_cons.mp hw
    · trivial
    · exact reported_audit rfl (by simp) w hw
  | reconcile instanceId limit => exact .inr (reconcile_reported _ _ _ _)

end Segments

/-- What a segment puts down: its audit records and the handler it leaves are of one caller, and
the usage it records is of the provisions it tells of, all of them unless metering fails. -/
structure Segment.Books (env : Env) (caller : Caller) (seg : Segment) : Prop where
  actors : ∀ r, Write.audit r∈seg.writes → r.actor=caller.user.principal
  task : ∀ task∈seg.task, task.caller=caller
  told : (seg.writes.filterMap ledgerOf).Sublist (seg.writes.filterMap trailOf)
  metered : env.faults.metering=false →
    seg.writes.filterMap ledgerOf=seg.writes.filterMap trailOf

section Answers
variable {caller : Caller} {env : Env}

theorem reported_empty {ws : List Write} (h : ∀ w∈ws, w.reportedBy caller) :
    ws.filterMap ledgerOf=[] ∧ ws.filterMap trailOf=[] := by
  constructor
  · refine List.filterMap_eq_nil_iff.mpr fun w hw => ?_
    cases w with
    | meter r => exact (h _ hw).elim
    | audit r => rfl
    | put x => rfl
    | delete i => rfl
    | putBinding b => rfl
    | deleteBinding i => rfl
  · refine List.filterMap_eq_nil_iff.mpr fun w hw => ?_
    cases w with
    | audit r => exact (h _ hw).2
    | meter r => rfl
    | put x => rfl
    | delete i => rfl
    | putBinding b => rfl
    | deleteBinding i => rfl

theorem Segment.ReportedBy.books {seg : Segment} (h : seg.ReportedBy caller) :
    seg.Books env caller := by
  obtain ⟨hledger, htrail⟩ := reported_empty h.writes
  refine ⟨fun r hr => (h.writes _ hr).1, h.task, ?_, fun _ => ?_⟩
  · rw [hledger]
    exact List.nil_sublist _
  · rw [hledger, htrail]

theorem finalizeProvision_reported (inst : ServiceInstance) (tenantId : String)
    {auditAction : String} (haction : auditAction≠"instance.provisioned")
    (result : Except RenderFault Artifact) :
    ∀ w∈(finalizeProvision env inst caller tenantId false auditAction result).writes,
      w.reportedBy caller := by
  cases result with
  | error fault => exact reported_append (reported_putOr _) (reported_audit rfl (by simp))
  | ok artifact =>
    simp only [finalizeProvision]
    split
    · exact fun w hw => by cases hw
    · split
      · exact fun w hw => by cases hw
      · exact reported_append (reported_append (reported_put _) fun w hw => by cases hw)
          (reported_audit rfl haction)

theorem provisionRendered_books (inst : ServiceInstance) (tenantId : String) (background : Bool)
    (result : Except RenderFault Artifact) :
    (provisionRendered env inst caller tenantId background result).Books env caller := by
  cases result with
  | error fault =>
    exact (reported_done (reported_append (reported_putOr _)
      (reported_audit rfl (by simp)))).books
  | ok artifact =>
    simp only [provisionRendered, finalizeProvision]
    split
    · exact (reported_done fun w hw => by cases hw).books
    · next x hx =>
      split
      · exact (reported_done fun w hw => by cases hw).books
      · split
        · exact (reported_done (reported_put x)).books
        · refine ⟨?_, (fun _ h => by cases h), ?_, ?_⟩
          · intro r hr
            cases hm : env.faults.metering <;> simp [hm] at hr <;> rw [hr]
          · cases hm : env.faults.metering <;>
              simp [List.filterMap_cons, ledgerOf, trailOf, ledgerEntry, AuditRecord.entry,
                usageRecord, Json.lookup]
          · intro hm
            simp [List.filterMap_cons, hm, ledgerOf, trailOf, ledgerEntry,
              AuditRecord.entry, usageRecord, Json.lookup]

theorem updateRendered_reported (inst : ServiceInstance) (tenantId : String)
    (result : Except RenderFault Artifact) :
    (updateRendered env inst caller tenantId result).ReportedBy caller := by
  cases result with
  | error fault =>
    simp only [updateRendered]
    split
    · exact reported_refusal _
    · exact reported_failure _ (reported_put _)
  | ok artifact =>
    simp only [updateRendered]
    split
    · exact reported_refusal _
    · split
      · exact reported_refusal _
      · refine reported_done fun w hw => ?_
        obtain rfl | hw := List.mem_cons.mp hw
        · trivial
        · exact reported_audit rfl (by simp) w hw

theorem teardownRecord_reported (inst : ServiceInstance) (tenantId : String)
    (result : Except String TeardownResult) :
    ∀ w∈[Write.audit (teardownRecord inst caller tenantId result)], w.reportedBy caller := by
  cases result with
  | error e => exact reported_audit rfl (by simp [teardownRecord])
  | ok r =>
    refine reported_audit rfl ?_
    cases hr : r.ok <;> simp [teardownRecord, hr]

theorem diffed_reported (inst : ServiceInstance) (pass : Pass) (result : Option Artifact) :
    (diffed env inst pass result).ReportedBy systemReconciler := by
  have hrefreshed : ∀ w∈((refreshedDrift inst result).map (putOr env)).getD [],
      w.reportedBy systemReconciler := by
    cases refreshedDrift inst result with
    | none => exact fun w hw => by cases hw
    | some x => exact reported_putOr x
  simp only [diffed]
  split
  · exact reported_left (reported_append hrefreshed (reported_putOr _)) rfl
  · exact reconcileNext_reported _ _ _ hrefreshed

theorem reconcileRendered_reported (inst : ServiceInstance) (pass : Pass)
    (result : Except RenderFault Artifact) :
    (reconcileRendered env inst pass result).ReportedBy systemReconciler :=
  reconcileNext_reported _ _ _ (finalizeProvision_reported inst _ (by simp) result)

theorem resume_books {task : Task} {outcome : Outcome} {seg : Segment}
    (h : task.resume env outcome=some seg) : seg.Books env task.caller := by
  cases resumed_of_resume h with
  | provision inst caller tenantId background result =>
    exact provisionRendered_books inst tenantId background result
  | update inst caller tenantId result => exact (updateRendered_reported inst tenantId result).books
  | teardown instanceId inst caller tenantId result =>
    exact (deleteRecord_reported _ _ (teardownRecord_reported inst tenantId result)).books
  | diff inst pass result => exact (diffed_reported inst pass result).books
  | abandoned inst pass => exact (reported_done fun w hw => by cases hw).books
  | reconcile inst pass result => exact (reconcileRendered_reported inst pass result).books

end Answers

def Known (as : List (Env × Event)) (caller : Caller) : Prop :=
  caller=systemReconciler ∨ ∃ a∈as, ∃ auth req, a.2=.request auth req ∧
    stateChangeIdentify a.1.settings a.1.decode auth=.ok caller

theorem Known.later {as : List (Env × Event)} {caller : Caller} (h : Known as caller)
    (a : Env × Event) : Known (as++[a]) caller := by
  obtain rfl | ⟨b, hb, h⟩ := h
  · exact .inl rfl
  · exact .inr ⟨b, List.mem_append_left _ hb, h⟩

section Writes
variable (hash : String → Nat)

theorem audits_foldl (ws : List Write) (t : Tables) :
    (ws.foldl (Write.apply hash) t).audits=t.audits++ws.filterMap Write.record := by
  induction ws generalizing t with
  | nil => simp
  | cons w ws ih =>
    rw [List.foldl_cons, ih]
    cases w <;> simp [Write.apply, Write.record, List.filterMap_cons]

theorem mem_audits_foldl {ws : List Write} {t : Tables} {r : AuditRecord} :
    r∈(ws.foldl (Write.apply hash) t).audits ↔ r∈t.audits ∨ Write.audit r∈ws := by
  rw [audits_foldl, List.mem_append, List.mem_filterMap]
  refine or_congr_right ⟨?_, fun h => ⟨_, h, rfl⟩⟩
  rintro ⟨w, hw, he⟩
  cases w with
  | audit r' =>
    cases he
    exact hw
  | put x => cases he
  | delete i => cases he
  | putBinding b => cases he
  | deleteBinding i => cases he
  | meter u => cases he

theorem trail_foldl (ws : List Write) (t : Tables) :
    (ws.foldl (Write.apply hash) t).audits.filterMap AuditRecord.entry=
      t.audits.filterMap AuditRecord.entry ++ ws.filterMap trailOf := by
  induction ws generalizing t with
  | nil => simp
  | cons w ws ih =>
    rw [List.foldl_cons, ih]
    cases w with
    | audit r => cases hr : AuditRecord.entry r <;> simp [Write.apply, trailOf, hr]
    | put x => rfl
    | delete i => rfl
    | putBinding b => rfl
    | deleteBinding i => rfl
    | meter u => rfl

theorem ledger_foldl (ws : List Write) (t : Tables) :
    (ws.foldl (Write.apply hash) t).usage.reverse.map ledgerEntry=
      t.usage.reverse.map ledgerEntry ++ ws.filterMap ledgerOf := by
  induction ws generalizing t with
  | nil => simp
  | cons w ws ih =>
    rw [List.foldl_cons, ih]
    cases w with
    | meter r => simp [Write.apply, ledgerOf]
    | audit r => rfl
    | put x => rfl
    | delete i => rfl
    | putBinding b => rfl
    | deleteBinding i => rfl

end Writes

/-- The books of a state that the actions lead to. -/
structure State.Booked (as : List (Env × Event)) (s : State) : Prop where
  audits : ∀ r∈s.tables.audits, ∃ caller, Known as caller ∧ r.actor=caller.user.principal
  tasks : ∀ p∈s.tasks, Known as p.2.caller
  told : (s.tables.usage.reverse.map ledgerEntry).Sublist
    (s.tables.audits.filterMap AuditRecord.entry)

theorem State.Booked.start : ({} : State).Booked [] where
  audits := fun _ h => by cases h
  tasks := fun _ h => by cases h
  told := List.nil_sublist _

/-- What a step does is booked to a caller known by then. -/
theorem segment_books {as : List (Env × Event)} {s : State} (h : s.Booked as) {a : Env × Event}
    {resumed : Option Nat} {seg : Segment} (hseg : segment a.1 s a.2=some (resumed, seg)) :
    ∃ caller, Known (as++[a]) caller ∧ seg.Books a.1 caller := by
  obtain ⟨env, event⟩ := a
  cases event with
  | request auth req =>
    simp only [segment] at hseg
    split at hseg
    · cases hseg
      exact ⟨systemReconciler, .inl rfl, (reported_refusal _).books⟩
    · next caller hid =>
      cases hseg
      have hrep := @serve_reported env caller s.tables req
      cases hrep with
      | inl hrep =>
        exact ⟨caller, .inr ⟨_, List.mem_append_right _ (List.mem_singleton_self _), auth, req, rfl,
          hid⟩, hrep.books⟩
      | inr hrep => exact ⟨systemReconciler, .inl rfl, hrep.books⟩
  | tick =>
    cases hseg
    exact ⟨systemReconciler, .inl rfl, (startPass_reported _ _ _).books⟩
  | resume id outcome =>
    obtain ⟨seg', hseg', he⟩ := Option.map_eq_some_iff.mp hseg
    cases he
    obtain ⟨task, hlookup, hresume⟩ := Option.bind_eq_some_iff.mp hseg'
    obtain ⟨before, after, hs, _⟩ := List.lookup_eq_some_iff.mp hlookup
    have hmem : (id, task)∈s.tasks := by simp [hs]
    exact ⟨task.caller, (h.tasks _ hmem).later _, resume_books hresume⟩

theorem State.Booked.step {as : List (Env × Event)} {s : State} (h : s.Booked as)
    (hash : String → Nat) (a : Env × Event) : (step hash s a).Booked (as++[a]) := by
  rw [Broker.step]
  split
  · exact
      { audits := fun r hr => by
          obtain ⟨caller, hk, hactor⟩ := h.audits r hr
          exact ⟨caller, hk.later a, hactor⟩
        tasks := fun p hp => (h.tasks p hp).later a
        told := h.told }
  · next resumed seg hseg =>
    obtain ⟨caller, hknown, hbooks⟩ := segment_books h hseg
    refine ⟨fun r hr => ?_, fun p hp => ?_, ?_⟩
    · obtain hr | hr := (mem_audits_foldl hash).mp hr
      · obtain ⟨caller, hk, hactor⟩ := h.audits r hr
        exact ⟨caller, hk.later a, hactor⟩
      · exact ⟨caller, hknown, hbooks.actors r hr⟩
    · obtain hp | hp := List.mem_append.mp hp
      · refine (h.tasks p ?_).later a
        cases resumed with
        | none => exact hp
        | some id => exact (List.mem_filter.mp hp).1
      · obtain ⟨task, ht, rfl⟩ := List.mem_map.mp hp
        rw [hbooks.task task (Option.mem_toList.mp ht)]
        exact hknown
    · show ((seg.writes.foldl (Write.apply hash) s.tables).usage.reverse.map _).Sublist
        ((seg.writes.foldl (Write.apply hash) s.tables).audits.filterMap _)
      rw [ledger_foldl, trail_foldl]
      exact h.told.append hbooks.told

theorem metered_step (hash : String → Nat) {as : List (Env × Event)} {s : State} (h : s.Booked as)
    {a : Env × Event}
    (heq : s.tables.usage.reverse.map ledgerEntry=
      s.tables.audits.filterMap AuditRecord.entry) (hm : a.1.faults.metering=false) :
    (step hash s a).tables.usage.reverse.map ledgerEntry=
      (step hash s a).tables.audits.filterMap AuditRecord.entry := by
  rw [Broker.step]
  split
  · exact heq
  · next resumed seg hseg =>
    obtain ⟨caller, _, hbooks⟩ := segment_books h hseg
    show (seg.writes.foldl (Write.apply hash) s.tables).usage.reverse.map _=
      (seg.writes.foldl (Write.apply hash) s.tables).audits.filterMap _
    rw [ledger_foldl, trail_foldl, heq, hbooks.metered hm]

theorem audits_grow (hash : String → Nat) (s : State) (as : List (Env × Event)) :
    s.tables.audits<+:(Trace.exec (step hash) s as).tables.audits := by
  induction as generalizing s with
  | nil => exact List.prefix_rfl
  | cons a as ih =>
    refine List.IsPrefix.trans ?_ (ih (step hash s a))
    rw [Broker.step]
    split
    · exact List.prefix_rfl
    · exact ⟨_, (audits_foldl hash _ _).symm⟩

theorem booked_run (hash : String → Nat) (as : List (Env × Event)) :
    (Trace.exec (step hash) {} as).Booked as :=
  Trace.exec_history State.Booked (fun _ _ a h => h.step hash a) State.Booked.start as

/-- Records of the trail stay, each is in the name of the reconciler or of a caller whom a request
of the run was identified as before the record was written. -/
theorem attribution (hash : String → Nat) (as bs : List (Env × Event)) :
    (Trace.exec (step hash) {} as).tables.audits<+:
      (Trace.exec (step hash) {} (as++bs)).tables.audits ∧
    ∀ r∈(Trace.exec (step hash) {} as).tables.audits,
      ∃ caller, Known as caller ∧ r.actor=caller.user.principal := by
  refine ⟨?_, (booked_run hash as).audits⟩
  rw [Trace.exec_append]
  exact audits_grow hash _ bs

def emitted (s : State) (a : Env × Event) : List AuditRecord :=
  ((segment a.1 s a.2).map fun r => r.2.writes.filterMap Write.record).getD []

/-- Those that reach the audit service. -/
def posted (s : State) (a : Env × Event) : List AuditRecord :=
  (emitted s a).filter fun r => !a.1.faults.audit r

def delivered (hash : String → Nat) (as : List (Env × Event)) : List AuditRecord :=
  Trace.outputs (step hash) posted {} as

theorem audits_emitted (hash : String → Nat) (s : State) (as : List (Env × Event)) :
    (Trace.exec (step hash) s as).tables.audits =
      s.tables.audits++Trace.outputs (step hash) emitted s as := by
  induction as generalizing s with
  | nil => exact (List.append_nil _).symm
  | cons a as ih =>
    have hstep : (step hash s a).tables.audits=s.tables.audits++emitted s a := by
      rw [Broker.step, emitted]
      cases segment a.1 s a.2 with
      | none => exact (List.append_nil _).symm
      | some r => exact audits_foldl hash r.2.writes s.tables
    rw [Trace.exec, Trace.outputs, ih, hstep, List.append_assoc]

theorem delivered_sublist (hash : String → Nat) (as : List (Env × Event)) :
    (delivered hash as).Sublist (Trace.exec (step hash) {} as).tables.audits := by
  rw [audits_emitted]
  exact Trace.outputs_sublist (fun s a => List.filter_sublist) ({} : State) as

def Posts (s : State) (a : Env × Event) : Prop := ∀ r∈emitted s a, a.1.faults.audit r=false

instance (s : State) (a : Env × Event) : Decidable (Posts s a) :=
  List.decidableBAll (fun r => a.1.faults.audit r=false) (emitted s a)

theorem delivered_all (hash : String → Nat) {as : List (Env × Event)}
    (h : Trace.Along (step hash) Posts {} as) :
    delivered hash as=(Trace.exec (step hash) {} as).tables.audits := by
  rw [audits_emitted]
  refine Trace.outputs_congr (fun s a hp => ?_) h
  exact List.filter_eq_self.mpr fun r hr => by simp [hp r hr]

/-- The ledger of usage tells, in order, of provisions that the broker's audit records tell of,
and of all of them in a run in which no usage record is lost; what has reached the audit service
tells of some of them, and of all in a run in which no post of a record fails. -/
theorem ledger_matches_trail (hash : String → Nat) (as : List (Env × Event)) :
    ((Trace.exec (step hash) {} as).tables.usage.reverse.map ledgerEntry).Sublist
      ((Trace.exec (step hash) {} as).tables.audits.filterMap AuditRecord.entry) ∧
    ((delivered hash as).filterMap AuditRecord.entry).Sublist
      ((Trace.exec (step hash) {} as).tables.audits.filterMap AuditRecord.entry) ∧
    (Trace.Along (step hash) (fun _ a => a.1.faults.metering=false) {} as →
      (Trace.exec (step hash) {} as).tables.usage.reverse.map ledgerEntry=
        (Trace.exec (step hash) {} as).tables.audits.filterMap AuditRecord.entry) ∧
    (Trace.Along (step hash) Posts {} as →
      (delivered hash as).filterMap AuditRecord.entry=
        (Trace.exec (step hash) {} as).tables.audits.filterMap AuditRecord.entry) := by
  refine ⟨(booked_run hash as).told, (delivered_sublist hash as).filterMap _, fun hc => ?_,
    fun hp => congrArg _ (delivered_all hash hp)⟩
  have hinv := Trace.Along.invariant (fun s => ∃ pre, State.Booked pre s ∧
    s.tables.usage.reverse.map ledgerEntry=s.tables.audits.filterMap AuditRecord.entry)
    (fun _ => True) (fun s a _ h hm => ?_) ⟨[], State.Booked.start, rfl⟩ (fun _ _ => trivial) hc
  · exact hinv.choose_spec.2
  · obtain ⟨pre, hb, he⟩ := h
    exact ⟨pre++[a], hb.step hash a, metered_step hash hb he hm⟩

theorem ledger_matches_trail_quietExit :
    (Trace.exec (step fun _ => 0) {} quietExitRun).tables.usage.length=1 ∧
    (Trace.exec (step fun _ => 0) {} quietExitRun).tables.usage.reverse.map ledgerEntry=
      (Trace.exec (step fun _ => 0) {} quietExitRun).tables.audits.filterMap AuditRecord.entry ∧
    (delivered (fun _ => 0) quietExitRun).filterMap AuditRecord.entry=
      (Trace.exec (step fun _ => 0) {} quietExitRun).tables.audits.filterMap AuditRecord.entry := by
  obtain ⟨-, -, hmetered, hposted⟩ := ledger_matches_trail (fun _ => 0) quietExitRun
  exact ⟨by decide +kernel, hmetered (by decide +kernel), hposted (by decide +kernel)⟩

end Sovereign.Broker
