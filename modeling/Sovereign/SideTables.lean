import Sovereign.Steps

/-! What a step does beside the instance table: to the bindings, to the usage records and
to the provisions in flight. -/
namespace Sovereign.Broker
open Sovereign Policy Renderers

def Write.plain : Write → Bool
  | .put _ => true
  | .delete _ => true
  | .audit _ => true
  | _ => false

def Task.isProvision : Task → Bool
  | .provision _ _ _ _ => true
  | _ => false

structure Segment.Plain (seg : Segment) : Prop where
  writes : ∀ w∈seg.writes, w.plain=true
  task : ∀ task∈seg.task, task.isProvision=false

section Plain
variable {env : Env}

theorem plain_append {ws vs : List Write} (h : ∀ w∈ws, w.plain=true)
    (h' : ∀ w∈vs, w.plain=true) : ∀ w∈ws++vs, w.plain=true := by
  intro w hw
  cases List.mem_append.mp hw with
  | inl hw => exact h w hw
  | inr hw => exact h' w hw

theorem plain_audits (audits : List AuditRecord) :
    ∀ w∈audits.map Write.audit, w.plain=true := by
  intro w hw
  obtain ⟨r, _, hr⟩ := List.mem_map.mp hw
  rw [← hr]
  rfl

theorem plain_putOr (inst : ServiceInstance) : ∀ w∈putOr env inst, w.plain=true := by
  intro w hw
  rw [putOr] at hw
  split at hw
  · cases hw
  · rw [List.mem_singleton.mp hw]
    rfl

theorem plain_done {ws : List Write} {r : Option (Except HttpError Reply)}
    (h : ∀ w∈ws, w.plain=true) : Segment.Plain { writes := ws, reply := r } :=
  ⟨h, by simp⟩

theorem plain_failure {ws : List Write} (e : HttpError) (h : ∀ w∈ws, w.plain=true) :
    (failure ws e).Plain := plain_done h

theorem plain_refusal (e : HttpError) : (failure [] e).Plain := plain_failure e (by simp)

/-- A finalize that is not to record usage, or that fails, writes no usage record. -/
theorem finalizeProvision_plain (inst : ServiceInstance) (caller : Caller) (tenantId : String)
    (recordUsage : Bool) (auditAction : String) (result : Except RenderFault Artifact)
    (h : recordUsage=false ∨ ∀ artifact, result=.ok artifact →
      appliedVersion inst artifact=none ∨ env.faults.put=true ∨ env.faults.catalog=true) :
    ∀ w∈(finalizeProvision env inst caller tenantId recordUsage auditAction result).writes,
      w.plain=true := by
  cases result with
  | error fault => exact plain_append (plain_putOr _) (by simp [Write.plain])
  | ok artifact =>
    simp only [finalizeProvision]
    split
    · simp
    · next x hx =>
      split
      · simp
      · next hp =>
        split
        · simp [Write.plain]
        · next hc =>
          have hrec : recordUsage=false := by
            obtain h | h := h
            · exact h
            · obtain ⟨version, hv, _⟩ := Option.map_eq_some_iff.mp hx
              have hv' : appliedVersion inst artifact=some version := hv
              obtain h | h | h := h artifact rfl
              · rw [h] at hv'
                cases hv'
              · exact absurd h hp
              · simpa [h] using hc
          simp [hrec, Write.plain]

theorem updateRendered_plain (inst : ServiceInstance) (caller : Caller) (tenantId : String)
    (result : Except RenderFault Artifact) :
    (updateRendered env inst caller tenantId result).Plain := by
  cases result with
  | error fault =>
    simp only [updateRendered]
    split
    · exact plain_refusal _
    · exact plain_failure _ (by simp [Write.plain])
  | ok artifact =>
    simp only [updateRendered]
    split
    · exact plain_refusal _
    · split
      · exact plain_refusal _
      · exact plain_done (by simp [Write.plain])

theorem update_plain (caller : Caller) (instanceId : String) (req : UpdateRequest) (t : Tables) :
    (update env caller instanceId req t).Plain := by
  simp only [update]
  split
  · exact plain_refusal _
  · exact plain_refusal _
  · split
    · exact plain_failure _ (plain_audits _)
    · split
      · exact plain_failure _ (plain_audits _)
      · exact ⟨plain_append (plain_audits _) (by simp [Write.plain]), by simp [Task.isProvision]⟩

theorem deleteRecord_plain (instanceId : String) (caller : Caller) (tenantId : String)
    {ws : List Write} (h : ∀ w∈ws, w.plain=true) :
    (deleteRecord env instanceId caller tenantId ws).Plain := by
  rw [deleteRecord]
  split
  · exact plain_failure _ h
  · exact plain_done (plain_append h (by simp [Write.plain]))

theorem deprovision_plain (caller : Caller) (instanceId : String) (t : Tables) :
    (deprovision env caller instanceId t).Plain := by
  simp only [deprovision]
  split
  · exact plain_refusal _
  · exact plain_refusal _
  · split
    · exact plain_failure _ (plain_audits _)
    · split
      · exact deleteRecord_plain _ _ _ (plain_append (plain_audits _) (by simp [Write.plain]))
      · exact ⟨plain_audits _, by simp [Task.isProvision]⟩

theorem reconcileNext_plain (pass : Pass) {ws : List Write} (list : List ServiceInstance)
    (results : List ReconcileResult) (h : ∀ w∈ws, w.plain=true) :
    (reconcileNext env pass ws list results).Plain := by
  induction list generalizing results with
  | nil => exact plain_done h
  | cons inst rest ih =>
    simp only [reconcileNext]
    split
    · exact ⟨h, by simp [Task.isProvision]⟩
    · split
      · exact ⟨plain_append h (plain_putOr _), by simp [Task.isProvision]⟩
      · exact ih _

theorem startPass_plain (refreshDrift manual : Bool) (list : List ServiceInstance) :
    (startPass env refreshDrift manual list).Plain :=
  reconcileNext_plain _ list [] (by simp)

theorem diffed_plain (inst : ServiceInstance) (pass : Pass) (result : Option Artifact) :
    (diffed env inst pass result).Plain := by
  have hw : ∀ w∈((refreshedDrift inst result).map (putOr env)).getD [], w.plain=true := by
    cases refreshedDrift inst result with
    | none => simp
    | some x => exact plain_putOr x
  simp only [diffed]
  split
  · exact ⟨plain_append hw (plain_putOr _), by simp [Task.isProvision]⟩
  · exact reconcileNext_plain pass _ _ hw

theorem reconcileRendered_plain (inst : ServiceInstance) (pass : Pass)
    (result : Except RenderFault Artifact) : (reconcileRendered env inst pass result).Plain :=
  reconcileNext_plain pass _ _
    (finalizeProvision_plain inst _ _ false _ result (Or.inl rfl))

theorem reconcile_plain (caller : Caller) (instanceId : Option String) (limit : Int)
    (t : Tables) : (reconcile env caller instanceId limit t).Plain := by
  simp only [reconcile]
  split
  · split
    · split
      · exact plain_refusal _
      · exact startPass_plain _ _ _
    · exact startPass_plain _ _ _
  · exact plain_refusal _

theorem provision_refused_plain {caller : Caller} {instanceId : String} {req : ProvisionRequest}
    {t : Tables} (acceptsIncomplete : Bool)
    (h : provisionAdmitted env caller instanceId req t=false) :
    (provision env caller instanceId req acceptsIncomplete t).Plain := by
  simp only [provisionAdmitted] at h
  simp only [provision]
  split
  · exact plain_refusal _
  · exact plain_done (by simp)
  · next hg =>
    simp only [hg] at h
    split
    · exact plain_failure _ (plain_audits _)
    · next hr =>
      have hp : env.faults.put=true := by simpa [hr] using h
      rw [if_pos hp]
      exact plain_failure _ (plain_audits _)

theorem provision_admitted_task {caller : Caller} {instanceId : String} {req : ProvisionRequest}
    {t : Tables} (acceptsIncomplete : Bool)
    (h : provisionAdmitted env caller instanceId req t=true) :
    (∀ w∈(provision env caller instanceId req acceptsIncomplete t).writes, w.plain=true) ∧
    (provision env caller instanceId req acceptsIncomplete t).task=some (.provision
      (provisionedRecord instanceId req env.now) caller (resolveTenantId caller req.organizationGuid)
      acceptsIncomplete) := by
  simp only [provisionAdmitted] at h
  split at h
  · next hg =>
    simp only [Bool.and_eq_true, Option.isNone_iff_eq_none, Bool.not_eq_true'] at h
    simp only [provision, hg, h.1, h.2]
    exact ⟨plain_append (plain_audits _) (by simp [Write.plain]), rfl⟩
  · cases h

end Plain

/-- A bind or unbind request finds the instance, passes its gate, and its write does not
fail. -/
def bindingAdmitted (env : Env) (caller : Caller) (instanceId : String) (t : Tables) : Bool :=
  match Store.getInstance env.faults.toStoreFaults t.rows instanceId with
  | .ok (some inst) =>
    (enforceRbac env.settings env.directory caller (resolveTenantId caller inst.organizationGuid)
      .bind).raised.isNone && !env.faults.put
  | _ => false

section Binding
variable {env : Env} {caller : Caller} {instanceId : String} {t : Tables} (absent : HttpError)
  (done : ServiceInstance → String → Segment)

theorem withBinding_admitted (h : bindingAdmitted env caller instanceId t=true) :
    ∃ inst tenantId, Store.stored t.rows instanceId=some inst ∧
      withBinding env caller instanceId absent t done=done inst tenantId := by
  simp only [bindingAdmitted] at h
  split at h
  · next inst hg =>
    simp only [Bool.and_eq_true, Option.isNone_iff_eq_none, Bool.not_eq_true'] at h
    refine ⟨inst, resolveTenantId caller inst.organizationGuid, Store.stored_of_getInstance hg, ?_⟩
    simp [withBinding, hg, h.1, h.2]
  · cases h

theorem withBinding_refused (h : bindingAdmitted env caller instanceId t=false) :
    (withBinding env caller instanceId absent t done).Plain := by
  simp only [bindingAdmitted] at h
  simp only [withBinding]
  split
  · exact plain_refusal _
  · exact plain_refusal _
  · next inst hg =>
    simp only [hg] at h
    split
    · exact plain_failure _ (plain_audits _)
    · next hr =>
      have hp : env.faults.put=true := by simpa [hr] using h
      rw [if_pos hp]
      exact plain_refusal _

theorem bind_refused (bindingId : String) (req : BindRequest)
    (h : bindingAdmitted env caller instanceId t=false) :
    (Broker.bind env caller instanceId bindingId req t).Plain := withBinding_refused _ _ h

theorem unbind_refused (bindingId : String) (h : bindingAdmitted env caller instanceId t=false) :
    (unbind env caller instanceId bindingId t).Plain := withBinding_refused _ _ h

theorem bind_effect (bindingId : String) (req : BindRequest)
    (h : bindingAdmitted env caller instanceId t=true) :
    ∃ (x : Binding) (record : AuditRecord), x.instanceId=instanceId ∧ x.bindingId=bindingId ∧
      (Broker.bind env caller instanceId bindingId req t).writes=[.putBinding x, .audit record] ∧
      (Broker.bind env caller instanceId bindingId req t).task=none := by
  rw [Broker.bind]
  obtain ⟨inst, tenantId, _, he⟩ := withBinding_admitted _ _ h
  rw [he]
  exact ⟨_, _, rfl, rfl, rfl, rfl⟩

theorem unbind_effect (bindingId : String) (h : bindingAdmitted env caller instanceId t=true) :
    ∃ record : AuditRecord, (unbind env caller instanceId bindingId t).writes =
        [.deleteBinding bindingId, .audit record] ∧
      (unbind env caller instanceId bindingId t).task=none := by
  rw [unbind]
  obtain ⟨inst, tenantId, _, he⟩ := withBinding_admitted _ _ h
  rw [he]
  exact ⟨_, rfl, rfl⟩

end Binding

/-- The step stores the outcome of a provision's successful render and reads the catalog
for its usage record: the record the provision waited with, and its tenant. -/
def finalized (s : State) (a : Env × Event) : Option (ServiceInstance × String) :=
  match a.2 with
  | .resume id (.rendered (.ok artifact)) =>
    match s.tasks.lookup id with
    | some (.provision inst _ tenantId _) =>
      if (appliedVersion inst artifact).isSome && !a.1.faults.put && !a.1.faults.catalog then
        some (inst, tenantId)
      else none
    | _ => none
  | _ => none

inductive Side (s : State) (a : Env × Event) : Prop where
  | stuck (eq : segment a.1 s a.2=none)
  | plain (resumed : Option Nat) (seg : Segment) (eq : segment a.1 s a.2=some (resumed, seg))
      (plain : seg.Plain) (created : created s a=none) (finalized : finalized s a=none)
  | provision (c : Creation) (background : Bool) (seg : Segment)
      (eq : segment a.1 s a.2=some (none, seg)) (created : created s a=some c)
      (writes : ∀ w∈seg.writes, w.plain=true)
      (task : seg.task=some (.provision c.record c.caller c.tenantId background))
  | bind (caller : Caller) (x : Binding) (req : BindRequest) (record : AuditRecord)
      (seg : Segment) (eq : segment a.1 s a.2=some (none, seg))
      (requested : requested a=some (caller, .bind x.instanceId x.bindingId req))
      (admitted : bindingAdmitted a.1 caller x.instanceId s.tables=true)
      (writes : seg.writes=[.putBinding x, .audit record]) (task : seg.task=none)
  | unbind (caller : Caller) (instanceId bindingId : String) (record : AuditRecord)
      (seg : Segment) (eq : segment a.1 s a.2=some (none, seg))
      (requested : requested a=some (caller, .unbind instanceId bindingId))
      (admitted : bindingAdmitted a.1 caller instanceId s.tables=true)
      (writes : seg.writes=[.deleteBinding bindingId, .audit record]) (task : seg.task=none)
  | finish (id : Nat) (inst x : ServiceInstance) (caller : Caller) (tenantId : String)
      (background : Bool) (record : AuditRecord) (seg : Segment)
      (eq : segment a.1 s a.2=some (some id, seg))
      (waiting : s.tasks.lookup id=some (.provision inst caller tenantId background))
      (finalized : finalized s a=some (inst, tenantId)) (touched : Touched inst x)
      (service : x.serviceId=inst.serviceId)
      (writes : seg.writes=[.put x] ++
        (if a.1.faults.metering then [] else [.meter (usageRecord a.1 x tenantId)]) ++
        [.audit record])
      (task : seg.task=none)

section Side
variable {s : State} {a : Env × Event}

theorem requested_event {caller : Caller} {req : Request} (h : requested a=some (caller, req)) :
    ∃ auth, a.2=.request auth req := by
  simp only [requested] at h
  split at h
  · next auth r he =>
    split at h
    · cases h
      exact ⟨auth, he⟩
    · cases h
  · cases h

theorem segment_requested {caller : Caller} {req : Request} (h : requested a=some (caller, req)) :
    segment a.1 s a.2=some (none, serve a.1 caller s.tables req) := by
  simp only [requested] at h
  split at h
  · next auth r he =>
    split at h
    · next hi =>
      cases h
      rw [he]
      exact segment_eq hi req
    · cases h
  · cases h

theorem side_request {env : Env} {auth : AuthHeader} (req : Request) :
    Side s (env, .request auth req) := by
  cases hi : stateChangeIdentify env.settings env.decode auth with
  | error e =>
    have hseg : segment env s (.request auth req)=some (none, failure [] e) := by
      simp only [segment, hi]
    have hr : requested (env, .request auth req)=none := by simp only [requested, hi]
    exact Side.plain none _ hseg (plain_refusal e) (by rw [created, hr]) rfl
  | ok caller =>
    have hr := requested_eq hi req
    have hseg := segment_eq (s := s) hi req
    cases req with
    | provision instanceId r b =>
      have hc : created s (env, .request auth (.provision instanceId r b)) =
          if provisionAdmitted env caller instanceId r s.tables then
            some ⟨caller, instanceId, r, env.now⟩
          else none := by
        rw [created, hr]
      cases ha : provisionAdmitted env caller instanceId r s.tables with
      | false =>
        refine Side.plain none _ hseg (provision_refused_plain b ha) ?_ rfl
        rw [hc, ha]
        rfl
      | true =>
        obtain ⟨hw, ht⟩ := provision_admitted_task b ha
        refine Side.provision ⟨caller, instanceId, r, env.now⟩ b _ hseg ?_ hw ht
        rw [hc, ha]
        rfl
    | update instanceId r =>
      exact Side.plain none _ hseg (update_plain caller instanceId r s.tables)
        (created_of_requested hr (by simp)) rfl
    | deprovision instanceId =>
      exact Side.plain none _ hseg (deprovision_plain caller instanceId s.tables)
        (created_of_requested hr (by simp)) rfl
    | bind instanceId b r =>
      cases ha : bindingAdmitted env caller instanceId s.tables with
      | false =>
        exact Side.plain none _ hseg (bind_refused b r ha)
          (created_of_requested hr (by simp)) rfl
      | true =>
        obtain ⟨x, record, hx, hb, hw, ht⟩ := bind_effect b r ha
        subst hx hb
        exact Side.bind caller x r record _ hseg hr ha hw ht
    | unbind instanceId b =>
      cases ha : bindingAdmitted env caller instanceId s.tables with
      | false =>
        exact Side.plain none _ hseg (unbind_refused b ha)
          (created_of_requested hr (by simp)) rfl
      | true =>
        obtain ⟨record, hw, ht⟩ := unbind_effect b ha
        exact Side.unbind caller instanceId b record _ hseg hr ha hw ht
    | reconcile instanceId limit =>
      exact Side.plain none _ hseg (reconcile_plain caller instanceId limit s.tables)
        (created_of_requested hr (by simp)) rfl

theorem finalized_other {env : Env} {id : Nat} {outcome : Outcome} {task : Task}
    (ht : s.tasks.lookup id=some task) (h : task.isProvision=false) :
    finalized s (env, .resume id outcome)=none := by
  cases outcome with
  | diffed result => rfl
  | diffRaised => rfl
  | tornDown result => rfl
  | rendered result =>
    cases result with
    | error fault => rfl
    | ok artifact =>
      simp only [finalized, ht]
      cases task with
      | provision inst caller tenantId background => cases h
      | update inst caller tenantId => rfl
      | teardown instanceId inst caller tenantId => rfl
      | diff inst pass => rfl
      | reconcile inst pass => rfl

theorem finalizeProvision_metered {env : Env} {inst x : ServiceInstance} {artifact : Artifact}
    (caller : Caller) (tenantId auditAction : String)
    (hx : markOperationSucceeded { inst with status := .succeeded } artifact=some x)
    (hp : env.faults.put=false) (hc : env.faults.catalog=false) : ∃ record : AuditRecord,
      (finalizeProvision env inst caller tenantId true auditAction (.ok artifact)).writes =
        [.put x] ++ (if env.faults.metering then [] else [.meter (usageRecord env x tenantId)]) ++
          [.audit record] := by
  simp only [finalizeProvision, hx, hp, hc]
  cases env.faults.metering with
  | true => exact ⟨_, rfl⟩
  | false => exact ⟨_, rfl⟩

/-- A render of a provision is stored and metered, or nothing of either happens. -/
theorem side_provisionRendered {env : Env} {id : Nat} {inst : ServiceInstance} {caller : Caller}
    {tenantId : String} {background : Bool} {result : Except RenderFault Artifact}
    (ht : s.tasks.lookup id=some (.provision inst caller tenantId background))
    (hseg : segment env s (.resume id (.rendered result)) =
      some (some id, provisionRendered env inst caller tenantId background result)) :
    Side s (env, .resume id (.rendered result)) := by
  have hplain : (∀ artifact, result=.ok artifact →
      appliedVersion inst artifact=none ∨ env.faults.put=true ∨ env.faults.catalog=true) →
      finalized s (env, .resume id (.rendered result))=none →
      Side s (env, .resume id (.rendered result)) := by
    intro h hf
    exact Side.plain _ _ hseg
      (plain_done (finalizeProvision_plain inst caller tenantId true _ result (Or.inr h))) rfl hf
  cases result with
  | error fault => exact hplain (by simp) rfl
  | ok artifact =>
    cases hv : appliedVersion inst artifact with
    | none => exact hplain (by simp [hv]) (by simp [finalized, ht, hv])
    | some version =>
      cases hp : env.faults.put with
      | true => exact hplain (by simp [hp]) (by simp [finalized, ht, hp])
      | false =>
        cases hc : env.faults.catalog with
        | true => exact hplain (by simp [hc]) (by simp [finalized, ht, hc])
        | false =>
          obtain ⟨x, hx⟩ : ∃ x,
              markOperationSucceeded { inst with status := .succeeded } artifact=some x :=
            ⟨_, Option.map_eq_some_iff.mpr ⟨version, hv, rfl⟩⟩
          obtain ⟨record, hw⟩ :=
            finalizeProvision_metered caller tenantId "instance.provisioned" hx hp hc
          refine Side.finish id inst x caller tenantId background record _ hseg ht
            (by simp [finalized, ht, hv, hp, hc]) (touched_succeeded hx) ?_ hw rfl
          obtain ⟨_, _, he⟩ := Option.map_eq_some_iff.mp hx
          rw [← he]

theorem side_resume {env : Env} (id : Nat) (outcome : Outcome) :
    Side s (env, .resume id outcome) := by
  cases ht : s.tasks.lookup id with
  | none => exact Side.stuck (by simp [segment, ht])
  | some task =>
    cases hres : task.resume env outcome with
    | none => exact Side.stuck (by simp [segment, ht, hres])
    | some seg =>
      have hseg : segment env s (.resume id outcome)=some (some id, seg) := by
        simp [segment, ht, hres]
      have hplain : seg.Plain → task.isProvision=false → Side s (env, .resume id outcome) :=
        fun hp htask => Side.plain _ _ hseg hp rfl (finalized_other ht htask)
      cases resumed_of_resume hres with
      | provision inst caller tenantId background result => exact side_provisionRendered ht hseg
      | update inst caller tenantId result =>
        exact hplain (updateRendered_plain inst caller tenantId result) rfl
      | teardown instanceId inst caller tenantId result =>
        exact hplain (deleteRecord_plain _ _ _ (by simp [Write.plain])) rfl
      | diff inst pass result => exact hplain (diffed_plain inst pass result) rfl
      | abandoned inst pass => exact hplain (plain_done (by simp)) rfl
      | reconcile inst pass result => exact hplain (reconcileRendered_plain inst pass result) rfl

theorem step_side (s : State) (a : Env × Event) : Side s a := by
  obtain ⟨env, event⟩ := a
  cases event with
  | request auth req => exact side_request req
  | tick => exact Side.plain none _ rfl (startPass_plain _ _ _) rfl rfl
  | resume id outcome => exact side_resume id outcome

theorem tables_plain (hash : String → Nat) {ws : List Write} (h : ∀ w∈ws, w.plain=true)
    (t : Tables) : (ws.foldl (Write.apply hash) t).bindings=t.bindings ∧
      (ws.foldl (Write.apply hash) t).usage=t.usage := by
  induction ws generalizing t with
  | nil => exact ⟨rfl, rfl⟩
  | cons w ws ih =>
    obtain ⟨hb, hu⟩ := ih (fun v hv => h v (List.mem_cons_of_mem w hv)) (w.apply hash t)
    have hw := h w List.mem_cons_self
    simp only [List.foldl_cons, hb, hu]
    cases w with
    | put inst => exact ⟨rfl, rfl⟩
    | delete i => exact ⟨rfl, rfl⟩
    | audit r => exact ⟨rfl, rfl⟩
    | putBinding b => cases hw
    | deleteBinding b => cases hw
    | meter r => cases hw

theorem finalized_requested {caller : Caller} {req : Request}
    (h : requested a=some (caller, req)) : finalized s a=none := by
  obtain ⟨auth, ha⟩ := requested_event h
  simp only [finalized, ha]

theorem created_requested {c : Creation} (h : created s a=some c) :
    ∃ caller req, requested a=some (caller, req) := by
  cases hr : requested a with
  | none =>
    rw [created, hr] at h
    cases h
  | some r => exact ⟨r.1, r.2, rfl⟩

theorem finalized_stuck (h : segment a.1 s a.2=none) : finalized s a=none := by
  obtain ⟨env, event⟩ := a
  cases event with
  | request auth req => rfl
  | tick => rfl
  | resume id outcome =>
    cases ht : s.tasks.lookup id with
    | none =>
      cases outcome with
      | rendered result =>
        cases result with
        | error fault => rfl
        | ok artifact => simp only [finalized, ht]
      | diffed result => rfl
      | diffRaised => rfl
      | tornDown result => rfl
    | some task =>
      cases hp : task.isProvision with
      | false => exact finalized_other ht hp
      | true =>
        cases task with
        | provision inst caller tenantId background =>
          cases outcome with
          | rendered result => simp [segment, ht, Task.resume] at h
          | diffed result => rfl
          | diffRaised => rfl
          | tornDown result => rfl
        | update inst caller tenantId => cases hp
        | teardown instanceId inst caller tenantId => cases hp
        | diff inst pass => cases hp
        | reconcile inst pass => cases hp

/-- The usage records grow only when a provision ends well. -/
theorem usage_step (hash : String → Nat) (s : State) (a : Env × Event) :
    finalized s a=none ∧ (step hash s a).tables.usage=s.tables.usage ∨
    ∃ inst x tenantId, finalized s a=some (inst, tenantId) ∧ Touched inst x ∧
      x.serviceId=inst.serviceId ∧ (step hash s a).tables.usage =
        if a.1.faults.metering then s.tables.usage
        else usageRecord a.1 x tenantId::s.tables.usage := by
  cases step_side s a with
  | stuck eq =>
    left
    exact ⟨finalized_stuck eq, by rw [step, eq]⟩
  | plain resumed seg eq hp hc hf =>
    left
    refine ⟨hf, ?_⟩
    rw [step_segment eq]
    exact (tables_plain hash hp.writes s.tables).2
  | provision c background seg eq hc hw ht =>
    left
    obtain ⟨caller, req, hr⟩ := created_requested hc
    refine ⟨finalized_requested hr, ?_⟩
    rw [step_segment eq]
    exact (tables_plain hash hw s.tables).2
  | bind caller x req record seg eq hr ha hw ht =>
    left
    refine ⟨finalized_requested hr, ?_⟩
    rw [step_segment eq]
    simp only [State.run, hw]
    rfl
  | unbind caller instanceId bindingId record seg eq hr ha hw ht =>
    left
    refine ⟨finalized_requested hr, ?_⟩
    rw [step_segment eq]
    simp only [State.run, hw]
    rfl
  | finish id inst x caller tenantId background record seg eq hl hf htouched hservice hw ht =>
    right
    refine ⟨inst, x, tenantId, hf, htouched, hservice, ?_⟩
    rw [step_segment eq]
    simp only [State.run, hw]
    cases a.1.faults.metering with
    | true => rfl
    | false => rfl

end Side
end Sovereign.Broker
