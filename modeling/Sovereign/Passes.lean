import Sovereign.Steps

/-! What a pass over the instance table writes and holds: the record it goes on to
reconcile, and copies of instances that are all different. -/
namespace Sovereign.Broker
open Sovereign Policy Renderers

/-- The writes at the end of a provision or a reconcile: the failed record if it can be put,
or nothing when the answer cannot be read or the put fails, or the succeeded record, alone when
the read of the catalog raises before it is metered. -/
inductive Finalizes (env : Env) (inst : ServiceInstance) (recordUsage : Bool)
    (auditAction : String) : List Write → Prop where
  | failed (fault : RenderFault) (r : AuditRecord) (action : r.action="instance.provision_failed")
      (resource : r.resource=inst.instanceId) :
      Finalizes env inst recordUsage auditAction
        (putOr env (markOperationFailed { inst with status := .failed } fault)++[.audit r])
  | raised : Finalizes env inst recordUsage auditAction []
  | unmetered (artifact : Artifact) (x : ServiceInstance)
      (marked : markOperationSucceeded { inst with status := .succeeded } artifact=some x)
      (unread : (recordUsage && env.faults.catalog)=true) :
      Finalizes env inst recordUsage auditAction [.put x]
  | succeeded (artifact : Artifact) (x : ServiceInstance) (meters : List Write) (r : AuditRecord)
      (marked : markOperationSucceeded { inst with status := .succeeded } artifact=some x)
      (metered : ∀ w∈meters, ∃ u, w=.meter u) (action : r.action=auditAction)
      (resource : r.resource=inst.instanceId) :
      Finalizes env inst recordUsage auditAction (.put x::(meters++[.audit r]))

theorem finalizeProvision_finalizes (env : Env) (inst : ServiceInstance) (caller : Caller)
    (tenantId : String) (recordUsage : Bool) (auditAction : String)
    (result : Except RenderFault Artifact) :
    Finalizes env inst recordUsage auditAction
      (finalizeProvision env inst caller tenantId recordUsage auditAction result).writes := by
  cases result with
  | error fault => exact Finalizes.failed fault _ rfl rfl
  | ok artifact =>
    simp only [finalizeProvision]
    split
    · exact Finalizes.raised
    · next x hx =>
      split
      · exact Finalizes.raised
      · split
        · next hunread => exact Finalizes.unmetered artifact x hx hunread
        · refine Finalizes.succeeded artifact x _ _ hx ?_ rfl (touched_succeeded hx).instanceId
          intro w hw
          split at hw
          · exact ⟨_, List.mem_singleton.mp hw⟩
          · cases hw

def nextStart (refreshDrift : Bool) : List ServiceInstance → Option ServiceInstance
  | [] => none
  | inst::rest =>
    if refreshDrift && decide (inst.status=.succeeded) then none
    else if needsReconcile inst then some inst
    else nextStart refreshDrift rest

def startWrites (env : Env) (refreshDrift : Bool) (list : List ServiceInstance) : List Write :=
  (nextStart refreshDrift list).toList.flatMap fun inst => putOr env (reconcileStarted inst)

theorem nextStart_mem {refreshDrift : Bool} {list : List ServiceInstance} {c : ServiceInstance}
    (h : nextStart refreshDrift list=some c) : c∈list := by
  induction list with
  | nil => cases h
  | cons inst rest ih =>
    simp only [nextStart] at h
    split at h
    · cases h
    · split at h
      · cases h
        exact List.mem_cons_self
      · exact List.mem_cons_of_mem inst (ih h)

theorem startWrites_puts {env : Env} {refreshDrift : Bool} {list : List ServiceInstance}
    {w : Write} (h : w∈startWrites env refreshDrift list) :
    ∃ c∈list, w=.put (reconcileStarted c) := by
  obtain ⟨c, hc, hw⟩ := List.mem_flatMap.mp h
  refine ⟨c, nextStart_mem (by simpa using hc), ?_⟩
  rw [putOr] at hw
  split at hw
  · cases hw
  · exact List.mem_singleton.mp hw

section Passes
variable (env : Env)

theorem reconcileNext_writes (pass : Pass) (ws : List Write) (list : List ServiceInstance)
    (results : List ReconcileResult) :
    (reconcileNext env pass ws list results).writes =
      ws++startWrites env pass.refreshDrift list := by
  induction list generalizing results with
  | nil => simp [reconcileNext, startWrites, nextStart]
  | cons inst rest ih =>
    simp only [reconcileNext, startWrites, nextStart]
    split
    · simp
    · split
      · simp
      · exact ih (results++[skippedResult inst])

theorem startPass_writes (refreshDrift manual : Bool) (list : List ServiceInstance) :
    (startPass env refreshDrift manual list).writes=startWrites env refreshDrift list :=
  reconcileNext_writes env _ [] list []

theorem diffed_writes_refreshed {inst x : ServiceInstance} {result : Option Artifact}
    (pass : Pass) (h : refreshedDrift inst result=some x) :
    (diffed env inst pass result).writes =
      putOr env x++(if needsReconcile x then putOr env (reconcileStarted x)
        else startWrites env pass.refreshDrift pass.rest) := by
  simp only [diffed, h, Option.map_some, Option.getD_some]
  split
  · rfl
  · rw [reconcileNext_writes]

theorem diffed_writes_unknown {inst : ServiceInstance} {result : Option Artifact}
    (pass : Pass) (h : refreshedDrift inst result=none) :
    (diffed env inst pass result).writes =
      if needsReconcile inst then putOr env (reconcileStarted inst)
      else startWrites env pass.refreshDrift pass.rest := by
  simp only [diffed, h, Option.map_none, Option.getD_none]
  split
  · rfl
  · rw [reconcileNext_writes]
    rfl

def Task.ids (task : Task) : List String := task.copies.map ServiceInstance.instanceId

theorem rest_ne {inst : ServiceInstance} {rest : List ServiceInstance}
    (h : ((inst::rest).map ServiceInstance.instanceId).Nodup) :
    ∀ c∈rest, c.instanceId≠inst.instanceId := by
  intro c hc he
  exact (List.nodup_cons.mp h).1 (he ▸ List.mem_map.mpr ⟨c, hc, rfl⟩)

theorem reconcileNext_ids {pass : Pass} {ws : List Write} {list : List ServiceInstance}
    {results : List ReconcileResult} {task : Task}
    (h : task∈(reconcileNext env pass ws list results).task) :
    task.ids.Sublist (list.map ServiceInstance.instanceId) := by
  induction list generalizing results with
  | nil => cases h
  | cons inst rest ih =>
    simp only [reconcileNext] at h
    split at h
    · cases h
      exact List.Sublist.refl _
    · split at h
      · cases h
        exact List.Sublist.refl _
      · exact (ih h).cons inst.instanceId

theorem startPass_ids {refreshDrift manual : Bool} {list : List ServiceInstance} {task : Task}
    (h : task∈(startPass env refreshDrift manual list).task) :
    task.ids.Sublist (list.map ServiceInstance.instanceId) := reconcileNext_ids env h

theorem diffed_ids {inst : ServiceInstance} {pass : Pass} {result : Option Artifact}
    {task : Task} (h : task∈(diffed env inst pass result).task) :
    task.ids.Sublist (Task.ids (.diff inst pass)) := by
  have hid : ((refreshedDrift inst result).getD inst).instanceId=inst.instanceId := by
    cases hr : refreshedDrift inst result with
    | none => rfl
    | some x => exact (touched_refreshedDrift hr).instanceId
  simp only [diffed] at h
  split at h
  · cases h
    have he : Task.ids (.reconcile (reconcileStarted ((refreshedDrift inst result).getD inst))
        pass)=Task.ids (.diff inst pass) := by
      simp only [Task.ids, Task.copies, List.map_cons]
      rw [(touched_reconcileStarted _).instanceId, hid]
    rw [he]
  · exact (reconcileNext_ids env h).cons inst.instanceId

end Passes

def State.Distinct (s : State) : Prop := ∀ t∈s.tasks, t.2.ids.Nodup

section Distinct
variable {hash : String → Nat} {s : State} {a : Env × Event}

theorem ids_of_carries {seg : Segment} (h : seg.Carries fun _ => False) {task : Task}
    (ht : task∈seg.task) : task.ids=[] := by
  have hc : task.copies=[] := List.eq_nil_iff_forall_not_mem.mpr (h.copies task ht)
  rw [Task.ids, hc]
  rfl

theorem ids_of_stores {seg : Segment} {x : ServiceInstance} (h : seg.Stores x) {task : Task}
    (ht : task∈seg.task) : task.ids=[x.instanceId] := by
  rw [Task.ids, h.copies task ht]
  rfl

/-- What a request does to the records: it stores one with its operation begun, or deletes
one, or touches none, or starts a pass over stored ones. -/
inductive Served (env : Env) (t : Tables) : Segment → Prop where
  | stores {seg : Segment} (x : ServiceInstance) (begun : x.driftStatus=.reconciling)
      (effect : seg.Stores x) : Served env t seg
  | deletes {seg : Segment} (instanceId : String) (effect : seg.Deletes instanceId) :
      Served env t seg
  | plain {seg : Segment} (effect : ∀ P, seg.Carries P) : Served env t seg
  | pass (list : List ServiceInstance)
      (nodup : Store.WellFormed t.rows → (list.map ServiceInstance.instanceId).Nodup)
      (stored : Store.WellFormed t.rows →
        ∀ c∈list, Store.stored t.rows c.instanceId=some c) :
      Served env t (startPass env false true list)

theorem serve_served (env : Env) (caller : Caller) (req : Request) (t : Tables) :
    Served env t (serve env caller t req) := by
  cases req with
  | provision instanceId r b =>
    cases ha : provisionAdmitted env caller instanceId r t with
    | true => exact .stores _ rfl (provision_admitted b ha)
    | false => exact .plain fun P => provision_refused b ha
  | update instanceId r =>
    cases ha : updateAdmitted env caller instanceId r t with
    | some inst => exact .stores _ rfl (update_admitted ha).2
    | none => exact .plain fun P => update_refused ha
  | deprovision instanceId =>
    obtain h | h := deprovision_effect env caller instanceId t
    · exact .deletes instanceId h.2
    · exact .plain h.2
  | bind instanceId b r =>
    exact .plain fun P => withBinding_carries _ _ _ _ _
      fun _ _ => carries_done (binding_writes (by simp) (by simp))
  | unbind instanceId b =>
    exact .plain fun P => withBinding_carries _ _ _ _ _
      fun _ _ => carries_done (binding_writes (by simp) (by simp))
  | reconcile instanceId limit =>
    obtain h | ⟨list, he, hn, hstored⟩ := reconcile_cases env caller instanceId limit t
    · exact .plain h
    · rw [serve, he]
      exact .pass list hn hstored

theorem Served.distinct {env : Env} {t : Tables} {seg : Segment} (h : Served env t seg)
    (hw : Store.WellFormed t.rows) {task : Task} (ht : task∈seg.task) : task.ids.Nodup := by
  cases h with
  | stores x _ hs =>
    rw [ids_of_stores hs ht]
    exact List.nodup_singleton _
  | deletes i hs =>
    rw [hs.task] at ht
    cases ht
  | plain hs =>
    rw [ids_of_carries (hs _) ht]
    exact List.nodup_nil
  | pass list hn _ => exact (hn hw).sublist (startPass_ids env ht)

theorem resume_distinct {env : Env} {task : Task} {outcome : Outcome} {seg : Segment}
    (h : task.resume env outcome=some seg) (hd : task.ids.Nodup) {left : Task}
    (ht : left∈seg.task) : left.ids.Nodup := by
  cases resumed_of_resume h with
  | provision inst caller tenantId background result => cases ht
  | update inst caller tenantId result =>
    simp only [updateRendered] at ht
    split at ht
    · split at ht <;> cases ht
    · split at ht
      · cases ht
      · split at ht <;> cases ht
  | teardown instanceId inst caller tenantId result =>
    simp only [deprovisionTornDown, deleteRecord] at ht
    split at ht <;> cases ht
  | diff inst pass result => exact hd.sublist (diffed_ids env ht)
  | abandoned inst pass => cases ht
  | reconcile inst pass result =>
    exact hd.sublist ((reconcileNext_ids env ht).cons inst.instanceId)

theorem segment_distinct (hw : Store.WellFormed s.tables.rows) (hd : s.Distinct)
    {resumed : Option Nat} {seg : Segment} (h : segment a.1 s a.2=some (resumed, seg))
    {task : Task} (ht : task∈seg.task) : task.ids.Nodup := by
  obtain ⟨env, event⟩ := a
  cases event with
  | request auth req =>
    simp only [segment] at h
    split at h
    · cases h
      cases ht
    · cases h
      exact (serve_served env _ req s.tables).distinct hw ht
  | tick =>
    cases h
    exact ((hw.take env.fits).nodup_listInstances _ _).sublist (startPass_ids env ht)
  | resume id outcome =>
    obtain ⟨seg', hb, he⟩ := Option.map_eq_some_iff.mp h
    obtain ⟨held, hl, hres⟩ := Option.bind_eq_some_iff.mp hb
    cases he
    exact resume_distinct hres (hd (id, held) (mem_tasks_of_lookup hl)) ht

theorem step_distinct (hw : Store.WellFormed s.tables.rows) (hd : s.Distinct) :
    (step hash s a).Distinct := by
  rw [step]
  split
  · exact hd
  · next resumed seg hseg =>
    intro t ht
    cases mem_tasks_run ht with
    | inl ht => exact hd t ht
    | inr ht => exact segment_distinct hw hd hseg ht

end Distinct
end Sovereign.Broker
