import Sovereign.Broker
import Sovereign.WriteBack

/-! What a segment of the broker does to the instance table and to the copies its tasks
hold: it writes copies back, or stores the record of an admitted provision or update,
or deletes one record. -/
namespace Sovereign.Broker
open Sovereign Policy Renderers

def abs (s : State) : WriteBack.Sys String ServiceInstance :=
  { table := Store.stored s.tables.rows
    copies := s.tasks.flatMap fun t => t.2.copies }

abbrev State.Source (s : State) (c : ServiceInstance) : Prop :=
  (abs s).Source ServiceInstance.instanceId c

/-- No task holds a copy of the instance. -/
abbrev State.Idle (s : State) (instanceId : String) : Prop :=
  (abs s).Idle ServiceInstance.instanceId instanceId

inductive Resumed (env : Env) : Task → Outcome → Segment → Prop where
  | provision (inst : ServiceInstance) (caller : Caller) (tenantId : String) (background : Bool)
      (result : Except RenderFault Artifact) :
      Resumed env (.provision inst caller tenantId background) (.rendered result)
        (provisionRendered env inst caller tenantId background result)
  | update (inst : ServiceInstance) (caller : Caller) (tenantId : String)
      (result : Except RenderFault Artifact) :
      Resumed env (.update inst caller tenantId) (.rendered result)
        (updateRendered env inst caller tenantId result)
  | teardown (instanceId : String) (inst : ServiceInstance) (caller : Caller) (tenantId : String)
      (result : Except String TeardownResult) :
      Resumed env (.teardown instanceId inst caller tenantId) (.tornDown result)
        (deprovisionTornDown env instanceId inst caller tenantId result)
  | diff (inst : ServiceInstance) (pass : Pass) (result : Option Artifact) :
      Resumed env (.diff inst pass) (.diffed result) (diffed env inst pass result)
  | abandoned (inst : ServiceInstance) (pass : Pass) :
      Resumed env (.diff inst pass) .diffRaised (abandoned pass)
  | reconcile (inst : ServiceInstance) (pass : Pass) (result : Except RenderFault Artifact) :
      Resumed env (.reconcile inst pass) (.rendered result)
        (reconcileRendered env inst pass result)

theorem resumed_of_resume {env : Env} {task : Task} {outcome : Outcome} {seg : Segment}
    (h : task.resume env outcome=some seg) : Resumed env task outcome seg := by
  unfold Task.resume at h
  split at h
  · cases h
    exact Resumed.provision _ _ _ _ _
  · cases h
    exact Resumed.update _ _ _ _
  · cases h
    exact Resumed.teardown _ _ _ _ _
  · cases h
    exact Resumed.diff _ _ _
  · cases h
    exact Resumed.abandoned _ _
  · cases h
    exact Resumed.reconcile _ _ _
  · cases h

theorem stored_of_mem_scanned (env : Env) {rows : List Row} (hw : Store.WellFormed rows)
    {faults : StoreFaults} {limit : Int} {inst : ServiceInstance}
    (h : inst∈Store.listInstances faults (scanned env rows) none limit) :
    Store.stored rows inst.instanceId=some inst :=
  Store.stored_take ((hw.take env.fits).stored_of_mem_list h)

/-- What the bookkeeping of an operation leaves alone. -/
structure Touched (c x : ServiceInstance) : Prop where
  instanceId : x.instanceId=c.instanceId
  organizationGuid : x.organizationGuid=c.organizationGuid
  planId : x.planId=c.planId
  parameters : x.parameters=c.parameters
  version : x.version=c.version

theorem Touched.refl (c : ServiceInstance) : Touched c c := ⟨rfl, rfl, rfl, rfl, rfl⟩

theorem Touched.trans {c d x : ServiceInstance} (h : Touched c d) (h' : Touched d x) :
    Touched c x :=
  ⟨h'.1.trans h.1, h'.2.trans h.2, h'.3.trans h.3, h'.4.trans h.4, h'.5.trans h.5⟩

theorem touched_failed (inst : ServiceInstance) (fault : RenderFault) :
    Touched inst (markOperationFailed { inst with status := .failed } fault) :=
  ⟨rfl, rfl, rfl, rfl, rfl⟩

theorem touched_succeeded {inst x : ServiceInstance} {artifact : Artifact}
    (h : markOperationSucceeded { inst with status := .succeeded } artifact=some x) :
    Touched inst x := by
  obtain ⟨version, _, hx⟩ := Option.map_eq_some_iff.mp h
  subst hx
  exact ⟨rfl, rfl, rfl, rfl, rfl⟩

theorem touched_reconcileStarted (inst : ServiceInstance) :
    Touched inst (reconcileStarted inst) := ⟨rfl, rfl, rfl, rfl, rfl⟩

theorem touched_refreshedDrift {inst x : ServiceInstance} {result : Option Artifact}
    (h : refreshedDrift inst result=some x) : Touched inst x := by
  cases result with
  | none => simp [refreshedDrift] at h
  | some r =>
    simp only [refreshedDrift] at h
    split at h
    · simp at h
    · have hx := Option.some.inj h
      subst hx
      exact ⟨rfl, rfl, rfl, rfl, rfl⟩

structure WritesBack (src : ServiceInstance → Prop) (writes : List Write) : Prop where
  puts : ∀ x, Write.put x∈writes → ∃ c, src c ∧ Touched c x
  deletes : ∀ i, Write.delete i∉writes

/-- Moreover what the segment leaves in flight is a touched record of `src`. -/
structure Segment.Quiet (src : ServiceInstance → Prop) (seg : Segment) : Prop where
  writes : WritesBack src seg.writes
  copies : ∀ task∈seg.task, ∀ x∈task.copies, ∃ c, src c ∧ Touched c x

structure WritesOnly (P : ServiceInstance → Prop) (writes : List Write) : Prop where
  puts : ∀ x, Write.put x∈writes → P x
  deletes : ∀ i, Write.delete i∉writes

structure Segment.Carries (P : ServiceInstance → Prop) (seg : Segment) : Prop where
  writes : WritesOnly P seg.writes
  copies : ∀ task∈seg.task, ∀ x∈task.copies, P x

structure Kept (P : ServiceInstance → Prop) : Prop where
  failed : ∀ c fault, P c → P (markOperationFailed { c with status := .failed } fault)
  started : ∀ c, P c → P (reconcileStarted c)
  refreshed : ∀ c x result, P c → refreshedDrift c result=some x → P x

def BackOf (src : ServiceInstance → Prop) (x : ServiceInstance) : Prop := ∃ c, src c ∧ Touched c x

section Carries
variable {P : ServiceInstance → Prop} {src : ServiceInstance → Prop} {env : Env}

theorem BackOf.of_src {c : ServiceInstance} (h : src c) : BackOf src c := ⟨c, h, Touched.refl c⟩

theorem BackOf.touched {c x : ServiceInstance} (h : BackOf src c) (ht : Touched c x) :
    BackOf src x := by
  obtain ⟨d, hd, hdc⟩ := h
  exact ⟨d, hd, hdc.trans ht⟩

theorem kept_backOf (src : ServiceInstance → Prop) : Kept (BackOf src) where
  failed := fun c fault h => h.touched (touched_failed c fault)
  started := fun c h => h.touched (touched_reconcileStarted c)
  refreshed := fun _ _ _ h hr => h.touched (touched_refreshedDrift hr)

theorem WritesOnly.writesBack {ws : List Write} (h : WritesOnly (BackOf src) ws) :
    WritesBack src ws := ⟨h.puts, h.deletes⟩

theorem Segment.Carries.quiet {seg : Segment} (h : seg.Carries (BackOf src)) : seg.Quiet src :=
  ⟨h.writes.writesBack, h.copies⟩

theorem WritesOnly.nil : WritesOnly P [] := ⟨by simp, by simp⟩

theorem WritesOnly.append {ws vs : List Write} (h : WritesOnly P ws) (h' : WritesOnly P vs) :
    WritesOnly P (ws++vs) where
  puts := by
    intro x hx
    cases List.mem_append.mp hx with
    | inl hx => exact h.puts x hx
    | inr hx => exact h'.puts x hx
  deletes := by
    intro i hi
    cases List.mem_append.mp hi with
    | inl hi => exact h.deletes i hi
    | inr hi => exact h'.deletes i hi

theorem WritesOnly.put {x : ServiceInstance} (h : P x) : WritesOnly P [.put x] where
  puts := by
    intro y hy
    have he : y=x := by simpa using hy
    exact he ▸ h
  deletes := by simp

theorem writesOnly_putOr {x : ServiceInstance} (h : P x) : WritesOnly P (putOr env x) := by
  rw [putOr]
  split
  · exact WritesOnly.nil
  · exact WritesOnly.put h

theorem writesOnly_audits (audits : List AuditRecord) : WritesOnly P (audits.map Write.audit) :=
  ⟨by simp, by simp⟩

theorem writesOnly_audit (record : AuditRecord) : WritesOnly P [.audit record] :=
  ⟨by simp, by simp⟩

theorem carries_done {ws : List Write} {r : Option (Except HttpError Reply)}
    (h : WritesOnly P ws) : Segment.Carries P { writes := ws, reply := r } :=
  ⟨h, by simp⟩

theorem carries_failure {ws : List Write} (e : HttpError) (h : WritesOnly P ws) :
    (failure ws e).Carries P := carries_done h

theorem finalizeProvision_writes (hk : Kept P) (inst : ServiceInstance) (caller : Caller)
    (tenantId : String) (recordUsage : Bool) (auditAction : String)
    (result : Except RenderFault Artifact) (hc : P inst)
    (hs : ∀ artifact x, env.faults.put=false → result=.ok artifact →
      markOperationSucceeded { inst with status := .succeeded } artifact=some x → P x) :
    WritesOnly P
      (finalizeProvision env inst caller tenantId recordUsage auditAction result).writes := by
  cases result with
  | error fault =>
    exact (writesOnly_putOr (hk.failed inst fault hc)).append (writesOnly_audit _)
  | ok artifact =>
    simp only [finalizeProvision]
    split
    · exact WritesOnly.nil
    · next x hx =>
      split
      · exact WritesOnly.nil
      · next hp =>
        have hput : WritesOnly P [.put x] :=
          WritesOnly.put (hs artifact x (by simpa using hp) rfl hx)
        split
        · exact hput
        · refine (hput.append ?_).append (writesOnly_audit _)
          split
          · exact ⟨by simp, by simp⟩
          · exact WritesOnly.nil

theorem updateRendered_carries (hk : Kept P) (inst : ServiceInstance) (caller : Caller)
    (tenantId : String) (result : Except RenderFault Artifact) (hc : P inst)
    (hs : ∀ artifact x, env.faults.put=false → result=.ok artifact →
      markOperationSucceeded { inst with status := .succeeded } artifact=some x → P x) :
    (updateRendered env inst caller tenantId result).Carries P := by
  cases result with
  | error fault =>
    simp only [updateRendered]
    split
    · exact carries_failure _ WritesOnly.nil
    · exact carries_failure _ (WritesOnly.put (hk.failed inst fault hc))
  | ok artifact =>
    simp only [updateRendered]
    split
    · exact carries_failure _ WritesOnly.nil
    · next x hx =>
      split
      · exact carries_failure _ WritesOnly.nil
      · next hp =>
        have hput : WritesOnly P [.put x] :=
          WritesOnly.put (hs artifact x (by simpa using hp) rfl hx)
        exact carries_done (hput.append (writesOnly_audit _))

theorem pass_copies {x : ServiceInstance} {rest : List ServiceInstance} (h : P x)
    (hrest : ∀ y∈rest, P y) : ∀ y∈x::rest, P y := by
  intro y hy
  cases List.mem_cons.mp hy with
  | inl he => exact he ▸ h
  | inr hy => exact hrest y hy

theorem reconcileNext_carries (hk : Kept P) (pass : Pass) (ws : List Write)
    (list : List ServiceInstance) (results : List ReconcileResult) (hw : WritesOnly P ws)
    (hl : ∀ x∈list, P x) : (reconcileNext env pass ws list results).Carries P := by
  induction list generalizing results with
  | nil => exact carries_done hw
  | cons inst rest ih =>
    have hc : P inst := hl inst List.mem_cons_self
    have hrest : ∀ x∈rest, P x := fun x hx => hl x (List.mem_cons_of_mem inst hx)
    simp only [reconcileNext]
    split
    · refine ⟨hw, ?_⟩
      intro task ht
      cases ht
      exact pass_copies hc hrest
    · split
      · have hs : P (reconcileStarted inst) := hk.started inst hc
        refine ⟨hw.append (writesOnly_putOr hs), ?_⟩
        intro task ht
        cases ht
        exact pass_copies hs hrest
      · exact ih (results++[skippedResult inst]) hrest

theorem startPass_carries (hk : Kept P) (refreshDrift manual : Bool)
    (list : List ServiceInstance) (hl : ∀ x∈list, P x) :
    (startPass env refreshDrift manual list).Carries P :=
  reconcileNext_carries hk _ [] list [] WritesOnly.nil hl

theorem diffed_carries (hk : Kept P) (inst : ServiceInstance) (pass : Pass)
    (result : Option Artifact) (hc : P inst) (hrest : ∀ x∈pass.rest, P x) :
    (diffed env inst pass result).Carries P := by
  have hd : P ((refreshedDrift inst result).getD inst) := by
    cases hr : refreshedDrift inst result with
    | none => exact hc
    | some x => exact hk.refreshed inst x result hc hr
  have hw : WritesOnly P (((refreshedDrift inst result).map (putOr env)).getD []) := by
    cases hr : refreshedDrift inst result with
    | none => exact WritesOnly.nil
    | some x => exact writesOnly_putOr (hk.refreshed inst x result hc hr)
  simp only [diffed]
  split
  · have hs := hk.started _ hd
    refine ⟨hw.append (writesOnly_putOr hs), ?_⟩
    intro task ht
    cases ht
    exact pass_copies hs hrest
  · exact reconcileNext_carries hk pass _ pass.rest _ hw hrest

theorem reconcile_cases (env : Env) (caller : Caller) (instanceId : Option String) (limit : Int)
    (t : Tables) :
    (∀ P, (reconcile env caller instanceId limit t).Carries P) ∨
      ∃ list, reconcile env caller instanceId limit t=startPass env false true list ∧
        (Store.WellFormed t.rows → (list.map ServiceInstance.instanceId).Nodup) ∧
        (Store.WellFormed t.rows → ∀ c∈list, Store.stored t.rows c.instanceId=some c) := by
  simp only [reconcile]
  split
  · split
    · next i _ =>
      split
      · exact Or.inl fun P => carries_failure _ WritesOnly.nil
      · next found hf =>
        refine Or.inr ⟨found.toList, rfl, ?_, ?_⟩
        · intro _
          cases found with
          | none => exact List.nodup_nil
          | some x => exact List.nodup_singleton _
        · intro hw c hc
          have he : found=some c := by simpa using hc
          have hst : Store.stored t.rows i=some c := Store.stored_of_getInstance (he ▸ hf)
          rw [hw.stored_eq hst]
          exact hst
    · exact Or.inr ⟨_, rfl, fun hw => (hw.take env.fits).nodup_listInstances _ limit,
        fun hw c hc => stored_of_mem_scanned env hw hc⟩
  · exact Or.inl fun P => carries_failure _ WritesOnly.nil

theorem reconcile_carries (hk : Kept P) (caller : Caller) (instanceId : Option String)
    (limit : Int) (t : Tables) (hw : Store.WellFormed t.rows)
    (hsrc : ∀ x, Store.stored t.rows x.instanceId=some x → P x) :
    (reconcile env caller instanceId limit t).Carries P := by
  obtain h | ⟨list, he, _, hstored⟩ := reconcile_cases env caller instanceId limit t
  · exact h P
  · rw [he]
    exact startPass_carries hk _ _ _ fun x hx => hsrc x (hstored hw x hx)

theorem withBinding_carries (caller : Caller) (instanceId : String) (absent : HttpError)
    (t : Tables) (done : ServiceInstance → String → Segment)
    (h : ∀ inst tenantId, (done inst tenantId).Carries P) :
    (withBinding env caller instanceId absent t done).Carries P := by
  simp only [withBinding]
  split
  · exact carries_failure _ WritesOnly.nil
  · exact carries_failure _ WritesOnly.nil
  · split
    · exact carries_failure _ (writesOnly_audits _)
    · split
      · exact carries_failure _ WritesOnly.nil
      · exact h _ _

theorem binding_writes {w : Write} {action bindingId i tenantId : String} {caller : Caller}
    (h : ∀ x, w≠.put x) (h' : ∀ i, w≠.delete i) :
    WritesOnly P [w, bindingAudit action bindingId i caller tenantId] where
  puts := by
    intro x hx
    cases List.mem_cons.mp hx with
    | inl he => exact absurd he.symm (h x)
    | inr hx => simp [bindingAudit] at hx
  deletes := by
    intro x hx
    cases List.mem_cons.mp hx with
    | inl he => exact absurd he.symm (h' x)
    | inr hx => simp [bindingAudit] at hx

def Task.rendering : Task → Option ServiceInstance
  | .provision inst _ _ _ => some inst
  | .update inst _ _ => some inst
  | .reconcile inst _ => some inst
  | _ => none

def Task.isTeardown : Task → Bool
  | .teardown _ _ _ _ => true
  | _ => false

/-- A resumed task, other than a teardown, carries what its copies have and what a
successful render makes of the record at hand. -/
theorem resume_carries (hk : Kept P) {task : Task} {outcome : Outcome} {seg : Segment}
    (h : task.resume env outcome=some seg) (ht : task.isTeardown=false)
    (hc : ∀ x∈task.copies, P x)
    (hs : ∀ inst artifact x, env.faults.put=false → task.rendering=some inst →
      outcome=.rendered (.ok artifact) →
      markOperationSucceeded { inst with status := .succeeded } artifact=some x → P x) :
    seg.Carries P := by
  cases resumed_of_resume h with
  | provision inst caller tenantId background result =>
    exact carries_done (finalizeProvision_writes hk inst caller tenantId true _ result
      (hc inst List.mem_cons_self) fun artifact x hp he => hs inst artifact x hp rfl (by rw [he]))
  | update inst caller tenantId result =>
    exact updateRendered_carries hk inst caller tenantId result (hc inst List.mem_cons_self)
      fun artifact x hp he => hs inst artifact x hp rfl (by rw [he])
  | teardown instanceId inst caller tenantId result => cases ht
  | diff inst pass result =>
    exact diffed_carries hk inst pass result (hc inst List.mem_cons_self)
      fun x hx => hc x (List.mem_cons_of_mem inst hx)
  | abandoned inst pass => exact carries_done WritesOnly.nil
  | reconcile inst pass result =>
    exact reconcileNext_carries hk pass _ pass.rest _
      (finalizeProvision_writes hk inst systemReconciler _ false _ result
        (hc inst List.mem_cons_self) fun artifact x hp he => hs inst artifact x hp rfl (by rw [he]))
      fun x hx => hc x (List.mem_cons_of_mem inst hx)

end Carries

/-- The segment stores `x`, touches no other record, and at most its own task holds `x`. -/
structure Segment.Stores (x : ServiceInstance) (seg : Segment) : Prop where
  writes : ∃ ws, WritesBack (fun _ => False) ws ∧ seg.writes=ws++[.put x]
  copies : ∀ task∈seg.task, task.copies=[x]

structure Segment.Deletes (instanceId : String) (seg : Segment) : Prop where
  writes : ∃ ws record, WritesBack (fun _ => False) ws ∧
    seg.writes=ws++[.delete instanceId, .audit record]
  task : seg.task=none

section Admission
variable (env : Env)

def provisionAdmitted (caller : Caller) (instanceId : String) (req : ProvisionRequest)
    (t : Tables) : Bool :=
  match Store.getInstance env.faults.toStoreFaults t.rows instanceId with
  | .ok none =>
    (provisionGates env caller (resolveTenantId caller req.organizationGuid) instanceId req
      t.usage).raised.isNone && !env.faults.put
  | _ => false

def updateAdmitted (caller : Caller) (instanceId : String) (req : UpdateRequest)
    (t : Tables) : Option ServiceInstance :=
  match Store.getInstance env.faults.toStoreFaults t.rows instanceId with
  | .ok (some inst) =>
    if (updateGates env caller (resolveTenantId caller inst.organizationGuid) inst instanceId
      req).raised.isNone && !env.faults.put then some inst else none
  | _ => none

def provisionedRecord (instanceId : String) (req : ProvisionRequest) (now : String) :
    ServiceInstance :=
  beginOperation (ServiceInstance.ofRequest instanceId req now) "provision"

variable {env}

theorem provision_admitted {caller : Caller} {instanceId : String} {req : ProvisionRequest}
    {t : Tables} (acceptsIncomplete : Bool)
    (h : provisionAdmitted env caller instanceId req t=true) :
    (provision env caller instanceId req acceptsIncomplete t).Stores
      (provisionedRecord instanceId req env.now) := by
  simp only [provisionAdmitted] at h
  split at h
  · next hg =>
    simp only [Bool.and_eq_true, Option.isNone_iff_eq_none, Bool.not_eq_true'] at h
    simp only [provision, hg, h.1, h.2]
    exact ⟨⟨_, (writesOnly_audits _).writesBack, rfl⟩, by simp [Task.copies, provisionedRecord]⟩
  · exact absurd h (by simp)

theorem provision_refused {caller : Caller} {instanceId : String} {req : ProvisionRequest}
    {t : Tables} (acceptsIncomplete : Bool) {P : ServiceInstance → Prop}
    (h : provisionAdmitted env caller instanceId req t=false) :
    (provision env caller instanceId req acceptsIncomplete t).Carries P := by
  simp only [provisionAdmitted] at h
  simp only [provision]
  split
  · exact carries_failure _ WritesOnly.nil
  · exact carries_done WritesOnly.nil
  · next hg =>
    simp only [hg] at h
    split
    · exact carries_failure _ (writesOnly_audits _)
    · next hr =>
      have hp : env.faults.put=true := by simpa [hr] using h
      rw [if_pos hp]
      exact carries_failure _ (writesOnly_audits _)

theorem update_admitted {caller : Caller} {instanceId : String} {req : UpdateRequest}
    {t : Tables} {inst : ServiceInstance}
    (h : updateAdmitted env caller instanceId req t=some inst) :
    Store.stored t.rows instanceId=some inst ∧
      (update env caller instanceId req t).Stores (updatedRecord inst req) := by
  simp only [updateAdmitted] at h
  split at h
  · next found hg =>
    split at h
    · next hc =>
      have he := Option.some.inj h
      subst he
      simp only [Bool.and_eq_true, Option.isNone_iff_eq_none, Bool.not_eq_true'] at hc
      refine ⟨Store.stored_of_getInstance hg, ?_⟩
      simp only [update, hg, hc.1, hc.2]
      exact ⟨⟨_, (writesOnly_audits _).writesBack, rfl⟩, by simp [Task.copies]⟩
    · exact absurd h (by simp)
  · exact absurd h (by simp)

theorem update_refused {caller : Caller} {instanceId : String} {req : UpdateRequest}
    {t : Tables} {P : ServiceInstance → Prop}
    (h : updateAdmitted env caller instanceId req t=none) :
    (update env caller instanceId req t).Carries P := by
  simp only [updateAdmitted] at h
  simp only [update]
  split
  · exact carries_failure _ WritesOnly.nil
  · exact carries_failure _ WritesOnly.nil
  · next inst hg =>
    simp only [hg] at h
    split
    · exact carries_failure _ (writesOnly_audits _)
    · next hr =>
      have hp : env.faults.put=true := by simpa [hr] using h
      rw [if_pos hp]
      exact carries_failure _ (writesOnly_audits _)

end Admission

def Segment.acknowledges (seg : Segment) : Bool :=
  match seg.reply with
  | some (.ok .deprovisioned) => true
  | _ => false

section Deprovision
variable (env : Env)

theorem deleteRecord_effect (instanceId : String) (caller : Caller) (tenantId : String)
    {ws : List Write} (hws : ∀ P, WritesOnly P ws) :
    (deleteRecord env instanceId caller tenantId ws).acknowledges=true ∧
        (deleteRecord env instanceId caller tenantId ws).Deletes instanceId ∨
      (deleteRecord env instanceId caller tenantId ws).acknowledges=false ∧
        ∀ P, (deleteRecord env instanceId caller tenantId ws).Carries P := by
  rw [deleteRecord]
  split
  · exact Or.inr ⟨rfl, fun P => carries_failure _ (hws P)⟩
  · exact Or.inl ⟨rfl, ⟨ws, _, (hws _).writesBack, rfl⟩, rfl⟩

theorem deprovision_effect (caller : Caller) (instanceId : String) (t : Tables) :
    (deprovision env caller instanceId t).acknowledges=true ∧
        (deprovision env caller instanceId t).Deletes instanceId ∨
      (deprovision env caller instanceId t).acknowledges=false ∧
        ∀ P, (deprovision env caller instanceId t).Carries P := by
  simp only [deprovision]
  split
  · exact Or.inr ⟨rfl, fun P => carries_failure _ WritesOnly.nil⟩
  · exact Or.inr ⟨rfl, fun P => carries_failure _ WritesOnly.nil⟩
  · split
    · exact Or.inr ⟨rfl, fun P => carries_failure _ (writesOnly_audits _)⟩
    · split
      · exact deleteRecord_effect env _ _ _
          fun _ => (writesOnly_audits _).append (writesOnly_audit _)
      · exact Or.inr ⟨rfl, fun P => ⟨writesOnly_audits _, by simp [Task.copies]⟩⟩

theorem deprovisionTornDown_effect (instanceId : String) (inst : ServiceInstance)
    (caller : Caller) (tenantId : String) (result : Except String TeardownResult) :
    (deprovisionTornDown env instanceId inst caller tenantId result).acknowledges=true ∧
        (deprovisionTornDown env instanceId inst caller tenantId result).Deletes instanceId ∨
      (deprovisionTornDown env instanceId inst caller tenantId result).acknowledges=false ∧
        ∀ P, (deprovisionTornDown env instanceId inst caller tenantId result).Carries P :=
  deleteRecord_effect env instanceId caller tenantId fun _ => writesOnly_audit _

end Deprovision

section Tables
variable (hash : String → Nat)

theorem wellFormed_apply {t : Tables} (h : Store.WellFormed t.rows) (w : Write) :
    Store.WellFormed (w.apply hash t).rows := by
  cases w with
  | put inst => exact h.putInstance hash inst
  | delete instanceId => exact h.deleteInstance instanceId
  | putBinding b => exact h
  | deleteBinding bindingId => exact h
  | meter record => exact h
  | audit record => exact h

theorem wellFormed_writes {t : Tables} (h : Store.WellFormed t.rows) (ws : List Write) :
    Store.WellFormed (ws.foldl (Write.apply hash) t).rows := by
  induction ws generalizing t with
  | nil => exact h
  | cons w ws ih => exact ih (wellFormed_apply hash h w)

theorem stored_writes (ws : List Write) (hd : ∀ i, Write.delete i∉ws) (t : Tables)
    (instanceId : String) :
    Store.stored (ws.foldl (Write.apply hash) t).rows instanceId =
        Store.stored t.rows instanceId ∨
      ∃ x, Write.put x∈ws ∧ x.instanceId=instanceId ∧
        Store.stored (ws.foldl (Write.apply hash) t).rows instanceId=some x := by
  induction ws generalizing t with
  | nil => exact Or.inl rfl
  | cons w ws ih =>
    have hd' : ∀ i, Write.delete i∉ws := fun i hi => hd i (List.mem_cons_of_mem w hi)
    cases ih hd' (w.apply hash t) with
    | inr h =>
      obtain ⟨x, hx, hid, hs⟩ := h
      exact Or.inr ⟨x, List.mem_cons_of_mem w hx, hid, hs⟩
    | inl h =>
      simp only [List.foldl_cons]
      cases w with
      | put inst =>
        by_cases he : instanceId=inst.instanceId
        · refine Or.inr ⟨inst, List.mem_cons_self, he.symm, ?_⟩
          rw [h, Write.apply, Store.stored_putInstance, if_pos he]
        · refine Or.inl ?_
          rw [h, Write.apply, Store.stored_putInstance, if_neg he]
      | delete i => exact absurd List.mem_cons_self (hd i)
      | putBinding b => exact Or.inl h
      | deleteBinding bindingId => exact Or.inl h
      | meter record => exact Or.inl h
      | audit record => exact Or.inl h

theorem stored_plain {ws : List Write} (h : WritesBack (fun _ => False) ws) (t : Tables)
    (instanceId : String) : Store.stored (ws.foldl (Write.apply hash) t).rows instanceId =
      Store.stored t.rows instanceId := by
  cases stored_writes hash ws h.deletes t instanceId with
  | inl he => exact he
  | inr hx =>
    obtain ⟨x, hx, _, _⟩ := hx
    obtain ⟨_, hf, _⟩ := h.puts x hx
    exact hf.elim

variable {hash} {s : State}

theorem mem_tasks_run {resumed : Option Nat} {seg : Segment} {t : Nat × Task}
    (h : t∈(s.run hash resumed seg).tasks) : t∈s.tasks ∨ t.2∈seg.task := by
  simp only [State.run, List.mem_append] at h
  cases h with
  | inl h =>
    cases resumed with
    | none => exact Or.inl h
    | some id => exact Or.inl (List.mem_filter.mp h).1
  | inr h =>
    obtain ⟨task, htask, he⟩ := List.mem_map.mp h
    subst he
    exact Or.inr (by simpa using htask)

theorem copies_run {resumed : Option Nat} {seg : Segment} {x : ServiceInstance}
    (h : x∈(abs (s.run hash resumed seg)).copies) :
    x∈(abs s).copies ∨ ∃ task∈seg.task, x∈task.copies := by
  obtain ⟨t, ht, hx⟩ := List.mem_flatMap.mp h
  cases mem_tasks_run ht with
  | inl ht => exact Or.inl (List.mem_flatMap.mpr ⟨t, ht, hx⟩)
  | inr ht => exact Or.inr ⟨t.2, ht, hx⟩

theorem run_quiet {resumed : Option Nat} {seg : Segment} (h : seg.Quiet s.Source) :
    WriteBack.Quiet ServiceInstance.instanceId Touched (abs s) (abs (s.run hash resumed seg)) where
  table := by
    intro i
    cases stored_writes hash seg.writes h.writes.deletes s.tables i with
    | inl he => exact Or.inl he
    | inr hx =>
      obtain ⟨x, hx, hid, hst⟩ := hx
      obtain ⟨c, hc, ht⟩ := h.writes.puts x hx
      exact Or.inr ⟨x, c, hst, hid, hc, ht⟩
  copies := by
    intro x hx
    cases copies_run hx with
    | inl hx => exact ⟨x, Or.inl hx, Touched.refl x⟩
    | inr hx =>
      obtain ⟨task, ht, hx⟩ := hx
      exact h.copies task ht x hx

theorem run_stores {resumed : Option Nat} {seg : Segment} {x : ServiceInstance}
    (h : seg.Stores x) : WriteBack.Fresh ServiceInstance.instanceId x (abs s)
      (abs (s.run hash resumed seg)) := by
  obtain ⟨⟨ws, hws, hw⟩, hcopies⟩ := h
  have hst : ∀ i, Store.stored (s.run hash resumed seg).tables.rows i =
      if i=x.instanceId then some x else Store.stored s.tables.rows i := by
    intro i
    simp only [State.run, hw, List.foldl_append, List.foldl_cons, List.foldl_nil, Write.apply]
    rw [Store.stored_putInstance, stored_plain hash hws]
  refine ⟨?_, ?_, ?_⟩
  · exact (hst x.instanceId).trans (if_pos rfl)
  · intro i hi
    exact (hst i).trans (if_neg hi)
  · intro c hc
    cases copies_run hc with
    | inl hc => exact Or.inr hc
    | inr hc =>
      obtain ⟨task, ht, hc⟩ := hc
      rw [hcopies task ht] at hc
      exact Or.inl (List.mem_singleton.mp hc)

theorem run_deletes {resumed : Option Nat} {seg : Segment} {instanceId : String}
    (h : seg.Deletes instanceId) :
    WriteBack.Removed instanceId (abs s) (abs (s.run hash resumed seg)) := by
  obtain ⟨⟨ws, record, hws, hw⟩, htask⟩ := h
  have hst : ∀ i, Store.stored (s.run hash resumed seg).tables.rows i =
      if i=instanceId then none else Store.stored s.tables.rows i := by
    intro i
    simp only [State.run, hw, List.foldl_append, List.foldl_cons, List.foldl_nil, Write.apply]
    rw [Store.stored_deleteInstance, stored_plain hash hws]
  refine ⟨?_, ?_, ?_⟩
  · exact (hst instanceId).trans (if_pos rfl)
  · intro i hi
    exact (hst i).trans (if_neg hi)
  · intro c hc
    cases copies_run hc with
    | inl hc => exact hc
    | inr hc =>
      obtain ⟨task, ht, _⟩ := hc
      rw [htask] at ht
      cases ht

end Tables

end Sovereign.Broker
