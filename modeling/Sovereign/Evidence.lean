import Sovereign.Passes
import Sovereign.Interleaving

/-! The evidence of lifecycle transitions. Where a write ends an operation or removes an
instance, the segment that makes it should emit an audit event that records the end. -/
namespace Sovereign.Broker
open Sovereign Policy Renderers

inductive Ending where
  | succeeded | failed | absent
deriving DecidableEq

def Ending.ofStatus : InstanceStatus → Option Ending
  | .succeeded => some .succeeded
  | .failed => some .failed
  | _ => none

def Ending.ofOperation : Option OperationState → Option Ending
  | some .succeeded => some .succeeded
  | some .failed => some .failed
  | _ => none

def Ending.actions : Ending → List String
  | .succeeded => ["instance.provisioned", "instance.updated", "instance.reconciled"]
  | .failed => ["instance.provision_failed"]
  | .absent => ["instance.deprovisioned"]

/-- The ends at which `new` stands in its status or its operation state and `old` did not. -/
def reached (old new : ServiceInstance) : List Ending :=
  (if old.status=new.status then [] else (Ending.ofStatus new.status).toList) ++
  (if old.operationState=new.operationState then []
    else (Ending.ofOperation new.operationState).toList)

def Write.transitions (rows : List Row) : Write → List (String × Ending)
  | .put x =>
    (Store.stored rows x.instanceId).toList.flatMap fun y =>
      (reached y x).map fun e => (x.instanceId, e)
  | .delete i => if (Store.stored rows i).isSome then [(i, .absent)] else []
  | _ => []

def Write.records (e : String × Ending) : Write → Bool
  | .audit r => decide (r.resource=e.1) && decide (r.action∈e.2.actions)
  | _ => false

/-- Every transition that the writes `vs` make is recorded among `ws`. -/
def Accounted (hash : String → Nat) (ws : List Write) (t : Tables) (vs : List Write) : Prop :=
  Trace.Along (Write.apply hash)
    (fun t w => ∀ e∈w.transitions t.rows, ws.any (Write.records e)=true) t vs

instance (hash : String → Nat) (ws : List Write) (t : Tables) (vs : List Write) :
    Decidable (Accounted hash ws t vs) :=
  inferInstanceAs (Decidable (Trace.Along _ _ t vs))

def Segment.Accounts (hash : String → Nat) (t : Tables) (seg : Segment) : Prop :=
  Accounted hash seg.writes t seg.writes

instance (hash : String → Nat) (t : Tables) (seg : Segment) : Decidable (seg.Accounts hash t) :=
  inferInstanceAs (Decidable (Accounted _ _ _ _))

def Evidenced (hash : String → Nat) (s : State) (a : Env × Event) : Prop :=
  ∀ r∈segment a.1 s a.2, r.2.Accounts hash s.tables

instance (hash : String → Nat) (s : State) (a : Env × Event) :
    Decidable (Evidenced hash s a) :=
  inferInstanceAs (Decidable (∀ r∈segment a.1 s a.2, _))

/-! The puts that no event goes with. -/

/-- A copy that a handler writes back without an event: after the failed render of an
update, after a diff, at the start of a reconcile, and at the end of a provision that cannot
read the catalog. -/
inductive Silent where
  | failed (copy : ServiceInstance)
  | unmetered (copy : ServiceInstance)
  | refreshed (copy : ServiceInstance)
  | started (copy : ServiceInstance)

/-- The table already shows the ends that the written copy shows. -/
def Silent.Harmless (rows : List Row) : Silent → Prop
  | .failed c => ∀ y∈Store.stored rows c.instanceId,
      y.status=.failed ∧ y.operationState=some .failed
  | .unmetered c => ∀ y∈Store.stored rows c.instanceId,
      y.status=.succeeded ∧ y.operationState=some .succeeded
  | .refreshed c => ∀ y∈Store.stored rows c.instanceId,
      (Ending.ofStatus c.status≠none → y.status=c.status) ∧
      (Ending.ofOperation c.operationState≠none → y.operationState=c.operationState)
  | .started c => ∀ y∈Store.stored rows c.instanceId,
      Ending.ofStatus c.status≠none → y.status=c.status

instance Silent.decidableHarmless (rows : List Row) : ∀ w : Silent, Decidable (w.Harmless rows)
  | .failed c => inferInstanceAs (Decidable (∀ y∈Store.stored rows c.instanceId, _))
  | .unmetered c => inferInstanceAs (Decidable (∀ y∈Store.stored rows c.instanceId, _))
  | .refreshed c => inferInstanceAs (Decidable (∀ y∈Store.stored rows c.instanceId, _))
  | .started c => inferInstanceAs (Decidable (∀ y∈Store.stored rows c.instanceId, _))

/-- The copies that the resumed task writes back so. A record that was refreshed and then
started is written twice, the second time over itself. -/
def Task.silent (env : Env) : Task → Outcome → List Silent
  | .provision inst _ _ _, .rendered (.ok artifact) =>
    if env.faults.catalog && (appliedVersion inst artifact).isSome then [.unmetered inst] else []
  | .update inst _ _, .rendered (.error _) => [.failed inst]
  | .diff inst pass, .diffed result =>
    match refreshedDrift inst result with
    | some x =>
      .refreshed inst::(if needsReconcile x then []
        else (nextStart pass.refreshDrift pass.rest).toList.map .started)
    | none =>
      if needsReconcile inst then [.started inst]
      else (nextStart pass.refreshDrift pass.rest).toList.map .started
  | .reconcile _ pass, .rendered _ => (nextStart pass.refreshDrift pass.rest).toList.map .started
  | _, _ => []

def Task.Faithful (env : Env) (rows : List Row) (task : Task) (outcome : Outcome) : Prop :=
  env.faults.put=false → ∀ w∈task.silent env outcome, w.Harmless rows

instance (env : Env) (rows : List Row) (task : Task) (outcome : Outcome) :
    Decidable (task.Faithful env rows outcome) :=
  inferInstanceAs (Decidable (_ → ∀ w∈task.silent env outcome, w.Harmless rows))

def Faithful (s : State) (a : Env × Event) : Prop :=
  match a.2 with
  | .resume id outcome => ∀ task∈s.tasks.lookup id, task.Faithful a.1 s.tables.rows outcome
  | _ => True

instance (s : State) : ∀ a : Env × Event, Decidable (Faithful s a)
  | (env, .resume id outcome) =>
    inferInstanceAs (Decidable (∀ task∈s.tasks.lookup id,
      task.Faithful env s.tables.rows outcome))
  | (_, .request _ _) => isTrue trivial
  | (_, .tick) => isTrue trivial

section Accounted
variable {hash : String → Nat} {ws : List Write} {t : Tables} {env : Env}

theorem accounted_nil : Accounted hash ws t [] := trivial

theorem accounted_append {us vs : List Write} : Accounted hash ws t (us++vs) ↔
    Accounted hash ws t us ∧ Accounted hash ws (us.foldl (Write.apply hash) t) vs := by
  rw [Accounted, Trace.Along.append_iff, Trace.exec_eq_foldl]
  rfl

theorem accounted_cons {w : Write} {vs : List Write} : Accounted hash ws t (w::vs) ↔
    Accounted hash ws t [w] ∧ Accounted hash ws (w.apply hash t) vs := by
  simp [Accounted, Trace.Along]

theorem accounted_singleton {w : Write} : Accounted hash ws t [w] ↔
    ∀ e∈w.transitions t.rows, ws.any (Write.records e)=true := by
  simp [Accounted, Trace.Along]

/-- Writes that put and delete nothing make no transition. -/
theorem accounted_plain {vs : List Write} (h : WritesBack (fun _ => False) vs) :
    Accounted hash ws t vs := by
  induction vs generalizing t with
  | nil => trivial
  | cons w vs ih =>
    refine ⟨?_, ih ⟨fun x hx => h.puts x (List.mem_cons_of_mem w hx),
      fun i hi => h.deletes i (List.mem_cons_of_mem w hi)⟩⟩
    cases w with
    | put x =>
      obtain ⟨_, hf, _⟩ := h.puts x List.mem_cons_self
      exact hf.elim
    | delete i => exact absurd List.mem_cons_self (h.deletes i)
    | putBinding b => simp [Write.transitions]
    | deleteBinding i => simp [Write.transitions]
    | meter r => simp [Write.transitions]
    | audit r => simp [Write.transitions]

theorem accounted_carries {seg : Segment} (h : seg.Carries fun _ => False) :
    Accounted hash ws t seg.writes :=
  accounted_plain ⟨fun x hx => (h.writes.puts x hx).elim, h.writes.deletes⟩

theorem reached_eq_nil {y x : ServiceInstance} : reached y x=[] ↔
    (Ending.ofStatus x.status≠none → y.status=x.status) ∧
    (Ending.ofOperation x.operationState≠none → y.operationState=x.operationState) := by
  simp only [reached, List.append_eq_nil_iff, ite_eq_left_iff, Option.toList_eq_nil_iff]
  constructor
  · intro h
    exact ⟨fun hs => by_contra fun hn => hs (h.1 hn), fun ho => by_contra fun hn => ho (h.2 hn)⟩
  · intro h
    exact ⟨fun hn => by_contra fun hs => hn (h.1 hs), fun hn => by_contra fun ho => hn (h.2 ho)⟩

theorem put_transitions_eq_nil {rows : List Row} {x : ServiceInstance} :
    (Write.put x).transitions rows=[] ↔ ∀ y∈Store.stored rows x.instanceId, reached y x=[] := by
  simp [Write.transitions, List.flatMap_eq_nil_iff]

theorem accounted_silent {x : ServiceInstance}
    (h : ∀ r, Write.audit r∈ws → r.resource≠x.instanceId) :
    Accounted hash ws t [.put x] ↔ ∀ y∈Store.stored t.rows x.instanceId, reached y x=[] := by
  rw [accounted_singleton, ← put_transitions_eq_nil]
  constructor
  · intro hacc
    refine List.eq_nil_iff_forall_not_mem.mpr fun e he => ?_
    have hid : e.1=x.instanceId := by
      obtain ⟨y, _, hy⟩ := List.mem_flatMap.mp he
      obtain ⟨_, _, heq⟩ := List.mem_map.mp hy
      rw [← heq]
    obtain ⟨w, hw, hrec⟩ := List.any_eq_true.mp (hacc e he)
    cases w with
    | audit r =>
      have hr : r.resource=e.1 ∧ r.action∈e.2.actions := by simpa [Write.records] using hrec
      exact h r hw (hr.1.trans hid)
    | put y => cases hrec
    | delete i => cases hrec
    | putBinding b => cases hrec
    | deleteBinding i => cases hrec
    | meter r => cases hrec
  · intro hnil e he
    rw [hnil] at he
    cases he

/-! The events of a segment name the instance it ends. -/

theorem accounted_putOr {x : ServiceInstance}
    (h : ∀ r, Write.audit r∈ws → r.resource≠x.instanceId) :
    Accounted hash ws t (putOr env x) ↔
      (env.faults.put=false → ∀ y∈Store.stored t.rows x.instanceId, reached y x=[]) := by
  rw [putOr]
  cases env.faults.put with
  | true => simp [accounted_nil]
  | false => simpa using accounted_silent h

theorem reached_started {y c : ServiceInstance} : reached y (reconcileStarted c)=[] ↔
    (Ending.ofStatus c.status≠none → y.status=c.status) := by
  rw [reached_eq_nil]
  simp [reconcileStarted, beginOperation, Ending.ofOperation]

theorem reached_refreshed {y c x : ServiceInstance} {result : Option Artifact}
    (h : refreshedDrift c result=some x) : reached y x=[] ↔
      (Ending.ofStatus c.status≠none → y.status=c.status) ∧
      (Ending.ofOperation c.operationState≠none → y.operationState=c.operationState) := by
  have he : x.status=c.status ∧ x.operationState=c.operationState := by
    simp only [refreshedDrift] at h
    split at h
    · cases h
    · split at h
      · cases h
      · cases h
        exact ⟨rfl, rfl⟩
  rw [reached_eq_nil, he.1, he.2]

theorem reached_failed {y c : ServiceInstance} {fault : RenderFault} :
    reached y (markOperationFailed { c with status := .failed } fault)=[] ↔
      y.status=.failed ∧ y.operationState=some .failed := by
  rw [reached_eq_nil]
  simp [markOperationFailed, Ending.ofStatus, Ending.ofOperation]

theorem accounted_start {c : ServiceInstance}
    (h : ∀ r, Write.audit r∈ws → r.resource≠c.instanceId) :
    Accounted hash ws t (putOr env (reconcileStarted c)) ↔
      (env.faults.put=false → (Silent.started c).Harmless t.rows) := by
  rw [accounted_putOr (x := reconcileStarted c) h]
  simp only [reached_started]
  rfl

theorem accounted_failed {c : ServiceInstance} {fault : RenderFault}
    (h : ∀ r, Write.audit r∈ws → r.resource≠c.instanceId) :
    Accounted hash ws t [.put (markOperationFailed { c with status := .failed } fault)] ↔
      (Silent.failed c).Harmless t.rows := by
  rw [accounted_silent (x := markOperationFailed { c with status := .failed } fault) h]
  simp only [reached_failed]
  rfl

theorem accounted_startWrites {refreshDrift : Bool} {list : List ServiceInstance}
    (h : ∀ c∈list, ∀ r, Write.audit r∈ws → r.resource≠c.instanceId) :
    Accounted hash ws t (startWrites env refreshDrift list) ↔
      (env.faults.put=false →
        ∀ w∈(nextStart refreshDrift list).toList.map Silent.started, w.Harmless t.rows) := by
  cases hn : nextStart refreshDrift list with
  | none => simp [startWrites, hn, accounted_nil]
  | some c =>
    simpa [startWrites, hn] using accounted_start (h c (nextStart_mem hn))

/-- A put that ends an operation is accounted for by an event that records the end. -/
theorem accounted_recorded {x : ServiceInstance} {e : Ending} {r : AuditRecord}
    (hs : Ending.ofStatus x.status=some e) (ho : Ending.ofOperation x.operationState=some e)
    (hr : Write.audit r∈ws) (hid : r.resource=x.instanceId) (ha : r.action∈e.actions) :
    Accounted hash ws t [.put x] := by
  rw [accounted_singleton]
  intro d hd
  obtain ⟨y, _, hy⟩ := List.mem_flatMap.mp hd
  obtain ⟨e', he', heq⟩ := List.mem_map.mp hy
  have hee : e'=e := by
    simp only [reached, hs, ho, List.mem_append] at he'
    cases he' with
    | inl h =>
      split at h
      · cases h
      · exact List.mem_singleton.mp h
    | inr h =>
      split at h
      · cases h
      · exact List.mem_singleton.mp h
  subst heq hee
  exact List.any_eq_true.mpr ⟨.audit r, hr, by simp [Write.records, hid, ha]⟩

theorem succeeded_ends {inst x : ServiceInstance} {artifact : Artifact}
    (h : markOperationSucceeded { inst with status := .succeeded } artifact=some x) :
    Ending.ofStatus x.status=some .succeeded ∧
      Ending.ofOperation x.operationState=some .succeeded := by
  obtain ⟨version, _, hx⟩ := Option.map_eq_some_iff.mp h
  subst hx
  exact ⟨rfl, rfl⟩

/-- A finalize accounts for the end of its operation. -/
theorem Finalizes.accounted {inst : ServiceInstance} {recordUsage : Bool} {auditAction : String}
    {us : List Write} (h : Finalizes env inst recordUsage auditAction us)
    (hread : (recordUsage && env.faults.catalog)=false)
    (ha : auditAction∈Ending.succeeded.actions) (hws : ∀ w∈us, w∈ws) :
    Accounted hash ws t us := by
  cases h with
  | unmetered artifact x hx hunread =>
    rw [hread] at hunread
    cases hunread
  | failed fault r hact hres =>
    refine accounted_append.mpr ⟨?_, accounted_plain (writesOnly_audit _).writesBack⟩
    rw [putOr]
    split
    · exact accounted_nil
    · have hr : Write.audit r∈ws := hws _ (List.mem_append_right _ List.mem_cons_self)
      refine accounted_recorded (e := .failed) rfl rfl hr hres ?_
      simp [Ending.actions, hact]
  | raised => exact accounted_nil
  | succeeded artifact x meters r hx hm hact hres =>
    obtain ⟨hs, ho⟩ := succeeded_ends hx
    have hr : Write.audit r∈ws :=
      hws _ (List.mem_cons_of_mem _ (List.mem_append_right _ List.mem_cons_self))
    refine accounted_cons.mpr ⟨?_, accounted_append.mpr ⟨accounted_plain ⟨?_, ?_⟩,
      accounted_plain (writesOnly_audit _).writesBack⟩⟩
    · exact accounted_recorded hs ho hr (hres.trans (touched_succeeded hx).instanceId.symm)
        (hact ▸ ha)
    · intro y hy
      obtain ⟨_, he⟩ := hm _ hy
      cases he
    · intro i hi
      obtain ⟨_, he⟩ := hm _ hi
      cases he

theorem Finalizes.resources {inst : ServiceInstance} {recordUsage : Bool} {auditAction : String}
    {us : List Write} (h : Finalizes env inst recordUsage auditAction us) {r : AuditRecord}
    (hr : Write.audit r∈us) : r.resource=inst.instanceId := by
  cases h with
  | unmetered artifact x hx hunread => cases List.mem_singleton.mp hr
  | failed fault r' hact hres =>
    cases List.mem_append.mp hr with
    | inl hr =>
      rw [putOr] at hr
      split at hr
      · cases hr
      · cases List.mem_singleton.mp hr
    | inr hr =>
      cases List.mem_singleton.mp hr
      exact hres
  | raised => cases hr
  | succeeded artifact x meters r' hx hm hact hres =>
    cases List.mem_append.mp ((List.mem_cons.mp hr).resolve_left (by simp)) with
    | inl hr =>
      obtain ⟨_, he⟩ := hm _ hr
      cases he
    | inr hr =>
      cases List.mem_singleton.mp hr
      exact hres

theorem stored_putOr_other {x : ServiceInstance} {i : String} (h : i≠x.instanceId) :
    Store.stored ((putOr env x).foldl (Write.apply hash) t).rows i=Store.stored t.rows i := by
  rw [putOr]
  split
  · rfl
  · exact Store.stored_putInstance_other hash x t.rows i h

theorem stored_finalize_other {inst : ServiceInstance} {caller : Caller} {tenantId : String}
    {recordUsage : Bool} {auditAction : String} {result : Except RenderFault Artifact}
    {i : String} (h : i≠inst.instanceId) :
    Store.stored ((finalizeProvision env inst caller tenantId recordUsage auditAction
      result).writes.foldl (Write.apply hash) t).rows i=Store.stored t.rows i := by
  have hk : Kept fun x => x.instanceId=inst.instanceId :=
    ⟨fun _ _ hc => hc, fun _ hc => hc,
      fun _ _ _ hc hr => (touched_refreshedDrift hr).instanceId.trans hc⟩
  have hw : WritesOnly (fun x => x.instanceId=inst.instanceId)
      (finalizeProvision env inst caller tenantId recordUsage auditAction result).writes :=
    finalizeProvision_writes hk inst caller tenantId recordUsage auditAction result rfl
      fun _ _ _ _ hx => (touched_succeeded hx).instanceId
  cases stored_writes hash _ hw.deletes t i with
  | inl he => exact he
  | inr hx =>
    obtain ⟨x, hx, hid, _⟩ := hx
    exact absurd (hid.symm.trans (hw.puts x hx)) h

/-- Whether a start is harmless depends on the stored record of its instance. -/
theorem starts_frame {rows rows' : List Row} {refreshDrift : Bool} {list : List ServiceInstance}
    (h : ∀ c∈list, Store.stored rows' c.instanceId=Store.stored rows c.instanceId) :
    (∀ w∈(nextStart refreshDrift list).toList.map Silent.started, w.Harmless rows') ↔
      ∀ w∈(nextStart refreshDrift list).toList.map Silent.started, w.Harmless rows := by
  cases hn : nextStart refreshDrift list with
  | none => simp
  | some c => simp [Silent.Harmless, h c (nextStart_mem hn)]

end Accounted

section Resumed
variable {hash : String → Nat} {t : Tables} {env : Env}

theorem reached_succeeded {inst x y : ServiceInstance} {artifact : Artifact}
    (h : markOperationSucceeded { inst with status := .succeeded } artifact=some x) :
    reached y x=[] ↔ y.status=.succeeded ∧ y.operationState=some .succeeded := by
  obtain ⟨version, _, rfl⟩ := Option.map_eq_some_iff.mp h
  rw [reached_eq_nil]
  simp [Ending.ofStatus, Ending.ofOperation]

theorem provisionRendered_accounts (inst : ServiceInstance) (caller : Caller) (tenantId : String)
    (background : Bool) (result : Except RenderFault Artifact) :
    (provisionRendered env inst caller tenantId background result).Accounts hash t ↔
      (Task.provision inst caller tenantId background).Faithful env t.rows (.rendered result) := by
  have hrecorded : "instance.provisioned"∈Ending.succeeded.actions := by simp [Ending.actions]
  cases result with
  | error fault =>
    refine iff_of_true ?_ (by simp [Task.Faithful, Task.silent])
    exact (finalizeProvision_finalizes env inst caller tenantId false "instance.provisioned"
      (.error fault)).accounted rfl hrecorded fun _ hw => hw
  | ok artifact =>
    cases hc : env.faults.catalog with
    | false =>
      refine iff_of_true ?_ (by simp [Task.Faithful, Task.silent, hc])
      exact (finalizeProvision_finalizes env inst caller tenantId true _ (.ok artifact)).accounted
        (by rw [hc]; rfl) hrecorded fun _ hw => hw
    | true =>
      simp only [Task.Faithful, Task.silent, hc, Bool.true_and]
      rw [Segment.Accounts, provisionRendered]
      cases hx : markOperationSucceeded { inst with status := .succeeded } artifact with
      | none =>
        have hv : appliedVersion inst artifact=none := Option.map_eq_none_iff.mp hx
        simp [finalizeProvision, hx, hv, accounted_nil]
      | some x =>
        obtain ⟨version, hv, _⟩ := Option.map_eq_some_iff.mp hx
        have hv' : appliedVersion inst artifact=some version := hv
        have hid : x.instanceId=inst.instanceId := (touched_succeeded hx).instanceId
        cases hp : env.faults.put with
        | true => simp [finalizeProvision, hx, hp, accounted_nil]
        | false =>
          simp only [finalizeProvision, hx, hp, hc, hv', Bool.false_eq_true, if_false,
            Bool.true_and, if_true, Option.isSome_some, List.mem_singleton, forall_eq,
            forall_const]
          rw [accounted_silent (by simp), hid]
          simp only [reached_succeeded hx]
          rfl

theorem updateRendered_accounts (inst : ServiceInstance) (caller : Caller) (tenantId : String)
    (result : Except RenderFault Artifact) :
    (updateRendered env inst caller tenantId result).Accounts hash t ↔
      (Task.update inst caller tenantId).Faithful env t.rows (.rendered result) := by
  cases result with
  | error fault =>
    simp only [updateRendered, Task.Faithful, Task.silent, List.mem_singleton, forall_eq]
    cases env.faults.put with
    | true => simpa [Segment.Accounts, Broker.failure] using accounted_nil
    | false =>
      simpa [Segment.Accounts, Broker.failure] using accounted_failed (c := inst) (by simp)
  | ok artifact =>
    simp only [updateRendered, Task.Faithful, Task.silent, List.not_mem_nil, false_implies,
      implies_true, iff_true]
    split
    · exact accounted_nil
    · next x hx =>
      obtain ⟨hs, ho⟩ := succeeded_ends hx
      split
      · exact accounted_nil
      · refine accounted_cons.mpr ⟨?_, accounted_plain (writesOnly_audit _).writesBack⟩
        exact accounted_recorded hs ho (List.mem_cons_of_mem _ List.mem_cons_self) rfl
          (by simp [Ending.actions])

theorem deleteRecord_accounts (instanceId : String) (caller : Caller) (tenantId : String)
    {ws : List Write} (hws : WritesBack (fun _ => False) ws) :
    (deleteRecord env instanceId caller tenantId ws).Accounts hash t := by
  rw [deleteRecord]
  split
  · exact accounted_plain hws
  · refine accounted_append.mpr ⟨accounted_plain hws, ?_⟩
    refine ⟨?_, accounted_plain (writesOnly_audit _).writesBack⟩
    intro e he
    simp only [Write.transitions] at he
    split at he
    · rw [List.mem_singleton.mp he]
      simp [Write.records, Ending.actions]
    · cases he

theorem reconcileRendered_accounts (inst : ServiceInstance) (pass : Pass)
    (result : Except RenderFault Artifact) (hn : (Task.reconcile inst pass).ids.Nodup) :
    (reconcileRendered env inst pass result).Accounts hash t ↔
      (Task.reconcile inst pass).Faithful env t.rows (.rendered result) := by
  have hne : ∀ c∈pass.rest, c.instanceId≠inst.instanceId := rest_ne hn
  rw [Segment.Accounts, reconcileRendered, reconcileNext_writes, accounted_append]
  rw [accounted_startWrites, starts_frame fun c hc => stored_finalize_other (hne c hc)]
  · refine and_iff_right ?_
    exact (finalizeProvision_finalizes env inst systemReconciler _ false _ result).accounted rfl
      (by simp [Ending.actions]) fun w hw => List.mem_append_left _ hw
  · intro c hc r hr
    cases List.mem_append.mp hr with
    | inl hr =>
      rw [(finalizeProvision_finalizes env inst systemReconciler _ false _ result).resources hr]
      exact (hne c hc).symm
    | inr hr =>
      obtain ⟨_, _, he⟩ := startWrites_puts hr
      cases he

theorem diffed_no_event {inst : ServiceInstance} {pass : Pass} {result : Option Artifact}
    (r : AuditRecord) : Write.audit r∉(diffed env inst pass result).writes := by
  have hput : ∀ x, Write.audit r∉putOr env x := by
    intro x
    rw [putOr]
    split <;> simp
  have hstart : Write.audit r∉startWrites env pass.refreshDrift pass.rest := by
    intro h
    obtain ⟨_, _, he⟩ := startWrites_puts h
    cases he
  cases hr : refreshedDrift inst result with
  | none =>
    rw [diffed_writes_unknown env pass hr]
    split
    · exact hput _
    · exact hstart
  | some x =>
    rw [diffed_writes_refreshed env pass hr, List.mem_append]
    split
    · exact not_or.mpr ⟨hput x, hput _⟩
    · exact not_or.mpr ⟨hput x, hstart⟩

theorem started_harmless (x : ServiceInstance) (h : env.faults.put=false) :
    (Silent.started x).Harmless ((putOr env x).foldl (Write.apply hash) t).rows := by
  intro y hy _
  simp only [putOr, h, Bool.false_eq_true, if_false, List.foldl_cons, List.foldl_nil, Write.apply,
    Store.stored_putInstance_same] at hy
  cases hy
  rfl

theorem diffed_accounts (inst : ServiceInstance) (pass : Pass) (result : Option Artifact)
    (hn : (Task.diff inst pass).ids.Nodup) :
    (diffed env inst pass result).Accounts hash t ↔
      (Task.diff inst pass).Faithful env t.rows (.diffed result) := by
  have hne : ∀ c∈pass.rest, c.instanceId≠inst.instanceId := rest_ne hn
  have hev : ∀ i r, Write.audit r∈(diffed env inst pass result).writes → r.resource≠i :=
    fun _ r hr => absurd hr (diffed_no_event r)
  rw [Segment.Accounts, Task.Faithful]
  generalize hws : (diffed env inst pass result).writes=ws at hev ⊢
  cases hr : refreshedDrift inst result with
  | none =>
    rw [diffed_writes_unknown env pass hr] at hws
    simp only [Task.silent, hr]
    nth_rewrite 2 [← hws]
    split
    · rw [accounted_start (hev _)]
      simp
    · rw [accounted_startWrites fun c _ => hev _]
  | some x =>
    have hid := (touched_refreshedDrift hr).instanceId
    rw [diffed_writes_refreshed env pass hr] at hws
    simp only [Task.silent, hr]
    nth_rewrite 2 [← hws]
    rw [accounted_append, accounted_putOr (hev _), hid]
    simp only [reached_refreshed hr, List.forall_mem_cons]
    split
    · rw [accounted_start (hev _)]
      constructor
      · intro h hp
        exact ⟨h.1 hp, by simp⟩
      · intro h
        exact ⟨fun hp => (h hp).1, started_harmless x⟩
    · rw [accounted_startWrites fun c _ => hev _,
        starts_frame fun c hc => stored_putOr_other (hid ▸ hne c hc)]
      exact (forall_and).symm

theorem resume_accounts {task : Task} {outcome : Outcome} {seg : Segment}
    (h : task.resume env outcome=some seg) (hn : task.ids.Nodup) :
    seg.Accounts hash t ↔ task.Faithful env t.rows outcome := by
  cases resumed_of_resume h with
  | provision inst caller tenantId background result =>
    exact provisionRendered_accounts inst caller tenantId background result
  | update inst caller tenantId result => exact updateRendered_accounts inst caller tenantId result
  | teardown instanceId inst caller tenantId result =>
    refine iff_of_true ?_ (by simp [Task.Faithful, Task.silent])
    exact deleteRecord_accounts instanceId caller tenantId (writesOnly_audit _).writesBack
  | diff inst pass result => exact diffed_accounts inst pass result hn
  | abandoned inst pass =>
    exact iff_of_true accounted_nil (by simp [Task.Faithful, Task.silent])
  | reconcile inst pass result => exact reconcileRendered_accounts inst pass result hn

theorem silent_of_stuck {task : Task} {outcome : Outcome} (h : task.resume env outcome=none) :
    task.silent env outcome=[] := by
  cases task with
  | provision inst caller tenantId background =>
    cases outcome with
    | rendered result => cases h
    | diffed result => rfl
    | diffRaised => rfl
    | tornDown result => rfl
  | update inst caller tenantId =>
    cases outcome with
    | rendered result => cases h
    | diffed result => rfl
    | diffRaised => rfl
    | tornDown result => rfl
  | teardown instanceId inst caller tenantId => cases outcome <;> rfl
  | diff inst pass =>
    cases outcome with
    | rendered result => rfl
    | diffed result => cases h
    | diffRaised => rfl
    | tornDown result => rfl
  | reconcile inst pass =>
    cases outcome with
    | rendered result => cases h
    | diffed result => rfl
    | diffRaised => rfl
    | tornDown result => rfl

end Resumed

/-! Requests and the timer: they end nothing but a deprovision that finds no renderer. -/

section Started
variable {hash : String → Nat} {t : Tables} {env : Env}

theorem startPass_accounts (refreshDrift manual : Bool) {list : List ServiceInstance}
    (h : ∀ c∈list, Store.stored t.rows c.instanceId=some c) :
    (startPass env refreshDrift manual list).Accounts hash t := by
  rw [Segment.Accounts, startPass_writes, accounted_startWrites]
  · intro _ w hw
    obtain ⟨c, hc, he⟩ := List.mem_map.mp hw
    have hst := h c (nextStart_mem (by simpa using hc))
    subst he
    intro y hy _
    rw [hst] at hy
    cases hy
    rfl
  · intro c _ r hr
    obtain ⟨_, _, he⟩ := startWrites_puts hr
    cases he

theorem provision_accounts (caller : Caller) (instanceId : String) (req : ProvisionRequest)
    (acceptsIncomplete : Bool) :
    (provision env caller instanceId req acceptsIncomplete t).Accounts hash t := by
  cases ha : provisionAdmitted env caller instanceId req t with
  | false => exact accounted_carries (provision_refused acceptsIncomplete ha)
  | true =>
    obtain ⟨ws, hws, he⟩ := (provision_admitted acceptsIncomplete ha).writes
    rw [Segment.Accounts, he]
    refine accounted_append.mpr ⟨accounted_plain hws, accounted_singleton.mpr ?_⟩
    rw [put_transitions_eq_nil.mpr]
    · simp
    · intro y _
      rw [reached_eq_nil]
      simp [provisionedRecord, beginOperation, ServiceInstance.ofRequest, Ending.ofStatus,
        Ending.ofOperation]

theorem update_accounts (caller : Caller) (instanceId : String) (req : UpdateRequest)
    (hw : Store.WellFormed t.rows) :
    (Broker.update env caller instanceId req t).Accounts hash t := by
  cases ha : updateAdmitted env caller instanceId req t with
  | none => exact accounted_carries (update_refused ha)
  | some inst =>
    obtain ⟨hst, hs⟩ := update_admitted ha
    obtain ⟨ws, hws, he⟩ := hs.writes
    have hid : inst.instanceId=instanceId := hw.stored_eq hst
    rw [Segment.Accounts, he]
    refine accounted_append.mpr ⟨accounted_plain hws, accounted_singleton.mpr ?_⟩
    rw [put_transitions_eq_nil.mpr]
    · simp
    · intro y hy
      have hy' : Store.stored t.rows inst.instanceId=some y :=
        (stored_plain hash hws t _).symm.trans hy
      rw [hid, hst] at hy'
      cases hy'
      rw [reached_eq_nil]
      simp [updatedRecord, beginOperation, Ending.ofOperation]

theorem deprovision_accounts (caller : Caller) (instanceId : String) :
    (deprovision env caller instanceId t).Accounts hash t := by
  simp only [deprovision]
  split
  · exact accounted_nil
  · exact accounted_nil
  · split
    · exact accounted_plain (writesOnly_audits _).writesBack
    · split
      · exact deleteRecord_accounts _ _ _
          ((writesOnly_audits _).append (writesOnly_audit _)).writesBack
      · exact accounted_plain (writesOnly_audits _).writesBack

theorem reconcile_accounts (caller : Caller) (instanceId : Option String) (limit : Int)
    (hw : Store.WellFormed t.rows) :
    (reconcile env caller instanceId limit t).Accounts hash t := by
  obtain h | ⟨list, he, _, hstored⟩ := reconcile_cases env caller instanceId limit t
  · exact accounted_carries (h _)
  · rw [he]
    exact startPass_accounts false true (hstored hw)

theorem serve_accounts (caller : Caller) (req : Request) (hw : Store.WellFormed t.rows) :
    (serve env caller t req).Accounts hash t := by
  cases req with
  | provision instanceId r b => exact provision_accounts caller instanceId r b
  | update instanceId r => exact update_accounts caller instanceId r hw
  | deprovision instanceId => exact deprovision_accounts caller instanceId
  | bind instanceId b r =>
    exact accounted_carries (withBinding_carries _ _ _ _ _
      fun _ _ => carries_done (binding_writes (by simp) (by simp)))
  | unbind instanceId b =>
    exact accounted_carries (withBinding_carries _ _ _ _ _
      fun _ _ => carries_done (binding_writes (by simp) (by simp)))
  | reconcile instanceId limit => exact reconcile_accounts caller instanceId limit hw

end Started

section Run
variable {hash : String → Nat} {s : State}

theorem evidenced_step (hw : Store.WellFormed s.tables.rows) (hd : s.Distinct)
    (a : Env × Event) : Evidenced hash s a ↔ Faithful s a := by
  obtain ⟨env, event⟩ := a
  cases event with
  | request auth req =>
    refine iff_of_true ?_ trivial
    intro r hr
    simp only [segment] at hr
    split at hr
    · cases hr
      exact accounted_nil
    · cases hr
      exact serve_accounts _ req hw
  | tick =>
    refine iff_of_true ?_ trivial
    intro r hr
    cases hr
    exact startPass_accounts true false fun c hc => stored_of_mem_scanned env hw hc
  | resume id outcome =>
    simp only [Evidenced, Faithful, segment]
    cases hl : s.tasks.lookup id with
    | none => simp
    | some task =>
      cases hres : task.resume env outcome with
      | none => simp [hres, Task.Faithful, silent_of_stuck hres]
      | some seg =>
        have hn : task.ids.Nodup := hd (id, task) (mem_tasks_of_lookup hl)
        simpa [hres] using resume_accounts hres hn

/-- Along every run from a well-formed table with no handler at work, every transition to
`succeeded`, to `failed` or to an absent record is recorded by an event of its segment, if
and only if no handler writes back, without an event, a copy that shows an end which the
table does not. -/
theorem lifecycle_evidence_iff (hash : String → Nat) (t : Tables)
    (hw : Store.WellFormed t.rows) (as : List (Env × Event)) :
    Trace.Along (step hash) (Evidenced hash) { tables := t } as ↔
      Trace.Along (step hash) Faithful { tables := t } as := by
  refine Trace.Along.iff_of_invariant
    (fun s => Store.WellFormed s.tables.rows ∧ s.Distinct) ?_ ?_ ?_ as
  · intro s a hI _
    exact ⟨step_wellFormed hash hI.1 a, step_distinct hI.1 hI.2⟩
  · intro s a hI
    exact evidenced_step hI.1 hI.2 a
  · exact ⟨hw, by simp [State.Distinct]⟩

end Run

def Tables.events (t : Tables) (instanceId : String) : List String :=
  (t.audits.filter fun r => decide (r.resource=instanceId)).map fun r => r.action

def recordedRun : List (Env × Event) :=
  [provisionEvent, .resume 0 (.rendered (.ok [])), .tick,
    .resume 2 (.diffed (some [("drifted", .bool true)])),
    .resume 2 (.rendered (.error (.http "timeout"))), deprovisionEvent,
    .resume 5 tornDownOk].map fun e => (sampleEnv, e)

theorem lifecycle_evidence_recorded :
    (Trace.exec (step fun _ => 0) {} recordedRun).tables.events "lb-1" =
      ["instance.provisioned", "instance.provision_failed", "instance.torn_down",
        "instance.deprovisioned"] ∧
    Trace.Along (step fun _ => 0) (Evidenced fun _ => 0) {} recordedRun :=
  ⟨by decide +kernel, (lifecycle_evidence_iff _ {} Store.WellFormed.nil _).mpr (by decide +kernel)⟩

def failedUpdateRun : List (Env × Event) :=
  [provisionEvent, .resume 0 (.rendered (.ok [])), updateEvent,
    .resume 2 (.rendered (.error (.http "timeout")))].map fun e => (sampleEnv, e)

/-- A reconcile by request fails on an update in progress; then a diff that was awaited
since before the update brings the old copy back. -/
def staleRefreshRun : List (Env × Event) :=
  [provisionEvent, .resume 0 (.rendered (.ok [])), .tick, updateEvent,
    .request operator (.reconcile (some "lb-1") 1),
    .resume 4 (.rendered (.error (.http "timeout"))),
    .resume 2 (.diffed (some [("drifted", .bool false)]))].map fun e => (sampleEnv, e)

/-- The failed update leaves a failed record and no event; the diff turns a failed record
into a succeeded one. -/
theorem failed_update_unrecorded :
    ((Store.stored (Trace.exec (step fun _ => 0) {} failedUpdateRun).tables.rows "lb-1").map
      fun x => (x.status, x.operationState))=some (.failed, some .failed) ∧
    (Trace.exec (step fun _ => 0) {} failedUpdateRun).tables.events "lb-1" =
      ["instance.provisioned"] ∧
    ¬ Trace.Along (step fun _ => 0) (Evidenced fun _ => 0) {} failedUpdateRun ∧
    ((Store.stored (Trace.exec (step fun _ => 0) {} staleRefreshRun).tables.rows "lb-1").map
      fun x => (x.status, x.operationState))=some (.succeeded, some .succeeded) ∧
    (Trace.exec (step fun _ => 0) {} staleRefreshRun).tables.events "lb-1" =
      ["instance.provisioned", "instance.provision_failed"] ∧
    ¬ Trace.Along (step fun _ => 0) (Evidenced fun _ => 0) {} staleRefreshRun := by
  decide +kernel

end Sovereign.Broker
