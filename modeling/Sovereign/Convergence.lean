import Sovereign.ManualPass

/-! What a pass without faults makes of the table: every record is settled by one pass, and a
pass over settled records that meets no drift changes nothing but drift statuses. -/
namespace Sovereign.Broker
open Sovereign

inductive Way where
  | timer
  | manual (auth : AuthHeader) (limit : Int)

namespace Way

def run (hash : String → Nat) (env : Env) (p : Answers) (t : Tables) : Way → Answered
  | .timer => periodicPass hash env p.readable t
  | .manual auth limit => manualPass hash env p.readable auth limit t

def refreshes : Way → Bool
  | .timer => true
  | .manual _ _ => false

def batch (env : Env) : Way → Int
  | .timer => env.settings.reconcileBatchLimit
  | .manual _ limit => limit

def Allowed (env : Env) : Way → Prop
  | .timer => True
  | .manual auth _ =>
    ∃ caller, stateChangeIdentify env.settings env.decode auth=.ok caller ∧ caller.isBasic=true

end Way

/-- The table fits in one batch of the pass, one answer of a scan holds it, and the store has
no faults. -/
structure Way.Fits (w : Way) (env : Env) (t : Tables) : Prop where
  allowed : w.Allowed env
  batch : t.rows.length ≤ Store.pageLimit (w.batch env)
  page : t.rows.length ≤ env.fits
  put : env.faults.put=false
  scan : env.faults.scan=false

def Answers.Render (p : Answers) : Prop :=
  ∀ inst, ∃ artifact, p.render inst=.ok artifact ∧
    Json.lookup "version" artifact=some (.num inst.version)

def ReconcileResult.acted (r : ReconcileResult) : Bool :=
  decide (r.action∈["reconciled", "failed"])

def changed (results : List ReconcileResult) : Nat := (results.filter ReconcileResult.acted).length

structure SameOrder (x y : ServiceInstance) : Prop where
  instanceId : y.instanceId=x.instanceId
  version : y.version=x.version
  planId : y.planId=x.planId
  parameters : y.parameters=x.parameters
  serviceId : y.serviceId=x.serviceId
  organizationGuid : y.organizationGuid=x.organizationGuid
  createdAt : y.createdAt=x.createdAt

section Record
variable {env : Env} {p : Answers} {inst : ServiceInstance}

theorem acted_rendered (inst : ServiceInstance) (done : Finalized) :
    (renderedResult inst done).acted=true := by
  rw [renderedResult]
  split <;> rfl

theorem acted_iff (env : Env) (p : Answers) (refreshDrift : Bool) (inst : ServiceInstance) :
    (reconcileInstance env p refreshDrift inst).2.acted=
      needsReconcile (refreshedRecord p refreshDrift inst) := by
  cases h : needsReconcile (refreshedRecord p refreshDrift inst) with
  | true => rw [(left_reconciled env p refreshDrift h).1, acted_rendered]
  | false =>
    rw [(left_skipped env p refreshDrift h).1]
    rfl

theorem sameOrder_succeeded {x : ServiceInstance} {artifact : Artifact}
    (h : markOperationSucceeded { inst with status := .succeeded } artifact=some x) :
    SameOrder inst x ∧ x.reconcileAttempts=inst.reconcileAttempts := by
  obtain ⟨version, _, rfl⟩ := Option.map_eq_some_iff.mp h
  exact ⟨⟨rfl, rfl, rfl, rfl, rfl, rfl, rfl⟩, rfl⟩

theorem stored_reconcileDone (p : Answers) (inst : ServiceInstance)
    (hput : env.faults.put=false) :
    ∃ x, (reconcileDone env p inst).writes.foldl (Write.onStored inst.instanceId) (some inst)=
        some x ∧ SameOrder inst x ∧ x.reconcileAttempts=inst.reconcileAttempts := by
  rw [reconcileDone]
  cases p.render inst with
  | error fault =>
    refine ⟨markOperationFailed { inst with status := .failed } fault, ?_,
      ⟨rfl, rfl, rfl, rfl, rfl, rfl, rfl⟩, rfl⟩
    simp [finalizeProvision, putOr, hput, Write.onStored, markOperationFailed]
  | ok artifact =>
    cases hm : markOperationSucceeded { inst with status := .succeeded } artifact with
    | none =>
      refine ⟨inst, ?_, ⟨rfl, rfl, rfl, rfl, rfl, rfl, rfl⟩, rfl⟩
      simp [finalizeProvision, hm]
    | some x =>
      obtain ⟨hsame, hattempts⟩ := sameOrder_succeeded hm
      refine ⟨x, ?_, hsame, hattempts⟩
      simp [finalizeProvision, hm, hput, Write.onStored, hsame.instanceId]

theorem left_frame (hput : env.faults.put=false) (refreshDrift : Bool) (inst : ServiceInstance) :
    ∃ x, left env p refreshDrift inst=some x ∧ SameOrder inst x ∧
      x.reconcileAttempts=inst.reconcileAttempts+
        if (reconcileInstance env p refreshDrift inst).2.acted then 1 else 0 := by
  rw [acted_iff]
  cases h : needsReconcile (refreshedRecord p refreshDrift inst) with
  | true =>
    obtain ⟨x, hx, hsame, hattempts⟩ :=
      stored_reconcileDone p (reconcileStarted inst) hput
    rw [(left_reconciled env p refreshDrift h).2, hput]
    exact ⟨x, hx, ⟨hsame.1, hsame.2, hsame.3, hsame.4, hsame.5, hsame.6, hsame.7⟩, hattempts⟩
  | false =>
    rw [(left_skipped env p refreshDrift h).2, hput, refreshedRecord_eq]
    exact ⟨_, rfl, ⟨rfl, rfl, rfl, rfl, rfl, rfl, rfl⟩, rfl⟩

theorem settled_succeeded {x : ServiceInstance} {artifact : Artifact}
    (h : markOperationSucceeded { inst with status := .succeeded } artifact=some x)
    (hv : Json.lookup "version" artifact=some (.num inst.version)) : needsReconcile x=false := by
  obtain ⟨version, happlied, rfl⟩ := Option.map_eq_some_iff.mp h
  simp only [appliedVersion, hv, Rat.den_intCast, if_true, Rat.num_intCast] at happlied
  simp [needsReconcile, happlied]

theorem left_settled (hput : env.faults.put=false) (hr : p.Render) (refreshDrift : Bool)
    {x : ServiceInstance} (hx : left env p refreshDrift inst=some x) : needsReconcile x=false := by
  cases h : needsReconcile (refreshedRecord p refreshDrift inst) with
  | false =>
    rw [(left_skipped env p refreshDrift h).2, hput] at hx
    cases hx
    exact h
  | true =>
    obtain ⟨artifact, hrender, hversion⟩ := hr (reconcileStarted inst)
    obtain ⟨y, hy⟩ : ∃ y, markOperationSucceeded
        { reconcileStarted inst with status := .succeeded } artifact=some y := by
      simp [markOperationSucceeded, appliedVersion, hversion]
    have hid : y.instanceId=inst.instanceId := (sameOrder_succeeded hy).1.instanceId
    rw [(left_reconciled env p refreshDrift h).2, hput, reconcileDone, hrender] at hx
    simp only [finalizeProvision, hy, hput] at hx
    have he : y=x := by simpa [Write.onStored, hid] using hx
    exact he ▸ settled_succeeded hy hversion

/-- A settled record whose diff reports no drift stays settled. -/
theorem settled_refreshed (hs : needsReconcile inst=false)
    (hd : ¬Confirms "drifted" (p.diff inst)) (refreshDrift : Bool) :
    needsReconcile (refreshedRecord p refreshDrift inst)=false := by
  rw [refreshedRecord]
  split
  · cases hdiff : p.diff inst with
    | none => exact hs
    | some r =>
      cases hu : refreshedDrift.truthyMember "unknown" r with
      | true => simpa [refreshedDrift, hu] using hs
      | false =>
        have hno : refreshedDrift.truthyMember "drifted" r=false :=
          Bool.eq_false_iff.mpr fun h => hd ⟨r, hdiff, hu, h⟩
        rw [refreshedDrift_eq hu, hno]
        simp only [needsReconcile, Bool.or_eq_false_iff] at hs ⊢
        exact ⟨⟨hs.1.1, rfl⟩, hs.2⟩
  · exact hs

end Record

section Table
variable {hash : String → Nat} {env : Env} {p : Answers} {t : Tables} {w : Way}

theorem Way.Fits.tables (h : w.Fits env t) :
    (w.run hash env p t).1.tasks=[] ∧
      (w.run hash env p t).1.tables=
        (passWrites env p w.refreshes (listed env t)).foldl (Write.apply hash) t := by
  cases w with
  | timer =>
    have hended := periodicPass_ended hash env p.readable t h.page h.batch
    rw [through_of_readable fun _ _ _ => rfl] at hended
    exact ⟨hended.tasks, hended.tables⟩
  | manual auth limit =>
    obtain ⟨caller, ha, hb⟩ := h.allowed
    have hended := manualPass_ended hash env p.readable t ha hb h.page h.batch
    exact ⟨hended.tasks, hended.tables⟩

theorem mem_listed (hscan : env.faults.scan=false) {i : String} {inst : ServiceInstance}
    (h : Store.stored t.rows i=some inst) : inst∈listed env t := by
  obtain ⟨row, hrow, hp⟩ := Option.bind_eq_some_iff.mp h
  rw [listed, hscan]
  exact List.mem_filterMap.mpr ⟨row, List.mem_of_find?_eq_some hrow, hp⟩

theorem stored_listed (h : w.Fits env t) (hw : Store.WellFormed t.rows) {inst : ServiceInstance}
    (hi : inst∈listed env t) : Store.stored t.rows inst.instanceId=some inst :=
  stored_of_listed hw h.page h.batch hi

theorem nodup_listed (h : w.Fits env t) (hw : Store.WellFormed t.rows) :
    ((listed env t).map ServiceInstance.instanceId).Nodup :=
  nodup_listed_ids hw h.page h.batch

theorem stored_run (h : w.Fits env t) (hw : Store.WellFormed t.rows) (i : String) :
    Store.stored (w.run hash env p t).1.tables.rows i=
      (Store.stored t.rows i).bind (left env p w.refreshes) := by
  rw [h.tables.2, stored_foldl]
  cases hs : Store.stored t.rows i with
  | none =>
    refine passWrites_frame w.refreshes (fun c hc he => ?_) none
    have hc := stored_listed h hw hc
    rw [he, hs] at hc
    cases hc
  | some inst =>
    obtain rfl := hw.stored_eq hs
    exact passWrites_left w.refreshes (nodup_listed h hw) (mem_listed h.scan hs)

theorem ids_foldl {ws : List Write}
    (h : WritesOnly (fun x => x.instanceId∈t.rows.map Row.instanceId) ws) :
    (ws.foldl (Write.apply hash) t).rows.map Row.instanceId=t.rows.map Row.instanceId := by
  induction ws generalizing t with
  | nil => rfl
  | cons w ws ih =>
    have hw : (w.apply hash t).rows.map Row.instanceId=t.rows.map Row.instanceId := by
      cases w with
      | put x => exact Store.ids_putInstance hash (h.puts x List.mem_cons_self)
      | delete j => exact absurd List.mem_cons_self (h.deletes j)
      | putBinding b | deleteBinding b | meter r | audit r => rfl
    rw [List.foldl_cons, ih, hw]
    rw [hw]
    exact ⟨fun x hx => h.puts x (List.mem_cons_of_mem w hx),
      fun j hj => h.deletes j (List.mem_cons_of_mem w hj)⟩

theorem passWrites_ids (refreshDrift : Bool) {P : String → Prop} {list : List ServiceInstance}
    (h : ∀ c∈list, P c.instanceId) :
    WritesOnly (fun x => P x.instanceId) (passWrites env p refreshDrift list) := by
  induction list with
  | nil => exact WritesOnly.nil
  | cons c rest ih =>
    obtain ⟨hc, hrest⟩ := List.forall_mem_cons.mp h
    exact (reconcileInstance_writes refreshDrift hc).append (ih hrest)

theorem length_run (h : w.Fits env t) (hw : Store.WellFormed t.rows) :
    (w.run hash env p t).1.tables.rows.length=t.rows.length := by
  have hids : ∀ c∈listed env t, c.instanceId∈t.rows.map Row.instanceId := fun c hc =>
    (hw.mem_ids_iff c.instanceId).mpr ⟨c, stored_listed h hw hc⟩
  rw [h.tables.2, ← List.length_map Row.instanceId, ids_foldl (passWrites_ids w.refreshes hids),
    List.length_map]

theorem wellFormed_run (h : w.Fits env t) (hw : Store.WellFormed t.rows) :
    Store.WellFormed (w.run hash env p t).1.tables.rows := by
  rw [h.tables.2]
  exact wellFormed_writes hash hw _

theorem settled_run (h : w.Fits env t) (hw : Store.WellFormed t.rows) (hr : p.Render) {i : String}
    {x : ServiceInstance} (hx : Store.stored (w.run hash env p t).1.tables.rows i=some x) :
    needsReconcile x=false := by
  obtain ⟨inst, -, hleft⟩ := Option.bind_eq_some_iff.mp ((stored_run h hw i).symm.trans hx)
  exact left_settled h.put hr w.refreshes hleft

theorem frame_run (h : w.Fits env t) (hw : Store.WellFormed t.rows) (i : String) :
    Option.Rel (fun inst x => SameOrder inst x ∧ x.reconcileAttempts=inst.reconcileAttempts+
        if (reconcileInstance env p w.refreshes inst).2.acted then 1 else 0)
      (Store.stored t.rows i) (Store.stored (w.run hash env p t).1.tables.rows i) := by
  rw [stored_run h hw i]
  cases Store.stored t.rows i with
  | none => exact .none
  | some inst =>
    obtain ⟨x, hx, hframe⟩ := left_frame (p := p) h.put w.refreshes inst
    rw [Option.bind_some, hx]
    exact .some hframe

theorem changed_settled {refreshDrift : Bool} {list : List ServiceInstance}
    (h : ∀ x∈list, needsReconcile (refreshedRecord p refreshDrift x)=false) :
    changed (passResults env p refreshDrift list)=0 := by
  rw [changed, List.length_eq_zero_iff, List.filter_eq_nil_iff]
  intro r hres
  obtain ⟨x, hx, rfl⟩ := List.mem_map.mp hres
  rw [acted_iff, h x hx]
  exact Bool.false_ne_true

theorem stored_run_settled (h : w.Fits env t) (hw : Store.WellFormed t.rows)
    (hskip : ∀ x∈listed env t, needsReconcile (refreshedRecord p w.refreshes x)=false)
    (i : String) : ∃ drift, Store.stored (w.run hash env p t).1.tables.rows i=
      (Store.stored t.rows i).map fun x => { x with driftStatus := drift } := by
  rw [stored_run h hw i]
  cases hs : Store.stored t.rows i with
  | none => exact ⟨.unknown, rfl⟩
  | some x =>
    have hx := hskip x (mem_listed h.scan hs)
    refine ⟨(refreshedRecord p w.refreshes x).driftStatus, ?_⟩
    rw [Option.bind_some, (left_skipped env p w.refreshes hx).2, h.put, Option.map_some,
      ← refreshedRecord_eq]
    rfl

end Table

/-- Reconciliation converges in one pass, and a pass that meets no drift is idempotent. -/
theorem reconcile_converges (hash : String → Nat) (env env' : Env) (p p' : Answers) (w w' : Way)
    (t : Tables) (hw : Store.WellFormed t.rows) (h : w.Fits env t) (h' : w'.Fits env' t)
    (hr : p.Render) (hd : ∀ inst, ¬Confirms "drifted" (p'.diff inst)) :
    let once := (w.run hash env p t).1.tables
    let twice := (w'.run hash env' p' once).1.tables
    (∀ i x, Store.stored once.rows i=some x → needsReconcile x=false) ∧
      changed (passResults env' p' w'.refreshes (listed env' once))=0 ∧
      (∀ i, ∃ drift, Store.stored twice.rows i=
        (Store.stored once.rows i).map fun x => { x with driftStatus := drift }) ∧
      ∀ i, Option.Rel (fun inst x => SameOrder inst x ∧ x.reconcileAttempts=inst.reconcileAttempts+
          if (reconcileInstance env p w.refreshes inst).2.acted then 1 else 0)
        (Store.stored t.rows i) (Store.stored once.rows i) := by
  intro once twice
  have hwell : Store.WellFormed once.rows := wellFormed_run h hw
  have hfits : w'.Fits env' once :=
    ⟨h'.allowed, (length_run h hw).trans_le h'.batch, (length_run h hw).trans_le h'.page,
      h'.put, h'.scan⟩
  have hsettled : ∀ i x, Store.stored once.rows i=some x → needsReconcile x=false :=
    fun i x hx => settled_run h hw hr hx
  have hskip : ∀ x∈listed env' once, needsReconcile (refreshedRecord p' w'.refreshes x)=false :=
    fun x hx => settled_refreshed (hsettled _ x (stored_listed hfits hwell hx)) (hd x) w'.refreshes
  exact ⟨hsettled, changed_settled hskip, stored_run_settled hfits hwell hskip, frame_run h hw⟩

def unsettled : Tables :=
  { rows := [("lb-1", InstanceStatus.provisioning), ("lb-2", .failed)].map fun l => Store.rowOf
      { instanceId := l.1, serviceId := "sovereign-envoy-lb", planId := "standard-regional"
        status := l.2, version := 2, appliedVersion := some 1, driftStatus := .reconciling } }

def rendersOnly : Answers :=
  { diff := fun _ => none
    render := fun inst => .ok [("version", .num inst.version)] }

theorem unsettled_converges :
    let once := (Way.timer.run (fun _ => 0) (batchEnv 200) rendersOnly unsettled).1.tables
    (∀ i x, Store.stored once.rows i=some x → needsReconcile x=false) ∧
      changed (passResults (batchEnv 200) rendersOnly true (listed (batchEnv 200) unsettled))=2 ∧
      changed (passResults (batchEnv 200) rendersOnly true (listed (batchEnv 200) once))=0 := by
  intro once
  have hw : Store.WellFormed unsettled.rows := by
    refine ⟨by decide, fun r hr => ?_⟩
    obtain ⟨l, _, he⟩ := List.mem_map.mp hr
    exact ⟨_, he.symm⟩
  have hfits : Way.timer.Fits (batchEnv 200) unsettled := ⟨trivial, by decide, by decide, rfl, rfl⟩
  obtain ⟨hsettled, hskipped, -⟩ := reconcile_converges (fun _ => 0) (batchEnv 200) (batchEnv 200)
    rendersOnly rendersOnly .timer .timer unsettled hw hfits hfits (fun _ => ⟨_, rfl, rfl⟩)
    (fun _ hd => by obtain ⟨r, hr, -⟩ := hd; cases hr)
  exact ⟨hsettled, by decide +kernel, hskipped⟩

end Sovereign.Broker
