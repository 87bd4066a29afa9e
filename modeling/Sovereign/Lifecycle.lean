import Sovereign.Interleaving
import Sovereign.Inventory

/-! The bookkeeping of operations. Over every run each record fits together: its status, the state
of its operation, its versions and the id of the operation; so a client that polls is told a
consistent story, and an operation id names one operation of one instance. -/
namespace Sovereign.Broker
open Sovereign Policy Renderers

def operationTypes : List String := ["provision", "update", "reconcile"]

def outputNames : List String := ["bucket", "key", "service_type", "manifest"]

structure Coherent (x : ServiceInstance) : Prop where
  version : 1 ≤ x.version
  operation : ∃ t∈operationTypes, x.operationType=some t ∧ x.operationId=some (operationId x t)
  started : x.operationState≠none
  step : x.failedStepKind=none
  reason : x.operationReason≠"" → x.operationState=some .failed
  provisioning : x.status=.provisioning →
    x.operationState=some .inProgress ∧ x.appliedVersion=none ∧ x.applyOutputs=[]
  succeeded : x.operationState=some .succeeded → x.status=.succeeded
  failed : x.operationState=some .failed → x.status=.failed
  applied : x.status=.succeeded →
    x.appliedVersion≠none ∧ x.applyOutputs.map Prod.fst=outputNames
  used : x.status≠.deprovisioning

section Records
variable {c x : ServiceInstance}

theorem coherent_created (cr : Creation) : Coherent cr.record where
  version := Int.le_refl 1
  operation := ⟨"provision", by decide, rfl, rfl⟩
  started := fun h => by cases h
  step := rfl
  reason := fun h => absurd rfl h
  provisioning := fun _ => ⟨rfl, rfl, rfl⟩
  succeeded := fun h => by cases h
  failed := fun h => by cases h
  applied := fun h => by cases h
  used := fun h => by cases h

theorem Coherent.begin (h : Coherent c) (d : ServiceInstance) (t : String)
    (hstatus : d.status=c.status) (hversion : c.version ≤ d.version)
    (happlied : d.appliedVersion=c.appliedVersion) (houtputs : d.applyOutputs=c.applyOutputs)
    (ht : t∈operationTypes) : Coherent (beginOperation d t) where
  version := h.version.trans hversion
  operation := ⟨t, ht, rfl, rfl⟩
  started := fun he => by cases he
  step := rfl
  reason := fun he => absurd rfl he
  provisioning := fun he => by
    obtain ⟨_, hnone, hempty⟩ := h.provisioning (hstatus.symm.trans he)
    exact ⟨rfl, happlied.trans hnone, houtputs.trans hempty⟩
  succeeded := fun he => by cases he
  failed := fun he => by cases he
  applied := fun he => by
    obtain ⟨hsome, hnames⟩ := h.applied (hstatus.symm.trans he)
    exact ⟨fun hn => hsome (happlied.symm.trans hn), (congrArg _ houtputs).trans hnames⟩
  used := fun he => h.used (hstatus.symm.trans he)

theorem Coherent.updated (h : Coherent c) (req : UpdateRequest) : Coherent (updatedRecord c req) :=
  h.begin _ "update" rfl (by simp) rfl rfl (by decide)

theorem Coherent.failed_render (h : Coherent c) (fault : RenderFault) :
    Coherent (markOperationFailed { c with status := .failed } fault) where
  version := h.version
  operation := h.operation
  started := fun he => by cases he
  step := by cases fault <;> rfl
  reason := fun _ => rfl
  provisioning := fun he => by cases he
  succeeded := fun he => by cases he
  failed := fun _ => rfl
  applied := fun he => by cases he
  used := fun he => by cases he

theorem Coherent.succeeded_render (h : Coherent c) {artifact : Artifact}
    (hx : markOperationSucceeded { c with status := .succeeded } artifact=some x) :
    Coherent x := by
  obtain ⟨version, _, rfl⟩ := Option.map_eq_some_iff.mp hx
  exact
    { version := h.version
      operation := h.operation
      started := fun he => by cases he
      step := rfl
      reason := fun he => absurd rfl he
      provisioning := fun he => by cases he
      succeeded := fun _ => rfl
      failed := fun he => by cases he
      applied := fun _ => ⟨(fun he => by cases he), rfl⟩
      used := fun he => by cases he }

theorem Coherent.refreshed (h : Coherent c) {result : Option Artifact}
    (hx : refreshedDrift c result=some x) : Coherent x := by
  cases result with
  | none => cases hx
  | some r =>
    simp only [refreshedDrift] at hx
    split at hx
    · cases hx
    · cases hx
      exact ⟨h.version, h.operation, h.started, h.step, h.reason, h.provisioning, h.succeeded,
        h.failed, h.applied, h.used⟩

theorem kept_coherent : Kept Coherent where
  failed := fun _ fault h => h.failed_render fault
  started := fun _ h => h.begin _ "reconcile" rfl (Int.le_refl _) rfl rfl (by decide)
  refreshed := fun _ _ _ h hx => h.refreshed hx

end Records

structure State.Orderly (s : State) : Prop where
  wellFormed : Store.WellFormed s.tables.rows
  coherent : ∀ c, s.Source c → Coherent c

theorem State.Orderly.step {s : State} (h : s.Orderly) (hash : String → Nat) (a : Env × Event) :
    (step hash s a).Orderly where
  wellFormed := step_wellFormed hash h.wellFormed a
  coherent := fun _ hc => source_step kept_coherent h.wellFormed h.coherent
    (fun c _ => coherent_created c)
    (fun _ req _ hst => (h.coherent _ (Or.inr hst)).updated req)
    (fun _ _ _ _ hr hx => (h.coherent _ (source_of_rendered hr)).succeeded_render hx) hc

theorem State.Orderly.start : ({} : State).Orderly where
  wellFormed := Store.WellFormed.nil
  coherent := fun c hc => by
    cases hc with
    | inl hc => cases hc
    | inr hc => cases hc

theorem orderly_run (hash : String → Nat) (as : List (Env × Event)) :
    (Trace.exec (step hash) {} as).Orderly :=
  Trace.Along.invariant State.Orderly (fun _ => True) (fun _ a _ h _ => h.step hash a)
    State.Orderly.start (fun _ _ => trivial) (Trace.Along.of_true _ as)

section Ids
variable {x y : ServiceInstance} {t u : String}

theorem colon_not_mem (ht : t∈operationTypes) : ':'∉t.toList := by
  simp only [operationTypes, List.mem_cons, List.not_mem_nil, or_false] at ht
  obtain rfl | rfl | rfl := ht <;> decide

theorem reverse_operationId (x : ServiceInstance) (t : String) :
    (operationId x t).toList.reverse=t.toList.reverse++ ':' ::((toString x.version).toList.reverse++
      'v' :: ':' ::x.instanceId.toList.reverse) := by
  have hv : ":v".toList=[':', 'v'] := rfl
  have hc : ":".toList=[':'] := rfl
  simp only [operationId, String.toList_append, hv, hc, List.reverse_append, List.reverse_cons,
    List.nil_append, List.append_assoc, List.cons_append]

theorem not_mem_version {c : Char} (hc : c ≠ '-') (hd : c.isDigit=false) (n : Int) :
    c∉(toString n).toList.reverse := by
  intro h
  obtain he | he := Text.mem_toString_int (List.mem_reverse.mp h)
  · exact hc he
  · rw [hd] at he
    cases he

/-- The text tells the instance, the version and the type, whatever the instance is called. -/
theorem operationId_inj (ht : t∈operationTypes) (hu : u∈operationTypes)
    (h : operationId x t=operationId y u) :
    x.instanceId=y.instanceId ∧ x.version=y.version ∧ t=u := by
  have hrev := congrArg (fun s : String => s.toList.reverse) h
  simp only [reverse_operationId] at hrev
  obtain ⟨htype, hrest⟩ := Text.append_sep_inj (by simpa using colon_not_mem ht)
    (by simpa using colon_not_mem hu) hrev
  obtain ⟨hversion, hid⟩ := Text.append_sep_inj (not_mem_version (by decide) (by decide) _)
    (not_mem_version (by decide) (by decide) _) hrest
  refine ⟨?_, ?_, ?_⟩
  · exact String.toList_inj.mp (List.reverse_injective (List.cons.inj hid).2)
  · exact Text.toString_int_inj (String.toList_inj.mp (List.reverse_injective hversion))
  · exact String.toList_inj.mp (List.reverse_injective htype)

/-- In every state that a run reaches, two records that show the same operation id are records of
one instance, at one version and in an operation of one type. -/
theorem operation_ids_apart (hash : String → Nat) (as : List (Env × Event))
    (hx : (Trace.exec (step hash) {} as).Source x) (hy : (Trace.exec (step hash) {} as).Source y)
    (h : x.operationId=y.operationId) :
    x.operationId≠none ∧ x.instanceId=y.instanceId ∧ x.version=y.version ∧
      x.operationType=y.operationType := by
  obtain ⟨t, ht, htype, hid⟩ := ((orderly_run hash as).coherent x hx).operation
  obtain ⟨u, hu, utype, uid⟩ := ((orderly_run hash as).coherent y hy).operation
  rw [hid, uid] at h
  obtain ⟨hinst, hversion, htu⟩ := operationId_inj ht hu (Option.some.inj h)
  refine ⟨by simp [hid], hinst, hversion, ?_⟩
  rw [htype, utype, htu]

def secondProvision : Event :=
  .request operator (.provision "lb-2"
    { serviceId := "sovereign-envoy-lb", planId := "standard-regional" } false)

/-- The pass waits for the render of `lb-1` and holds a copy of `lb-2`, which is provisioned in
the meantime. -/
def overlappedRun : List (Env × Event) :=
  [provisionEvent, secondProvision, .tick, .resume 1 (.rendered (.ok []))].map
    fun e => (sampleEnv, e)

/-- The copy is not the stored record, and shows its operation id. -/
theorem operation_ids_apart_overlapped :
    ∃ x y, (Trace.exec (step fun _ => 0) {} overlappedRun).Source x ∧
      (Trace.exec (step fun _ => 0) {} overlappedRun).Source y ∧
      x.status=.succeeded ∧ y.status=.provisioning ∧
      x.operationId=some "lb-2:v1:provision" ∧
      (x.operationId≠none ∧ x.instanceId=y.instanceId ∧ x.version=y.version ∧
        x.operationType=y.operationType) := by
  have hstored : (Store.stored (Trace.exec (step fun _ => 0) {} overlappedRun).tables.rows
      "lb-2").map (fun x => (x.instanceId, x.status, x.operationId))=
        some ("lb-2", .succeeded, some "lb-2:v1:provision") := by
    decide +kernel
  have hheld : (InstanceStatus.provisioning, some "lb-2:v1:provision")∈
      (abs (Trace.exec (step fun _ => 0) {} overlappedRun)).copies.map
        fun y => (y.status, y.operationId) := by
    decide +kernel
  obtain ⟨x, hx, he⟩ := Option.map_eq_some_iff.mp hstored
  obtain ⟨hid, hrest⟩ := Prod.ext_iff.mp he
  obtain ⟨hxstatus, hxop⟩ := Prod.ext_iff.mp hrest
  obtain ⟨y, hy, he'⟩ := List.mem_map.mp hheld
  obtain ⟨hystatus, hyop⟩ := Prod.ext_iff.mp he'
  have hsource : (Trace.exec (step fun _ => 0) {} overlappedRun).Source x := by
    refine Or.inr ?_
    simp only at hid
    rw [hid]
    exact hx
  exact ⟨x, y, hsource, Or.inl hy, hxstatus, hystatus, hxop,
    operation_ids_apart _ _ hsource (Or.inl hy) (hxop.trans hyop.symm)⟩

end Ids

structure Polled (instanceId : String) (body : Inventory.LastOperation) : Prop where
  operation : body.operation∈["in progress", "succeeded", "failed"]
  state : body.state∈["provisioning", "succeeded", "failed"]
  version : 1 ≤ body.desiredVersion
  id : ∃ t∈operationTypes, body.operationId=
    some (instanceId ++ ":v" ++ toString body.desiredVersion ++ ":" ++ t)
  step : body.failedStepKind=none
  description : body.description≠"" → body.operation="failed"
  provisioning : body.state="provisioning" →
    body.operation="in progress" ∧ body.appliedVersion=none
  succeeded : body.operation="succeeded" → body.state="succeeded"
  failed : body.operation="failed" → body.state="failed"
  applied : body.state="succeeded" → body.appliedVersion≠none

theorem Coherent.polled {x : ServiceInstance} (h : Coherent x) :
    Polled x.instanceId (Inventory.describe x) := by
  obtain ⟨st, hst⟩ := Option.ne_none_iff_exists'.mp h.started
  have hoperation : (Inventory.describe x).operation=st.value := by simp [Inventory.describe, hst]
  have hvalue : ∀ {st' : OperationState}, st.value=st'.value → x.operationState=some st' := by
    intro st' he
    cases st <;> cases st' <;> first | exact hst | exact absurd he (by decide)
  have hstatus : ∀ {st' : InstanceStatus}, x.status.value=st'.value → x.status=st' := by
    intro st' he
    cases hs : x.status <;> rw [hs] at he <;> cases st' <;>
      first | rfl | exact absurd he (by decide)
  refine ⟨?_, ?_, h.version, ?_, h.step, ?_, ?_, ?_, ?_, ?_⟩
  · rw [hoperation]
    cases st <;> decide
  · show x.status.value∈_
    cases hs : x.status with
    | deprovisioning => exact absurd hs h.used
    | provisioning => decide
    | succeeded => decide
    | failed => decide
  · obtain ⟨t, ht, _, hid⟩ := h.operation
    exact ⟨t, ht, hid⟩
  · intro hd
    have hf := h.reason hd
    rw [hst] at hf
    cases hf
    exact hoperation
  · intro hp
    have hs : x.status=.provisioning := hstatus hp
    obtain ⟨hprogress, hnone, _⟩ := h.provisioning hs
    rw [hst] at hprogress
    cases hprogress
    exact ⟨hoperation, hnone⟩
  · intro hs
    have hdone : st.value=OperationState.succeeded.value := hoperation.symm.trans hs
    have hs' := h.succeeded (hvalue hdone)
    show x.status.value=_
    rw [hs']
    rfl
  · intro hf
    have hdone : st.value=OperationState.failed.value := hoperation.symm.trans hf
    have hf' := h.failed (hvalue hdone)
    show x.status.value=_
    rw [hf']
    rfl
  · intro hs
    have hs' : x.status=.succeeded := hstatus hs
    exact (h.applied hs').1

/-- Whenever a client polls an instance, in any state of any run and under any faults of the store,
an answer with a body is consistent: its operation is of the broker's vocabulary and agrees with
the state, the reason comes with a failure only, and the id names the instance and the version. -/
theorem polling_coherent (hash : String → Nat) (as : List (Env × Event)) (settings : Settings)
    (decode : String → Except HttpError Claims) (faults : StoreFaults) (auth : AuthHeader)
    (instanceId : String) (body : Inventory.LastOperation)
    (h : Inventory.lastOperation settings decode faults (Trace.exec (step hash) {} as).tables.rows
      auth instanceId=.ok (.operation body)) : Polled instanceId body := by
  simp only [Inventory.lastOperation] at h
  split at h
  · cases h
  · split at h
    · cases h
    · cases h
    · next inst hget =>
      cases h
      have hstored := Store.stored_of_getInstance hget
      obtain ⟨hsource, rfl⟩ := source_of_stored (orderly_run hash as).wellFormed hstored
      exact ((orderly_run hash as).coherent inst hsource).polled

def calmBody : Inventory.LastOperation :=
  { state := "succeeded", operation := "succeeded", operationId := some "lb-1:v2:update"
    description := "", failedStepKind := none, desiredVersion := 2, appliedVersion := some 2
    driftStatus := "in_sync", reconcileAttempts := 0 }

theorem polling_coherent_calm :
    Inventory.lastOperation {} sampleEnv.decode {}
      (Trace.exec (step fun _ => 0) {} calmRun).tables.rows operator "lb-1"=
      .ok (.operation calmBody) ∧ Polled "lb-1" calmBody := by
  have hbody : Inventory.lastOperation {} sampleEnv.decode {}
      (Trace.exec (step fun _ => 0) {} calmRun).tables.rows operator "lb-1"=
      .ok (.operation calmBody) := by decide +kernel
  exact ⟨hbody, polling_coherent _ _ _ _ _ _ _ _ hbody⟩

end Sovereign.Broker
