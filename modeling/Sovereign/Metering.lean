import Sovereign.SideTables
import Sovereign.Interleaving

/-! Usage records and successful instances, when requests are handled one at a time. Only
a provision's own finalize meters; an update or a reconcile makes an instance succeed
without a record. -/
namespace Sovereign.Broker
open Sovereign Policy

/-- A run, with the length of the usage table when each instance was last created, and
whether that provision's own finalize has gone through since. -/
structure Metered where
  state : State := {}
  mark : String → Nat := fun _ => 0
  finished : String → Bool := fun _ => false

def Metered.step (hash : String → Nat) (w : Metered) (a : Env × Event) : Metered :=
  { state := Broker.step hash w.state a
    mark := fun i =>
      if (created w.state a).any fun c => decide (c.instanceId=i) then w.state.tables.usage.length
      else w.mark i
    finished := fun i =>
      if (created w.state a).any fun c => decide (c.instanceId=i) then false
      else ((finalized w.state a).any fun f => decide (f.1.instanceId=i)) || w.finished i }

def Metered.records (w : Metered) (instanceId : String) : List UsageRecord :=
  (w.state.tables.usage.take (w.state.tables.usage.length-w.mark instanceId)).filter
    fun r => decide (r.resourceId=instanceId)

/-- Every instance that has succeeded has exactly one record since it was created. -/
def Metered.Complete (w : Metered) : Prop :=
  ∀ i x, Store.stored w.state.tables.rows i=some x → x.status=.succeeded →
    (w.records i).length=1

/-- A request, or the reconciler's timer, comes only while nothing is in flight. -/
def OneAtATime (s : State) (a : Env × Event) : Prop :=
  match a.2 with
  | .resume _ _ => True
  | _ => s.tasks.isEmpty=true

/-- The step stores the outcome of the successful render of an update or a reconcile. -/
def promoted (s : State) (a : Env × Event) : Option String :=
  match a.2 with
  | .resume id (.rendered (.ok artifact)) =>
    match s.tasks.lookup id with
    | some (.update inst _ _) => stored inst artifact
    | some (.reconcile inst _) => stored inst artifact
    | _ => none
  | _ => none
where
  stored (inst : ServiceInstance) (artifact : Artifact) : Option String :=
    if (appliedVersion inst artifact).isSome && !a.1.faults.put then some inst.instanceId
    else none

/-- An update or reconcile succeeds only on an instance whose own provision has. -/
def Entitled (w : Metered) (a : Env × Event) : Prop :=
  ∀ i∈promoted w.state a, w.finished i=true

/-- The step stores the outcome of a provision's successful render, and the read of the
catalog for the usage record raises. -/
def unread (s : State) (a : Env × Event) : Bool :=
  match a.2 with
  | .resume id (.rendered (.ok artifact)) =>
    match s.tasks.lookup id with
    | some (.provision inst _ _ _) =>
      (appliedVersion inst artifact).isSome && !a.1.faults.put && a.1.faults.catalog
    | _ => false
  | _ => false

structure Orderly (w : Metered) (a : Env × Event) : Prop where
  sequential : OneAtATime w.state a
  metering : a.1.faults.metering=false
  entitled : Entitled w a
  read : unread w.state a=false

instance (s : State) : ∀ a, Decidable (OneAtATime s a)
  | (_, .request _ _) => inferInstanceAs (Decidable (_=true))
  | (_, .tick) => inferInstanceAs (Decidable (_=true))
  | (_, .resume _ _) => isTrue trivial

instance (w : Metered) (a : Env × Event) : Decidable (Orderly w a) :=
  decidable_of_iff (OneAtATime w.state a ∧ a.1.faults.metering=false ∧
    (∀ i∈promoted w.state a, w.finished i=true) ∧ unread w.state a=false)
    ⟨fun h => ⟨h.1, h.2.1, h.2.2.1, h.2.2.2⟩,
      fun h => ⟨h.sequential, h.metering, h.entitled, h.read⟩⟩

structure Metered.Inv (w : Metered) : Prop where
  wellFormed : Store.WellFormed w.state.tables.rows
  single : w.state.tasks.length ≤ 1
  mark_le : ∀ i, w.mark i ≤ w.state.tables.usage.length
  count : ∀ i, (w.records i).length=if w.finished i then 1 else 0
  pending : ∀ id inst caller tenantId background,
    (id, Task.provision inst caller tenantId background)∈w.state.tasks →
    w.finished inst.instanceId=false
  backed : ∀ c, w.state.Source c → c.status=.succeeded → w.finished c.instanceId=true

section Step
variable {hash : String → Nat} {w : Metered} {a : Env × Event}

theorem others_nil {tasks : List (Nat × Task)} {id : Nat} {task : Task}
    (h : tasks.length ≤ 1) (hl : tasks.lookup id=some task) :
    (tasks.filter fun t => decide (t.1≠id))=[] := by
  cases tasks with
  | nil => rfl
  | cons t rest =>
    have hr : rest=[] := List.length_eq_zero_iff.mp (by simp only [List.length_cons] at h; omega)
    subst hr
    obtain ⟨before, after, he, _⟩ := List.lookup_eq_some_iff.mp hl
    cases before with
    | nil =>
      cases he
      simp
    | cons b bs => simp at he

theorem tasks_sequential (hI : w.Inv) (hq : OneAtATime w.state a) {resumed : Option Nat}
    {seg : Segment} (h : segment a.1 w.state a.2=some (resumed, seg)) :
    (Broker.step hash w.state a).tasks =
      seg.task.toList.map fun task => (resumed.getD w.state.nextTask, task) := by
  rw [step_segment h]
  obtain ⟨env, event⟩ := a
  cases event with
  | request auth req =>
    have hn : resumed=none := by
      simp only [segment] at h
      split at h
      · cases h
        rfl
      · cases h
        rfl
    subst hn
    simp [State.run, List.isEmpty_iff.mp hq]
  | tick =>
    cases h
    simp [State.run, List.isEmpty_iff.mp hq]
  | resume id outcome =>
    obtain ⟨seg', hb, he⟩ := Option.map_eq_some_iff.mp h
    obtain ⟨task, ht, _⟩ := Option.bind_eq_some_iff.mp hb
    cases he
    simp only [State.run, others_nil hI.single ht, List.nil_append]

theorem created_of_stuck {s : State} (h : segment a.1 s a.2=none) : created s a=none := by
  cases hc : created s a with
  | none => rfl
  | some c =>
    obtain ⟨caller, req, hr⟩ := created_requested hc
    rw [segment_requested hr] at h
    cases h

theorem single_step (hI : w.Inv) (hq : OneAtATime w.state a) :
    (Broker.step hash w.state a).tasks.length ≤ 1 := by
  cases hseg : segment a.1 w.state a.2 with
  | none =>
    rw [step, hseg]
    exact hI.single
  | some r =>
    rw [tasks_sequential hI hq hseg, List.length_map]
    cases r.2.task with
    | none => exact Nat.zero_le 1
    | some task => exact Nat.le_refl 1

theorem finished_kept (hc : created w.state a=none) (i : String) :
    (w.step hash a).finished i =
      (((finalized w.state a).any fun f => decide (f.1.instanceId=i)) || w.finished i) := by
  simp [Metered.step, hc]

theorem finished_mono (hc : created w.state a=none) {i : String} (h : w.finished i=true) :
    (w.step hash a).finished i=true := by
  rw [finished_kept hc, h, Bool.or_true]

theorem finished_finalized (hc : created w.state a=none) {inst : ServiceInstance}
    {tenantId : String} (h : finalized w.state a=some (inst, tenantId)) :
    (w.step hash a).finished inst.instanceId=true := by
  simp [finished_kept hc, h]

theorem finished_created {c : Creation} (hc : created w.state a=some c) (i : String) :
    (w.step hash a).finished i=if c.instanceId=i then false
      else ((finalized w.state a).any fun f => decide (f.1.instanceId=i)) || w.finished i := by
  simp [Metered.step, hc]

theorem mark_kept (hc : created w.state a=none) : (w.step hash a).mark=w.mark := by
  funext i
  simp [Metered.step, hc]

theorem finalized_waiting {s : State} {inst : ServiceInstance} {tenantId : String}
    (h : finalized s a=some (inst, tenantId)) : created s a=none ∧
      ∃ id caller background, (id, Task.provision inst caller tenantId background)∈s.tasks := by
  obtain ⟨env, event⟩ := a
  cases event with
  | request auth req => cases h
  | tick => cases h
  | resume id outcome =>
    refine ⟨rfl, ?_⟩
    cases outcome with
    | diffed result => cases h
    | diffRaised => cases h
    | tornDown result => cases h
    | rendered result =>
      cases result with
      | error fault => cases h
      | ok artifact =>
        simp only [finalized] at h
        split at h
        · next x caller t background ht =>
          split at h
          · cases h
            exact ⟨id, caller, background, mem_tasks_of_lookup ht⟩
          · cases h
        · cases h

theorem records_of_mark {w : Metered} {i : String}
    (h : w.mark i=w.state.tables.usage.length) : w.records i=[] := by
  rw [Metered.records, h, Nat.sub_self]
  rfl

theorem take_cons {r : UsageRecord} {usage : List UsageRecord} {m : Nat} (h : m ≤ usage.length) :
    (r::usage).take ((r::usage).length-m)=r::usage.take (usage.length-m) := by
  have he : (r::usage).length-m=(usage.length-m)+1 := by
    simp only [List.length_cons]
    omega
  rw [he, List.take_succ_cons]

theorem mark_le_step (hI : w.Inv) (i : String) :
    (w.step hash a).mark i ≤ (w.step hash a).state.tables.usage.length := by
  have hlen : w.state.tables.usage.length ≤ (Broker.step hash w.state a).tables.usage.length := by
    obtain ⟨_, he⟩ | ⟨inst, x, tenantId, _, _, _, he⟩ := usage_step hash w.state a
    · rw [he]
    · rw [he]
      split
      · exact Nat.le_refl _
      · exact Nat.le_succ _
  simp only [Metered.step]
  split
  · exact hlen
  · exact (hI.mark_le i).trans hlen

theorem records_kept {i : String} (hu : (w.step hash a).state.tables.usage=w.state.tables.usage)
    (hm : (w.step hash a).mark i=w.mark i) : (w.step hash a).records i=w.records i := by
  rw [Metered.records, hu, hm, Metered.records]

theorem count_created (hI : w.Inv) {c : Creation} (hc : created w.state a=some c) (i : String) :
    ((w.step hash a).records i).length=if (w.step hash a).finished i then 1 else 0 := by
  obtain ⟨caller, req, hr⟩ := created_requested hc
  have hf : finalized w.state a=none := finalized_requested hr
  have hu : (w.step hash a).state.tables.usage=w.state.tables.usage := by
    obtain ⟨_, he⟩ | ⟨inst, x, tenantId, hf', _⟩ := usage_step hash w.state a
    · exact he
    · rw [hf] at hf'
      cases hf'
  rw [finished_created hc]
  by_cases hi : c.instanceId=i
  · have hm : (w.step hash a).mark i=(w.step hash a).state.tables.usage.length := by
      rw [hu]
      simp [Metered.step, hc, hi]
    rw [records_of_mark hm, if_pos hi]
    rfl
  · have hm : (w.step hash a).mark i=w.mark i := by simp [Metered.step, hc, hi]
    rw [records_kept hu hm, hI.count i, if_neg hi, hf]
    rfl

theorem count_finalized (hI : w.Inv) {inst x : ServiceInstance} {tenantId : String}
    (hf : finalized w.state a=some (inst, tenantId)) (hx : x.instanceId=inst.instanceId)
    (hu : (w.step hash a).state.tables.usage=usageRecord a.1 x tenantId::w.state.tables.usage)
    (i : String) :
    ((w.step hash a).records i).length=if (w.step hash a).finished i then 1 else 0 := by
  obtain ⟨hc, id, caller, background, hwait⟩ := finalized_waiting hf
  have hold := hI.count i
  rw [Metered.records] at hold
  rw [Metered.records, hu, mark_kept hc, take_cons (hI.mark_le i)]
  by_cases hi : inst.instanceId=i
  · subst hi
    have hnot := hI.pending id inst caller tenantId background hwait
    rw [finished_finalized hc hf]
    simp only [hnot] at hold
    simp [usageRecord, hx, List.length_eq_zero_iff.mp hold]
  · have hfin : (w.step hash a).finished i=w.finished i := by
      rw [finished_kept hc, hf]
      simp [hi]
    rw [hfin, ← hold]
    simp [usageRecord, hx, hi]

theorem count_step (hI : w.Inv) (hm : a.1.faults.metering=false) (i : String) :
    ((w.step hash a).records i).length=if (w.step hash a).finished i then 1 else 0 := by
  cases hc : created w.state a with
  | some c => exact count_created hI hc i
  | none =>
    obtain ⟨hf, hu⟩ | ⟨inst, x, tenantId, hf, ht, _, hu⟩ := usage_step hash w.state a
    · have hfin : (w.step hash a).finished i=w.finished i := by
        rw [finished_kept hc, hf]
        rfl
      rw [records_kept hu (by rw [mark_kept hc]), hfin, hI.count i]
    · rw [hm] at hu
      exact count_finalized hI hf ht.instanceId hu i

theorem pending_step (hI : w.Inv) (hq : OneAtATime w.state a) {id : Nat} {inst : ServiceInstance}
    {caller : Caller} {tenantId : String} {background : Bool}
    (h : (id, Task.provision inst caller tenantId background)∈(w.step hash a).state.tasks) :
    (w.step hash a).finished inst.instanceId=false := by
  have hleft : ∀ {resumed seg}, segment a.1 w.state a.2=some (resumed, seg) →
      seg.task=some (.provision inst caller tenantId background) := by
    intro resumed seg hseg
    have h' : (id, Task.provision inst caller tenantId background) ∈
        seg.task.toList.map fun task => (resumed.getD w.state.nextTask, task) := by
      rw [← tasks_sequential hI hq hseg]
      exact h
    obtain ⟨task, ht, he⟩ := List.mem_map.mp h'
    cases he
    exact Option.mem_toList.mp ht
  cases step_side w.state a with
  | stuck eq =>
    have hs : Broker.step hash w.state a=w.state := by rw [Broker.step, eq]
    rw [finished_kept (created_of_stuck eq), finalized_stuck eq]
    simp only [Metered.step, hs] at h
    exact hI.pending id inst caller tenantId background h
  | plain resumed seg eq hp hc hf =>
    have := hp.task _ (hleft eq)
    cases this
  | provision c b seg eq hc hw ht =>
    rw [hleft eq] at ht
    cases ht
    rw [finished_created hc]
    exact if_pos rfl
  | bind caller' x req record seg eq hr ha hw ht =>
    rw [hleft eq] at ht
    cases ht
  | unbind caller' instanceId bindingId record seg eq hr ha hw ht =>
    rw [hleft eq] at ht
    cases ht
  | finish id' inst' x caller' tenantId' b record seg eq hl hf htouched hservice hw ht =>
    rw [hleft eq] at ht
    cases ht

/-- Bookkeeping other than a successful render makes no instance succeed. -/
theorem kept_succeeded (fin : String → Bool) :
    Kept fun x => x.status=.succeeded → fin x.instanceId=true where
  failed := by
    intro c fault _ h
    cases h
  started := fun _ h => h
  refreshed := by
    intro c x result h hr
    cases result with
    | none => cases hr
    | some r =>
      simp only [refreshedDrift] at hr
      split at hr
      · cases hr
      · cases hr
        exact h

theorem rendered_cases {s : State} {inst x : ServiceInstance} {artifact : Artifact}
    (hp : a.1.faults.put=false) (hread : unread s a=false)
    (h : rendered s a=some (inst, artifact))
    (hx : markOperationSucceeded { inst with status := .succeeded } artifact=some x) :
    (∃ tenantId, finalized s a=some (inst, tenantId)) ∨ promoted s a=some inst.instanceId := by
  have hv : (appliedVersion inst artifact).isSome=true := by
    obtain ⟨version, hv, _⟩ := Option.map_eq_some_iff.mp hx
    have hv' : appliedVersion inst artifact=some version := hv
    rw [hv']
    rfl
  obtain ⟨env, event⟩ := a
  have hp' : env.faults.put=false := hp
  simp only [rendered] at h
  split at h
  · next id artifact' =>
    obtain ⟨i, hb, he⟩ := Option.map_eq_some_iff.mp h
    obtain ⟨task, ht, hr⟩ := Option.bind_eq_some_iff.mp hb
    cases he
    cases task with
    | provision y caller tenantId background =>
      cases hr
      have hc : env.faults.catalog=false := by simpa [unread, ht, hv, hp'] using hread
      exact Or.inl ⟨tenantId, by simp [finalized, ht, hv, hp', hc]⟩
    | update y caller tenantId =>
      cases hr
      exact Or.inr (by simp [promoted, promoted.stored, ht, hv, hp'])
    | reconcile y pass =>
      cases hr
      exact Or.inr (by simp [promoted, promoted.stored, ht, hv, hp'])
    | teardown i y caller tenantId => cases hr
    | diff y pass => cases hr
  · cases h

theorem backed_created (hI : w.Inv) (hq : OneAtATime w.state a) {c : Creation}
    (hc : created w.state a=some c) {x : ServiceInstance}
    (hx : (w.step hash a).state.Source x) (hs : x.status=.succeeded) :
    (w.step hash a).finished x.instanceId=true := by
  cases step_kind hash hI.wellFormed a with
  | quiet hc' hu hd hp hf =>
    rw [hc'] at hc
    cases hc
  | update inst req hc' hu hd hst hp hf =>
    rw [hc'] at hc
    cases hc
  | delete i hc' hu hd hp hf =>
    rw [hc'] at hc
    cases hc
  | create c' hc' hu hd hp hf =>
    have he : c'=c := Option.some.inj (hc'.symm.trans hc)
    subst he
    obtain hx | hx | ⟨hst, hne⟩ := hf.source_cases hx
    · rw [hx] at hs
      cases hs
    · obtain ⟨caller, req, hr⟩ := created_requested hc
      obtain ⟨auth, hev⟩ := requested_event hr
      simp only [OneAtATime, hev] at hq
      simp [abs, List.isEmpty_iff.mp hq] at hx
    · have hne' : c'.instanceId≠x.instanceId := Ne.symm hne
      rw [finished_created hc, if_neg hne', hI.backed x (Or.inr hst) hs, Bool.or_true]

theorem backed_step (hI : w.Inv) (ho : Orderly w a) {x : ServiceInstance}
    (hx : (w.step hash a).state.Source x) (hs : x.status=.succeeded) :
    (w.step hash a).finished x.instanceId=true := by
  cases hc : created w.state a with
  | some c => exact backed_created hI ho.sequential hc hx hs
  | none =>
    revert hs
    refine source_step (kept_succeeded (w.step hash a).finished) hI.wellFormed ?_ ?_ ?_ ?_ hx
    · intro c hcs hs
      exact finished_mono hc (hI.backed c hcs hs)
    · intro c hcs
      rw [hc] at hcs
      cases hcs
    · intro inst req _ hst hs
      exact finished_mono hc (hI.backed inst (Or.inr hst) hs)
    · intro inst artifact y hp hr hy _
      have hid : y.instanceId=inst.instanceId := (touched_succeeded hy).instanceId
      rw [hid]
      obtain ⟨tenantId, hf⟩ | hpr := rendered_cases hp ho.read hr hy
      · exact finished_finalized hc hf
      · exact finished_mono hc (ho.entitled _ hpr)

theorem Metered.Inv.step (hI : w.Inv) (ho : Orderly w a) : (w.step hash a).Inv where
  wellFormed := step_wellFormed hash hI.wellFormed a
  single := single_step hI ho.sequential
  mark_le := mark_le_step hI
  count := count_step hI ho.metering
  pending := fun _ _ _ _ _ h => pending_step hI ho.sequential h
  backed := fun _ hx hs => backed_step hI ho hx hs

theorem Metered.Inv.complete (hI : w.Inv) : w.Complete := by
  intro i x hst hs
  have hid : x.instanceId=i := hI.wellFormed.stored_eq hst
  have hfin : w.finished i=true := by
    rw [← hid]
    exact hI.backed x (Or.inr (by rw [hid]; exact hst)) hs
  rw [hI.count i, hfin]
  rfl

theorem Metered.Inv.start : ({} : Metered).Inv where
  wellFormed := Store.WellFormed.nil
  single := Nat.zero_le 1
  mark_le := fun _ => Nat.le_refl 0
  count := fun _ => rfl
  pending := by
    intro id inst caller tenantId background h
    cases h
  backed := by
    intro c hc
    cases hc with
    | inl h => cases h
    | inr h => cases h

end Step

/-- Along every run of requests handled one at a time, with a meter that records, in which
updates and reconciles succeed only on instances whose own provision has, and no finalize of
a provision fails to read the catalog, every instance that has succeeded has exactly one
record since its creation. -/
theorem metering_complete (hash : String → Nat) (as : List (Env × Event))
    (h : Trace.Along (Metered.step hash) Orderly {} as) :
    Trace.Along (Metered.step hash) (fun w a => (w.step hash a).Complete) {} as := by
  refine Trace.Along.of_invariant Metered.Inv ?_ ?_ Metered.Inv.start h
  · intro w a hI ho
    exact hI.step ho
  · intro w a hI ho
    exact (hI.step ho).complete

def meteredRun : List (Env × Event) :=
  [.request operator (.provision "lb-1"
      { serviceId := "sovereign-envoy-lb", planId := "standard-regional" } true),
    .resume 0 (.rendered (.ok [])), updateEvent, .resume 2 (.rendered (.ok [])), .tick,
    .resume 4 (.diffed (some [("drifted", .bool false)]))].map fun e => (sampleEnv, e)

theorem metering_complete_updated :
    (Store.stored (Trace.exec (Metered.step fun _ => 0) {} meteredRun).state.tables.rows
      "lb-1").map (·.status)=some .succeeded ∧
    Trace.Along (Metered.step fun _ => 0) (fun w a => (w.step (fun _ => 0) a).Complete) {}
      meteredRun :=
  ⟨by decide +kernel, metering_complete _ _ (by decide +kernel)⟩

def retriedRun : List (Env × Event) :=
  [provisionEvent, .resume 0 (.rendered (.error (.http "timeout"))),
    .request operator (.reconcile (some "lb-1") 100)].map fun e => (sampleEnv, e)

def retriedEvent : Env × Event := (sampleEnv, .resume 2 (.rendered (.ok [])))

/-- The instance has succeeded, and nothing was ever recorded of it. -/
theorem reconciled_unmetered :
    Trace.Along (Metered.step fun _ => 0)
      (fun w a => OneAtATime w.state a ∧ a.1.faults.metering=false) {}
      (retriedRun++[retriedEvent]) ∧
    (Store.stored (Trace.exec (Metered.step fun _ => 0) {}
      (retriedRun++[retriedEvent])).state.tables.rows "lb-1").map (·.status)=some .succeeded ∧
    (Trace.exec (Metered.step fun _ => 0) {}
      (retriedRun++[retriedEvent])).state.tables.usage.isEmpty=true ∧
    (Trace.exec (Metered.step fun _ => 0) {}
      (retriedRun++[retriedEvent])).state.tasks.isEmpty=true ∧
    ¬ Trace.Along (Metered.step fun _ => 0) (fun w a => (w.step (fun _ => 0) a).Complete) {}
      (retriedRun++[retriedEvent]) := by
  refine ⟨by decide +kernel, by decide +kernel, by decide +kernel, by decide +kernel, ?_⟩
  intro h
  have hst : (Store.stored ((Trace.exec (Metered.step fun _ => 0) {} retriedRun).step (fun _ => 0)
      retriedEvent).state.tables.rows "lb-1").map (·.status)=some .succeeded := by
    decide +kernel
  obtain ⟨x, hx, hs⟩ := Option.map_eq_some_iff.mp hst
  have hone := h.last "lb-1" x hx hs
  have hzero : (((Trace.exec (Metered.step fun _ => 0) {} retriedRun).step (fun _ => 0)
      retriedEvent).records "lb-1").length=0 := by
    decide +kernel
  rw [hzero] at hone
  cases hone

end Sovereign.Broker
