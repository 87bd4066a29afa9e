import Sovereign.SideTables
import Sovereign.Interleaving

/-! The cap on instances. The quota check counts usage records, and the record of a
provision is written only after its render, so provisions in flight are not counted. -/
namespace Sovereign.Broker
open Sovereign Policy Quotas

structure Cap where
  tenantId : String
  scope : Scope
  maxInstances : Int

def Cap.Configured (cap : Cap) (env : Env) : Prop :=
  (quotaFor env.quotas cap.tenantId cap.scope.name).bind (·.maxInstances)=some cap.maxInstances

section Scope
variable (cap : Cap) (catalog : String → Option String)

def Cap.covers (serviceId : String) : Bool :=
  match cap.scope with
  | .service t => decide (serviceId=t)
  | .pack p => decide (catalog serviceId=some p)

def Cap.concerns (inst : ServiceInstance) (tenantId : String) : Bool :=
  decide (tenantId=cap.tenantId) && cap.covers catalog inst.serviceId

def Cap.countsRecord (r : UsageRecord) : Bool :=
  decide (r.tenantId=cap.tenantId) && cap.scope.counts r

def Cap.recorded (usage : List UsageRecord) : Nat := (usage.filter cap.countsRecord).length

def Cap.pending (task : Nat × Task) : Bool :=
  match task.2 with
  | .provision inst _ tenantId _ => cap.concerns catalog inst tenantId
  | _ => false

def Cap.inFlight (s : State) : Nat := s.tasks.countP (cap.pending catalog)

end Scope

/-- The provision whose render succeeds at the step: the record it waited with, and its
tenant. -/
def provisionRenders (s : State) (a : Env × Event) : Option (ServiceInstance × String) :=
  match a.2 with
  | .resume id (.rendered (.ok _)) =>
    match s.tasks.lookup id with
    | some (.provision inst _ tenantId _) => some (inst, tenantId)
    | _ => none
  | _ => none

structure Capped where
  state : State := {}
  succeeded : Nat := 0

def Capped.step (cap : Cap) (catalog : String → Option String) (hash : String → Nat)
    (w : Capped) (a : Env × Event) : Capped :=
  { state := Broker.step hash w.state a
    succeeded := w.succeeded +
      if (provisionRenders w.state a).any fun r => cap.concerns catalog r.1 r.2 then 1 else 0 }

theorem Capped.step_state (cap : Cap) (catalog : String → Option String) (hash : String → Nat)
    (w : Capped) (a : Env × Event) :
    (w.step cap catalog hash a).state=Broker.step hash w.state a := rfl

/-- The cap is on a service type, or the catalog answers with a pack that the quota check
looks at. -/
def Cap.CatalogRead (cap : Cap) (catalog : String → Option String) (env : Env)
    (serviceId : String) : Prop :=
  match cap.scope with
  | .service _ => True
  | .pack p => env.packOf serviceId=catalog serviceId ∧ p≠""

def Cap.AllRead (cap : Cap) (env : Env) (usage : List UsageRecord) : Prop :=
  let records := usage.filter fun r => decide (r.tenantId=cap.tenantId)
  records.length ≤ 1000 ∧ records.length ≤ env.host.holds records

instance (cap : Cap) (env : Env) (usage : List UsageRecord) :
    Decidable (cap.AllRead env usage) := inferInstanceAs (Decidable (_ ∧ _))

/-- A provision under the cap is admitted on a catalog read that succeeds, and either
alone, with no more of the tenant's records than the check reads, or while its scope has
room for all that are in flight. -/
def Cap.Spaced (cap : Cap) (catalog : String → Option String) (s : State) (a : Env × Event) :
    Prop :=
  ∀ c∈created s a, cap.concerns catalog c.record c.tenantId=true →
    cap.CatalogRead catalog a.1 c.req.serviceId ∧
    (cap.inFlight catalog s=0 ∧
        cap.AllRead a.1 s.tables.usage ∨
      (cap.recorded s.tables.usage : Int)+cap.inFlight catalog s < cap.maxInstances)

def Cap.Settled (cap : Cap) (catalog : String → Option String) (s : State) (a : Env × Event) :
    Prop :=
  ∀ r∈provisionRenders s a, cap.concerns catalog r.1 r.2=true →
    (finalized s a).isSome=true ∧ cap.CatalogRead catalog a.1 r.1.serviceId

section Step
variable {cap : Cap} {catalog : String → Option String} {hash : String → Nat} {s : State}
  {a : Env × Event}

theorem used_eq {env : Env} {usage : List UsageRecord} (h : cap.AllRead env usage) :
    ((query env.host usage cap.tenantId).filter cap.scope.counts).length=cap.recorded usage := by
  rw [query, onePage_whole h.1 h.2, List.filter_filter, Cap.recorded]
  congr 2
  funext r
  rw [Cap.countsRecord, Bool.and_comm]

/-- The check of a provision under the cap looks at the cap. -/
theorem mem_scopes {env : Env} {serviceId : String} (hcov : cap.covers catalog serviceId=true)
    (hcat : cap.CatalogRead catalog env serviceId) :
    cap.scope∈scopes serviceId (env.packOf serviceId) := by
  obtain ⟨tenantId, scope, maxInstances⟩ := cap
  cases scope with
  | service t =>
    have ht : serviceId=t := by simpa [Cap.covers] using hcov
    subst ht
    exact List.mem_cons_self
  | pack p =>
    have hp : catalog serviceId=some p := by simpa [Cap.covers] using hcov
    obtain ⟨he, hne⟩ := hcat
    rw [he, hp]
    refine List.mem_cons_of_mem _ ?_
    simp [Option.filter, hne]

theorem gates_of_created {c : Creation} (h : created s a=some c) :
    (provisionGates a.1 c.caller c.tenantId c.instanceId c.req s.tables.usage).raised=none := by
  rw [created] at h
  split at h
  · next caller instanceId req b hr =>
    split at h
    · next hadm =>
      cases h
      simp only [provisionAdmitted] at hadm
      split at hadm
      · simp only [Bool.and_eq_true, Option.isNone_iff_eq_none] at hadm
        exact hadm.1
      · cases hadm
    · cases h
  · cases h

/-- With all records in view, an admitted provision finds room under the cap. -/
theorem recorded_lt {c : Creation} (hconf : cap.Configured a.1) (hc : created s a=some c)
    (hcon : cap.concerns catalog c.record c.tenantId=true)
    (hcat : cap.CatalogRead catalog a.1 c.req.serviceId)
    (hread : cap.AllRead a.1 s.tables.usage) :
    (cap.recorded s.tables.usage : Int) < cap.maxInstances := by
  simp only [Cap.concerns, Bool.and_eq_true, decide_eq_true_eq] at hcon
  obtain ⟨htenant, hcov⟩ := hcon
  have hgate := gates_of_created hc
  simp only [provisionGates, Gate.andThen_raised_none] at hgate
  obtain ⟨⟨_, hquota⟩, _⟩ := hgate
  split at hquota
  · cases hquota
  · rw [checkQuota_raised_none, htenant] at hquota
    have hlim := hquota _ (mem_scopes hcov hcat)
    rw [Bool.eq_false_iff, ne_eq, Scope.entry_atLimit, used_eq hread] at hlim
    by_contra hfull
    exact hlim ⟨cap.maxInstances, hconf, not_lt.mp hfull⟩

theorem pending_other {id : Nat} {task : Task} (h : task.isProvision=false) :
    cap.pending catalog (id, task)=false := by
  cases task with
  | provision inst caller tenantId background => cases h
  | update inst caller tenantId => rfl
  | teardown i inst caller tenantId => rfl
  | diff inst pass => rfl
  | reconcile inst pass => rfl

theorem inFlight_run_none {seg : Segment} :
    cap.inFlight catalog (s.run hash none seg) = cap.inFlight catalog s +
      (seg.task.toList.map fun task => (s.nextTask, task)).countP (cap.pending catalog) := by
  simp only [Cap.inFlight, State.run, List.countP_append]
  rfl

theorem inFlight_le {resumed : Option Nat} {seg : Segment}
    (ht : ∀ task∈seg.task, task.isProvision=false) :
    cap.inFlight catalog (s.run hash resumed seg) ≤ cap.inFlight catalog s := by
  have hnew : ∀ id, (seg.task.toList.map fun task => (id, task)).countP (cap.pending catalog)=0 := by
    intro id
    rw [List.countP_eq_zero]
    intro t hmem
    obtain ⟨task, htask, he⟩ := List.mem_map.mp hmem
    subst he
    simp [pending_other (ht task (Option.mem_toList.mp htask))]
  simp only [Cap.inFlight, State.run, List.countP_append, hnew, Nat.add_zero]
  cases resumed with
  | none => exact Nat.le_refl _
  | some id => exact List.filter_sublist.countP_le

theorem inFlight_resumed {id : Nat} {task : Task} {seg : Segment}
    (hl : s.tasks.lookup id=some task) (hp : cap.pending catalog (id, task)=true)
    (ht : seg.task=none) :
    cap.inFlight catalog (s.run hash (some id) seg)+1 ≤ cap.inFlight catalog s := by
  obtain ⟨before, after, he, _⟩ := List.lookup_eq_some_iff.mp hl
  have hb : (before.filter fun t => decide (t.1≠id)).countP (cap.pending catalog) ≤
      before.countP (cap.pending catalog) := List.filter_sublist.countP_le
  have ha : (after.filter fun t => decide (t.1≠id)).countP (cap.pending catalog) ≤
      after.countP (cap.pending catalog) := List.filter_sublist.countP_le
  have hself : ([(id, task)].filter fun t => decide (t.1≠id))=[] := by simp
  have hsplit : before++(id, task)::after=before++([(id, task)]++after) := rfl
  simp only [Cap.inFlight, State.run, ht, he, hsplit, List.filter_append, List.countP_append,
    hself]
  simp only [Option.toList_none, List.map_nil, List.countP_nil, List.countP_singleton, hp, if_pos]
  omega

theorem recorded_cons (r : UsageRecord) (usage : List UsageRecord) :
    cap.recorded (r::usage)=(if cap.countsRecord r then 1 else 0)+cap.recorded usage := by
  rw [Cap.recorded, List.filter_cons]
  split
  · rw [List.length_cons, Nat.add_comm]
    rfl
  · rw [Nat.zero_add]
    rfl

theorem countsRecord_usageRecord {env : Env} {inst x : ServiceInstance} {tenantId : String}
    (hx : x.serviceId=inst.serviceId) (hcon : cap.concerns catalog inst tenantId=true)
    (hcat : cap.CatalogRead catalog env inst.serviceId) :
    cap.countsRecord (usageRecord env x tenantId)=true := by
  obtain ⟨tenant, scope, maxInstances⟩ := cap
  simp only [Cap.concerns, Bool.and_eq_true, decide_eq_true_eq] at hcon
  obtain ⟨htenant, hcov⟩ := hcon
  cases scope with
  | service t =>
    have ht : inst.serviceId=t := by simpa [Cap.covers] using hcov
    simp [Cap.countsRecord, usageRecord, htenant, Scope.counts, Scope.serviceFilter,
      Scope.packFilter, counts, Json.lookup, hx, ht]
  | pack p =>
    have hp : catalog inst.serviceId=some p := by simpa [Cap.covers] using hcov
    have hpack : env.packOf x.serviceId=some p := by rw [hx, hcat.1, hp]
    simp [Cap.countsRecord, usageRecord, htenant, Scope.counts, Scope.serviceFilter,
      Scope.packFilter, counts, Json.lookup, hpack, optString]

theorem recorded_le (cap : Cap) (hash : String → Nat) (s : State) (a : Env × Event) :
    cap.recorded s.tables.usage ≤ cap.recorded (step hash s a).tables.usage := by
  obtain ⟨_, hu⟩ | ⟨inst, x, tenantId, _, _, _, hu⟩ := usage_step hash s a
  · rw [hu]
  · rw [hu]
    split
    · exact Nat.le_refl _
    · rw [recorded_cons]
      omega

theorem renders_of_finalized {r : ServiceInstance × String} (h : finalized s a=some r) :
    provisionRenders s a=some r := by
  simp only [finalized] at h
  split at h
  · next id artifact he =>
    split at h
    · next inst caller tenantId background ht =>
      split at h
      · cases h
        simp only [provisionRenders, he, ht]
      · cases h
    · cases h
  · cases h

/-- Where renders settle, the provisions counted are those whose outcome is stored. -/
theorem succeeded_step {w : Capped} (hset : cap.Settled catalog w.state a) :
    (w.step cap catalog hash a).succeeded=w.succeeded +
      if (finalized w.state a).any fun r => cap.concerns catalog r.1 r.2 then 1 else 0 := by
  have he : ((provisionRenders w.state a).any fun r => cap.concerns catalog r.1 r.2) =
      (finalized w.state a).any fun r => cap.concerns catalog r.1 r.2 := by
    cases hf : finalized w.state a with
    | some r => rw [renders_of_finalized hf]
    | none =>
      cases hr : provisionRenders w.state a with
      | none => rfl
      | some r =>
        by_cases hcon : cap.concerns catalog r.1 r.2=true
        · have hsome := (hset r hr hcon).1
          rw [hf] at hsome
          cases hsome
        · simpa using hcon
  simp only [Capped.step, he]

end Step

structure Cap.Orderly (cap : Cap) (catalog : String → Option String) (w : Capped)
    (a : Env × Event) : Prop where
  configured : cap.Configured a.1
  metering : a.1.faults.metering=false
  spaced : cap.Spaced catalog w.state a
  settled : cap.Settled catalog w.state a

instance (cap : Cap) (catalog : String → Option String) (env : Env) (serviceId : String) :
    Decidable (cap.CatalogRead catalog env serviceId) :=
  match h : cap.scope with
  | .service _ => isTrue (by simp only [Cap.CatalogRead, h])
  | .pack p => decidable_of_iff (env.packOf serviceId=catalog serviceId ∧ p≠"")
      (by simp only [Cap.CatalogRead, h])

instance (cap : Cap) (env : Env) : Decidable (cap.Configured env) :=
  inferInstanceAs (Decidable (_=some cap.maxInstances))

instance (cap : Cap) (catalog : String → Option String) (s : State) (a : Env × Event) :
    Decidable (cap.Spaced catalog s a) :=
  inferInstanceAs (Decidable (∀ c∈created s a, _ → _ ∧ (_ ∧ _ ∨ _)))

instance (cap : Cap) (catalog : String → Option String) (s : State) (a : Env × Event) :
    Decidable (cap.Settled catalog s a) :=
  inferInstanceAs (Decidable (∀ r∈provisionRenders s a, _ → _ ∧ _))

instance Cap.Orderly.decidable (cap : Cap) (catalog : String → Option String) (w : Capped)
    (a : Env × Event) : Decidable (cap.Orderly catalog w a) :=
  decidable_of_iff (cap.Configured a.1 ∧ a.1.faults.metering=false ∧
    cap.Spaced catalog w.state a ∧ cap.Settled catalog w.state a)
    ⟨fun h => ⟨h.1, h.2.1, h.2.2.1, h.2.2.2⟩,
      fun h => ⟨h.configured, h.metering, h.spaced, h.settled⟩⟩

structure Capped.Inv (cap : Cap) (catalog : String → Option String) (w : Capped) : Prop where
  recorded : w.succeeded ≤ cap.recorded w.state.tables.usage
  room : (w.succeeded : Int)+cap.inFlight catalog w.state ≤ max 0 cap.maxInstances

section Runs
variable {cap : Cap} {catalog : String → Option String} {hash : String → Nat} {w : Capped}
  {a : Env × Event}

theorem Capped.Inv.idle (hI : w.Inv cap catalog) (hset : cap.Settled catalog w.state a)
    (hf : finalized w.state a=none)
    (hle : cap.inFlight catalog (Broker.step hash w.state a) ≤ cap.inFlight catalog w.state) :
    (w.step cap catalog hash a).Inv cap catalog := by
  have hs : (w.step cap catalog hash a).succeeded=w.succeeded := by
    rw [succeeded_step hset, hf]
    rfl
  have hroom := hI.room
  refine ⟨?_, ?_⟩
  · rw [hs]
    exact hI.recorded.trans (recorded_le cap hash w.state a)
  · rw [hs, Capped.step_state]
    omega

theorem Capped.Inv.created (hI : w.Inv cap catalog) (ho : cap.Orderly catalog w a)
    {c : Creation} {background : Bool} {seg : Segment}
    (eq : segment a.1 w.state a.2=some (none, seg)) (hc : Broker.created w.state a=some c)
    (ht : seg.task=some (.provision c.record c.caller c.tenantId background)) :
    (w.step cap catalog hash a).Inv cap catalog := by
  obtain ⟨caller, req, hr⟩ := created_requested hc
  have hf : finalized w.state a=none := finalized_requested hr
  have hin : cap.inFlight catalog (Broker.step hash w.state a) =
      cap.inFlight catalog w.state +
        if cap.concerns catalog c.record c.tenantId then 1 else 0 := by
    rw [step_segment eq, inFlight_run_none, ht]
    simp only [Option.toList_some, List.map_cons, List.map_nil, List.countP_singleton, Cap.pending]
    rfl
  by_cases hcon : cap.concerns catalog c.record c.tenantId=true
  · have hs : (w.step cap catalog hash a).succeeded=w.succeeded := by
      rw [succeeded_step ho.settled, hf]
      rfl
    rw [if_pos hcon] at hin
    obtain ⟨hcat, hroom⟩ := ho.spaced c hc hcon
    have hlt : (cap.recorded w.state.tables.usage : Int)+cap.inFlight catalog w.state <
        cap.maxInstances := by
      obtain ⟨hzero, hlen⟩ | hroom := hroom
      · have := recorded_lt ho.configured hc hcon hcat hlen
        omega
      · exact hroom
    have hrec := hI.recorded
    refine ⟨?_, ?_⟩
    · rw [hs]
      exact hrec.trans (recorded_le cap hash w.state a)
    · rw [hs, Capped.step_state, hin]
      omega
  · rw [if_neg hcon] at hin
    exact hI.idle ho.settled hf (by omega)

theorem Capped.Inv.finished (hI : w.Inv cap catalog) (ho : cap.Orderly catalog w a) {id : Nat}
    {inst : ServiceInstance} {caller : Caller} {tenantId : String} {background : Bool}
    {seg : Segment} (eq : segment a.1 w.state a.2=some (some id, seg))
    (hl : w.state.tasks.lookup id=some (.provision inst caller tenantId background))
    (hf : finalized w.state a=some (inst, tenantId)) (ht : seg.task=none) :
    (w.step cap catalog hash a).Inv cap catalog := by
  have hs : (w.step cap catalog hash a).succeeded=w.succeeded +
      if cap.concerns catalog inst tenantId then 1 else 0 := by
    rw [succeeded_step ho.settled, hf]
    rfl
  have hrec := hI.recorded
  have hroom := hI.room
  by_cases hcon : cap.concerns catalog inst tenantId=true
  · rw [if_pos hcon] at hs
    have hcat := (ho.settled _ (renders_of_finalized hf) hcon).2
    have hnew : cap.recorded (Broker.step hash w.state a).tables.usage =
        1+cap.recorded w.state.tables.usage := by
      obtain ⟨hf', _⟩ | ⟨inst', x, tenantId', hf', _, hx, hu⟩ := usage_step hash w.state a
      · rw [hf] at hf'
        cases hf'
      · rw [hf] at hf'
        cases hf'
        rw [hu, ho.metering, if_neg (by simp), recorded_cons,
          if_pos (countsRecord_usageRecord hx hcon hcat)]
    have hin : cap.inFlight catalog (Broker.step hash w.state a)+1 ≤
        cap.inFlight catalog w.state := by
      rw [step_segment eq]
      exact inFlight_resumed hl hcon ht
    refine ⟨?_, ?_⟩
    · rw [hs, Capped.step_state, hnew]
      omega
    · rw [hs, Capped.step_state]
      omega
  · rw [if_neg hcon] at hs
    have hin : cap.inFlight catalog (Broker.step hash w.state a) ≤
        cap.inFlight catalog w.state := by
      rw [step_segment eq]
      exact inFlight_le (by simp [ht])
    refine ⟨?_, ?_⟩
    · rw [hs]
      exact hrec.trans (recorded_le cap hash w.state a)
    · rw [hs, Capped.step_state]
      omega

theorem Capped.Inv.step (hI : w.Inv cap catalog) (ho : cap.Orderly catalog w a) :
    (w.step cap catalog hash a).Inv cap catalog := by
  cases step_side w.state a with
  | stuck eq =>
    have hs : Broker.step hash w.state a=w.state := by rw [Broker.step, eq]
    exact hI.idle ho.settled (finalized_stuck eq) (by rw [hs])
  | plain resumed seg eq hp hc hf =>
    refine hI.idle ho.settled hf ?_
    rw [step_segment eq]
    exact inFlight_le hp.task
  | provision c background seg eq hc hw ht => exact hI.created ho eq hc ht
  | bind caller x req record seg eq hr ha hw ht =>
    refine hI.idle ho.settled (finalized_requested hr) ?_
    rw [step_segment eq]
    exact inFlight_le (by simp [ht])
  | unbind caller instanceId bindingId record seg eq hr ha hw ht =>
    refine hI.idle ho.settled (finalized_requested hr) ?_
    rw [step_segment eq]
    exact inFlight_le (by simp [ht])
  | finish id inst x caller tenantId background record seg eq hl hf htouched hservice hw ht =>
    exact hI.finished ho eq hl hf ht

end Runs

/-- Along every run under a configured cap, with a meter that records, in which the
provisions under the cap are spaced and settle, no more of them succeed than the cap
allows. A negative cap allows none. -/
theorem cap_respected (cap : Cap) (catalog : String → Option String) (hash : String → Nat)
    (as : List (Env × Event))
    (h : Trace.Along (Capped.step cap catalog hash) (cap.Orderly catalog) {} as) :
    Trace.Along (Capped.step cap catalog hash)
      (fun w a => ((w.step cap catalog hash a).succeeded : Int) ≤ max 0 cap.maxInstances) {}
      as := by
  have hstart : Capped.Inv cap catalog {} := ⟨Nat.zero_le _, le_max_left 0 cap.maxInstances⟩
  refine Trace.Along.of_invariant (Capped.Inv cap catalog) ?_ ?_ hstart h
  · intro w a hI ho
    exact hI.step ho
  · intro w a hI ho
    have hstep : (w.step cap catalog hash a).Inv cap catalog := hI.step ho
    have hroom := hstep.room
    omega

def oneBalancer : Cap :=
  { tenantId := "treasury", scope := .service "sovereign-envoy-lb", maxInstances := 1 }

def cappedEnv : Env :=
  { sampleEnv with
    quotas := [{ tenantId := "treasury", scope := "service_type:sovereign-envoy-lb"
                 maxInstances := some 1 }] }

def provisionOne (instanceId : String) : Env × Event :=
  (cappedEnv, .request operator (.provision instanceId
    { serviceId := "sovereign-envoy-lb", planId := "standard-regional"
      organizationGuid := some "treasury" } false))

def renderOk (task : Nat) : Env × Event := (cappedEnv, .resume task (.rendered (.ok [])))

/-- The second request comes when the first is done, and is refused. -/
theorem cap_respected_inTurn :
    (created (Trace.exec (step fun _ => 0) {} [provisionOne "lb-1", renderOk 0])
      (provisionOne "lb-2")).isNone=true ∧
    Trace.Along (Capped.step oneBalancer (fun _ => none) fun _ => 0)
      (fun w a => ((w.step oneBalancer (fun _ => none) (fun _ => 0) a).succeeded : Int) ≤
        max 0 oneBalancer.maxInstances) {}
      [provisionOne "lb-1", renderOk 0, provisionOne "lb-2"] :=
  ⟨by decide +kernel, cap_respected _ _ _ _ (by decide +kernel)⟩

/-- The second request comes while the first awaits its render: both are admitted, and
both succeed. -/
theorem cap_exceeded :
    ¬ Trace.Along (Capped.step oneBalancer (fun _ => none) fun _ => 0)
      (fun w a => ((w.step oneBalancer (fun _ => none) (fun _ => 0) a).succeeded : Int) ≤
        max 0 oneBalancer.maxInstances) {}
      [provisionOne "lb-1", provisionOne "lb-2", renderOk 0, renderOk 1] ∧
    Trace.Along (Capped.step oneBalancer (fun _ => none) fun _ => 0)
      (fun _ a => oneBalancer.Configured a.1 ∧ a.1.faults.metering=false) {}
      [provisionOne "lb-1", provisionOne "lb-2", renderOk 0, renderOk 1] :=
  ⟨by decide +kernel, by decide +kernel⟩

end Sovereign.Broker
