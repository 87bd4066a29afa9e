import Sovereign.Dict
import Sovereign.PolicyClient
import Sovereign.Rounding
import Sovereign.UsageSummary
import Mathlib.Algebra.BigOperators.Group.Finset.Basic
import Mathlib.Algebra.Order.BigOperators.Group.Finset
import Mathlib.Data.Prod.Lex
import Mathlib.Data.Rat.Floor

/-! The FinOps pack: a cost model, the chargeback report of a tenant's usage, and its budgets. A
float is an exact number here. -/
namespace Sovereign.Finops
open Sovereign Enforcer Rounding

abbrev Usage := Sovereign.Usage Timestamp

structure CostRate where
  serviceType : String
  unit : String
  pricePerUnit : ℚ
  currency : String := "USD"
  nonneg : 0 ≤ pricePerUnit := by norm_num
deriving DecidableEq

structure CostModel where
  rates : List CostRate := []

/-- The first rate of the service type and unit, else the first default of the unit. -/
def CostModel.rateFor (m : CostModel) (serviceType unit : String) : Option CostRate :=
  (m.rates.find? fun r => decide (r.serviceType=serviceType ∧ r.unit=unit)).or
    (m.rates.find? fun r => decide (r.serviceType="*" ∧ r.unit=unit))

def CostModel.price (m : CostModel) (serviceType unit : String) : ℚ :=
  match m.rateFor serviceType unit with
  | some r => r.pricePerUnit
  | none => 0

structure Budget where
  tenantId : String
  scope : String := "tenant"
  limit : ℚ
  currency : String := "USD"
  period : String := "monthly"

structure ChargebackLineItem where
  serviceType : String
  unit : String
  quantity : ℚ
  unitPrice : ℚ
  cost : ℚ
deriving DecidableEq

structure ChargebackReport where
  tenantId : String
  currency : String := "USD"
  totalCost : ℚ := 0
  lineItems : List ChargebackLineItem := []
deriving DecidableEq

structure BudgetStatus where
  scope : String
  used : ℚ
  limit : ℚ
  currency : String
  breached : Bool
deriving DecidableEq

section Report
variable (str : Json → String)

/-- `str((u.metadata or {}).get("service_type") or u.resource_type)`. `str` is for a value that is
no text. -/
def serviceOf (u : Usage) : String :=
  match Json.lookup "service_type" u.metadata with
  | some (.str s) => if s="" then u.resourceType else s
  | some v => if PolicyClient.pyBool v then str v else u.resourceType
  | none => u.resourceType

def pairOf (u : Usage) : String × String := (serviceOf str u, u.unit)

def grouped (usage : List Usage) : Dict (String × String) ℚ :=
  Dict.tally (pairOf str) Usage.quantity usage

def ChargebackLineItem.pair (li : ChargebackLineItem) : String × String := (li.serviceType, li.unit)

def lineItem (m : CostModel) (p : (String × String) × ℚ) : ChargebackLineItem :=
  { serviceType := p.1.1
    unit := p.1.2
    quantity := p.2
    unitPrice := m.price p.1.1 p.1.2
    cost := roundTo 6 (m.price p.1.1 p.1.2*p.2) }

def sortedItems (d : Dict (String × String) ℚ) : List ((String × String) × ℚ) :=
  d.entries.insertionSort fun a b => toLex a.1 ≤ toLex b.1

def chargeback (tenantId : String) (usage : List Usage) (m : CostModel) (currency : String) :
    ChargebackReport :=
  let items := (sortedItems (grouped str usage)).map (lineItem m)
  { tenantId, currency
    totalCost := roundTo 6 (items.map ChargebackLineItem.cost).sum
    lineItems := items }

end Report

def serviceCost (report : ChargebackReport) (svc : String) : ℚ :=
  ((report.lineItems.filter fun li => decide (li.serviceType=svc)).map
    ChargebackLineItem.cost).sum

def usedFor (report : ChargebackReport) (scope : String) : Option ℚ :=
  if scope="tenant" then some report.totalCost
  else (behind "service_type:" scope).map (serviceCost report)

def budgetStatus (report : ChargebackReport) (budgets : List Budget) : List BudgetStatus :=
  budgets.filterMap fun b =>
    if b.tenantId≠report.tenantId then none
    else (usedFor report b.scope).map fun used =>
      { scope := b.scope, used := roundTo 6 used, limit := b.limit, currency := b.currency
        breached := decide (b.limit < used) }

section Lines
variable {str : Json → String} {m : CostModel} {usage : List Usage} {d e : Dict (String × String) ℚ}

theorem sortedItems_perm (d : Dict (String × String) ℚ) : (sortedItems d).Perm d.entries :=
  List.perm_insertionSort _ _

theorem sortedItems_strict (d : Dict (String × String) ℚ) :
    (sortedItems d).Pairwise fun a b => toLex a.1 < toLex b.1 := by
  have hnodup := d.nodup.map toLex.injective
  rw [List.map_map] at hnodup
  exact Sorting.strict_by (fun p : (String × String) × ℚ => toLex p.1) hnodup

theorem sortedItems_same (h : d.Same e) : sortedItems d=sortedItems e :=
  Sorting.eq_of_perm (f := fun p : (String × String) × ℚ => toLex p.1)
    (fun _ ha _ hb he => List.inj_on_of_nodup_map d.nodup ha hb (toLex.injective he)) h.perm

def quantityOf (str : Json → String) (usage : List Usage) (p : String × String) : ℚ :=
  ((usage.filter fun u => decide (pairOf str u=p)).map Usage.quantity).sum

theorem mem_sortedItems {x : (String × String) × ℚ} : x∈sortedItems (grouped str usage) ↔
    x.1∈usage.map (pairOf str) ∧ x.2=quantityOf str usage x.1 := by
  rw [(sortedItems_perm _).mem_iff]
  obtain ⟨p, q⟩ := x
  rw [← Dict.get_eq_some_iff, grouped, Dict.get_tally]
  split
  · next h =>
    rw [Option.some.injEq, eq_comm, quantityOf]
    exact (and_iff_right h).symm
  · next h => simp [h]

theorem grouped_perm {usage' : List Usage} (h : usage.Perm usage') :
    (grouped str usage).Same (grouped str usage') := by
  intro k
  rw [grouped, grouped, Dict.get_tally, Dict.get_tally]
  have hmem : k∈usage.map (pairOf str) ↔ k∈usage'.map (pairOf str) := (h.map _).mem_iff
  have hsum : ((usage.filter fun u => decide (pairOf str u=k)).map Usage.quantity).sum=
      ((usage'.filter fun u => decide (pairOf str u=k)).map Usage.quantity).sum :=
    ((h.filter _).map _).sum_eq
  by_cases hk : k∈usage.map (pairOf str)
  · rw [if_pos hk, if_pos (hmem.mp hk), hsum]
  · rw [if_neg hk, if_neg fun hk' => hk (hmem.mpr hk')]

theorem chargeback_perm {usage' : List Usage} (h : usage.Perm usage') (tenantId currency : String) :
    chargeback str tenantId usage m currency=chargeback str tenantId usage' m currency := by
  have hitems : sortedItems (grouped str usage)=sortedItems (grouped str usage') :=
    sortedItems_same (grouped_perm h)
  simp only [chargeback, hitems]

def lineOf (str : Json → String) (m : CostModel) (usage : List Usage) (p : String × String) :
    ChargebackLineItem :=
  lineItem m (p, quantityOf str usage p)

variable {tenantId currency : String}

theorem mem_lineItems {li : ChargebackLineItem} :
    li∈(chargeback str tenantId usage m currency).lineItems ↔
      li.pair∈usage.map (pairOf str) ∧ li=lineOf str m usage li.pair := by
  change li∈(sortedItems (grouped str usage)).map (lineItem m) ↔ _
  rw [List.mem_map]
  constructor
  · intro h
    obtain ⟨⟨p, q⟩, hx, rfl⟩ := h
    obtain ⟨hp, hq⟩ := mem_sortedItems.mp hx
    have hq' : q=quantityOf str usage p := hq
    subst hq'
    exact ⟨hp, rfl⟩
  · intro h
    obtain ⟨hp, he⟩ := h
    exact ⟨(li.pair, quantityOf str usage li.pair), mem_sortedItems.mpr ⟨hp, rfl⟩, he.symm⟩

theorem mem_pairs {p : String × String} :
    p∈(chargeback str tenantId usage m currency).lineItems.map ChargebackLineItem.pair ↔
      p∈usage.map (pairOf str) := by
  rw [List.mem_map]
  constructor
  · intro h
    obtain ⟨li, hli, rfl⟩ := h
    exact (mem_lineItems.mp hli).1
  · intro h
    exact ⟨lineOf str m usage p, mem_lineItems.mpr ⟨h, rfl⟩, rfl⟩

theorem lineItems_strict :
    (chargeback str tenantId usage m currency).lineItems.Pairwise fun a b =>
      toLex a.pair < toLex b.pair :=
  List.pairwise_map.mpr (sortedItems_strict _)

theorem onGrid_cost {li : ChargebackLineItem}
    (h : li∈(chargeback str tenantId usage m currency).lineItems) : OnGrid 6 li.cost := by
  obtain ⟨_, he⟩ := mem_lineItems.mp h
  rw [he]
  exact onGrid_roundTo 6 _

/-- Rounding the total changes nothing. -/
theorem totalCost_eq : (chargeback str tenantId usage m currency).totalCost=
    ((chargeback str tenantId usage m currency).lineItems.map ChargebackLineItem.cost).sum := by
  refine roundTo_of_onGrid (onGrid_sum ?_)
  intro c hc
  obtain ⟨li, hli, rfl⟩ := List.mem_map.mp hc
  have hline : li∈(chargeback str tenantId usage m currency).lineItems := hli
  exact onGrid_cost hline

theorem usedFor_service (report : ChargebackReport) (s : String) :
    usedFor report (Quotas.serviceTypeScope s)=some (serviceCost report s) := by
  have hbehind : behind "service_type:" (Quotas.serviceTypeScope s)=some s := behind_append _ s
  have hne : Quotas.serviceTypeScope s≠"tenant" := by
    intro he
    have hnone : behind "service_type:" "tenant"=none := by decide
    rw [he, hnone] at hbehind
    cases hbehind
  rw [usedFor, if_neg hne, hbehind]
  rfl

theorem onGrid_serviceCost (s : String) :
    OnGrid 6 (serviceCost (chargeback str tenantId usage m currency) s) := by
  refine onGrid_sum ?_
  intro c hc
  obtain ⟨li, hli, rfl⟩ := List.mem_map.mp hc
  exact onGrid_cost (List.mem_of_mem_filter hli)

theorem used_services (services : List String) {budget : String → Budget}
    (hbudget : ∀ s, (budget s).tenantId=tenantId ∧ (budget s).scope=Quotas.serviceTypeScope s) :
    (budgetStatus (chargeback str tenantId usage m currency) (services.map budget)).map
      BudgetStatus.used=services.map (serviceCost (chargeback str tenantId usage m currency)) := by
  induction services with
  | nil => rfl
  | cons s services ih =>
    obtain ⟨htenant, hscope⟩ := hbudget s
    have htenant' : ¬ (budget s).tenantId≠(chargeback str tenantId usage m currency).tenantId :=
      not_not.mpr htenant
    rw [budgetStatus, List.map_cons, List.filterMap_cons, if_neg htenant', hscope,
      usedFor_service]
    simp only [Option.map_some, List.map_cons, roundTo_of_onGrid (onGrid_serviceCost s)]
    rw [← ih, budgetStatus]

/-- The service types together make up the total. -/
theorem sum_serviceCost {services : List String} (hnodup : services.Nodup)
    (hall : ∀ li∈(chargeback str tenantId usage m currency).lineItems, li.serviceType∈services) :
    (services.map (serviceCost (chargeback str tenantId usage m currency))).sum=
      (chargeback str tenantId usage m currency).totalCost := by
  rw [totalCost_eq]
  exact Dict.sum_by_key _ _ hnodup hall

theorem used_tenant {b : Budget} (htenant : b.tenantId=tenantId) (hscope : b.scope="tenant") :
    (budgetStatus (chargeback str tenantId usage m currency) [b]).map BudgetStatus.used=
      [(chargeback str tenantId usage m currency).totalCost] := by
  have htenant' : ¬ b.tenantId≠(chargeback str tenantId usage m currency).tenantId :=
    not_not.mpr htenant
  have hgrid : OnGrid 6 (chargeback str tenantId usage m currency).totalCost :=
    onGrid_roundTo 6 _
  rw [budgetStatus, List.filterMap_cons, if_neg htenant', hscope, usedFor, if_pos rfl]
  simp only [Option.map_some, List.filterMap_nil, List.map_cons, List.map_nil,
    roundTo_of_onGrid hgrid]

theorem price_nonneg (m : CostModel) (serviceType unit : String) :
    0 ≤ m.price serviceType unit := by
  rw [CostModel.price]
  split
  · next r _ => exact r.nonneg
  · exact le_refl 0

theorem quantityOf_append (u : Usage) (p : String × String) :
    quantityOf str usage p ≤ quantityOf str (usage++[u]) p := by
  rw [quantityOf, quantityOf, List.filter_append, List.map_append, List.sum_append]
  refine le_add_of_nonneg_right (List.sum_nonneg ?_)
  intro q hq
  obtain ⟨v, _, rfl⟩ := List.mem_map.mp hq
  exact v.quantity_nonneg

theorem quantityOf_nonneg (usage : List Usage) (p : String × String) :
    0 ≤ quantityOf str usage p := by
  refine List.sum_nonneg ?_
  intro q hq
  obtain ⟨v, _, rfl⟩ := List.mem_map.mp hq
  exact v.quantity_nonneg

theorem cost_lineOf_append (u : Usage) (p : String × String) :
    (lineOf str m usage p).cost ≤ (lineOf str m (usage++[u]) p).cost :=
  roundTo_mono 6 (mul_le_mul_of_nonneg_left (quantityOf_append u p) (price_nonneg m _ _))

theorem cost_lineOf_nonneg (usage : List Usage) (p : String × String) :
    0 ≤ (lineOf str m usage p).cost :=
  roundTo_nonneg 6 (mul_nonneg (price_nonneg m _ _) (quantityOf_nonneg usage p))

/-- The total over the pairs that the usage names. -/
theorem totalCost_pairs : (chargeback str tenantId usage m currency).totalCost=
    ∑ p∈(usage.map (pairOf str)).toFinset, (lineOf str m usage p).cost := by
  have hlines : (chargeback str tenantId usage m currency).lineItems=
      ((chargeback str tenantId usage m currency).lineItems.map ChargebackLineItem.pair).map
        (lineOf str m usage) := by
    rw [List.map_map]
    refine (List.map_id _).symm.trans (List.map_congr_left ?_)
    intro li hli
    exact (mem_lineItems.mp hli).2
  have hnodup : ((chargeback str tenantId usage m currency).lineItems.map
      ChargebackLineItem.pair).Nodup :=
    List.pairwise_map.mpr (lineItems_strict.imp fun hlt he => absurd (congrArg toLex he) hlt.ne)
  have hset : ((chargeback str tenantId usage m currency).lineItems.map
      ChargebackLineItem.pair).toFinset=(usage.map (pairOf str)).toFinset := by
    ext p
    rw [List.mem_toFinset, List.mem_toFinset, mem_pairs]
  rw [totalCost_eq, hlines, List.map_map, ← hset, List.sum_toFinset _ hnodup]
  rfl

theorem totalCost_append (u : Usage) : (chargeback str tenantId usage m currency).totalCost ≤
    (chargeback str tenantId (usage++[u]) m currency).totalCost := by
  rw [totalCost_pairs, totalCost_pairs]
  calc
    ∑ p∈(usage.map (pairOf str)).toFinset, (lineOf str m usage p).cost
        ≤ ∑ p∈(usage.map (pairOf str)).toFinset, (lineOf str m (usage++[u]) p).cost :=
          Finset.sum_le_sum fun p _ => cost_lineOf_append u p
    _ ≤ ∑ p∈((usage++[u]).map (pairOf str)).toFinset, (lineOf str m (usage++[u]) p).cost := by
          refine Finset.sum_le_sum_of_subset_of_nonneg ?_ fun p _ _ => cost_lineOf_nonneg _ p
          intro p hp
          rw [List.mem_toFinset] at hp ⊢
          rw [List.map_append]
          exact List.mem_append_left _ hp

end Lines

/-- Chargeback adds up: lines, total, budgets and what more usage does. -/
theorem chargeback_adds_up (str : Json → String) (tenantId currency : String) (usage : List Usage)
    (m : CostModel) :
    let report := chargeback str tenantId usage m currency
    (∀ usage', usage.Perm usage' → chargeback str tenantId usage' m currency=report) ∧
    (report.lineItems.Pairwise (fun a b => toLex a.pair < toLex b.pair) ∧
      (∀ p, p∈report.lineItems.map ChargebackLineItem.pair ↔ p∈usage.map (pairOf str)) ∧
      ∀ li∈report.lineItems,
        li.quantity=((usage.filter fun u => decide (pairOf str u=li.pair)).map
          Usage.quantity).sum ∧
        li.unitPrice=m.price li.serviceType li.unit ∧
        li.cost=roundTo 6 (li.unitPrice*li.quantity)) ∧
    report.totalCost=(report.lineItems.map ChargebackLineItem.cost).sum ∧
    (∀ (services : List String) (budget : String → Budget) (b : Budget), services.Nodup →
      (∀ li∈report.lineItems, li.serviceType∈services) →
      (∀ s, (budget s).tenantId=tenantId ∧ (budget s).scope=Quotas.serviceTypeScope s) →
      b.tenantId=tenantId → b.scope="tenant" →
      (budgetStatus report (services.map budget)).map BudgetStatus.used=
          services.map (serviceCost report) ∧
        [((budgetStatus report (services.map budget)).map BudgetStatus.used).sum]=
          (budgetStatus report [b]).map BudgetStatus.used) ∧
    ∀ u, let more := chargeback str tenantId (usage++[u]) m currency
      (∀ li∈report.lineItems, ∃ li'∈more.lineItems, li'.pair=li.pair ∧
        li.quantity ≤ li'.quantity ∧ li.cost ≤ li'.cost) ∧ report.totalCost ≤ more.totalCost := by
  refine ⟨?_, ⟨lineItems_strict, fun p => mem_pairs, ?_⟩, totalCost_eq, ?_, ?_⟩
  · intro usage' h
    exact (chargeback_perm h tenantId currency).symm
  · intro li hli
    obtain ⟨_, he⟩ := mem_lineItems.mp hli
    refine ⟨congrArg ChargebackLineItem.quantity he, congrArg ChargebackLineItem.unitPrice he, ?_⟩
    rw [he]
    rfl
  · intro services budget b hnodup hall hbudget htenant hscope
    refine ⟨used_services services hbudget, ?_⟩
    rw [used_services services hbudget, sum_serviceCost hnodup hall, used_tenant htenant hscope]
  · intro u
    refine ⟨?_, totalCost_append u⟩
    intro li hli
    obtain ⟨hp, he⟩ := mem_lineItems.mp hli
    have hp' : li.pair∈(usage++[u]).map (pairOf str) := by
      rw [List.map_append]
      exact List.mem_append_left _ hp
    refine ⟨lineOf str m (usage++[u]) li.pair, mem_lineItems.mpr ⟨hp', rfl⟩, rfl, ?_, ?_⟩
    · rw [he]
      exact quantityOf_append u li.pair
    · rw [he]
      exact cost_lineOf_append u li.pair

def sampleModel : CostModel where
  rates := [{ serviceType := "sovereign-envoy-lb", unit := "instance", pricePerUnit := 15 },
    { serviceType := "*", unit := "instance", pricePerUnit := 4 }]

example : sampleModel.price "sovereign-envoy-lb" "instance"=15 ∧
    sampleModel.price "inference-endpoint" "instance"=4 ∧
    sampleModel.price "anything" "hour"=0 := by decide +kernel

end Sovereign.Finops
