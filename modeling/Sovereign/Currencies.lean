import Sovereign.Chargeback

/-! The currencies of rates, reports and budgets. They are carried along and looked at nowhere. -/
namespace Sovereign.Finops
open Sovereign Enforcer Rounding

/-- Each line's price comes from a rate in the report's currency, if from a rate at all. -/
def Unmixed (m : CostModel) (report : ChargebackReport) : Prop :=
  ∀ li∈report.lineItems, ∀ r, m.rateFor li.serviceType li.unit=some r → r.currency=report.currency

def Compared (report : ChargebackReport) (b : Budget) : Prop :=
  b.tenantId=report.tenantId ∧ (usedFor report b.scope).isSome=true

def First (m : CostModel) (r : CostRate) : Prop :=
  ∃ before behind, m.rates=before++r::behind ∧
    ∀ q∈before, ¬ (q.serviceType=r.serviceType ∧ q.unit=r.unit)

def CostModel.relabel (f : CostRate → String) (m : CostModel) : CostModel :=
  { rates := m.rates.map fun r => { r with currency := f r } }

def Budget.relabel (g : Budget → String) (b : Budget) : Budget := { b with currency := g b }

def BudgetStatus.amounts (s : BudgetStatus) : String × ℚ × ℚ × Bool :=
  (s.scope, s.used, s.limit, s.breached)

section Labels
variable {str : Json → String} {m : CostModel} {usage : List Usage} {tenantId currency : String}

theorem find?_first {serviceType unit : String} {r : CostRate} :
    (m.rates.find? fun r => decide (r.serviceType=serviceType ∧ r.unit=unit))=some r ↔
      First m r ∧ r.serviceType=serviceType ∧ r.unit=unit := by
  rw [List.find?_eq_some_iff_append]
  simp only [decide_eq_true_eq, Bool.not_eq_true', decide_eq_false_iff_not]
  constructor
  · intro h
    obtain ⟨⟨hs, hu⟩, before, behind, hsplit, hbefore⟩ := h
    exact ⟨⟨before, behind, hsplit, by rw [hs, hu]; exact hbefore⟩, hs, hu⟩
  · intro h
    obtain ⟨⟨before, behind, hsplit, hbefore⟩, rfl, rfl⟩ := h
    exact ⟨⟨rfl, rfl⟩, before, behind, hsplit, hbefore⟩

/-- A price comes from a rate that is the first of its kind. -/
theorem first_of_rateFor {serviceType unit : String} {r : CostRate}
    (h : m.rateFor serviceType unit=some r) : First m r := by
  obtain h | h := Option.or_eq_some_iff.mp h
  · exact (find?_first.mp h).1
  · exact (find?_first.mp h.2).1

theorem rateFor_first {r : CostRate} (h : First m r) : m.rateFor r.serviceType r.unit=some r := by
  rw [CostModel.rateFor, find?_first.mpr ⟨h, rfl, rfl⟩]
  rfl

theorem rateFor_relabel (f : CostRate → String) (serviceType unit : String) :
    (m.relabel f).rateFor serviceType unit=
      (m.rateFor serviceType unit).map fun r => { r with currency := f r } := by
  rw [CostModel.rateFor, CostModel.rateFor, CostModel.relabel, List.find?_map, List.find?_map,
    Option.map_or]
  rfl

theorem price_relabel (f : CostRate → String) (serviceType unit : String) :
    (m.relabel f).price serviceType unit=m.price serviceType unit := by
  rw [CostModel.price, CostModel.price, rateFor_relabel]
  cases m.rateFor serviceType unit with
  | none => rfl
  | some r => rfl

/-- The amounts of a report know no currency. -/
theorem chargeback_relabel (f : CostRate → String) (currency' : String) :
    chargeback str tenantId usage (m.relabel f) currency'=
      { chargeback str tenantId usage m currency with currency := currency' } := by
  have hline : lineItem (m.relabel f)=lineItem m := by
    funext p
    simp only [lineItem, price_relabel]
  simp only [chargeback, hline]

theorem budgetStatus_relabel (g : Budget → String) (report : ChargebackReport) (currency' : String)
    (budgets : List Budget) :
    (budgetStatus { report with currency := currency' } (budgets.map (Budget.relabel g))).map
      BudgetStatus.amounts=(budgetStatus report budgets).map BudgetStatus.amounts := by
  have hused : ∀ scope, usedFor { report with currency := currency' } scope=usedFor report scope :=
    fun _ => rfl
  induction budgets with
  | nil => rfl
  | cons b budgets ih =>
    simp only [budgetStatus, List.map_cons, List.filterMap_cons] at ih ⊢
    by_cases ht : b.tenantId≠report.tenantId
    · have ht' : (b.relabel g).tenantId≠report.tenantId := ht
      rw [if_pos ht, if_pos ht']
      exact ih
    · have ht' : ¬ (b.relabel g).tenantId≠report.tenantId := ht
      rw [if_neg ht, if_neg ht', hused]
      change _=_
      cases hu : usedFor report b.scope with
      | none =>
        have hu' : usedFor report (b.relabel g).scope=none := hu
        rw [hu']
        exact ih
      | some used =>
        have hu' : usedFor report (b.relabel g).scope=some used := hu
        rw [hu']
        simp only [Option.map_some, List.map_cons]
        exact congrArg (List.cons _) ih

def useOf (r : CostRate) : Usage :=
  { balancerRecord with resourceType := r.serviceType, unit := r.unit, metadata := [] }

/-- Every usage stays in one currency exactly when the rates that a lookup can pick are in it. -/
theorem unmixed_iff : (∀ usage, Unmixed m (chargeback str tenantId usage m currency)) ↔
    ∀ r, First m r → r.currency=currency := by
  constructor
  · intro h r hr
    have hpair : pairOf str (useOf r)=(r.serviceType, r.unit) := rfl
    have hline : lineOf str m [useOf r] (r.serviceType, r.unit)∈
        (chargeback str tenantId [useOf r] m currency).lineItems :=
      mem_lineItems.mpr ⟨List.mem_singleton.mpr hpair.symm, rfl⟩
    exact h [useOf r] _ hline r (rateFor_first hr)
  · intro h usage li _ r hr
    exact h r (first_of_rateFor hr)

theorem budgetStatus_currency {report : ChargebackReport} {budgets : List Budget} :
    (∀ s∈budgetStatus report budgets, s.currency=report.currency) ↔
      ∀ b∈budgets, Compared report b → b.currency=report.currency := by
  constructor
  · intro h b hb hcompared
    obtain ⟨htenant, hused⟩ := hcompared
    obtain ⟨used, hused⟩ := Option.isSome_iff_exists.mp hused
    have hs : { scope := b.scope, used := roundTo 6 used, limit := b.limit, currency := b.currency
                breached := decide (b.limit < used) }∈budgetStatus report budgets := by
      refine List.mem_filterMap.mpr ⟨b, hb, ?_⟩
      rw [if_neg (not_not.mpr htenant), hused]
      rfl
    exact h _ hs
  · intro h s hs
    obtain ⟨b, hb, he⟩ := List.mem_filterMap.mp hs
    split at he
    · cases he
    · next htenant =>
      obtain ⟨used, hused, rfl⟩ := Option.map_eq_some_iff.mp he
      exact h b hb ⟨not_not.mp htenant, by rw [hused]; rfl⟩

end Labels

/-- Currencies are labels: nothing computed depends on one. What is summed and compared is in one
currency when the rates and budgets are. -/
theorem currencies_are_labels (str : Json → String) (tenantId currency : String) (m : CostModel) :
    (∀ usage, let report := chargeback str tenantId usage m currency
      report.currency=currency ∧
      (∀ f currency', chargeback str tenantId usage (m.relabel f) currency'=
        { report with currency := currency' }) ∧
      ∀ g currency' budgets,
        (budgetStatus { report with currency := currency' } (budgets.map (Budget.relabel g))).map
          BudgetStatus.amounts=(budgetStatus report budgets).map BudgetStatus.amounts) ∧
    ((∀ usage, Unmixed m (chargeback str tenantId usage m currency)) ↔
      ∀ r, First m r → r.currency=currency) ∧
    ∀ usage budgets, let report := chargeback str tenantId usage m currency
      (∀ s∈budgetStatus report budgets, s.currency=report.currency) ↔
        ∀ b∈budgets, Compared report b → b.currency=report.currency := by
  refine ⟨fun usage => ⟨rfl, fun f currency' => chargeback_relabel f currency', ?_⟩,
    unmixed_iff, fun usage budgets => budgetStatus_currency⟩
  intro g currency' budgets
  exact budgetStatus_relabel g _ currency' budgets

def euroRate : CostRate where
  serviceType := "sovereign-envoy-lb"
  unit := "instance"
  pricePerUnit := 12
  currency := "EUR"

/-- A total in dollars that sums a price in euros, and is compared with a budget in euros. -/
theorem currencies_mixed_euroRate :
    let report := chargeback (fun _ => "") "acme" [useOf euroRate] { rates := [euroRate] } "USD"
    report.currency="USD" ∧ report.totalCost=12 ∧ ¬ Unmixed { rates := [euroRate] } report ∧
      budgetStatus report [{ tenantId := "acme", limit := 5, currency := "EUR" }]=
        [{ scope := "tenant", used := 12, limit := 5, currency := "EUR", breached := true }] := by
  refine ⟨rfl, by decide +kernel, ?_, by decide +kernel⟩
  intro h
  have hline : (chargeback (fun _ => "") "acme" [useOf euroRate] { rates := [euroRate] }
      "USD").lineItems=[{ serviceType := "sovereign-envoy-lb", unit := "instance"
                          quantity := 1, unitPrice := 12, cost := 12 }] := by
    decide +kernel
  have heuro := h _ (hline ▸ List.mem_cons_self) euroRate rfl
  exact absurd heuro (by decide)

end Sovereign.Finops
