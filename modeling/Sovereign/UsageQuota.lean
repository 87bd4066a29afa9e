import Sovereign.Quota

/-! What the quota check makes of a tenant's records: exactly when it refuses, and what it leaves
out of a quota. -/
namespace Sovereign.Enforcer
open Sovereign Quotas

structure Timestamp where
  year : Nat
  month : Nat
  day : Nat := 1
  second : Nat := 0
deriving DecidableEq

abbrev Usage := Sovereign.Usage Timestamp

def matching (tenantId : String) (sc : Scope) (records : List Usage) : List Usage :=
  records.filter fun r => decide (r.tenantId=tenantId) && sc.counts r

/-- The instance cap of the scope is configured, and `n` reaches it. -/
def CapReached (quotas : List Quota) (tenantId : String) (sc : Scope) (n : Nat) : Prop :=
  ∃ cap, (quotaFor quotas tenantId sc.name).bind (·.maxInstances)=some cap ∧ cap ≤ n

section Exact
variable (host : Host Timestamp) (quotas : List Quota) (table : List Usage)
  (tenantId serviceType : String) (pack : Option String)

def Rejects : Prop := (checkProvision host quotas table tenantId serviceType pack).allow=false

def Reached : Prop :=
  ∃ sc∈scopes serviceType pack, CapReached quotas tenantId sc (matching tenantId sc table).length

/-- A cap is reached, but for no scope by the records of the one page that is read: records of
some scope stand behind later ones of any kind. -/
def Hidden : Prop :=
  Reached quotas table tenantId serviceType pack ∧
    ¬Reached quotas (query host table tenantId) tenantId serviceType pack

theorem matching_query (sc : Scope) : matching tenantId sc (query host table tenantId) =
    (query host table tenantId).filter sc.counts := by
  unfold matching
  apply List.filter_congr
  intro r hr
  have hmem := (onePage_initial host.holds 1000 _).subset hr
  simp only [List.mem_filter] at hmem
  simp [hmem.2]

theorem matching_sublist {few many : List Usage} (h : few.Sublist many) (sc : Scope) :
    (matching tenantId sc few).length ≤ (matching tenantId sc many).length :=
  (h.filter _).length_le

theorem query_sublist : (query host table tenantId).Sublist table :=
  (onePage_initial _ _ _).sublist.trans List.filter_sublist

theorem CapReached.mono {sc : Scope} {n m : Nat} (h : CapReached quotas tenantId sc n)
    (hnm : n ≤ m) : CapReached quotas tenantId sc m := by
  obtain ⟨cap, hq, hle⟩ := h
  exact ⟨cap, hq, by omega⟩

theorem Reached.mono {few many : List Usage}
    (h : Reached quotas few tenantId serviceType pack) (hs : few.Sublist many) :
    Reached quotas many tenantId serviceType pack := by
  obtain ⟨sc, hm, hc⟩ := h
  exact ⟨sc, hm, hc.mono quotas tenantId (matching_sublist tenantId hs sc)⟩

theorem rejects_iff_reached : Rejects host quotas table tenantId serviceType pack ↔
    Reached quotas (query host table tenantId) tenantId serviceType pack := by
  have hallow := allow_iff host quotas table tenantId serviceType pack
  unfold Rejects Reached CapReached
  rw [← Bool.not_eq_true, hallow]
  simp only [not_forall, Bool.not_eq_false, exists_prop, Scope.entry_atLimit, matching_query]

theorem reached_of_rejects (h : Rejects host quotas table tenantId serviceType pack) :
    Reached quotas table tenantId serviceType pack :=
  Reached.mono quotas tenantId serviceType pack ((rejects_iff_reached ..).mp h)
    (query_sublist host table tenantId)

/-- The check is exact unless a cap is hidden behind later records, and then it admits. -/
theorem exact_iff_not_hidden :
    (Rejects host quotas table tenantId serviceType pack ↔
      Reached quotas table tenantId serviceType pack) ↔
      ¬Hidden host quotas table tenantId serviceType pack := by
  have hr := rejects_iff_reached host quotas table tenantId serviceType pack
  have hall := reached_of_rejects host quotas table tenantId serviceType pack
  unfold Hidden
  constructor
  · intro hexact hidden
    exact hidden.2 (hr.mp (hexact.mpr hidden.1))
  · intro hclear
    refine ⟨hall, ?_⟩
    intro hreached
    by_contra hno
    exact hclear ⟨hreached, fun hpage => hno (hr.mpr hpage)⟩

/-- A page with all the tenant's records hides nothing. -/
theorem not_hidden_of_whole
    (hlen : (table.filter fun r => decide (r.tenantId=tenantId)).length ≤ 1000)
    (hholds : (table.filter fun r => decide (r.tenantId=tenantId)).length ≤
      host.holds (table.filter fun r => decide (r.tenantId=tenantId))) :
    ¬Hidden host quotas table tenantId serviceType pack := by
  intro hidden
  obtain ⟨⟨sc, hm, hc⟩, hno⟩ := hidden
  apply hno
  refine ⟨sc, hm, ?_⟩
  have hpage : query host table tenantId =
      table.filter fun r => decide (r.tenantId=tenantId) := onePage_whole hlen hholds
  have hsame : matching tenantId sc (query host table tenantId)=matching tenantId sc table := by
    rw [hpage]
    simp [matching, List.filter_filter, Bool.and_comm]
  rwa [hsame]

theorem quota_exact_iff :
    ((Rejects host quotas table tenantId serviceType pack ↔
      Reached quotas table tenantId serviceType pack) ↔
        ¬Hidden host quotas table tenantId serviceType pack) ∧
    ∀ more : List Usage, table.Sublist more →
      Rejects host quotas table tenantId serviceType pack →
      (Rejects host quotas more tenantId serviceType pack ↔
        ¬Hidden host quotas more tenantId serviceType pack) := by
  refine ⟨exact_iff_not_hidden .., ?_⟩
  intro more hsub hrej
  -- the records that caused the refusal are still stored
  have hmore : Reached quotas more tenantId serviceType pack :=
    Reached.mono quotas tenantId serviceType pack (reached_of_rejects _ _ _ _ _ _ hrej) hsub
  rw [← exact_iff_not_hidden]
  exact (iff_true_right hmore).symm

end Exact

/-! One balancer is metered, and then only calls to it. -/

def oneBalancer : Quota :=
  { tenantId := "acme", scope := "service_type:envoy-lb", maxInstances := some 1 }

def balancerRecord : Usage :=
  { ts := ⟨2026, 1, 1, 0⟩, tenantId := "acme", resourceId := "lb-1", resourceType := "instance"
    quantity := 1, unit := "instance", metadata := [("service_type", .str "envoy-lb")]
    quantity_nonneg := Usage.one_nonneg }

def callRecord : Usage :=
  { ts := ⟨2026, 1, 2, 0⟩, tenantId := "acme", resourceId := "lb-1", resourceType := "request"
    quantity := 1, unit := "request", quantity_nonneg := Usage.one_nonneg }

theorem query_calls (older : List Usage) :
    query {} (List.replicate 1000 callRecord ++ older) "acme"=List.replicate 1000 callRecord := by
  have hcalls : (List.replicate 1000 callRecord).filter
      (fun r => decide (r.tenantId="acme"))=List.replicate 1000 callRecord :=
    List.filter_replicate_of_pos rfl
  unfold query onePage
  rw [List.filter_append, hcalls]
  exact List.take_left' List.length_replicate

/-- The cap of one instance is reached and refused, and the same table with a thousand
later records of another kind is admitted. -/
theorem later_records_lift_refusal :
    Rejects {} [oneBalancer] [balancerRecord] "acme" "envoy-lb" none ∧
    Reached [oneBalancer] (List.replicate 1000 callRecord ++ [balancerRecord]) "acme"
      "envoy-lb" none ∧
    ¬Rejects {} [oneBalancer] (List.replicate 1000 callRecord ++ [balancerRecord]) "acme"
      "envoy-lb" none := by
  have hcap : CapReached [oneBalancer] "acme" (.service "envoy-lb") 1 :=
    ⟨1, by decide +kernel, by decide⟩
  have hone : Reached [oneBalancer] [balancerRecord] "acme" "envoy-lb" none :=
    ⟨.service "envoy-lb", by simp [scopes], hcap⟩
  refine ⟨?_, hone.mono _ _ _ _ (List.sublist_append_right _ _), ?_⟩
  · rw [rejects_iff_reached]
    exact hone
  · rw [rejects_iff_reached, query_calls]
    intro hreached
    obtain ⟨sc, hm, cap, hq, hle⟩ := hreached
    simp only [scopes, Option.filter_none, Option.map_none, Option.toList_none,
      List.mem_singleton] at hm
    subst hm
    have hnone : matching "acme" (.service "envoy-lb") (List.replicate 1000 callRecord)=[] :=
      List.filter_replicate_of_neg (by decide +kernel)
    have hcap' : (quotaFor [oneBalancer] "acme" (Scope.service "envoy-lb").name).bind
      (·.maxInstances)=some 1 := by decide +kernel
    rw [hcap'] at hq
    obtain rfl := Option.some.inj hq
    rw [hnone] at hle
    simp at hle

theorem quota_exact_called :
    Rejects {} [oneBalancer] [callRecord, balancerRecord] "acme" "envoy-lb" none := by
  have hreached : Reached [oneBalancer] [balancerRecord] "acme" "envoy-lb" none :=
    ⟨.service "envoy-lb", by simp [scopes], 1, by decide +kernel, by decide⟩
  have hrej : Rejects {} [oneBalancer] [balancerRecord] "acme" "envoy-lb" none :=
    (rejects_iff_reached ..).mpr hreached
  exact ((quota_exact_iff {} [oneBalancer] [balancerRecord] "acme" "envoy-lb" none).2 _
    (List.sublist_cons_self callRecord _) hrej).mpr
      (not_hidden_of_whole _ _ _ _ _ _ (by decide +kernel) (by decide +kernel))

/-! Every dimension of a quota: what a check at a time `now` should count. -/

/-- The period of a quota holds the record: a monthly quota looks at the current month. -/
def current (now : Timestamp) : Period → Usage → Bool
  | .lifetime, _ => true
  | .monthly, r => decide (r.ts.year=now.year ∧ r.ts.month=now.month)

section Dimensions
variable (quotas : List Quota) (table : List Usage) (now : Timestamp)
  (tenantId serviceType : String) (pack : Option String)

def inPeriod (q : Quota) (sc : Scope) : List Usage :=
  (matching tenantId sc table).filter (current now q.period)

def InstancesReached (sc : Scope) : Prop :=
  ∃ q cap, quotaFor quotas tenantId sc.name=some q ∧ q.maxInstances=some cap ∧
    cap ≤ (inPeriod table now tenantId q sc).length

def ComputeReached (sc : Scope) : Prop :=
  ∃ q cap, quotaFor quotas tenantId sc.name=some q ∧ q.maxComputeUnits=some cap ∧
    cap ≤ ((inPeriod table now tenantId q sc).map Usage.quantity).sum

def UsedUp : Prop :=
  ∃ sc∈scopes serviceType pack,
    InstancesReached quotas table now tenantId sc ∨ ComputeReached quotas table now tenantId sc

def ComputeOnly : Prop :=
  (∃ sc∈scopes serviceType pack, ComputeReached quotas table now tenantId sc) ∧
    ¬Reached quotas table tenantId serviceType pack

/-- An instance cap is reached with records from before the month of its quota, and nothing
is used up within its period. -/
def StaleOnly : Prop :=
  Reached quotas table tenantId serviceType pack ∧
    ∀ sc∈scopes serviceType pack, ¬InstancesReached quotas table now tenantId sc ∧
      ¬ComputeReached quotas table now tenantId sc

/-- A period only takes records away. -/
theorem InstancesReached.reached {sc : Scope} (hm : sc∈scopes serviceType pack)
    (h : InstancesReached quotas table now tenantId sc) :
    Reached quotas table tenantId serviceType pack := by
  obtain ⟨q, cap, hq, hcap, hle⟩ := h
  refine ⟨sc, hm, cap, by simp [hq, hcap], ?_⟩
  have hlen : (inPeriod table now tenantId q sc).length ≤ (matching tenantId sc table).length :=
    List.length_filter_le _ _
  omega

theorem quota_dimensions_iff (host : Host Timestamp)
    (hlen : (table.filter fun r => decide (r.tenantId=tenantId)).length ≤ 1000)
    (hholds : (table.filter fun r => decide (r.tenantId=tenantId)).length ≤
      host.holds (table.filter fun r => decide (r.tenantId=tenantId))) :
    (Rejects host quotas table tenantId serviceType pack ↔
      UsedUp quotas table now tenantId serviceType pack) ↔
    ¬ComputeOnly quotas table now tenantId serviceType pack ∧
      ¬StaleOnly quotas table now tenantId serviceType pack := by
  have hexact := (exact_iff_not_hidden ..).mpr
    (not_hidden_of_whole host quotas table tenantId serviceType pack hlen hholds)
  rw [hexact]
  constructor
  · intro hiff
    constructor
    · intro honly
      obtain ⟨⟨sc, hm, hc⟩, hno⟩ := honly
      exact hno (hiff.mpr ⟨sc, hm, .inr hc⟩)
    · intro hstale
      obtain ⟨hreached, hno⟩ := hstale
      obtain ⟨sc, hm, hused⟩ := hiff.mp hreached
      exact hused.elim (hno sc hm).1 (hno sc hm).2
  · intro h
    obtain ⟨hcompute, hstale⟩ := h
    constructor
    · intro hreached
      by_contra hno
      apply hstale
      refine ⟨hreached, ?_⟩
      intro sc hm
      exact ⟨fun hi => hno ⟨sc, hm, .inl hi⟩, fun hc => hno ⟨sc, hm, .inr hc⟩⟩
    · intro hused
      obtain ⟨sc, hm, hi | hc⟩ := hused
      · exact hi.reached quotas table now tenantId serviceType pack hm
      · by_contra hno
        exact hcompute ⟨⟨sc, hm, hc⟩, hno⟩

end Dimensions

def tenUnits : Quota :=
  { tenantId := "acme", scope := "service_type:envoy-lb", maxComputeUnits := some 10 }

def bigBalancer : Usage := { balancerRecord with quantity := 50, quantity_nonneg := by norm_num }

def oneAMonth : Quota := { oneBalancer with period := .monthly }

/-- Fifty used units pass a limit of ten, and a balancer of January fills the one place of
February. -/
theorem unenforced_dimensions :
    (UsedUp [tenUnits] [bigBalancer] ⟨2026, 1, 9, 0⟩ "acme" "envoy-lb" none ∧
      ¬Rejects {} [tenUnits] [bigBalancer] "acme" "envoy-lb" none) ∧
    (¬UsedUp [oneAMonth] [balancerRecord] ⟨2026, 2, 9, 0⟩ "acme" "envoy-lb" none ∧
      Rejects {} [oneAMonth] [balancerRecord] "acme" "envoy-lb" none) := by
  have hsc : ∀ sc∈scopes "envoy-lb" none, sc=.service "envoy-lb" := by
    intro sc hm
    simpa [scopes] using hm
  have hten : quotaFor [tenUnits] "acme" (Scope.service "envoy-lb").name=some tenUnits := rfl
  have hmonth : quotaFor [oneAMonth] "acme" (Scope.service "envoy-lb").name=some oneAMonth := rfl
  refine ⟨⟨?_, ?_⟩, ?_, ?_⟩
  · refine ⟨.service "envoy-lb", by simp [scopes], .inr ⟨tenUnits, 10, hten, rfl, ?_⟩⟩
    have hall : inPeriod [bigBalancer] ⟨2026, 1, 9, 0⟩ "acme" tenUnits (.service "envoy-lb")=
      [bigBalancer] := rfl
    rw [hall]
    norm_num [bigBalancer]
  · intro hrej
    obtain ⟨sc, hm, cap, hcap, -⟩ := reached_of_rejects _ _ _ _ _ _ hrej
    rw [hsc sc hm, hten] at hcap
    cases hcap
  · intro hused
    obtain ⟨sc, hm, h⟩ := hused
    rw [hsc sc hm] at h
    obtain ⟨q, cap, hq, hcap, hle⟩ | ⟨q, cap, hq, hcap, -⟩ := h
    · obtain rfl := Option.some.inj (hmonth.symm.trans hq)
      obtain rfl := Option.some.inj hcap
      have hnone : inPeriod [balancerRecord] ⟨2026, 2, 9, 0⟩ "acme" oneAMonth
        (.service "envoy-lb")=[] := rfl
      rw [hnone] at hle
      simp at hle
    · obtain rfl := Option.some.inj (hmonth.symm.trans hq)
      cases hcap
  · rfl

def monthlyBalancers : Quota :=
  { tenantId := "acme", scope := "service_type:envoy-lb", maxInstances := some 2
    maxComputeUnits := some 50, period := .monthly }

def winter : List Usage :=
  [{ balancerRecord with ts := ⟨2026, 2, 3, 0⟩, resourceId := "lb-3", quantity := 5/2
                         quantity_nonneg := by norm_num },
    { balancerRecord with ts := ⟨2026, 2, 1, 0⟩, resourceId := "lb-2" }, callRecord, balancerRecord]

/-- In February the two of the month fill the cap. -/
theorem quota_dimensions_full :
    Rejects {} [monthlyBalancers] winter "acme" "envoy-lb" none ∧
    UsedUp [monthlyBalancers] winter ⟨2026, 2, 9, 0⟩ "acme" "envoy-lb" none := by
  have hquota : quotaFor [monthlyBalancers] "acme" (Scope.service "envoy-lb").name =
      some monthlyBalancers := by decide +kernel
  have hscope : Scope.service "envoy-lb"∈scopes "envoy-lb" none := List.mem_cons_self
  have hreached : Reached [monthlyBalancers] winter "acme" "envoy-lb" none :=
    ⟨_, hscope, 2, by rw [hquota]; rfl, by decide +kernel⟩
  have hmonth : InstancesReached [monthlyBalancers] winter ⟨2026, 2, 9, 0⟩ "acme"
      (.service "envoy-lb") := ⟨monthlyBalancers, 2, hquota, rfl, by decide +kernel⟩
  have hused := (quota_dimensions_iff [monthlyBalancers] winter ⟨2026, 2, 9, 0⟩ "acme" "envoy-lb"
    none {} (by decide +kernel) (by decide +kernel)).mpr
    ⟨fun h => h.2 hreached, fun h => (h.2 _ hscope).1 hmonth⟩
  have hrejects : Rejects {} [monthlyBalancers] winter "acme" "envoy-lb" none := by
    unfold Rejects
    decide +kernel
  exact ⟨hrejects, hused.mp hrejects⟩

end Sovereign.Enforcer
