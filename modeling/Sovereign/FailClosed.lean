import Sovereign.Broker
import Sovereign.BasePolicy

/-! The gates of a provision request over stores that may fail. Some reads raise, and the
request ends; two have a fallback: a catalog that raises `RuntimeError` leaves the service
without a pack, and a tenant read that raises `ClientError` leaves the tenant without
limits. -/
namespace Sovereign.FailClosed
open Sovereign Policy Broker

inductive StoreFault where
  | client | runtime
deriving DecidableEq

structure GateFaults where
  /-- `RoleStore.roles_for` and the scan behind `get_ancestors` -/
  roles : Option StoreFault := none
  ancestors : Option StoreFault := none
  /-- `CatalogStore.get_service` -/
  catalog : Option StoreFault := none
  /-- `QuotaStore.get` and `UsageStore.query`, for the service type and for the pack -/
  quotaService : Option StoreFault := none
  usageService : Option StoreFault := none
  quotaPack : Option StoreFault := none
  usagePack : Option StoreFault := none
  /-- `TenantStore.get` -/
  tenant : Option StoreFault := none

section Gates
variable (env : Env) (faults : GateFaults) (caller : Caller) (tenantId : String)

def raise (fault : Option StoreFault) : Gate :=
  match fault with
  | none => {}
  | some _ => { raised := some internalError }

def enforceRbac : Gate :=
  if caller.isBasic && env.settings.brokerTrustBasicAuth then {}
  else (raise faults.roles).andThen ((raise faults.ancestors).andThen
    (Sovereign.enforceRbac env.settings env.directory caller tenantId .provision))

def resolvePack (serviceType : String) : Except HttpError (Option String) :=
  match faults.catalog with
  | none => .ok (env.packOf serviceType)
  | some .runtime => .ok none
  | some .client => .error internalError

def packReads (pack : Option String) : Gate :=
  match pack with
  | none => {}
  | some "" => {}
  | some _ => (raise faults.quotaPack).andThen (raise faults.usagePack)

def checkQuota (serviceType : String) (usage : List UsageRecord) : Gate :=
  match resolvePack env faults serviceType with
  | .error e => { raised := some e }
  | .ok pack =>
    (raise faults.quotaService).andThen ((raise faults.usageService).andThen
      ((packReads faults pack).andThen
        (Quotas.checkQuota env.host env.quotas usage tenantId caller serviceType pack)))

/-- The tenant whose limits the policy input carries. -/
def limitedTenant : Except HttpError (Option Tenant) :=
  match faults.tenant with
  | none => .ok (tenantById env.directory.tenants tenantId)
  | some .client => .ok none
  | some .runtime => .error internalError

def evaluatePolicy (instanceId : String) (req : ProvisionRequest) : Gate :=
  match limitedTenant env faults tenantId with
  | .error e => { raised := some e }
  | .ok tenant =>
    Policy.evaluatePolicy env.policy env.handlers caller tenant instanceId req.serviceId req.planId
      req.parameters.modelDump tenantId Action.provision.value

def provisionGates (instanceId : String) (req : ProvisionRequest) (usage : List UsageRecord) :
    Gate :=
  ((enforceRbac env faults caller tenantId).andThen
    (checkQuota env faults caller tenantId req.serviceId usage)).andThen
    (evaluatePolicy env faults caller tenantId instanceId req)

end Gates

/-- With no fault these are the gates of the broker. -/
theorem provisionGates_clean (env : Env) (h : env.faults.quota=false) (caller : Caller)
    (tenantId instanceId : String) (req : ProvisionRequest) (usage : List UsageRecord) :
    (provisionGates env {} caller tenantId instanceId req usage).raised=none ↔
      (Broker.provisionGates env caller tenantId instanceId req usage).raised=none := by
  have hpack : (packReads {} (env.packOf req.serviceId)).raised=none := by
    unfold packReads
    split <;> simp [raise]
  simp only [provisionGates, Broker.provisionGates, Gate.andThen_raised_none, enforceRbac,
    checkQuota, resolvePack, evaluatePolicy, limitedTenant, raise, h, hpack, true_and, if_false,
    Bool.false_eq_true]
  refine and_congr_left fun _ => and_congr_left fun _ => ?_
  split
  · next hb => simp [Sovereign.enforceRbac, hb]
  · simp

section Passing
variable (env : Env) (faults : GateFaults) (caller : Caller) (tenantId serviceType : String)
  (usage : List UsageRecord)

def Trusted : Prop := caller.isBasic=true ∧ env.settings.brokerTrustBasicAuth=true

def ServiceCapped : Prop :=
  ((Quotas.Scope.service serviceType).entry env.host env.quotas usage tenantId).atLimit=true

def InPack (pack : String) : Prop := env.packOf serviceType=some pack ∧ pack≠""

def PackCapped : Prop :=
  ∃ pack, InPack env serviceType pack ∧
    ((Quotas.Scope.pack pack).entry env.host env.quotas usage tenantId).atLimit=true

def RefusedAnyway : Prop :=
  (¬ Trusted env caller ∧ (faults.roles≠none ∨ faults.ancestors≠none ∨
    env.directory.can caller.user.principal tenantId .provision=false)) ∨
  faults.catalog=some .client ∨ faults.quotaService≠none ∨ faults.usageService≠none ∨
  ServiceCapped env tenantId serviceType usage ∨
  (faults.catalog=none ∧
    ((∃ pack, InPack env serviceType pack) ∧ (faults.quotaPack≠none ∨ faults.usagePack≠none) ∨
      PackCapped env tenantId serviceType usage)) ∨
  faults.tenant=some .runtime

variable {env faults caller tenantId serviceType usage}

theorem raise_passes {fault : Option StoreFault} : (raise fault).raised=none ↔ fault=none := by
  cases fault <;> simp [raise]

theorem enforceRbac_passes : (enforceRbac env faults caller tenantId).raised=none ↔
    ¬ (¬ Trusted env caller ∧ (faults.roles≠none ∨ faults.ancestors≠none ∨
      env.directory.can caller.user.principal tenantId .provision=false)) := by
  rw [enforceRbac]
  by_cases ht : Trusted env caller
  · have hb : (caller.isBasic && env.settings.brokerTrustBasicAuth)=true := by simpa [Trusted] using ht
    simp [hb, ht]
  · have hb : ¬ (caller.isBasic && env.settings.brokerTrustBasicAuth)=true := by
      simpa [Trusted] using ht
    have ht' : ¬ (caller.isBasic=true ∧ env.settings.brokerTrustBasicAuth=true) := ht
    rw [if_neg hb, Gate.andThen_raised_none, Gate.andThen_raised_none, raise_passes, raise_passes,
      enforceRbac_raised_none]
    simp [ht, ht']

theorem checkQuota_passes_with {pack : Option String} :
    (Quotas.checkQuota env.host env.quotas usage tenantId caller serviceType pack).raised=none ↔
      ¬ ServiceCapped env tenantId serviceType usage ∧
      ∀ p, pack=some p → p≠"" →
        ((Quotas.Scope.pack p).entry env.host env.quotas usage tenantId).atLimit=false := by
  rw [Quotas.checkQuota_raised_none, ServiceCapped, Bool.not_eq_true]
  simp only [Quotas.scopes, List.forall_mem_cons]
  refine and_congr_right fun _ => ?_
  cases pack with
  | none => simp
  | some p =>
    by_cases hp : p=""
    · simp [hp, Option.filter]
    · simp [hp, Option.filter]

/-- The pack the quota check is made for. -/
theorem checkQuota_passes : (checkQuota env faults caller tenantId serviceType usage).raised=none ↔
    faults.catalog≠some .client ∧ faults.quotaService=none ∧ faults.usageService=none ∧
    ¬ ServiceCapped env tenantId serviceType usage ∧
    (faults.catalog=none →
      ¬ ((∃ pack, InPack env serviceType pack) ∧ (faults.quotaPack≠none ∨ faults.usagePack≠none)) ∧
      ¬ PackCapped env tenantId serviceType usage) := by
  have hreads : ∀ pack, (packReads faults pack).raised=none ↔
      ¬ ((∃ p, pack=some p ∧ p≠"") ∧ (faults.quotaPack≠none ∨ faults.usagePack≠none)) := by
    intro pack
    unfold packReads
    split
    · simp
    · simp
    · next p hp =>
      have hne : p≠"" := hp
      simp [raise_passes, hne]
  rw [checkQuota, resolvePack]
  cases hc : faults.catalog with
  | none =>
    simp only [Gate.andThen_raised_none, raise_passes, hreads, checkQuota_passes_with]
    have hcap : (∀ p, env.packOf serviceType=some p → p≠"" →
        ((Quotas.Scope.pack p).entry env.host env.quotas usage tenantId).atLimit=false) ↔
        ¬ PackCapped env tenantId serviceType usage := by
      simp [PackCapped, InPack]
    rw [hcap]
    simp only [InPack, ne_eq, reduceCtorEq, not_false_eq_true, true_and, forall_const]
    tauto
  | some fault =>
    cases fault with
    | client => simp
    | runtime =>
      simp only [Gate.andThen_raised_none, raise_passes, hreads, checkQuota_passes_with]
      simp

theorem evaluatePolicy_passes {instanceId : String} {req : ProvisionRequest} :
    (evaluatePolicy env faults caller tenantId instanceId req).raised=none ↔
      faults.tenant≠some .runtime ∧
      (Policy.evaluatePolicy env.policy env.handlers caller
        (if faults.tenant=none then tenantById env.directory.tenants tenantId else none) instanceId
        req.serviceId req.planId req.parameters.modelDump tenantId
        Action.provision.value).raised=none := by
  rw [evaluatePolicy, limitedTenant]
  cases hf : faults.tenant with
  | none => simp
  | some fault =>
    cases fault with
    | client => simp
    | runtime => simp

/-- The gates pass exactly when none of them ends the request beforehand and the policy
passes on the limits it is shown. -/
theorem provisionGates_passes {instanceId : String} {req : ProvisionRequest} :
    (provisionGates env faults caller tenantId instanceId req usage).raised=none ↔
      ¬ RefusedAnyway env faults caller tenantId req.serviceId usage ∧
      (Policy.evaluatePolicy env.policy env.handlers caller
        (if faults.tenant=none then tenantById env.directory.tenants tenantId else none) instanceId
        req.serviceId req.planId req.parameters.modelDump tenantId
        Action.provision.value).raised=none := by
  rw [provisionGates, Gate.andThen_raised_none, Gate.andThen_raised_none, enforceRbac_passes,
    checkQuota_passes, evaluatePolicy_passes, RefusedAnyway]
  simp only [not_or, not_and, ne_eq, not_not, and_assoc]

end Passing

section Limits
variable (c : Call)

theorem get?_approvedServices :
    Json.get? "approved_services" (buildPolicyInput c)=c.approvedServices.map .arr := by
  cases hs : c.approvedServices <;> cases hp : c.approvedPlans <;> cases hr : c.approvedRegions <;>
    simp [buildPolicyInput, optionalMember, Json.lookup, hs, hp, hr]

theorem get?_approvedPlans :
    Json.get? "approved_plans" (buildPolicyInput c)=c.approvedPlans.map .obj := by
  cases hs : c.approvedServices <;> cases hp : c.approvedPlans <;> cases hr : c.approvedRegions <;>
    simp [buildPolicyInput, optionalMember, Json.lookup, hs, hp, hr]

theorem get?_approvedRegions :
    Json.get? "approved_regions" (buildPolicyInput c)=c.approvedRegions.map .arr := by
  cases hs : c.approvedServices <;> cases hp : c.approvedPlans <;> cases hr : c.approvedRegions <;>
    simp [buildPolicyInput, optionalMember, Json.lookup, hs, hp, hr]

variable {caller : Caller} {tenant : Option Tenant} {serviceType planId tenantId action : String}
  {parameters : List (String × Json)}

/-- Without the tenant the document is another one exactly when the tenant has limits. -/
theorem document_eq_iff :
    buildPolicyInput (gateCall caller none serviceType planId parameters tenantId action) =
        buildPolicyInput (gateCall caller tenant serviceType planId parameters tenantId action) ↔
      tenantPolicyContext tenant={} := by
  have hnone : tenantPolicyContext none={} := rfl
  simp only [gateCall, hnone]
  generalize tenantPolicyContext tenant=limits
  constructor
  · intro h
    have hs := congrArg (Json.get? "approved_services") h
    have hp := congrArg (Json.get? "approved_plans") h
    have hr := congrArg (Json.get? "approved_regions") h
    rw [get?_approvedServices, get?_approvedServices] at hs
    rw [get?_approvedPlans, get?_approvedPlans] at hp
    rw [get?_approvedRegions, get?_approvedRegions] at hr
    obtain ⟨services, regions, plans⟩ := limits
    simp only [Option.map_none, eq_comm (a := none), Option.map_eq_none_iff] at hs hp hr
    rw [hs, hp, hr]
  · intro h
    rw [h]

end Limits

theorem evaluatePolicy_congr {policy : Json → PolicyDecision}
    {handlers : String → Option HandlerOutcome} {caller : Caller} {tenant : Option Tenant}
    {instanceId serviceType planId tenantId action : String} {parameters : List (String × Json)}
    (h : tenantPolicyContext tenant={}) :
    Policy.evaluatePolicy policy handlers caller none instanceId serviceType planId parameters
        tenantId action =
      Policy.evaluatePolicy policy handlers caller tenant instanceId serviceType planId parameters
        tenantId action := by
  have hcall : gateCall caller none serviceType planId parameters tenantId action =
      gateCall caller tenant serviceType planId parameters tenantId action := by
    have hnone : tenantPolicyContext none={} := rfl
    simp only [gateCall, hnone, h]
  simp only [Policy.evaluatePolicy, hcall]

section Property
variable (env : Env) (faults : GateFaults) (caller : Caller) (instanceId : String)
  (req : ProvisionRequest) (usage : List UsageRecord)

/-- Whatever the policy, a request admitted over failing stores is admitted over the same
stores without faults. -/
def FailsClosed : Prop :=
  ∀ policy, (provisionGates { env with policy } faults caller
      (resolveTenantId caller req.organizationGuid) instanceId req usage).raised=none →
    (provisionGates { env with policy } {} caller
      (resolveTenantId caller req.organizationGuid) instanceId req usage).raised=none

variable {env faults caller instanceId req usage}

/-- A request that passes the gates under faults can only be refused without them for its
pack's cap or by the policy. -/
theorem clean_not_refused {tenantId serviceType : String}
    (h : ¬ RefusedAnyway env faults caller tenantId serviceType usage)
    (hc : faults.catalog=none ∨ ¬ PackCapped env tenantId serviceType usage) :
    ¬ RefusedAnyway env {} caller tenantId serviceType usage := by
  simp only [RefusedAnyway] at h ⊢
  simp only [ne_eq, not_true_eq_false, false_or, reduceCtorEq, or_false, and_false, true_and]
  tauto

theorem pack_refused {tenantId serviceType : String}
    (h : PackCapped env tenantId serviceType usage) :
    RefusedAnyway env {} caller tenantId serviceType usage :=
  Or.inr (Or.inr (Or.inr (Or.inr (Or.inr (Or.inl ⟨rfl, Or.inr h⟩)))))

/-- Under a policy that allows only what the clean run does not ask for, a tenant whose
limits are lost is admitted. -/
theorem limits_lost (hr : ¬ RefusedAnyway env faults caller
      (resolveTenantId caller req.organizationGuid) req.serviceId usage)
    (hf : faults.tenant≠none) (hl : tenantPolicyContext (tenantById env.directory.tenants
      (resolveTenantId caller req.organizationGuid))≠{}) :
    ¬ FailsClosed env faults caller instanceId req usage := by
  intro h
  let clean := buildPolicyInput (gateCall caller (tenantById env.directory.tenants
    (resolveTenantId caller req.organizationGuid)) req.serviceId req.planId
    req.parameters.modelDump (resolveTenantId caller req.organizationGuid) Action.provision.value)
  have hadmitted := h (fun doc => { allow := decide (doc≠clean) }) (by
    refine provisionGates_passes.mpr ⟨hr, ?_⟩
    rw [if_neg hf, evaluatePolicy_raised_none]
    refine ⟨?_, by simp⟩
    rw [decide_eq_true_eq, Ne, document_eq_iff]
    exact hl)
  have hpolicy := (provisionGates_passes.mp hadmitted).2
  rw [if_pos rfl, evaluatePolicy_raised_none] at hpolicy
  exact absurd hpolicy.1 (by simp [clean])

/-- Under a policy that allows everything, a service whose pack is lost is admitted over
the pack's cap. -/
theorem pack_lost (hr : ¬ RefusedAnyway env faults caller
      (resolveTenantId caller req.organizationGuid) req.serviceId usage)
    (hc : PackCapped env (resolveTenantId caller req.organizationGuid) req.serviceId usage) :
    ¬ FailsClosed env faults caller instanceId req usage := by
  intro h
  have hadmitted := h (fun _ => { allow := true }) (by
    refine provisionGates_passes.mpr ⟨hr, ?_⟩
    rw [evaluatePolicy_raised_none]
    exact ⟨rfl, by simp⟩)
  exact (provisionGates_passes.mp hadmitted).1 (pack_refused hc)

end Property

/-- The gates fail closed exactly when the request is refused anyway, or the two
fallbacks give nothing away: the pack is known or below its cap, and the tenant is read
or has no limits. -/
theorem fails_closed_iff (env : Env) (faults : GateFaults) (caller : Caller)
    (instanceId : String) (req : ProvisionRequest) (usage : List UsageRecord) :
    FailsClosed env faults caller instanceId req usage ↔
      RefusedAnyway env faults caller (resolveTenantId caller req.organizationGuid) req.serviceId
        usage ∨
      ((faults.catalog=none ∨ ¬ PackCapped env
          (resolveTenantId caller req.organizationGuid) req.serviceId usage) ∧
        (faults.tenant=none ∨ tenantPolicyContext (tenantById env.directory.tenants
          (resolveTenantId caller req.organizationGuid))={})) := by
  constructor
  · intro h
    by_contra hno
    obtain ⟨hr, hopen⟩ := not_or.mp hno
    cases not_and_or.mp hopen with
    | inl hpack => exact pack_lost hr (not_not.mp (not_or.mp hpack).2) h
    | inr htenant => exact limits_lost hr (not_or.mp htenant).1 (not_or.mp htenant).2 h
  · rintro (hr | ⟨hpack, htenant⟩) policy hadmitted
    · exact absurd hr (provisionGates_passes.mp hadmitted).1
    · obtain ⟨hr, hpolicy⟩ := provisionGates_passes.mp hadmitted
      refine provisionGates_passes.mpr ⟨clean_not_refused hr hpack, ?_⟩
      rw [if_pos rfl]
      split at hpolicy
      · exact hpolicy
      · next hf =>
        rw [evaluatePolicy_congr (htenant.resolve_left hf)] at hpolicy
        exact hpolicy

/-! A tenant approved for one service only, and the shipped rules on approved services. -/

def limitedEnv : Env :=
  { decode := fun _ => .ok {}
    policy := decision (fun s _ => s) { base := BasePolicy.allowedServices }
    directory := { tenants := [{ tenantId := "treasury"
                                 metadata := [("approved_services", .arr [.str "vector-db"])] }] } }

def systemCaller : Caller :=
  { user := { principal := "broker:broker", tenantId := none, groups := [], raw := {} }
    isBasic := true }

def balancerRequest : ProvisionRequest :=
  { serviceId := "sovereign-envoy-lb", planId := "standard-regional"
    organizationGuid := some "treasury" }

theorem balancer_not_refused (faults : GateFaults) (hr : faults.catalog=none)
    (hq : faults.quotaService=none) (hu : faults.usageService=none)
    (ht : faults.tenant≠some .runtime) :
    ¬ RefusedAnyway limitedEnv faults systemCaller "treasury" "sovereign-envoy-lb" [] := by
  have htrusted : Trusted limitedEnv systemCaller := ⟨rfl, rfl⟩
  have hservice : ¬ ServiceCapped limitedEnv "treasury" "sovereign-envoy-lb" [] := by
    rw [ServiceCapped]
    decide
  have hpack : ∀ pack, ¬ InPack limitedEnv "sovereign-envoy-lb" pack := by
    rintro pack ⟨h, _⟩
    cases h
  simp [RefusedAnyway, htrusted, hr, hq, hu, ht, hservice, hpack, PackCapped]

/-- A failed read of the tenant admits a service the tenant is not approved for. -/
theorem unreadable_tenant_admitted :
    (provisionGates limitedEnv { tenant := some .client } systemCaller "treasury" "lb-1"
      balancerRequest []).raised=none ∧
    (provisionGates limitedEnv {} systemCaller "treasury" "lb-1" balancerRequest []).raised≠none := by
  constructor
  · refine provisionGates_passes.mpr ⟨balancer_not_refused _ rfl rfl rfl (by simp), ?_⟩
    rw [if_neg (by simp), evaluatePolicy_raised_none]
    refine ⟨(decision_allow_iff _ _ _).mpr ⟨?_, by simp, by simp⟩, ?_⟩
    · decide
    · simp [limitedEnv, decision, obligations, Text.sortedSet]
  · intro h
    have hpolicy := (provisionGates_passes.mp h).2
    rw [if_pos rfl, evaluatePolicy_raised_none] at hpolicy
    have hdeny := ((decision_allow_iff _ _ _).mp hpolicy.1).1
    revert hdeny
    decide

end Sovereign.FailClosed
