import Sovereign.Identity
import Sovereign.Text
import Mathlib.Tactic.NormNum

/-! Usage records and quotas: the enforcer, over one page of a tenant's latest records, and the
quota gate of a provision request. -/
namespace Sovereign

/-- One answer of the database to a query: of what it finds, `limit` items at most, and no more
than `holds`, where 1 MB is full. -/
def onePage {α : Type*} (holds : List α → Nat) (limit : Nat) (found : List α) : List α :=
  found.take (min limit (holds found))

section Page
variable {α : Type*} {holds : List α → Nat} {limit : Nat} {found : List α}

theorem onePage_initial (holds : List α → Nat) (limit : Nat) (found : List α) :
    onePage holds limit found <+: found := List.take_prefix _ _

/-- An answer with room for everything gives everything. -/
theorem onePage_whole (hlimit : found.length ≤ limit) (hholds : found.length ≤ holds found) :
    onePage holds limit found=found :=
  List.take_of_length_le (Nat.le_min.mpr ⟨hlimit, hholds⟩)

end Page

/-- A metering record, with its time stamp of a type of its own. -/
structure Usage (τ : Type) where
  ts : τ
  tenantId : String
  resourceId : String
  resourceType : String
  quantity : ℚ
  unit : String
  metadata : List (String × Json) := []
  quantity_nonneg : 0 ≤ quantity := by norm_num

instance {τ : Type} [DecidableEq τ] : DecidableEq (Usage τ) := fun r v =>
  decidable_of_iff (r.ts=v.ts ∧ r.tenantId=v.tenantId ∧ r.resourceId=v.resourceId ∧
      r.resourceType=v.resourceType ∧ r.quantity=v.quantity ∧ r.unit=v.unit ∧
      r.metadata=v.metadata) (by
    cases r
    cases v
    simp only [Usage.mk.injEq])

theorem Usage.one_nonneg : (0 : ℚ) ≤ 1 := zero_le_one

namespace Quotas

inductive Period where
  | monthly | lifetime
deriving DecidableEq

def Period.value : Period → String
  | .monthly => "monthly"
  | .lifetime => "lifetime"

structure Quota where
  tenantId : String
  scope : String
  maxInstances : Option Int := none
  maxComputeUnits : Option ℚ := none
  period : Period := .lifetime
deriving DecidableEq

structure QuotaUsageEntry where
  scope : String
  usedInstances : Nat
  maxInstances : Option Int := none
  usedComputeUnits : ℚ := 0
  maxComputeUnits : Option ℚ := none
  period : Period := .lifetime
deriving DecidableEq

def QuotaUsageEntry.atLimit (e : QuotaUsageEntry) : Bool :=
  match e.maxInstances with
  | none => false
  | some cap => decide (cap ≤ e.usedInstances)

def QuotaUsageEntry.toJson (e : QuotaUsageEntry) : Json :=
  .obj [("scope", .str e.scope), ("used_instances", .num e.usedInstances),
    ("max_instances", match e.maxInstances with
      | none => .null
      | some n => .num n),
    ("used_compute_units", .num e.usedComputeUnits),
    ("max_compute_units", match e.maxComputeUnits with
      | none => .null
      | some n => .num n),
    ("period", .str e.period.value)]

structure QuotaCheckResult where
  allow : Bool
  reasons : List String := []
  breakdown : List QuotaUsageEntry := []

/-- What a check takes from outside: Python's `repr` of a text, and how many of a tenant's
records, latest first, one answer holds. -/
structure Host (τ : Type) where
  repr : String → String := fun s => "'" ++ s ++ "'"
  holds : List (Usage τ) → Nat := fun _ => 1000

def serviceTypeScope (serviceType : String) : String := "service_type:" ++ serviceType

def packScope (pack : String) : String := "pack:" ++ pack

/-- The record passes the `continue`s of `_compute_usage`. -/
def counts {τ : Type} (countingServiceType countingPack : Option String) (r : Usage τ) : Bool :=
  decide (r.resourceType="instance") &&
  (match countingServiceType with
    | none => true
    | some s => decide (Json.lookup "service_type" r.metadata=some (.str s))) &&
  (match countingPack with
    | none => true
    | some p => decide (Json.lookup "pack" r.metadata=some (.str p)))

section Check
variable {τ : Type} (host : Host τ) (quotas : List Quota) (table : List (Usage τ))
  (tenantId : String)

/-- `UsageStore.query` without a window or a filter, and with a limit of 1000. The table holds a
tenant's records by descending key, latest first. -/
def query : List (Usage τ) :=
  onePage host.holds 1000 (table.filter fun r => decide (r.tenantId=tenantId))

def quotaFor (scope : String) : Option Quota :=
  quotas.find? fun q => decide (q.tenantId=tenantId ∧ q.scope=scope)

def computeUsage (scope : String) (countingServiceType countingPack : Option String) :
    QuotaUsageEntry :=
  let quota := quotaFor quotas tenantId scope
  let records := query host table tenantId
  let counted := records.filter (counts countingServiceType countingPack)
  -- a service type scope without a filter is counted by the name in the scope
  let counted' :=
    if countingServiceType=none ∧ countingPack=none ∧
        "service_type:".toList.isPrefixOf scope.toList then
      records.filter (counts
        (some (String.ofList (Text.removePrefix "service_type:".toList scope.toList))) none)
    else counted
  { scope
    usedInstances := counted'.length
    maxInstances := quota.bind (·.maxInstances)
    usedComputeUnits := (counted.map Usage.quantity).sum
    maxComputeUnits := quota.bind (·.maxComputeUnits)
    period := (quota.map (·.period)).getD .lifetime }

def reason (kind subject : String) (e : QuotaUsageEntry) : String :=
  "quota: tenant " ++ host.repr tenantId ++ " at the per-" ++ kind ++ " cap for " ++
    host.repr subject ++ " (" ++ toString e.usedInstances ++ "/" ++
    (e.maxInstances.map toString).getD "None" ++ ")"

def checkProvision (serviceType : String) (pack : Option String) : QuotaCheckResult :=
  let perService := computeUsage host quotas table tenantId (serviceTypeScope serviceType)
    (some serviceType) none
  let serviceReasons :=
    if perService.atLimit then [reason host tenantId "service" serviceType perService] else []
  match pack.filter fun p => decide (p≠"") with
  | none =>
    { allow := serviceReasons.isEmpty, reasons := serviceReasons, breakdown := [perService] }
  | some pack =>
    let perPack := computeUsage host quotas table tenantId (packScope pack) none (some pack)
    let reasons := serviceReasons ++
      if perPack.atLimit then [reason host tenantId "pack" pack perPack] else []
    { allow := reasons.isEmpty, reasons, breakdown := [perService, perPack] }

/-- The broker's `_check_quota` from the resolved pack on. -/
def checkQuota (caller : Caller) (serviceType : String) (pack : Option String) : Gate :=
  let result := checkProvision host quotas table tenantId serviceType pack
  if result.allow then {}
  else
    let detail : List (String × Json) := [("reasons", .arr (result.reasons.map .str)),
      ("breakdown", .arr (result.breakdown.map fun e => e.toJson))]
    { audits := [{ action := "quota.exceeded", resource := "provision:" ++ serviceType
                   actor := caller.user.principal, tenantId, decision := "deny"
                   metadata := [("service_type", .str serviceType),
                     ("pack", match pack with
                       | none => .null
                       | some p => .str p)] ++ detail }]
      raised := some ⟨403, .obj (("message", .str "quota exceeded")::detail)⟩ }

end Check

inductive Scope where
  | service (serviceType : String)
  | pack (pack : String)
deriving DecidableEq

def Scope.name : Scope → String
  | .service s => serviceTypeScope s
  | .pack p => packScope p

def Scope.serviceFilter : Scope → Option String
  | .service s => some s
  | .pack _ => none

def Scope.packFilter : Scope → Option String
  | .service _ => none
  | .pack p => some p

def scopes (serviceType : String) (pack : Option String) : List Scope :=
  .service serviceType::((pack.filter fun p => decide (p≠"")).map Scope.pack).toList

section Scopes
variable {τ : Type} (host : Host τ) (quotas : List Quota) (table : List (Usage τ))
  (tenantId : String)

def Scope.counts (sc : Scope) : Usage τ → Bool := Quotas.counts sc.serviceFilter sc.packFilter

def Scope.entry (sc : Scope) : QuotaUsageEntry :=
  computeUsage host quotas table tenantId sc.name sc.serviceFilter sc.packFilter

theorem Scope.entry_used (sc : Scope) : (sc.entry host quotas table tenantId).usedInstances =
    ((query host table tenantId).filter sc.counts).length := by
  cases sc <;> simp [Scope.entry, computeUsage, Scope.counts, Scope.serviceFilter,
    Scope.packFilter]

theorem Scope.entry_atLimit (sc : Scope) : (sc.entry host quotas table tenantId).atLimit=true ↔
    ∃ cap, (quotaFor quotas tenantId sc.name).bind (·.maxInstances)=some cap ∧
      cap ≤ ((query host table tenantId).filter sc.counts).length := by
  have hmax : (sc.entry host quotas table tenantId).maxInstances =
      (quotaFor quotas tenantId sc.name).bind (·.maxInstances) := rfl
  unfold QuotaUsageEntry.atLimit
  rw [Scope.entry_used, hmax]
  cases (quotaFor quotas tenantId sc.name).bind (·.maxInstances) with
  | none => simp
  | some cap => simp

theorem breakdown_eq (serviceType : String) (pack : Option String) :
    (checkProvision host quotas table tenantId serviceType pack).breakdown =
      (scopes serviceType pack).map (Scope.entry host quotas table tenantId) := by
  simp only [checkProvision, scopes]
  cases pack.filter fun p => decide (p≠"") with
  | none => rfl
  | some p => rfl

/-- A request is allowed when none of its scopes is at its limit. -/
theorem allow_iff (serviceType : String) (pack : Option String) :
    (checkProvision host quotas table tenantId serviceType pack).allow=true ↔
      ∀ sc∈scopes serviceType pack, (sc.entry host quotas table tenantId).atLimit=false := by
  have hservice : computeUsage host quotas table tenantId (serviceTypeScope serviceType)
      (some serviceType) none=(Scope.service serviceType).entry host quotas table tenantId := rfl
  unfold checkProvision scopes
  rw [hservice]
  cases pack.filter fun p => decide (p≠"") with
  | none =>
    cases hs : ((Scope.service serviceType).entry host quotas table tenantId).atLimit <;> simp [hs]
  | some p =>
    have hpack : computeUsage host quotas table tenantId (packScope p) none (some p) =
      (Scope.pack p).entry host quotas table tenantId := rfl
    simp only [hpack]
    cases hs : ((Scope.service serviceType).entry host quotas table tenantId).atLimit <;>
      cases hp : ((Scope.pack p).entry host quotas table tenantId).atLimit <;> simp [hs, hp]

/-- The gate passes exactly when no scope of the request is at its limit. -/
theorem checkQuota_raised_none (caller : Caller) (serviceType : String) (pack : Option String) :
    (checkQuota host quotas table tenantId caller serviceType pack).raised=none ↔
      ∀ sc∈scopes serviceType pack, (sc.entry host quotas table tenantId).atLimit=false := by
  rw [← allow_iff]
  simp only [checkQuota]
  cases (checkProvision host quotas table tenantId serviceType pack).allow <;> simp

end Scopes
end Quotas
end Sovereign
