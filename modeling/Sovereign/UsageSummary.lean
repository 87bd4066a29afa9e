import Sovereign.UsageQuota

/-! The usage page: an entry for each scope with a quota and for each one that the metering
records name, beside the entries that the quota gate looks at. -/
namespace Sovereign.Enforcer
open Sovereign Quotas

def behind (pre scope : String) : Option String :=
  if pre.toList.isPrefixOf scope.toList then
    some (String.ofList (Text.removePrefix pre.toList scope.toList))
  else none

def serviceTypeFromScope : String → Option String := behind "service_type:"

def packFromScope : String → Option String := behind "pack:"

def named (member : String) (r : Usage) : Option String :=
  match Json.lookup member r.metadata with
  | some (.str s) => if s≠"" then some s else none
  | _ => none

def scopesOf (r : Usage) : List String :=
  ((named "service_type" r).map serviceTypeScope).toList ++
    ((named "pack" r).map packScope).toList

section Summary
variable (host : Host Timestamp) (holds : List Quota → Nat) (quotas : List Quota)
  (table : List Usage) (tenantId : String)

/-- `QuotaStore.list_for_tenant`: the first answer to a query, as much as it holds. The table
holds a tenant's quotas by ascending scope. -/
def listForTenant : List Quota :=
  let own := quotas.filter fun q => decide (q.tenantId=tenantId)
  own.take (holds own)

def observedServiceTypeScopes : List String := (query host table tenantId).flatMap scopesOf

def usageSummary : List QuotaUsageEntry :=
  (Text.sortedSet ((listForTenant holds quotas tenantId).map (·.scope) ++
      observedServiceTypeScopes host table tenantId)).map fun scope =>
    computeUsage host quotas table tenantId scope (serviceTypeFromScope scope) (packFromScope scope)

def Configured (scope : String) : Prop := ∃ q∈quotas, q.tenantId=tenantId ∧ q.scope=scope

/-- One of the records names the service type or the pack of the scope. -/
def Observed (records : List Usage) (scope : String) : Prop :=
  ∃ r∈records, ∃ s≠"",
    (Json.lookup "service_type" r.metadata=some (.str s) ∧ scope=serviceTypeScope s) ∨
    (Json.lookup "pack" r.metadata=some (.str s) ∧ scope=packScope s)

def newest : List Usage := (table.filter fun r => decide (r.tenantId=tenantId)).take 1000

/-- The answers that are read tell of every scope: it has a quota in the one answer of the quota
table, or a record in the one page of usage records names it. -/
def Told (scope : String) : Prop :=
  (∃ q∈listForTenant holds quotas tenantId, q.scope=scope) ∨
    Observed (query host table tenantId) scope

end Summary

/-! Scopes and the filters read off them. -/

theorem behind_append (pre s : String) : behind pre (pre ++ s)=some s := by
  have hpre : pre.toList.isPrefixOf (pre ++ s).toList=true := by simp
  rw [behind, if_pos hpre, Text.removePrefix, if_pos hpre, String.toList_append,
    List.drop_left, String.ofList_toList]

/-- Texts that begin differently. -/
theorem behind_none {pre s : String} {c d : Char} {cs ds : List Char} (hpre : pre.toList=c::cs)
    (hs : s.toList=d::ds) (hne : c≠d) : behind pre s=none := by
  rw [behind, hpre, hs, List.isPrefixOf_cons_cons, beq_eq_false_iff_ne.mpr hne, Bool.false_and]
  rfl

theorem serviceTypeFromScope_name (sc : Scope) :
    serviceTypeFromScope sc.name=sc.serviceFilter := by
  cases sc with
  | service s => exact behind_append _ s
  | pack p =>
    have hp : (packScope p).toList= 'p' ::("ack:".toList ++ p.toList) := by
      rw [packScope, String.toList_append]
      rfl
    have hpre : "service_type:".toList= 's' ::"ervice_type:".toList := rfl
    exact behind_none hpre hp (by decide)

theorem packFromScope_name (sc : Scope) : packFromScope sc.name=sc.packFilter := by
  cases sc with
  | service s =>
    have hs : (serviceTypeScope s).toList= 's' ::("ervice_type:".toList ++ s.toList) := by
      rw [serviceTypeScope, String.toList_append]
      rfl
    have hpre : "pack:".toList= 'p' ::"ack:".toList := rfl
    exact behind_none hpre hs (by decide)
  | pack p => exact behind_append _ p

theorem named_eq_some {member s : String} {r : Usage} :
    named member r=some s ↔ s≠"" ∧ Json.lookup member r.metadata=some (.str s) := by
  rw [named]
  split
  · next t ht =>
    rw [ht]
    split
    · next hne =>
      simp only [Option.some.injEq, Json.str.injEq]
      exact ⟨fun h => ⟨h ▸ hne, h⟩, fun h => h.2⟩
    · next he =>
      simp only [reduceCtorEq, Option.some.injEq, Json.str.injEq, false_iff, not_and]
      exact fun hne h => hne (h ▸ not_not.mp he)
  · next hno =>
    simp only [reduceCtorEq, false_iff, not_and]
    exact fun _ h => hno s h

section Agreement
variable (host : Host Timestamp) (holds : List Quota → Nat) (quotas : List Quota)
  (table : List Usage) (tenantId serviceType : String) (pack : Option String)

theorem mem_observed {scope : String} : scope∈observedServiceTypeScopes host table tenantId ↔
    Observed (query host table tenantId) scope := by
  simp only [observedServiceTypeScopes, Observed, List.mem_flatMap, scopesOf, List.mem_append,
    Option.mem_toList, Option.map_eq_some_iff, named_eq_some]
  constructor
  · intro h
    obtain ⟨r, hr, ⟨s, ⟨hne, hs⟩, he⟩ | ⟨s, ⟨hne, hs⟩, he⟩⟩ := h
    · exact ⟨r, hr, s, hne, Or.inl ⟨hs, he.symm⟩⟩
    · exact ⟨r, hr, s, hne, Or.inr ⟨hs, he.symm⟩⟩
  · intro h
    obtain ⟨r, hr, s, hne, ⟨hs, he⟩ | ⟨hs, he⟩⟩ := h
    · exact ⟨r, hr, Or.inl ⟨s, ⟨hne, hs⟩, he.symm⟩⟩
    · exact ⟨r, hr, Or.inr ⟨s, ⟨hne, hs⟩, he.symm⟩⟩

theorem scopes_usageSummary : (usageSummary host holds quotas table tenantId).map (·.scope)=
    Text.sortedSet ((listForTenant holds quotas tenantId).map (·.scope) ++
      observedServiceTypeScopes host table tenantId) := by
  rw [usageSummary, List.map_map]
  exact List.map_id _

theorem mem_scopes {scope : String} :
    scope∈(usageSummary host holds quotas table tenantId).map (·.scope) ↔
      Told host holds quotas table tenantId scope := by
  rw [scopes_usageSummary, Text.mem_sortedSet, List.mem_append, mem_observed, List.mem_map, Told]

theorem mem_usageSummary {e : QuotaUsageEntry}
    (h : e∈usageSummary host holds quotas table tenantId) :
    e=computeUsage host quotas table tenantId e.scope (serviceTypeFromScope e.scope)
      (packFromScope e.scope) := by
  obtain ⟨scope, _, rfl⟩ := List.mem_map.mp h
  rfl

/-- The answers tell of no scope that has no quota and that no record names. -/
theorem told_sound {scope : String} (h : Told host holds quotas table tenantId scope) :
    Configured quotas tenantId scope ∨ Observed (newest table tenantId) scope := by
  cases h with
  | inl h =>
    obtain ⟨q, hq, he⟩ := h
    obtain ⟨hmem, htenant⟩ := List.mem_filter.mp (List.mem_of_mem_take hq)
    exact Or.inl ⟨q, hmem, of_decide_eq_true htenant, he⟩
  | inr h =>
    obtain ⟨r, hr, hs⟩ := h
    refine Or.inr ⟨r, ?_, hs⟩
    exact (List.take_prefix_take_left (Nat.min_le_left 1000 _)).subset hr

theorem breakdown_agrees {e e' : QuotaUsageEntry}
    (he : e∈(checkProvision host quotas table tenantId serviceType pack).breakdown)
    (he' : e'∈usageSummary host holds quotas table tenantId) (hscope : e'.scope=e.scope) :
    e=e' := by
  rw [breakdown_eq] at he
  obtain ⟨sc, _, rfl⟩ := List.mem_map.mp he
  have hname : e'.scope=sc.name := hscope
  rw [mem_usageSummary _ _ _ _ _ he', hname, serviceTypeFromScope_name, packFromScope_name]
  rfl

/-- The usage page agrees with the quota gate: entry by entry, in the scopes it has, in their
order, and in what the gate makes of them. -/
structure PageAgrees : Prop where
  entries : ∀ e∈(checkProvision host quotas table tenantId serviceType pack).breakdown,
    ∀ e'∈usageSummary host holds quotas table tenantId, e'.scope=e.scope → e=e'
  scopes : ∀ scope, scope∈(usageSummary host holds quotas table tenantId).map (·.scope) ↔
    Configured quotas tenantId scope ∨ Observed (newest table tenantId) scope
  sorted : ((usageSummary host holds quotas table tenantId).map (·.scope)).Pairwise (· < ·)
  gate : (checkProvision host quotas table tenantId serviceType pack).allow=true ↔
    ∀ e∈(checkProvision host quotas table tenantId serviceType pack).breakdown, e.atLimit=false

/-- It agrees exactly when the answers tell of every scope that has a quota and of every scope
that one of the newest thousand records names. -/
theorem usage_page_agrees_iff : PageAgrees host holds quotas table tenantId serviceType pack ↔
    (∀ scope, Configured quotas tenantId scope →
      Told host holds quotas table tenantId scope) ∧
    ∀ scope, Observed (newest table tenantId) scope →
      Told host holds quotas table tenantId scope := by
  constructor
  · intro h
    constructor
    · intro scope hs
      exact (mem_scopes ..).mp ((h.scopes scope).mpr (Or.inl hs))
    · intro scope hs
      exact (mem_scopes ..).mp ((h.scopes scope).mpr (Or.inr hs))
  · intro h
    obtain ⟨hconfigured, hobserved⟩ := h
    refine ⟨?_, ?_, ?_, ?_⟩
    · intro e he e' he' hscope
      exact breakdown_agrees host holds quotas table tenantId serviceType pack he he' hscope
    · intro scope
      rw [mem_scopes]
      exact ⟨told_sound host holds quotas table tenantId,
        fun hs => hs.elim (hconfigured scope) (hobserved scope)⟩
    · rw [scopes_usageSummary]
      exact Text.sortedSet_strict _
    · rw [breakdown_eq, List.forall_mem_map]
      exact allow_iff host quotas table tenantId serviceType pack

end Agreement

def closedServices : List Quota :=
  ["cdn", "envoy-lb", "llm-chat", "waf"].map fun s =>
    { tenantId := "acme", scope := serviceTypeScope s, maxInstances := some 0 }

/-- Where one answer holds two of the four quotas, the gate enforces the last one, and the page
does not have it. -/
theorem unlisted_quota_enforced :
    (checkProvision {} closedServices ([] : List Usage) "acme" "waf" none).allow=false ∧
    "service_type:waf"∉(usageSummary {} (fun _ => 2) closedServices [] "acme").map (·.scope) ∧
    ¬PageAgrees {} (fun _ => 2) closedServices [] "acme" "waf" none := by
  have hmissing :
      "service_type:waf"∉(usageSummary {} (fun _ => 2) closedServices [] "acme").map (·.scope) := by
    rw [mem_scopes]
    intro h
    cases h with
    | inl h =>
      obtain ⟨q, hq, he⟩ := h
      have hlisted : ∀ q∈listForTenant (fun _ => 2) closedServices "acme",
          q.scope≠"service_type:waf" := by decide +kernel
      exact hlisted q hq he
    | inr h =>
      obtain ⟨r, hr, _⟩ := h
      cases hr
  have hconfigured : Configured closedServices "acme" "service_type:waf" := by
    refine ⟨_, List.mem_map.mpr ⟨"waf", by decide, rfl⟩, rfl, ?_⟩
    decide +kernel
  refine ⟨by decide +kernel, hmissing, ?_⟩
  intro h
  exact hmissing ((h.scopes "service_type:waf").mpr (Or.inl hconfigured))

end Sovereign.Enforcer
