import Sovereign.Policy

/-! Tenant bundles in the composed decision. The composition ranges over the layers of
all tenants, whatever the tenant of the request. -/
namespace Sovereign.TenantLayers
open Sovereign Rego Policy

abbrev Family := List (String × Layer)

/-- What is installed for a tenant: at most one layer. -/
def ofTenant (family : Family) (tenantId : String) : List Layer :=
  (family.filter fun t => decide (t.1=tenantId)).map Prod.snd

def others (family : Family) (tenantId : String) : Family :=
  family.filter fun t => decide (t.1≠tenantId)

section Others
variable (sprintf : String → List Json → String) (doc : Json)

def otherDenies (family : Family) (tenantId : String) : List String :=
  (others family tenantId).flatMap fun t => ruleSet sprintf t.2.deny doc

def otherObligations (family : Family) (tenantId : String) : List String :=
  (others family tenantId).flatMap fun t => ruleSet sprintf t.2.obligations doc

def otherDenying (family : Family) (tenantId : String) : List String :=
  ((others family tenantId).filter fun t => !(ruleSet sprintf t.2.deny doc).isEmpty).map Prod.fst

def ownDenies (layers : Layers) (tenantId : String) : List String :=
  ruleSet sprintf layers.base doc ++
    layers.packs.flatMap (fun p => ruleSet sprintf p.2.deny doc) ++
    (ofTenant layers.tenants tenantId).flatMap fun l => ruleSet sprintf l.deny doc

def ownObligations (layers : Layers) (tenantId : String) : List String :=
  layers.packs.flatMap (fun p => ruleSet sprintf p.2.obligations doc) ++
    (ofTenant layers.tenants tenantId).flatMap fun l => ruleSet sprintf l.obligations doc

/-- Under two families the layers of the other tenants come out alike on a document: the
same tenants reject it, and what they add to the tenant's own layers is the same. -/
structure OthersAlike (layers : Layers) (family : Family) (tenantId : String) : Prop where
  denying : ∀ a, a∈otherDenying sprintf doc layers.tenants tenantId ↔
    a∈otherDenying sprintf doc family tenantId
  denies : ∀ m∉ownDenies sprintf doc layers tenantId,
    m∈otherDenies sprintf doc layers.tenants tenantId ↔ m∈otherDenies sprintf doc family tenantId
  obligations : ∀ m∉ownObligations sprintf doc layers tenantId,
    m∈otherObligations sprintf doc layers.tenants tenantId ↔
      m∈otherObligations sprintf doc family tenantId

end Others

theorem mem_flatMap_split {β : Type} (f : Layer → List β) (family : Family) (tenantId : String)
    (x : β) : x∈family.flatMap (fun t => f t.2) ↔
      x∈(ofTenant family tenantId).flatMap f ∨
        x∈(others family tenantId).flatMap fun t => f t.2 := by
  simp only [List.mem_flatMap, ofTenant, others, List.mem_map, List.mem_filter, decide_eq_true_eq]
  constructor
  · rintro ⟨t, ht, hx⟩
    by_cases hid : t.1=tenantId
    · exact Or.inl ⟨t.2, ⟨t, ⟨ht, hid⟩, rfl⟩, hx⟩
    · exact Or.inr ⟨t, ⟨ht, hid⟩, hx⟩
  · rintro (⟨l, ⟨t, ⟨ht, _⟩, rfl⟩, hx⟩ | ⟨t, ⟨ht, _⟩, hx⟩)
    · exact ⟨t, ht, hx⟩
    · exact ⟨t, ht, hx⟩

/-- Adding to a common part gives the same exactly when what is added outside it is the
same. -/
theorem or_iff_or_iff {own a b : String → Prop} :
    (∀ m, own m ∨ a m ↔ own m ∨ b m) ↔ ∀ m, ¬ own m → (a m ↔ b m) := by
  constructor
  · intro h m hm
    simpa [hm] using h m
  · intro h m
    by_cases hm : own m
    · simp [hm]
    · simp [hm, h m hm]

section Labels

theorem tenantLabel_inj {a b : String} (h : "tenant" ++ ":" ++ a="tenant" ++ ":" ++ b) : a=b := by
  have h := congrArg String.toList h
  simp only [String.toList_append] at h
  exact String.toList_inj.mp (List.append_cancel_left h)

theorem tenantLabel_ne_pack (a b : String) : "tenant" ++ ":" ++ a≠"pack" ++ ":" ++ b := by
  intro h
  have h := congrArg (fun s => s.toList.head?) h
  simp [String.toList_append] at h

theorem tenantLabel_ne_base (a : String) : "tenant" ++ ":" ++ a≠"base" := by
  intro h
  have h := congrArg (fun s => s.toList.head?) h
  simp [String.toList_append] at h

end Labels

section Isolation
variable {sprintf : String → List Json → String} {doc : Json} {layers : Layers}
  {family : Family} {tenantId : String}

theorem mem_denies (tenantId : String) {m : String} : m∈denies sprintf layers doc ↔
    m∈ownDenies sprintf doc layers tenantId ∨
      m∈otherDenies sprintf doc layers.tenants tenantId := by
  rw [denies, Text.mem_sortedSet, List.mem_append,
    mem_flatMap_split (fun l => ruleSet sprintf l.deny doc) layers.tenants tenantId, ← or_assoc,
    ← List.mem_append]
  rfl

theorem mem_obligations (tenantId : String) {m : String} : m∈obligations sprintf layers doc ↔
    m∈ownObligations sprintf doc layers tenantId ∨
      m∈otherObligations sprintf doc layers.tenants tenantId := by
  rw [obligations, Text.mem_sortedSet, List.mem_append,
    mem_flatMap_split (fun l => ruleSet sprintf l.obligations doc) layers.tenants tenantId,
    ← or_assoc, ← List.mem_append]
  rfl

def SelfDenying (sprintf : String → List Json → String) (doc : Json) (family : Family)
    (tenantId : String) : Prop :=
  ∃ l∈ofTenant family tenantId, ruleSet sprintf l.deny doc≠[]

theorem mem_tenantLabels (tenantId : String) {a : String} :
    "tenant" ++ ":" ++ a∈layerLabels sprintf doc "tenant" family ↔
      (a=tenantId ∧ SelfDenying sprintf doc family tenantId) ∨
        a∈otherDenying sprintf doc family tenantId := by
  simp only [layerLabels, otherDenying, others, SelfDenying, ofTenant, List.mem_map,
    List.mem_filter, decide_eq_true_eq, Bool.not_eq_true', List.isEmpty_eq_false_iff]
  constructor
  · rintro ⟨t, ⟨ht, hd⟩, he⟩
    have he := tenantLabel_inj he
    subst he
    by_cases hid : t.1=tenantId
    · exact Or.inl ⟨hid, t.2, ⟨t, ⟨ht, hid⟩, rfl⟩, hd⟩
    · exact Or.inr ⟨t, ⟨⟨ht, hid⟩, hd⟩, rfl⟩
  · rintro (⟨rfl, l, ⟨t, ⟨ht, rfl⟩, rfl⟩, hd⟩ | ⟨t, ⟨⟨ht, _⟩, hd⟩, rfl⟩)
    · exact ⟨t, ⟨ht, hd⟩, rfl⟩
    · exact ⟨t, ⟨ht, hd⟩, rfl⟩

/-- A tenant's label among the matched layers comes from that tenant's layer. -/
theorem mem_matchedLayers_tenant {a : String} :
    "tenant" ++ ":" ++ a∈matchedLayers sprintf layers doc ↔
      "tenant" ++ ":" ++ a∈layerLabels sprintf doc "tenant" layers.tenants := by
  rw [matchedLayers, Text.mem_sortedSet, List.mem_append, List.mem_append]
  constructor
  · rintro ((hbase | hpack) | htenant)
    · split at hbase
      · simp at hbase
      · exact absurd (List.mem_singleton.mp hbase) (tenantLabel_ne_base a)
    · simp only [layerLabels, List.mem_map] at hpack
      obtain ⟨p, _, he⟩ := hpack
      exact absurd he.symm (tenantLabel_ne_pack a p.1)
    · exact htenant
  · exact Or.inr

theorem otherDenying_ne {a : String} (h : a∈otherDenying sprintf doc family tenantId) :
    a≠tenantId := by
  simp only [otherDenying, others, List.mem_map, List.mem_filter, decide_eq_true_eq] at h
  obtain ⟨t, ⟨⟨_, hne⟩, _⟩, rfl⟩ := h
  exact hne

theorem selfDenying_congr (h : ofTenant layers.tenants tenantId=ofTenant family tenantId) :
    SelfDenying sprintf doc layers.tenants tenantId ↔ SelfDenying sprintf doc family tenantId := by
  rw [SelfDenying, SelfDenying, h]

theorem tenantLabels_congr (h : ofTenant layers.tenants tenantId=ofTenant family tenantId)
    (hd : ∀ a, a∈otherDenying sprintf doc layers.tenants tenantId ↔
      a∈otherDenying sprintf doc family tenantId) (m : String) :
    m∈layerLabels sprintf doc "tenant" layers.tenants ↔
      m∈layerLabels sprintf doc "tenant" family := by
  have hlabel : ∀ a, "tenant" ++ ":" ++ a∈layerLabels sprintf doc "tenant" layers.tenants ↔
      "tenant" ++ ":" ++ a∈layerLabels sprintf doc "tenant" family := by
    intro a
    rw [mem_tenantLabels tenantId, mem_tenantLabels tenantId, selfDenying_congr h, hd a]
  constructor
  · intro hm
    obtain ⟨t, _, rfl⟩ := List.mem_map.mp hm
    exact (hlabel t.1).mp hm
  · intro hm
    obtain ⟨t, _, rfl⟩ := List.mem_map.mp hm
    exact (hlabel t.1).mpr hm

/-- The matched layers agree exactly when the same other tenants reject the document. -/
theorem matchedLayers_congr (h : ofTenant layers.tenants tenantId=ofTenant family tenantId) :
    matchedLayers sprintf layers doc=matchedLayers sprintf { layers with tenants := family } doc ↔
      ∀ a, a∈otherDenying sprintf doc layers.tenants tenantId ↔
        a∈otherDenying sprintf doc family tenantId := by
  constructor
  · intro hm a
    have hlabel : "tenant" ++ ":" ++ a∈layerLabels sprintf doc "tenant" layers.tenants ↔
        "tenant" ++ ":" ++ a∈layerLabels sprintf doc "tenant" family := by
      rw [← mem_matchedLayers_tenant, hm, mem_matchedLayers_tenant]
    rw [mem_tenantLabels tenantId, mem_tenantLabels tenantId] at hlabel
    by_cases ha : a=tenantId
    · exact ⟨fun hmem => absurd ha (otherDenying_ne hmem),
        fun hmem => absurd ha (otherDenying_ne hmem)⟩
    · simpa [ha] using hlabel
  · intro hd
    rw [matchedLayers, matchedLayers, Text.sortedSet_eq_iff]
    intro m
    simp only [List.mem_append, tenantLabels_congr h hd m]

theorem denies_congr (h : ofTenant layers.tenants tenantId=ofTenant family tenantId) :
    denies sprintf layers doc=denies sprintf { layers with tenants := family } doc ↔
      ∀ m∉ownDenies sprintf doc layers tenantId,
        m∈otherDenies sprintf doc layers.tenants tenantId ↔
          m∈otherDenies sprintf doc family tenantId := by
  have hown : ownDenies sprintf doc { layers with tenants := family } tenantId =
      ownDenies sprintf doc layers tenantId := by
    simp only [ownDenies, h]
  have hset : denies sprintf layers doc=denies sprintf { layers with tenants := family } doc ↔
      ∀ m, m∈denies sprintf layers doc ↔
        m∈denies sprintf { layers with tenants := family } doc := by
    simp only [denies, Text.sortedSet_eq_iff, Text.mem_sortedSet]
  rw [hset, ← or_iff_or_iff]
  simp only [mem_denies tenantId, hown]

theorem obligations_congr (h : ofTenant layers.tenants tenantId=ofTenant family tenantId) :
    obligations sprintf layers doc=obligations sprintf { layers with tenants := family } doc ↔
      ∀ m∉ownObligations sprintf doc layers tenantId,
        m∈otherObligations sprintf doc layers.tenants tenantId ↔
          m∈otherObligations sprintf doc family tenantId := by
  have hown : ownObligations sprintf doc { layers with tenants := family } tenantId =
      ownObligations sprintf doc layers tenantId := by
    simp only [ownObligations, h]
  have hset : obligations sprintf layers doc =
      obligations sprintf { layers with tenants := family } doc ↔
      ∀ m, m∈obligations sprintf layers doc ↔
        m∈obligations sprintf { layers with tenants := family } doc := by
    simp only [obligations, Text.sortedSet_eq_iff, Text.mem_sortedSet]
  rw [hset, ← or_iff_or_iff]
  simp only [mem_obligations tenantId, hown]

end Isolation

/-- A document is decided alike under two families that install the same for its tenant
exactly when the other tenants' layers come out alike on it. -/
theorem tenant_isolation_iff (sprintf : String → List Json → String) (layers : Layers)
    (family : Family) (doc : Json) (tenantId : String)
    (h : ofTenant layers.tenants tenantId=ofTenant family tenantId) :
    ((decision sprintf layers doc).allow =
        (decision sprintf { layers with tenants := family } doc).allow ∧
      (decision sprintf layers doc).denies =
        (decision sprintf { layers with tenants := family } doc).denies ∧
      (decision sprintf layers doc).matchedLayers =
        (decision sprintf { layers with tenants := family } doc).matchedLayers ∧
      (decision sprintf layers doc).obligations =
        (decision sprintf { layers with tenants := family } doc).obligations) ↔
    OthersAlike sprintf doc layers family tenantId := by
  constructor
  · rintro ⟨_, hd, hm, ho⟩
    exact ⟨(matchedLayers_congr h).mp hm, (denies_congr h).mp hd, (obligations_congr h).mp ho⟩
  · rintro ⟨hm, hd, ho⟩
    have hdenies := (denies_congr h).mpr hd
    exact ⟨by simp only [decision, hdenies], hdenies, (matchedLayers_congr h).mpr hm,
      (obligations_congr h).mpr ho⟩

/-! A bundle of the treasury that freezes its changes, with and without a look at whose
request it is, and a request of another agency. -/

def freezeRule (applies : Json → Bool) : Family :=
  [("treasury", { deny := [{ head := .text "treasury: change freeze"
                             body := fun input => single do
                               guard (applies input)
                               return [] }] })]

def freeze : Family := freezeRule fun _ => true

def ownFreeze : Family :=
  freezeRule fun input => decide (Json.get? "tenant_id" input=some (.str "treasury"))

def energyRequest : Call :=
  { actor := "bob", tenantId := "energy", serviceType := "sovereign-envoy-lb"
    planId := "standard-regional", parameters := [] }

theorem tenant_isolation_iff_ownFreeze :
    ofTenant ownFreeze "energy"=ofTenant [] "energy" ∧
    (decision (fun s _ => s) { tenants := ownFreeze } (buildPolicyInput energyRequest)).allow =
      (decision (fun s _ => s) {} (buildPolicyInput energyRequest)).allow := by
  have hdenying : otherDenying (fun s _ => s) (buildPolicyInput energyRequest) ownFreeze
      "energy"=[] := by decide
  have hdenies : otherDenies (fun s _ => s) (buildPolicyInput energyRequest) ownFreeze
      "energy"=[] := by decide
  have halike : OthersAlike (fun s _ => s) (buildPolicyInput energyRequest)
      { tenants := ownFreeze } [] "energy" :=
    ⟨fun a => iff_of_eq (congrArg (a∈·) hdenying), fun m _ => iff_of_eq (congrArg (m∈·) hdenies),
      fun _ _ => Iff.rfl⟩
  exact ⟨rfl, ((tenant_isolation_iff (fun s _ => s) { tenants := ownFreeze } []
    (buildPolicyInput energyRequest) "energy" rfl).mpr halike).1⟩

/-- The treasury's freeze rejects the request of another agency. -/
theorem freeze_rejects_other_agency :
    Json.get? "tenant_id" (buildPolicyInput energyRequest)=some (.str "energy") ∧
    ofTenant freeze "energy"=ofTenant [] "energy" ∧
    (decision (fun s _ => s) { tenants := freeze } (buildPolicyInput energyRequest)).allow=false ∧
    (decision (fun s _ => s) {} (buildPolicyInput energyRequest)).allow=true := by
  have hdeny : ruleSet (fun s _ => s) (freeze.flatMap fun t => t.2.deny)
      (buildPolicyInput energyRequest)≠[] := by decide
  refine ⟨by decide, rfl, ?_, ?_⟩
  · rw [Bool.eq_false_iff, Ne, decision_allow_iff]
    rintro ⟨_, _, h⟩
    exact hdeny (h _ List.mem_cons_self)
  · rw [decision_allow_iff]
    exact ⟨rfl, by simp, by simp⟩

end Sovereign.TenantLayers
