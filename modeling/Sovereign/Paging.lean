import Sovereign.TenantTree
import Mathlib.Data.List.GetD

/-! Paged reads of the two tables behind the resolver. The tenant scan and the query for a
principal's bindings both take the first response as the whole result; the backup reads on
while a response carries a key. -/
namespace Sovereign
open Relation

section Pages
variable {α : Type}

/-- One response to a scan or a query. The key tells where the next one goes on. -/
structure Response (α : Type) where
  items : List α
  lastEvaluatedKey : Option Nat

def respond (pages : List (List α)) (exclusiveStartKey : Option Nat) : Response α :=
  let start := exclusiveStartKey.getD 0
  { items := pages.getD start []
    lastEvaluatedKey := if start+1 < pages.length then some (start+1) else none }

def scanAll (pages : List (List α)) : Nat → Option Nat → List α
  | 0, _ => []
  | n+1, key =>
    let resp := respond pages key
    resp.items ++ match resp.lastEvaluatedKey with
      | none => []
      | some last => scanAll pages n (some last)

theorem scanAll_drop (pages : List (List α)) (n : Nat) (key : Option Nat)
    (h : pages.length≤n+key.getD 0) (hn : 0 < n) :
    scanAll pages n key=(pages.drop (key.getD 0)).flatten := by
  induction n generalizing key with
  | zero => omega
  | succ n ih =>
    simp only [scanAll, respond]
    by_cases hlast : key.getD 0+1 < pages.length
    · have hnext : scanAll pages n (some (key.getD 0+1))=(pages.drop (key.getD 0+1)).flatten := by
        refine ih (some (key.getD 0+1)) ?_ ?_
        · simp only [Option.getD_some]
          omega
        · omega
      have hstart : key.getD 0 < pages.length := by omega
      rw [if_pos hlast, List.drop_eq_getElem_cons hstart, List.flatten_cons, ← hnext,
        List.getD_eq_getElem _ _ hstart]
    · rw [if_neg hlast, List.append_nil]
      by_cases hstart : key.getD 0 < pages.length
      · rw [List.drop_eq_getElem_cons hstart, List.drop_eq_nil_of_le (by omega),
          List.getD_eq_getElem _ _ hstart]
        simp
      · rw [List.drop_eq_nil_of_le (by omega), List.getD_eq_default _ _ (by omega)]
        rfl

/-- Reading on while there is a key reads everything, however it is split. -/
theorem scanAll_eq_flatten (pages : List (List α)) :
    scanAll pages (pages.length+1) none=pages.flatten := by
  have h := scanAll_drop pages (pages.length+1) none (by simp) (by omega)
  simpa using h

/-- A way to return items in pages. -/
structure Split (items : List α) where
  pages : List (List α)
  flatten_pages : pages.flatten=items

variable {items : List α}

def Split.one (items : List α) : Split items where
  pages := [items]
  flatten_pages := by simp

def Split.firstPage (s : Split items) : List α := (respond s.pages none).items

@[simp] theorem Split.firstPage_one (items : List α) : (Split.one items).firstPage=items := rfl

theorem Split.exists_append (s : Split items) : ∃ rest, items=s.firstPage++rest := by
  cases hp : s.pages with
  | nil =>
    refine ⟨items, ?_⟩
    simp [Split.firstPage, respond, hp]
  | cons page rest =>
    refine ⟨rest.flatten, ?_⟩
    have h := s.flatten_pages
    rw [hp, List.flatten_cons] at h
    simp [Split.firstPage, respond, hp, h]

theorem Split.sublist (s : Split items) : s.firstPage.Sublist items := by
  obtain ⟨rest, h⟩ := s.exists_append
  have hs := List.sublist_append_left s.firstPage rest
  rwa [← h] at hs

end Pages

/-! What `effective_roles_at` reports beside the roles: where each came from. -/

section Inherited

/-- `inherited_from.get(key, frozenset())`; no key is stored with an empty set. -/
def Directory.inheritedFrom (d : Directory) (principal tenantId key : String) : List Role :=
  (if key∈(getAncestors d.tenants tenantId).map Tenant.tenantId then d.rolesAt principal key
    else []) ++
  ((d.rolesFor principal).filter fun b =>
    decide (b.role=.platformAdmin ∧ b.tenantId≠tenantId ∧ b.tenantId=key)).map RoleBinding.role

/-- A role bound at `key` counts at the tenant: from an ancestor, or as platform-admin. -/
def Inherits (table : TenantTable) (tenantId key : String) (role : Role) : Prop :=
  TransGen table.Parent tenantId key ∨ (role=.platformAdmin ∧ key≠tenantId)

variable {table : TenantTable} {roles : List RoleBinding} {principal tenantId : String}

theorem mem_inheritedFrom {key : String} {role : Role} :
    role∈(table.directory roles).inheritedFrom principal tenantId key ↔
      Bound roles principal key role ∧ Inherits table tenantId key role := by
  have hancestor : role∈(if key∈(getAncestors table.tenants tenantId).map Tenant.tenantId
      then (table.directory roles).rolesAt principal key else []) ↔
      TransGen table.Parent tenantId key ∧ Bound roles principal key role := by
    split
    · next h =>
      rw [mem_rolesAt]
      exact ⟨fun hb => ⟨mem_getAncestors.mp h, hb⟩, fun hb => hb.2⟩
    · next h =>
      rw [mem_getAncestors] at h
      simp [h]
  have hplatform : role∈((table.directory roles).rolesFor principal |>.filter fun b =>
      decide (b.role=.platformAdmin ∧ b.tenantId≠tenantId ∧ b.tenantId=key)).map RoleBinding.role ↔
      (role=.platformAdmin ∧ key≠tenantId) ∧ Bound roles principal key role := by
    simp only [Directory.rolesFor, List.mem_map, List.mem_filter, decide_eq_true_eq]
    constructor
    · intro h
      obtain ⟨b, ⟨⟨hb, hp⟩, hr, ht, hk⟩, he⟩ := h
      exact ⟨⟨he ▸ hr, hk ▸ ht⟩, b, hb, hp, hk, he⟩
    · intro h
      obtain ⟨⟨hr, ht⟩, b, hb, hp, hk, he⟩ := h
      exact ⟨b, ⟨⟨hb, hp⟩, he.trans hr, fun h => ht (hk.symm.trans h), hk⟩, he⟩
  rw [Directory.inheritedFrom, List.mem_append, hplatform]
  refine (or_congr_left hancestor).trans ?_
  rw [← or_and_right, and_comm]
  rfl

/-- A role is held by a binding at the tenant or by one that counts there. -/
theorem mem_effectiveRolesAt_inherits {role : Role} :
    role∈(table.directory roles).effectiveRolesAt principal tenantId ↔
      Bound roles principal tenantId role ∨
      ∃ key, Bound roles principal key role ∧ Inherits table tenantId key role := by
  rw [mem_effectiveRolesAt]
  constructor
  · intro h
    obtain hb | ⟨a, ha, hb⟩ | ⟨hr, anywhere, hb⟩ := h
    · exact Or.inl hb
    · exact Or.inr ⟨a, hb, Or.inl ha⟩
    · by_cases he : anywhere=tenantId
      · exact Or.inl (he ▸ hr ▸ hb)
      · exact Or.inr ⟨anywhere, hr ▸ hb, Or.inr ⟨hr, he⟩⟩
  · intro h
    obtain hb | ⟨key, hb, ha | ⟨hr, _⟩⟩ := h
    · exact Or.inl hb
    · exact Or.inr (Or.inl ⟨key, ha, hb⟩)
    · exact Or.inr (Or.inr ⟨hr, key, hr ▸ hb⟩)

/-- Two directories answer `effective_roles_at` alike: the same roles, from the same
places. -/
structure SameAuthz (d d' : Directory) (principal tenantId : String) : Prop where
  roles : ∀ role, role∈d.effectiveRolesAt principal tenantId ↔
    role∈d'.effectiveRolesAt principal tenantId
  inherited : ∀ key role, role∈d.inheritedFrom principal tenantId key ↔
    role∈d'.inheritedFrom principal tenantId key

end Inherited

/-! The walk down over the first page of the scan. -/

section Descendants
variable {table : TenantTable} {tenantId : String}

def TenantTable.firstPage (table : TenantTable) (pages : Split table.tenants) : TenantTable where
  tenants := pages.firstPage
  nodup := table.nodup.sublist (pages.sublist.map Tenant.tenantId)

theorem firstPage_parent {pages : Split table.tenants} {child parent : String}
    (h : (table.firstPage pages).Parent child parent) : table.Parent child parent := by
  obtain ⟨⟨t, ht, hp⟩, hne, y, hy, he⟩ := h
  exact ⟨⟨t, pages.sublist.subset ht, hp⟩, hne, y, pages.sublist.subset hy, he⟩

theorem stored_of_descendant {id : String}
    (h : id∈(getDescendants table.tenants tenantId).map Tenant.tenantId) : table.Stored id := by
  obtain ⟨child, hchild, hpath⟩ := mem_getDescendants.mp h
  cases hpath with
  | refl => exact ⟨child, (List.mem_filter.mp hchild).1, rfl⟩
  | tail _ hstep =>
    obtain ⟨y, hy, he⟩ := hstep
    exact ⟨y, (List.mem_filter.mp hy).1, he⟩

def Below (table : TenantTable) (tenantId id : String) : Prop :=
  id=tenantId ∨ id∈(getDescendants table.tenants tenantId).map Tenant.tenantId

theorem below_child {id : String} (h : Below table tenantId id) {child : Tenant}
    (hc : child∈childrenByParent table.tenants id) :
    child.tenantId∈(getDescendants table.tenants tenantId).map Tenant.tenantId := by
  rw [mem_getDescendants]
  obtain rfl | hd := h
  · exact ⟨child, hc, ReflTransGen.refl⟩
  · obtain ⟨top, htop, hpath⟩ := mem_getDescendants.mp hd
    exact ⟨top, htop, hpath.tail ⟨child, hc, rfl⟩⟩

/-- Where every descendant is on the first page, the rest of the table adds no child to
the walk. -/
theorem childrenByParent_firstPage {pages : Split table.tenants}
    (h : ∀ id∈(getDescendants table.tenants tenantId).map Tenant.tenantId,
      (table.firstPage pages).Stored id) {id : String} (hid : Below table tenantId id) :
    childrenByParent table.tenants id=childrenByParent (table.firstPage pages).tenants id := by
  obtain ⟨rest, hrest⟩ := pages.exists_append
  have hsplit : childrenByParent table.tenants id =
      childrenByParent pages.firstPage id++childrenByParent rest id := by
    have hfilter : ∀ ts, childrenByParent ts id=
      ts.filter fun t => decide (t.parentId=some id ∧ id≠"") := fun _ => rfl
    simp only [hfilter, ← List.filter_append, ← hrest]
  have hnone : childrenByParent rest id=[] := by
    refine List.eq_nil_iff_forall_not_mem.mpr ?_
    intro child hchild
    have hmem : child∈childrenByParent table.tenants id :=
      hsplit ▸ List.mem_append_right _ hchild
    obtain ⟨t, ht, he⟩ := h child.tenantId (below_child hid hmem)
    have hnodup := table.nodup
    rw [hrest, List.map_append] at hnodup
    exact List.disjoint_of_nodup_append hnodup (List.mem_map.mpr ⟨t, ht, he⟩)
      (List.mem_map.mpr ⟨child, (List.mem_filter.mp hchild).1, rfl⟩)
  rw [hsplit, hnone, List.append_nil]
  rfl

/-- The walk down is the same exactly when every descendant is on the first page. -/
theorem getDescendants_firstPage_iff (pages : Split table.tenants) :
    (getDescendants (table.firstPage pages).tenants tenantId).map Tenant.tenantId =
      (getDescendants table.tenants tenantId).map Tenant.tenantId ↔
    ∀ id∈(getDescendants table.tenants tenantId).map Tenant.tenantId,
      (table.firstPage pages).Stored id := by
  constructor
  · intro h id hid
    exact stored_of_descendant (h ▸ hid)
  · intro h
    have hchildren := fun id (hid : Below table tenantId id) => childrenByParent_firstPage h hid
    have hlen : (table.firstPage pages).tenants.length≤table.tenants.length :=
      pages.sublist.length_le
    have hsquare := Nat.mul_le_mul hlen hlen
    -- the shorter table walks with fewer turns, which more turns do not change
    obtain ⟨turns, hturns⟩ := Nat.exists_eq_add_of_le (Nat.add_le_add hlen hsquare)
    rw [← getDescendants_turns (table.firstPage pages).tenants tenantId turns, ← hturns,
      ← hchildren tenantId (Or.inl rfl)]
    refine congrArg (List.map Tenant.tenantId)
      (Walk.search_congr (P := Below table tenantId) hchildren ?_ ?_).symm
    · intro id hid child hchild
      exact Or.inr (below_child hid hchild)
    · intro child hchild
      exact Or.inr (below_child (Or.inl rfl) (List.mem_reverse.mp hchild))

end Descendants

section Resolver
variable {table : TenantTable} {roles : List RoleBinding} {principal tenantId : String}

/-- What the resolver reads for a principal: the first page of the scan and the first page
of the principal's query. -/
def pagedDirectory (pages : Split table.tenants)
    (bindings : Split ((table.directory roles).rolesFor principal)) : Directory :=
  (table.firstPage pages).directory bindings.firstPage

theorem bound_of_firstPage {bindings : Split ((table.directory roles).rolesFor principal)}
    {key : String} {role : Role} (h : Bound bindings.firstPage principal key role) :
    Bound roles principal key role := by
  obtain ⟨b, hb, hrest⟩ := h
  exact ⟨b, (List.mem_filter.mp (bindings.sublist.subset hb)).1, hrest⟩

theorem inherits_of_firstPage {pages : Split table.tenants} {key : String} {role : Role}
    (h : Inherits (table.firstPage pages) tenantId key role) :
    Inherits table tenantId key role := by
  obtain ha | hp := h
  · exact Or.inl (ha.lift id fun _ _ => firstPage_parent)
  · exact Or.inr hp

/-- What has to be on the first pages for the resolver to answer at a tenant as it would
over the whole tables. -/
structure OnFirstPages (pages : Split table.tenants)
    (bindings : Split ((table.directory roles).rolesFor principal)) (tenantId : String) :
    Prop where
  /-- every binding that counts at the tenant from elsewhere -/
  inherited : ∀ key role, Bound roles principal key role → Inherits table tenantId key role →
    Bound bindings.firstPage principal key role
  /-- the way up to an ancestor with a binding, platform-admin elsewhere apart -/
  ancestors : ∀ key role, Bound roles principal key role →
    TransGen table.Parent tenantId key → ¬ (role=.platformAdmin ∧ key≠tenantId) →
    TransGen (table.firstPage pages).Parent tenantId key
  /-- the binding at the tenant itself, unless its role also counts from elsewhere -/
  direct : ∀ role, Bound roles principal tenantId role →
    (∀ key, Bound roles principal key role → ¬ Inherits table tenantId key role) →
    Bound bindings.firstPage principal tenantId role
  /-- every descendant, for a role that looks below the tenant -/
  descendants : ∀ key, ∀ role∈adminOrAudit, Bound roles principal key role →
    key=tenantId ∨ Inherits table tenantId key role →
    ∀ id∈(getDescendants table.tenants tenantId).map Tenant.tenantId,
      (table.firstPage pages).Stored id

section OnFirstPages
variable {pages : Split table.tenants}
  {bindings : Split ((table.directory roles).rolesFor principal)}

theorem OnFirstPages.inherits_iff (h : OnFirstPages pages bindings tenantId) (key : String)
    (role : Role) :
    Bound bindings.firstPage principal key role ∧
        Inherits (table.firstPage pages) tenantId key role ↔
      Bound roles principal key role ∧ Inherits table tenantId key role := by
  constructor
  · intro ⟨hb, hi⟩
    exact ⟨bound_of_firstPage hb, inherits_of_firstPage hi⟩
  · intro ⟨hb, hi⟩
    refine ⟨h.inherited key role hb hi, ?_⟩
    by_cases hp : role=.platformAdmin ∧ key≠tenantId
    · exact Or.inr hp
    · exact Or.inl (h.ancestors key role hb (hi.resolve_right hp) hp)

theorem OnFirstPages.roles_iff (h : OnFirstPages pages bindings tenantId) (role : Role) :
    role∈(pagedDirectory pages bindings).effectiveRolesAt principal tenantId ↔
      role∈(table.directory roles).effectiveRolesAt principal tenantId := by
  rw [pagedDirectory, mem_effectiveRolesAt_inherits, mem_effectiveRolesAt_inherits]
  simp only [h.inherits_iff]
  constructor
  · intro hr
    exact hr.imp_left bound_of_firstPage
  · intro hr
    by_cases hsome : ∃ key, Bound roles principal key role ∧ Inherits table tenantId key role
    · exact Or.inr hsome
    · have hb := hr.resolve_right hsome
      exact Or.inl (h.direct role hb fun key hbk hik => hsome ⟨key, hbk, hik⟩)

end OnFirstPages

theorem sees_below_iff : (∃ r∈(table.directory roles).effectiveRolesAt principal tenantId,
      r∈adminOrAudit) ↔
    ∃ key, ∃ role∈adminOrAudit, Bound roles principal key role ∧
      (key=tenantId ∨ Inherits table tenantId key role) := by
  simp only [mem_effectiveRolesAt_inherits]
  constructor
  · intro ⟨role, hr, ha⟩
    obtain hb | ⟨key, hb, hi⟩ := hr
    · exact ⟨tenantId, role, ha, hb, Or.inl rfl⟩
    · exact ⟨key, role, ha, hb, Or.inr hi⟩
  · intro ⟨key, role, ha, hb, hk⟩
    obtain rfl | hi := hk
    · exact ⟨role, Or.inl hb, ha⟩
    · exact ⟨role, Or.inr ⟨key, hb, hi⟩, ha⟩

/-- Given the same roles, the same tenants are visible exactly when the walks down agree
wherever there is one. -/
theorem visibleTenants_eq_iff {other : TenantTable} {roles' : List RoleBinding}
    (h : ∀ role, role∈(other.directory roles').effectiveRolesAt principal tenantId ↔
      role∈(table.directory roles).effectiveRolesAt principal tenantId) :
    (other.directory roles').visibleTenants principal tenantId =
      (table.directory roles).visibleTenants principal tenantId ↔
    ((∃ r∈(table.directory roles).effectiveRolesAt principal tenantId, r∈adminOrAudit) →
      (getDescendants other.tenants tenantId).map Tenant.tenantId =
        (getDescendants table.tenants tenantId).map Tenant.tenantId) := by
  have hcan : (other.directory roles').can principal tenantId .read =
      (table.directory roles).can principal tenantId .read := by
    rw [Bool.eq_iff_iff, can_iff, can_iff]
    simp only [h]
  have hany : ((other.directory roles').effectiveRolesAt principal tenantId).any
      (fun r => decide (r∈adminOrAudit)) =
      ((table.directory roles).effectiveRolesAt principal tenantId).any
        fun r => decide (r∈adminOrAudit) := by
    rw [Bool.eq_iff_iff, List.any_eq_true, List.any_eq_true]
    simp only [h]
  by_cases hsees : ∃ r∈(table.directory roles).effectiveRolesAt principal tenantId, r∈adminOrAudit
  · obtain ⟨r, hr, ha⟩ := hsees
    have hread := can_read_of_role hr
    have hlooks : ((table.directory roles).effectiveRolesAt principal tenantId).any
        (fun r => decide (r∈adminOrAudit))=true :=
      List.any_eq_true.mpr ⟨r, hr, decide_eq_true ha⟩
    simp only [Directory.visibleTenants, hcan, hany, hread, hlooks, if_true, List.cons.injEq,
      true_and]
    exact ⟨fun he _ => he, fun he => he ⟨r, hr, ha⟩⟩
  · have hlooks : ((table.directory roles).effectiveRolesAt principal tenantId).any
        (fun r => decide (r∈adminOrAudit))=false := by
      rw [List.any_eq_false]
      intro r hr ha
      exact hsees ⟨r, hr, of_decide_eq_true ha⟩
    simp only [Directory.visibleTenants, hcan, hany, hlooks, Bool.false_eq_true, if_false, hsees,
      false_implies]

/-- Over the first pages the resolver answers as over the whole tables exactly when what
counts at the tenant is on them. -/
theorem paged_authz_iff (table : TenantTable) (roles : List RoleBinding)
    (principal tenantId : String) (pages : Split table.tenants)
    (bindings : Split ((table.directory roles).rolesFor principal)) :
    SameAuthz (pagedDirectory pages bindings) (table.directory roles) principal tenantId ∧
      (pagedDirectory pages bindings).visibleTenants principal tenantId =
        (table.directory roles).visibleTenants principal tenantId ↔
    OnFirstPages pages bindings tenantId := by
  constructor
  · intro ⟨hsame, hvisible⟩
    have hinherited : ∀ key role, Bound roles principal key role →
        Inherits table tenantId key role → Bound bindings.firstPage principal key role ∧
          Inherits (table.firstPage pages) tenantId key role := by
      intro key role hb hi
      exact mem_inheritedFrom.mp ((hsame.inherited key role).mpr (mem_inheritedFrom.mpr ⟨hb, hi⟩))
    refine ⟨fun key role hb hi => (hinherited key role hb hi).1, ?_, ?_, ?_⟩
    · intro key role hb ha hnot
      obtain hup | hp := (hinherited key role hb (Or.inl ha)).2
      · exact hup
      · exact absurd hp hnot
    · intro role hb hnone
      have hrole := (hsame.roles role).mpr (mem_effectiveRolesAt_inherits.mpr (Or.inl hb))
      obtain hdirect | ⟨key, hbk, hik⟩ := mem_effectiveRolesAt_inherits.mp hrole
      · exact hdirect
      · exact absurd (inherits_of_firstPage hik) (hnone key (bound_of_firstPage hbk))
    · intro key role hadmin hb hk
      have hsees := sees_below_iff.mpr ⟨key, role, hadmin, hb, hk⟩
      have hwalk := (visibleTenants_eq_iff hsame.roles).mp hvisible hsees
      exact (getDescendants_firstPage_iff pages).mp hwalk
  · intro h
    refine ⟨⟨h.roles_iff, ?_⟩, ?_⟩
    · intro key role
      rw [pagedDirectory, mem_inheritedFrom, mem_inheritedFrom]
      exact h.inherits_iff key role
    · refine (visibleTenants_eq_iff h.roles_iff).mpr fun hsees => ?_
      obtain ⟨key, role, hadmin, hb, hk⟩ := sees_below_iff.mp hsees
      exact (getDescendants_firstPage_iff pages).mpr (h.descendants key role hadmin hb hk)

def pagedAgency : TenantTable where
  tenants := [{ tenantId := "treasury" }, { tenantId := "irs", parentId := some "treasury" }]
  nodup := by decide

def bureauOnSecondPage : Split pagedAgency.tenants where
  pages := [[{ tenantId := "treasury" }], [{ tenantId := "irs", parentId := some "treasury" }]]
  flatten_pages := rfl

theorem paged_bureau_denied :
    (pagedAgency.directory agencyBinding).effectiveRolesAt "alice" "irs"=[.agencyAdmin] ∧
    (pagedDirectory bureauOnSecondPage
      (Split.one ((pagedAgency.directory agencyBinding).rolesFor "alice"))).effectiveRolesAt
        "alice" "irs"=[] ∧
    ¬ SameAuthz (pagedDirectory bureauOnSecondPage
        (Split.one ((pagedAgency.directory agencyBinding).rolesFor "alice")))
      (pagedAgency.directory agencyBinding) "alice" "irs" := by
  refine ⟨by decide, by decide, ?_⟩
  intro h
  have hrole := (h.roles .agencyAdmin).mpr (by decide)
  revert hrole
  decide

end Resolver
end Sovereign
