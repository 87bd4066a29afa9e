import Sovereign.Tenancy
import Sovereign.Trace
import Sovereign.Walk
import Mathlib.Data.List.Nodup

/-! The tenant table as a graph of parent pointers. Roles are inherited along it, upwards
from a tenant through stored tenants; visibility walks it downwards. -/
namespace Sovereign
open Relation

structure TenantTable where
  tenants : List Tenant := []
  nodup : (tenants.map Tenant.tenantId).Nodup := by decide

namespace TenantTable
variable (table : TenantTable)

def Stored (tenantId : String) : Prop := ∃ t∈table.tenants, t.tenantId=tenantId

instance (tenantId : String) : Decidable (table.Stored tenantId) :=
  inferInstanceAs (Decidable (∃ t∈table.tenants, t.tenantId=tenantId))

/-- From a stored tenant to the stored tenant its `parent_id` names. -/
def Parent (child parent : String) : Prop :=
  (∃ t∈table.tenants, t.tenantId=child ∧ t.parentId=some parent) ∧ parent≠"" ∧
    table.Stored parent

/-! The table under `TenantStore.put` and `TenantStore.delete`. Items stand in the order
a scan returns them, which a hash of the key fixes. -/

def others (tenantId : String) : List Tenant :=
  table.tenants.filter fun t => decide (t.tenantId≠tenantId)

theorem others_nodup (tenantId : String) : ((table.others tenantId).map Tenant.tenantId).Nodup :=
  table.nodup.sublist (List.filter_sublist.map Tenant.tenantId)

def delete (tenantId : String) : TenantTable where
  tenants := table.others tenantId
  nodup := table.others_nodup tenantId

def put (hash : String → Nat) (tenant : Tenant) : TenantTable :=
  let before := fun t : Tenant => decide (hash t.tenantId ≤ hash tenant.tenantId)
  let rest := table.others tenant.tenantId
  { tenants := rest.takeWhile before ++ tenant::rest.dropWhile before
    nodup := by
      have hp : (rest.takeWhile before ++ tenant::rest.dropWhile before).Perm (tenant::rest) := by
        refine List.perm_middle.trans (List.Perm.cons tenant ?_)
        rw [List.takeWhile_append_dropWhile]
      rw [(hp.map Tenant.tenantId).nodup_iff]
      refine List.nodup_cons.mpr ⟨?_, table.others_nodup tenant.tenantId⟩
      intro hm
      obtain ⟨t, ht, he⟩ := List.mem_map.mp hm
      have hne := (List.mem_filter.mp ht).2
      simp [he] at hne }

end TenantTable

inductive TenantOp where
  | put (tenant : Tenant)
  | delete (tenantId : String)

def TenantOp.apply (hash : String → Nat) (table : TenantTable) : TenantOp → TenantTable
  | .put tenant => table.put hash tenant
  | .delete tenantId => table.delete tenantId

section Ancestors
variable {table : TenantTable}

theorem tenantById_of_mem {t : Tenant} (h : t∈table.tenants) :
    tenantById table.tenants t.tenantId=some t := by
  cases hf : tenantById table.tenants t.tenantId with
  | none =>
    have hno := List.find?_eq_none.mp hf t (List.mem_reverse.mpr h)
    simp at hno
  | some x =>
    obtain ⟨hx, he⟩ := tenantById_mem hf
    exact congrArg some (List.inj_on_of_nodup_map table.nodup hx h he)

def parentOf (tenants : List Tenant) (tenantId : String) : Option String := do
  let t ← tenantById tenants tenantId
  let parentId ← t.parentId
  guard (parentId≠"")
  let _ ← tenantById tenants parentId
  return parentId

theorem parentOf_eq_some {child parent : String} :
    parentOf table.tenants child=some parent ↔ table.Parent child parent := by
  constructor
  · intro h
    simp only [parentOf, Option.bind_eq_bind, Option.bind_eq_some_iff, guard] at h
    obtain ⟨t, ht, p, hp, _, hg, y, hy, he⟩ := h
    cases he
    refine ⟨⟨t, (tenantById_mem ht).1, (tenantById_mem ht).2, hp⟩, ?_, y, tenantById_mem hy⟩
    intro hempty
    simp [hempty] at hg
  · rintro ⟨⟨t, ht, rfl, hp⟩, hne, y, hy, rfl⟩
    simp [parentOf, tenantById_of_mem ht, hp, hne, tenantById_of_mem hy]

/-- The walk of `get_ancestors`, which marks parent ids, meets the ids that following
stored parents meets. -/
theorem walkAncestors_follow (tenants : List Tenant) (n : Nat) (tenantId : String)
    (seen : List String) :
    (walkAncestors tenants n (tenantById tenants tenantId) seen).map Tenant.tenantId =
      Walk.follow (parentOf tenants) n tenantId seen := by
  induction n generalizing tenantId seen with
  | zero => rfl
  | succ n ih =>
    cases ht : tenantById tenants tenantId with
    | none => simp [walkAncestors, Walk.follow, parentOf, ht]
    | some t =>
      cases hp : t.parentId with
      | none => simp [walkAncestors, Walk.follow, parentOf, ht, hp]
      | some parentId =>
        by_cases he : parentId=""
        · simp [walkAncestors, Walk.follow, parentOf, ht, hp, he]
        · cases hy : tenantById tenants parentId with
          | none => simp [walkAncestors, Walk.follow, parentOf, ht, hp, hy]
          | some parent =>
            have hnext : parentOf tenants tenantId=some parentId := by
              simp [parentOf, ht, hp, he, hy]
            have hid : parent.tenantId=parentId := (tenantById_mem hy).2
            have hrest := ih parentId (parentId::seen)
            rw [hy] at hrest
            by_cases hs : parentId∈seen
            · simp [walkAncestors, Walk.follow, hp, he, hs, hnext]
            · simp [walkAncestors, Walk.follow, hp, he, hs, hnext, hy, hid, hrest]

/-- The ancestors of a tenant are the stored tenants its parent pointers lead to. -/
theorem mem_getAncestors {tenantId ancestor : String} :
    ancestor∈(getAncestors table.tenants tenantId).map Tenant.tenantId ↔
      TransGen table.Parent tenantId ancestor := by
  rw [getAncestors, walkAncestors_follow]
  have hU : ∀ x y, parentOf table.tenants x=some y → y∈table.tenants.map Tenant.tenantId := by
    intro x y h
    obtain ⟨_, _, t, ht, he⟩ := parentOf_eq_some.mp h
    exact List.mem_map.mpr ⟨t, ht, he⟩
  have hedge : Walk.Edge (parentOf table.tenants)=table.Parent := by
    funext x y
    exact propext parentOf_eq_some
  rw [Walk.mem_follow hU (by simp), hedge]

end Ancestors

section Roles

def Bound (roles : List RoleBinding) (principal tenantId : String) (role : Role) : Prop :=
  ∃ b∈roles, b.principal=principal ∧ b.tenantId=tenantId ∧ b.role=role

theorem mem_rolesAt {d : Directory} {principal tenantId : String} {role : Role} :
    role∈d.rolesAt principal tenantId ↔ Bound d.roles principal tenantId role := by
  simp only [Directory.rolesAt, Directory.rolesFor, List.mem_map, List.mem_filter,
    decide_eq_true_eq, Bound]
  constructor
  · rintro ⟨b, ⟨⟨hb, hp⟩, ht⟩, hr⟩
    exact ⟨b, hb, hp, ht, hr⟩
  · rintro ⟨b, hb, hp, ht, hr⟩
    exact ⟨b, ⟨⟨hb, hp⟩, ht⟩, hr⟩

def TenantTable.directory (table : TenantTable) (roles : List RoleBinding) : Directory :=
  { tenants := table.tenants, roles }

variable {table : TenantTable} {roles : List RoleBinding} {principal : String}

theorem mem_effectiveRolesAt {tenantId : String} {role : Role} :
    role∈(table.directory roles).effectiveRolesAt principal tenantId ↔
      Bound roles principal tenantId role ∨
      (∃ ancestor, TransGen table.Parent tenantId ancestor ∧
        Bound roles principal ancestor role) ∨
      (role=.platformAdmin ∧ ∃ anywhere, Bound roles principal anywhere .platformAdmin) := by
  have hinherited : (∃ a∈getAncestors table.tenants tenantId,
      role∈(table.directory roles).rolesAt principal a.tenantId) ↔
      ∃ ancestor, TransGen table.Parent tenantId ancestor ∧
        Bound roles principal ancestor role := by
    simp only [← mem_getAncestors, List.mem_map, mem_rolesAt]
    constructor
    · rintro ⟨a, ha, hr⟩
      exact ⟨a.tenantId, ⟨a, ha, rfl⟩, hr⟩
    · rintro ⟨_, ⟨a, ha, rfl⟩, hr⟩
      exact ⟨a, ha, hr⟩
  have hplatform : role∈((table.directory roles).rolesFor principal |>.filter fun b =>
      decide (b.role=.platformAdmin ∧ b.tenantId≠tenantId)).map RoleBinding.role ↔
      role=.platformAdmin ∧
        ∃ anywhere, anywhere≠tenantId ∧ Bound roles principal anywhere .platformAdmin := by
    simp only [Directory.rolesFor, List.mem_map, List.mem_filter, decide_eq_true_eq]
    constructor
    · rintro ⟨b, ⟨⟨hb, hp⟩, hr, ht⟩, rfl⟩
      exact ⟨hr, b.tenantId, ht, b, hb, hp, rfl, hr⟩
    · rintro ⟨rfl, _, ht, b, hb, hp, rfl, hr⟩
      exact ⟨b, ⟨⟨hb, hp⟩, hr, ht⟩, hr⟩
  rw [Directory.effectiveRolesAt, List.mem_append, List.mem_append, List.mem_flatMap, mem_rolesAt,
    hplatform, or_assoc]
  refine or_congr_right' fun hdirect => or_congr hinherited (and_congr_right fun hr => ?_)
  -- a platform-admin binding at the tenant itself is a direct one
  constructor
  · rintro ⟨anywhere, _, hb⟩
    exact ⟨anywhere, hb⟩
  · rintro ⟨anywhere, hb⟩
    refine ⟨anywhere, ?_, hb⟩
    rintro rfl
    exact hdirect (hr ▸ hb)

/-- Roles pass from a tenant to every tenant whose parents lead to it. -/
theorem effectiveRolesAt_inherited {tenantId ancestor : String} {role : Role}
    (h : TransGen table.Parent tenantId ancestor)
    (hr : role∈(table.directory roles).effectiveRolesAt principal ancestor) :
    role∈(table.directory roles).effectiveRolesAt principal tenantId := by
  rw [mem_effectiveRolesAt] at hr ⊢
  obtain hb | ⟨a, ha, hb⟩ | hp := hr
  · exact Or.inr (Or.inl ⟨ancestor, h, hb⟩)
  · exact Or.inr (Or.inl ⟨a, h.trans ha, hb⟩)
  · exact Or.inr (Or.inr hp)

theorem can_iff {d : Directory} {tenantId : String} {action : Action} :
    d.can principal tenantId action=true ↔
      ∃ r∈d.effectiveRolesAt principal tenantId, action∈defaultRoleActions r := by
  simp [Directory.can]

theorem can_inherited {tenantId ancestor : String} {action : Action}
    (h : TransGen table.Parent tenantId ancestor)
    (hc : (table.directory roles).can principal ancestor action=true) :
    (table.directory roles).can principal tenantId action=true := by
  obtain ⟨r, hr, ha⟩ := can_iff.mp hc
  exact can_iff.mpr ⟨r, effectiveRolesAt_inherited h hr, ha⟩

/-- Role inheritance is reachability: a role is held by a binding at the tenant, at a
stored tenant its parent pointers lead to, or as platform-admin anywhere. The walk stops
on every graph, and what may be done at a parent may be done at its children. -/
theorem role_inheritance_exact (table : TenantTable) (roles : List RoleBinding)
    (principal tenantId : String) :
    (∀ role, role∈(table.directory roles).effectiveRolesAt principal tenantId ↔
      Bound roles principal tenantId role ∨
      (∃ ancestor, TransGen table.Parent tenantId ancestor ∧
        Bound roles principal ancestor role) ∨
      (role=.platformAdmin ∧ ∃ anywhere, Bound roles principal anywhere .platformAdmin)) ∧
    (∀ turns, walkAncestors table.tenants (table.tenants.length+1+turns)
        (tenantById table.tenants tenantId) []=getAncestors table.tenants tenantId) ∧
    (∀ child∈table.tenants, child.tenantId=tenantId → ∀ parent, child.parentId=some parent →
      parent≠"" → table.Stored parent → ∀ action,
      (table.directory roles).can principal parent action=true →
      (table.directory roles).can principal tenantId action=true) := by
  refine ⟨fun role => mem_effectiveRolesAt, ?_, ?_⟩
  · intro turns
    exact walkAncestors_fuel table.tenants (table.tenants.length+1) turns _ [] List.nodup_nil
      (by simp) (by simp)
  · intro child hchild hid parent hparent hne hstored action hcan
    exact can_inherited (TransGen.single ⟨⟨child, hchild, hid, hparent⟩, hne, hstored⟩) hcan

end Roles

section Visible

/-- `children_by_parent.get(parent_id, [])`; an empty `parent_id` is no parent. -/
def childrenByParent (tenants : List Tenant) (parentId : String) : List Tenant :=
  tenants.filter fun t => decide (t.parentId=some parentId ∧ parentId≠"")

/- Every turn of the loop takes one tenant off the stack, and a tenant pushes its children
   once: these turns are enough (`getDescendants_turns`). -/
def getDescendants (tenants : List Tenant) (tenantId : String) : List Tenant :=
  Walk.search Tenant.tenantId (childrenByParent tenants)
    (tenants.length+tenants.length*tenants.length) (childrenByParent tenants tenantId).reverse []

def adminOrAudit : List Role := [.platformAdmin, .agencyAdmin, .bureauAdmin, .auditor]

def Directory.visibleTenants (d : Directory) (principal tenantId : String) : List String :=
  let roles := d.effectiveRolesAt principal tenantId
  if d.can principal tenantId .read then
    if roles.any (fun r => decide (r∈adminOrAudit)) then
      tenantId::(getDescendants d.tenants tenantId).map Tenant.tenantId
    else [tenantId]
  else []

theorem descendants_bounded (tenants : List Tenant) (tenantId : String) :
    Walk.Bounded Tenant.tenantId (childrenByParent tenants) (tenants.map Tenant.tenantId)
      tenants.length (tenants.length+tenants.length*tenants.length)
      (childrenByParent tenants tenantId).reverse [] where
  nodup := List.nodup_nil
  seen_subset := by simp
  stack_mem := fun s hs =>
    List.mem_map.mpr ⟨s, (List.mem_filter.mp (List.mem_reverse.mp hs)).1, rfl⟩
  child_mem := fun a y hy => List.mem_map.mpr ⟨y, (List.mem_filter.mp hy).1, rfl⟩
  child_length := fun a => List.length_filter_le _ tenants
  turns := by
    have h : (childrenByParent tenants tenantId).length≤tenants.length :=
      List.length_filter_le _ tenants
    simp only [List.length_reverse, List.length_map, List.length_nil]
    omega

theorem getDescendants_turns (tenants : List Tenant) (tenantId : String) (turns : Nat) :
    Walk.search Tenant.tenantId (childrenByParent tenants)
      (tenants.length+tenants.length*tenants.length+turns)
      (childrenByParent tenants tenantId).reverse []=getDescendants tenants tenantId :=
  Walk.search_turns (descendants_bounded tenants tenantId) turns

variable {table : TenantTable} {roles : List RoleBinding} {principal tenantId : String}

/-- Descendants are what child pointers lead to, from a root that need not be stored. -/
theorem mem_getDescendants {descendant : String} :
    descendant∈(getDescendants table.tenants tenantId).map Tenant.tenantId ↔
      ∃ child∈childrenByParent table.tenants tenantId,
        ReflTransGen (Walk.Child Tenant.tenantId (childrenByParent table.tenants))
          child.tenantId descendant := by
  rw [getDescendants, Walk.mem_search (descendants_bounded table.tenants tenantId)]
  simp only [List.mem_reverse]

theorem parent_of_child {child : Tenant} {parentId : String}
    (h : child∈childrenByParent table.tenants parentId) (hs : table.Stored parentId) :
    table.Parent child.tenantId parentId := by
  obtain ⟨hm, hp⟩ := List.mem_filter.mp h
  have hp : child.parentId=some parentId ∧ parentId≠"" := by simpa using hp
  exact ⟨⟨child, hm, rfl, hp.1⟩, hp.2, hs⟩

/-- Below a stored tenant, walking down is walking up backwards. -/
theorem ancestor_of_descendant {root descendant : String} (hs : table.Stored root)
    (h : ReflTransGen (Walk.Child Tenant.tenantId (childrenByParent table.tenants)) root
      descendant) :
    table.Stored descendant ∧ ReflTransGen table.Parent descendant root := by
  induction h with
  | refl => exact ⟨hs, ReflTransGen.refl⟩
  | tail _ hstep ih =>
    obtain ⟨child, hchild, rfl⟩ := hstep
    refine ⟨⟨child, (List.mem_filter.mp hchild).1, rfl⟩, ?_⟩
    exact ReflTransGen.head (parent_of_child hchild ih.1) ih.2

theorem can_below {root descendant : String} {action : Action} (hs : table.Stored root)
    (h : ReflTransGen (Walk.Child Tenant.tenantId (childrenByParent table.tenants)) root
      descendant)
    (hc : (table.directory roles).can principal root action=true) :
    (table.directory roles).can principal descendant action=true := by
  obtain he | ht := reflTransGen_iff_eq_or_transGen.mp (ancestor_of_descendant hs h).2
  · exact he ▸ hc
  · exact can_inherited ht hc

/-- Every role may read. -/
theorem can_read_of_role {role : Role}
    (h : role∈(table.directory roles).effectiveRolesAt principal tenantId) :
    (table.directory roles).can principal tenantId .read=true :=
  can_iff.mpr ⟨role, h, by cases role <;> decide⟩

/-- Where a tenant has no stored parent only its own bindings and platform-admin count. -/
theorem mem_effectiveRolesAt_root (h : ∀ parent, ¬ table.Parent tenantId parent) {role : Role} :
    role∈(table.directory roles).effectiveRolesAt principal tenantId ↔
      Bound roles principal tenantId role ∨
      (role=.platformAdmin ∧ ∃ anywhere, Bound roles principal anywhere .platformAdmin) := by
  have hno : ∀ a, ¬ TransGen table.Parent tenantId a := by
    intro a ha
    obtain ⟨b, hb, _⟩ := TransGen.head'_iff.mp ha
    exact h b hb
  rw [mem_effectiveRolesAt]
  constructor
  · rintro (hb | ⟨a, ha, _⟩ | hp)
    · exact Or.inl hb
    · exact absurd ha (hno a)
    · exact Or.inr hp
  · rintro (hb | hp)
    · exact Or.inl hb
    · exact Or.inr (Or.inr hp)

theorem mem_visibleTenants {id : String} :
    id∈(table.directory roles).visibleTenants principal tenantId ↔
      (table.directory roles).can principal tenantId .read=true ∧
      (id=tenantId ∨
        (∃ r∈(table.directory roles).effectiveRolesAt principal tenantId, r∈adminOrAudit) ∧
        id∈(getDescendants table.tenants tenantId).map Tenant.tenantId) := by
  simp only [Directory.visibleTenants]
  split
  · next hc =>
    split
    · next ha =>
      have ha : ∃ r∈(table.directory roles).effectiveRolesAt principal tenantId,
          r∈adminOrAudit := by simpa using ha
      simp only [List.mem_cons, hc, ha, true_and]
      rfl
    · next ha =>
      have ha : ¬ ∃ r∈(table.directory roles).effectiveRolesAt principal tenantId,
          r∈adminOrAudit := by simpa using ha
      simp only [List.mem_singleton, hc, ha, true_and, false_and, or_false]
  · next hc => simp [hc]

/-- Where the walk down cannot tell more than the walk up: the root is stored, the
principal is platform-admin somewhere or holds no other role at the root that looks below
it, or has a binding at every child of the root. -/
def Sighted (table : TenantTable) (roles : List RoleBinding) (principal tenantId : String) :
    Prop :=
  table.Stored tenantId ∨ (∃ anywhere, Bound roles principal anywhere .platformAdmin) ∨
  (∀ role∈[Role.agencyAdmin, .bureauAdmin, .auditor], ¬ Bound roles principal tenantId role) ∨
  ∀ child∈childrenByParent table.tenants tenantId, ∃ role, Bound roles principal child.tenantId role

theorem readable_of_sighted (h : Sighted table roles principal tenantId) {id : String}
    (hid : id∈(table.directory roles).visibleTenants principal tenantId) :
    (table.directory roles).can principal id .read=true := by
  obtain ⟨hcan, rfl | ⟨⟨r, hr, hadmin⟩, hdesc⟩⟩ := mem_visibleTenants.mp hid
  · exact hcan
  obtain ⟨child, hchild, hpath⟩ := mem_getDescendants.mp hdesc
  have hstored : table.Stored child.tenantId := ⟨child, (List.mem_filter.mp hchild).1, rfl⟩
  have hplatform : ∀ anywhere, Bound roles principal anywhere .platformAdmin →
      (table.directory roles).can principal id .read=true := fun anywhere hb =>
    can_read_of_role (mem_effectiveRolesAt.mpr (Or.inr (Or.inr ⟨rfl, anywhere, hb⟩)))
  by_cases hs : table.Stored tenantId
  · exact can_below hs (ReflTransGen.head ⟨child, hchild, rfl⟩ hpath) hcan
  obtain hs' | ⟨anywhere, hb⟩ | hno | hall := h
  · exact absurd hs' hs
  · exact hplatform anywhere hb
  · -- an unstored root inherits nothing, so the role that looks below it is bound at it
    have hroot : ∀ parent, ¬ table.Parent tenantId parent :=
      fun parent ⟨⟨t, ht, he, _⟩, _⟩ => hs ⟨t, ht, he⟩
    obtain hb | ⟨_, anywhere, hb⟩ := (mem_effectiveRolesAt_root hroot).mp hr
    · cases r with
      | platformAdmin => exact hplatform tenantId hb
      | agencyAdmin => exact absurd hb (hno _ (by simp))
      | bureauAdmin => exact absurd hb (hno _ (by simp))
      | auditor => exact absurd hb (hno _ (by simp))
      | programTeam => exact absurd hadmin (by decide)
    · exact hplatform anywhere hb
  · obtain ⟨role, hb⟩ := hall child hchild
    exact can_below hstored hpath (can_read_of_role (mem_effectiveRolesAt.mpr (Or.inl hb)))

theorem sighted_of_readable
    (h : ∀ id∈(table.directory roles).visibleTenants principal tenantId,
      (table.directory roles).can principal id .read=true) :
    Sighted table roles principal tenantId := by
  by_contra hsight
  simp only [Sighted, not_or, not_forall, not_exists] at hsight
  obtain ⟨hs, hnp, ⟨role, hrole, hb⟩, child, hchild, hnone⟩ := hsight
  have hb : Bound roles principal tenantId role := not_not.mp hb
  have hr : role∈(table.directory roles).effectiveRolesAt principal tenantId :=
    mem_effectiveRolesAt.mpr (Or.inl hb)
  have hadmin : role∈adminOrAudit := List.mem_cons_of_mem _ hrole
  have hvisible : child.tenantId∈(table.directory roles).visibleTenants principal tenantId := by
    refine mem_visibleTenants.mpr ⟨can_read_of_role hr, Or.inr ⟨⟨role, hr, hadmin⟩, ?_⟩⟩
    exact mem_getDescendants.mpr ⟨child, hchild, ReflTransGen.refl⟩
  -- the child's only parent is the root, which is not stored
  have hroot : ∀ parent, ¬ table.Parent child.tenantId parent := by
    rintro parent ⟨⟨t, ht, he, hp⟩, _, hst⟩
    obtain ⟨hm, hcp⟩ := List.mem_filter.mp hchild
    have hcp : child.parentId=some tenantId ∧ tenantId≠"" := by simpa using hcp
    have htc : t=child := List.inj_on_of_nodup_map table.nodup ht hm he
    rw [htc, hcp.1] at hp
    exact hs (Option.some.inj hp ▸ hst)
  obtain ⟨r, hr', _⟩ := can_iff.mp (h child.tenantId hvisible)
  obtain hbc | ⟨_, anywhere, hbp⟩ := (mem_effectiveRolesAt_root hroot).mp hr'
  · exact hnone r hbc
  · exact hnp anywhere hbp

/-- In every reachable tenant table, what is visible from a tenant may be read exactly
when the walk down is sighted. -/
theorem visible_readable_iff (hash : String → Nat) (ops : List TenantOp)
    (roles : List RoleBinding) (principal tenantId : String) :
    (∀ id∈((Trace.exec (TenantOp.apply hash) {} ops).directory roles).visibleTenants principal
        tenantId,
      ((Trace.exec (TenantOp.apply hash) {} ops).directory roles).can principal id .read=true) ↔
    Sighted (Trace.exec (TenantOp.apply hash) {} ops) roles principal tenantId :=
  ⟨sighted_of_readable, fun h _ hid => readable_of_sighted h hid⟩

def orphaning : List TenantOp :=
  [.put { tenantId := "treasury" }, .put { tenantId := "irs", parentId := some "treasury" },
    .delete "treasury"]

def agencyBinding : List RoleBinding :=
  [{ principal := "alice", tenantId := "treasury", role := .agencyAdmin }]

theorem deleted_agency_still_sees :
    "irs"∈((Trace.exec (TenantOp.apply String.length) {} orphaning).directory
      agencyBinding).visibleTenants "alice" "treasury" ∧
    ((Trace.exec (TenantOp.apply String.length) {} orphaning).directory
      agencyBinding).can "alice" "irs" .read=false := by
  decide

end Visible
end Sovereign
