import Sovereign.GroupSync
import Sovereign.TenantTree

/-! Authority over time. Grants, revocations and syncs of IdP groups come in any order; what a
principal may do at a tenant is told by the last of them at each tenant, and by the tree. -/
namespace Sovereign
open Relation

namespace RoleStore
variable (store : RoleStore)

def delete (principal tenantId : String) : RoleStore where
  bindings := store.others principal tenantId
  nodup := store.nodup.sublist (List.filter_sublist.map _)

variable {store}

theorem get_delete (p t principal tenantId : String) :
    (store.delete p t).get principal tenantId=
      if (p, t)=(principal, tenantId) then none else store.get principal tenantId := by
  refine Option.ext fun b => ?_
  rw [get_eq_some]
  split
  · next h =>
    obtain ⟨rfl, rfl⟩ := Prod.mk.inj h
    simp only [reduceCtorEq, iff_false]
    intro hb
    have hne := (List.mem_filter.mp hb.1).2
    simp [hb.2] at hne
  · next h =>
    rw [get_eq_some]
    refine and_congr_left fun hb => ?_
    have hkey : (b.principal, b.tenantId)≠(p, t) := by
      rw [hb.1, hb.2]
      exact Ne.symm h
    simp only [delete, others, List.mem_filter, hkey, ne_eq, not_false_eq_true, decide_true,
      and_true]

end RoleStore

inductive RoleOp where
  | grant (binding : GrantedBinding)
  | revoke (principal tenantId : String)
  | sync (options : SyncOptions) (user : TokenUser)

namespace RoleOp

def apply (store : RoleStore) : RoleOp → RoleStore
  | .grant binding => store.put binding
  | .revoke principal tenantId => store.delete principal tenantId
  | .sync options user => (syncGroupsToRoles options user store).1

def principal : RoleOp → String
  | .grant binding => binding.principal
  | .revoke principal _ => principal
  | .sync _ user => user.principal

def effect (principal tenantId : String) : RoleOp → Option (Option GrantedBinding)
  | .grant binding =>
    if (binding.principal, binding.tenantId)=(principal, tenantId) then some (some binding) else none
  | .revoke p t => if (p, t)=(principal, tenantId) then some none else none
  | .sync options user =>
    if user.principal=principal then (lastWritten options user tenantId).map some else none

theorem get_sync_other {options : SyncOptions} {user : TokenUser} {store : RoleStore}
    {principal : String} (h : user.principal≠principal) (tenantId : String) :
    (syncGroupsToRoles options user store).1.get principal tenantId=
      store.get principal tenantId := by
  have hnone : (written options user).reverse.find?
      (fun b => decide ((b.principal, b.tenantId)=(principal, tenantId)))=none := by
    rw [List.find?_eq_none]
    intro b hb
    obtain ⟨group, _, hgroup⟩ := mem_written.mp (List.mem_reverse.mp hb)
    obtain ⟨t, r, _, rfl⟩ := binding_eq_some.mp hgroup
    simp [h]
  rw [syncGroupsToRoles_eq, RoleStore.get_puts, hnone, Option.none_or]

theorem get_apply (store : RoleStore) (op : RoleOp) (principal tenantId : String) :
    (op.apply store).get principal tenantId=
      (op.effect principal tenantId).getD (store.get principal tenantId) := by
  cases op with
  | grant binding =>
    simp only [apply, effect, RoleStore.get_put]
    split <;> rfl
  | revoke p t =>
    simp only [apply, effect, RoleStore.get_delete]
    split <;> rfl
  | sync options user =>
    simp only [apply, effect]
    split
    · next h =>
      subst h
      rw [get_sync]
      cases lastWritten options user tenantId <;> rfl
    · next h => exact get_sync_other h tenantId

theorem effect_other {op : RoleOp} {principal : String} (h : op.principal≠principal)
    (tenantId : String) : op.effect principal tenantId=none := by
  cases op with
  | grant binding =>
    refine if_neg fun he => h ?_
    exact (Prod.mk.inj he).1
  | revoke p t =>
    refine if_neg fun he => h ?_
    exact (Prod.mk.inj he).1
  | sync options user => exact if_neg h

end RoleOp

def roleTable (ops : List RoleOp) : RoleStore := ops.foldl RoleOp.apply {}

def Stands (ops : List RoleOp) (principal tenantId : String) (role : Role) : Prop :=
  ∃ before op after b, ops=before++op::after ∧
    op.effect principal tenantId=some (some b) ∧ b.role=role ∧
    ∀ later∈after, later.effect principal tenantId=none

section Runs
variable {principal tenantId : String} {ops : List RoleOp}

theorem get_roleTable (principal tenantId : String) (ops : List RoleOp) (store : RoleStore) :
    (ops.foldl RoleOp.apply store).get principal tenantId=
      (ops.reverse.findSome? (RoleOp.effect principal tenantId)).getD
        (store.get principal tenantId) := by
  induction ops generalizing store with
  | nil => rfl
  | cons op ops ih =>
    rw [List.foldl_cons, ih, RoleOp.get_apply, List.reverse_cons, List.findSome?_append]
    cases ops.reverse.findSome? (RoleOp.effect principal tenantId) with
    | some x => rfl
    | none =>
      cases h : op.effect principal tenantId with
      | some x => simp [h]
      | none => simp [h]

theorem findSome_reverse_iff {α β : Type*} {f : α → Option β} {xs : List α} {y : β} :
    xs.reverse.findSome? f=some y ↔
      ∃ before x after, xs=before++x::after ∧ f x=some y ∧ ∀ later∈after, f later=none := by
  rw [List.findSome?_eq_some_iff]
  constructor
  · rintro ⟨l, x, r, he, hx, hnone⟩
    refine ⟨r.reverse, x, l.reverse, ?_, hx, fun later hl => hnone later (List.mem_reverse.mp hl)⟩
    have hrev := congrArg List.reverse he
    simpa using hrev
  · rintro ⟨before, x, after, rfl, hx, hnone⟩
    exact ⟨after.reverse, x, before.reverse, by simp, hx,
      fun later hl => hnone later (List.mem_reverse.mp hl)⟩

theorem stands_iff {role : Role} : Stands ops principal tenantId role ↔
    ∃ b, (roleTable ops).get principal tenantId=some b ∧ b.role=role := by
  have hempty : ({} : RoleStore).get principal tenantId=none := rfl
  rw [roleTable, get_roleTable, hempty]
  constructor
  · rintro ⟨before, op, after, b, he, hop, hrole, hlater⟩
    refine ⟨b, ?_, hrole⟩
    rw [findSome_reverse_iff.mpr ⟨before, op, after, he, hop, hlater⟩]
    rfl
  · rintro ⟨b, hb, hrole⟩
    cases hf : ops.reverse.findSome? (RoleOp.effect principal tenantId) with
    | none =>
      rw [hf] at hb
      cases hb
    | some x =>
      rw [hf, Option.getD_some] at hb
      subst hb
      obtain ⟨before, op, after, he, hop, hlater⟩ := findSome_reverse_iff.mp hf
      exact ⟨before, op, after, b, he, hop, hrole, hlater⟩

end Runs

def RoleStore.roles (store : RoleStore) : List RoleBinding :=
  store.bindings.map GrantedBinding.toRoleBinding

theorem bound_iff {ops : List RoleOp} {principal tenantId : String} {role : Role} :
    Bound (roleTable ops).roles principal tenantId role ↔ Stands ops principal tenantId role := by
  rw [stands_iff]
  constructor
  · rintro ⟨x, hx, hp, ht, hr⟩
    obtain ⟨b, hb, rfl⟩ := List.mem_map.mp hx
    exact ⟨b, RoleStore.get_eq_some.mpr ⟨hb, hp, ht⟩, hr⟩
  · rintro ⟨b, hb, hr⟩
    obtain ⟨hm, hp, ht⟩ := RoleStore.get_eq_some.mp hb
    exact ⟨b.toRoleBinding, List.mem_map_of_mem hm, hp, ht, hr⟩

/-- Operations in the name of others leave a principal's bindings alone. -/
theorem get_filter (principal tenantId : String) (ops : List RoleOp) :
    (roleTable (ops.filter fun op => decide (op.principal=principal))).get principal tenantId=
      (roleTable ops).get principal tenantId := by
  rw [roleTable, roleTable, get_roleTable, get_roleTable, ← List.filter_reverse]
  congr 1
  induction ops.reverse with
  | nil => rfl
  | cons op rest ih =>
    by_cases h : op.principal=principal
    · rw [List.filter_cons_of_pos (by simpa using h), List.findSome?_cons, List.findSome?_cons, ih]
    · rw [List.filter_cons_of_neg (by simpa using h), ih, List.findSome?_cons,
        RoleOp.effect_other h]

/-- Over every sequence of grants, revocations and syncs, and in every tenant tree: a principal may
act at a tenant exactly by a role that the last operation to touch a binding of theirs gave them,
at the tenant, at an ancestor or, as platform-admin, anywhere. What is done in the name of other
principals makes no difference. -/
theorem authority_provenance (table : TenantTable) (ops : List RoleOp)
    (principal tenantId : String) (action : Action) :
    ((table.directory (roleTable ops).roles).can principal tenantId action=true ↔
      ∃ role held, action∈defaultRoleActions role ∧ Stands ops principal held role ∧
        (held=tenantId ∨ TransGen table.Parent tenantId held ∨ role=.platformAdmin)) ∧
    (table.directory (roleTable ops).roles).can principal tenantId action=
      (table.directory (roleTable (ops.filter fun op => decide (op.principal=principal))).roles).can
        principal tenantId action := by
  have hcan : ∀ ops : List RoleOp,
      (table.directory (roleTable ops).roles).can principal tenantId action=true ↔
      ∃ role held, action∈defaultRoleActions role ∧ Stands ops principal held role ∧
        (held=tenantId ∨ TransGen table.Parent tenantId held ∨ role=.platformAdmin) := by
    intro ops
    simp only [can_iff, mem_effectiveRolesAt, bound_iff]
    constructor
    · rintro ⟨role, h | ⟨ancestor, ha, h⟩ | ⟨rfl, anywhere, h⟩, haction⟩
      · exact ⟨role, tenantId, haction, h, .inl rfl⟩
      · exact ⟨role, ancestor, haction, h, .inr (.inl ha)⟩
      · exact ⟨_, anywhere, haction, h, .inr (.inr rfl)⟩
    · rintro ⟨role, held, haction, h, rfl | ha | rfl⟩
      · exact ⟨role, .inl h, haction⟩
      · exact ⟨role, .inr (.inl ⟨held, ha, h⟩), haction⟩
      · exact ⟨_, .inr (.inr ⟨rfl, held, h⟩), haction⟩
  refine ⟨hcan ops, ?_⟩
  rw [Bool.eq_iff_iff, hcan, hcan]
  simp only [stands_iff, get_filter]

end Sovereign
