import Sovereign.Json
import Mathlib.Data.List.Perm.Subperm

/-! The tenant tree, role bindings and the authorization resolver. -/
namespace Sovereign

structure Tenant where
  tenantId : String
  parentId : Option String := none
  metadata : List (String × Json) := []
deriving DecidableEq

inductive Role where
  | platformAdmin | agencyAdmin | bureauAdmin | programTeam | auditor
deriving DecidableEq, Repr

inductive Action where
  | provision | deprovision | update | bind | read | readAudit
  | manageTenant | manageRoles | manageQuotas
deriving DecidableEq, Repr

def defaultRoleActions : Role → List Action
  | .platformAdmin => [.provision, .deprovision, .update, .bind, .read, .readAudit,
      .manageTenant, .manageRoles, .manageQuotas]
  | .agencyAdmin => [.provision, .deprovision, .update, .bind, .read, .readAudit,
      .manageTenant, .manageRoles, .manageQuotas]
  | .bureauAdmin => [.provision, .deprovision, .update, .bind, .read, .readAudit,
      .manageRoles, .manageQuotas]
  | .programTeam => [.provision, .deprovision, .update, .bind, .read]
  | .auditor => [.read, .readAudit]

structure RoleBinding where
  principal : String
  tenantId : String
  role : Role
deriving DecidableEq

/-- `{t.tenant_id: t for t in list_all()}`, where a later entry wins. -/
def tenantById (tenants : List Tenant) (tenantId : String) : Option Tenant :=
  tenants.reverse.find? fun t => decide (t.tenantId=tenantId)

/- The ancestor walk. Each turn that goes on marks one more stored id as seen, so
   one more turn than there are tenants is enough (`walkAncestors_fuel`). -/
def walkAncestors (tenants : List Tenant) : Nat → Option Tenant → List String → List Tenant
  | 0, _, _ => []
  | _+1, none, _ => []
  | n+1, some current, seen =>
    match current.parentId with
    | none => []
    | some parentId =>
      if parentId="" ∨ parentId∈seen then []
      else match tenantById tenants parentId with
        | none => []
        | some parent => parent::walkAncestors tenants n (some parent) (parentId::seen)

def getAncestors (tenants : List Tenant) (tenantId : String) : List Tenant :=
  walkAncestors tenants (tenants.length+1) (tenantById tenants tenantId) []

theorem tenantById_mem {tenants : List Tenant} {tenantId : String} {t : Tenant}
    (h : tenantById tenants tenantId=some t) : t∈tenants ∧ t.tenantId=tenantId := by
  have hm := List.mem_of_find?_eq_some h
  have hp := List.find?_some h
  exact ⟨by simpa using hm, by simpa using hp⟩

theorem walkAncestors_fuel (tenants : List Tenant) (n k : Nat) (current : Option Tenant)
    (seen : List String) (hn : seen.Nodup) (hs : seen⊆tenants.map Tenant.tenantId)
    (hl : tenants.length < n+seen.length) :
    walkAncestors tenants (n+k) current seen=walkAncestors tenants n current seen := by
  induction n generalizing current seen with
  | zero =>
    have hle : seen.length≤(tenants.map Tenant.tenantId).length :=
      (List.subperm_of_subset hn hs).length_le
    simp only [List.length_map] at hle
    omega
  | succ n ih =>
    rw [Nat.succ_add]
    cases current with
    | none => rfl
    | some current =>
      simp only [walkAncestors]
      cases current.parentId with
      | none => rfl
      | some parentId =>
        by_cases hp : parentId="" ∨ parentId∈seen
        · simp only [if_pos hp]
        · simp only [if_neg hp]
          cases ht : tenantById tenants parentId with
          | none => rfl
          | some parent =>
            have hmem : parentId∈tenants.map Tenant.tenantId :=
              List.mem_map.mpr ⟨parent, (tenantById_mem ht).1, (tenantById_mem ht).2⟩
            have hnew : (parentId::seen).Nodup :=
              List.nodup_cons.mpr ⟨fun hm => hp (Or.inr hm), hn⟩
            have hlen : tenants.length < n+(parentId::seen).length := by
              simp only [List.length_cons]
              omega
            exact congrArg (parent::·)
              (ih (some parent) (parentId::seen) hnew (List.cons_subset.mpr ⟨hmem, hs⟩) hlen)

structure Directory where
  tenants : List Tenant := []
  roles : List RoleBinding := []

def Directory.rolesFor (d : Directory) (principal : String) : List RoleBinding :=
  d.roles.filter fun b => decide (b.principal=principal)

def Directory.rolesAt (d : Directory) (principal tenantId : String) : List Role :=
  ((d.rolesFor principal).filter fun b => decide (b.tenantId=tenantId)).map RoleBinding.role

/-- `effective_roles_at(...).roles`: bindings here, at every ancestor, and
platform-admin wherever it is bound. -/
def Directory.effectiveRolesAt (d : Directory) (principal tenantId : String) : List Role :=
  d.rolesAt principal tenantId ++
  (getAncestors d.tenants tenantId).flatMap (fun a => d.rolesAt principal a.tenantId) ++
  ((d.rolesFor principal).filter fun b =>
    decide (b.role=.platformAdmin ∧ b.tenantId≠tenantId)).map RoleBinding.role

def Directory.can (d : Directory) (principal tenantId : String) (action : Action) : Bool :=
  (d.effectiveRolesAt principal tenantId).any fun r => decide (action∈defaultRoleActions r)

end Sovereign
