import Sovereign.Identity
import Mathlib.Data.List.Nodup

/-! Group-to-role sync. The groups of a token user become role bindings, written one group
after the other into a table that holds one binding for a principal at a tenant. -/
namespace Sovereign

/-- A binding with what the sync records on it; the grant's time is written and never
read. -/
structure GrantedBinding extends RoleBinding where
  grantedBy : String := "system"
  metadata : List (String × Json) := []
deriving DecidableEq

structure RoleStore where
  bindings : List GrantedBinding := []
  nodup : (bindings.map fun b => (b.principal, b.tenantId)).Nodup := by decide

namespace RoleStore
variable (store : RoleStore)

def others (principal tenantId : String) : List GrantedBinding :=
  store.bindings.filter fun b => decide ((b.principal, b.tenantId)≠(principal, tenantId))

def put (binding : GrantedBinding) : RoleStore where
  bindings := store.others binding.principal binding.tenantId++[binding]
  nodup := by
    rw [List.map_append, List.nodup_append]
    refine ⟨store.nodup.sublist (List.filter_sublist.map _), List.nodup_singleton _, ?_⟩
    intro k hk k' hk' he
    obtain ⟨b, hb, hkey⟩ := List.mem_map.mp hk
    have hne := (List.mem_filter.mp hb).2
    have hlast : k'=(binding.principal, binding.tenantId) := by simpa using hk'
    rw [hkey, he, hlast] at hne
    simp at hne

def get (principal tenantId : String) : Option GrantedBinding :=
  store.bindings.find? fun b => decide ((b.principal, b.tenantId)=(principal, tenantId))

def rolesFor (principal : String) : List GrantedBinding :=
  store.bindings.filter fun b => decide (b.principal=principal)

variable {store}

theorem get_eq_some {principal tenantId : String} {b : GrantedBinding} :
    store.get principal tenantId=some b ↔
      b∈store.bindings ∧ b.principal=principal ∧ b.tenantId=tenantId := by
  constructor
  · intro h
    have hp := List.find?_some h
    have hp : b.principal=principal ∧ b.tenantId=tenantId := by simpa using hp
    exact ⟨List.mem_of_find?_eq_some h, hp⟩
  · intro ⟨hm, hp, ht⟩
    cases hf : store.get principal tenantId with
    | none =>
      have hno := List.find?_eq_none.mp hf b hm
      simp [hp, ht] at hno
    | some x =>
      have hx := List.find?_some hf
      have hx : x.principal=principal ∧ x.tenantId=tenantId := by simpa using hx
      refine congrArg some (List.inj_on_of_nodup_map store.nodup (List.mem_of_find?_eq_some hf) hm ?_)
      simp [hx, hp, ht]

theorem get_put (binding : GrantedBinding) (principal tenantId : String) :
    (store.put binding).get principal tenantId =
      if (binding.principal, binding.tenantId)=(principal, tenantId) then some binding
      else store.get principal tenantId := by
  split
  · next h =>
    have h : binding.principal=principal ∧ binding.tenantId=tenantId := by simpa using h
    exact get_eq_some.mpr ⟨by simp [put], h⟩
  · next h =>
    refine Option.ext fun b => ?_
    rw [get_eq_some, get_eq_some]
    refine and_congr_left fun hb => ?_
    have hne : b≠binding := fun he => h (by rw [← he, hb.1, hb.2])
    have hkey : (b.principal, b.tenantId)≠(binding.principal, binding.tenantId) := by
      rw [hb.1, hb.2]
      exact Ne.symm h
    simp only [put, others, List.mem_append, List.mem_filter, List.mem_singleton, hne, or_false,
      hkey, decide_true, and_true, ne_eq, not_false_eq_true]

/-- Of several writes the last one at a key stays. -/
theorem get_puts (writes : List GrantedBinding) (principal tenantId : String) :
    (writes.foldl put store).get principal tenantId =
      (writes.reverse.find? fun b =>
        decide ((b.principal, b.tenantId)=(principal, tenantId))).or
        (store.get principal tenantId) := by
  induction writes generalizing store with
  | nil => rfl
  | cons b writes ih =>
    rw [List.foldl_cons, ih, get_put, List.reverse_cons, List.find?_append, Option.or_assoc]
    congr 1
    by_cases h : (b.principal, b.tenantId)=(principal, tenantId)
    · rw [if_pos h]
      simp only [List.find?_cons, h, decide_true, Option.some_or]
    · rw [if_neg h]
      simp only [List.find?_cons, h, decide_false, List.find?_nil, Option.none_or]

/-- The principal holds the role at the tenant. -/
def Holds (store : RoleStore) (principal tenantId : String) (role : Role) : Prop :=
  ∃ b∈store.rolesFor principal, b.tenantId=tenantId ∧ b.role=role

theorem holds_iff {principal tenantId : String} {role : Role} :
    store.Holds principal tenantId role ↔
      ∃ b, store.get principal tenantId=some b ∧ b.role=role := by
  simp only [Holds, rolesFor, List.mem_filter, decide_eq_true_eq, get_eq_some]
  constructor
  · intro ⟨b, ⟨hm, hp⟩, ht, hr⟩
    exact ⟨b, ⟨hm, hp, ht⟩, hr⟩
  · intro ⟨b, ⟨hm, hp, ht⟩, hr⟩
    exact ⟨b, ⟨hm, hp⟩, ht, hr⟩

end RoleStore

section Sync

def uniqueFrom (seen : List String) : List String → List String
  | [] => []
  | item::items =>
    if item∈seen then uniqueFrom seen items else item::uniqueFrom (item::seen) items

def unique (items : List String) : List String := uniqueFrom [] items

theorem mem_uniqueFrom {seen items : List String} {x : String} :
    x∈uniqueFrom seen items ↔ x∈items ∧ x∉seen := by
  induction items generalizing seen with
  | nil => simp [uniqueFrom]
  | cons item items ih =>
    simp only [uniqueFrom]
    by_cases h : item∈seen
    · simp only [if_pos h, ih, List.mem_cons]
      constructor
      · exact fun hx => ⟨Or.inr hx.1, hx.2⟩
      · intro ⟨hx, hs⟩
        exact ⟨hx.resolve_left fun he => hs (he ▸ h), hs⟩
    · simp only [if_neg h, List.mem_cons, ih]
      by_cases he : x=item
      · simp [he, h]
      · simp [he]

theorem mem_unique {items : List String} {x : String} : x∈unique items ↔ x∈items := by
  simp [unique, mem_uniqueFrom]

/-- An item met only at the end, any number of times, comes last. -/
theorem uniqueFrom_append_replicate {seen items : List String} {x : String} (n : Nat)
    (hs : x∉seen) (hi : x∉items) :
    uniqueFrom seen (items++List.replicate (n+1) x)=uniqueFrom seen items++[x] := by
  induction items generalizing seen with
  | nil =>
    have hrest : uniqueFrom (x::seen) (List.replicate n x)=[] := by
      refine List.eq_nil_iff_forall_not_mem.mpr fun y hy => ?_
      obtain ⟨hy, hns⟩ := mem_uniqueFrom.mp hy
      exact hns (List.eq_of_mem_replicate hy ▸ List.mem_cons_self)
    simp [List.replicate_succ, uniqueFrom, hs, hrest]
  | cons item items ih =>
    have hne : x≠item := fun he => hi (he ▸ List.mem_cons_self)
    have hi : x∉items := fun h => hi (List.mem_cons_of_mem item h)
    simp only [List.cons_append, uniqueFrom]
    split
    · exact ih hs hi
    · rw [ih (by simp [hne, hs]) hi]
      rfl

def defaultGroupRoleMap : List (String × Role) :=
  [("sovereign-platform-admins", .platformAdmin), ("sovereign-agency-admins", .agencyAdmin),
    ("sovereign-bureau-admins", .bureauAdmin), ("sovereign-program-teams", .programTeam),
    ("sovereign-auditors", .auditor)]

structure SyncOptions where
  defaultTenantId : Option String := none
  groupRoleMap : Option (List (String × Role)) := none
  groupTenantMap : Option (List (String × String)) := none
  grantedBy : String := "idp-sync"

/-- The role and the tenant a group stands for; the empty tenant id counts as none. -/
def SyncOptions.resolve (o : SyncOptions) (user : TokenUser) (group : String) :
    Option (String × Role) :=
  match (o.groupRoleMap.getD defaultGroupRoleMap).lookup group with
  | none => none
  | some role =>
    let tenantId := orElseStr ((o.groupTenantMap.getD []).lookup group)
      (orElseStr user.tenantId (o.defaultTenantId.getD ""))
    if tenantId="" then none else some (tenantId, role)

def SyncOptions.binding (o : SyncOptions) (user : TokenUser) (group : String) :
    Option GrantedBinding :=
  (o.resolve user group).map fun t =>
    { principal := user.principal, tenantId := t.1, role := t.2, grantedBy := o.grantedBy,
      metadata := [("source_group", .str group)] }

def syncGroup (o : SyncOptions) (user : TokenUser) (acc : RoleStore × List GrantedBinding)
    (group : String) : RoleStore × List GrantedBinding :=
  match o.binding user group with
  | none => acc
  | some binding => (acc.1.put binding, acc.2++[binding])

def syncGroupsToRoles (o : SyncOptions) (user : TokenUser) (store : RoleStore) :
    RoleStore × List GrantedBinding :=
  (unique user.groups).foldl (syncGroup o user) (store, [])

variable (o : SyncOptions) (user : TokenUser) (store : RoleStore)

def written : List GrantedBinding := (unique user.groups).filterMap (o.binding user)

theorem foldl_syncGroup (groups : List String) (acc : RoleStore × List GrantedBinding) :
    groups.foldl (syncGroup o user) acc =
      ((groups.filterMap (o.binding user)).foldl RoleStore.put acc.1,
        acc.2++groups.filterMap (o.binding user)) := by
  induction groups generalizing acc with
  | nil => simp
  | cons group groups ih =>
    rw [List.foldl_cons, ih, syncGroup]
    cases h : o.binding user group with
    | none => simp [h]
    | some binding => simp [h]

theorem syncGroupsToRoles_eq : syncGroupsToRoles o user store =
    ((written o user).foldl RoleStore.put store, written o user) := by
  rw [syncGroupsToRoles, foldl_syncGroup]
  rfl

variable {o user store}

theorem mem_written {b : GrantedBinding} : b∈written o user ↔
    ∃ group∈user.groups, o.binding user group=some b := by
  simp only [written, List.mem_filterMap, mem_unique]

theorem binding_eq_some {group : String} {b : GrantedBinding} :
    o.binding user group=some b ↔ ∃ t r, o.resolve user group=some (t, r) ∧
      b={ principal := user.principal, tenantId := t, role := r, grantedBy := o.grantedBy,
          metadata := [("source_group", .str group)] } := by
  simp only [SyncOptions.binding, Option.map_eq_some_iff, Prod.exists]
  constructor
  · intro ⟨t, r, ht, he⟩
    exact ⟨t, r, ht, he.symm⟩
  · intro ⟨t, r, ht, he⟩
    exact ⟨t, r, ht, he.symm⟩

def lastWritten (o : SyncOptions) (user : TokenUser) (t : String) : Option GrantedBinding :=
  (written o user).reverse.find? fun b =>
    decide ((b.principal, b.tenantId)=(user.principal, t))

theorem lastWritten_some {t : String} {b : GrantedBinding} (h : lastWritten o user t=some b) :
    ∃ group∈user.groups, ∃ r, o.resolve user group=some (t, r) ∧
      o.binding user group=some b ∧ b.role=r := by
  have hkey := List.find?_some h
  obtain ⟨group, hg, hgroup⟩ :=
    mem_written.mp (List.mem_reverse.mp (List.mem_of_find?_eq_some h))
  obtain ⟨t', r, hr, rfl⟩ := binding_eq_some.mp hgroup
  have ht : t'=t := by simpa using hkey
  cases ht
  exact ⟨group, hg, r, hr, hgroup, rfl⟩

theorem lastWritten_ne_none {group t : String} {r : Role} (hg : group∈user.groups)
    (hr : o.resolve user group=some (t, r)) : lastWritten o user t≠none := by
  intro h
  have hmem : _∈written o user := mem_written.mpr ⟨group, hg, binding_eq_some.mpr ⟨t, r, hr, rfl⟩⟩
  have hno := List.find?_eq_none.mp h _ (List.mem_reverse.mpr hmem)
  simp at hno

theorem get_sync (o : SyncOptions) (user : TokenUser) (store : RoleStore) (t : String) :
    (syncGroupsToRoles o user store).1.get user.principal t =
      (lastWritten o user t).or (store.get user.principal t) := by
  rw [syncGroupsToRoles_eq, RoleStore.get_puts]
  rfl

/-- What the sync leaves at a tenant: a binding of one of the groups that resolve to it, or
the old one where there is none. -/
theorem get_sync_cases {t : String} {b : GrantedBinding}
    (h : (syncGroupsToRoles o user store).1.get user.principal t=some b) :
    (∃ group∈user.groups, ∃ r, o.resolve user group=some (t, r) ∧ b.role=r) ∨
    ((∀ group∈user.groups, ∀ r, o.resolve user group≠some (t, r)) ∧
      store.get user.principal t=some b) := by
  rw [get_sync] at h
  cases hl : lastWritten o user t with
  | some x =>
    rw [hl, Option.some_or] at h
    cases h
    obtain ⟨group, hg, r, hr, _, hrole⟩ := lastWritten_some hl
    exact Or.inl ⟨group, hg, r, hr, hrole⟩
  | none =>
    rw [hl, Option.none_or] at h
    exact Or.inr ⟨fun group hg r hr => lastWritten_ne_none hg hr hl, h⟩

theorem get_sync_of_group (store : RoleStore) {group t : String} {r : Role} (hg : group∈user.groups)
    (hr : o.resolve user group=some (t, r)) :
    ∃ b, (syncGroupsToRoles o user store).1.get user.principal t=some b := by
  obtain ⟨b, hb⟩ := Option.ne_none_iff_exists'.mp (lastWritten_ne_none hg hr)
  exact ⟨b, by rw [get_sync, hb, Option.some_or]⟩

end Sync

/-! What the sync promises, and when it keeps it. -/

section Promise
variable (o : SyncOptions) (user : TokenUser) (store : RoleStore)

/-- Every group that maps to a role and resolves to a tenant has granted that role there. -/
def Granted : Prop := ∀ group∈user.groups, ∀ t r, o.resolve user group=some (t, r) →
  (syncGroupsToRoles o user store).1.Holds user.principal t r

def Retrievable : Prop := ∀ b∈(syncGroupsToRoles o user store).2,
  (syncGroupsToRoles o user store).1.get b.principal b.tenantId=some b

def OrderFree : Prop := ∀ groups : List String, groups.Perm user.groups → ∀ t r,
  (syncGroupsToRoles o { user with groups } store).1.Holds user.principal t r ↔
    (syncGroupsToRoles o user store).1.Holds user.principal t r

/-- The groups of the user that resolve to one tenant map to one role. -/
def AgreeingRoles : Prop := ∀ g∈user.groups, ∀ g'∈user.groups, ∀ t r r',
  o.resolve user g=some (t, r) → o.resolve user g'=some (t, r') → r=r'

def OnePerTenant : Prop := ∀ g∈user.groups, ∀ g'∈user.groups, ∀ t r r',
  o.resolve user g=some (t, r) → o.resolve user g'=some (t, r') → g=g'

variable {o user store}

theorem OnePerTenant.agreeing (h : OnePerTenant o user) : AgreeingRoles o user := by
  intro g hg g' hg' t r r' hr hr'
  have he := h g hg g' hg' t r r' hr hr'
  rw [he, hr'] at hr
  cases hr
  rfl

/-- With agreeing roles, a role is held after the sync as a group grants it, or as before
where no group resolves to the tenant. -/
theorem holds_sync_iff (h : AgreeingRoles o user) {t : String} {r : Role} :
    (syncGroupsToRoles o user store).1.Holds user.principal t r ↔
      (∃ group∈user.groups, o.resolve user group=some (t, r)) ∨
      ((∀ group∈user.groups, ∀ r, o.resolve user group≠some (t, r)) ∧
        store.Holds user.principal t r) := by
  rw [RoleStore.holds_iff, RoleStore.holds_iff]
  constructor
  · intro ⟨b, hb, hrole⟩
    obtain ⟨group, hg, r', hr, hb'⟩ | ⟨hnone, hold⟩ := get_sync_cases hb
    · exact Or.inl ⟨group, hg, by rw [hr, ← hb', hrole]⟩
    · exact Or.inr ⟨hnone, b, hold, hrole⟩
  · intro hcase
    obtain ⟨group, hg, hr⟩ | ⟨hnone, b, hold, hrole⟩ := hcase
    · obtain ⟨b, hb⟩ := get_sync_of_group store hg hr
      refine ⟨b, hb, ?_⟩
      obtain ⟨g', hg', r', hr', hb'⟩ | ⟨hnone, _⟩ := get_sync_cases hb
      · exact hb'.trans (h g' hg' group hg t r' r hr' hr)
      · exact absurd hr (hnone group hg r)
    · refine ⟨b, ?_, hrole⟩
      cases hget : (syncGroupsToRoles o user store).1.get user.principal t with
      | none =>
        rw [get_sync, Option.or_eq_none_iff] at hget
        rw [hold] at hget
        cases hget.2
      | some b' =>
        obtain ⟨g', hg', r', hr', _⟩ | ⟨_, hold'⟩ := get_sync_cases hget
        · exact absurd hr' (hnone g' hg' r')
        · exact hold'.symm.trans hold

theorem granted_iff : Granted o user store ↔ AgreeingRoles o user := by
  constructor
  · intro h g hg g' hg' t r r' hr hr'
    obtain ⟨b, hb, hrole⟩ := RoleStore.holds_iff.mp (h g hg t r hr)
    obtain ⟨b', hb', hrole'⟩ := RoleStore.holds_iff.mp (h g' hg' t r' hr')
    rw [hb] at hb'
    cases hb'
    exact hrole.symm.trans hrole'
  · intro h group hg t r hr
    exact (holds_sync_iff h).mpr (Or.inl ⟨group, hg, hr⟩)

theorem retrievable_iff : Retrievable o user store ↔ OnePerTenant o user := by
  have hmem : ∀ group∈user.groups, ∀ t r, o.resolve user group=some (t, r) → _∈written o user :=
    fun group hg t r hr => mem_written.mpr ⟨group, hg, binding_eq_some.mpr ⟨t, r, hr, rfl⟩⟩
  simp only [Retrievable, syncGroupsToRoles_eq]
  constructor
  · intro h g hg g' hg' t r r' hr hr'
    have hb := h _ (hmem g hg t r hr)
    have hb' := h _ (hmem g' hg' t r' hr')
    have he := Option.some.inj (hb.symm.trans hb')
    simpa using congrArg GrantedBinding.metadata he
  · intro h b hb
    obtain ⟨group, hg, hgroup⟩ := mem_written.mp hb
    obtain ⟨t, r, hr, rfl⟩ := binding_eq_some.mp hgroup
    have hget := get_sync o user store t
    obtain ⟨x, hx⟩ := Option.ne_none_iff_exists'.mp (lastWritten_ne_none hg hr)
    rw [syncGroupsToRoles_eq, hx, Option.some_or] at hget
    obtain ⟨g', hg', r', hr', hgroup', _⟩ := lastWritten_some hx
    have he := h group hg g' hg' t r r' hr hr'
    rw [← he, hgroup] at hgroup'
    exact hget.trans hgroup'.symm

/-- Any group of the user can come last, and then its role is the one held. -/
theorem exists_perm_holds (store : RoleStore) {g t : String} {r : Role} (hg : g∈user.groups)
    (hr : o.resolve user g=some (t, r)) : ∃ groups : List String, groups.Perm user.groups ∧
      (syncGroupsToRoles o { user with groups } store).1.Holds user.principal t r := by
  let rest := user.groups.filter fun x => !(x==g)
  have hrest : g∉rest := by simp [rest]
  obtain ⟨n, hn⟩ := Nat.exists_eq_succ_of_ne_zero (List.count_pos_iff.mpr hg).ne'
  refine ⟨rest++List.replicate (n+1) g, ?_, ?_⟩
  · rw [← Nat.succ_eq_add_one, ← hn, ← List.filter_beq]
    exact List.perm_append_comm.trans (List.filter_append_perm (· == g) user.groups)
  · obtain ⟨b, hb, hp, ht, hrole⟩ : ∃ b, o.binding user g=some b ∧ b.principal=user.principal ∧
        b.tenantId=t ∧ b.role=r := ⟨_, binding_eq_some.mpr ⟨t, r, hr, rfl⟩, rfl, rfl, rfl⟩
    let last : TokenUser := { user with groups := rest++List.replicate (n+1) g }
    have hwritten : written o last=(unique rest).filterMap (o.binding user)++[b] := by
      have hunique : unique last.groups=unique rest++[g] :=
        uniqueFrom_append_replicate n (by simp) hrest
      have hsame : o.binding last=o.binding user := rfl
      rw [written, hunique, List.filterMap_append, hsame]
      simp [hb]
    have hlast : lastWritten o last t=some b := by
      simp [lastWritten, hwritten, hp, ht, last]
    refine RoleStore.holds_iff.mpr ⟨b, ?_, hrole⟩
    exact (get_sync o last store t).trans (by rw [hlast, Option.some_or])

theorem orderFree_iff : OrderFree o user store ↔ AgreeingRoles o user := by
  constructor
  · intro h g hg g' hg' t r r' hr hr'
    obtain ⟨groups, hperm, hholds⟩ := exists_perm_holds store hg hr
    obtain ⟨groups', hperm', hholds'⟩ := exists_perm_holds store hg' hr'
    obtain ⟨b, hb, hrole⟩ := RoleStore.holds_iff.mp ((h groups hperm t r).mp hholds)
    obtain ⟨b', hb', hrole'⟩ := RoleStore.holds_iff.mp ((h groups' hperm' t r').mp hholds')
    rw [hb] at hb'
    cases hb'
    exact hrole.symm.trans hrole'
  · intro h groups hperm t r
    have hagree : AgreeingRoles o { user with groups } := fun g hg g' hg' =>
      h g (hperm.mem_iff.mp hg) g' (hperm.mem_iff.mp hg')
    have hmem : ∀ {p : String → Prop}, (∃ g∈groups, p g) ↔ ∃ g∈user.groups, p g := by
      intro p
      simp only [hperm.mem_iff]
    have hnone : (∀ g∈groups, ∀ r, o.resolve user g≠some (t, r)) ↔
        ∀ g∈user.groups, ∀ r, o.resolve user g≠some (t, r) := by
      simp only [hperm.mem_iff]
    exact (holds_sync_iff hagree).trans
      ((or_congr hmem (and_congr_left' hnone)).trans (holds_sync_iff h).symm)

/-- The sync keeps its promise exactly for users whose groups resolve to different
tenants. -/
theorem sync_promise_iff (o : SyncOptions) (user : TokenUser) (store : RoleStore) :
    (Granted o user store ∧ Retrievable o user store ∧ OrderFree o user store) ↔
      OnePerTenant o user := by
  constructor
  · intro ⟨_, h, _⟩
    exact retrievable_iff.mp h
  · intro h
    exact ⟨granted_iff.mpr h.agreeing, retrievable_iff.mpr h, orderFree_iff.mpr h.agreeing⟩

def twoGroups : TokenUser :=
  { principal := "dave@gov", tenantId := some "cade2",
    groups := ["sovereign-program-teams", "sovereign-auditors"], raw := {} }

theorem second_group_takes_role :
    ((syncGroupsToRoles {} twoGroups {}).2.map fun b => (b.tenantId, b.role)) =
      [("cade2", .programTeam), ("cade2", .auditor)] ∧
    (((syncGroupsToRoles {} twoGroups {}).1.rolesFor "dave@gov").map fun b => (b.tenantId, b.role)) =
      [("cade2", .auditor)] ∧
    ¬ (Granted {} twoGroups {} ∧ Retrievable {} twoGroups {} ∧ OrderFree {} twoGroups {}) := by
  refine ⟨by decide, by decide, ?_⟩
  intro ⟨h, _⟩
  obtain ⟨b, hb, ht, hr⟩ := h "sovereign-program-teams" (by decide) "cade2" .programTeam (by decide)
  have hno : ∀ b∈(syncGroupsToRoles {} twoGroups {}).1.rolesFor "dave@gov", b.role≠.programTeam := by
    decide
  exact hno b hb hr

end Promise
end Sovereign
