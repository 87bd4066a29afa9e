import Sovereign.Paging

/-! The tree walks of `TenantStore`. They go over what `list_all` returns, the first page of the
scan; a tenant itself is read by its key. -/
namespace Sovereign
open Relation

structure TenantStore where
  table : TenantTable
  scan : Split table.tenants

namespace TenantStore
variable (store : TenantStore)

def get (tenantId : String) : Option Tenant := tenantById store.table.tenants tenantId

def listAll : List Tenant := store.scan.firstPage

def getAncestors (tenantId : String) : List Tenant :=
  Sovereign.getAncestors store.listAll tenantId

def getDescendants (tenantId : String) : List Tenant :=
  Sovereign.getDescendants store.listAll tenantId

def isAncestorOf (ancestorId descendantId : String) : Bool :=
  (store.getAncestors descendantId).any fun a => decide (a.tenantId=ancestorId)

def path (tenantId : String) : List Tenant :=
  match store.get tenantId with
  | none => []
  | some target => (store.getAncestors tenantId).reverse++[target]

def Acyclic (table : TenantTable) : Prop := ∀ tenantId, ¬ TransGen table.Parent tenantId tenantId

structure RootPath (table : TenantTable) (target : Tenant) (path : List Tenant) : Prop where
  chain : path.IsChain fun parent child => child.parentId=some parent.tenantId
  root : ∀ root∈path.head?, ∀ parent, ¬ table.Parent root.tenantId parent
  target : path.getLast?=some target

/-- Both walks stop by themselves and return stored tenants, none twice. -/
structure Terminates : Prop where
  ancestors : ∀ tenantId turns, walkAncestors store.listAll (store.listAll.length+1+turns)
    (tenantById store.listAll tenantId) []=store.getAncestors tenantId
  descendants : ∀ tenantId turns, Walk.search Tenant.tenantId (childrenByParent store.listAll)
    (store.listAll.length+store.listAll.length*store.listAll.length+turns)
    (childrenByParent store.listAll tenantId).reverse []=store.getDescendants tenantId
  ancestors_nodup : ∀ tenantId, ((store.getAncestors tenantId).map Tenant.tenantId).Nodup
  descendants_nodup : ∀ tenantId, ((store.getDescendants tenantId).map Tenant.tenantId).Nodup
  ancestors_stored : ∀ tenantId, store.getAncestors tenantId⊆store.table.tenants
  descendants_stored : ∀ tenantId, store.getDescendants tenantId⊆store.table.tenants

structure WalksTree : Prop extends Terminates store where
  dual : ∀ a∈store.table.tenants, ∀ d∈store.table.tenants,
    a∈store.getAncestors d.tenantId ↔ d∈store.getDescendants a.tenantId
  isAncestorOf : ∀ a∈store.table.tenants, ∀ d∈store.table.tenants,
    store.isAncestorOf a.tenantId d.tenantId=true ↔ a∈store.getAncestors d.tenantId
  path : Acyclic store.table → ∀ t∈store.table.tenants,
    RootPath store.table t (store.path t.tenantId)

/-- The first page holds the stored parents of what is on it; and, where there is no cycle, every
tenant that has one. -/
structure ScansParents : Prop where
  parents : ∀ child∈store.listAll, ∀ parent∈store.table.tenants,
    store.table.Parent child.tenantId parent.tenantId → parent∈store.listAll
  children : Acyclic store.table → ∀ child∈store.table.tenants, ∀ parent,
    store.table.Parent child.tenantId parent → child∈store.listAll

end TenantStore

section Table
variable {table : TenantTable}

theorem TenantTable.mem_of_tenantId (table : TenantTable) {t : Tenant} (ht : t∈table.tenants)
    {ts : List Tenant} (hs : ts⊆table.tenants) : t∈ts ↔ t.tenantId∈ts.map Tenant.tenantId := by
  constructor
  · exact fun h => List.mem_map_of_mem h
  · intro h
    obtain ⟨x, hx, he⟩ := List.mem_map.mp h
    exact List.inj_on_of_nodup_map table.nodup (hs hx) ht he ▸ hx

theorem walkAncestors_subset (tenants : List Tenant) (n : Nat) (current : Option Tenant)
    (seen : List String) : walkAncestors tenants n current seen⊆tenants := by
  induction n generalizing current seen with
  | zero => exact List.nil_subset _
  | succ n ih =>
    cases current with
    | none => exact List.nil_subset _
    | some current =>
      simp only [walkAncestors]
      split
      · exact List.nil_subset _
      · split
        · exact List.nil_subset _
        · split
          · exact List.nil_subset _
          · next parent hp => exact List.cons_subset.mpr ⟨(tenantById_mem hp).1, ih _ _⟩

theorem getAncestors_subset (tenants : List Tenant) (tenantId : String) :
    getAncestors tenants tenantId⊆tenants :=
  walkAncestors_subset tenants _ _ []

theorem getDescendants_subset (tenants : List Tenant) (tenantId : String) :
    getDescendants tenants tenantId⊆tenants :=
  Walk.search_subset (fun _ => List.filter_subset_self _)
    (List.reverse_subset.mpr (List.filter_subset_self _))

/-- The ancestors of a tenant are what following stored parents meets. -/
theorem getAncestors_follow (tenants : List Tenant) (tenantId : String) :
    (getAncestors tenants tenantId).map Tenant.tenantId =
      Walk.follow (parentOf tenants) (tenants.length+1) tenantId [] :=
  walkAncestors_follow tenants _ tenantId []

theorem child_of_parent {child parent : String} (h : table.Parent child parent) :
    ∃ t∈childrenByParent table.tenants parent, t.tenantId=child := by
  obtain ⟨⟨t, ht, he, hp⟩, hne, _⟩ := h
  exact ⟨t, List.mem_filter.mpr ⟨ht, decide_eq_true ⟨hp, hne⟩⟩, he⟩

/-- The descendants of a stored tenant are those whose parents lead to it. -/
theorem mem_getDescendants_iff {root descendant : String} (hs : table.Stored root) :
    descendant∈(getDescendants table.tenants root).map Tenant.tenantId ↔
      TransGen table.Parent descendant root := by
  rw [mem_getDescendants]
  constructor
  · rintro ⟨child, hchild, hpath⟩
    have hstored : table.Stored child.tenantId := ⟨child, (List.mem_filter.mp hchild).1, rfl⟩
    exact TransGen.tail' (ancestor_of_descendant hstored hpath).2 (parent_of_child hchild hs)
  · intro h
    clear hs
    induction h with
    | single hp =>
      obtain ⟨t, ht, rfl⟩ := child_of_parent hp
      exact ⟨t, ht, ReflTransGen.refl⟩
    | tail _ hp ih =>
      obtain ⟨child, hchild, hpath⟩ := ih
      obtain ⟨t, ht, rfl⟩ := child_of_parent hp
      exact ⟨t, ht, ReflTransGen.head ⟨child, hchild, rfl⟩ hpath⟩

/-- Walking up meets a stored tenant exactly when walking down from it comes back. -/
theorem ancestors_dual (table : TenantTable) {a d : Tenant} (ha : a∈table.tenants)
    (hd : d∈table.tenants) :
    a∈getAncestors table.tenants d.tenantId ↔ d∈getDescendants table.tenants a.tenantId := by
  rw [table.mem_of_tenantId ha (getAncestors_subset _ _), mem_getAncestors,
    table.mem_of_tenantId hd (getDescendants_subset _ _),
    mem_getDescendants_iff ⟨a, ha, rfl⟩]

theorem edge_parentOf : Walk.Edge (parentOf table.tenants)=table.Parent := by
  funext child parent
  exact propext parentOf_eq_some

/-- Up to a tenant without a stored parent, each the parent of the one before. -/
theorem rootPath_of_acyclic (hacyclic : TenantStore.Acyclic table) {t : Tenant}
    (ht : t∈table.tenants) :
    TenantStore.RootPath table t ((getAncestors table.tenants t.tenantId).reverse++[t]) := by
  have hids : (t::getAncestors table.tenants t.tenantId).map Tenant.tenantId =
      t.tenantId::Walk.follow (parentOf table.tenants) (table.tenants.length+1) t.tenantId [] := by
    rw [List.map_cons, getAncestors_follow]
  have hsub : t::getAncestors table.tenants t.tenantId⊆table.tenants :=
    List.cons_subset.mpr ⟨ht, getAncestors_subset _ _⟩
  have hup := Walk.follow_chain (parentOf table.tenants) (table.tenants.length+1) t.tenantId []
  rw [← hids, List.isChain_map, edge_parentOf] at hup
  rw [← List.reverse_cons]
  refine ⟨?_, ?_, by rw [List.getLast?_reverse, List.head?_cons]⟩
  · rw [List.isChain_reverse]
    refine hup.imp_of_mem_imp fun child parent hc _ hp => ?_
    obtain ⟨⟨c, hcm, he, hcp⟩, _⟩ := hp
    exact List.inj_on_of_nodup_map table.nodup hcm (hsub hc) he ▸ hcp
  · rw [List.head?_reverse]
    intro root hroot parent hparent
    have hU : ∀ x y, parentOf table.tenants x=some y → y∈table.tenants.map Tenant.tenantId := by
      intro x y h
      obtain ⟨_, _, y, hy, he⟩ := parentOf_eq_some.mp h
      exact List.mem_map.mpr ⟨y, hy, he⟩
    have hlast := Walk.follow_last hU (n := table.tenants.length+1) (x := t.tenantId)
      (z := root.tenantId) (by simp)
      (by rw [← hids, List.getLast?_map]; exact Option.mem_map_of_mem _ hroot)
      (by rw [edge_parentOf]; exact hacyclic)
    rw [parentOf_eq_some.mpr hparent] at hlast
    cases hlast

end Table

namespace TenantStore
variable {store : TenantStore}

def page (store : TenantStore) : TenantTable := store.table.firstPage store.scan

theorem listAll_subset : store.listAll⊆store.table.tenants := store.scan.sublist.subset

theorem terminates (store : TenantStore) : Terminates store where
  ancestors := fun tenantId turns => walkAncestors_fuel store.listAll _ turns _ []
    List.nodup_nil (List.nil_subset _) (Nat.lt_succ_self _)
  descendants := fun tenantId turns => getDescendants_turns store.listAll tenantId turns
  ancestors_nodup := fun tenantId => by
    rw [getAncestors, getAncestors_follow]
    exact (Walk.follow_nodup _ _ _).1
  descendants_nodup := fun tenantId => (Walk.search_nodup _ _ _).1
  ancestors_stored := fun tenantId =>
    List.Subset.trans (getAncestors_subset _ _) listAll_subset
  descendants_stored := fun tenantId =>
    List.Subset.trans (getDescendants_subset _ _) listAll_subset

theorem isAncestorOf_iff {a : Tenant} (ha : a∈store.table.tenants) (tenantId : String) :
    store.isAncestorOf a.tenantId tenantId=true ↔ a∈store.getAncestors tenantId := by
  rw [store.table.mem_of_tenantId ha ((terminates store).ancestors_stored tenantId), isAncestorOf,
    List.any_eq_true, List.mem_map]
  simp only [decide_eq_true_eq]

theorem path_of_mem {t : Tenant} (ht : t∈store.table.tenants) :
    store.path t.tenantId=(store.getAncestors t.tenantId).reverse++[t] := by
  rw [path, get, tenantById_of_mem ht]

/-- A walk up from a tenant that the scan leaves out stops at once. -/
theorem getAncestors_off_page {t : Tenant} (ht : t∈store.table.tenants) (hp : t∉store.listAll) :
    store.getAncestors t.tenantId=[] := by
  have hnone : tenantById store.listAll t.tenantId=none := by
    rw [Option.eq_none_iff_forall_ne_some]
    intro x hx
    obtain ⟨hm, he⟩ := tenantById_mem hx
    exact hp (List.inj_on_of_nodup_map store.table.nodup (listAll_subset hm) ht he ▸ hm)
  rw [getAncestors, Sovereign.getAncestors, hnone]
  rfl

section ScansParents
variable (h : ScansParents store)
include h

theorem ScansParents.dual {a d : Tenant} (ha : a∈store.table.tenants)
    (hd : d∈store.table.tenants) :
    a∈store.getAncestors d.tenantId ↔ d∈store.getDescendants a.tenantId := by
  by_cases hap : a∈store.listAll
  · by_cases hdp : d∈store.listAll
    · exact ancestors_dual store.page hap hdp
    · refine iff_of_false ?_ fun hm => hdp (getDescendants_subset _ _ hm)
      rw [getAncestors_off_page hd hdp]
      exact List.not_mem_nil
  · refine iff_of_false (fun hm => hap (getAncestors_subset _ _ hm)) ?_
    intro hm
    -- the walk down starts at a child on the page
    have hids : d.tenantId∈(Sovereign.getDescendants store.page.tenants a.tenantId).map
        Tenant.tenantId := List.mem_map_of_mem hm
    obtain ⟨child, hchild, _⟩ := mem_getDescendants.mp hids
    obtain ⟨hmem, hp⟩ := List.mem_filter.mp hchild
    have hp := of_decide_eq_true hp
    exact hap (h.parents child hmem a ha
      ⟨⟨child, listAll_subset hmem, rfl, hp.1⟩, hp.2, a, ha, rfl⟩)

theorem ScansParents.rootPath (hacyclic : Acyclic store.table) {t : Tenant}
    (ht : t∈store.table.tenants) : RootPath store.table t (store.path t.tenantId) := by
  rw [path_of_mem ht]
  by_cases hp : t∈store.listAll
  · have hpage : Acyclic store.page :=
      fun x hx => hacyclic x (hx.lift id fun _ _ => firstPage_parent)
    have hpath : RootPath store.page t ((store.getAncestors t.tenantId).reverse++[t]) :=
      rootPath_of_acyclic hpage hp
    refine ⟨hpath.chain, ?_, hpath.target⟩
    intro root hroot parent hparent
    have hmem : root∈store.listAll := by
      have hm := List.mem_of_mem_head? hroot
      rw [List.mem_append, List.mem_reverse, List.mem_singleton] at hm
      exact hm.elim (fun ha => getAncestors_subset _ _ ha) fun he => he ▸ hp
    obtain ⟨⟨c, hc, he, hcp⟩, hne, y, hy, rfl⟩ := hparent
    have hcr := List.inj_on_of_nodup_map store.table.nodup hc (listAll_subset hmem) he
    have hyp := h.parents root hmem y hy ⟨⟨c, hc, he, hcp⟩, hne, y, hy, rfl⟩
    exact hpath.root root hroot y.tenantId ⟨⟨root, hmem, rfl, hcr ▸ hcp⟩, hne, y, hyp, rfl⟩
  · rw [getAncestors_off_page ht hp]
    refine ⟨List.isChain_singleton t, ?_, rfl⟩
    intro root hroot parent hparent
    cases hroot
    exact hp (h.children hacyclic t ht parent hparent)

end ScansParents

theorem WalksTree.scansParents (h : WalksTree store) : ScansParents store where
  parents := by
    intro child hchild parent hparent hp
    obtain ⟨⟨c, hc, he, hcp⟩, hne, _⟩ := hp
    have hcc := List.inj_on_of_nodup_map store.table.nodup hc (listAll_subset hchild) he
    -- the walk down finds the child, so the walk up has found the parent
    have hids : child.tenantId∈(Sovereign.getDescendants store.page.tenants parent.tenantId).map
        Tenant.tenantId := by
      refine mem_getDescendants.mpr ⟨child, ?_, ReflTransGen.refl⟩
      exact List.mem_filter.mpr ⟨hchild, decide_eq_true ⟨hcc ▸ hcp, hne⟩⟩
    have hdown : child∈store.getDescendants parent.tenantId :=
      (store.page.mem_of_tenantId hchild (getDescendants_subset _ _)).mpr hids
    exact getAncestors_subset _ _
      ((h.dual parent hparent child (listAll_subset hchild)).mpr hdown)
  children := by
    intro hacyclic child hchild parent hp
    by_contra hoff
    have hpath := h.path hacyclic child hchild
    rw [path_of_mem hchild, getAncestors_off_page hchild hoff] at hpath
    exact hpath.root child rfl parent hp

/-- Over every store the walks stop; they tell the tree exactly when the first page of the scan
holds the parents. -/
theorem walks_tree_iff (store : TenantStore) :
    Terminates store ∧ (WalksTree store ↔ ScansParents store) := by
  refine ⟨terminates store, WalksTree.scansParents, fun h => ?_⟩
  exact { terminates store with
    dual := fun a ha d hd => h.dual ha hd
    isAncestorOf := fun a ha d _ => isAncestorOf_iff ha d.tenantId
    path := fun hacyclic t ht => h.rootPath hacyclic ht }

def treasury : Tenant := { tenantId := "treasury" }
def irs : Tenant := { tenantId := "irs", parentId := some "treasury" }

def bureauFirst : TenantStore where
  table := { tenants := [irs, treasury] }
  scan := { pages := [[irs], [treasury]], flatten_pages := rfl }

theorem bureauFirst_not_dual : ¬ WalksTree bureauFirst ∧
    irs∈bureauFirst.getDescendants "treasury" ∧ treasury∉bureauFirst.getAncestors "irs" ∧
    bureauFirst.path "irs"=[irs] := by
  have hdown : irs∈bureauFirst.getDescendants "treasury" := by decide
  have hup : treasury∉bureauFirst.getAncestors "irs" := by decide
  refine ⟨fun h => ?_, hdown, hup, by decide⟩
  exact hup ((h.dual treasury (by decide) irs (by decide)).mpr hdown)

end TenantStore
end Sovereign
