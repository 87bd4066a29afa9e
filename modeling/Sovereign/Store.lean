import Sovereign.Models
import Sovereign.Identity

/-! The instance table. Rows stand in the order a scan returns them, which a hash
of the key fixes; `hash` is a parameter, so every scan order is covered. -/
namespace Sovereign

/-- `payload` is `none` when the attribute is absent or no string. -/
structure Row where
  instanceId : String
  organizationGuid : Option String := none
  payload : Option ServiceInstance := none

/-- Error codes of a failed index query: the first two make the caller fall back. -/
inductive QueryFault where
  | validation | resourceNotFound | other
deriving DecidableEq

structure StoreFaults where
  get : Bool := false
  query : Option QueryFault := none
  scan : Bool := false

namespace Store

/-- The item `put_instance` writes; the index attribute only when it is non-empty. -/
def rowOf (inst : ServiceInstance) : Row :=
  { instanceId := inst.instanceId
    organizationGuid := inst.organizationGuid.filter fun g => decide (g≠"")
    payload := some inst }

def putRow (hash : String → Nat) (row : Row) : List Row → List Row
  | [] => [row]
  | r::rows =>
    if r.instanceId=row.instanceId then row::rows
    else if hash row.instanceId < hash r.instanceId ∧
        ∀ q∈rows, q.instanceId≠row.instanceId then row::r::rows
    else r::putRow hash row rows

def putInstance (hash : String → Nat) (inst : ServiceInstance) (rows : List Row) : List Row :=
  putRow hash (rowOf inst) rows

def deleteInstance (instanceId : String) (rows : List Row) : List Row :=
  rows.filter fun r => decide (r.instanceId≠instanceId)

def findRow (instanceId : String) (rows : List Row) : Option Row :=
  rows.find? fun r => decide (r.instanceId=instanceId)

/-- `get_instance`: a failed read answers `None`, a missing payload raises. -/
def getInstance (faults : StoreFaults) (rows : List Row) (instanceId : String) :
    Except HttpError (Option ServiceInstance) :=
  if faults.get then .ok none
  else match findRow instanceId rows with
    | none => .ok none
    | some row =>
      match row.payload with
      | none => .error ⟨500, .str "'payload'"⟩
      | some inst => .ok (some inst)

def stored (rows : List Row) (instanceId : String) : Option ServiceInstance :=
  (findRow instanceId rows).bind Row.payload

def pageLimit (limit : Int) : Nat := (min (max limit 1) 1000).toNat

/-- The loop over a page: rows of another organization are skipped, and the loop
stops once `limit` instances are taken. -/
def collect (organizationGuid : Option String) (limit : Int) : Nat → List Row →
    List ServiceInstance
  | _, [] => []
  | taken, row::rows =>
    match row.payload with
    | none => collect organizationGuid limit taken rows
    | some inst =>
      if organizationGuid≠none ∧ inst.organizationGuid≠organizationGuid then
        collect organizationGuid limit taken rows
      else
        inst::(if limit≤(taken+1 : Nat) then []
          else collect organizationGuid limit (taken+1) rows)

def scan (rows : List Row) (limit : Int) : List Row := rows.take (pageLimit limit)

def queryOrgIndex (rows : List Row) (organizationGuid : String) (limit : Int) : List Row :=
  (rows.filter fun r => decide (r.organizationGuid=some organizationGuid)).take (pageLimit limit)

def listInstances (faults : StoreFaults) (rows : List Row) (organizationGuid : Option String)
    (limit : Int) : List ServiceInstance :=
  match organizationGuid with
  | none => if faults.scan then [] else collect none limit 0 (scan rows limit)
  | some guid =>
    match faults.query with
    | none => collect (some guid) limit 0 (queryOrgIndex rows guid limit)
    | some .other => []
    -- the index is missing on older tables: fall back to a bounded scan
    | some _ => if faults.scan then [] else collect (some guid) limit 0 (scan rows limit)

theorem collect_organization (guid : String) (limit : Int) (taken : Nat) (rows : List Row)
    (inst : ServiceInstance) (h : inst∈collect (some guid) limit taken rows) :
    inst.organizationGuid=some guid := by
  induction rows generalizing taken with
  | nil => simp [collect] at h
  | cons row rows ih =>
    simp only [collect] at h
    split at h
    · exact ih taken h
    · next inst' _ =>
      split at h
      · exact ih taken h
      · next hne =>
        obtain he | ht := List.mem_cons.mp h
        · subst he
          simpa using hne
        · split at ht
          · simp at ht
          · exact ih (taken+1) ht

/-- Listing for an organization returns only instances of that organization. -/
theorem listInstances_organization (faults : StoreFaults) (rows : List Row) (guid : String)
    (limit : Int) (inst : ServiceInstance)
    (h : inst∈listInstances faults rows (some guid) limit) :
    inst.organizationGuid=some guid := by
  simp only [listInstances] at h
  split at h
  · exact collect_organization guid limit 0 _ inst h
  · simp at h
  · split at h
    · simp at h
    · exact collect_organization guid limit 0 _ inst h

theorem findRow_putRow_same (hash : String → Nat) (row : Row) (rows : List Row) :
    findRow row.instanceId (putRow hash row rows)=some row := by
  induction rows with
  | nil => simp [putRow, findRow]
  | cons r rows ih =>
    simp only [putRow]
    split
    · simp [findRow]
    · next hne =>
      split
      · simp [findRow]
      · simpa [findRow, hne] using ih

theorem findRow_putRow_other (hash : String → Nat) (row : Row) (rows : List Row)
    (instanceId : String) (h : instanceId≠row.instanceId) :
    findRow instanceId (putRow hash row rows)=findRow instanceId rows := by
  have h' : row.instanceId≠instanceId := Ne.symm h
  induction rows with
  | nil => simp [putRow, findRow, h']
  | cons r rows ih =>
    simp only [putRow]
    split
    · next he =>
      have hr : r.instanceId≠instanceId := by rw [he]; exact h'
      simp [findRow, h', hr]
    · split
      · simp [findRow, h']
      · simp only [findRow, List.find?_cons] at ih ⊢
        rw [ih]

@[simp] theorem stored_putInstance_same (hash : String → Nat) (inst : ServiceInstance)
    (rows : List Row) : stored (putInstance hash inst rows) inst.instanceId=some inst := by
  have h : findRow inst.instanceId (putRow hash (rowOf inst) rows)=some (rowOf inst) :=
    findRow_putRow_same hash (rowOf inst) rows
  rw [stored, putInstance, h]
  rfl

theorem stored_putInstance_other (hash : String → Nat) (inst : ServiceInstance)
    (rows : List Row) (instanceId : String) (h : instanceId≠inst.instanceId) :
    stored (putInstance hash inst rows) instanceId=stored rows instanceId := by
  rw [stored, putInstance, findRow_putRow_other hash (rowOf inst) rows instanceId h, stored]

theorem stored_putInstance (hash : String → Nat) (inst : ServiceInstance) (rows : List Row)
    (instanceId : String) :
    stored (putInstance hash inst rows) instanceId =
      if instanceId=inst.instanceId then some inst else stored rows instanceId := by
  by_cases h : instanceId=inst.instanceId
  · subst h
    simp
  · rw [stored_putInstance_other hash inst rows instanceId h, if_neg h]

theorem findRow_deleteInstance (rows : List Row) (deleted instanceId : String) :
    findRow instanceId (deleteInstance deleted rows) =
      if instanceId=deleted then none else findRow instanceId rows := by
  rw [findRow, deleteInstance, List.find?_filter]
  split
  · next h =>
    subst h
    rw [List.find?_eq_none]
    intro r _
    simp
  · next h =>
    rw [findRow]
    congr 1
    funext r
    by_cases hr : r.instanceId=instanceId <;> simp [hr, h]

theorem stored_deleteInstance (rows : List Row) (deleted instanceId : String) :
    stored (deleteInstance deleted rows) instanceId =
      if instanceId=deleted then none else stored rows instanceId := by
  rw [stored, findRow_deleteInstance]
  split <;> rfl

/-- What `putInstance` and `deleteInstance` make of the empty table: one row for a key,
each written from a record. -/
structure WellFormed (rows : List Row) : Prop where
  nodup : (rows.map Row.instanceId).Nodup
  written : ∀ r∈rows, ∃ inst, r=rowOf inst

theorem WellFormed.nil : WellFormed [] := ⟨List.nodup_nil, by simp⟩

theorem mem_putRow (hash : String → Nat) (row r : Row) (rows : List Row)
    (h : r∈putRow hash row rows) : r=row ∨ r∈rows := by
  induction rows with
  | nil => exact Or.inl (List.mem_singleton.mp h)
  | cons q rows ih =>
    simp only [putRow] at h
    split at h
    · obtain h | h := List.mem_cons.mp h
      · exact Or.inl h
      · exact Or.inr (List.mem_cons_of_mem q h)
    · split at h
      · exact List.mem_cons.mp h
      · obtain h | h := List.mem_cons.mp h
        · exact Or.inr (h ▸ List.mem_cons_self)
        · obtain h | h := ih h
          · exact Or.inl h
          · exact Or.inr (List.mem_cons_of_mem q h)

theorem nodup_putRow (hash : String → Nat) (row : Row) (rows : List Row)
    (h : (rows.map Row.instanceId).Nodup) :
    ((putRow hash row rows).map Row.instanceId).Nodup := by
  induction rows with
  | nil => simp [putRow]
  | cons q rows ih =>
    have hq : q.instanceId∉rows.map Row.instanceId := (List.nodup_cons.mp h).1
    have hn : (rows.map Row.instanceId).Nodup := (List.nodup_cons.mp h).2
    simp only [putRow]
    split
    · next he => exact List.nodup_cons.mpr ⟨he ▸ hq, hn⟩
    · next hne =>
      split
      · next hnew =>
        refine List.nodup_cons.mpr ⟨?_, h⟩
        intro hm
        obtain ⟨r, hr, he⟩ := List.mem_map.mp hm
        obtain rfl | hr := List.mem_cons.mp hr
        · exact hne he
        · exact hnew.2 r hr he
      · refine List.nodup_cons.mpr ⟨?_, ih hn⟩
        intro hm
        obtain ⟨r, hr, he⟩ := List.mem_map.mp hm
        obtain rfl | hr := mem_putRow hash row r rows hr
        · exact hne he.symm
        · exact hq (List.mem_map.mpr ⟨r, hr, he⟩)

theorem WellFormed.putInstance {rows : List Row} (h : WellFormed rows) (hash : String → Nat)
    (inst : ServiceInstance) : WellFormed (putInstance hash inst rows) where
  nodup := nodup_putRow hash (rowOf inst) rows h.nodup
  written := by
    intro r hr
    obtain rfl | hr := mem_putRow hash (rowOf inst) r rows hr
    · exact ⟨inst, rfl⟩
    · exact h.written r hr

theorem WellFormed.deleteInstance {rows : List Row} (h : WellFormed rows)
    (instanceId : String) : WellFormed (deleteInstance instanceId rows) where
  nodup := h.nodup.sublist (List.filter_sublist.map Row.instanceId)
  written := fun r hr => h.written r (List.mem_filter.mp hr).1

theorem findRow_of_mem {rows : List Row} {r : Row} (hn : (rows.map Row.instanceId).Nodup)
    (hr : r∈rows) : findRow r.instanceId rows=some r := by
  induction rows with
  | nil => simp at hr
  | cons q rows ih =>
    obtain rfl | hr := List.mem_cons.mp hr
    · simp [findRow]
    · have hq : q.instanceId≠r.instanceId := by
        intro he
        exact (List.nodup_cons.mp hn).1 (he ▸ List.mem_map.mpr ⟨r, hr, rfl⟩)
      have ih' := ih (List.nodup_cons.mp hn).2 hr
      simpa [findRow, hq] using ih'

theorem mem_collect (organizationGuid : Option String) (limit : Int) (taken : Nat)
    (rows : List Row) (inst : ServiceInstance)
    (h : inst∈collect organizationGuid limit taken rows) :
    ∃ r∈rows, r.payload=some inst := by
  induction rows generalizing taken with
  | nil => simp [collect] at h
  | cons row rows ih =>
    have hrest : ∀ n, inst∈collect organizationGuid limit n rows →
        ∃ r∈row::rows, r.payload=some inst := by
      intro n hn
      obtain ⟨r, hr, hp⟩ := ih n hn
      exact ⟨r, List.mem_cons_of_mem row hr, hp⟩
    simp only [collect] at h
    split at h
    · exact hrest taken h
    · next inst' hp =>
      split at h
      · exact hrest taken h
      · obtain rfl | ht := List.mem_cons.mp h
        · exact ⟨row, List.mem_cons_self, hp⟩
        · split at ht
          · simp at ht
          · exact hrest (taken+1) ht

theorem WellFormed.stored_eq {rows : List Row} (hw : WellFormed rows) {instanceId : String}
    {inst : ServiceInstance} (h : stored rows instanceId=some inst) :
    inst.instanceId=instanceId := by
  obtain ⟨r, hr, hp⟩ := Option.bind_eq_some_iff.mp h
  obtain ⟨x, rfl⟩ := hw.written r (List.mem_of_find?_eq_some hr)
  have he : (rowOf x).instanceId=instanceId := by simpa using List.find?_some hr
  have hx : x=inst := Option.some.inj hp
  rw [← hx]
  exact he

theorem WellFormed.stored_of_mem_list {rows : List Row} (hw : WellFormed rows)
    {faults : StoreFaults} {limit : Int} {inst : ServiceInstance}
    (h : inst∈listInstances faults rows none limit) :
    stored rows inst.instanceId=some inst := by
  simp only [listInstances] at h
  split at h
  · simp at h
  · obtain ⟨r, hr, hp⟩ := mem_collect none limit 0 _ inst h
    have hm : r∈rows := List.mem_of_mem_take hr
    obtain ⟨x, rfl⟩ := hw.written r hm
    have hx : x=inst := Option.some.inj hp
    subst hx
    have hf : findRow x.instanceId rows=some (rowOf x) := findRow_of_mem hw.nodup hm
    rw [stored, hf]
    rfl

theorem WellFormed.take {rows : List Row} (hw : WellFormed rows) (n : Nat) :
    WellFormed (rows.take n) where
  nodup := hw.nodup.sublist ((List.take_sublist n rows).map Row.instanceId)
  written := fun r hr => hw.written r (List.mem_of_mem_take hr)

theorem stored_take {rows : List Row} {n : Nat} {instanceId : String} {inst : ServiceInstance}
    (h : stored (rows.take n) instanceId=some inst) : stored rows instanceId=some inst := by
  obtain ⟨r, hr, hp⟩ := Option.bind_eq_some_iff.mp h
  have hfind : findRow instanceId rows=some r := by
    rw [findRow, ← List.take_append_drop n rows, List.find?_append, ← findRow, hr]
    rfl
  rw [stored, hfind]
  exact hp

theorem ids_collect (limit : Int) (taken : Nat) (rows : List Row)
    (hw : ∀ r∈rows, ∃ inst, r=rowOf inst) (hl : (taken+rows.length : Int)≤ max limit 1) :
    (collect none limit taken rows).map ServiceInstance.instanceId=rows.map Row.instanceId := by
  induction rows generalizing taken with
  | nil => rfl
  | cons row rows ih =>
    obtain ⟨inst, he⟩ := hw row List.mem_cons_self
    have hrest : ∀ r∈rows, ∃ inst, r=rowOf inst :=
      fun r hr => hw r (List.mem_cons_of_mem row hr)
    simp only [List.length_cons] at hl
    subst he
    simp only [collect, rowOf, ne_eq, not_true_eq_false, false_and, if_false, List.map_cons]
    split
    · have hz : rows.length=0 := by omega
      rw [List.length_eq_zero_iff.mp hz]
      rfl
    · rw [ih (taken+1) hrest (by omega)]

/-- A listing without a fault is the first page of the table. -/
theorem WellFormed.ids_listInstances {rows : List Row} (hw : WellFormed rows)
    {faults : StoreFaults} (hf : faults.scan=false) (limit : Int) :
    (listInstances faults rows none limit).map ServiceInstance.instanceId =
      (rows.map Row.instanceId).take (pageLimit limit) := by
  have hlen : (((scan rows limit).length : Nat) : Int)≤ max limit 1 := by
    have h : (scan rows limit).length≤pageLimit limit := List.length_take_le _ _
    simp only [pageLimit] at h
    omega
  simp only [listInstances, hf, Bool.false_eq_true, if_false]
  rw [ids_collect limit 0 (scan rows limit) (fun r hr => hw.written r (List.mem_of_mem_take hr))
    (by omega), scan, List.map_take]

theorem WellFormed.nodup_listInstances {rows : List Row} (hw : WellFormed rows)
    (faults : StoreFaults) (limit : Int) :
    ((listInstances faults rows none limit).map ServiceInstance.instanceId).Nodup := by
  cases hf : faults.scan with
  | true => simp [listInstances, hf]
  | false =>
    rw [hw.ids_listInstances hf]
    exact hw.nodup.sublist (List.take_sublist _ _)

theorem ids_putInstance {rows : List Row} (hash : String → Nat) {inst : ServiceInstance}
    (h : inst.instanceId∈rows.map Row.instanceId) :
    (putInstance hash inst rows).map Row.instanceId=rows.map Row.instanceId := by
  rw [putInstance]
  induction rows with
  | nil => cases h
  | cons r rows ih =>
    simp only [putRow]
    split
    · next he => simp [he]
    · next hne =>
      have hr : inst.instanceId∈rows.map Row.instanceId :=
        (List.mem_cons.mp h).resolve_left fun he => hne he.symm
      split
      · next hnew =>
        obtain ⟨q, hq, he⟩ := List.mem_map.mp hr
        exact absurd he (hnew.2 q hq)
      · rw [List.map_cons, ih hr, List.map_cons]

theorem WellFormed.mem_ids_iff {rows : List Row} (hw : WellFormed rows) (instanceId : String) :
    instanceId∈rows.map Row.instanceId ↔ ∃ inst, stored rows instanceId=some inst := by
  constructor
  · intro h
    obtain ⟨r, hr, he⟩ := List.mem_map.mp h
    obtain ⟨inst, hri⟩ := hw.written r hr
    refine ⟨inst, ?_⟩
    rw [stored, ← he, findRow_of_mem hw.nodup hr, hri]
    rfl
  · intro h
    obtain ⟨inst, hs⟩ := h
    obtain ⟨r, hr, _⟩ := Option.bind_eq_some_iff.mp hs
    refine List.mem_map.mpr ⟨r, List.mem_of_find?_eq_some hr, ?_⟩
    simpa using List.find?_some hr

theorem stored_of_getInstance {faults : StoreFaults} {rows : List Row} {instanceId : String}
    {inst : ServiceInstance} (h : getInstance faults rows instanceId=.ok (some inst)) :
    stored rows instanceId=some inst := by
  simp only [getInstance] at h
  split at h
  · simp at h
  · split at h
    · simp at h
    · next row hr =>
      split at h
      · simp at h
      · next x hp =>
        have hx : x=inst := by simpa using h
        rw [stored, hr, ← hx]
        exact hp

/-- Where nothing is stored a read answers `None`, whether it fails or not. -/
theorem WellFormed.getInstance_none {rows : List Row} (hw : WellFormed rows)
    {instanceId : String} (h : stored rows instanceId=none) (faults : StoreFaults) :
    getInstance faults rows instanceId=.ok none := by
  cases hr : findRow instanceId rows with
  | none =>
    rw [getInstance, hr]
    split <;> rfl
  | some r =>
    obtain ⟨inst, rfl⟩ := hw.written r (List.mem_of_find?_eq_some hr)
    rw [stored, hr] at h
    cases h

end Store
end Sovereign
