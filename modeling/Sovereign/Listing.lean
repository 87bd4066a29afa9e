import Sovereign.Store

/-! What a listing for one organization returns: from the index, and from the scan the store
falls back to on a table without the index. -/
namespace Sovereign.Store
open Sovereign

def owner (r : Row) : Option String := r.payload.bind ServiceInstance.organizationGuid

def matching (guid : String) (rows : List Row) : List ServiceInstance :=
  (rows.filterMap Row.payload).filter fun inst => decide (inst.organizationGuid=some guid)

/-- What a listing is for: as many stored instances of the organization as there are and as
the limit asks for, and no others. -/
structure Exact (guid : String) (limit : Int) (rows : List Row) (got : List ServiceInstance) :
    Prop where
  bounded : (got.length : Int) ≤ max limit 0
  owned : ∀ inst∈got, inst.organizationGuid=some guid
  among : got.Subperm (matching guid rows)
  count : (got.length : Int)=min (max limit 0) (matching guid rows).length

section Matching
variable {guid : String} {limit : Int} {rows rows' : List Row}

theorem matching_cons (guid : String) (row : Row) (rows : List Row) :
    matching guid (row::rows)=matching guid [row]++matching guid rows := by
  rw [matching, matching, matching, ← List.filter_append, ← List.filterMap_append]
  rfl

theorem matching_append (guid : String) (rows rows' : List Row) :
    matching guid (rows++rows')=matching guid rows++matching guid rows' := by
  rw [matching, List.filterMap_append, List.filter_append]
  rfl

theorem matching_singleton (guid : String) (row : Row) :
    (matching guid [row]).length=if owner row=some guid then 1 else 0 := by
  cases hp : row.payload with
  | none => simp [matching, owner, hp]
  | some inst =>
    by_cases hg : inst.organizationGuid=some guid
    · simp [matching, owner, hp, hg]
    · simp [matching, owner, hp, hg]

theorem length_matching (guid : String) (rows : List Row) :
    (matching guid rows).length=rows.countP fun r => decide (owner r=some guid) := by
  induction rows with
  | nil => rfl
  | cons row rows ih =>
    rw [matching_cons, List.length_append, matching_singleton, ih, List.countP_cons]
    by_cases hg : owner row=some guid
    · simp [hg, Nat.add_comm]
    · simp [hg]

theorem owner_of_mem_matching {inst : ServiceInstance} (h : inst∈matching guid rows) :
    inst.organizationGuid=some guid := by
  simpa using (List.mem_filter.mp h).2

/-- The loop takes the matching records of the page up to the limit, and one at least. -/
theorem collect_eq_take (guid : String) (limit : Int) (taken : Nat) (rows : List Row) :
    collect (some guid) limit taken rows =
      (matching guid rows).take (max 1 (limit-taken)).toNat := by
  induction rows generalizing taken with
  | nil => simp [collect, matching]
  | cons row rows ih =>
    rw [matching_cons]
    cases hp : row.payload with
    | none =>
      have hnone : matching guid [row]=[] := by simp [matching, hp]
      simp only [collect, hp]
      rw [hnone, List.nil_append]
      exact ih taken
    | some inst =>
      by_cases hg : inst.organizationGuid=some guid
      · have hone : matching guid [row]=[inst] := by simp [matching, hp, hg]
        have hpos : (max 1 (limit-taken)).toNat=((max 1 (limit-taken)).toNat-1)+1 := by omega
        simp only [collect, hp]
        rw [hone, List.singleton_append, hpos, List.take_succ_cons,
          if_neg (fun h => h.2 hg)]
        congr 1
        split
        · next hl =>
          have hz : (max 1 (limit-taken)).toNat-1=0 := by omega
          rw [hz, List.take_zero]
        · next hl =>
          have hn : (max 1 (limit-taken)).toNat-1=(max 1 (limit-(taken+1 : Nat))).toNat := by omega
          rw [hn]
          exact ih (taken+1)
      · have hnone : matching guid [row]=[] := by simp [matching, hp, hg]
        simp only [collect, hp]
        rw [hnone, List.nil_append, if_pos ⟨by simp, hg⟩]
        exact ih taken

theorem matching_subset (h : rows.Sublist rows') :
    (matching guid rows).Sublist (matching guid rows') := (h.filterMap _).filter _

/-- A listing is a sublist of the matching records, whichever page it comes from. -/
theorem collect_sublist {page : List Row} (h : page.Sublist rows) :
    (collect (some guid) limit 0 page).Sublist (matching guid rows) := by
  rw [collect_eq_take]
  exact (List.take_sublist _ _).trans (matching_subset h)

theorem length_collect (guid : String) {page : List Row} (h : page.length ≤ pageLimit limit)
    (hl : limit≤1000) :
    (collect (some guid) limit 0 page).length=(matching guid page).length := by
  have hle : (matching guid page).length ≤ page.length := by
    rw [length_matching]
    exact List.countP_le_length
  have hpage : pageLimit limit=(max 1 (limit-(0 : Nat))).toNat := by
    simp only [pageLimit]
    omega
  rw [collect_eq_take, List.take_of_length_le (by omega)]

/-- A sublist of the matching records is exact when it is long enough. -/
theorem exact_iff_count {got : List ServiceInstance} (h : got.Sublist (matching guid rows)) :
    Exact guid limit rows got ↔
      (got.length : Int)=min (max limit 0) (matching guid rows).length := by
  constructor
  · intro he
    exact he.count
  · intro hc
    exact ⟨by omega, fun inst hi => owner_of_mem_matching (h.subset hi), h.subperm, hc⟩

end Matching

/-- Where the index gives what was asked for: a limit of at least one, and a name that is not
empty, since the empty one has no entry in the index. -/
def IndexReaches (guid : String) (limit : Int) (rows : List Row) : Prop :=
  (∀ r∈rows, owner r≠some guid) ∨ (1 ≤ limit ↔ guid≠"")

/-- Where the scan does: its page holds all rows of the organization or none but these, and
none at all when nothing is asked for. -/
def ScanReaches (guid : String) (limit : Int) (rows : List Row) : Prop :=
  if 1 ≤ limit then
    (∀ r∈rows.drop (pageLimit limit), owner r≠some guid) ∨
    ∀ r∈rows.take (pageLimit limit), owner r=some guid
  else ∀ r∈rows.take (pageLimit limit), owner r≠some guid

/-- The index answers, or it does not exist and the scan answers. -/
def Answered (faults : StoreFaults) : Prop :=
  faults.query≠some .other ∧ (faults.query≠none → faults.scan=false)

instance IndexReaches.instDecidable (guid : String) (limit : Int) (rows : List Row) :
    Decidable (IndexReaches guid limit rows) := inferInstanceAs (Decidable (_ ∨ _))

instance ScanReaches.instDecidable (guid : String) (limit : Int) (rows : List Row) :
    Decidable (ScanReaches guid limit rows) := inferInstanceAs (Decidable (ite _ _ _))

instance Answered.instDecidable (faults : StoreFaults) : Decidable (Answered faults) :=
  inferInstanceAs (Decidable (_ ∧ _))

section Pages
variable {guid : String} {limit : Int} {rows : List Row}

theorem matching_nil_iff : (matching guid rows).length=0 ↔ ∀ r∈rows, owner r≠some guid := by
  rw [length_matching, List.countP_eq_zero]
  simp only [decide_eq_true_eq, ne_eq]

theorem matching_full_iff :
    (matching guid rows).length=rows.length ↔ ∀ r∈rows, owner r=some guid := by
  rw [length_matching, List.countP_eq_length]
  simp only [decide_eq_true_eq]

/-- The records on a page and behind it. -/
theorem length_matching_split (guid : String) (rows : List Row) (n : Nat) :
    (matching guid rows).length =
      (matching guid (rows.take n)).length+(matching guid (rows.drop n)).length := by
  rw [← List.length_append, ← matching_append, List.take_append_drop]

theorem length_matching_le (guid : String) (rows : List Row) :
    (matching guid rows).length ≤ rows.length := by
  rw [length_matching]
  exact List.countP_le_length

/-- A page misses nothing exactly when it holds all the rows or none but these. -/
theorem page_count_iff (guid : String) (rows : List Row) (n : Nat) :
    (matching guid (rows.take n)).length=min n (matching guid rows).length ↔
      (∀ r∈rows.drop n, owner r≠some guid) ∨ ∀ r∈rows.take n, owner r=some guid := by
  have hsplit := length_matching_split guid rows n
  have hle := length_matching_le guid (rows.take n)
  have htake : (rows.take n).length=min n rows.length := List.length_take
  have hdrop : (rows.drop n).length=rows.length-n := List.length_drop
  have hrest := length_matching_le guid (rows.drop n)
  rw [← matching_nil_iff, ← matching_full_iff]
  omega

theorem scan_exact_iff (hl : limit≤1000) :
    Exact guid limit rows (collect (some guid) limit 0 (scan rows limit)) ↔
      ScanReaches guid limit rows := by
  have hpage : (scan rows limit).length ≤ pageLimit limit := List.length_take_le _ _
  have hlen := length_collect guid hpage hl
  have hsub : (scan rows limit).Sublist rows := List.take_sublist _ _
  rw [exact_iff_count (collect_sublist hsub), hlen, ScanReaches]
  split
  · next h1 =>
    have hn : ((pageLimit limit : Nat) : Int)=max limit 0 := by
      simp only [pageLimit]
      omega
    rw [← page_count_iff, scan]
    omega
  · next h1 =>
    rw [← matching_nil_iff, scan]
    omega

/-- The index holds the rows of the organization and no others. -/
theorem WellFormed.owner_iff (hw : WellFormed rows) {r : Row} (hr : r∈rows) (hg : guid≠"") :
    r.organizationGuid=some guid ↔ owner r=some guid := by
  obtain ⟨inst, rfl⟩ := hw.written r hr
  simp only [rowOf, owner, Option.filter_eq_some_iff, decide_eq_true_eq, Option.bind_some]
  exact ⟨fun h => h.1, fun h => ⟨h, hg⟩⟩

theorem WellFormed.index_empty (hw : WellFormed rows) {r : Row} (hr : r∈rows) :
    r.organizationGuid≠some "" := by
  obtain ⟨inst, rfl⟩ := hw.written r hr
  simp [rowOf, Option.filter_eq_some_iff]

theorem WellFormed.index_exact_iff (hw : WellFormed rows) (hl : limit≤1000) :
    Exact guid limit rows (collect (some guid) limit 0 (queryOrgIndex rows guid limit)) ↔
      IndexReaches guid limit rows := by
  have hpage : (queryOrgIndex rows guid limit).length ≤ pageLimit limit := List.length_take_le _ _
  have hlen := length_collect guid hpage hl
  have hsub : (queryOrgIndex rows guid limit).Sublist rows :=
    (List.take_sublist _ _).trans List.filter_sublist
  rw [exact_iff_count (collect_sublist hsub), hlen, IndexReaches, ← matching_nil_iff]
  by_cases hg : guid=""
  · have hnone : queryOrgIndex rows guid limit=[] := by
      have hf : (rows.filter fun r => decide (r.organizationGuid=some guid))=[] := by
        rw [List.filter_eq_nil_iff]
        intro r hr
        subst hg
        simpa using hw.index_empty hr
      rw [queryOrgIndex, hf, List.take_nil]
    have hz : (matching guid []).length=0 := rfl
    rw [hnone, hz]
    simp only [hg, ne_eq, not_true_eq_false, iff_false]
    omega
  · have hown : ∀ r∈queryOrgIndex rows guid limit, owner r=some guid := by
      intro r hr
      have hf := List.mem_filter.mp (List.mem_of_mem_take hr)
      exact (hw.owner_iff hf.1 hg).mp (by simpa using hf.2)
    have hcount : (rows.filter fun r => decide (r.organizationGuid=some guid)).length =
        (matching guid rows).length := by
      rw [length_matching, ← List.countP_eq_length_filter]
      refine List.countP_congr ?_
      intro r hr
      simp only [decide_eq_true_eq]
      exact hw.owner_iff hr hg
    have hquery : (queryOrgIndex rows guid limit).length =
        min (pageLimit limit) (matching guid rows).length := by
      rw [queryOrgIndex, List.length_take, hcount]
    rw [matching_full_iff.mpr hown, hquery, pageLimit]
    simp only [hg, ne_eq, not_false_eq_true, iff_true]
    omega

end Pages

/-- On either path a listing is exact under the condition of that path, and only then. -/
theorem listInstances_exact_iff {rows : List Row} (hw : WellFormed rows) (guid : String)
    {limit : Int} (hl : limit≤1000) {faults : StoreFaults} (ha : Answered faults) :
    Exact guid limit rows (listInstances faults rows (some guid) limit) ↔
      if faults.query=none then IndexReaches guid limit rows else ScanReaches guid limit rows := by
  obtain ⟨hother, hscan⟩ := ha
  cases hq : faults.query with
  | none =>
    simp only [listInstances, hq, if_true]
    exact hw.index_exact_iff hl
  | some fault =>
    have hf := hscan (by simp [hq])
    simp only [listInstances, hq, hf, reduceCtorEq, if_false, Bool.false_eq_true]
    cases fault with
    | other => exact absurd hq hother
    | validation => exact scan_exact_iff hl
    | resourceNotFound => exact scan_exact_iff hl

def envoyOf (instanceId organizationGuid : String) : ServiceInstance :=
  { instanceId, serviceId := "sovereign-envoy-lb", planId := "standard-regional"
    organizationGuid := some organizationGuid }

def twoAgencies : List Row :=
  putInstance (fun _ => 0) (envoyOf "i2" "agency-x")
    (putInstance (fun _ => 0) (envoyOf "i1" "agency-y") [])

theorem twoAgencies_wellFormed : WellFormed twoAgencies :=
  (WellFormed.nil.putInstance _ _).putInstance _ _

def noIndex : StoreFaults := { query := some .resourceNotFound }

theorem listInstances_exact_twoAgencies :
    Exact "agency-x" 2 twoAgencies (listInstances noIndex twoAgencies (some "agency-x") 2) :=
  (listInstances_exact_iff twoAgencies_wellFormed "agency-x" (by decide) (by decide)).mpr
    (by decide +kernel)

/-- With a limit of one the scan sees the other organization's row only, and with a limit of
zero the index still gives an instance. -/
theorem listInstances_differ :
    WellFormed twoAgencies ∧ (matching "agency-x" twoAgencies).length=1 ∧
    (listInstances {} twoAgencies (some "agency-x") 1).length=1 ∧
    listInstances noIndex twoAgencies (some "agency-x") 1=[] ∧
    (listInstances {} twoAgencies (some "agency-x") 0).length=1 ∧
    ¬ Exact "agency-x" 1 twoAgencies (listInstances noIndex twoAgencies (some "agency-x") 1) ∧
    ¬ Exact "agency-x" 0 twoAgencies (listInstances {} twoAgencies (some "agency-x") 0) := by
  refine ⟨twoAgencies_wellFormed, by decide +kernel, by decide +kernel, by decide +kernel,
    by decide +kernel, fun h => ?_, fun h => ?_⟩
  · have hcount := h.count
    revert hcount
    decide +kernel
  · have hbounded := h.bounded
    revert hbounded
    decide +kernel

end Sovereign.Store
