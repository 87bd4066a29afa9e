import Sovereign.IsoFormat
import Sovereign.Quota
import Sovereign.Store
import Sovereign.Utf8
import Mathlib.Data.List.Sort

/-! The usage table and its query: a range of the keys, which are texts, latest key first, cut
at the limit before the resource filters are applied. -/
namespace Sovereign.UsageStore
open IsoFormat

abbrev Usage := Sovereign.Usage DateTime

def eventId (usage : Usage) (suffix : List Char) : List Char :=
  usage.ts.isoformat ++ '#'::(usage.resourceId.toList ++ '#'::suffix)

/-- An item of the table. A payload that is no text is `none`; the text of a record is that
record. -/
structure Item where
  tenantId : String
  eventId : List Char
  payload : Option Usage

def item (usage : Usage) (suffix : List Char) : Item :=
  { tenantId := usage.tenantId, eventId := eventId usage suffix, payload := some usage }

def Item.key (x : Item) : String × List Char := (x.tenantId, x.eventId)

structure Table where
  items : List Item := []
  written : ∀ x∈items, ∃ usage suffix, x=item usage suffix := by simp
  distinct : (items.map Item.key).Nodup := by simp

/-- The suffix is the one drawn at random. -/
def Table.record (t : Table) (usage : Usage) (suffix : List Char) : Table where
  items := item usage suffix::t.items.filter fun x => decide (x.key≠(item usage suffix).key)
  written := by
    intro x hx
    obtain rfl | hx := List.mem_cons.mp hx
    · exact ⟨usage, suffix, rfl⟩
    · exact t.written x (List.mem_of_mem_filter hx)
  distinct := by
    rw [List.map_cons, List.nodup_cons]
    constructor
    · intro hm
      obtain ⟨x, hx, he⟩ := List.mem_map.mp hm
      exact of_decide_eq_true (List.mem_filter.mp hx).2 he
    · exact t.distinct.sublist (List.filter_sublist.map Item.key)

def Table.records (t : Table) (tenantId : String) : List Usage :=
  (t.items.filter fun x => decide (x.tenantId=tenantId)).filterMap Item.payload

structure Query where
  since : Option DateTime := none
  until' : Option DateTime := none
  resourceId : Option String := none
  resourceType : Option String := none
  limit : Int := 100

/-- The range of keys. The backend refuses one that ends before it starts. -/
def keyCondition (refusal : String) : Option DateTime → Option DateTime →
    Except String (List Char → Bool)
  | some lo, some hi =>
    if hi.isoformat < lo.isoformat then .error refusal
    else .ok fun id => !decide (id < lo.isoformat) && !decide (hi.isoformat < id)
  | some lo, none => .ok fun id => !decide (id < lo.isoformat)
  | none, some hi => .ok fun id => decide (id < hi.isoformat)
  | none, none => .ok fun _ => true

/-- The record passes the `continue`s of the loop over the page. -/
def Query.selects (q : Query) (u : Usage) : Bool :=
  (q.resourceId.all fun r => decide (u.resourceId=r)) &&
  (q.resourceType.all fun r => decide (u.resourceType=r))

def newest (items : List Item) : List Item :=
  items.insertionSort fun x y => y.eventId ≤ x.eventId

/-- `refusal` is the text of the backend's error, and one answer has room for the items that
`holds` says, latest first. -/
def query (holds : List Item → Nat) (refusal : String) (items : List Item) (tenantId : String) (q : Query) :
    Except String (List Usage) :=
  match keyCondition refusal q.since q.until' with
  | .error exc => .error ("usage query failed: " ++ exc)
  | .ok within =>
    let found := newest (items.filter fun x => decide (x.tenantId=tenantId) && within x.eventId)
    .ok (((onePage holds (Store.pageLimit q.limit) found).filterMap Item.payload).filter q.selects)

section Keys
variable (usage : Usage) (suffix : List Char) (bound : DateTime)

theorem eventId_lt_iff : eventId usage suffix < bound.isoformat ↔ Sorts usage.ts bound := by
  rw [eventId, TextOrder.delimited_lt_iff (isoformat_above bound), isoformat_lt_iff]

/-- The bare text of a bound is no key. -/
theorem lt_eventId_iff : bound.isoformat < eventId usage suffix ↔ ¬Sorts usage.ts bound := by
  rw [eventId, TextOrder.lt_delimited_iff (isoformat_above bound), ← isoformat_lt_iff]
  obtain hlt | heq | hgt := lt_trichotomy usage.ts.isoformat bound.isoformat
  · simp [hlt, List.lt_asymm hlt, hlt.ne']
  · simp [heq]
  · simp [hgt, List.lt_asymm hgt]

theorem eventId_lt_eventId {u v : Usage} (h : Sorts u.ts v.ts) (suffix' : List Char) :
    eventId u suffix < eventId v suffix' :=
  TextOrder.delimited_lt_delimited (isoformat_above u.ts) (isoformat_above v.ts)
    ((isoformat_lt_iff u.ts v.ts).mpr h)

end Keys

section Page
variable {items : List Item} {t : Table} {tenantId : String}

theorem newest_perm (items : List Item) : (newest items).Perm items :=
  List.perm_insertionSort _ items

theorem newest_pairwise (items : List Item) :
    (newest items).Pairwise fun x y => y.eventId ≤ x.eventId :=
  Sorting.sorted_by (fun x : Item => OrderDual.toDual x.eventId) items

theorem mem_newest {x : Item} : x∈newest items ↔ x∈items := (newest_perm items).mem_iff

theorem length_filterMap_payload (h : ∀ x∈items, ∃ usage suffix, x=item usage suffix) :
    (items.filterMap Item.payload).length=items.length := by
  induction items with
  | nil => rfl
  | cons x items ih =>
    obtain ⟨hx, hitems⟩ := List.forall_mem_cons.mp h
    obtain ⟨usage, suffix, rfl⟩ := hx
    simp [item, ih hitems]

theorem Table.length_records (t : Table) (tenantId : String) :
    (t.records tenantId).length=(t.items.filter fun x => decide (x.tenantId=tenantId)).length :=
  length_filterMap_payload fun x hx => t.written x (List.mem_of_mem_filter hx)

/-- What is chosen by the key is chosen by the record. -/
theorem filterMap_payload_filter (h : ∀ x∈items, ∃ usage suffix, x=item usage suffix)
    {holds : Item → Bool} {keeps : Usage → Bool}
    (hk : ∀ usage suffix, holds (item usage suffix)=keeps usage) :
    (items.filter holds).filterMap Item.payload=(items.filterMap Item.payload).filter keeps := by
  induction items with
  | nil => rfl
  | cons x items ih =>
    obtain ⟨hx, hitems⟩ := List.forall_mem_cons.mp h
    obtain ⟨usage, suffix, rfl⟩ := hx
    cases hkeep : keeps usage with
    | true =>
      rw [List.filter_cons_of_pos ((hk usage suffix).trans hkeep)]
      simp [item, hkeep, ih hitems]
    | false =>
      rw [List.filter_cons_of_neg (by rw [hk, hkeep]; decide)]
      simp [item, hkeep, ih hitems]

theorem forall_of_descending {α κ : Type} [LinearOrder κ] {key : α → κ} {R : α → α → Prop}
    {l : List α} (hkey : l.Pairwise fun x y => key y ≤ key x) (h : l.Pairwise R) {x y : α}
    (hx : x∈l) (hy : y∈l) (hlt : key y < key x) : R x y := by
  have hdown : l.Pairwise fun x y => key y < key x → R x y := by
    refine h.imp ?_
    intro x y hxy _
    exact hxy
  have hup : l.Pairwise (flip fun x y => key y < key x → R x y) :=
    hkey.imp fun hle hlt => absurd hlt hle.not_gt
  have hself : ∀ x∈l, key x < key x → R x x := fun x _ hlt => absurd hlt (lt_irrefl _)
  exact hdown.forall_of_forall_of_flip hself hup hx hy hlt

end Page

section Window
variable (holds : List Item → Nat) (refusal : String) (t : Table) (tenantId : String)
  (since until' : DateTime)

def inRange (u : Usage) : Bool := !decide (Sorts u.ts since) && decide (Sorts u.ts until')

def inWindow (u : Usage) : Bool :=
  decide (since.instant ≤ u.ts.instant ∧ u.ts.instant < until'.instant)

/-- The items of the range, latest key first. -/
def Table.found : List Item :=
  newest ((t.items.filter fun x => decide (x.tenantId=tenantId)).filter fun x =>
    !decide (x.eventId < since.isoformat) && !decide (until'.isoformat < x.eventId))

/-- The wall clocks, with the offsets where they agree, tell of the records what the instants
tell. -/
structure ClocksAgree (records : List Usage) (since until' : DateTime) : Prop where
  bounds : ¬Sorts until' since
  window : ∀ u∈records, inRange since until' u=inWindow since until' u
  order : ∀ u∈records, ∀ v∈records, inWindow since until' u=true → inWindow since until' v=true →
    Sorts u.ts v.ts → u.ts.instant ≤ v.ts.instant

variable {holds refusal t tenantId since until'}

theorem keyCondition_between : keyCondition refusal (some since) (some until')=
    if Sorts until' since then .error refusal
    else .ok fun id => !decide (id < since.isoformat) && !decide (until'.isoformat < id) := by
  simp only [keyCondition, isoformat_lt_iff]

theorem query_window (limit : Int) :
    query holds refusal t.items tenantId { since := some since, until' := some until', limit }=
      if Sorts until' since then .error ("usage query failed: " ++ refusal)
      else .ok ((onePage holds (Store.pageLimit limit) (t.found tenantId since until')).filterMap
        Item.payload) := by
  have hall : (Query.selects { since := some since, until' := some until', limit })=
      fun _ => true := rfl
  rw [query, keyCondition_between, hall]
  by_cases h : Sorts until' since
  · rw [if_pos h, if_pos h]
  · rw [if_neg h, if_neg h, Table.found, List.filter_filter]
    simp only [List.filter_true, Bool.and_comm]

theorem key_inRange (u : Usage) (suffix : List Char) :
    (!decide ((item u suffix).eventId < since.isoformat) &&
      !decide (until'.isoformat < (item u suffix).eventId))=inRange since until' u := by
  simp [item, inRange, eventId_lt_iff, lt_eventId_iff]

theorem mem_found {x : Item} (h : x∈t.found tenantId since until') :
    ∃ u suffix, x=item u suffix ∧ u∈t.records tenantId ∧ inRange since until' u=true := by
  obtain ⟨htenant, hrange⟩ := List.mem_filter.mp (mem_newest.mp h)
  obtain ⟨u, suffix, rfl⟩ := t.written x (List.mem_of_mem_filter htenant)
  refine ⟨u, suffix, rfl, List.mem_filterMap.mpr ⟨item u suffix, htenant, rfl⟩, ?_⟩
  rw [← key_inRange u suffix]
  exact hrange

theorem found_of_mem {u : Usage} (h : u∈t.records tenantId)
    (hrange : inRange since until' u=true) :
    ∃ suffix, item u suffix∈t.found tenantId since until' := by
  obtain ⟨x, hx, hpayload⟩ := List.mem_filterMap.mp h
  obtain ⟨u', suffix, rfl⟩ := t.written x (List.mem_of_mem_filter hx)
  cases hpayload
  refine ⟨suffix, mem_newest.mpr (List.mem_filter.mpr ⟨hx, ?_⟩)⟩
  rw [key_inRange u suffix]
  exact hrange

theorem found_records :
    ((t.found tenantId since until').filterMap Item.payload).Perm
      ((t.records tenantId).filter (inRange since until')) := by
  refine ((newest_perm _).filterMap Item.payload).trans (List.Perm.of_eq ?_)
  exact filterMap_payload_filter (fun x hx => t.written x (List.mem_of_mem_filter hx)) key_inRange

theorem page_found {limit : Int} (hcount : (t.records tenantId).length ≤ 1000)
    (hlimit : (t.records tenantId).length ≤ limit)
    (hholds : (t.records tenantId).length ≤ holds (t.found tenantId since until')) :
    onePage holds (Store.pageLimit limit) (t.found tenantId since until') =
      t.found tenantId since until' := by
  have hle : (t.found tenantId since until').length ≤ (t.records tenantId).length := by
    rw [Table.length_records, Table.found, (newest_perm _).length_eq]
    exact List.length_filter_le _ _
  refine onePage_whole ?_ (hle.trans hholds)
  simp only [Store.pageLimit]
  omega

def Table.Windowed (t : Table) (tenantId : String) (since until' : DateTime)
    (us : List Usage) : Prop :=
  us.Perm ((t.records tenantId).filter (inWindow since until')) ∧
    us.Pairwise fun u v => v.ts.instant ≤ u.ts.instant

theorem windowed_found (h : ClocksAgree (t.records tenantId) since until') :
    t.Windowed tenantId since until' ((t.found tenantId since until').filterMap Item.payload) := by
  constructor
  · rw [← List.filter_congr h.window]
    exact found_records
  · refine List.pairwise_filterMap.mpr ((newest_pairwise _).imp_of_mem ?_)
    intro x y hx hy hkey u hu v hv
    obtain ⟨u', suffix, rfl, hmem, hrange⟩ := mem_found hx
    obtain ⟨v', suffix', rfl, hmem', hrange'⟩ := mem_found hy
    cases hu
    cases hv
    have hnot : ¬Sorts u.ts v.ts := fun hs =>
      hkey.not_gt (eventId_lt_eventId suffix hs suffix')
    by_cases hsorts : Sorts v.ts u.ts
    · exact h.order v hmem' u hmem (h.window v hmem' ▸ hrange') (h.window u hmem ▸ hrange) hsorts
    · exact (instant_eq hsorts hnot).le

theorem agree_of_windowed (hbounds : ¬Sorts until' since)
    (h : t.Windowed tenantId since until'
      ((t.found tenantId since until').filterMap Item.payload)) :
    ClocksAgree (t.records tenantId) since until' := by
  have hmem (u : Usage) : (u∈t.records tenantId ∧ inRange since until' u=true) ↔
      u∈t.records tenantId ∧ inWindow since until' u=true := by
    rw [← List.mem_filter, ← found_records.mem_iff, h.1.mem_iff, List.mem_filter]
  refine ⟨hbounds, ?_, ?_⟩
  · intro u hu
    have hiff := hmem u
    simp only [hu, true_and] at hiff
    exact Bool.eq_iff_iff.mpr hiff
  · intro u hu v hv hwu hwv hsorts
    obtain ⟨suffix, hx⟩ := found_of_mem hu ((hmem u).mpr ⟨hu, hwu⟩).2
    obtain ⟨suffix', hy⟩ := found_of_mem hv ((hmem v).mpr ⟨hv, hwv⟩).2
    exact forall_of_descending (newest_pairwise _) (List.pairwise_filterMap.mp h.2) hy hx
      (eventId_lt_eventId suffix hsorts suffix') v rfl u rfl

/-- With room for all records, the window is returned exactly if the clocks agree. -/
theorem usage_window_iff (holds : List Item → Nat) (refusal : String) (t : Table)
    (tenantId : String) (since until' : DateTime) (limit : Int)
    (hcount : (t.records tenantId).length ≤ 1000) (hlimit : (t.records tenantId).length ≤ limit)
    (hholds : (t.records tenantId).length ≤ holds (t.found tenantId since until')) :
    (∃ us, query holds refusal t.items tenantId
        { since := some since, until' := some until', limit }=.ok us ∧
      t.Windowed tenantId since until' us) ↔
    ClocksAgree (t.records tenantId) since until' := by
  rw [query_window, page_found hcount hlimit hholds]
  constructor
  · intro h
    obtain ⟨us, hus, h⟩ := h
    by_cases hbounds : Sorts until' since
    · rw [if_pos hbounds] at hus
      cases hus
    · rw [if_neg hbounds] at hus
      cases hus
      exact agree_of_windowed hbounds h
  · intro h
    rw [if_neg h.bounds]
    exact ⟨_, rfl, windowed_found h⟩

theorem clocksAgree_of_offset {records : List Usage} (hbounds : since.instant ≤ until'.instant)
    (hsince : until'.offset=since.offset) (hrecords : ∀ u∈records, u.ts.offset=since.offset) :
    ClocksAgree records since until' := by
  refine ⟨?_, ?_, ?_⟩
  · rw [sorts_iff_of_offset hsince]
    exact hbounds.not_gt
  · intro u hu
    have huntil : u.ts.offset=until'.offset := (hrecords u hu).trans hsince.symm
    simp only [inRange, inWindow, sorts_iff_of_offset (hrecords u hu), sorts_iff_of_offset huntil,
      ← decide_not, not_lt, Bool.decide_and]
  · intro u hu v hv _ _ hsorts
    rw [sorts_iff_of_offset ((hrecords u hu).trans (hrecords v hv).symm)] at hsorts
    exact hsorts.le

end Window

section WindowRuns

def hourAt (hour minute : Nat) (offset : Int) (resourceId : String)
    (h : hour < 24 := by decide) (h' : minute < 60 := by decide)
    (h'' : offset.natAbs < 86400000000 := by decide) : Usage :=
  { ts := { year := 2026, month := 5, day := 22, hour, minute, offset := some offset
            hour_lt := h, minute_lt := h', offset_lt := by simpa using h'' }
    tenantId := "acme", resourceId, resourceType := "lb-hour", quantity := 3/2, unit := "hour" }

def noon : DateTime := { year := 2026, month := 5, day := 22, hour := 12 }
def oneOClock : DateTime := { year := 2026, month := 5, day := 22, hour := 13 }

def roomy : List Item → Nat := fun _ => 1000

def aheadTable : Table := ({} : Table).record (hourAt 17 30 18000000000 "lb-0") "0a1b2c3d".toList

def utcTable : Table :=
  (({} : Table).record (hourAt 12 30 0 "lb-0") "0a1b2c3d".toList).record (hourAt 13 0 0 "lb-1")
    "4e5f6a7b".toList

theorem ahead_record_missed :
    ((aheadTable.records "acme").length ≤ 1000 ∧ (aheadTable.records "acme").length ≤ (100 : Int)) ∧
    ¬∃ us, query roomy "" aheadTable.items "acme" { since := some noon, until' := some oneOClock }=
      .ok us ∧ aheadTable.Windowed "acme" noon oneOClock us := by
  refine ⟨by decide +kernel, ?_⟩
  intro h
  obtain ⟨us, hquery, hperm, _⟩ := h
  have hempty : (query roomy "" aheadTable.items "acme"
      { since := some noon, until' := some oneOClock }).toOption.map List.length=some 0 := by
    decide +kernel
  have hone : ((aheadTable.records "acme").filter (inWindow noon oneOClock)).length=1 := by
    decide +kernel
  rw [hquery] at hempty
  have hlen := hperm.length_eq
  rw [hone, Option.some.inj hempty] at hlen
  cases hlen

theorem utc_window_exact :
    ∃ us, query roomy "" utcTable.items "acme"
        { since := some noon, until' := some oneOClock, limit := 100 }=.ok us ∧
      utcTable.Windowed "acme" noon oneOClock us :=
  (usage_window_iff roomy "" utcTable "acme" noon oneOClock 100 (by decide +kernel)
    (by decide +kernel) (by decide +kernel)).mpr
    (clocksAgree_of_offset (by decide +kernel) rfl (by decide +kernel))

end WindowRuns

section Cut
variable {α : Type} (keeps : α → Bool) (l : List α) (n : Nat)

theorem filter_take_append :
    (l.take n).filter keeps++(l.drop n).filter keeps=l.filter keeps := by
  rw [← List.filter_append, List.take_append_drop]

theorem take_filter_eq {k : Nat} (h : ((l.take n).filter keeps).length ≤ k) :
    (l.filter keeps).take k=(l.take n).filter keeps++
      ((l.drop n).filter keeps).take (k-((l.take n).filter keeps).length) :=
  calc
    (l.filter keeps).take k=((l.take n).filter keeps++(l.drop n).filter keeps).take k := by
      rw [filter_take_append]
    _=((l.take n).filter keeps).take k++
        ((l.drop n).filter keeps).take (k-((l.take n).filter keeps).length) := List.take_append
    _=_ := by rw [List.take_of_length_le h]

/-- A cut before the filter is as good as one after it, if it leaves out nothing that is kept,
or all before it is kept. -/
theorem filter_take_eq_iff : (l.take n).filter keeps=(l.filter keeps).take n ↔
    (∀ x∈l.drop n, keeps x=false) ∨ ∀ x∈l.take n, keeps x=true := by
  have hle : ((l.take n).filter keeps).length ≤ (l.take n).length := List.length_filter_le _ _
  have hcut : (l.take n).length=min n l.length := List.length_take
  rw [take_filter_eq keeps l n (by omega), List.self_eq_append_right, List.take_eq_nil_iff,
    List.filter_eq_nil_iff]
  constructor
  · intro h
    obtain hfull | hrest := h
    · right
      have hlen : ((l.take n).filter keeps).length=(l.take n).length := by omega
      exact List.filter_eq_self.mp (List.filter_sublist.eq_of_length hlen)
    · left
      intro x hx
      exact Bool.eq_false_of_not_eq_true (hrest x hx)
  · intro h
    obtain hrest | hfull := h
    · right
      intro x hx
      rw [hrest x hx]
      decide
    · rw [List.filter_eq_self.mpr hfull, hcut]
      by_cases hlen : n ≤ l.length
      · left
        omega
      · right
        rw [List.drop_of_length_le (by omega)]
        exact List.forall_mem_nil _

/-- A cut earlier than `k` does only if it leaves out nothing that is kept. -/
theorem filter_take_early_iff {k : Nat} (h : n < k) :
    (l.take n).filter keeps=(l.filter keeps).take k ↔ ∀ x∈l.drop n, keeps x=false := by
  have hle : ((l.take n).filter keeps).length ≤ n :=
    (List.length_filter_le _ _).trans (by rw [List.length_take]; omega)
  rw [take_filter_eq keeps l n (by omega), List.self_eq_append_right, List.take_eq_nil_iff,
    List.filter_eq_nil_iff]
  constructor
  · intro h'
    have hrest := h'.resolve_left (by omega)
    exact fun x hx => Bool.eq_false_of_not_eq_true (hrest x hx)
  · intro h'
    refine Or.inr fun x hx => ?_
    rw [h' x hx]
    decide

end Cut

section Limit
variable {holds : List Item → Nat} {t : Table} {tenantId : String}

def Table.ranked (t : Table) (tenantId : String) : List Usage :=
  (newest (t.items.filter fun x => decide (x.tenantId=tenantId))).filterMap Item.payload

theorem ranked_perm : (t.ranked tenantId).Perm (t.records tenantId) :=
  (newest_perm _).filterMap Item.payload

theorem ranked_pairwise : (t.ranked tenantId).Pairwise fun u v => ¬Sorts u.ts v.ts := by
  refine List.pairwise_filterMap.mpr ((newest_pairwise _).imp_of_mem ?_)
  intro x y hx hy hkey u hu v hv hsorts
  obtain ⟨u', suffix, rfl⟩ := t.written x (List.mem_of_mem_filter (mem_newest.mp hx))
  obtain ⟨v', suffix', rfl⟩ := t.written y (List.mem_of_mem_filter (mem_newest.mp hy))
  cases hu
  cases hv
  exact hkey.not_gt (eventId_lt_eventId suffix hsorts suffix')

theorem take_filterMap_payload {items : List Item}
    (h : ∀ x∈items, ∃ usage suffix, x=item usage suffix) (n : Nat) :
    (items.take n).filterMap Item.payload=(items.filterMap Item.payload).take n := by
  induction n generalizing items with
  | zero => rfl
  | succ n ih =>
    cases items with
    | nil => rfl
    | cons x items =>
      obtain ⟨hx, hitems⟩ := List.forall_mem_cons.mp h
      obtain ⟨usage, suffix, rfl⟩ := hx
      simp [item, ih hitems]

/-- The tenant's records that one answer holds, latest first. -/
def Table.held (t : Table) (holds : List Item → Nat) (tenantId : String) : Nat :=
  holds (newest (t.items.filter fun x => decide (x.tenantId=tenantId)))

theorem query_whole (holds : List Item → Nat) (refusal : String) {q : Query}
    (hsince : q.since=none) (huntil : q.until'=none) : query holds refusal t.items tenantId q =
      .ok (((t.ranked tenantId).take
        (min (Store.pageLimit q.limit) (t.held holds tenantId))).filter q.selects) := by
  have hwritten : ∀ x∈newest (t.items.filter fun x => decide (x.tenantId=tenantId)),
      ∃ usage suffix, x=item usage suffix :=
    fun x hx => t.written x (List.mem_of_mem_filter (mem_newest.mp hx))
  rw [Table.ranked, ← take_filterMap_payload hwritten, query, hsince, huntil]
  simp only [keyCondition, Bool.and_true]
  rfl

/-- The tenant's records, latest first: by the texts of the time stamps, and so, with one
offset, by time. -/
structure Table.LatestFirst (t : Table) (tenantId : String) (ranked : List Usage) : Prop where
  perm : ranked.Perm (t.records tenantId)
  texts : ranked.Pairwise fun u v => ¬Sorts u.ts v.ts
  instants : ∀ o, (∀ u∈t.records tenantId, u.ts.offset=o) →
    ranked.Pairwise fun u v => v.ts.instant ≤ u.ts.instant

theorem ranked_latestFirst : t.LatestFirst tenantId (t.ranked tenantId) := by
  refine ⟨ranked_perm, ranked_pairwise, ?_⟩
  intro o ho
  refine ranked_pairwise.imp_of_mem ?_
  intro u v hu hv hnot
  have hoffset : u.ts.offset=v.ts.offset :=
    (ho u (ranked_perm.mem_iff.mp hu)).trans (ho v (ranked_perm.mem_iff.mp hv)).symm
  rw [sorts_iff_of_offset hoffset] at hnot
  exact not_lt.mp hnot

/-- The matching ones of the records of one answer are returned, of the latest `limit` at most.
They are the latest matching ones, and as many as there should be if no match is older, or the
answer holds the latest `limit` and all of them match. -/
theorem filtered_query (holds : List Item → Nat) (refusal : String) (t : Table)
    (tenantId : String) (q : Query) (hsince : q.since=none) (huntil : q.until'=none)
    (hlow : 1 ≤ q.limit) (hhigh : q.limit ≤ 1000) :
    ∃ ranked us : List Usage, t.LatestFirst tenantId ranked ∧
      query holds refusal t.items tenantId q=.ok us ∧
      us=(ranked.take (min q.limit.toNat (t.held holds tenantId))).filter q.selects ∧
      us <+: ranked.filter q.selects ∧
      (us=(ranked.filter q.selects).take (min q.limit.toNat (ranked.filter q.selects).length) ↔
        (∀ u∈ranked.drop (min q.limit.toNat (t.held holds tenantId)), q.selects u=false) ∨
        q.limit.toNat ≤ t.held holds tenantId ∧
          ∀ u∈ranked.take q.limit.toNat, q.selects u=true) := by
  have hpage : Store.pageLimit q.limit=q.limit.toNat := by
    simp only [Store.pageLimit]
    omega
  have hquery : query holds refusal t.items tenantId q=_ := query_whole holds refusal hsince huntil
  rw [hpage] at hquery
  refine ⟨t.ranked tenantId, _, ranked_latestFirst, hquery, rfl, ?_, ?_⟩
  · rw [← filter_take_append _ (t.ranked tenantId) (min q.limit.toNat (t.held holds tenantId))]
    exact List.prefix_append _ _
  · rw [← List.take_eq_take_min]
    by_cases hheld : q.limit.toNat ≤ t.held holds tenantId
    · simp only [Nat.min_eq_left hheld, hheld, true_and]
      exact filter_take_eq_iff _ _ _
    · have hearly := Nat.lt_of_not_le hheld
      simp only [Nat.min_eq_right hearly.le, hheld, false_and, or_false]
      exact filter_take_early_iff _ _ _ hearly

end Limit

section LimitRuns

def mixedTable : Table :=
  (({} : Table).record (hourAt 12 0 0 "lb-0") "0a1b2c3d".toList).record
    { hourAt 13 0 0 "chat-0" with resourceType := "request" } "4e5f6a7b".toList

theorem older_match_missed :
    ((mixedTable.records "acme").filter
      (Query.selects { resourceType := some "lb-hour", limit := 1 })).length=1 ∧
    ¬∃ us, query roomy "" mixedTable.items "acme" { resourceType := some "lb-hour", limit := 1 }=
      .ok us ∧ us.length=1 := by
  refine ⟨by decide +kernel, ?_⟩
  intro h
  obtain ⟨us, hquery, hlen⟩ := h
  have hempty : (query roomy "" mixedTable.items "acme"
      { resourceType := some "lb-hour", limit := 1 }).toOption.map List.length=some 0 := by
    decide +kernel
  rw [hquery] at hempty
  have hnone : us.length=0 := Option.some.inj hempty
  omega

theorem older_match_found :
    ∃ ranked us : List Usage, mixedTable.LatestFirst "acme" ranked ∧
      query roomy "" mixedTable.items "acme" { resourceType := some "lb-hour", limit := 2 }=.ok us ∧
      us=ranked.filter (Query.selects { resourceType := some "lb-hour", limit := 2 }) := by
  obtain ⟨ranked, us, hranked, hquery, hus, _⟩ := filtered_query roomy "" mixedTable "acme"
    { resourceType := some "lb-hour", limit := 2 } rfl rfl (by decide) (by decide)
  have htwo : (mixedTable.records "acme").length=2 := by decide +kernel
  have htake : ranked.take 2=ranked :=
    List.take_of_length_le (hranked.perm.length_eq.trans htwo).le
  exact ⟨ranked, us, hranked, hquery, hus.trans (congrArg (List.filter _) htake)⟩

end LimitRuns

/-! Keys in UTC, by the bytes that the table sorts. -/

section Utc

def keyBytes (usage : Usage) (suffix : List Char) : List UInt8 :=
  Utf8.encode (eventId usage suffix)

def boundBytes (bound : DateTime) : List UInt8 := Utf8.encode bound.isoformat

variable {u v : Usage} {bound : DateTime}

theorem keyBytes_lt (h : u.ts.offset=v.ts.offset) (hlt : u.ts.instant < v.ts.instant)
    (suffix suffix' : List Char) : keyBytes u suffix < keyBytes v suffix' :=
  Utf8.encode_lt (eventId_lt_eventId suffix ((sorts_iff_of_offset h).mpr hlt) suffix')

theorem boundBytes_lt_iff (h : u.ts.offset=bound.offset) (suffix : List Char) :
    boundBytes bound < keyBytes u suffix ↔ bound.instant ≤ u.ts.instant := by
  rw [boundBytes, keyBytes, Utf8.encode_lt_iff, lt_eventId_iff, sorts_iff_of_offset h, not_lt]

theorem keyBytes_lt_iff (h : u.ts.offset=bound.offset) (suffix : List Char) :
    keyBytes u suffix < boundBytes bound ↔ u.ts.instant < bound.instant := by
  rw [boundBytes, keyBytes, Utf8.encode_lt_iff, eventId_lt_iff, sorts_iff_of_offset h]

/-- In UTC the keys are in the order of time, and a bound stands before the keys from its time
on and behind those before. -/
theorem utc_keys_chronological (u v : Usage) (hu : u.ts.offset=some 0) (hv : v.ts.offset=some 0)
    (suffix suffix' : List Char) :
    (u.ts.instant < v.ts.instant → keyBytes u suffix < keyBytes v suffix') ∧
    ∀ bound : DateTime, bound.offset=some 0 →
      (boundBytes bound < keyBytes u suffix ↔ bound.instant ≤ u.ts.instant) ∧
      (keyBytes u suffix < boundBytes bound ↔ u.ts.instant < bound.instant) := by
  refine ⟨fun hlt => keyBytes_lt (hu.trans hv.symm) hlt suffix suffix', fun bound hb => ?_⟩
  have ho := hu.trans hb.symm
  exact ⟨boundBytes_lt_iff ho suffix, keyBytes_lt_iff ho suffix⟩

theorem utc_keys_at_noon :
    keyBytes (hourAt 11 59 0 "lb#1") "0a1b2c3d".toList <
      keyBytes (hourAt 12 0 0 "lb") "00000000".toList ∧
    boundBytes noon < keyBytes (hourAt 12 0 0 "lb") "00000000".toList ∧
    keyBytes (hourAt 11 59 0 "lb#1") "0a1b2c3d".toList < boundBytes noon := by
  have hbefore := utc_keys_chronological (hourAt 11 59 0 "lb#1") (hourAt 12 0 0 "lb") rfl rfl
    "0a1b2c3d".toList "00000000".toList
  have hat := utc_keys_chronological (hourAt 12 0 0 "lb") (hourAt 11 59 0 "lb#1") rfl rfl
    "00000000".toList "0a1b2c3d".toList
  exact ⟨hbefore.1 (by decide), (hat.2 noon rfl).1.mpr (by decide),
    (hbefore.2 noon rfl).2.mpr (by decide)⟩

end Utc

section Check

theorem records_tenant {t : Table} {tenantId : String} {u : Usage} (h : u∈t.records tenantId) :
    u.tenantId=tenantId := by
  obtain ⟨x, hx, hpayload⟩ := List.mem_filterMap.mp h
  obtain ⟨hmem, htenant⟩ := List.mem_filter.mp hx
  obtain ⟨u', suffix, rfl⟩ := t.written x hmem
  cases hpayload
  exact of_decide_eq_true htenant

/-- Without a window or a filter it is the query of the quota check, over the records latest
first. -/
theorem query_checked (host : Quotas.Host DateTime) {holds : List Item → Nat} {t : Table}
    {tenantId : String} (h : host.holds (t.ranked tenantId)=t.held holds tenantId)
    (refusal : String) : query holds refusal t.items tenantId { limit := 1000 } =
      .ok (Quotas.query host (t.ranked tenantId) tenantId) := by
  have hall : (Query.selects { limit := 1000 })=fun _ => true := rfl
  have hpage : Store.pageLimit 1000=1000 := by decide
  have htenant : ∀ r∈t.ranked tenantId, decide (r.tenantId=tenantId)=true :=
    fun r hr => decide_eq_true (records_tenant (ranked_perm.mem_iff.mp hr))
  calc
    query holds refusal t.items tenantId { limit := 1000 }=
        .ok ((t.ranked tenantId).take (min 1000 (t.held holds tenantId))) := by
      rw [query_whole holds refusal rfl rfl, hall, List.filter_true, hpage]
    _=.ok (Quotas.query host (t.ranked tenantId) tenantId) := by
      rw [Quotas.query, List.filter_eq_self.mpr htenant, onePage, h]

end Check

end Sovereign.UsageStore
