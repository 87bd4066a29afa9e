import Sovereign.Backup

/-! The restore drill. It compares how many items the document lists for each table, and no item. -/
namespace Sovereign.Backup
open Sovereign JsonText

/-- The document the drill reads back: the store answers the get with `reply` of what was put. -/
def drillRead (f : Floats) (reply : List Char → Option (List Char))
    (pages : TableName → List (List Item)) : Option Json := do
  let snapshot ← snapshotJson f (exportSnapshot snapshotTables pages)
  let body ← reply (dumps (numbers f) snapshot)
  loads (numbers f) body

def listedLength (tables : Dict String Json) (name : String) : Option Nat :=
  match tables.get name with
  | none => some 0
  | some x => (elements x).map List.length

/-- The `all` of `run_drill`: the first table that differs is the last one looked at. -/
def sameCounts (restored : Json) : List (String × Nat) → Option Bool
  | [] => some true
  | (name, count)::rest => do
    let tables ← tablesOf restored
    let n ← listedLength tables name
    if n=count then sameCounts restored rest else some false

structure DrillResult where
  ok : Bool
  counts : List (String × Nat)
  key : String

def runDrill (f : Floats) (reply : List Char → Option (List Char)) (key : String)
    (pages : TableName → List (List Item)) : Option DrillResult := do
  let restored ← drillRead f reply pages
  let perTable :=
    (exportSnapshot snapshotTables pages).tables.entries.map fun p => (p.1, p.2.length)
  let ok ← sameCounts restored perTable
  some { ok, counts := perTable, key }

def Recovers (snapshot : Json) (db : Db) : Prop :=
  ∃ db' counts, restoreSnapshot none snapshot emptyDb=some (db', counts) ∧ db'.Same db

def SameLengths (tables : Dict String Json) (db : Db) : Prop :=
  ∀ t : TableName, listedLength tables t.name=some (db t).values.length

def ListsItems (tables : Dict String Json) (db : Db) : Prop :=
  (∀ t : TableName, ∃ xs rs, elements ((tables.get t.name).getD (.arr []))=some xs ∧
    readRecords t.keyName xs=some rs ∧ (rs.map Record.item).Perm (db t).values) ∧
  ∀ name x, tables.get name=some x → TableName.get name=none → elements x=some []

section Restore
variable {db db' : Db} {counts counts' : Dict String Nat} {tables : List (String × Json)}

theorem get_name (t : TableName) : TableName.get t.name=some t := by
  cases t with
  | instances => rfl
  | bindings => rfl

theorem name_of_get {name : String} {t : TableName} (h : TableName.get name=some t) :
    name=t.name := by
  unfold TableName.get at h
  split at h
  · next hn =>
    cases h
    exact hn
  · split at h
    · next hn =>
      cases h
      exact hn
    · cases h

theorem name_inj {t t' : TableName} (h : t.name=t'.name) : t=t' := by
  have hget := get_name t
  rw [h, get_name] at hget
  exact (Option.some.inj hget).symm

def Written (tables : List (String × Json)) (db db' : Db) (t : TableName) : Prop :=
  match Dict.getIn t.name tables with
  | none => db' t=db t
  | some x => ∃ xs, elements x=some xs ∧ batchWriter (db t) [] xs=some (db' t)

theorem restoreTables_cons {name : String} {x : Json} {rest : List (String × Json)} :
    restoreTables none ((name, x)::rest) db counts=(elements x).bind fun xs =>
      (putItems name xs db).bind fun db => restoreTables none rest db (counts.set name xs.length) :=
  rfl

theorem putItems_some {name : String} {xs : List Json} (h : putItems name xs db=some db') :
    (TableName.get name=none ∧ xs=[] ∧ db'=db) ∨
      ∃ t tbl, name=t.name ∧ batchWriter (db t) [] xs=some tbl ∧ db'=Function.update db t tbl := by
  unfold putItems at h
  cases hget : TableName.get name with
  | none =>
    rw [hget] at h
    simp only at h
    split at h
    · next hnil =>
      cases h
      exact Or.inl ⟨rfl, hnil, rfl⟩
    · cases h
  | some t =>
    rw [hget] at h
    obtain ⟨tbl, htbl, rfl⟩ := Option.map_eq_some_iff.mp h
    exact Or.inr ⟨t, tbl, name_of_get hget, htbl, rfl⟩

theorem written_skip {name : String} {x : Json} {rest : List (String × Json)} {t : TableName}
    (hne : name≠t.name) : Written ((name, x)::rest) db db' t ↔ Written rest db db' t := by
  unfold Written
  rw [Dict.getIn, if_neg hne]

theorem restoreTables_some (hnodup : (tables.map Prod.fst).Nodup)
    (h : restoreTables none tables db counts=some (db', counts')) :
    (∀ t, Written tables db db' t) ∧
      ∀ name x, (name, x)∈tables → TableName.get name=none → elements x=some [] := by
  induction tables generalizing db counts with
  | nil =>
    cases h
    exact ⟨fun _ => rfl, fun _ _ hm => nomatch hm⟩
  | cons p rest ih =>
    obtain ⟨name, x⟩ := p
    obtain ⟨hname, hrest⟩ := List.nodup_cons.mp hnodup
    rw [restoreTables_cons] at h
    obtain ⟨xs, hxs, h⟩ := Option.bind_eq_some_iff.mp h
    obtain ⟨mid, hmid, h⟩ := Option.bind_eq_some_iff.mp h
    obtain ⟨hwritten, hother⟩ := ih hrest h
    obtain ⟨hget, rfl, rfl⟩ | ⟨t', tbl, rfl, htbl, rfl⟩ := putItems_some hmid
    · refine ⟨?_, ?_⟩
      · intro t
        have hne : name≠t.name := by
          rintro rfl
          rw [get_name] at hget
          cases hget
        exact (written_skip hne).mpr (hwritten t)
      · intro name' x' hm hn
        obtain he | hm := List.mem_cons.mp hm
        · cases he
          exact hxs
        · exact hother name' x' hm hn
    · refine ⟨?_, ?_⟩
      · intro t
        by_cases he : t=t'
        · subst he
          -- no later entry touches the table again
          have hw := hwritten t
          unfold Written at hw ⊢
          rw [Dict.getIn_of_notMem hname, Function.update_self] at hw
          rw [Dict.getIn, if_pos rfl]
          exact ⟨xs, hxs, hw ▸ htbl⟩
        · have hw := hwritten t
          unfold Written at hw
          rw [Function.update_of_ne he] at hw
          exact (written_skip fun hn => he (name_inj hn).symm).mpr hw
      · intro name' x' hm hn
        obtain hp | hm := List.mem_cons.mp hm
        · cases hp
          rw [get_name] at hn
          cases hn
        · exact hother name' x' hm hn

theorem restoreTables_ends (hnodup : (tables.map Prod.fst).Nodup)
    (hknown : ∀ t x, (t.name, x)∈tables →
      ∃ xs tbl, elements x=some xs ∧ batchWriter (db t) [] xs=some tbl)
    (hother : ∀ name x, (name, x)∈tables → TableName.get name=none → elements x=some []) :
    ∃ db' counts', restoreTables none tables db counts=some (db', counts') := by
  induction tables generalizing db counts with
  | nil => exact ⟨db, counts, rfl⟩
  | cons p rest ih =>
    obtain ⟨name, x⟩ := p
    obtain ⟨hname, hrest⟩ := List.nodup_cons.mp hnodup
    have hother' : ∀ name' y, (name', y)∈rest → TableName.get name'=none → elements y=some [] :=
      fun name' y hm hn => hother name' y (List.mem_cons_of_mem _ hm) hn
    rw [restoreTables_cons]
    cases hget : TableName.get name with
    | none =>
      rw [hother name x List.mem_cons_self hget, Option.bind_some, putItems, hget]
      exact ih hrest (fun t y hm => hknown t y (List.mem_cons_of_mem _ hm)) hother'
    | some t' =>
      have ht' := name_of_get hget
      subst ht'
      obtain ⟨xs, tbl, hxs, htbl⟩ := hknown t' x List.mem_cons_self
      rw [hxs, Option.bind_some, putItems, get_name]
      simp only [htbl, Option.map_some, Option.bind_some]
      refine ih hrest ?_ hother'
      intro t y hm
      have hne : t≠t' := by
        rintro rfl
        exact hname (List.mem_map.mpr ⟨_, hm, rfl⟩)
      rw [Function.update_of_ne hne]
      exact hknown t y (List.mem_cons_of_mem _ hm)

end Restore

section Table
variable {keyName : String} {tbl : Table keyName} {xs : List Json}

/-- As many puts as items give the table exactly if they put its items. -/
theorem batchWriter_empty (hlen : xs.length=tbl.values.length) :
    (∃ tbl', batchWriter (Table.empty keyName) [] xs=some tbl' ∧ tbl'.items.Same tbl.items) ↔
      ∃ rs, readRecords keyName xs=some rs ∧ (rs.map Record.item).Perm tbl.values := by
  constructor
  · intro h
    obtain ⟨tbl', hwrite, hsame⟩ := h
    obtain ⟨rs, hread, rfl⟩ := batchWriter_some hwrite
    refine ⟨rs, hread, ?_⟩
    have hperm := hsame.perm
    rw [foldl_put] at hperm
    -- all keys are needed to reach the number of items
    have hcount : (Dict.ofList (rs.map Record.pair)).entries.length=
        (rs.map Record.pair).length := by
      rw [List.length_map, readRecords_length hread, List.nil_append, hlen, Table.values,
        List.length_map]
      exact hperm.length_eq
    have hnodup := Dict.nodup_of_length_ofList hcount
    have hentries : (Dict.ofList (rs.map Record.pair)).entries.Perm tbl.items.entries := hperm
    rw [Dict.entries_ofList hnodup] at hentries
    have hvalues := hentries.map Prod.snd
    rw [List.map_map] at hvalues
    exact hvalues
  · intro h
    obtain ⟨rs, hread, hperm⟩ := h
    have hpairs : (rs.map Record.pair).Perm tbl.items.entries := by
      rw [map_pair, ← pairs_values]
      exact hperm.filterMap _
    obtain ⟨tbl', hwrite, hget⟩ := batchWriter_perm hread hpairs (Table.empty keyName)
    refine ⟨tbl', hwrite, ?_⟩
    intro k
    rw [hget k]
    exact Option.or_none

end Table

section Drill
variable {db : Db} {tables : Dict String Json} {snapshot : Json}

theorem listedLength_elements {t : TableName} {n : Nat} (h : listedLength tables t.name=some n) :
    ∃ xs, elements ((tables.get t.name).getD (.arr []))=some xs ∧ xs.length=n := by
  unfold listedLength at h
  cases hg : tables.get t.name with
  | none =>
    rw [hg] at h
    exact ⟨[], rfl, Option.some.inj h⟩
  | some x =>
    rw [hg] at h
    exact Option.map_eq_some_iff.mp h

theorem written_iff {db' : Db} {t : TableName} :
    Written tables.entries emptyDb db' t ↔
      ∃ xs, elements ((tables.get t.name).getD (.arr []))=some xs ∧
        batchWriter (Table.empty t.keyName) [] xs=some (db' t) := by
  rw [Written]
  change (match tables.get t.name with
    | none => db' t=emptyDb t
    | some x => ∃ xs, elements x=some xs ∧ batchWriter (emptyDb t) [] xs=some (db' t)) ↔ _
  cases tables.get t.name with
  | none =>
    constructor
    · intro h
      exact ⟨[], rfl, by rw [h]; rfl⟩
    · intro h
      obtain ⟨xs, hxs, hw⟩ := h
      cases hxs
      exact (Option.some.inj hw).symm
  | some x => rfl

/-- What is listed for a table, as long as the table, restores it exactly if it is its items. -/
theorem writes_iff {t : TableName} (hlen : listedLength tables t.name=some (db t).values.length) :
    (∃ xs tbl, elements ((tables.get t.name).getD (.arr []))=some xs ∧
        batchWriter (Table.empty t.keyName) [] xs=some tbl ∧ tbl.items.Same (db t).items) ↔
      ∃ xs rs, elements ((tables.get t.name).getD (.arr []))=some xs ∧
        readRecords t.keyName xs=some rs ∧ (rs.map Record.item).Perm (db t).values := by
  obtain ⟨xs, hxs, hlenxs⟩ := listedLength_elements hlen
  rw [hxs]
  constructor
  · intro h
    obtain ⟨_, tbl, he, hput⟩ := h
    cases he
    obtain ⟨rs, hread⟩ := (batchWriter_empty hlenxs).mp ⟨tbl, hput⟩
    exact ⟨xs, rs, rfl, hread⟩
  · intro h
    obtain ⟨_, rs, he, hread⟩ := h
    cases he
    obtain ⟨tbl, hput⟩ := (batchWriter_empty hlenxs).mpr ⟨rs, hread⟩
    exact ⟨xs, tbl, rfl, hput⟩

/-- Documents that list as many items as there are. -/
theorem recovers_iff (htables : tablesOf snapshot=some tables) (hlen : SameLengths tables db) :
    Recovers snapshot db ↔ ListsItems tables db := by
  constructor
  · intro h
    obtain ⟨db', counts, hrestore, hsame⟩ := h
    rw [restoreSnapshot, htables] at hrestore
    obtain ⟨hwritten, hother⟩ := restoreTables_some tables.nodup hrestore
    refine ⟨?_, ?_⟩
    · intro t
      obtain ⟨xs, hxs, hput⟩ := written_iff.mp (hwritten t)
      exact (writes_iff (hlen t)).mp ⟨xs, db' t, hxs, hput, hsame t⟩
    · intro name x hx hn
      exact hother name x (Dict.get_eq_some_iff.mp hx) hn
  · intro h
    obtain ⟨hlists, hother⟩ := h
    have hends : ∃ db' counts',
        restoreTables none tables.entries emptyDb Dict.empty=some (db', counts') := by
      refine restoreTables_ends tables.nodup ?_ ?_
      · intro t x hx
        obtain ⟨xs, tbl, hxs, htbl, _⟩ := (writes_iff (hlen t)).mpr (hlists t)
        rw [Dict.get_eq_some_iff.mpr hx] at hxs
        exact ⟨xs, tbl, hxs, htbl⟩
      · intro name x hx hn
        exact hother name x (Dict.get_eq_some_iff.mpr hx) hn
    obtain ⟨db', counts, hrestore⟩ := hends
    refine ⟨db', counts, by rw [restoreSnapshot, htables]; exact hrestore, ?_⟩
    intro t
    obtain ⟨xs, tbl, hxs, htbl, hsame⟩ := (writes_iff (hlen t)).mpr (hlists t)
    obtain ⟨xs', hxs', hw⟩ := written_iff.mp ((restoreTables_some tables.nodup hrestore).1 t)
    obtain rfl : xs'=xs := Option.some.inj (hxs'.symm.trans hxs)
    rw [htbl] at hw
    rw [← Option.some.inj hw]
    exact hsame

theorem sameCounts_cons {name : String} {count : Nat} {rest : List (String × Nat)}
    (htables : tablesOf snapshot=some tables) :
    sameCounts snapshot ((name, count)::rest)=some true ↔
      listedLength tables name=some count ∧ sameCounts snapshot rest=some true := by
  rw [sameCounts, htables]
  change ((listedLength tables name).bind fun n =>
    if n=count then sameCounts snapshot rest else some false)=some true ↔ _
  cases listedLength tables name with
  | none => simp
  | some n =>
    by_cases hn : n=count
    · simp [hn]
    · simp [hn]

/-- The drill is green exactly when the lengths are those of the tables. -/
theorem runDrill_ok {f : Floats} {reply : List Char → Option (List Char)} (key : String)
    {pages : TableName → List (List Item)} (hscan : Scans db pages)
    (hread : drillRead f reply pages=some snapshot) (htables : tablesOf snapshot=some tables) :
    (∃ r, runDrill f reply key pages=some r ∧ r.ok=true) ↔ SameLengths tables db := by
  have hcounts : sameCounts snapshot
      ((exportSnapshot snapshotTables pages).tables.entries.map fun p => (p.1, p.2.length))=
        some true ↔ SameLengths tables db := by
    rw [exportSnapshot_tables, List.map_cons, List.map_cons, List.map_nil,
      sameCounts_cons htables, sameCounts_cons htables, (hscan _).length_eq, (hscan _).length_eq]
    constructor
    · intro h t
      cases t with
      | instances => exact h.1
      | bindings => exact h.2.1
    · intro h
      exact ⟨h .instances, h .bindings, rfl⟩
  rw [← hcounts, runDrill, hread]
  generalize (exportSnapshot snapshotTables pages).tables.entries.map
    (fun p => (p.1, p.2.length))=perTable
  change (∃ r : DrillResult, ((sameCounts snapshot perTable).bind fun ok =>
    some ⟨ok, perTable, key⟩)=some r ∧ r.ok=true) ↔ _
  cases sameCounts snapshot perTable with
  | none => simp
  | some ok => simp

end Drill

/-- The drill proves the backup exactly when the document's lengths differ from the tables', or it
lists their items. -/
theorem drill_exact (f : Floats) (reply : List Char → Option (List Char)) (key : String) (db : Db)
    (pages : TableName → List (List Item)) (snapshot : Json) (tables : Dict String Json)
    (hscan : Scans db pages) (hread : drillRead f reply pages=some snapshot)
    (htables : tablesOf snapshot=some tables) :
    ((∃ r, runDrill f reply key pages=some r ∧ r.ok=true) → Recovers snapshot db) ↔
      (SameLengths tables db → ListsItems tables db) := by
  rw [runDrill_ok key hscan hread htables]
  refine forall_congr' fun hlen => recovers_iff htables hlen

def stuckOn (snapshot : Json) (_ : List Char) : Option (List Char) :=
  some (dumps (numbers noFloats) snapshot)

theorem drillRead_stuckOn {snapshot : Json} (h : integral snapshot=true) :
    drillRead noFloats (stuckOn snapshot) lbPages=some snapshot := by
  have hjson : ∃ x, snapshotJson noFloats (exportSnapshot snapshotTables lbPages)=some x := ⟨_, rfl⟩
  obtain ⟨x, hx⟩ := hjson
  rw [drillRead, hx]
  exact loads_dumps (numeric_of_integral h)

theorem read_of_record {keyName : String} {x : Json} {r : Record keyName}
    (h : Record.read keyName x=some r) : Item.read x=some r.item := by
  obtain ⟨item, hitem, h⟩ := Option.bind_eq_some_iff.mp h
  split at h
  · cases h
    exact hitem
  · cases h

def members (instanceId : String) : List (String × Json) :=
  [("instance_id", .str instanceId), ("payload", .str "\x7b\x7d")]

def otherDocument : Json := document 1 [.obj (members "lb-2")] []

/-- The drill is green over a document that restores another instance. -/
theorem drill_misses_otherDocument :
    drillRead noFloats (stuckOn otherDocument) lbPages=some otherDocument ∧
      (∃ r, runDrill noFloats (stuckOn otherDocument) "drill.json" lbPages=some r ∧ r.ok=true) ∧
      ¬ Recovers otherDocument lbDb := by
  obtain ⟨tables, htables, hentries⟩ := tablesOf_document 1 [.obj (members "lb-2")] []
  have hlen : SameLengths tables lbDb := by
    intro t
    unfold listedLength Dict.get
    rw [hentries]
    cases t with
    | instances => rfl
    | bindings => rfl
  have hread : drillRead noFloats (stuckOn otherDocument) lbPages=some otherDocument :=
    drillRead_stuckOn rfl
  refine ⟨hread, (runDrill_ok "drill.json" scans_lbPages hread htables).mpr hlen, ?_⟩
  intro h
  obtain ⟨xs, rs, hxs, hrs, hperm⟩ := ((recovers_iff htables hlen).mp h).1 .instances
  unfold Dict.get at hxs
  rw [hentries] at hxs
  cases hxs
  obtain ⟨r, rs, hr, hnil, rfl⟩ := readRecords_cons hrs
  cases hnil
  have hitem : r.item=lbItem := List.singleton_perm_singleton.mp hperm
  have hother : Item.ofMembers (members "lb-2")=r.item := Option.some.inj (read_of_record hr)
  rw [hitem] at hother
  have hkey := congrArg (keyOf "instance_id") hother
  revert hkey
  decide +kernel

def lbDocument : Json := document 1 [.obj (members "lb-1")] []

/-- The drill is green over it, and it restores the tables. -/
theorem drill_exact_lbDocument :
    (∃ r, runDrill noFloats (stuckOn lbDocument) "drill.json" lbPages=some r ∧ r.ok=true) ∧
      Recovers lbDocument lbDb := by
  obtain ⟨tables, htables, hentries⟩ := tablesOf_document 1 [.obj (members "lb-1")] []
  have hread : drillRead noFloats (stuckOn lbDocument) lbPages=some lbDocument :=
    drillRead_stuckOn rfl
  have hgreen : ∃ r, runDrill noFloats (stuckOn lbDocument) "drill.json" lbPages=some r ∧
      r.ok=true := by
    refine (runDrill_ok "drill.json" scans_lbPages hread htables).mpr fun t => ?_
    unfold listedLength Dict.get
    rw [hentries]
    cases t with
    | instances => rfl
    | bindings => rfl
  refine ⟨hgreen, (drill_exact noFloats (stuckOn lbDocument) "drill.json" lbDb lbPages lbDocument
    tables scans_lbPages hread htables).mpr (fun _ => ⟨?_, ?_⟩) hgreen⟩
  · intro t
    unfold Dict.get
    rw [hentries]
    cases t with
    | instances =>
      have hitem : Item.ofMembers (members "lb-1")=lbItem := by decide +kernel
      have hkey : keyOf "instance_id" (Item.ofMembers (members "lb-1"))=some "lb-1" := by
        rw [hitem]
        rfl
      exact ⟨_, [⟨Item.ofMembers (members "lb-1"), "lb-1", hkey⟩], rfl, rfl,
        List.singleton_perm_singleton.mpr hitem⟩
    | bindings => exact ⟨[], [], rfl, rfl, List.Perm.refl _⟩
  · intro name x hx hn
    rw [Dict.get_eq_some_iff, hentries] at hx
    obtain he | hx := List.mem_cons.mp hx
    · cases he
      cases hn
    · cases List.mem_singleton.mp hx
      cases hn

end Sovereign.Backup
