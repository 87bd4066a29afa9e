import Sovereign.Dict
import Sovereign.JsonNumber
import Sovereign.Paging

/-! Backup and restore of the chassis tables: a scan of every table to its end, one JSON document
in the object store, and batched puts of what the document lists. -/
namespace Sovereign.Backup
open Sovereign JsonText

/-- An attribute: what JSON can say, or a value of a type `_json_default` refuses. -/
inductive Attr where
  | json (x : Json)
  | other (typeName : String)
deriving DecidableEq

/-- A stored item. Neither its attributes nor the members of a map have an order: they stand
sorted by their names. -/
structure Item where
  attrs : List (String × Attr)
  sorted : attrs.Pairwise fun a b => a.1 < b.1
  canonical : ∀ a∈attrs, ∀ x, a.2=.json x → x.sortKeys=x
deriving DecidableEq

/-- The value of the key attribute: a string, and not the empty one. -/
def keyOf (keyName : String) (item : Item) : Option String :=
  match Dict.getIn keyName item.attrs with
  | some (.json (.str key)) => if key="" then none else some key
  | _ => none

structure Record (keyName : String) where
  item : Item
  key : String
  keyed : keyOf keyName item=some key

structure Table (keyName : String) where
  items : Dict String Item
  keyed : ∀ p∈items.entries, keyOf keyName p.2=some p.1

def Table.empty (keyName : String) : Table keyName := ⟨Dict.empty, fun _ hp => nomatch hp⟩

def Table.put {keyName : String} (t : Table keyName) (r : Record keyName) : Table keyName where
  items := t.items.set r.key r.item
  keyed := by
    intro p hp
    obtain rfl | hp := Dict.mem_entries_set hp
    · exact r.keyed
    · exact t.keyed p hp

def Table.values {keyName : String} (t : Table keyName) : List Item := t.items.entries.map Prod.snd

inductive TableName where
  | instances
  | bindings
deriving DecidableEq

def TableName.name : TableName → String
  | .instances => "sovereign_instances"
  | .bindings => "sovereign_bindings"

def TableName.keyName : TableName → String
  | .instances => "instance_id"
  | .bindings => "binding_id"

def TableName.get (name : String) : Option TableName :=
  if name="sovereign_instances" then some .instances
  else if name="sovereign_bindings" then some .bindings
  else none

abbrev Db := (t : TableName) → Table t.keyName

def emptyDb : Db := fun t => Table.empty t.keyName

def snapshotTables : List TableName := [.instances, .bindings]

structure Snapshot where
  formatVersion : Int
  tables : Dict String (List Item)

/-- `export_snapshot`. The scan of a table answers in these pages. -/
def exportSnapshot (tables : List TableName) (pages : TableName → List (List Item)) : Snapshot where
  formatVersion := 1
  tables := Dict.ofList (tables.map fun t =>
    (t.name, scanAll (pages t) ((pages t).length+1) none))

section Text
variable (f : Floats)

/-- `json.dumps` gives up at a value `_json_default` refuses. -/
def attrMembers : List (String × Attr) → Option (List (String × Json))
  | [] => some []
  | (name, .json x)::as => (attrMembers as).map fun ms => (name, plainNumbers f x)::ms
  | (_, .other _)::_ => none

def itemsJson : List Item → Option (List Json)
  | [] => some []
  | item::items => do
    let members ← attrMembers f item.attrs
    let rest ← itemsJson items
    some (.obj members::rest)

def tablesJson : List (String × List Item) → Option (List (String × Json))
  | [] => some []
  | (name, items)::tables => do
    let items ← itemsJson f items
    let rest ← tablesJson tables
    some ((name, .arr items)::rest)

def snapshotJson (snapshot : Snapshot) : Option Json :=
  (tablesJson f snapshot.tables.entries).map fun tables =>
    .obj [("format_version", .num snapshot.formatVersion), ("tables", .obj tables)]

end Text

structure S3 (σ : Type*) where
  putObject : String → String → List Char → σ → σ
  getObject : String → String → σ → Option (List Char)
  get_put : ∀ bucket key body st, getObject bucket key (putObject bucket key body st)=some body

section Store
variable {σ : Type*} (f : Floats) (s3 : S3 σ) (bucket key : String)

def writeSnapshotToS3 (snapshot : Snapshot) (st : σ) : Option σ :=
  (snapshotJson f snapshot).map fun x => s3.putObject bucket key (dumps (numbers f) x) st

def readSnapshotFromS3 (st : σ) : Option Json :=
  (s3.getObject bucket key st).bind (loads (numbers f))

end Store

def asDict : Json → Option (Dict String Json)
  | .obj ms => some (Dict.ofList ms)
  | _ => none

def elements : Json → Option (List Json)
  | .arr xs => some xs
  | .str s => some (s.toList.map fun c => .str (String.singleton c))
  | .obj ms => some ((Dict.ofList ms).keys.map .str)
  | _ => none

theorem strict_of_nodup {α : Type*} {l : List (String × α)} (h : (l.map Prod.fst).Nodup) :
    (l.insertionSort fun a b => a.1 ≤ b.1).Pairwise fun a b => a.1 < b.1 :=
  Sorting.strict_by Prod.fst h

def Item.ofMembers (ms : List (String × Json)) : Item where
  attrs := ((Dict.ofList ms).entries.insertionSort fun a b => a.1 ≤ b.1).map fun m =>
    (m.1, .json m.2.sortKeys)
  sorted := List.pairwise_map.mpr (strict_of_nodup (Dict.ofList ms).nodup)
  canonical := by
    intro a ha x hx
    obtain ⟨m, _, rfl⟩ := List.mem_map.mp ha
    cases hx
    exact Json.sortKeys_sortKeys m.2

/-- A put of a value that is no dictionary, or that holds a float, raises. -/
def Item.read : Json → Option Item
  | .obj ms => if integralMembers ms then some (Item.ofMembers ms) else none
  | _ => none

def Record.read (keyName : String) (x : Json) : Option (Record keyName) :=
  (Item.read x).bind fun item =>
    match h : keyOf keyName item with
    | some key => some ⟨item, key, h⟩
    | none => none

def readRecords (keyName : String) : List Json → Option (List (Record keyName))
  | [] => some []
  | x::xs => do
    let r ← Record.read keyName x
    let rs ← readRecords keyName xs
    some (r::rs)

section Writer
variable {keyName : String}

def flush (t : Table keyName) (buffer : List Json) : Option (Table keyName) := do
  let rs ← readRecords keyName buffer
  if (rs.map Record.key).Nodup then some (rs.foldl Table.put t) else none

/-- `batch_writer`: a batch for every 25 puts, and one for the rest. -/
def batchWriter (t : Table keyName) (buffer : List Json) : List Json → Option (Table keyName)
  | [] => flush t buffer
  | x::xs =>
    if buffer.length+1 < 25 then batchWriter t (buffer++[x]) xs
    else (flush t (buffer++[x])).bind fun t => batchWriter t [] xs

end Writer

/-- The puts into the table of this name. Nothing is sent for no item, whatever the name. -/
def putItems (name : String) (xs : List Json) (db : Db) : Option Db :=
  match TableName.get name with
  | some t => (batchWriter (db t) [] xs).map fun tbl => Function.update db t tbl
  | none => if xs=[] then some db else none

def skips (only : Option (List String)) (name : String) : Bool :=
  only.any fun names => decide (name∉names)

def restoreTables (only : Option (List String)) :
    List (String × Json) → Db → Dict String Nat → Option (Db × Dict String Nat)
  | [], db, counts => some (db, counts)
  | (name, items)::tables, db, counts =>
    if skips only name then restoreTables only tables db counts
    else do
      let xs ← elements items
      let db ← putItems name xs db
      restoreTables only tables db (counts.set name xs.length)

def tablesOf (snapshot : Json) : Option (Dict String Json) := do
  let members ← asDict snapshot
  let tables ← members.get "tables"
  asDict tables

def restoreSnapshot (only : Option (List String)) (snapshot : Json) (db : Db) :
    Option (Db × Dict String Nat) := do
  let tables ← tablesOf snapshot
  restoreTables only tables.entries db Dict.empty

def Plain (item : Item) : Prop := ∀ a∈item.attrs, ∃ x, a.2=.json x ∧ integral x=true

section Items
variable {f : Floats} {item : Item}

theorem attrMembers_of_plain {as : List (String × Attr)}
    (h : ∀ a∈as, ∃ x, a.2=.json x ∧ integral x=true) :
    ∃ ms, attrMembers f as=some ms ∧ as=(ms.map fun m => (m.1, .json m.2)) ∧
      integralMembers ms=true := by
  induction as with
  | nil => exact ⟨[], rfl, rfl, rfl⟩
  | cons a as ih =>
    obtain ⟨ms, hms, has, hint⟩ := ih fun a' ha' => h a' (List.mem_cons_of_mem a ha')
    obtain ⟨x, hx, hix⟩ := h a List.mem_cons_self
    obtain ⟨name, v⟩ := a
    cases hx
    refine ⟨(name, x)::ms, ?_, ?_, ?_⟩
    · rw [attrMembers, hms, plainNumbers_of_integral hix]
      rfl
    · rw [has, List.map_cons]
    · rw [integralMembers, hix, hint]
      rfl

theorem Item.ext {item item' : Item} (h : item.attrs=item'.attrs) : item=item' := by
  cases item
  cases item'
  cases h
  rfl

theorem ofMembers_attrs {ms : List (String × Json)}
    (h : item.attrs=ms.map fun m => (m.1, .json m.2)) : Item.ofMembers ms=item := by
  have hsorted : ms.Pairwise fun a b => a.1 < b.1 := by
    have hs := item.sorted
    rw [h, List.pairwise_map] at hs
    exact hs
  have hnodup : (ms.map Prod.fst).Nodup :=
    List.pairwise_map.mpr (hsorted.imp fun hlt => ne_of_lt hlt)
  have hle : ms.Pairwise fun a b => a.1 ≤ b.1 := hsorted.imp fun hlt => le_of_lt hlt
  refine Item.ext ?_
  change ((Dict.ofList ms).entries.insertionSort fun a b => a.1 ≤ b.1).map
    (fun m => (m.1, Attr.json m.2.sortKeys))=_
  rw [h, Dict.entries_ofList hnodup, hle.insertionSort_eq]
  refine List.map_congr_left ?_
  intro m hm
  have hmem : ((m.1, .json m.2) : String × Attr)∈item.attrs :=
    h ▸ List.mem_map_of_mem (f := fun m : String × Json => (m.1, Attr.json m.2)) hm
  rw [item.canonical _ hmem m.2 rfl]

theorem read_item (h : Plain item) : ∃ ms, attrMembers f item.attrs=some ms ∧
    integralMembers ms=true ∧ Item.read (.obj ms)=some item := by
  obtain ⟨ms, hms, has, hint⟩ := attrMembers_of_plain (f := f) h
  exact ⟨ms, hms, hint, by rw [Item.read, if_pos hint, ofMembers_attrs has]⟩

end Items

section Records
variable {keyName : String}

def Record.pair (r : Record keyName) : String × Item := (r.key, r.item)

def pairs (keyName : String) (items : List Item) : List (String × Item) :=
  items.filterMap fun item => (keyOf keyName item).map fun key => (key, item)

theorem map_pair (rs : List (Record keyName)) :
    rs.map Record.pair=pairs keyName (rs.map Record.item) := by
  induction rs with
  | nil => rfl
  | cons r rs ih =>
    have hcons : pairs keyName ((r::rs).map Record.item)=
        (r.key, r.item)::pairs keyName (rs.map Record.item) :=
      List.filterMap_cons_some (by rw [r.keyed]; rfl)
    rw [hcons, ← ih]
    rfl

theorem pairs_values (t : Table keyName) : pairs keyName t.values=t.items.entries := by
  obtain ⟨⟨l, _⟩, hkeyed⟩ := t
  change pairs keyName (l.map Prod.snd)=l
  simp only at hkeyed
  induction l with
  | nil => rfl
  | cons p l ih =>
    have hp := hkeyed p List.mem_cons_self
    have hcons : pairs keyName ((p::l).map Prod.snd)=(p.1, p.2)::pairs keyName (l.map Prod.snd) :=
      List.filterMap_cons_some (by rw [hp]; rfl)
    rw [hcons]
    rw [ih (List.nodup_cons.mp ‹_›).2 fun q hq => hkeyed q (List.mem_cons_of_mem p hq)]

theorem foldl_put (t : Table keyName) (rs : List (Record keyName)) :
    (rs.foldl Table.put t).items=t.items.setAll (rs.map Record.pair) := by
  induction rs generalizing t with
  | nil => rfl
  | cons r rs ih => exact ih (t.put r)

theorem readRecords_cons {x : Json} {xs : List Json} {rs : List (Record keyName)}
    (h : readRecords keyName (x::xs)=some rs) : ∃ r rs', Record.read keyName x=some r ∧
      readRecords keyName xs=some rs' ∧ rs=r::rs' := by
  obtain ⟨r, hr, h⟩ := Option.bind_eq_some_iff.mp h
  obtain ⟨rs', hrs, h⟩ := Option.bind_eq_some_iff.mp h
  exact ⟨r, rs', hr, hrs, (Option.some.inj h).symm⟩

theorem readRecords_append (xs ys : List Json) :
    readRecords keyName (xs++ys)=(readRecords keyName xs).bind fun rs =>
      (readRecords keyName ys).map fun rs' => rs++rs' := by
  induction xs with
  | nil => cases h : readRecords keyName ys <;> simp [readRecords, h]
  | cons x xs ih =>
    rw [List.cons_append, readRecords, readRecords, ih]
    cases Record.read keyName x with
    | none => rfl
    | some r =>
      cases readRecords keyName xs with
      | none => rfl
      | some rs =>
        cases readRecords keyName ys with
        | none => rfl
        | some rs' => rfl

/-- A writer that comes to its end has put every record, one after the other. -/
theorem batchWriter_some {t t' : Table keyName} {buffer xs : List Json}
    (h : batchWriter t buffer xs=some t') :
    ∃ rs, readRecords keyName (buffer++xs)=some rs ∧ t'=rs.foldl Table.put t := by
  have hflush : ∀ {t t' : Table keyName} {buffer : List Json}, flush t buffer=some t' →
      ∃ rs, readRecords keyName buffer=some rs ∧ t'=rs.foldl Table.put t := by
    intro t t' buffer h
    obtain ⟨rs, hrs, h⟩ := Option.bind_eq_some_iff.mp h
    split at h
    · exact ⟨rs, hrs, (Option.some.inj h).symm⟩
    · cases h
  induction xs generalizing t buffer with
  | nil =>
    rw [List.append_nil]
    exact hflush h
  | cons x xs ih =>
    rw [batchWriter] at h
    split at h
    · obtain ⟨rs, hrs, he⟩ := ih h
      rw [List.append_assoc] at hrs
      exact ⟨rs, hrs, he⟩
    · obtain ⟨mid, hmid, h⟩ := Option.bind_eq_some_iff.mp h
      obtain ⟨rs, hrs, rfl⟩ := hflush hmid
      obtain ⟨rs', hrs', rfl⟩ := ih h
      refine ⟨rs++rs', ?_, by rw [List.foldl_append]⟩
      rw [List.nil_append] at hrs'
      rw [← List.singleton_append, ← List.append_assoc, readRecords_append, hrs, hrs']
      rfl

theorem batchWriter_of_nodup {t : Table keyName} {buffer xs : List Json}
    {rs : List (Record keyName)} (h : readRecords keyName (buffer++xs)=some rs)
    (hnodup : (rs.map Record.key).Nodup) :
    batchWriter t buffer xs=some (rs.foldl Table.put t) := by
  induction xs generalizing t buffer rs with
  | nil =>
    rw [List.append_nil] at h
    rw [batchWriter, flush, h]
    exact if_pos hnodup
  | cons x xs ih =>
    rw [batchWriter]
    rw [← List.singleton_append, ← List.append_assoc] at h
    split
    · exact ih h hnodup
    · rw [readRecords_append] at h
      obtain ⟨ra, ha, h⟩ := Option.bind_eq_some_iff.mp h
      obtain ⟨rb, hb, rfl⟩ := Option.map_eq_some_iff.mp h
      rw [List.map_append, List.nodup_append] at hnodup
      have hflush : flush t (buffer++[x])=some (ra.foldl Table.put t) := by
        rw [flush, ha]
        exact if_pos hnodup.1
      rw [hflush, Option.bind_some, List.foldl_append]
      exact ih hb hnodup.2.1

theorem batchWriter_perm {tbl : Table keyName} {xs : List Json} {rs : List (Record keyName)}
    (hread : readRecords keyName xs=some rs)
    (hperm : (rs.map Record.pair).Perm tbl.items.entries) (into : Table keyName) :
    ∃ tbl', batchWriter into [] xs=some tbl' ∧
      ∀ k, tbl'.items.get k=(tbl.items.get k).or (into.items.get k) := by
  have hkeys : ((rs.map Record.pair).map Prod.fst).Nodup :=
    (hperm.map Prod.fst).nodup_iff.mpr tbl.items.nodup
  have hnodup : (rs.map Record.key).Nodup := by
    rw [List.map_map] at hkeys
    exact hkeys
  refine ⟨_, batchWriter_of_nodup (hread : readRecords keyName ([]++xs)=some rs) hnodup, ?_⟩
  intro k
  rw [foldl_put, Dict.get_setAll _ hkeys, Dict.getIn_of_perm hperm hkeys]
  rfl

end Records

def Db.Plain (db : Db) : Prop := ∀ t, ∀ item∈(db t).values, Backup.Plain item

def Db.Same (db db' : Db) : Prop := ∀ t, (db t).items.Same (db' t).items

def sizes (db : Db) : Dict String Nat :=
  Dict.ofList (snapshotTables.map fun t => (t.name, (db t).values.length))

def Scans (db : Db) (pages : TableName → List (List Item)) : Prop :=
  ∀ t, (pages t).flatten.Perm (db t).values

section Document
variable {f : Floats}

theorem itemsJson_read {keyName : String} {items : List Item}
    (h : ∀ item∈items, Plain item ∧ (keyOf keyName item).isSome=true) :
    ∃ xs rs, itemsJson f items=some xs ∧ integralItems xs=true ∧
      readRecords keyName xs=some rs ∧ rs.map Record.item=items := by
  induction items with
  | nil => exact ⟨[], [], rfl, rfl, rfl, rfl⟩
  | cons item items ih =>
    obtain ⟨xs, rs, hxs, hint, hrs, hitems⟩ := ih fun i hi => h i (List.mem_cons_of_mem item hi)
    obtain ⟨hplain, hkey⟩ := h item List.mem_cons_self
    obtain ⟨ms, hms, hims, hread⟩ := read_item (f := f) hplain
    obtain ⟨key, hkey⟩ := Option.isSome_iff_exists.mp hkey
    have hrecord : Record.read keyName (.obj ms)=some ⟨item, key, hkey⟩ := by
      rw [Record.read, hread, Option.bind_some]
      split
      · next key' h' =>
        have he : key'=key := Option.some.inj (h'.symm.trans hkey)
        subst he
        rfl
      · next h' =>
        rw [h'] at hkey
        cases hkey
    refine ⟨.obj ms::xs, ⟨item, key, hkey⟩::rs, ?_, ?_, ?_, ?_⟩
    · rw [itemsJson, hms, hxs]
      rfl
    · rw [integralItems, integral, hims, hint]
      rfl
    · rw [readRecords, hrecord, hrs]
      rfl
    · rw [List.map_cons, hitems]

structure Listed (f : Floats) (t : TableName) (tbl : Table t.keyName) (items : List Item)
    (xs : List Json) (rs : List (Record t.keyName)) : Prop where
  json : itemsJson f items=some xs
  integral : integralItems xs=true
  read : readRecords t.keyName xs=some rs
  perm : (rs.map Record.pair).Perm tbl.items.entries
  length : xs.length=tbl.values.length

theorem readRecords_length {keyName : String} {xs : List Json} {rs : List (Record keyName)}
    (h : readRecords keyName xs=some rs) : rs.length=xs.length := by
  induction xs generalizing rs with
  | nil =>
    cases h
    rfl
  | cons x xs ih =>
    obtain ⟨r, rs', _, hrs, rfl⟩ := readRecords_cons h
    rw [List.length_cons, List.length_cons, ih hrs]

theorem listed {t : TableName} {tbl : Table t.keyName} {items : List Item}
    (hscan : items.Perm tbl.values) (hplain : ∀ item∈tbl.values, Plain item) :
    ∃ xs rs, Listed f t tbl items xs rs := by
  have hitems : ∀ item∈items, Plain item ∧ (keyOf t.keyName item).isSome=true := by
    intro item hi
    have hv := hscan.mem_iff.mp hi
    refine ⟨hplain item hv, ?_⟩
    obtain ⟨p, hp, rfl⟩ := List.mem_map.mp hv
    rw [tbl.keyed p hp]
    rfl
  obtain ⟨xs, rs, hjson, hint, hread, hrs⟩ := itemsJson_read (f := f) hitems
  refine ⟨xs, rs, hjson, hint, hread, ?_, ?_⟩
  · rw [map_pair, hrs, ← pairs_values]
    exact hscan.filterMap _
  · rw [← readRecords_length hread, ← hscan.length_eq, ← hrs, List.length_map]

theorem restoreTables_known (t : TableName) (xs : List Json) (rest : List (String × Json)) (db : Db)
    (counts : Dict String Nat) :
    restoreTables none ((t.name, .arr xs)::rest) db counts=
      (batchWriter (db t) [] xs).bind fun tbl =>
        restoreTables none rest (Function.update db t tbl) (counts.set t.name xs.length) := by
  have hname : TableName.get t.name=some t := by
    cases t with
    | instances => rfl
    | bindings => rfl
  have hput : putItems t.name xs db=
      (batchWriter (db t) [] xs).map fun tbl => Function.update db t tbl := by
    rw [putItems, hname]
  change (do
    let db ← putItems t.name xs db
    restoreTables none rest db (counts.set t.name xs.length))=_
  rw [hput]
  cases batchWriter (db t) [] xs with
  | none => rfl
  | some tbl => rfl

theorem Listed.written {t : TableName} {tbl : Table t.keyName} {items : List Item} {xs : List Json}
    {rs : List (Record t.keyName)} (h : Listed f t tbl items xs rs) (into : Table t.keyName) :
    ∃ tbl', batchWriter into [] xs=some tbl' ∧
      ∀ k, tbl'.items.get k=(tbl.items.get k).or (into.items.get k) :=
  batchWriter_perm h.read h.perm into

def document (formatVersion : Int) (instances bindings : List Json) : Json :=
  .obj [("format_version", .num formatVersion),
    ("tables", .obj [("sovereign_instances", .arr instances),
      ("sovereign_bindings", .arr bindings)])]

theorem exportSnapshot_tables (pages : TableName → List (List Item)) :
    (exportSnapshot snapshotTables pages).tables.entries=
      [("sovereign_instances", (pages .instances).flatten),
       ("sovereign_bindings", (pages .bindings).flatten)] := by
  simp only [exportSnapshot, scanAll_eq_flatten]
  rfl

theorem tablesOf_document (v : Int) (xs ys : List Json) :
    ∃ tables, tablesOf (document v xs ys)=some tables ∧ tables.entries=
      [(TableName.instances.name, .arr xs), (TableName.bindings.name, .arr ys)] :=
  ⟨_, rfl, rfl⟩

/-- What is read back from the store is the document of what was exported. -/
theorem read_write {σ : Type*} (s3 : S3 σ) (bucket key : String) (st : σ) {db : Db}
    {pages : TableName → List (List Item)} {xs ys : List Json}
    {rs : List (Record TableName.instances.keyName)}
    {rs' : List (Record TableName.bindings.keyName)}
    (hi : Listed f .instances (db .instances) (pages .instances).flatten xs rs)
    (hb : Listed f .bindings (db .bindings) (pages .bindings).flatten ys rs') :
    ∃ st', writeSnapshotToS3 f s3 bucket key (exportSnapshot snapshotTables pages) st=some st' ∧
      readSnapshotFromS3 f s3 bucket key st'=some (document 1 xs ys) := by
  have hjson : snapshotJson f (exportSnapshot snapshotTables pages)=some (document 1 xs ys) := by
    rw [snapshotJson, exportSnapshot_tables, tablesJson, tablesJson, tablesJson, hi.json, hb.json]
    rfl
  have hint : integral (document 1 xs ys)=true := by
    have hone : integral (.num ((1 : Int) : Rat))=true := rfl
    rw [document, integral, integralMembers, integralMembers, integralMembers, hone, integral,
      integralMembers, integralMembers, integralMembers, integral, integral, hi.integral,
      hb.integral]
    rfl
  refine ⟨s3.putObject bucket key (dumps (numbers f) (document 1 xs ys)) st, ?_, ?_⟩
  · rw [writeSnapshotToS3, hjson]
    rfl
  · rw [readSnapshotFromS3, s3.get_put, Option.bind_some, loads_dumps (numeric_of_integral hint)]

theorem restore_document {db : Db} {items items' : List Item} {xs ys : List Json}
    {rs : List (Record TableName.instances.keyName)}
    {rs' : List (Record TableName.bindings.keyName)}
    (hi : Listed f .instances (db .instances) items xs rs)
    (hb : Listed f .bindings (db .bindings) items' ys rs') (v : Int) (other : Db) :
    ∃ db', restoreSnapshot none (document v xs ys) other=some (db', sizes db) ∧
      ∀ t k, (db' t).items.get k=((db t).items.get k).or ((other t).items.get k) := by
  obtain ⟨tables, htables, hentries⟩ := tablesOf_document v xs ys
  obtain ⟨ti, hti, hgeti⟩ := hi.written (other .instances)
  obtain ⟨tb, htb, hgetb⟩ := hb.written (other .bindings)
  refine ⟨Function.update (Function.update other .instances ti) .bindings tb, ?_, ?_⟩
  · rw [restoreSnapshot, htables]
    change restoreTables none tables.entries other Dict.empty=_
    have hother : Function.update other .instances ti .bindings=other .bindings :=
      Function.update_of_ne (by decide) _ _
    rw [hentries, restoreTables_known, hti, Option.bind_some, restoreTables_known, hother, htb,
      Option.bind_some, restoreTables, hi.length, hb.length]
    rfl
  · intro t k
    cases t with
    | instances =>
      rw [Function.update_of_ne (by decide), Function.update_self]
      exact hgeti k
    | bindings =>
      rw [Function.update_self]
      exact hgetb k

end Document

/-- Backup and restore: the tables come back, beside what was there under other keys. -/
theorem restore_export {σ : Type*} (f : Floats) (s3 : S3 σ) (st : σ) (bucket key : String) (db : Db)
    (pages : TableName → List (List Item)) (hscan : Scans db pages) (hplain : db.Plain) :
    ∃ st' snapshot,
      writeSnapshotToS3 f s3 bucket key (exportSnapshot snapshotTables pages) st=some st' ∧
      readSnapshotFromS3 f s3 bucket key st'=some snapshot ∧
      (∃ db', restoreSnapshot none snapshot emptyDb=some (db', sizes db) ∧ db'.Same db) ∧
      ∀ other, ∃ db', restoreSnapshot none snapshot other=some (db', sizes db) ∧
        (∀ t k, (db' t).items.get k=((db t).items.get k).or ((other t).items.get k)) ∧
        ∃ again, restoreSnapshot none snapshot db'=some (again, sizes db) ∧ again.Same db' := by
  obtain ⟨xs, rs, hi⟩ := listed (f := f) (hscan .instances) (hplain .instances)
  obtain ⟨ys, rs', hb⟩ := listed (f := f) (hscan .bindings) (hplain .bindings)
  obtain ⟨st', hwrite, hread⟩ := read_write s3 bucket key st hi hb
  refine ⟨st', document 1 xs ys, hwrite, hread, ?_, ?_⟩
  · obtain ⟨db', hrestore, hget⟩ := restore_document hi hb 1 emptyDb
    refine ⟨db', hrestore, ?_⟩
    intro t k
    rw [hget t k]
    exact Option.or_none
  · intro other
    obtain ⟨db', hrestore, hget⟩ := restore_document hi hb 1 other
    obtain ⟨again, hrestore', hget'⟩ := restore_document hi hb 1 db'
    refine ⟨db', hrestore, hget, again, hrestore', ?_⟩
    intro t k
    -- what the second restore falls back to is what the first one wrote
    rw [hget' t k, hget t k]
    cases (db t).items.get k with
    | none => rfl
    | some item => rfl

def memory : S3 (String → String → Option (List Char)) where
  putObject bucket key body st b k := if b=bucket ∧ k=key then some body else st b k
  getObject bucket key st := st bucket key
  get_put := fun _ _ _ _ => if_pos ⟨rfl, rfl⟩

def noFloats : Floats where
  ofDecimal := id
  codec := { write := fun _ => [], read := fun _ => none }

def lbItem : Item where
  attrs := [("instance_id", .json (.str "lb-1")), ("payload", .json (.str "\x7b\x7d"))]
  sorted := by decide
  canonical := by
    intro a ha x hx
    simp only [List.mem_cons, List.not_mem_nil, or_false] at ha
    obtain rfl | rfl := ha
    · cases hx
      rfl
    · cases hx
      rfl

def lbDb : Db
  | .instances =>
    { items := ⟨[("lb-1", lbItem)], by decide⟩
      keyed := by
        intro p hp
        rw [List.mem_singleton.mp hp]
        rfl }
  | .bindings => Table.empty _

def lbPages : TableName → List (List Item)
  | .instances => [[], [lbItem]]
  | .bindings => [[]]

theorem scans_lbPages : Scans lbDb lbPages := by
  intro t
  cases t with
  | instances => exact List.Perm.refl _
  | bindings => exact List.Perm.refl _

theorem restore_export_lbDb : ∃ st' snapshot db',
    writeSnapshotToS3 noFloats memory "backups" "snap.json"
      (exportSnapshot snapshotTables lbPages) (fun _ _ => none)=some st' ∧
    readSnapshotFromS3 noFloats memory "backups" "snap.json" st'=some snapshot ∧
    restoreSnapshot none snapshot emptyDb=some (db', sizes lbDb) ∧ db'.Same lbDb := by
  have hplain : lbDb.Plain := by
    intro t item hitem
    cases t with
    | instances =>
      obtain rfl := List.mem_singleton.mp hitem
      intro a ha
      obtain rfl | ha := List.mem_cons.mp ha
      · exact ⟨_, rfl, rfl⟩
      · obtain rfl := List.mem_singleton.mp ha
        exact ⟨_, rfl, rfl⟩
    | bindings => cases hitem
  obtain ⟨st', snapshot, hwrite, hread, ⟨db', hrestore, hsame⟩, _⟩ :=
    restore_export noFloats memory (fun _ _ => none) "backups" "snap.json" lbDb lbPages
      scans_lbPages hplain
  exact ⟨st', snapshot, db', hwrite, hread, hrestore, hsame⟩

end Sovereign.Backup
