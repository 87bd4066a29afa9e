import Sovereign.Dict
import Sovereign.Json
import Sovereign.Sorting
import Sovereign.Trace
import Sovereign.Utf8
import Mathlib

/-! Packs, the registries they fill, and the catalogue. A process finds its packs when it starts,
and publishes what its registries hold into a table that outlives it. -/
namespace Sovereign.Catalog

structure Entry where
  typeId : String
  body : List (String × Json)

structure Plugin where
  name : String
  typeId : Option String
  entry : Option Entry

/-- A connector is registered as the class, a renderer as what `renderer_cls()` returns, if it
returns. -/
structure RendererClass extends Plugin where
  constructs : Bool := true

abbrev Registry := Dict String Plugin

/-- `register`; `none` is the `ValueError` of a class that has no type. -/
def register (reg : Registry) (p : Plugin) : Option Registry :=
  match p.typeId with
  | none => none
  | some t => if t="" then none else some (reg.set t p)

def tryRegister (reg : Registry) (p : Plugin) : Registry := (register reg p).getD reg

def tryRenderer (reg : Registry) (r : RendererClass) : Registry :=
  if r.constructs then tryRegister reg r.toPlugin else reg

structure Pack where
  name : String
  renderers : List RendererClass := []
  connectors : List Plugin := []
  policyBundles : List String := []

structure Chassis where
  renderers : Registry := Dict.empty
  connectors : Registry := Dict.empty
  packs : Dict String Pack := Dict.empty

def registerPack (c : Chassis) (pack : Pack) : Chassis :=
  { renderers := pack.renderers.foldl tryRenderer c.renderers
    connectors := pack.connectors.foldl tryRegister c.connectors
    packs := c.packs.set pack.name pack }

/-- `discover_packs`, with the packs it returns; an entry point that does not load, or whose class
does not construct, is `none`. -/
def discoverPacks (c : Chassis) (eps : List (Option Pack)) : Chassis × List Pack :=
  (eps.reduceOption.foldl registerPack c, eps.reduceOption)

def bundlesFrom (pathExists : String → Bool) (seen : List String) : List String → List String
  | [] => []
  | b::rest =>
    if b∈seen then bundlesFrom pathExists seen rest
    else if pathExists b then b::bundlesFrom pathExists (b::seen) rest
    else bundlesFrom pathExists (b::seen) rest

def collectPolicyBundleDirs (pathExists : String → Bool) (c : Chassis) : List String :=
  (bundlesFrom pathExists [] (c.packs.entries.flatMap fun p => p.2.policyBundles)).insertionSort (· ≤ ·)

inductive Kind where
  | service | connector
deriving DecidableEq

/-- One item for a kind (hash key) and a type (range key). -/
abbrev Table := Dict (Kind × String) (List (String × Json))

def put (kind : Kind) (table : Table) (e : Entry) : Table := table.set (kind, e.typeId) e.body

/-- A query by kind answers in the byte order of the types. -/
def list (kind : Kind) (table : Table) : List Entry :=
  ((table.entries.filter fun p => decide (p.1.1=kind)).map fun p => ⟨p.1.2, p.2⟩).insertionSort
    fun a b => Utf8.encode a.typeId.toList ≤ Utf8.encode b.typeId.toList

def published (reg : Registry) : List Entry :=
  (reg.keys.insertionSort (· ≤ ·)).filterMap fun t => (reg.get t).bind Plugin.entry

def Chassis.published (c : Chassis) : Kind → List Entry
  | .service => Catalog.published c.renderers
  | .connector => Catalog.published c.connectors

structure Faults where
  ensure : Bool := false
  put : Kind → String → Bool := fun _ _ => false

def seedKind (faults : Faults) (c : Chassis) (table : Table) (kind : Kind) : Table :=
  (c.published kind).foldl
    (fun table e => if faults.put kind e.typeId then table else put kind table e) table

def seedCatalog (faults : Faults) (c : Chassis) (table : Table) : Table :=
  if faults.ensure then table else [Kind.service, .connector].foldl (seedKind faults c) table

structure Listing where
  services : List Entry
  connectors : List Entry

/-- `GET /v2/catalog`: the table, or the live registries where it cannot be read. -/
def getCatalog (raises : Bool) (c : Chassis) (table : Table) : Listing :=
  if raises then { services := c.published .service, connectors := c.published .connector }
  else { services := list .service table, connectors := list .connector table }

/-- A process of some release starts with the packs that are installed then, or an entry is put or
deleted through the store. -/
inductive Event where
  | start (release : Chassis) (eps : List (Option Pack)) (faults : Faults)
  | put (kind : Kind) (entry : Entry)
  | delete (kind : Kind) (typeId : String)

def step (table : Table) : Event → Table
  | .start release eps faults => seedCatalog faults (discoverPacks release eps).1 table
  | .put kind entry => put kind table entry
  | .delete kind typeId => table.erase (kind, typeId)

def Plugin.pair (p : Plugin) : Option (String × Plugin) :=
  match p.typeId with
  | none => none
  | some t => if t="" then none else some (t, p)

def RendererClass.pair (r : RendererClass) : Option (String × Plugin) :=
  if r.constructs then r.toPlugin.pair else none

theorem tryRegister_eq (reg : Registry) (p : Plugin) :
    tryRegister reg p=reg.setAll p.pair.toList := by
  obtain ⟨name, typeId, entry⟩ := p
  cases typeId with
  | none => rfl
  | some t => by_cases h : t="" <;> simp [tryRegister, register, Plugin.pair, h, Dict.setAll]

theorem tryRenderer_eq (reg : Registry) (r : RendererClass) :
    tryRenderer reg r=reg.setAll r.pair.toList := by
  rw [tryRenderer, RendererClass.pair]
  split
  · exact tryRegister_eq reg r.toPlugin
  · rfl

theorem foldl_setAll {γ : Type*} {turn : Registry → γ → Registry}
    {pair : γ → Option (String × Plugin)} (h : ∀ reg x, turn reg x=reg.setAll (pair x).toList)
    (reg : Registry) (xs : List γ) : xs.foldl turn reg=reg.setAll (xs.filterMap pair) := by
  induction xs generalizing reg with
  | nil => rfl
  | cons x xs ih =>
    rw [List.foldl_cons, ih, h]
    cases hx : pair x with
    | none => simp [hx, Dict.setAll]
    | some q => simp [hx, Dict.setAll]

def renderersOf (packs : List Pack) : List (String × Plugin) :=
  (packs.flatMap Pack.renderers).filterMap RendererClass.pair

def connectorsOf (packs : List Pack) : List (String × Plugin) :=
  (packs.flatMap Pack.connectors).filterMap Plugin.pair

theorem setAll_append {κ α : Type*} [DecidableEq κ] (d : Dict κ α) (l l' : List (κ × α)) :
    d.setAll (l++l')=(d.setAll l).setAll l' := List.foldl_append

theorem foldl_registerPack (c : Chassis) (packs : List Pack) :
    packs.foldl registerPack c=
      { renderers := c.renderers.setAll (renderersOf packs)
        connectors := c.connectors.setAll (connectorsOf packs)
        packs := c.packs.setAll (packs.map fun p => (p.name, p)) } := by
  induction packs generalizing c with
  | nil => rfl
  | cons pack packs ih =>
    rw [List.foldl_cons, ih]
    simp only [registerPack, foldl_setAll tryRegister_eq, foldl_setAll tryRenderer_eq,
      renderersOf, connectorsOf, List.flatMap_cons,
      List.filterMap_append, setAll_append, List.map_cons]
    rfl

def lastOf {α : Type*} (l : List (String × α)) (t : String) : Option α :=
  (l.reverse.find? fun p => decide (p.1=t)).map Prod.snd

def discoverAll (c : Chassis) (ess : List (List (Option Pack))) : Chassis :=
  ess.foldl (fun c eps => (discoverPacks c eps).1) c

theorem discoverAll_eq (c : Chassis) (ess : List (List (Option Pack))) :
    discoverAll c ess=(ess.flatMap List.reduceOption).foldl registerPack c := by
  induction ess generalizing c with
  | nil => rfl
  | cons eps ess ih =>
    rw [List.flatMap_cons, List.foldl_append]
    exact ih (discoverPacks c eps).1

theorem discoverPacks_again (c : Chassis) (eps : List (Option Pack)) :
    discoverPacks (discoverPacks c eps).1 eps=discoverPacks c eps := by
  simp only [discoverPacks, foldl_registerPack, Dict.setAll_again]

section Bundles
variable {pathExists : String → Bool}

theorem mem_bundlesFrom {seen bs : List String} {b : String} :
    b∈bundlesFrom pathExists seen bs ↔ pathExists b=true ∧ b∈bs ∧ b∉seen := by
  induction bs generalizing seen with
  | nil => simp [bundlesFrom]
  | cons x xs ih =>
    have hsplit : pathExists b=true ∧ b∈xs ∧ b∉x::seen ↔
        (pathExists b=true ∧ b∈xs ∧ b∉seen) ∧ b≠x := by
      simp only [List.mem_cons, not_or]
      tauto
    simp only [bundlesFrom]
    split
    · next hx =>
      rw [ih, List.mem_cons]
      have hne : b∉seen → b≠x := fun h he => h (he ▸ hx)
      tauto
    · next hx =>
      split
      · next hd =>
        rw [List.mem_cons, ih, hsplit, List.mem_cons]
        by_cases he : b=x
        · subst he
          simp [hd, hx]
        · simp [he]
      · next hd =>
        rw [ih, hsplit, List.mem_cons]
        have hne : pathExists b=true → b≠x := fun h he => hd (he ▸ h)
        tauto

theorem nodup_bundlesFrom (seen bs : List String) : (bundlesFrom pathExists seen bs).Nodup := by
  induction bs generalizing seen with
  | nil => exact List.nodup_nil
  | cons x xs ih =>
    simp only [bundlesFrom]
    split
    · exact ih seen
    · split
      · refine List.nodup_cons.mpr ⟨?_, ih _⟩
        rw [mem_bundlesFrom]
        simp
      · exact ih _

theorem collect_strict (c : Chassis) :
    (collectPolicyBundleDirs pathExists c).Pairwise fun a b => a < b :=
  Sorting.strict_by id (by simpa using nodup_bundlesFrom [] _)

theorem mem_collect {c : Chassis} {b : String} : b∈collectPolicyBundleDirs pathExists c ↔
    pathExists b=true ∧ ∃ name pack, c.packs.get name=some pack ∧ b∈pack.policyBundles := by
  rw [collectPolicyBundleDirs, List.mem_insertionSort, mem_bundlesFrom]
  simp only [List.mem_flatMap, List.not_mem_nil, not_false_eq_true, and_true, Prod.exists,
    Dict.get_eq_some_iff]

end Bundles

/-- Over every sequence of discoveries in a process, whatever entry points are broken: under each
type stands the last class that could be registered there, and under each name the last pack;
discovering the same again changes nothing, and the bundles that are given to the policy engine
are the existing ones of the packs that stand, each once and in order. -/
theorem registrations_stand (c : Chassis) (ess : List (List (Option Pack))) :
    let packs := ess.flatMap List.reduceOption
    let found := discoverAll c ess
    (∀ t, found.renderers.get t=(lastOf (renderersOf packs) t).or (c.renderers.get t) ∧
      found.connectors.get t=(lastOf (connectorsOf packs) t).or (c.connectors.get t) ∧
      found.packs.get t=(lastOf (packs.map fun p => (p.name, p)) t).or (c.packs.get t)) ∧
    (∀ eps, discoverAll c (ess++[eps, eps])=discoverAll c (ess++[eps])) ∧
    ∀ pathExists, (collectPolicyBundleDirs pathExists found).Pairwise (fun a b => a < b) ∧
      ∀ b, b∈collectPolicyBundleDirs pathExists found ↔ pathExists b=true ∧
        ∃ name pack, found.packs.get name=some pack ∧ b∈pack.policyBundles := by
  refine ⟨fun t => ?_, fun eps => ?_, fun pathExists => ⟨collect_strict _, fun b => mem_collect⟩⟩
  · rw [discoverAll_eq, foldl_registerPack]
    exact ⟨Dict.get_setAll_last _ _ t, Dict.get_setAll_last _ _ t, Dict.get_setAll_last _ _ t⟩
  · simp only [discoverAll, List.foldl_append, List.foldl_cons, List.foldl_nil,
      discoverPacks_again]

section Seed
variable {faults : Faults} {c : Chassis} {table : Table}

def writtenBy (faults : Faults) (c : Chassis) (kind : Kind) :
    List ((Kind × String) × List (String × Json)) :=
  ((c.published kind).filter fun e => !faults.put kind e.typeId).map fun e =>
    ((kind, e.typeId), e.body)

theorem seedKind_eq (faults : Faults) (c : Chassis) (table : Table) (kind : Kind) :
    seedKind faults c table kind=table.setAll (writtenBy faults c kind) := by
  rw [seedKind, writtenBy]
  induction c.published kind generalizing table with
  | nil => rfl
  | cons e es ih =>
    rw [List.foldl_cons, ih]
    cases h : faults.put kind e.typeId with
    | true => simp [h]
    | false => simp [h, put, Dict.setAll]

theorem seedCatalog_eq (h : faults.ensure=false) :
    seedCatalog faults c table=
      table.setAll (writtenBy faults c .service++writtenBy faults c .connector) := by
  simp only [seedCatalog, h, Bool.false_eq_true, if_false, List.foldl_cons, List.foldl_nil,
    seedKind_eq, setAll_append]

def Writes (kind : Kind) (typeId : String) : Event → Prop
  | .start release eps faults => faults.ensure=false ∧ faults.put kind typeId=false ∧
      typeId∈(((discoverPacks release eps).1).published kind).map Entry.typeId
  | .put k e => k=kind ∧ e.typeId=typeId
  | .delete _ _ => False

def Deletes (kind : Kind) (typeId : String) : Event → Prop
  | .start _ _ _ => False
  | .put _ _ => False
  | .delete k t => k=kind ∧ t=typeId

theorem mem_writtenBy {kind kind' : Kind} {typeId : String} :
    (kind, typeId)∈(writtenBy faults c kind').map Prod.fst ↔
      kind'=kind ∧ faults.put kind typeId=false ∧ typeId∈(c.published kind).map Entry.typeId := by
  simp only [writtenBy, List.map_map, List.mem_map, List.mem_filter, Function.comp_apply,
    Prod.mk.injEq, Bool.not_eq_true']
  constructor
  · rintro ⟨e, ⟨he, hf⟩, rfl, rfl⟩
    exact ⟨rfl, hf, e, he, rfl⟩
  · rintro ⟨rfl, hf, e, he, rfl⟩
    exact ⟨e, ⟨he, hf⟩, rfl, rfl⟩

theorem mem_keys_step (table : Table) (ev : Event) (kind : Kind) (typeId : String) :
    (kind, typeId)∈(step table ev).keys ↔
      Writes kind typeId ev ∨ (kind, typeId)∈table.keys ∧ ¬ Deletes kind typeId ev := by
  cases ev with
  | delete k t =>
    simp only [step, Writes, Deletes, false_or, Dict.keys, Dict.erase, List.mem_map,
      List.mem_filter, decide_eq_true_eq]
    constructor
    · rintro ⟨p, ⟨hp, hne⟩, hk⟩
      refine ⟨⟨p, hp, hk⟩, ?_⟩
      rintro ⟨rfl, rfl⟩
      exact hne hk
    · rintro ⟨⟨p, hp, hk⟩, hne⟩
      refine ⟨p, ⟨hp, fun he => hne ?_⟩, hk⟩
      rw [hk] at he
      exact ⟨(Prod.mk.inj he).1.symm, (Prod.mk.inj he).2.symm⟩
  | put k e =>
    simp only [step, put, Dict.mem_keys_set, Writes, Deletes, not_false_eq_true, and_true,
      Prod.mk.injEq, eq_comm]
  | start release eps faults =>
    simp only [step, Writes, Deletes, not_false_eq_true, and_true]
    cases he : faults.ensure with
    | true => simp [seedCatalog, he]
    | false =>
      rw [seedCatalog_eq he, Dict.mem_keys_setAll, List.map_append, List.mem_append, mem_writtenBy,
        mem_writtenBy]
      cases kind <;> simp

def Left (history : List Event) (kind : Kind) (typeId : String) : Prop :=
  ∃ before ev after, history=before++ev::after ∧ Writes kind typeId ev ∧
    ∀ later∈after, ¬ Deletes kind typeId later

theorem left_concat {history : List Event} {ev : Event} {kind : Kind} {typeId : String} :
    Left (history++[ev]) kind typeId ↔
      Writes kind typeId ev ∨ Left history kind typeId ∧ ¬ Deletes kind typeId ev := by
  constructor
  · rintro ⟨before, w, after, he, hw, hlater⟩
    cases after using List.reverseRecOn with
    | nil =>
      obtain ⟨_, hlast⟩ := List.append_inj' he rfl
      cases hlast
      exact .inl hw
    | append_singleton after last =>
      rw [← List.cons_append, ← List.append_assoc] at he
      obtain ⟨rfl, hlast⟩ := List.append_inj' he rfl
      cases hlast
      exact .inr ⟨⟨before, w, after, rfl, hw,
        fun later hl => hlater later (List.mem_append_left _ hl)⟩,
        hlater ev (List.mem_append_right _ (List.mem_singleton_self _))⟩
  · rintro (hw | ⟨⟨before, w, after, rfl, hw, hlater⟩, hd⟩)
    · exact ⟨history, ev, [], rfl, hw, fun _ h => by cases h⟩
    · refine ⟨before, w, after++[ev], by simp, hw, fun later hl => ?_⟩
      obtain hl | hl := List.mem_append.mp hl
      · exact hlater later hl
      · rw [List.mem_singleton.mp hl]
        exact hd

theorem mem_keys_exec (history : List Event) (kind : Kind) (typeId : String) :
    (kind, typeId)∈(Trace.exec step Dict.empty history).keys ↔ Left history kind typeId := by
  induction history using List.reverseRecOn with
  | nil =>
    constructor
    · intro h
      cases h
    · rintro ⟨before, ev, after, he, _⟩
      simp at he
  | append_singleton history ev ih =>
    rw [Trace.exec_append, left_concat, ← ih]
    exact mem_keys_step _ ev kind typeId

end Seed

theorem mem_list {kind : Kind} {table : Table} {e : Entry} :
    e∈list kind table ↔ table.get (kind, e.typeId)=some e.body := by
  rw [list, List.mem_insertionSort, Dict.get_eq_some_iff]
  simp only [List.mem_map, List.mem_filter, decide_eq_true_eq, Prod.exists]
  constructor
  · rintro ⟨k, t, body, ⟨hm, rfl⟩, rfl⟩
    exact hm
  · intro h
    exact ⟨kind, e.typeId, e.body, ⟨h, rfl⟩, rfl⟩

/-- The byte order of the types is the order that Python sorts texts in. -/
theorem encode_lt_iff (s t : String) :
    Utf8.encode s.toList < Utf8.encode t.toList ↔ s < t := Utf8.encode_lt_iff

theorem list_strict (kind : Kind) (table : Table) :
    (list kind table).Pairwise fun a b => a.typeId < b.typeId := by
  refine (Sorting.strict_by (fun e : Entry => Utf8.encode e.typeId.toList) ?_).imp
    fun h => (encode_lt_iff _ _).mp h
  have hinj : ∀ p∈table.entries.filter (fun p => decide (p.1.1=kind)),
      ∀ q∈table.entries.filter (fun p => decide (p.1.1=kind)),
      Utf8.encode p.1.2.toList=Utf8.encode q.1.2.toList → p.1=q.1 := by
    intro p hp q hq he
    have htype : p.1.2=q.1.2 := by
      obtain hlt | heq | hlt := lt_trichotomy p.1.2 q.1.2
      · exact absurd he ((encode_lt_iff _ _).mpr hlt).ne
      · exact heq
      · exact absurd he ((encode_lt_iff _ _).mpr hlt).ne'
    exact Prod.ext ((of_decide_eq_true (List.mem_filter.mp hp).2).trans
      (of_decide_eq_true (List.mem_filter.mp hq).2).symm) htype
  rw [List.map_map]
  refine List.Nodup.map_on ?_ (table.nodup.of_map.filter _)
  intro p hp q hq he
  exact List.inj_on_of_nodup_map table.nodup (List.mem_filter.mp hp).1 (List.mem_filter.mp hq).1
    (hinj p hp q hq he)

section Current
variable {c : Chassis} {table : Table} {kind : Kind}

/-- A start that meets no fault leaves under a published type the last entry that was published
of it, and the other types as they were. -/
theorem get_seeded (typeId : String) :
    (seedCatalog {} c table).get (kind, typeId)=
      (((c.published kind).reverse.find? fun e => decide (e.typeId=typeId)).map Entry.body).or
        (table.get (kind, typeId)) := by
  have hfind : ∀ kind' : Kind, ((writtenBy {} c kind').reverse.find?
      fun p => decide (p.1=(kind, typeId))).map Prod.snd=
      if kind'=kind then
        ((c.published kind).reverse.find? fun e => decide (e.typeId=typeId)).map Entry.body
      else none := by
    intro kind'
    have hall : (c.published kind').filter (fun e => !({} : Faults).put kind' e.typeId)=
        c.published kind' := List.filter_eq_self.mpr fun _ _ => rfl
    rw [writtenBy, hall, ← List.map_reverse, List.find?_map, Option.map_map]
    split
    · next h =>
      subst h
      simp [Function.comp_def]
    · next h => simp [Function.comp_def, h]
  rw [seedCatalog_eq rfl, Dict.get_setAll_last, List.reverse_append, List.find?_append,
    Option.map_or, hfind, hfind]
  cases kind <;> simp

theorem find_ordered {es : List Entry} (h : es.Pairwise fun a b => a.typeId < b.typeId)
    (e : Entry) (he : e∈es) :
    es.reverse.find? (fun x => decide (x.typeId=e.typeId))=some e := by
  cases hf : es.reverse.find? fun x => decide (x.typeId=e.typeId) with
  | none =>
    have hno := List.find?_eq_none.mp hf e (List.mem_reverse.mpr he)
    simp at hno
  | some x =>
    have hx : x.typeId=e.typeId := by simpa using List.find?_some hf
    have hxm := List.mem_reverse.mp (List.mem_of_find?_eq_some hf)
    have hnodup : (es.map Entry.typeId).Nodup := by
      rw [List.Nodup, List.pairwise_map]
      exact h.imp fun hlt => ne_of_lt hlt
    rw [List.inj_on_of_nodup_map hnodup hxm he hx]

/-- The stored list is what the registries publish exactly when that is in order, type by type, and
no type is stored that they do not publish. -/
theorem list_current_iff : list kind (seedCatalog {} c table)=c.published kind ↔
    (c.published kind).Pairwise (fun a b => a.typeId < b.typeId) ∧
      ∀ typeId, (kind, typeId)∈table.keys → typeId∈(c.published kind).map Entry.typeId := by
  constructor
  · intro h
    refine ⟨h ▸ list_strict _ _, fun typeId hkey => ?_⟩
    cases hget : (seedCatalog {} c table).get (kind, typeId) with
    | none =>
      rw [get_seeded, Option.or_eq_none_iff] at hget
      exact absurd hkey (Dict.get_eq_none_iff.mp hget.2)
    | some body =>
      have hm : (⟨typeId, body⟩ : Entry)∈c.published kind := h ▸ mem_list.mpr hget
      exact List.mem_map.mpr ⟨_, hm, rfl⟩
  · rintro ⟨hordered, hstale⟩
    refine Sorting.strict_ext (f := Entry.typeId) (list_strict _ _) hordered fun e => ?_
    rw [mem_list, get_seeded]
    constructor
    · intro h
      cases hf : (c.published kind).reverse.find? fun x => decide (x.typeId=e.typeId) with
      | some x =>
        rw [hf] at h
        have hx : x.typeId=e.typeId := by simpa using List.find?_some hf
        have hbody : x.body=e.body := Option.some.inj h
        have hxe : x=e := by
          cases x
          cases e
          cases hx
          cases hbody
          rfl
        exact hxe ▸ List.mem_reverse.mp (List.mem_of_find?_eq_some hf)
      | none =>
        rw [hf, Option.map_none, Option.none_or] at h
        have hkey : (kind, e.typeId)∈table.keys := by
          by_contra hno
          rw [Dict.get_eq_none_iff.mpr hno] at h
          cases h
        obtain ⟨x, hx, hid⟩ := List.mem_map.mp (hstale e.typeId hkey)
        have hno := List.find?_eq_none.mp hf x (List.mem_reverse.mpr hx)
        exact absurd hid (by simpa using hno)
    · intro h
      rw [find_ordered hordered e h]
      rfl

end Current

/-- Over every history of starts, with any packs and any faults, and of entries put and deleted:
after a further start that meets no fault, `GET /v2/catalog` gives the same from the table as from
the live registries exactly when these publish their entries type by type in order, and publish
every type that the history has left in the table. One answer of a query holds a kind. -/
theorem catalog_current_iff (history : List Event) (release : Chassis)
    (eps : List (Option Pack)) :
    let c := (discoverPacks release eps).1
    let table := Trace.exec step Dict.empty (history++[.start release eps {}])
    getCatalog false c table=getCatalog true c table ↔
      ∀ kind, (c.published kind).Pairwise (fun a b => a.typeId < b.typeId) ∧
        ∀ typeId, Left history kind typeId → typeId∈(c.published kind).map Entry.typeId := by
  intro c table
  have htable : table=seedCatalog {} c (Trace.exec step Dict.empty history) := by
    simp only [table, Trace.exec_append, Trace.exec, step]
    rfl
  simp only [← mem_keys_exec, ← list_current_iff, ← htable]
  simp only [getCatalog, Bool.false_eq_true, if_false, if_true, Listing.mk.injEq]
  constructor
  · rintro ⟨hs, hc⟩ kind
    cases kind with
    | service => exact hs
    | connector => exact hc
  · exact fun h => ⟨h .service, h .connector⟩

end Sovereign.Catalog
