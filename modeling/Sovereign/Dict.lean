import Mathlib.Algebra.BigOperators.Group.List.Basic
import Mathlib.Data.List.Dedup
import Mathlib.Data.List.Nodup
import Mathlib.Data.List.Perm.Basic

/-! Dictionaries that keep the order in which their keys came: a key is overwritten where it
stands. Two of them say the same if every lookup does. -/
namespace Sovereign

structure Dict (κ α : Type*) where
  entries : List (κ × α)
  nodup : (entries.map Prod.fst).Nodup
deriving DecidableEq

namespace Dict
variable {κ α : Type*} [DecidableEq κ]

def empty : Dict κ α := ⟨[], List.nodup_nil⟩

def keys (d : Dict κ α) : List κ := d.entries.map Prod.fst

def getIn (k : κ) : List (κ × α) → Option α
  | [] => none
  | (j,w)::rest => if j=k then some w else getIn k rest

def get (d : Dict κ α) (k : κ) : Option α := getIn k d.entries

def setIn (k : κ) (v : α) : List (κ × α) → List (κ × α)
  | [] => [(k,v)]
  | (j,w)::rest => if j=k then (k,v)::rest else (j,w)::setIn k v rest

omit [DecidableEq κ] in
theorem ext {d e : Dict κ α} (h : d.entries=e.entries) : d=e := by
  cases d
  cases e
  cases h
  rfl

theorem keys_setIn (k : κ) (v : α) (l : List (κ × α)) :
    (setIn k v l).map Prod.fst=
      if k∈l.map Prod.fst then l.map Prod.fst else l.map Prod.fst++[k] := by
  induction l with
  | nil => rfl
  | cons p l ih =>
    obtain ⟨j,w⟩ := p
    by_cases h : j=k
    · simp [setIn, h]
    · have hk : ¬ k=j := fun he => h he.symm
      simp only [setIn, if_neg h, List.map_cons, ih, List.mem_cons, hk, false_or]
      split <;> rfl

theorem nodup_setIn {k : κ} {v : α} {l : List (κ × α)} (h : (l.map Prod.fst).Nodup) :
    ((setIn k v l).map Prod.fst).Nodup := by
  rw [keys_setIn]
  split
  · exact h
  · next hk =>
    refine List.nodup_append.mpr ⟨h, List.nodup_singleton k, ?_⟩
    intro j hj k' hk' he
    exact hk (List.mem_singleton.mp hk' ▸ he ▸ hj)

def set (d : Dict κ α) (k : κ) (v : α) : Dict κ α := ⟨setIn k v d.entries, nodup_setIn d.nodup⟩

def erase (d : Dict κ α) (k : κ) : Dict κ α where
  entries := d.entries.filter fun p => decide (p.1≠k)
  nodup := d.nodup.sublist (List.filter_sublist.map Prod.fst)

def setAll (d : Dict κ α) (l : List (κ × α)) : Dict κ α := l.foldl (fun d p => d.set p.1 p.2) d

def ofList (l : List (κ × α)) : Dict κ α := setAll empty l

def Same (d e : Dict κ α) : Prop := ∀ k, d.get k=e.get k

@[simp] theorem get_empty (k : κ) : (empty : Dict κ α).get k=none := rfl

theorem getIn_setIn (k : κ) (v : α) (l : List (κ × α)) (j : κ) :
    getIn j (setIn k v l)=if j=k then some v else getIn j l := by
  induction l with
  | nil => simp [setIn, getIn, eq_comm]
  | cons p l ih =>
    obtain ⟨i,w⟩ := p
    by_cases hi : i=k
    · subst hi
      by_cases hj : j=i
      · simp [setIn, getIn, hj]
      · have hij : ¬ i=j := fun he => hj he.symm
        simp [setIn, getIn, hj, hij]
    · by_cases hij : i=j
      · have hj : ¬ j=k := fun he => hi (hij.trans he)
        simp [setIn, getIn, hij, hj]
      · simp [setIn, getIn, hi, hij, ih]

theorem get_set (d : Dict κ α) (k : κ) (v : α) (j : κ) :
    (d.set k v).get j=if j=k then some v else d.get j := getIn_setIn k v d.entries j

@[simp] theorem get_set_self (d : Dict κ α) (k : κ) (v : α) : (d.set k v).get k=some v := by
  rw [get_set, if_pos rfl]

theorem getIn_eq_some_iff {l : List (κ × α)} (h : (l.map Prod.fst).Nodup) {k : κ} {v : α} :
    getIn k l=some v ↔ (k,v)∈l := by
  induction l with
  | nil => simp [getIn]
  | cons p l ih =>
    obtain ⟨j,w⟩ := p
    obtain ⟨hj, hl⟩ := List.nodup_cons.mp h
    by_cases he : j=k
    · subst he
      simp only [getIn, if_true, Option.some.injEq, List.mem_cons, Prod.mk.injEq, true_and]
      constructor
      · exact fun hv => Or.inl hv.symm
      · intro hm
        obtain hv | hm := hm
        · exact hv.symm
        · exact absurd (List.mem_map_of_mem (f := Prod.fst) hm) hj
    · have hk : ¬ k=j := fun h => he h.symm
      simp [getIn, he, hk, ih hl]

theorem get_eq_some_iff {d : Dict κ α} {k : κ} {v : α} : d.get k=some v ↔ (k,v)∈d.entries :=
  getIn_eq_some_iff d.nodup

theorem get_eq_none_iff {d : Dict κ α} {k : κ} : d.get k=none ↔ k∉d.keys := by
  constructor
  · intro h hk
    obtain ⟨p, hp, rfl⟩ := List.mem_map.mp hk
    have hs := get_eq_some_iff.mpr hp
    rw [h] at hs
    cases hs
  · intro h
    cases hg : d.get k with
    | none => rfl
    | some v => exact absurd (List.mem_map_of_mem (f := Prod.fst) (get_eq_some_iff.mp hg)) h

theorem get_erase (d : Dict κ α) (k j : κ) :
    (d.erase k).get j=if j=k then none else d.get j := by
  have hmem (v : α) : (d.erase k).get j=some v ↔ j≠k ∧ d.get j=some v := by
    rw [get_eq_some_iff, get_eq_some_iff]
    simp [erase, and_comm]
  ext v
  rw [hmem]
  by_cases h : j=k
  · simp [h]
  · simp [h]

theorem mem_keys_set {d : Dict κ α} {k j : κ} {v : α} : j∈(d.set k v).keys ↔ j=k ∨ j∈d.keys := by
  rw [keys, set, keys_setIn]
  split
  · next hk =>
    constructor
    · exact Or.inr
    · intro h
      obtain rfl | h := h
      · exact hk
      · exact h
  · rw [List.mem_append, List.mem_singleton, or_comm]
    rfl

/-! Writes that change nothing, or one key alone. -/

/-- Writing what is there leaves everything in its place. -/
theorem set_of_get {d : Dict κ α} {k : κ} {v : α} (h : d.get k=some v) : d.set k v=d := by
  obtain ⟨l, hl⟩ := d
  refine ext ?_
  have hg : getIn k l=some v := h
  change setIn k v l=l
  clear h hl
  induction l with
  | nil => cases hg
  | cons p l ih =>
    obtain ⟨j,w⟩ := p
    by_cases he : j=k
    · rw [getIn, if_pos he] at hg
      rw [setIn, if_pos he, he, Option.some.inj hg]
    · rw [getIn, if_neg he] at hg
      rw [setIn, if_neg he, ih hg]

theorem erase_set (d : Dict κ α) (k : κ) (v : α) : (d.set k v).erase k=d.erase k := by
  obtain ⟨l, hl⟩ := d
  refine ext ?_
  change (setIn k v l).filter (fun p => decide (p.1≠k))=l.filter fun p => decide (p.1≠k)
  clear hl
  induction l with
  | nil => simp [setIn]
  | cons p l ih =>
    obtain ⟨j,w⟩ := p
    by_cases he : j=k
    · simp [setIn, he]
    · rw [setIn, if_neg he, List.filter_cons_of_pos (by simpa using he), ih,
        List.filter_cons_of_pos (by simpa using he)]

theorem erase_set_of_ne (d : Dict κ α) {k j : κ} (v : α) (h : j≠k) :
    (d.set k v).erase j=(d.erase j).set k v := by
  obtain ⟨l, hl⟩ := d
  refine ext ?_
  change (setIn k v l).filter (fun p => decide (p.1≠j))=
    setIn k v (l.filter fun p => decide (p.1≠j))
  clear hl
  induction l with
  | nil => simp [setIn, h.symm]
  | cons p l ih =>
    obtain ⟨i,w⟩ := p
    by_cases hi : i=k
    · simp [setIn, hi, h.symm]
    · by_cases hij : i=j
      · rw [setIn, if_neg hi, List.filter_cons_of_neg (by simpa using hij), ih,
          List.filter_cons_of_neg (by simpa using hij)]
      · rw [setIn, if_neg hi, List.filter_cons_of_pos (by simpa using hij), ih,
          List.filter_cons_of_pos (by simpa using hij), setIn, if_neg hi]

theorem Same.refl (d : Dict κ α) : d.Same d := fun _ => rfl

theorem Same.set {d e : Dict κ α} {k : κ} (h : d.erase k=e.erase k) (v : α) :
    (d.set k v).Same (e.set k v) := by
  intro j
  rw [get_set, get_set]
  split
  · rfl
  · next hj =>
    have he := congrArg (fun d => d.get j) h
    simpa [get_erase, hj] using he

theorem Same.perm {d e : Dict κ α} (h : d.Same e) : d.entries.Perm e.entries := by
  have hmem (p : κ × α) : p∈d.entries ↔ p∈e.entries := by
    rw [← get_eq_some_iff, ← get_eq_some_iff, h]
  exact (List.perm_ext_iff_of_nodup d.nodup.of_map e.nodup.of_map).mpr hmem

theorem getIn_of_notMem {k : κ} {l : List (κ × α)} (h : k∉l.map Prod.fst) : getIn k l=none := by
  induction l with
  | nil => rfl
  | cons p l ih =>
    obtain ⟨j,w⟩ := p
    have hne : j≠k := fun he => h (he ▸ List.mem_cons_self)
    rw [getIn, if_neg hne, ih fun hk => h (List.mem_cons_of_mem _ hk)]

theorem mem_entries_set {d : Dict κ α} {k : κ} {v : α} {p : κ × α}
    (h : p∈(d.set k v).entries) : p=(k,v) ∨ p∈d.entries := by
  obtain ⟨j,w⟩ := p
  rw [← get_eq_some_iff, get_set] at h
  by_cases hj : j=k
  · rw [if_pos hj, Option.some.injEq] at h
    exact Or.inl (by rw [hj, h])
  · rw [if_neg hj] at h
    exact Or.inr (get_eq_some_iff.mp h)

theorem get_setAll (d : Dict κ α) {l : List (κ × α)} (h : (l.map Prod.fst).Nodup) (k : κ) :
    (setAll d l).get k=(getIn k l).or (d.get k) := by
  induction l generalizing d with
  | nil => rfl
  | cons p l ih =>
    obtain ⟨j,w⟩ := p
    obtain ⟨hj, hl⟩ := List.nodup_cons.mp h
    change (setAll (d.set j w) l).get k=_
    rw [ih (d.set j w) hl, get_set, getIn]
    by_cases hk : j=k
    · rw [if_pos hk, ← hk, getIn_of_notMem hj, if_pos rfl]
      rfl
    · rw [if_neg hk, if_neg fun he => hk he.symm]

omit [DecidableEq κ] in
theorem mem_fst {l : List (κ × α)} {k : κ} (h : k∉l.map Prod.fst) {p : κ × α} (hp : p∈l) :
    p.1≠k := fun he => h (he ▸ List.mem_map_of_mem hp)

theorem setIn_of_notMem {k : κ} (v : α) {l : List (κ × α)} (h : k∉l.map Prod.fst) :
    setIn k v l=l++[(k,v)] := by
  induction l with
  | nil => rfl
  | cons p l ih =>
    rw [setIn, if_neg (mem_fst h List.mem_cons_self),
      ih fun hk => h (List.mem_cons_of_mem _ hk), List.cons_append]

theorem entries_setAll (d : Dict κ α) {l : List (κ × α)}
    (h : ((d.entries++l).map Prod.fst).Nodup) : (setAll d l).entries=d.entries++l := by
  induction l generalizing d with
  | nil => simp [setAll]
  | cons p l ih =>
    obtain ⟨j,w⟩ := p
    have hnew : j∉d.entries.map Prod.fst := by
      intro hj
      rw [List.map_append, List.nodup_append] at h
      exact h.2.2 j hj j List.mem_cons_self rfl
    have hset : (d.set j w).entries=d.entries++[(j,w)] := setIn_of_notMem w hnew
    change (setAll (d.set j w) l).entries=_
    rw [ih (d.set j w) (by rw [hset, List.append_assoc]; exact h), hset, List.append_assoc]
    rfl

theorem getIn_of_perm {l l' : List (κ × α)} (hp : l.Perm l') (h : (l.map Prod.fst).Nodup) (k : κ) :
    getIn k l=getIn k l' := by
  ext v
  rw [getIn_eq_some_iff h, getIn_eq_some_iff ((hp.map Prod.fst).nodup_iff.mp h), hp.mem_iff]

theorem entries_ofList {l : List (κ × α)} (h : (l.map Prod.fst).Nodup) :
    (ofList l).entries=l := entries_setAll empty h

theorem mem_keys_setAll {d : Dict κ α} {l : List (κ × α)} {k : κ} :
    k∈(setAll d l).keys ↔ k∈l.map Prod.fst ∨ k∈d.keys := by
  induction l generalizing d with
  | nil => simp [setAll]
  | cons p l ih =>
    change k∈(setAll (d.set p.1 p.2) l).keys ↔ _
    rw [ih, mem_keys_set, List.map_cons, List.mem_cons]
    tauto

/-- No more keys than pairs, and as many only if none comes twice. -/
theorem nodup_of_length_ofList {l : List (κ × α)} (h : (ofList l).entries.length=l.length) :
    (l.map Prod.fst).Nodup := by
  have hperm : (ofList l).keys.Perm (l.map Prod.fst).dedup := by
    refine (List.perm_ext_iff_of_nodup (ofList l).nodup (List.nodup_dedup _)).mpr ?_
    intro k
    change k∈(setAll empty l).keys ↔ _
    rw [mem_keys_setAll, List.mem_dedup]
    simp [keys, empty]
  have hlen : (l.map Prod.fst).dedup.length=(l.map Prod.fst).length := by
    rw [← hperm.length_eq, keys, List.length_map, List.length_map, h]
  rw [← (List.dedup_sublist _).eq_of_length hlen]
  exact List.nodup_dedup _

/-- Of several pairs the last one at a key stays. -/
theorem get_setAll_last (d : Dict κ α) (l : List (κ × α)) (k : κ) :
    (setAll d l).get k=((l.reverse.find? fun p => decide (p.1=k)).map Prod.snd).or (d.get k) := by
  induction l generalizing d with
  | nil => rfl
  | cons p l ih =>
    change (setAll (d.set p.1 p.2) l).get k=_
    rw [ih, get_set, List.reverse_cons, List.find?_append]
    cases l.reverse.find? (fun p => decide (p.1=k)) with
    | some q => rfl
    | none =>
      by_cases hk : p.1=k
      · simp [hk]
      · have hk' : k≠p.1 := fun h => hk h.symm
        simp [hk, hk']

/-- The keys in their order and what is under them are all of a dictionary. -/
theorem ext_keys {d e : Dict κ α} (hkeys : d.keys=e.keys) (h : d.Same e) : d=e := by
  have hentries : ∀ d : Dict κ α, d.entries.map Prod.snd=d.keys.filterMap d.get := by
    intro d
    rw [keys, List.filterMap_map]
    have hget : ∀ p∈d.entries, (d.get ∘ Prod.fst) p=some p.2 := fun p hp => get_eq_some_iff.mpr hp
    rw [List.filterMap_congr hget, ← List.filterMap_eq_map]
    rfl
  refine ext (List.ext_getElem ?_ ?_)
  · simpa [keys] using congrArg List.length hkeys
  · have hvalues : d.entries.map Prod.snd=e.entries.map Prod.snd := by
      rw [hentries, hentries, hkeys]
      exact List.filterMap_congr fun k _ => h k
    intro i hd he
    have hfst := List.getElem_of_eq hkeys (by simpa [keys] using hd)
    have hsnd := List.getElem_of_eq hvalues (by simpa using hd)
    simp only [keys, List.getElem_map] at hfst hsnd
    exact Prod.ext hfst hsnd

/-- Keys that are there keep their places. -/
theorem keys_setAll_of_mem {d : Dict κ α} {l : List (κ × α)} (h : ∀ p∈l, p.1∈d.keys) :
    (setAll d l).keys=d.keys := by
  induction l generalizing d with
  | nil => rfl
  | cons p l ih =>
    have hkeys : (d.set p.1 p.2).keys=d.keys := by
      rw [keys, set, keys_setIn]
      exact if_pos (h p List.mem_cons_self)
    change (setAll (d.set p.1 p.2) l).keys=_
    rw [ih fun q hq => hkeys ▸ h q (List.mem_cons_of_mem p hq), hkeys]

theorem setAll_again (d : Dict κ α) (l : List (κ × α)) : setAll (setAll d l) l=setAll d l := by
  have hmem : ∀ p∈l, p.1∈(setAll d l).keys := fun p hp =>
    mem_keys_setAll.mpr (Or.inl (List.mem_map_of_mem hp))
  refine ext_keys (keys_setAll_of_mem hmem) fun k => ?_
  rw [get_setAll_last, get_setAll_last, ← Option.or_assoc, Option.or_self]

section Update
variable {β : Type*} (key : β → κ) (init : α) (f : α → β → α)

def update (d : Dict κ α) (x : β) : Dict κ α := d.set (key x) (f ((d.get (key x)).getD init) x)

/-- Each key has folded what came under it. -/
theorem get_foldl_update (d : Dict κ α) (xs : List β) (k : κ) :
    (xs.foldl (update key init f) d).get k =
      if k∈xs.map key then
        some ((xs.filter fun x => decide (key x=k)).foldl f ((d.get k).getD init))
      else d.get k := by
  induction xs generalizing d with
  | nil => simp
  | cons x xs ih =>
    rw [List.foldl_cons, ih, update, get_set]
    by_cases hx : k=key x
    · subst hx
      by_cases hm : key x∈xs.map key
      · simp [hm]
      · have hnone : (xs.filter fun y => decide (key y=key x))=[] := by
          rw [List.filter_eq_nil_iff]
          intro y hy he
          exact hm (List.mem_map.mpr ⟨y, hy, of_decide_eq_true he⟩)
        have hin : key x∈(x::xs).map key := List.mem_cons_self
        rw [if_neg hm, if_pos rfl, if_pos hin, List.filter_cons_of_pos (by simp), hnone]
        rfl
    · have hx' : ¬ key x=k := fun h => hx h.symm
      rw [if_neg hx, List.map_cons, List.filter_cons_of_neg (by simpa using hx')]
      simp only [List.mem_cons, hx, false_or]

theorem get_foldl_update_empty (xs : List β) (k : κ) :
    (xs.foldl (update key init f) empty).get k =
      if k∈xs.map key then some ((xs.filter fun x => decide (key x=k)).foldl f init)
      else none := get_foldl_update key init f empty xs k

end Update

section Tally
variable {β M : Type*} [AddCommMonoid M] (key : β → κ) (weight : β → M)

def addTo (d : Dict κ M) (x : β) : Dict κ M :=
  d.set (key x) ((d.get (key x)).getD 0+weight x)

def tally (xs : List β) : Dict κ M := xs.foldl (addTo key weight) empty

theorem foldl_weight (xs : List β) (m : M) :
    xs.foldl (fun m x => m+weight x) m=m+(xs.map weight).sum := by
  induction xs generalizing m with
  | nil => simp
  | cons x xs ih => rw [List.foldl_cons, ih, List.map_cons, List.sum_cons, add_assoc]

theorem get_foldl_addTo (d : Dict κ M) (xs : List β) (k : κ) :
    (xs.foldl (addTo key weight) d).get k =
      if k∈xs.map key then
        some ((d.get k).getD 0+((xs.filter fun x => decide (key x=k)).map weight).sum)
      else d.get k := by
  rw [← foldl_weight]
  exact get_foldl_update key 0 (fun m x => m+weight x) d xs k

theorem get_tally (xs : List β) (k : κ) : (tally key weight xs).get k =
    if k∈xs.map key then some ((xs.filter fun x => decide (key x=k)).map weight).sum
    else none := by
  rw [tally, get_foldl_addTo]
  simp

end Tally

/-- What is summed key by key is everything. -/
theorem sum_by_key {β G : Type*} [AddCommGroup G] (key : β → κ) (weight : β → G) {ks : List κ}
    (hnodup : ks.Nodup) {xs : List β} (h : ∀ x∈xs, key x∈ks) :
    (ks.map fun k => ((xs.filter fun x => decide (key x=k)).map weight).sum).sum=
      (xs.map weight).sum := by
  induction xs with
  | nil => simp
  | cons x xs ih =>
    have hsplit : ∀ k, (((x::xs).filter fun x => decide (key x=k)).map weight).sum=
        (if k=key x then weight x else 0)+
          ((xs.filter fun x => decide (key x=k)).map weight).sum := by
      intro k
      by_cases hk : key x=k
      · simp [hk]
      · have hk' : k≠key x := fun he => hk he.symm
        simp [hk, hk']
    have hone : (ks.map fun k => if k=key x then weight x else 0).sum=weight x := by
      rw [List.sum_map_ite_eq ks (fun _ => weight x) (fun _ => 0) (key x),
        List.count_eq_one_of_mem hnodup (h x List.mem_cons_self), one_nsmul]
      simp
    calc
      (ks.map fun k => (((x::xs).filter fun x => decide (key x=k)).map weight).sum).sum=
          (ks.map fun k => if k=key x then weight x else 0).sum+
            (ks.map fun k => ((xs.filter fun x => decide (key x=k)).map weight).sum).sum := by
        simp only [hsplit, List.sum_map_add]
      _=weight x+(xs.map weight).sum := by
        rw [hone, ih fun y hy => h y (List.mem_cons_of_mem x hy)]
      _=((x::xs).map weight).sum := by rw [List.map_cons, List.sum_cons]

end Dict
end Sovereign
