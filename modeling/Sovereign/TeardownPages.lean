import Sovereign.AppliedConfig

/-! A teardown that deletes while it lists: page after page of an instance's keys, whatever the
pages, and what is left of its objects and of the others'. -/
namespace Sovereign.Teardown
open Sovereign Renderers Executors AppliedConfig

section Pages
variable (s : RenderSettings) (b : Backend) (instanceId : String)

def listedAfter (w : World) (after : Option String) : List String :=
  (listKeys s instanceId w).filter fun key => after.all fun a => decide (a < key)

/-- Pages of these sizes, each deleted before the next one is fetched; the last key listed stays
the place where the listing goes on. -/
def deletePages : List Nat → Option String → Deletion → Option String × Deletion
  | [], after, d => (after, d)
  | size::sizes, after, d =>
    let page := (listedAfter s instanceId d.world after).take size
    deletePages sizes (page.getLast?.or after) (deleteKeys s b d page)

end Pages

/-- `EnvoyRenderer.teardown` page by page. The last page holds the rest, or fetching it raises. -/
def pagedTeardown (s : RenderSettings) (b : Backend) (sizes : List Nat) (fault : Option String)
    (inst : ServiceInstance) (w : World) : TeardownResult × World :=
  let (after, d) := deletePages s b inst.instanceId sizes none { world := w }
  match fault with
  | none =>
    let d := deleteKeys s b d (listedAfter s inst.instanceId d.world after)
    ({ ok := d.failed.isEmpty, removed := d.removed, failed := d.failed }, d.world)
  | some e => ({ ok := false, removed := d.removed, failed := d.failed, detail := e }, d.world)

section Deletions
variable {s : RenderSettings} {b : Backend}

theorem deleteKeys_append (keys keys' : List String) (d : Deletion) :
    deleteKeys s b d (keys++keys')=deleteKeys s b (deleteKeys s b d keys) keys' := by
  induction keys generalizing d with
  | nil => rfl
  | cons key keys ih =>
    simp only [List.cons_append, deleteKeys]
    split
    · exact ih _
    · exact ih _

/-- The failures are the faults of the keys that have one. -/
theorem failures_eq (fault : String → Option String) (keys : List String) :
    (keys.filterMap fun key => (fault key).map fun e => key ++ ": " ++ e)=
      (keys.filter fun key => ! (fault key).isNone).map fun key =>
        key ++ ": " ++ (fault key).getD "" := by
  induction keys with
  | nil => rfl
  | cons key keys ih =>
    cases hf : fault key with
    | none => simpa [hf] using ih
    | some e => simpa [hf] using ih

end Deletions

section Listing
variable {s : RenderSettings} {b : Backend} {instanceId : String} {w w' : World}

theorem listKeys_strict (w : World) : (listKeys s instanceId w).Pairwise fun a b => a < b :=
  Text.sortedSet_strict _

/-- Behind the first keys of a listing stand the others. -/
theorem filter_behind {keys rest : List String} {a : String}
    (h : (keys++[a]++rest).Pairwise fun a b => a < b) :
    (keys++[a]++rest).filter (fun key => decide (a < key))=rest := by
  obtain ⟨hpre, hrest, hlt⟩ := List.pairwise_append.mp h
  obtain ⟨_, _, hlast⟩ := List.pairwise_append.mp hpre
  have hnone : (keys++[a]).filter (fun key => decide (a < key))=[] := by
    rw [List.filter_eq_nil_iff]
    intro key hk
    rw [decide_eq_true_eq]
    obtain hk | hk := List.mem_append.mp hk
    · exact String.lt_asymm (hlast key hk a List.mem_cons_self)
    · rw [List.mem_singleton.mp hk]
      exact String.lt_irrefl a
  have hall : rest.filter (fun key => decide (a < key))=rest := by
    rw [List.filter_eq_self]
    intro key hk
    exact decide_eq_true (hlt a (List.mem_append_right _ List.mem_cons_self) key hk)
  rw [List.filter_append, hnone, hall, List.nil_append]

/-- Deleting the first keys of the listing leaves the rest of it to list. -/
theorem listedAfter_deleteKeys {keys rest : List String}
    (hkeys : listKeys s instanceId w=keys++rest) :
    listedAfter s instanceId (deleteKeys s b { world := w } keys).world keys.getLast?=rest := by
  obtain rfl | ⟨init, a, rfl⟩ := keys.eq_nil_or_concat'
  · simpa [listedAfter, deleteKeys] using hkeys
  have hstrict : (listKeys s instanceId w).Pairwise fun a b => a < b := listKeys_strict w
  rw [hkeys] at hstrict
  have hnot : ∀ key, a < key → key∉init++[a] := by
    intro key hlt hm
    obtain ⟨hpre, _, _⟩ := List.pairwise_append.mp hstrict
    obtain ⟨_, _, hlast⟩ := List.pairwise_append.mp hpre
    obtain hk | hk := List.mem_append.mp hm
    · exact String.lt_asymm hlt (hlast key hk a List.mem_cons_self)
    · exact String.lt_irrefl a (List.mem_singleton.mp hk ▸ hlt)
  rw [listedAfter, List.getLast?_concat, ← filter_behind hstrict]
  refine Text.strict_ext ((listKeys_strict _).filter _) (hstrict.filter _) ?_
  intro key
  rw [← hkeys, List.mem_filter, List.mem_filter, mem_listKeys_iff, mem_listKeys_iff,
    deleteKeys_objects]
  -- an object behind the last key was not among the deleted ones
  constructor
  · intro h
    obtain ⟨⟨⟨o, ho, hob⟩, hp⟩, hlt⟩ := h
    exact ⟨⟨⟨o, (List.mem_filter.mp ho).1, hob⟩, hp⟩, hlt⟩
  · intro h
    obtain ⟨⟨⟨o, ho, hb, hk⟩, hp⟩, hlt⟩ := h
    refine ⟨⟨⟨o, List.mem_filter.mpr ⟨ho, decide_eq_true ?_⟩, hb, hk⟩, hp⟩, hlt⟩
    intro hdel
    exact hnot key (of_decide_eq_true hlt) (hk ▸ hdel.2.1)

/-- The pages fetched so far are the first keys of the listing. -/
theorem deletePages_eq (sizes : List Nat) {keys rest : List String}
    (hkeys : listKeys s instanceId w=keys++rest) :
    ∃ keys' rest', listKeys s instanceId w=keys'++rest' ∧
      deletePages s b instanceId sizes keys.getLast? (deleteKeys s b { world := w } keys)=
        (keys'.getLast?, deleteKeys s b { world := w } keys') := by
  induction sizes generalizing keys rest with
  | nil => exact ⟨keys, rest, hkeys, rfl⟩
  | cons size sizes ih =>
    have hnext : listKeys s instanceId w=(keys++rest.take size)++rest.drop size := by
      rw [List.append_assoc, List.take_append_drop, hkeys]
    obtain ⟨keys', rest', hsplit, hpages⟩ := ih hnext
    refine ⟨keys', rest', hsplit, ?_⟩
    rw [← hpages, deletePages]
    simp only [listedAfter_deleteKeys hkeys, deleteKeys_append, List.getLast?_append]

end Listing

theorem keyFor_inj {i j : String} {v u : Int} {f g : String} (hi : '/'∉i.toList)
    (hj : '/'∉j.toList) (h : keyFor i v f=keyFor j u g) : i=j ∧ v=u ∧ f=g := by
  have hslash : ∀ n : Int, '/'∉(toString n).toList := by
    intro n hm
    obtain he | hd := Text.mem_toString_int hm
    · exact absurd he (by decide)
    · exact absurd hd (by decide)
  have hl := congrArg String.toList h
  simp only [keyFor, String.toList_append, List.append_assoc, List.append_cancel_left_eq] at hl
  have hij : i=j := String.toList_inj.mp <| eq_of_prefix_sep hi hj
    ⟨"v".toList ++ ((toString v).toList ++ ("/".toList ++ f.toList)), by
      rw [List.append_assoc]
      exact hl⟩
  subst hij
  have hrest := List.append_cancel_left (List.append_cancel_left hl)
  have hvu : v=u := Text.toString_int_inj <| String.toList_inj.mp <|
    eq_of_prefix_sep (hslash v) (hslash u) ⟨f.toList, by
      rw [List.append_assoc]
      exact hrest⟩
  subst hvu
  exact ⟨rfl, rfl, String.toList_inj.mp
    (List.append_cancel_left (List.append_cancel_left hrest))⟩

def Under (s : RenderSettings) (instanceId : String) (o : S3Object) : Prop :=
  o.bucket=s.configBucket ∧ (instancePrefix instanceId).toList <+: o.key.toList

theorem under_keyFor (s : RenderSettings) (i : String) (v : Int) (f : String) {o : S3Object}
    (hb : o.bucket=s.configBucket) (hk : o.key=keyFor i v f) : Under s i o := by
  refine ⟨hb, ⟨("v" ++ toString v ++ "/" ++ f).toList, ?_⟩⟩
  rw [hk]
  simp only [instancePrefix, keyFor, String.toList_append, List.append_assoc]
  rfl

theorem Under.inj {s : RenderSettings} {i j : String} {o : S3Object} (hi : '/'∉i.toList)
    (hj : '/'∉j.toList) (hoi : Under s i o) (hoj : Under s j o) : i=j := by
  obtain ⟨_, ri, hri⟩ := hoi
  obtain ⟨_, rj, hrj⟩ := hoj
  rw [← hrj] at hri
  simp only [instancePrefix, String.toList_append, List.append_assoc,
    List.append_cancel_left_eq] at hri
  have hp : i.toList++['/'] <+: j.toList++ '/' ::rj := ⟨ri, by
    rw [List.append_assoc]
    exact hri⟩
  exact String.toList_inj.mp (eq_of_prefix_sep hi hj hp)

section Isolation
variable {s : RenderSettings} {b : Backend} {inst : ServiceInstance} {w : World}

variable (s b inst w) in
/-- Page by page or at once: the keys reached are deleted in the order of the listing. -/
theorem pagedTeardown_eq (sizes : List Nat) (fault : Option String) :
    ∃ keys rest, listKeys s inst.instanceId w=keys++rest ∧ (fault=none → rest=[]) ∧
      pagedTeardown s b sizes fault inst w=
        ({ ok := fault.isNone && (deleteKeys s b { world := w } keys).failed.isEmpty
           removed := (deleteKeys s b { world := w } keys).removed
           failed := (deleteKeys s b { world := w } keys).failed
           detail := fault.getD "" }, (deleteKeys s b { world := w } keys).world) := by
  obtain ⟨keys, rest, hkeys, hpages⟩ := deletePages_eq (b := b) sizes
    (List.nil_append (listKeys s inst.instanceId w)).symm
  have hstart : deletePages s b inst.instanceId sizes none { world := w }=
      (keys.getLast?, deleteKeys s b { world := w } keys) := hpages
  cases fault with
  | some e =>
    refine ⟨keys, rest, hkeys, by simp, ?_⟩
    simp only [pagedTeardown, hstart, Option.isNone_some, Bool.false_and, Option.getD_some]
  | none =>
    refine ⟨keys++rest, [], by rw [hkeys, List.append_nil], fun _ => rfl, ?_⟩
    simp only [pagedTeardown, hstart, listedAfter_deleteKeys hkeys, ← deleteKeys_append]
    simp only [Option.isNone_none, Bool.true_and, Option.getD_none]

/-- With no fault in the listing the pages make no difference. -/
theorem pagedTeardown_flat (hlist : b.listFault=none) (sizes : List Nat) :
    pagedTeardown s b sizes none inst w=envoyTeardown s b inst w := by
  obtain ⟨keys, rest, hkeys, hrest, heq⟩ := pagedTeardown_eq s b inst w sizes none
  rw [hrest rfl, List.append_nil] at hkeys
  rw [heq, envoyTeardown, hlist, hkeys]
  simp only [Option.isNone_none, Bool.true_and, Option.getD_none]

/-- An object goes exactly when it is stored under a key that was reached and could be
deleted. -/
theorem mem_deleteKeys {keys : List String} {o : S3Object} :
    o∈(deleteKeys s b { world := w } keys).world.objects ↔ o∈w.objects ∧
      ¬ (o.bucket=s.configBucket ∧ o.key∈keys ∧ b.deleteFault s.configBucket o.key=none) := by
  rw [deleteKeys_objects, List.mem_filter, decide_eq_true_iff]

theorem isPrefixOf_of_mem {key : String} (h : key∈listKeys s inst.instanceId w) :
    (instancePrefix inst.instanceId).toList <+: key.toList :=
  List.isPrefixOf_iff_prefix.mp (mem_listKeys_iff.mp h).2

/-- The keys reported are the ones that were deleted. -/
theorem mem_removed_iff {keys rest : List String}
    (hkeys : listKeys s inst.instanceId w=keys++rest) (key : String) :
    key∈(deleteKeys s b { world := w } keys).removed ↔
      w.Live (.object s.configBucket key) ∧
        ¬ (deleteKeys s b { world := w } keys).world.Live (.object s.configBucket key) := by
  rw [(deleteKeys_parts keys _).1, List.nil_append, List.mem_filter, Option.isNone_iff_eq_none]
  constructor
  · intro h
    obtain ⟨hk, hf⟩ := h
    have hlisted : key∈listKeys s inst.instanceId w := hkeys ▸ List.mem_append_left rest hk
    refine ⟨(mem_listKeys_iff.mp hlisted).1, ?_⟩
    intro hlive
    obtain ⟨o, ho, hb, rfl⟩ := hlive
    exact (mem_deleteKeys.mp ho).2 ⟨hb, hk, hf⟩
  · intro h
    obtain ⟨⟨o, ho, hb, rfl⟩, hgone⟩ := h
    by_contra hkept
    refine hgone ⟨o, mem_deleteKeys.mpr ⟨ho, ?_⟩, hb, rfl⟩
    intro hdel
    exact hkept hdel.2

theorem listed_frame {keys rest : List String}
    (hkeys : listKeys s inst.instanceId w=keys++rest) {o : S3Object}
    (ho : ¬ Under s inst.instanceId o) :
    o∈(deleteKeys s b { world := w } keys).world.objects ↔ o∈w.objects := by
  rw [mem_deleteKeys]
  refine and_iff_left_of_imp fun _ hdel => ho ⟨hdel.1, ?_⟩
  exact isPrefixOf_of_mem (hkeys ▸ List.mem_append_left rest hdel.2.1)

theorem listed_gone {keys : List String} (hkeys : listKeys s inst.instanceId w=keys)
    (hnone : ∀ key, b.deleteFault s.configBucket key=none) (version : Int) (filename : String) :
    ¬ (deleteKeys s b { world := w } keys).world.Live
      (.object s.configBucket (keyFor inst.instanceId version filename)) := by
  intro hlive
  obtain ⟨o, ho, hb, hk⟩ := hlive
  obtain ⟨hin, hkept⟩ := mem_deleteKeys.mp ho
  refine hkept ⟨hb, ?_, hnone _⟩
  have hunder := under_keyFor s inst.instanceId version filename hb hk
  rw [← hkeys]
  exact mem_listKeys hin hb (List.isPrefixOf_iff_prefix.mpr hunder.2)

theorem live_of_failed {keys rest : List String}
    (hkeys : listKeys s inst.instanceId w=keys++rest) {key : String} (hk : key∈keys)
    (hf : b.deleteFault s.configBucket key≠none) :
    (deleteKeys s b { world := w } keys).world.Live (.object s.configBucket key) := by
  have hlisted : key∈listKeys s inst.instanceId w := hkeys ▸ List.mem_append_left rest hk
  obtain ⟨o, ho, hb, rfl⟩ := (mem_listKeys_iff.mp hlisted).1
  exact ⟨o, mem_deleteKeys.mpr ⟨ho, fun hdel => hf hdel.2.2⟩, hb, rfl⟩

/-- A teardown takes exactly the instance's objects, page by page, and says which. -/
theorem teardown_isolates (s : RenderSettings) (b : Backend) (sizes : List Nat)
    (fault : Option String) (inst : ServiceInstance) (w : World)
    (hid : '/'∉inst.instanceId.toList) :
    let (r, w') := pagedTeardown s b sizes fault inst w
    (fault=none → (∀ key, b.deleteFault s.configBucket key=none) →
      r.ok=true ∧ ∀ version filename,
        ¬ w'.Live (.object s.configBucket (keyFor inst.instanceId version filename))) ∧
    (r.removed.Nodup ∧ ∀ key, key∈r.removed ↔
      w.Live (.object s.configBucket key) ∧ ¬ w'.Live (.object s.configBucket key)) ∧
    (fault=none → (r.ok=true ↔ r.failed=[]) ∧
      ∃ kept, (r.removed++kept).Perm (listKeys s inst.instanceId w) ∧
        (∀ key∈kept, w'.Live (.object s.configBucket key)) ∧
        r.failed=kept.map fun key =>
          key ++ ": " ++ (b.deleteFault s.configBucket key).getD "") ∧
    (∀ o, ¬ Under s inst.instanceId o → (o∈w'.objects ↔ o∈w.objects)) ∧
    (∀ j, '/'∉j.toList → inst.instanceId≠j →
      ∀ o, Under s j o → (o∈w'.objects ↔ o∈w.objects)) ∧
    ∀ i j v u f g, '/'∉i.toList → '/'∉j.toList → keyFor i v f=keyFor j u g →
      i=j ∧ v=u ∧ f=g := by
  obtain ⟨keys, rest, hkeys, hrest, heq⟩ := pagedTeardown_eq s b inst w sizes fault
  rw [heq]
  have hstrict : (keys++rest).Nodup := by
    rw [← hkeys]
    exact Text.nodup_sortedSet _
  obtain ⟨hremoved, hfailed⟩ := deleteKeys_parts (s := s) (b := b) keys { world := w }
  rw [List.nil_append] at hremoved hfailed
  refine ⟨?_, ⟨?_, mem_removed_iff hkeys⟩, ?_, fun o ho => listed_frame hkeys ho, ?_, ?_⟩
  · intro hfault hnone
    rw [hrest hfault, List.append_nil] at hkeys
    have hnofail : (deleteKeys s b { world := w } keys).failed=[] := by
      rw [hfailed, List.filterMap_eq_nil_iff]
      intro key _
      rw [hnone key]
      rfl
    exact ⟨by rw [hfault, hnofail]; rfl, listed_gone hkeys hnone⟩
  · rw [hremoved]
    exact (List.nodup_append.mp hstrict).1.filter _
  · intro hfault
    refine ⟨by rw [hfault]; simp, keys.filter fun key =>
      ! (b.deleteFault s.configBucket key).isNone, ?_, ?_, ?_⟩
    · rw [hkeys, hrest hfault, List.append_nil, hremoved]
      exact List.filter_append_perm _ keys
    · intro key hk
      obtain ⟨hk, hf⟩ := List.mem_filter.mp hk
      refine live_of_failed hkeys hk fun hnone => ?_
      simp [hnone] at hf
    · rw [hfailed]
      exact failures_eq _ keys
  · intro j hj hne o ho
    exact listed_frame hkeys fun hi => hne (hi.inj hid hj ho)
  · intro i j v u f g hi hj h
    exact keyFor_inj hi hj h

def twoInstances : World := { emptyWorld with objects :=
  [⟨"sovereign-configs", keyFor "lb-1" 1 "envoy.yaml", []⟩,
   ⟨"sovereign-configs", keyFor "lb-10" 1 "envoy.yaml", []⟩] }

theorem teardown_isolates_twoInstances :
    let (r, w') :=
      pagedTeardown {} ControlPlane.samplePlane.backend [0, 1] none creating twoInstances
    r.ok=true ∧ ¬ w'.Live (.object "sovereign-configs" (keyFor "lb-1" 1 "envoy.yaml")) ∧
      w'.Live (.object "sovereign-configs" (keyFor "lb-10" 1 "envoy.yaml")) := by
  obtain ⟨hgone, _, _, _, hother, _⟩ := teardown_isolates {}
    ControlPlane.samplePlane.backend [0, 1] none creating twoInstances (by decide)
  obtain ⟨hok, hnone⟩ := hgone rfl fun _ => rfl
  refine ⟨hok, hnone 1 "envoy.yaml", ⟨_, (hother "lb-10" (by decide) (by decide) _
    (under_keyFor {} "lb-10" 1 "envoy.yaml" rfl rfl)).mpr (List.mem_cons_of_mem _
    List.mem_cons_self), rfl, rfl⟩⟩

end Isolation
end Sovereign.Teardown
