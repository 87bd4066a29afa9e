import Sovereign.Policy

/-! `compose.rego`: the decision over any base set, pack layers and tenant layers. Layers only
restrict. -/
namespace Sovereign.Composition
open Sovereign Rego

structure Layer where
  deny : Option (List String) := none
  obligations : Option (List String) := none

def Layer.denies (l : Layer) : List String := l.deny.getD []

def Layer.obliges (l : Layer) : List String := l.obligations.getD []

structure Data where
  base : List String
  pack : List (String × Layer) := []
  tenant : List (String × Layer) := []

namespace Data
variable (d : Data)

def denies : List String :=
  d.base++d.pack.flatMap (fun p => p.2.denies)++d.tenant.flatMap (fun t => t.2.denies)

/-- `count` of a set that is not defined is not defined. -/
def labels (kind : String) (layers : List (String × Layer)) : List String :=
  (layers.filter fun l => l.2.deny.any fun set => decide (0 < set.length)).map fun l => kind++l.1

def matchedLayers : List String :=
  (if 0 < d.base.length then ["base"] else [])++labels "pack:" d.pack++labels "tenant:" d.tenant

def obligations : List String :=
  d.pack.flatMap (fun p => p.2.obliges)++d.tenant.flatMap (fun t => t.2.obliges)

def allow : Bool := decide (d.denies.length=0)

structure Decision where
  allow : Bool
  denies : List String
  matchedLayers : List String
  obligations : List String
deriving DecidableEq

def decision : Decision where
  allow := d.allow
  denies := Text.sortedSet d.denies
  matchedLayers := Text.sortedSet d.matchedLayers
  obligations := Text.sortedSet d.obligations

end Data

section Restrict
variable {d e : Data}

structure Lists (xs : List String) (P : String → Prop) : Prop where
  sorted : xs.Pairwise fun a b => a ≤ b
  nodup : xs.Nodup
  mem : ∀ x, x∈xs ↔ P x

theorem lists_sortedSet {xs : List String} {P : String → Prop} (h : ∀ x, x∈xs ↔ P x) :
    Lists (Text.sortedSet xs) P where
  sorted := Text.sortedSet_pairwise xs
  nodup := (List.mergeSort_perm _ _).nodup_iff.mpr xs.nodup_dedup
  mem := fun x => (Text.mem_sortedSet x xs).trans (h x)

/-- A label and its layer, the base layer among them. -/
inductive Data.Has (d : Data) : String → Layer → Prop where
  | base : Has d "base" { deny := some d.base }
  | pack (p : String × Layer) (h : p∈d.pack) : Has d ("pack:"++p.1) p.2
  | tenant (t : String × Layer) (h : t∈d.tenant) : Has d ("tenant:"++t.1) t.2

theorem mem_denies (x : String) :
    x∈d.denies ↔ ∃ label layer, d.Has label layer ∧ x∈layer.denies := by
  simp only [Data.denies, List.mem_append, List.mem_flatMap]
  constructor
  · intro h
    obtain (h | ⟨p, hp, hx⟩) | ⟨t, ht, hx⟩ := h
    · exact ⟨_, _, .base, h⟩
    · exact ⟨_, _, .pack p hp, hx⟩
    · exact ⟨_, _, .tenant t ht, hx⟩
  · intro h
    obtain ⟨label, layer, hl, hx⟩ := h
    cases hl with
    | base => exact .inl (.inl hx)
    | pack p hp => exact .inl (.inr ⟨p, hp, hx⟩)
    | tenant t ht => exact .inr ⟨t, ht, hx⟩

theorem mem_obligations (x : String) :
    x∈d.obligations ↔ ∃ label layer, d.Has label layer ∧ x∈layer.obliges := by
  simp only [Data.obligations, List.mem_append, List.mem_flatMap]
  constructor
  · intro h
    obtain ⟨p, hp, hx⟩ | ⟨t, ht, hx⟩ := h
    · exact ⟨_, _, .pack p hp, hx⟩
    · exact ⟨_, _, .tenant t ht, hx⟩
  · intro h
    obtain ⟨label, layer, hl, hx⟩ := h
    cases hl with
    | base => cases hx
    | pack p hp => exact .inl ⟨p, hp, hx⟩
    | tenant t ht => exact .inr ⟨t, ht, hx⟩

theorem mem_labels (kind x : String) (layers : List (String × Layer)) :
    x∈Data.labels kind layers ↔ ∃ l∈layers, l.2.denies≠[] ∧ kind++l.1=x := by
  have hset : ∀ l : Layer, l.deny.any (fun set => decide (0 < set.length))=true ↔ l.denies≠[] := by
    intro l
    cases h : l.deny with
    | none => simp [Layer.denies, h]
    | some set => simp [Layer.denies, h, List.length_pos_iff]
  simp only [Data.labels, List.mem_map, List.mem_filter, hset, and_assoc]

theorem mem_matchedLayers (x : String) :
    x∈d.matchedLayers ↔ ∃ layer, d.Has x layer ∧ layer.denies≠[] := by
  simp only [Data.matchedLayers, List.mem_append, mem_labels]
  constructor
  · intro h
    obtain (h | ⟨p, hp, hne, rfl⟩) | ⟨t, ht, hne, rfl⟩ := h
    · split at h
      · next hpos =>
        cases List.mem_singleton.mp h
        exact ⟨_, .base, List.length_pos_iff.mp hpos⟩
      · cases h
    · exact ⟨_, .pack p hp, hne⟩
    · exact ⟨_, .tenant t ht, hne⟩
  · intro h
    obtain ⟨layer, hl, hne⟩ := h
    cases hl with
    | base =>
      have hpos : 0 < d.base.length := List.length_pos_iff.mpr hne
      rw [if_pos hpos]
      exact .inl (.inl List.mem_cons_self)
    | pack p hp => exact .inl (.inr ⟨p, hp, hne, rfl⟩)
    | tenant t ht => exact .inr ⟨t, ht, hne, rfl⟩

theorem allow_iff : d.allow=true ↔ ∀ label layer, d.Has label layer → layer.denies=[] := by
  rw [Data.allow, decide_eq_true_eq, List.length_eq_zero_iff, List.eq_nil_iff_forall_not_mem]
  constructor
  · intro h label layer hl
    exact List.eq_nil_iff_forall_not_mem.mpr fun x hx => h x ((mem_denies x).mpr ⟨_, _, hl, hx⟩)
  · intro h x hx
    obtain ⟨label, layer, hl, hx⟩ := (mem_denies x).mp hx
    rw [h label layer hl] at hx
    cases hx

def Data.Within (d e : Data) : Prop :=
  ∀ label layer, d.Has label layer → ∃ layer', e.Has label layer' ∧
    layer.denies⊆layer'.denies ∧ layer.obliges⊆layer'.obliges

/-- The decision is the union of all layers, and it only gets stricter with more of them. -/
theorem layers_only_restrict (d e : Data) (h : d.Within e) :
    (d.decision.allow=true ↔ ∀ label layer, d.Has label layer → layer.denies=[]) ∧
      Lists d.decision.denies (fun x => ∃ label layer, d.Has label layer ∧ x∈layer.denies) ∧
      Lists d.decision.matchedLayers (fun x => ∃ layer, d.Has x layer ∧ layer.denies≠[]) ∧
      Lists d.decision.obligations (fun x => ∃ label layer, d.Has label layer ∧ x∈layer.obliges) ∧
      (d.decision.allow=false → e.decision.allow=false) ∧
      d.decision.obligations⊆e.decision.obligations := by
  refine ⟨allow_iff, lists_sortedSet mem_denies, lists_sortedSet mem_matchedLayers,
    lists_sortedSet mem_obligations, ?_, ?_⟩
  · intro hd
    rw [Bool.eq_false_iff] at hd ⊢
    refine fun he => hd (allow_iff.mpr fun label layer hl => ?_)
    obtain ⟨layer', hl', hsub, -⟩ := h label layer hl
    rw [allow_iff.mp he label layer' hl'] at hsub
    exact List.subset_nil.mp hsub
  · intro x hx
    obtain ⟨label, layer, hl, hx⟩ := (mem_obligations x).mp ((Text.mem_sortedSet x _).mp hx)
    obtain ⟨layer', hl', -, hsub⟩ := h label layer hl
    exact (Text.mem_sortedSet x _).mpr ((mem_obligations x).mpr ⟨label, layer', hl', hsub hx⟩)

/-- An obligation of a pack stays when a tenant layer denies. -/
theorem tenant_layer_denies :
    (let d : Data := { base := [], pack := [("ai", { obligations := some ["pii-redaction"] })] }
    let e : Data := { d with tenant := [("agency-x", { deny := some ["blocked"] })] }
    (d.decision.allow=false → e.decision.allow=false) ∧
      d.decision.obligations⊆e.decision.obligations ∧ e.decision.allow=false) := by
  intro d e
  have h : d.Within e := by
    intro label layer hl
    cases hl with
    | base => exact ⟨_, .base, fun _ hx => hx, fun _ hx => hx⟩
    | pack p hp => exact ⟨_, .pack p hp, fun _ hx => hx, fun _ hx => hx⟩
    | tenant t ht => cases ht
  obtain ⟨-, -, -, -, hallow, hobligations⟩ := layers_only_restrict d e h
  exact ⟨hallow, hobligations, by decide⟩

def evaluated (sprintf : String → List Json → String) (layers : Policy.Layers) (doc : Json) :
    Data :=
  let layer (l : Policy.Layer) : Layer :=
    { deny := some (ruleSet sprintf l.deny doc)
      obligations := some (ruleSet sprintf l.obligations doc) }
  { base := ruleSet sprintf layers.base doc
    pack := layers.packs.map fun p => (p.1, layer p.2)
    tenant := layers.tenants.map fun t => (t.1, layer t.2) }

theorem labels_evaluated (sprintf : String → List Json → String) (doc : Json) (kind : String)
    (named : List (String × Policy.Layer)) :
    Data.labels (kind++":") (named.map fun l => (l.1, ⟨some (ruleSet sprintf l.2.deny doc),
        some (ruleSet sprintf l.2.obligations doc)⟩))=
      Policy.layerLabels sprintf doc kind named := by
  induction named with
  | nil => rfl
  | cons l named ih =>
    simp only [Data.labels, Policy.layerLabels, List.map_cons] at ih ⊢
    cases hr : ruleSet sprintf l.2.deny doc with
    | nil => simpa [hr] using ih
    | cons m ms => simpa [hr] using ih

/-- The policy step of the broker returns this decision. -/
theorem decision_evaluated (sprintf : String → List Json → String) (layers : Policy.Layers)
    (doc : Json) :
    let d := (evaluated sprintf layers doc).decision
    Policy.decision sprintf layers doc=
      ⟨d.allow, String.intercalate "; " d.denies, d.obligations, d.denies, d.matchedLayers⟩ := by
  have hdenies : Policy.denies sprintf layers doc=
      (evaluated sprintf layers doc).decision.denies := by
    simp [Policy.denies, Data.decision, Data.denies, evaluated, Layer.denies, List.flatMap_map]
  have hallow : ∀ d : Data, d.decision.denies.isEmpty=d.decision.allow := by
    intro d
    rw [Bool.eq_iff_iff, List.isEmpty_iff]
    simp only [Data.decision, Data.allow, decide_eq_true_eq, Text.sortedSet_eq_nil,
      List.length_eq_zero_iff]
  have hlabels : Policy.matchedLayers sprintf layers doc=
      (evaluated sprintf layers doc).decision.matchedLayers := by
    have hpack := labels_evaluated sprintf doc "pack" layers.packs
    have htenant := labels_evaluated sprintf doc "tenant" layers.tenants
    have hbase : ∀ xs : List String,
        (if xs.isEmpty then [] else ["base"])=if 0 < xs.length then ["base"] else [] := by
      intro xs
      cases xs <;> rfl
    rw [Policy.matchedLayers, hbase, ← hpack, ← htenant]
    rfl
  have hobligations : Policy.obligations sprintf layers doc=
      (evaluated sprintf layers doc).decision.obligations := by
    simp [Policy.obligations, Data.decision, Data.obligations, evaluated, Layer.obliges,
      List.flatMap_map]
  simp only [Policy.decision, hdenies, hlabels, hobligations, hallow]

end Restrict
end Sovereign.Composition
