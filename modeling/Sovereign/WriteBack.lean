import Mathlib.Logic.Relation
import Mathlib.Tactic.Linarith

/-! A keyed table and workers that hold copies of its records and may write them back
later, changed. `Same` says which changes leave a record the same in the respect at
hand; it keeps the key. A worker's copy is stale when the table has moved on. -/
namespace Sovereign.WriteBack
variable {K V : Type*} (key : V → K)

structure Sys (K V : Type*) where
  table : K → Option V
  copies : List V

def Sys.Source (s : Sys K V) (c : V) : Prop := c∈s.copies ∨ s.table (key c)=some c

def Sys.Keyed (s : Sys K V) : Prop := ∀ k v, s.table k=some v → key v=k

/-- Workers write copies back, take new copies and drop copies; whatever is written or
held afterwards is the same as some record from before. -/
structure Quiet (Same : V → V → Prop) (s s' : Sys K V) : Prop where
  table : ∀ k, s'.table k=s.table k ∨
    ∃ x c, s'.table k=some x ∧ key x=k ∧ s.Source key c ∧ Same c x
  copies : ∀ x∈s'.copies, ∃ c, s.Source key c ∧ Same c x

/-- `x` is stored anew; at most its writer holds a copy of it. -/
structure Fresh (x : V) (s s' : Sys K V) : Prop where
  same : s'.table (key x)=some x
  other : ∀ k, k≠key x → s'.table k=s.table k
  copies : ∀ c∈s'.copies, c=x ∨ c∈s.copies

structure Removed (k : K) (s s' : Sys K V) : Prop where
  gone : s'.table k=none
  other : ∀ j, j≠k → s'.table j=s.table j
  copies : ∀ c∈s'.copies, c∈s.copies

def Sys.Idle (s : Sys K V) (k : K) : Prop := ∀ c∈s.copies, key c≠k

instance [DecidableEq K] (s : Sys K V) (k : K) : Decidable (s.Idle key k) :=
  inferInstanceAs (Decidable (∀ c∈s.copies, key c≠k))

def Sys.Coherent (Same : V → V → Prop) (s : Sys K V) : Prop :=
  ∀ c d, s.Source key c → s.Source key d → key c=key d → Same c d

def Sys.Absent (s : Sys K V) (k : K) : Prop := s.table k=none ∧ s.Idle key k

section Rules
variable {key} {Same : V → V → Prop} {s s' : Sys K V}

theorem Quiet.mono {Same' : V → V → Prop} (h : Quiet key Same s s')
    (hm : ∀ c x, Same c x → Same' c x) : Quiet key Same' s s' where
  table := fun k => by
    obtain he | ⟨x, c, hx, hk, hc, hs⟩ := h.table k
    · exact Or.inl he
    · exact Or.inr ⟨x, c, hx, hk, hc, hm c x hs⟩
  copies := fun x hx => by
    obtain ⟨c, hc, hs⟩ := h.copies x hx
    exact ⟨c, hc, hm c x hs⟩

/-- Every record after a quiet step is the same as one before it. -/
theorem Quiet.source (h : Quiet key Same s s') (hrefl : ∀ c, Same c c) {x : V}
    (hx : s'.Source key x) : ∃ c, s.Source key c ∧ Same c x := by
  obtain hx | hx := hx
  · exact h.copies x hx
  · obtain he | ⟨y, c, hy, _, hc, hs⟩ := h.table (key x)
    · exact ⟨x, Or.inr (by rw [← he, hx]), hrefl x⟩
    · rw [hy] at hx
      cases hx
      exact ⟨c, hc, hs⟩

theorem Quiet.coherent (h : Quiet key Same s s') (he : Equivalence Same)
    (hkey : ∀ c x, Same c x → key x=key c) (hc : s.Coherent key Same) :
    s'.Coherent key Same := by
  intro x y hx hy hxy
  obtain ⟨c, hcs, hcx⟩ := h.source he.refl hx
  obtain ⟨d, hds, hdy⟩ := h.source he.refl hy
  have hcd : Same c d := hc c d hcs hds (by rw [← hkey c x hcx, ← hkey d y hdy, hxy])
  exact he.trans (he.symm hcx) (he.trans hcd hdy)

theorem Fresh.source_cases {x : V} (h : Fresh key x s s') {c : V} (hc : s'.Source key c) :
    c=x ∨ c∈s.copies ∨ (s.table (key c)=some c ∧ key c≠key x) := by
  cases hc with
  | inl hm =>
    cases h.copies c hm with
    | inl he => exact Or.inl he
    | inr hm => exact Or.inr (Or.inl hm)
  | inr ht =>
    by_cases hk : key c=key x
    · rw [hk, h.same] at ht
      exact Or.inl (Option.some.inj ht).symm
    · exact Or.inr (Or.inr ⟨by rw [← h.other _ hk, ht], hk⟩)

theorem Fresh.source {x : V} (h : Fresh key x s s') {c : V} (hc : s'.Source key c) :
    c=x ∨ s.Source key c := by
  obtain he | hm | ht := h.source_cases hc
  · exact Or.inl he
  · exact Or.inr (Or.inl hm)
  · exact Or.inr (Or.inr ht.1)

theorem Fresh.source_idle {x : V} (h : Fresh key x s s') (hidle : s.Idle key (key x)) {c : V}
    (hc : s'.Source key c) : c=x ∨ (s.Source key c ∧ key c≠key x) := by
  obtain he | hm | ht := h.source_cases hc
  · exact Or.inl he
  · exact Or.inr ⟨Or.inl hm, hidle c hm⟩
  · exact Or.inr ⟨Or.inr ht.1, ht.2⟩

theorem Fresh.coherent {x : V} (h : Fresh key x s s') (he : Equivalence Same)
    (hidle : s.Idle key (key x)) (hc : s.Coherent key Same) : s'.Coherent key Same := by
  intro c d hcs hds hcd
  obtain rfl | ⟨hcs, hcx⟩ := h.source_idle hidle hcs
  · obtain rfl | ⟨_, hdx⟩ := h.source_idle hidle hds
    · exact he.refl d
    · exact absurd hcd.symm hdx
  · obtain rfl | ⟨hds, _⟩ := h.source_idle hidle hds
    · exact absurd hcd hcx
    · exact hc c d hcs hds hcd

theorem Removed.source {k : K} (h : Removed k s s') {c : V} (hc : s'.Source key c) :
    s.Source key c := by
  cases hc with
  | inl hm => exact Or.inl (h.copies c hm)
  | inr ht =>
    by_cases hk : key c=k
    · rw [hk, h.gone] at ht
      cases ht
    · exact Or.inr (by rw [← h.other _ hk, ht])

theorem Removed.coherent {k : K} (h : Removed k s s') (hc : s.Coherent key Same) :
    s'.Coherent key Same :=
  fun c d hcs hds hcd => hc c d (h.source hcs) (h.source hds) hcd

/-- In a coherent system a quiet step leaves every stored record the same. -/
theorem Quiet.stored (h : Quiet key Same s s') (he : Equivalence Same)
    (hkey : ∀ c x, Same c x → key x=key c) (hk : s.Keyed key) (hc : s.Coherent key Same)
    {k : K} {v : V} (hv : s.table k=some v) : ∃ v', s'.table k=some v' ∧ Same v v' := by
  obtain ht | ⟨x, c, hx, hxk, hcs, hcx⟩ := h.table k
  · exact ⟨v, by rw [ht, hv], he.refl v⟩
  · refine ⟨x, hx, ?_⟩
    have hvk : key v=k := hk k v hv
    have hsrc : s.Source key v := Or.inr (by rw [hvk, hv])
    have hvc : Same v c := hc v c hsrc hcs (by rw [hvk, ← hxk, hkey c x hcx])
    exact he.trans hvc hcx

theorem Quiet.absent (h : Quiet key Same s s') (hkey : ∀ c x, Same c x → key x=key c)
    {k : K} (ha : s.Absent key k) : s'.Absent key k := by
  have hno : ∀ c, s.Source key c → key c≠k := by
    intro c hc hck
    obtain hm | ht := hc
    · exact ha.2 c hm hck
    · rw [hck, ha.1] at ht
      cases ht
  refine ⟨?_, ?_⟩
  · obtain ht | ⟨x, c, _, hxk, hc, hs⟩ := h.table k
    · rw [ht, ha.1]
    · exact absurd (by rw [← hkey c x hs, hxk]) (hno c hc)
  · intro x hx hxk
    obtain ⟨c, hc, hs⟩ := h.copies x hx
    exact hno c hc (by rw [← hkey c x hs, hxk])

theorem Fresh.absent {x : V} (h : Fresh key x s s') {k : K} (hne : key x≠k)
    (ha : s.Absent key k) : s'.Absent key k := by
  refine ⟨by rw [h.other k (Ne.symm hne), ha.1], ?_⟩
  intro c hc
  obtain rfl | hc := h.copies c hc
  · exact hne
  · exact ha.2 c hc

theorem Removed.absent {k j : K} (h : Removed j s s') (ha : s.Absent key k) :
    s'.Absent key k := by
  refine ⟨?_, fun c hc => ha.2 c (h.copies c hc)⟩
  by_cases hk : k=j
  · rw [hk, h.gone]
  · rw [h.other k hk, ha.1]

theorem Removed.absent_self {k : K} (h : Removed k s s') (hidle : s.Idle key k) :
    s'.Absent key k :=
  ⟨h.gone, fun c hc => hidle c (h.copies c hc)⟩

end Rules
end Sovereign.WriteBack
