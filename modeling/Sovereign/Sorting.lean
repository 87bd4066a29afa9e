import Mathlib.Data.List.Sort

/-! Lists sorted by what a function makes of their members, in a linear order. -/
namespace Sovereign.Sorting
variable {α β : Type*} [LinearOrder β] (f : α → β)

theorem sorted_by (xs : List α) :
    (xs.insertionSort fun a b => f a ≤ f b).Pairwise fun a b => f a ≤ f b := by
  have : Std.Total fun a b => f a ≤ f b := ⟨fun a b => le_total (f a) (f b)⟩
  have : IsTrans α fun a b => f a ≤ f b := ⟨fun _ _ _ => le_trans⟩
  exact List.pairwise_insertionSort _ xs

theorem strict_by {xs : List α} (h : (xs.map f).Nodup) :
    (xs.insertionSort fun a b => f a ≤ f b).Pairwise fun a b => f a < f b := by
  have hnodup : ((xs.insertionSort fun a b => f a ≤ f b).map f).Nodup :=
    ((List.perm_insertionSort _ xs).map f).nodup_iff.mpr h
  exact (sorted_by f xs).imp₂ (fun _ _ => lt_of_le_of_ne) (List.pairwise_map.mp hnodup)

variable {f}

theorem strict_ext {xs ys : List α} (hx : xs.Pairwise fun a b => f a < f b)
    (hy : ys.Pairwise fun a b => f a < f b) (h : ∀ a, a∈xs ↔ a∈ys) : xs=ys := by
  have hnodup : ∀ {zs : List α}, zs.Pairwise (fun a b => f a < f b) → zs.Nodup := by
    intro zs hz
    refine hz.imp ?_
    rintro a b hlt rfl
    exact lt_irrefl _ hlt
  refine ((List.perm_ext_iff_of_nodup (hnodup hx) (hnodup hy)).mpr h).eq_of_pairwise ?_ hx hy
  intro a b _ _ hab hba
  exact absurd hba (lt_asymm hab)

/-- Lists of the same members are sorted alike, where the values tell them. -/
theorem eq_of_perm {xs ys : List α} (hf : ∀ a∈xs, ∀ b∈xs, f a=f b → a=b) (h : xs.Perm ys) :
    (xs.insertionSort fun a b => f a ≤ f b)=ys.insertionSort fun a b => f a ≤ f b := by
  have hperm : (xs.insertionSort fun a b => f a ≤ f b).Perm
      (ys.insertionSort fun a b => f a ≤ f b) :=
    (List.perm_insertionSort _ xs).trans (h.trans (List.perm_insertionSort _ ys).symm)
  refine hperm.eq_of_pairwise ?_ (sorted_by f xs) (sorted_by f ys)
  intro a b ha hb hab hba
  have ha := (List.perm_insertionSort _ xs).mem_iff.mp ha
  have hb := h.mem_iff.mpr ((List.perm_insertionSort _ ys).mem_iff.mp hb)
  exact hf a ha b hb (le_antisymm hab hba)

end Sovereign.Sorting
