import Mathlib.Data.List.Forall2

/-! A list read element by element, where each reading may fail. -/
namespace Sovereign.Traverse
variable {α β : Type} {f : α → Option β}

theorem mapM_eq_some_iff {xs : List α} {ys : List β} :
    xs.mapM f=some ys ↔ List.Forall₂ (fun x y => f x=some y) xs ys := by
  induction xs generalizing ys with
  | nil => simp [eq_comm]
  | cons x xs ih =>
    rw [List.mapM_cons]
    constructor
    · intro h
      cases hx : f x with
      | none => simp [hx] at h
      | some y =>
        cases hxs : xs.mapM f with
        | none => simp [hx, hxs] at h
        | some ys' =>
          simp [hx, hxs] at h
          rw [← h]
          exact .cons hx (ih.mp hxs)
    · intro h
      cases h with
      | cons hx hxs => simp [hx, ih.mpr hxs]

theorem mapM_isSome_iff {xs : List α} : (∃ ys, xs.mapM f=some ys) ↔ ∀ x∈xs, ∃ y, f x=some y := by
  induction xs with
  | nil => simp
  | cons x xs ih =>
    rw [List.forall_mem_cons, ← ih, List.mapM_cons]
    cases f x with
    | none => simp
    | some y =>
      cases xs.mapM f with
      | none => simp
      | some ys => simp

theorem forall_mem_mapM_iff {xs : List α} {ys : List β} (h : xs.mapM f=some ys) {P : β → Prop} :
    (∀ y∈ys, P y) ↔ ∀ x∈xs, ∀ y, f x=some y → P y := by
  have hall := mapM_eq_some_iff.mp h
  clear h
  induction hall with
  | nil => simp
  | cons hx _ ih => simp [ih, hx]

theorem mapM_eq_map {g : α → β} {xs : List α} (h : ∀ x∈xs, f x=some (g x)) :
    xs.mapM f=some (xs.map g) := by
  rw [mapM_eq_some_iff, List.forall₂_map_right_iff, List.forall₂_same]
  exact h

theorem forall₂_and_iff {R : α → β → Prop} {xs : List α} {ys : List β}
    (h : List.Forall₂ (fun x y => f x=some y) xs ys) :
    List.Forall₂ R xs ys ↔ ∀ x∈xs, ∀ y, f x=some y → R x y := by
  induction h with
  | nil => simp
  | cons hx _ ih => simp [ih, hx]

end Sovereign.Traverse
