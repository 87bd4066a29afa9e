import Mathlib.Algebra.Order.Round
import Mathlib.Algebra.BigOperators.Group.List.Basic
import Mathlib.Tactic.FieldSimp
import Mathlib.Tactic.Linarith
import Mathlib.Tactic.Ring

/-! Rounding to a number of decimal places, half to even. -/
namespace Sovereign.Rounding

section Grid
variable {K : Type*} [Field K]

def OnGrid (n : Nat) (x : K) : Prop := ∃ k : ℤ, x=k/10^n

theorem onGrid_zero (n : Nat) : OnGrid n (0 : K) := ⟨0, by simp⟩

theorem OnGrid.add {n : Nat} {x y : K} (hx : OnGrid n x) (hy : OnGrid n y) : OnGrid n (x+y) := by
  obtain ⟨j, rfl⟩ := hx
  obtain ⟨k, rfl⟩ := hy
  exact ⟨j+k, by rw [Int.cast_add, add_div]⟩

theorem onGrid_sum {n : Nat} {xs : List K} (h : ∀ x∈xs, OnGrid n x) : OnGrid n xs.sum := by
  induction xs with
  | nil => exact onGrid_zero n
  | cons x xs ih =>
    rw [List.sum_cons]
    exact (h x List.mem_cons_self).add (ih fun y hy => h y (List.mem_cons_of_mem x hy))

end Grid

section Round
variable {K : Type*} [Field K] [LinearOrder K] [FloorRing K]

/-- The nearest integer, and the even one of two. -/
def roundEven (x : K) : ℤ :=
  if 2*Int.fract x < 1 then ⌊x⌋
  else if 1 < 2*Int.fract x then ⌊x⌋+1
  else if ⌊x⌋%2=0 then ⌊x⌋ else ⌊x⌋+1

def roundTo (n : Nat) (x : K) : K := roundEven (x*10^n)/10^n

theorem roundEven_bounds (x : K) : ⌊x⌋ ≤ roundEven x ∧ roundEven x ≤ ⌊x⌋+1 := by
  unfold roundEven
  split
  · omega
  · split
    · omega
    · split
      · omega
      · omega

theorem onGrid_roundTo (n : Nat) (x : K) : OnGrid n (roundTo n x) := ⟨_, rfl⟩

variable [IsStrictOrderedRing K]

theorem roundEven_intCast (k : ℤ) : roundEven (k : K)=k := by
  rw [roundEven, Int.fract_intCast, mul_zero, if_pos zero_lt_one, Int.floor_intCast]

theorem roundEven_mono {x y : K} (h : x ≤ y) : roundEven x ≤ roundEven y := by
  obtain ⟨_, hx⟩ := roundEven_bounds x
  obtain ⟨hy, _⟩ := roundEven_bounds y
  obtain hlt | heq := (Int.floor_mono h).lt_or_eq
  · omega
  -- on one unit the fraction decides
  have hfract : Int.fract x ≤ Int.fract y := by
    rw [Int.fract, Int.fract, heq]
    exact sub_le_sub_right h _
  unfold roundEven at hx hy ⊢
  rw [heq] at hx ⊢
  by_cases hsmall : 2*Int.fract x < 1
  · rw [if_pos hsmall]
    exact hy
  · have hy1 : ¬ 2*Int.fract y < 1 := by
      intro hlt
      linarith
    rw [if_neg hsmall, if_neg hy1]
    by_cases hbig : 1 < 2*Int.fract x
    · have hy2 : 1 < 2*Int.fract y := by linarith
      rw [if_pos hbig, if_pos hy2]
    · rw [if_neg hbig]
      split
      · split
        · omega
        · omega
      · omega

theorem scale_pos (n : Nat) : (0 : K) < 10^n := pow_pos (by norm_num) n

theorem roundTo_mono (n : Nat) {x y : K} (h : x ≤ y) : roundTo n x ≤ roundTo n y := by
  have hscaled : x*10^n ≤ y*10^n := mul_le_mul_of_nonneg_right h (scale_pos n).le
  have hround : ((roundEven (x*10^n) : ℤ) : K) ≤ (roundEven (y*10^n) : ℤ) :=
    Int.cast_le.mpr (roundEven_mono hscaled)
  exact div_le_div_of_nonneg_right hround (scale_pos n).le

theorem roundTo_of_onGrid {n : Nat} {x : K} (h : OnGrid n x) : roundTo n x=x := by
  obtain ⟨k, rfl⟩ := h
  rw [roundTo, div_mul_cancel₀ _ (scale_pos n).ne', roundEven_intCast]

theorem roundTo_zero (n : Nat) : roundTo n (0 : K)=0 := roundTo_of_onGrid (onGrid_zero n)

theorem roundTo_nonneg (n : Nat) {x : K} (h : 0 ≤ x) : 0 ≤ roundTo n x := by
  have hmono := roundTo_mono n h
  rwa [roundTo_zero] at hmono

end Round
end Sovereign.Rounding
