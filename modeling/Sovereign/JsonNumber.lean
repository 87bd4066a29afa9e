import Sovereign.JsonText
import Sovereign.Text

/-! Integers as JSON text. What a float becomes is a parameter. -/
namespace Sovereign.JsonText
open Sovereign

structure Floats where
  ofDecimal : Rat → Rat
  codec : Numbers

def readNat (cs : List Char) : Option Nat :=
  if cs≠[] ∧ cs.all Char.isDigit=true ∧ (cs.head?=some '0' → cs.length=1) then
    some (Nat.ofDigitChars 10 cs 0)
  else none

/-- `-?(0|[1-9][0-9]*)`. -/
def readInt : List Char → Option Int
  | '-'::cs => (readNat cs).map fun n => -(n : Int)
  | cs => (readNat cs).map Int.ofNat

/-- `str(n)` of an integer, and `repr` of a float. -/
def numbers (f : Floats) : Numbers where
  write q := if q.den=1 then (toString q.num).toList else f.codec.write q
  read cs := ((readInt cs).map fun n : Int => (n : Rat)).or (f.codec.read cs)

theorem toDigits_head {n : Nat} (h : (Nat.toDigits 10 n).head?=some '0') : n=0 := by
  induction n using Nat.strong_induction_on with
  | _ n ih =>
    by_cases hlt : n < 10
    · rw [Nat.toDigits_of_lt_base hlt, List.head?_cons, Option.some.injEq] at h
      have hzero : ∀ m < 10, Nat.digitChar m= '0' → m=0 := by decide
      exact hzero n hlt h
    · have hsplit := Nat.toDigits_append_toDigits (b := 10) (n := n/10) (d := n%10)
        (by decide) (by omega) (Nat.mod_lt n (by decide))
      rw [Nat.div_add_mod] at hsplit
      rw [← hsplit] at h
      have hne : Nat.toDigits 10 (n/10)≠[] := Nat.toDigits_ne_nil
      rw [List.head?_append_of_ne_nil _ hne] at h
      have hzero := ih (n/10) (by omega) h
      omega

theorem readNat_toDigits (n : Nat) : readNat (Nat.toDigits 10 n)=some n := by
  have hall : (Nat.toDigits 10 n).all Char.isDigit=true := List.all_eq_true.mpr fun c hc =>
    Nat.isDigit_of_mem_toDigits (by decide) (by decide) hc
  have hlead : (Nat.toDigits 10 n).head?=some '0' → (Nat.toDigits 10 n).length=1 := by
    intro h
    rw [toDigits_head h]
    rfl
  rw [readNat, if_pos ⟨Nat.toDigits_ne_nil, hall, hlead⟩, Nat.ofDigitChars_ten_toDigits]

theorem readInt_toString (n : Int) : readInt (toString n).toList=some n := by
  cases n with
  | ofNat m =>
    rw [Text.toList_toString_ofNat]
    have hread := readNat_toDigits m
    unfold readInt
    split
    · next cs he =>
      have hm : '-'∈Nat.toDigits 10 m := he ▸ List.mem_cons_self
      exact absurd (Nat.isDigit_of_mem_toDigits (by decide) (by decide) hm) (by decide)
    · rw [hread]
      rfl
  | negSucc m =>
    rw [Text.toList_toString_negSucc, readInt, readNat_toDigits]
    rfl

theorem reads_of_den {f : Floats} {q : Rat} (h : q.den=1) : (numbers f).Reads q where
  read := by
    have hq : ((q.num : Int) : Rat)=q := Rat.coe_int_num_of_den_eq_one h
    simp only [numbers, if_pos h, readInt_toString, Option.map_some, Option.some_or, hq]
  chars := by
    intro c hc
    have hwrite : (numbers f).write q=(toString q.num).toList := if_pos h
    rw [hwrite] at hc
    obtain rfl | hd := Text.mem_toString_int hc
    · rfl
    · simp [isNumberChar, hd]
  ne_nil := by
    have hwrite : (numbers f).write q=(toString q.num).toList := if_pos h
    rw [hwrite]
    intro hnil
    have hread := readInt_toString q.num
    rw [hnil] at hread
    cases hread

mutual
def integral : Json → Bool
  | .num q => decide (q.den=1)
  | .arr xs => integralItems xs
  | .obj ms => integralMembers ms
  | _ => true
def integralItems : List Json → Bool
  | [] => true
  | x::xs => integral x && integralItems xs
def integralMembers : List (String × Json) → Bool
  | [] => true
  | (_,x)::ms => integral x && integralMembers ms
end

section Decimals
variable (f : Floats)

mutual
/-- A `Decimal` as a plain number: an integer as it is, anything else as a float. -/
def plainNumbers : Json → Json
  | .num q => .num (if q.den=1 then q else f.ofDecimal q)
  | .arr xs => .arr (plainItems xs)
  | .obj ms => .obj (plainMembers ms)
  | x => x
def plainItems : List Json → List Json
  | [] => []
  | x::xs => plainNumbers x::plainItems xs
def plainMembers : List (String × Json) → List (String × Json)
  | [] => []
  | (k,x)::ms => (k, plainNumbers x)::plainMembers ms
end

end Decimals

section Integral
variable {f : Floats}

mutual
theorem plainNumbers_of_integral : ∀ {x : Json}, integral x=true → plainNumbers f x=x
  | .null, _ => rfl
  | .bool _, _ => rfl
  | .str _, _ => rfl
  | .num q, h => by
    rw [plainNumbers, if_pos (of_decide_eq_true h)]
  | .arr xs, h => by
    rw [plainNumbers, plainItems_of_integral h]
  | .obj ms, h => by
    rw [plainNumbers, plainMembers_of_integral h]
theorem plainItems_of_integral : ∀ {xs : List Json}, integralItems xs=true → plainItems f xs=xs
  | [], _ => rfl
  | x::xs, h => by
    obtain ⟨hx, hxs⟩ := Bool.and_eq_true_iff.mp h
    rw [plainItems, plainNumbers_of_integral hx, plainItems_of_integral hxs]
theorem plainMembers_of_integral : ∀ {ms : List (String × Json)}, integralMembers ms=true →
    plainMembers f ms=ms
  | [], _ => rfl
  | (k,x)::ms, h => by
    obtain ⟨hx, hms⟩ := Bool.and_eq_true_iff.mp h
    rw [plainMembers, plainNumbers_of_integral hx, plainMembers_of_integral hms]
end

mutual
theorem numeric_of_integral : ∀ {x : Json}, integral x=true → Numeric (numbers f) x
  | .null, _ => trivial
  | .bool _, _ => trivial
  | .str _, _ => trivial
  | .num _, h => reads_of_den (of_decide_eq_true h)
  | .arr _, h => numericItems_of_integral h
  | .obj _, h => numericMembers_of_integral h
theorem numericItems_of_integral : ∀ {xs : List Json}, integralItems xs=true →
    NumericItems (numbers f) xs
  | [], _ => trivial
  | _::_, h => by
    obtain ⟨hx, hxs⟩ := Bool.and_eq_true_iff.mp h
    exact ⟨numeric_of_integral hx, numericItems_of_integral hxs⟩
theorem numericMembers_of_integral : ∀ {ms : List (String × Json)}, integralMembers ms=true →
    NumericMembers (numbers f) ms
  | [], _ => trivial
  | (_,_)::_, h => by
    obtain ⟨hx, hms⟩ := Bool.and_eq_true_iff.mp h
    exact ⟨numeric_of_integral hx, numericMembers_of_integral hms⟩
end

end Integral
end Sovereign.JsonText
