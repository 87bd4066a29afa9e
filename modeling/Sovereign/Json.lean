import Sovereign.Sorting
import Mathlib.Data.Rat.Init
import Mathlib.Data.List.Sort
import Mathlib.Data.String.Basic
import Mathlib.Tactic.Linarith

/-! JSON documents with decidable equality, member lookup and updates.
Numbers are the rationals, which every decimal literal denotes; an object is
the list of its members, and a lookup takes the first member of a name. -/
namespace Sovereign

inductive Json where
  | null
  | bool (b : Bool)
  | num (n : Rat)
  | str (s : String)
  | arr (items : List Json)
  | obj (members : List (String × Json))

namespace Json

mutual
def beq : Json → Json → Bool
  | .null, .null => true
  | .bool a, .bool b => decide (a=b)
  | .num a, .num b => decide (a=b)
  | .str a, .str b => decide (a=b)
  | .arr xs, .arr ys => beqItems xs ys
  | .obj xs, .obj ys => beqMembers xs ys
  | _, _ => false
def beqItems : List Json → List Json → Bool
  | [], [] => true
  | x::xs, y::ys => beq x y && beqItems xs ys
  | _, _ => false
def beqMembers : List (String × Json) → List (String × Json) → Bool
  | [], [] => true
  | (j,x)::xs, (k,y)::ys => decide (j=k) && beq x y && beqMembers xs ys
  | _, _ => false
end

mutual
theorem beq_iff (x y : Json) : beq x y = true ↔ x = y := by
  cases x <;> cases y <;> simp [beq]
  · exact beqItems_iff _ _
  · exact beqMembers_iff _ _
theorem beqItems_iff (xs ys : List Json) : beqItems xs ys = true ↔ xs = ys := by
  cases xs <;> cases ys <;> simp [beqItems]
  rw [beq_iff, beqItems_iff]
theorem beqMembers_iff (xs ys : List (String × Json)) :
    beqMembers xs ys = true ↔ xs = ys := by
  obtain _ | ⟨⟨j,x⟩,xs⟩ := xs <;> obtain _ | ⟨⟨k,y⟩,ys⟩ := ys <;> simp [beqMembers]
  rw [beq_iff, beqMembers_iff, and_assoc]
end

instance : DecidableEq Json := fun x y => decidable_of_iff (beq x y = true) (beq_iff x y)

def lookup (name : String) : List (String × Json) → Option Json
  | [] => none
  | (k,v)::rest => if k=name then some v else lookup name rest

/-- `doc.name`: undefined when `doc` is no object or has no such member. -/
def get? (name : String) : Json → Option Json
  | .obj members => lookup name members
  | _ => none

def path : List String → Json → Option Json
  | [], doc => some doc
  | name::rest, doc => (get? name doc).bind (path rest)

@[simp] theorem get?_obj (name : String) (members : List (String × Json)) :
    get? name (.obj members) = lookup name members := rfl

theorem lookup_append (name : String) (xs ys : List (String × Json)) :
    lookup name (xs++ys) = (lookup name xs).or (lookup name ys) := by
  induction xs with
  | nil => rfl
  | cons x xs ih =>
    obtain ⟨k,v⟩ := x
    by_cases h : k=name <;> simp [lookup, h, ih]

theorem lookup_eq_none (name : String) (xs : List (String × Json))
    (h : ∀ m ∈ xs, m.1≠name) : lookup name xs = none := by
  induction xs with
  | nil => rfl
  | cons x xs ih =>
    have hx : x.1≠name := h x (by simp)
    rw [lookup, if_neg hx]
    exact ih (fun m hm => h m (List.mem_cons_of_mem x hm))

/-! Members in the order of their names at every depth, as `json.dumps(sort_keys=True)`
writes them. -/

mutual
def sortKeys : Json → Json
  | .null => .null
  | .bool b => .bool b
  | .num n => .num n
  | .str s => .str s
  | .arr items => .arr (sortItems items)
  | .obj members => .obj ((sortMembers members).insertionSort fun a b => a.1≤b.1)
def sortItems : List Json → List Json
  | [] => []
  | x::xs => sortKeys x::sortItems xs
def sortMembers : List (String × Json) → List (String × Json)
  | [] => []
  | (k,x)::xs => (k, sortKeys x)::sortMembers xs
end

theorem sortMembers_eq_map (members : List (String × Json)) :
    sortMembers members = members.map fun m => (m.1, sortKeys m.2) := by
  induction members with
  | nil => rfl
  | cons m members ih => rw [sortMembers, ih, List.map_cons]

theorem sortMembers_insertionSort (members : List (String × Json)) :
    sortMembers (members.insertionSort fun a b => a.1≤b.1) =
      (sortMembers members).insertionSort fun a b => a.1≤b.1 := by
  rw [sortMembers_eq_map, sortMembers_eq_map]
  exact List.map_insertionSort _ _ _ _ fun _ _ _ _ => Iff.rfl

mutual
/-- Writing sorted members and reading them back changes the order once. -/
theorem sortKeys_sortKeys (x : Json) : sortKeys (sortKeys x)=sortKeys x := by
  cases x with
  | null => rfl
  | bool b => rfl
  | num n => rfl
  | str s => rfl
  | arr items => rw [sortKeys, sortKeys, sortItems_sortItems]
  | obj members =>
    have hsorted : ((sortMembers members).insertionSort fun a b => a.1≤b.1).Pairwise
        fun a b => a.1≤b.1 := Sorting.sorted_by Prod.fst _
    rw [sortKeys, sortKeys, sortMembers_insertionSort, sortMembers_sortMembers,
      hsorted.insertionSort_eq]
theorem sortItems_sortItems (xs : List Json) : sortItems (sortItems xs)=sortItems xs := by
  cases xs with
  | nil => rfl
  | cons x xs => rw [sortItems, sortItems, sortKeys_sortKeys, sortItems_sortItems]
theorem sortMembers_sortMembers (ms : List (String × Json)) :
    sortMembers (sortMembers ms)=sortMembers ms := by
  cases ms with
  | nil => rfl
  | cons m ms => rw [sortMembers, sortMembers, sortKeys_sortKeys, sortMembers_sortMembers]
end

end Json
end Sovereign
