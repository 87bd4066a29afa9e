import Mathlib.Data.List.Nodup
import Mathlib.Data.List.Induction
import Mathlib.Tactic.Linarith

/-! Lists of records that point back: `prev` is what a record carries of the one before it,
`hash` is what the next one has to carry. -/
namespace Sovereign.HashChain
variable {α η : Type*} (prev hash : α → Option η)

def Linked : Option η → List α → Prop
  | _, [] => True
  | head, x::xs => prev x=head ∧ Linked (hash x) xs

def headAfter (head : Option η) : List α → Option η
  | [] => head
  | x::xs => headAfter (hash x) xs

structure Single (xs : List α) : Prop where
  start : xs.countP (fun x => (prev x).isNone)=1
  links : ∀ a x b, xs=a++x::b → prev x≠none → ∃ y∈a++b, prev x=hash y

def Broken (xs : List α) : Prop := ∃ y∈xs, prev y≠none ∧ ∀ z∈xs, prev y≠hash z

variable {prev hash}

theorem headAfter_append (head : Option η) (xs ys : List α) :
    headAfter hash head (xs++ys)=headAfter hash (headAfter hash head xs) ys := by
  induction xs generalizing head with
  | nil => rfl
  | cons x xs ih => exact ih (hash x)

theorem headAfter_mem (hash : α → Option η) (head : Option η) {xs : List α} (h : xs≠[]) :
    ∃ x∈xs, headAfter hash head xs=hash x := by
  induction xs generalizing head with
  | nil => exact absurd rfl h
  | cons x xs ih =>
    cases xs with
    | nil => exact ⟨x, List.mem_cons_self, rfl⟩
    | cons y ys =>
      obtain ⟨z, hz, he⟩ := ih (hash x) (by simp)
      exact ⟨z, List.mem_cons_of_mem x hz, he⟩

theorem linked_append {head : Option η} {xs ys : List α} :
    Linked prev hash head (xs++ys) ↔
      Linked prev hash head xs ∧ Linked prev hash (headAfter hash head xs) ys := by
  induction xs generalizing head with
  | nil => simp [Linked, headAfter]
  | cons x xs ih => simp [Linked, headAfter, ih, and_assoc]

/-- The record after `a` carries the hash of the last one of `a`. -/
theorem Linked.prev_eq {head : Option η} {a b : List α} {x : α}
    (h : Linked prev hash head (a++x::b)) : prev x=headAfter hash head a :=
  (linked_append.mp h).2.1

section Chain
variable {xs : List α} (hsome : ∀ x∈xs, hash x≠none)
include hsome

theorem Linked.prev_ne_none {head : Option η} (h : Linked prev hash head xs) {a b : List α} {x : α}
    (he : xs=a++x::b) (ha : a≠[]) : prev x≠none := by
  rw [he] at h
  obtain ⟨y, hy, hhash⟩ := headAfter_mem hash head ha
  rw [h.prev_eq, hhash]
  exact hsome y (by rw [he]; exact List.mem_append_left _ hy)

theorem Linked.single (h : Linked prev hash none xs) (hne : xs≠[]) : Single prev hash xs := by
  obtain ⟨x, rest, rfl⟩ := List.exists_cons_of_ne_nil hne
  refine ⟨?_, ?_⟩
  · have hrest : rest.countP (fun x => (prev x).isNone)=0 := by
      rw [List.countP_eq_zero]
      intro y hy
      obtain ⟨a, b, hab⟩ := List.append_of_mem hy
      have hp := h.prev_ne_none hsome (a := x::a) (by rw [hab]; rfl) (by simp)
      simp [hp]
    have hx : (prev x).isNone=true := by rw [h.1]; rfl
    rw [List.countP_cons, hrest, hx]
    rfl
  · intro a y b he hy
    rw [he] at h
    by_cases ha : a=[]
    · subst ha
      exact absurd h.prev_eq hy
    · obtain ⟨z, hz, hhash⟩ := headAfter_mem hash none ha
      exact ⟨z, List.mem_append_left _ hz, h.prev_eq.trans hhash⟩

/-- Where equal hashes come from records with equal predecessors, all hashes differ. -/
theorem Linked.nodup (hinj : ∀ x∈xs, ∀ y∈xs, hash x=hash y → prev x=prev y)
    (h : Linked prev hash none xs) : (xs.map hash).Nodup := by
  induction xs using List.reverseRecOn with
  | nil => exact List.nodup_nil
  | append_singleton xs x ih =>
    have hlinked := (linked_append.mp h).1
    have hnodup := ih (fun y hy => hsome y (List.mem_append_left _ hy))
      (fun y hy z hz => hinj y (List.mem_append_left _ hy) z (List.mem_append_left _ hz)) hlinked
    rw [List.map_append, List.nodup_append]
    refine ⟨hnodup, by simp, ?_⟩
    intro k hk k' hk' he
    obtain ⟨y, hy, rfl⟩ := List.mem_map.mp hk
    have hx : hash y=hash x := he.trans (by simpa using hk')
    -- equal hashes further back, down to the first record, which has no predecessor
    have hprev := hinj y (List.mem_append_left _ hy) x (by simp) hx
    obtain ⟨a, b, rfl⟩ := List.append_of_mem hy
    rw [hlinked.prev_eq, h.prev_eq, headAfter_append] at hprev
    obtain ⟨last, hlast, hhash⟩ :=
      headAfter_mem hash (headAfter hash none a) (List.cons_ne_nil y b)
    rw [hhash] at hprev
    by_cases ha : a=[]
    · subst ha
      exact hsome last (by simp only [List.nil_append]; exact List.mem_append_left _ hlast)
        hprev.symm
    · obtain ⟨z, hz, hhz⟩ := headAfter_mem hash none ha
      rw [hhz] at hprev
      rw [List.map_append] at hnodup
      exact List.disjoint_of_nodup_append hnodup (List.mem_map_of_mem hz)
        (hprev ▸ List.mem_map_of_mem hlast)

/-- Taking out any record but the last leaves one that points to nothing. -/
theorem Linked.broken_of_remove (hnodup : (xs.map hash).Nodup) (h : Linked prev hash none xs)
    {a b : List α} {x : α} (he : xs=a++x::b) (hb : b≠[]) : Broken prev hash (a++b) := by
  obtain ⟨y, rest, rfl⟩ := List.exists_cons_of_ne_nil hb
  have hsplit : xs=(a++[x])++y::rest := by rw [he]; simp
  have hy : prev y=hash x := by
    rw [hsplit] at h
    rw [h.prev_eq, headAfter_append]
    rfl
  refine ⟨y, by simp, ?_, ?_⟩
  · exact h.prev_ne_none hsome hsplit (by simp)
  · intro z hz hyz
    rw [hy] at hyz
    rw [he] at hnodup
    have hperm : ((a++x::(y::rest)).map hash).Perm (hash x::(a++(y::rest)).map hash) := by
      rw [← List.map_cons]
      exact List.perm_middle.map hash
    have hno := (List.nodup_cons.mp (hperm.nodup_iff.mp hnodup)).1
    exact hno (hyz ▸ List.mem_map_of_mem hz)

end Chain

/-- A second record without a predecessor ends the single chain. -/
theorem Single.not_append {xs : List α} {x : α} (h : Single prev hash xs) (hx : prev x=none) :
    ¬ Single prev hash (xs++[x]) := by
  intro h'
  have hcount := h'.start
  rw [List.countP_append, h.start] at hcount
  simp [hx] at hcount

end Sovereign.HashChain
