import Mathlib.Tactic.Linarith

/-! A double-ended queue with a bound, as Python's `deque(maxlen=n)`: what is added at one
end of a full queue pushes an element out at the other. -/
namespace Sovereign

structure Deque (α : Type*) (maxlen : Nat) where
  items : List α
  length_le : items.length ≤ maxlen

namespace Deque
variable {α : Type*} {n : Nat}

theorem ext {d d' : Deque α n} (h : d.items=d'.items) : d=d' := by
  cases d
  cases d'
  cases h
  rfl

def empty : Deque α n := ⟨[], Nat.zero_le n⟩

def append (d : Deque α n) (x : α) : Deque α n where
  items := (d.items++[x]).drop (d.items.length+1-n)
  length_le := by
    rw [List.length_drop, List.length_append, List.length_singleton]
    omega

def appendleft (d : Deque α n) (x : α) : Deque α n where
  items := (x::d.items).take n
  length_le := List.length_take_le n _

def popleft (d : Deque α n) : Deque α n where
  items := d.items.tail
  length_le := by
    have h := d.length_le
    rw [List.length_tail]
    omega

def extend (d : Deque α n) (xs : List α) : Deque α n := xs.foldl append d

theorem extend_cons (d : Deque α n) (x : α) (xs : List α) :
    d.extend (x::xs)=(d.append x).extend xs := rfl

theorem items_append (d : Deque α n) (x : α) :
    (d.append x).items=(d.items++[x]).drop (d.items.length+1-n) := rfl

theorem items_append_of_lt {d : Deque α n} (h : d.items.length < n) (x : α) :
    (d.append x).items=d.items++[x] := by
  have hz : d.items.length+1-n=0 := by omega
  rw [items_append, hz, List.drop_zero]

/-- Extending keeps the last `n` elements. -/
theorem items_extend (d : Deque α n) (xs : List α) :
    (d.extend xs).items=(d.items++xs).drop (d.items.length+xs.length-n) := by
  induction xs generalizing d with
  | nil =>
    have h := d.length_le
    have hz : d.items.length+0-n=0 := by omega
    rw [List.append_nil, List.length_nil, hz, List.drop_zero]
    rfl
  | cons x xs ih =>
    have h := d.length_le
    have hlen : (d.append x).items.length=d.items.length+1-(d.items.length+1-n) := by
      rw [items_append, List.length_drop, List.length_append, List.length_singleton]
    have hsplit : (d.append x).items++xs=(d.items++x::xs).drop (d.items.length+1-n) := by
      have hle : d.items.length+1-n≤(d.items++[x]).length := by
        rw [List.length_append, List.length_singleton]
        omega
      rw [items_append, ← List.drop_append_of_le_length hle, List.append_assoc,
        List.singleton_append]
    have hcount : d.items.length+1-n+((d.append x).items.length+xs.length-n) =
        d.items.length+(x::xs).length-n := by
      rw [hlen, List.length_cons]
      omega
    calc
      (d.extend (x::xs)).items=((d.append x).extend xs).items := by rw [extend_cons]
      _=((d.append x).items++xs).drop ((d.append x).items.length+xs.length-n) := ih _
      _=(d.items++x::xs).drop (d.items.length+(x::xs).length-n) := by
        rw [hsplit, List.drop_drop, hcount]

theorem items_extend_of_fits {d : Deque α n} {xs : List α} (h : d.items.length+xs.length ≤ n) :
    (d.extend xs).items=d.items++xs := by
  have hz : d.items.length+xs.length-n=0 := by omega
  rw [items_extend, hz, List.drop_zero]

theorem items_appendleft_of_lt {d : Deque α n} (h : d.items.length < n) (x : α) :
    (d.appendleft x).items=x::d.items := by
  rw [appendleft]
  exact List.take_of_length_le (by rw [List.length_cons]; omega)

theorem mem_append {d : Deque α n} {x y : α} (h : y∈(d.append x).items) : y∈d.items ∨ y=x := by
  rw [items_append] at h
  simpa using List.mem_of_mem_drop h

theorem mem_append_self (d : Deque α n) (x : α) (hn : 0 < n) : x∈(d.append x).items := by
  have h := d.length_le
  have hle : d.items.length+1-n ≤ d.items.length := by omega
  rw [items_append, List.drop_append_of_le_length hle]
  exact List.mem_append_right _ (List.mem_singleton.mpr rfl)

/-- What was in the queue stays, or was the first element of a full one. -/
theorem mem_items_append {d : Deque α n} {y : α} (h : y∈d.items) (x : α) :
    y∈(d.append x).items ∨ (n ≤ d.items.length ∧ y∈d.items.take 1) := by
  by_cases hlt : d.items.length < n
  · rw [items_append_of_lt hlt]
    exact Or.inl (List.mem_append_left _ h)
  · have hlen := d.length_le
    have hone : d.items.length+1-n=1 := by omega
    rw [← List.take_append_drop 1 d.items] at h
    cases List.mem_append.mp h with
    | inl hfirst => exact Or.inr ⟨by omega, hfirst⟩
    | inr hrest =>
      refine Or.inl ?_
      rw [items_append, hone]
      cases hd : d.items with
      | nil => simp [hd] at hrest
      | cons z zs =>
        rw [hd] at hrest
        exact List.mem_append_left _ hrest

theorem mem_appendleft {d : Deque α n} {x y : α} (h : y∈(d.appendleft x).items) :
    y∈d.items ∨ y=x := by
  cases List.mem_cons.mp (List.mem_of_mem_take h) with
  | inl he => exact Or.inr he
  | inr hy => exact Or.inl hy

def replaceleft (d : Deque α n) (x : α) : Deque α n :=
  (if n ≤ d.items.length then d.popleft else d).appendleft x

def prepend (d : Deque α n) (xs : List α) : Deque α n := xs.reverse.foldl replaceleft d

theorem prepend_cons (d : Deque α n) (x : α) (xs : List α) :
    d.prepend (x::xs)=(d.prepend xs).replaceleft x := by
  rw [prepend, List.reverse_cons, List.foldl_append]
  rfl

theorem items_replaceleft (d : Deque α n) (x : α) (hn : 0 < n) :
    (d.replaceleft x).items=x::d.items.drop (d.items.length+1-n) := by
  have h := d.length_le
  by_cases hfull : n ≤ d.items.length
  · have hone : d.items.length+1-n=1 := by omega
    have hlen : (x::d.items.tail).length ≤ n := by
      rw [List.length_cons, List.length_tail]
      omega
    rw [replaceleft, if_pos hfull, hone, List.drop_one, appendleft]
    exact List.take_of_length_le hlen
  · have hzero : d.items.length+1-n=0 := by omega
    rw [replaceleft, if_neg hfull, hzero, List.drop_zero]
    exact items_appendleft_of_lt (by omega) x

theorem items_prepend_of_fits {d : Deque α n} {xs : List α} (h : xs.length+d.items.length ≤ n) :
    (d.prepend xs).items=xs++d.items := by
  induction xs with
  | nil => rfl
  | cons x xs ih =>
    rw [List.length_cons] at h
    have hrest := ih (by omega)
    have hzero : (xs++d.items).length+1-n=0 := by
      rw [List.length_append]
      omega
    rw [prepend_cons, items_replaceleft _ x (by omega), hrest, hzero, List.drop_zero,
      List.cons_append]

/-- Of more than fit the first one stays, and the last ones that find room behind it. -/
theorem items_prepend_of_full {d : Deque α n} {x : α} {xs : List α} (hn : 0 < n)
    (h : n < (x::xs).length+d.items.length) :
    (d.prepend (x::xs)).items=x::(xs++d.items).drop ((x::xs).length+d.items.length-n) := by
  induction xs generalizing x with
  | nil =>
    have hd := d.length_le
    rw [prepend_cons, items_replaceleft _ x hn]
    rw [List.length_singleton, Nat.add_comm, List.nil_append]
    rfl
  | cons y ys ih =>
    rw [prepend_cons, items_replaceleft _ x hn]
    by_cases hfit : (y::ys).length+d.items.length ≤ n
    · have hlen : (y::ys++d.items).length+1-n=(x::y::ys).length+d.items.length-n := by
        simp only [List.length_append, List.length_cons]
        omega
      rw [items_prepend_of_fits hfit, hlen]
    · have hrest := ih (x := y) (by omega)
      have hd := d.length_le
      have hlen : (d.prepend (y::ys)).items.length=n := by
        rw [hrest]
        simp only [List.length_cons, List.length_drop, List.length_append] at hfit ⊢
        omega
      have hone : (d.prepend (y::ys)).items.length+1-n=1 := by omega
      have hdrop : (x::y::ys).length+d.items.length-n=(y::ys).length+d.items.length-n+1 := by
        simp only [List.length_cons] at hfit ⊢
        omega
      rw [hone, hrest, hdrop, List.cons_append, List.drop_succ_cons, List.drop_succ_cons,
        List.drop_zero]

/-- The queue holds the last elements exactly if all fit, or the first one put back is equal to the
one whose place it takes. -/
theorem prepend_newest_iff (d : Deque α n) (x : α) (xs : List α) (hn : 0 < n) :
    (d.prepend (x::xs)).items=(x::xs++d.items).drop ((x::xs).length+d.items.length-n) ↔
      (x::xs).length+d.items.length ≤ n ∨
        some x=(x::xs++d.items)[(x::xs).length+d.items.length-n]? := by
  by_cases hfit : (x::xs).length+d.items.length ≤ n
  · have hzero : (x::xs).length+d.items.length-n=0 := by omega
    rw [items_prepend_of_fits hfit, hzero, List.drop_zero]
    exact ⟨fun _ => Or.inl hfit, fun _ => rfl⟩
  · obtain ⟨k, hk⟩ : ∃ k, (x::xs).length+d.items.length-n=k+1 :=
      Nat.exists_eq_add_one.mpr (by omega)
    have hlt : k+1 < (x::xs++d.items).length := by
      rw [List.length_append]
      omega
    have hrest : (x::xs++d.items).drop (k+1+1)=(xs++d.items).drop (k+1) := by
      rw [List.cons_append, List.drop_succ_cons]
    rw [items_prepend_of_full hn (by omega), hk, List.drop_eq_getElem_cons hlt,
      List.getElem?_eq_getElem hlt, hrest]
    simp only [List.cons.injEq, and_true, Option.some.injEq, hfit, false_or]

end Deque
end Sovereign
