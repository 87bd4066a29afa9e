import Mathlib.Logic.Relation
import Mathlib.Data.List.Chain
import Mathlib.Data.List.Perm.Subperm
import Mathlib.Tactic.Linarith

/-! Walks that mark what they have met: along a partial successor function, and depth
first over lists of successors. On every finite graph, with or without cycles, both stop
and meet exactly what is reachable. -/
namespace Sovereign.Walk
open Relation
variable {κ : Type*}

section Follow
variable [DecidableEq κ] (next : κ → Option κ)

def follow : Nat → κ → List κ → List κ
  | 0, _, _ => []
  | n+1, x, seen =>
    match next x with
    | none => []
    | some y => if y∈seen then [] else y::follow n y (y::seen)

def Edge (x y : κ) : Prop := next x=some y

variable {next}

theorem follow_reachable {n : Nat} {x z : κ} {seen : List κ} (h : z∈follow next n x seen) :
    TransGen (Edge next) x z := by
  induction n generalizing x seen with
  | zero => simp [follow] at h
  | succ n ih =>
    simp only [follow] at h
    split at h
    · simp at h
    · next y hy =>
      split at h
      · simp at h
      · cases List.mem_cons.mp h with
        | inl he => exact he ▸ TransGen.single hy
        | inr hz => exact TransGen.head hy (ih hz)

/-- The nodes a walk has left, all it has seen but the node `x` it stands at, have their
successor in `seen`. -/
def Left (next : κ → Option κ) (seen : List κ) (x : κ) : Prop :=
  ∀ s∈seen, s≠x → ∀ y, next s=some y → y∈seen

theorem Left.move {seen : List κ} {x z : κ} (h : Left next seen x) (hz : next x=some z) :
    Left next (z::seen) z := by
  intro w hw hwz v hv
  by_cases hwx : w=x
  · rw [hwx, hz] at hv
    cases hv
    exact List.mem_cons_self
  · have hws : w∈seen := (List.mem_cons.mp hw).resolve_left hwz
    exact List.mem_cons_of_mem z (h w hws hwx v hv)

/-- What a walk has seen and meets is closed under successors. -/
theorem follow_closed {U : List κ} (hU : ∀ x y, next x=some y → y∈U) {n : Nat} {x : κ}
    {seen : List κ} (hn : seen.Nodup) (hs : seen⊆U) (hl : U.length < n+seen.length)
    (hc : Left next seen x) {s y : κ}
    (h : s=x ∨ s∈seen++follow next n x seen) (hy : next s=some y) :
    y∈seen++follow next n x seen := by
  induction n generalizing x seen with
  | zero =>
    have hle : seen.length≤U.length := (List.subperm_of_subset hn hs).length_le
    omega
  | succ n ih =>
    simp only [follow] at h ⊢
    split at h
    · next hx =>
      have hsx : s≠x := by
        intro he
        rw [he, hx] at hy
        cases hy
      have hm : s∈seen := by simpa using h.resolve_left hsx
      simpa using hc s hm hsx y hy
    · next z hz =>
      by_cases hzs : z∈seen
      · simp only [if_pos hzs, List.append_nil] at h ⊢
        by_cases hsx : s=x
        · rw [hsx, hz] at hy
          cases hy
          exact hzs
        · exact hc s (h.resolve_left hsx) hsx y hy
      · simp only [if_neg hzs] at h ⊢
        have hmove : ∀ w, w∈seen++z::follow next n z (z::seen) ↔
            w∈(z::seen)++follow next n z (z::seen) := fun w => List.perm_middle.mem_iff
        rw [hmove]
        by_cases hsx : s=x
        · rw [hsx, hz] at hy
          cases hy
          simp
        · refine ih (List.nodup_cons.mpr ⟨hzs, hn⟩) (List.cons_subset.mpr ⟨hU x z hz, hs⟩) ?_
            (hc.move hz) (Or.inr ((hmove s).mp (h.resolve_left hsx)))
          simp only [List.length_cons]
          omega

/-- With more turns than there are nodes, the walk meets exactly what can be reached. -/
theorem mem_follow {U : List κ} (hU : ∀ x y, next x=some y → y∈U) {n : Nat}
    (hl : U.length < n) (x z : κ) : z∈follow next n x [] ↔ TransGen (Edge next) x z := by
  constructor
  · exact follow_reachable
  · intro h
    have hclosed : ∀ s y, s=x ∨ s∈follow next n x [] → next s=some y → y∈follow next n x [] := by
      intro s y hs hy
      have hm := follow_closed hU (n := n) (x := x) List.nodup_nil (by simp) (by simpa using hl)
        (by simp [Left]) (s := s) (y := y) (by simpa using hs) hy
      simpa using hm
    induction h with
    | single hy => exact hclosed x _ (Or.inl rfl) hy
    | tail _ hy ih => exact hclosed _ _ (Or.inr ih) hy

variable (next) in
theorem follow_chain (n : Nat) (x : κ) (seen : List κ) :
    (x::follow next n x seen).IsChain (Edge next) := by
  induction n generalizing x seen with
  | zero => exact List.isChain_singleton x
  | succ n ih =>
    simp only [follow]
    split
    · exact List.isChain_singleton x
    · next y hy =>
      split
      · exact List.isChain_singleton x
      · exact List.isChain_cons_cons.mpr ⟨hy, ih y (y::seen)⟩

theorem follow_nodup (n : Nat) (x : κ) (seen : List κ) :
    (follow next n x seen).Nodup ∧ ∀ y∈follow next n x seen, y∉seen := by
  induction n generalizing x seen with
  | zero => simp [follow]
  | succ n ih =>
    simp only [follow]
    split
    · simp
    · next y hy =>
      split
      · simp
      · next hs =>
        obtain ⟨hnodup, hfresh⟩ := ih y (y::seen)
        constructor
        · exact List.nodup_cons.mpr ⟨fun hm => hfresh y hm List.mem_cons_self, hnodup⟩
        · intro z hz
          cases List.mem_cons.mp hz with
          | inl he => exact he ▸ hs
          | inr hz => exact fun hm => hfresh z hz (List.mem_cons_of_mem y hm)

omit [DecidableEq κ] in
theorem chain_to_last {R : κ → κ → Prop} {xs : List κ} (h : xs.IsChain R) {z : κ}
    (hz : z∈xs.getLast?) : ∀ y∈xs, ReflTransGen R y z := by
  refine h.backwards_induction (ReflTransGen R · z) xs (fun _ _ => ReflTransGen.head) ?_
  intro hne
  rw [List.getLast_of_mem_getLast? hz]

/-- Without a cycle the walk goes on to a node without a successor. -/
theorem follow_last {U : List κ} (hU : ∀ x y, next x=some y → y∈U) {n : Nat}
    (hl : U.length < n) {x z : κ} (hz : z∈(x::follow next n x []).getLast?)
    (hacyclic : ∀ y, ¬ TransGen (Edge next) y y) : next z=none := by
  rw [Option.eq_none_iff_forall_ne_some]
  intro y hy
  have hchain := chain_to_last (follow_chain next n x []) hz
  have hxz : ReflTransGen (Edge next) x z := hchain x List.mem_cons_self
  have hy' : y∈follow next n x [] := (mem_follow hU hl x y).mpr (TransGen.tail' hxz hy)
  exact hacyclic z (TransGen.head' hy (hchain y (List.mem_cons_of_mem x hy')))

end Follow

section Search
variable {α : Type*} (key : α → κ) (children : κ → List α)

/-- Depth first from a stack whose top is at the head. -/
def search [DecidableEq κ] : Nat → List α → List κ → List α
  | 0, _, _ => []
  | _+1, [], _ => []
  | n+1, x::stack, seen =>
    if key x∈seen then search n stack seen
    else x::search n ((children (key x)).reverse++stack) (key x::seen)

def Child (a b : κ) : Prop := ∃ y∈children a, key y=b

variable {key children}

theorem search_reachable [DecidableEq κ] {n : Nat} {stack : List α} {seen : List κ} {z : α}
    (h : z∈search key children n stack seen) :
    ∃ s∈stack, ReflTransGen (Child key children) (key s) (key z) := by
  induction n generalizing stack seen with
  | zero => simp [search] at h
  | succ n ih =>
    cases stack with
    | nil => simp [search] at h
    | cons x stack =>
      simp only [search] at h
      split at h
      · obtain ⟨s, hs, hr⟩ := ih h
        exact ⟨s, List.mem_cons_of_mem x hs, hr⟩
      · cases List.mem_cons.mp h with
        | inl he => exact ⟨x, List.mem_cons_self, he ▸ ReflTransGen.refl⟩
        | inr hz =>
          obtain ⟨s, hs, hr⟩ := ih hz
          cases List.mem_append.mp hs with
          | inl hc =>
            exact ⟨x, List.mem_cons_self,
              ReflTransGen.head ⟨s, List.mem_reverse.mp hc, rfl⟩ hr⟩
          | inr hs => exact ⟨s, List.mem_cons_of_mem x hs, hr⟩

theorem search_subset [DecidableEq κ] {U : List α} (hU : ∀ a, children a⊆U) {n : Nat}
    {stack : List α} {seen : List κ} (hs : stack⊆U) : search key children n stack seen⊆U := by
  induction n generalizing stack seen with
  | zero => exact List.nil_subset U
  | succ n ih =>
    cases stack with
    | nil => exact List.nil_subset U
    | cons x stack =>
      obtain ⟨hx, hs⟩ := List.cons_subset.mp hs
      simp only [search]
      split
      · exact ih hs
      · refine List.cons_subset.mpr ⟨hx, ih (List.append_subset.mpr ⟨?_, hs⟩)⟩
        exact List.reverse_subset.mpr (hU (key x))

theorem search_nodup [DecidableEq κ] (n : Nat) (stack : List α) (seen : List κ) :
    ((search key children n stack seen).map key).Nodup ∧
      ∀ x∈search key children n stack seen, key x∉seen := by
  induction n generalizing stack seen with
  | zero => simp [search]
  | succ n ih =>
    cases stack with
    | nil => simp [search]
    | cons x stack =>
      simp only [search]
      split
      · exact ih stack seen
      · next hs =>
        obtain ⟨hnodup, hfresh⟩ := ih ((children (key x)).reverse++stack) (key x::seen)
        constructor
        · refine List.nodup_cons.mpr ⟨?_, hnodup⟩
          intro hm
          obtain ⟨y, hy, he⟩ := List.mem_map.mp hm
          exact hfresh y hy (he ▸ List.mem_cons_self)
        · intro z hz
          cases List.mem_cons.mp hz with
          | inl he => exact he ▸ hs
          | inr hz => exact fun hm => hfresh z hz (List.mem_cons_of_mem _ hm)

/-- What bounds the turns of a search: every turn takes one element off the stack, and at
most `U.length` of them put at most `B` back. -/
structure Bounded (key : α → κ) (children : κ → List α) (U : List κ) (B n : Nat)
    (stack : List α) (seen : List κ) : Prop where
  nodup : seen.Nodup
  seen_subset : seen⊆U
  stack_mem : ∀ s∈stack, key s∈U
  child_mem : ∀ a, ∀ y∈children a, key y∈U
  child_length : ∀ a, (children a).length≤B
  turns : stack.length+U.length*B ≤ n+seen.length*B

section Turns
variable {U : List κ} {B n : Nat} {x : α} {stack : List α} {seen : List κ}

theorem Bounded.stack_nil (h : Bounded key children U B 0 stack seen) : stack=[] := by
  have hle : seen.length≤U.length := (List.subperm_of_subset h.nodup h.seen_subset).length_le
  have hmul : seen.length*B≤U.length*B := Nat.mul_le_mul_right B hle
  have ht := h.turns
  exact List.length_eq_zero_iff.mp (by omega)

theorem Bounded.skip (h : Bounded key children U B (n+1) (x::stack) seen) :
    Bounded key children U B n stack seen where
  nodup := h.nodup
  seen_subset := h.seen_subset
  stack_mem := fun s hs => h.stack_mem s (List.mem_cons_of_mem x hs)
  child_mem := h.child_mem
  child_length := h.child_length
  turns := by
    have ht := h.turns
    simp only [List.length_cons] at ht
    omega

theorem Bounded.expand (h : Bounded key children U B (n+1) (x::stack) seen)
    (hx : key x∉seen) :
    Bounded key children U B n ((children (key x)).reverse++stack) (key x::seen) where
  nodup := List.nodup_cons.mpr ⟨hx, h.nodup⟩
  seen_subset := List.cons_subset.mpr ⟨h.stack_mem x List.mem_cons_self, h.seen_subset⟩
  stack_mem := by
    intro s hs
    cases List.mem_append.mp hs with
    | inl hc => exact h.child_mem (key x) s (List.mem_reverse.mp hc)
    | inr hs => exact h.stack_mem s (List.mem_cons_of_mem x hs)
  child_mem := h.child_mem
  child_length := h.child_length
  turns := by
    have ht := h.turns
    have hc := h.child_length (key x)
    simp only [List.length_cons, List.length_append, List.length_reverse] at ht ⊢
    rw [Nat.add_mul, Nat.one_mul]
    omega

/-- More turns change nothing: the search has stopped by itself. -/
theorem search_turns [DecidableEq κ] (h : Bounded key children U B n stack seen) (k : Nat) :
    search key children (n+k) stack seen=search key children n stack seen := by
  induction n generalizing stack seen with
  | zero =>
    rw [h.stack_nil]
    cases k <;> simp [search]
  | succ n ih =>
    rw [Nat.succ_add]
    cases stack with
    | nil => rfl
    | cons x stack =>
      simp only [search]
      by_cases hx : key x∈seen
      · simp only [if_pos hx]
        exact ih h.skip
      · simp only [if_neg hx]
        exact congrArg (x::·) (ih (h.expand hx))

def Frontier (key : α → κ) (children : κ → List α) (stack : List α) (seen : List κ) : Prop :=
  ∀ a∈seen, ∀ y∈children a, key y∈seen ∨ ∃ s∈stack, key s=key y

theorem Frontier.skip (h : Frontier key children (x::stack) seen) (hx : key x∈seen) :
    Frontier key children stack seen := by
  intro a ha y hy
  obtain hm | ⟨s, hs, he⟩ := h a ha y hy
  · exact Or.inl hm
  · cases List.mem_cons.mp hs with
    | inl hsx => exact Or.inl (he ▸ hsx ▸ hx)
    | inr hs => exact Or.inr ⟨s, hs, he⟩

theorem Frontier.expand (h : Frontier key children (x::stack) seen) :
    Frontier key children ((children (key x)).reverse++stack) (key x::seen) := by
  intro a ha y hy
  cases List.mem_cons.mp ha with
  | inl hax =>
    exact Or.inr ⟨y, List.mem_append_left _ (List.mem_reverse.mpr (hax ▸ hy)), rfl⟩
  | inr ha =>
    obtain hm | ⟨s, hs, he⟩ := h a ha y hy
    · exact Or.inl (List.mem_cons_of_mem _ hm)
    · cases List.mem_cons.mp hs with
      | inl hsx => exact Or.inl (he ▸ hsx ▸ List.mem_cons_self)
      | inr hs => exact Or.inr ⟨s, List.mem_append_right _ hs, he⟩

/-- A search leaves nothing of its stack out, and what it has seen or meets is closed
under successors. -/
theorem search_closed [DecidableEq κ] (h : Bounded key children U B n stack seen)
    (hc : Frontier key children stack seen) :
    (∀ s∈stack, key s∈seen++(search key children n stack seen).map key) ∧
    ∀ a∈seen++(search key children n stack seen).map key, ∀ y∈children a,
      key y∈seen++(search key children n stack seen).map key := by
  induction n generalizing stack seen with
  | zero =>
    have hnil := h.stack_nil
    subst hnil
    simpa [search, Frontier] using hc
  | succ n ih =>
    cases stack with
    | nil => simpa [search, Frontier] using hc
    | cons x stack =>
      simp only [search]
      by_cases hx : key x∈seen
      · simp only [if_pos hx]
        obtain ⟨hstack, hclosed⟩ := ih h.skip (hc.skip hx)
        refine ⟨?_, hclosed⟩
        intro s hs
        cases List.mem_cons.mp hs with
        | inl hsx => exact List.mem_append_left _ (hsx ▸ hx)
        | inr hs => exact hstack s hs
      · simp only [if_neg hx]
        have hmove : ∀ w (rest : List α), w∈seen++(x::rest).map key ↔
            w∈(key x::seen)++rest.map key := fun w rest => List.perm_middle.mem_iff
        obtain ⟨hstack, hclosed⟩ := ih (h.expand hx) hc.expand
        refine ⟨?_, ?_⟩
        · intro s hs
          rw [hmove]
          cases List.mem_cons.mp hs with
          | inl hsx => exact hsx ▸ List.mem_cons_self
          | inr hs => exact hstack s (List.mem_append_right _ hs)
        · intro a ha y hy
          rw [hmove] at ha ⊢
          exact hclosed a ha y hy

end Turns

/-- With enough turns the search meets exactly what can be reached from its stack. -/
theorem mem_search [DecidableEq κ] {U : List κ} {B n : Nat} {stack : List α}
    (h : Bounded key children U B n stack []) (k : κ) :
    k∈(search key children n stack []).map key ↔
      ∃ s∈stack, ReflTransGen (Child key children) (key s) k := by
  constructor
  · intro hk
    obtain ⟨z, hz, rfl⟩ := List.mem_map.mp hk
    exact search_reachable hz
  · rintro ⟨s, hs, hr⟩
    obtain ⟨hstack, hclosed⟩ := search_closed h (by simp [Frontier])
    simp only [List.nil_append] at hstack hclosed
    induction hr with
    | refl => exact hstack s hs
    | tail _ hab ih =>
      obtain ⟨y, hy, rfl⟩ := hab
      exact hclosed _ ih y hy

/-- Two searches agree when their successors do on a closed set that holds the stack. -/
theorem search_congr [DecidableEq κ] {children' : κ → List α} {P : κ → Prop}
    (hagree : ∀ a, P a → children a=children' a) (hclosed : ∀ a, P a → ∀ y∈children a, P (key y))
    {n : Nat} {stack : List α} {seen : List κ} (hstack : ∀ s∈stack, P (key s)) :
    search key children n stack seen=search key children' n stack seen := by
  induction n generalizing stack seen with
  | zero => rfl
  | succ n ih =>
    cases stack with
    | nil => rfl
    | cons x stack =>
      have hx : P (key x) := hstack x List.mem_cons_self
      have hrest : ∀ s∈stack, P (key s) := fun s hs => hstack s (List.mem_cons_of_mem x hs)
      simp only [search]
      by_cases hs : key x∈seen
      · simp only [if_pos hs]
        exact ih hrest
      · simp only [if_neg hs, ← hagree (key x) hx]
        refine congrArg (x::·) (ih ?_)
        intro s hs
        cases List.mem_append.mp hs with
        | inl hc => exact hclosed (key x) hx s (List.mem_reverse.mp hc)
        | inr hs => exact hrest s hs

end Search
end Sovereign.Walk
