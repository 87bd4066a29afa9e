import Mathlib.Data.List.Count
import Mathlib.Data.List.Induction

/-! Tallies over bounds. A value is counted at the first bound it is within, and the running sums
of the tallies count, bound by bound, every value that is within. -/
namespace Sovereign.Buckets
variable {V E : Type*} (within : V → E → Prop) [DecidableRel within]

def tally (v : V) : List E → List Nat → List Nat
  | bound::bounds, c::counts =>
    if within v bound then (c+1)::counts else c::tally v bounds counts
  | _, counts => counts

def running (cumulative : Nat) : List Nat → List Nat
  | [] => []
  | c::counts => (cumulative+c)::running (cumulative+c) counts

def count (values : List V) (bound : E) : Nat := values.countP fun v => decide (within v bound)

def Ascending (bounds : List E) : Prop :=
  bounds.Pairwise fun bound bound' => ∀ v, within v bound → within v bound'

variable {within} {v : V} {values : List V} {bounds : List E} {counts : List Nat}

theorem length_tally (v : V) (bounds : List E) (counts : List Nat) :
    (tally within v bounds counts).length=counts.length := by
  induction bounds generalizing counts with
  | nil => rfl
  | cons bound bounds ih =>
    cases counts with
    | nil => rfl
    | cons c counts =>
      rw [tally]
      split
      · rfl
      · rw [List.length_cons, ih, List.length_cons]

theorem running_succ (cumulative : Nat) (counts : List Nat) :
    running (cumulative+1) counts=(running cumulative counts).map (·+1) := by
  induction counts generalizing cumulative with
  | nil => rfl
  | cons c counts ih =>
    rw [running, running, Nat.add_right_comm, ih, List.map_cons]

/-- One more value counts once more at every bound it is within. -/
theorem running_tally (h : Ascending within bounds) {cumulative : Nat} {f : E → Nat}
    (hf : running cumulative counts=bounds.map f) :
    running cumulative (tally within v bounds counts)=
      bounds.map fun bound => f bound+if within v bound then 1 else 0 := by
  induction bounds generalizing counts cumulative with
  | nil => exact hf
  | cons bound bounds ih =>
    cases counts with
    | nil => cases hf
    | cons c counts =>
      obtain ⟨hbound, hrest⟩ := List.pairwise_cons.mp h
      obtain ⟨hc, hf⟩ := List.cons.inj hf
      rw [tally]
      by_cases hv : within v bound
      · have hall : ∀ b∈bounds, f b+1=f b+if within v b then 1 else 0 := by
          intro b hb
          rw [if_pos (hbound b hb v hv)]
        rw [if_pos hv]
        calc
          running cumulative ((c+1)::counts)=
              (cumulative+c+1)::(running (cumulative+c) counts).map (·+1) := by
            rw [running, ← Nat.add_assoc, running_succ]
          _=(f bound+1)::bounds.map fun b => f b+1 := by rw [hf, hc, List.map_map]; rfl
          _=(f bound+1)::bounds.map fun b => f b+if within v b then 1 else 0 := by
            rw [List.map_congr_left hall]
          _=_ := by rw [List.map_cons, if_pos hv]
      · rw [if_neg hv, running, hc, List.map_cons, if_neg hv, ← hc]
        exact congrArg _ (ih hrest hf)

theorem running_replicate (n : Nat) : running 0 (List.replicate n 0)=List.replicate n 0 := by
  induction n with
  | zero => rfl
  | succ n ih => exact congrArg (0::·) ih

/-- Over any values the running sums of the tallies count those within each bound. -/
theorem running_tallies (h : Ascending within bounds) (values : List V) :
    running 0 (values.foldl (fun counts v => tally within v bounds counts)
      (List.replicate bounds.length 0))=bounds.map (count within values) := by
  induction values using List.reverseRecOn with
  | nil =>
    have hzero : bounds.map (count within [])=List.replicate bounds.length 0 := List.map_const'
    rw [List.foldl_nil, running_replicate, hzero]
  | append_singleton values v ih =>
    rw [List.foldl_append, List.foldl_cons, List.foldl_nil, running_tally h ih]
    refine List.map_congr_left fun bound _ => ?_
    rw [count, count, List.countP_append, List.countP_singleton]
    simp only [decide_eq_true_eq]

variable (within bounds) in
theorem length_tallies (values : List V) (counts : List Nat) :
    (values.foldl (fun counts v => tally within v bounds counts) counts).length=counts.length := by
  induction values generalizing counts with
  | nil => rfl
  | cons v values ih => rw [List.foldl_cons, ih, length_tally]

theorem count_le_length (values : List V) (bound : E) :
    count within values bound ≤ values.length := List.countP_le_length

theorem count_mono {bound bound' : E} (h : ∀ v, within v bound → within v bound')
    (values : List V) : count within values bound ≤ count within values bound' :=
  List.countP_mono_left fun v _ hv => decide_eq_true (h v (of_decide_eq_true hv))

end Sovereign.Buckets
