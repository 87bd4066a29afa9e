import Sovereign.Buckets
import Sovereign.Dict
import Sovereign.Sorting
import Sovereign.Text
import Sovereign.Traverse
import Mathlib.Algebra.Order.Ring.Rat
import Mathlib.Data.List.Lex
import Mathlib.Data.List.Sort
import Mathlib.Data.Prod.Lex
import Mathlib.Data.String.Basic
import Mathlib.Order.WithBot

/-! The metrics registry: labelled counters and histograms, rendered as text. A histogram tallies
each value at one edge; its text counts, edge by edge, all values up to it. -/
namespace Sovereign.Metrics

def nameRe : List Char := "abcdefghijklmnopqrstuvwxyzABCDEFGHIJKLMNOPQRSTUVWXYZ0123456789_:".toList

def sanitize (name : String) : String :=
  String.ofList (name.toList.map fun c => if c∈nameRe then c else '_')

def labelValue (value : String) : String :=
  String.ofList (Text.replace '"' ['\\', '"']
    (Text.replace '\n' ['\\', 'n'] (Text.replace '\\' ['\\', '\\'] value.toList)))

abbrev Labels := Dict String String

abbrev Key := List (String × String)

def key (labels : Labels) : Key := labels.entries.insertionSort fun p q => toLex p ≤ toLex q

def pairText (p : String × String) : String := sanitize p.1 ++ "=\"" ++ labelValue p.2 ++ "\""

def renderLabels (key : Key) (extra : Option (String × String) := none) : String :=
  let pairs := (key ++ extra.toList).map pairText
  if pairs=[] then "" else "\x7b" ++ String.intercalate "," pairs ++ "\x7d"

/-- `_fmt`; `repr` writes a number that is no integer. -/
def fmt (repr : ℚ → String) (value : ℚ) : String :=
  if value.den=1 then toString value.num else repr value

abbrev Edge := WithBot (WithTop ℚ)

def fmtEdge (repr : ℚ → String) : Edge → String
  | none => "-inf"
  | some none => "inf"
  | some (some value) => fmt repr value

/-- Keys are sorted as tuples of pairs. -/
def keyLe (k k' : Key) : Prop := k.map toLex ≤ k'.map toLex

instance : DecidableRel keyLe := fun k k' =>
  inferInstanceAs (Decidable (k.map toLex ≤ k'.map toLex))

def joinLines (out : List String) : String := String.intercalate "\n" out ++ "\n"

def header (name help kind : String) : List String :=
  ["# HELP " ++ name ++ " " ++ help, "# TYPE " ++ name ++ " " ++ kind]

structure Counter where
  name : String
  help : String
  values : Dict Key ℚ := Dict.empty

def Counter.new (name helpText : String) : Counter := { name := sanitize name, help := helpText }

def Counter.inc (c : Counter) (labels : Labels) (amount : ℚ := 1) : Counter :=
  { c with values := c.values.set (key labels) ((c.values.get (key labels)).getD 0+amount) }

def Counter.render (repr : ℚ → String) (c : Counter) : String :=
  joinLines (header c.name c.help "counter" ++
    (c.values.entries.insertionSort fun x y => keyLe x.1 y.1).map fun x =>
      c.name ++ renderLabels x.1 ++ " " ++ fmt repr x.2)

def AtMost (value : ℚ) (edge : Edge) : Prop := ((value : WithTop ℚ) : Edge) ≤ edge

instance : DecidableRel AtMost := fun value edge =>
  inferInstanceAs (Decidable (((value : WithTop ℚ) : Edge) ≤ edge))

structure Histogram where
  name : String
  help : String
  buckets : List Edge
  counts : Dict Key (List Nat) := Dict.empty
  sum : Dict Key ℚ := Dict.empty
  total : Dict Key Nat := Dict.empty

def Histogram.new (name helpText : String) (buckets : List Edge) : Histogram :=
  { name := sanitize name, help := helpText, buckets := buckets.insertionSort (· ≤ ·) }

namespace Histogram
variable (repr : ℚ → String) (h : Histogram)

/-- Only the smallest edge that the value does not exceed is tallied. -/
def observe (value : ℚ) (labels : Labels) : Histogram :=
  let k := key labels
  let counts := (h.counts.get k).getD (List.replicate h.buckets.length 0)
  { h with
    counts := h.counts.set k (Buckets.tally AtMost value h.buckets counts)
    sum := h.sum.set k ((h.sum.get k).getD 0+value)
    total := h.total.set k ((h.total.get k).getD 0+1) }

def bucketLine (name : String) (k : Key) (le : String) (n : Nat) : String :=
  name ++ "_bucket" ++ renderLabels k (some ("le", le)) ++ " " ++ toString n

/-- The lines of one label set; `none` is a `KeyError`, or the `ValueError` of a strict `zip`. -/
def block (k : Key) : Option (List String) := do
  let counts ← h.counts.get k
  guard (h.buckets.length=counts.length)
  let total ← h.total.get k
  let sum ← h.sum.get k
  return (h.buckets.zip (Buckets.running 0 counts)).map (fun x =>
      bucketLine h.name k (fmtEdge repr x.1) x.2) ++
    [bucketLine h.name k "+Inf" total,
      h.name ++ "_sum" ++ renderLabels k ++ " " ++ fmt repr sum,
      h.name ++ "_count" ++ renderLabels k ++ " " ++ toString total]

def render : Option String := do
  let blocks ← (h.counts.keys.insertionSort keyLe).mapM (h.block repr)
  return joinLines (header h.name h.help "histogram" ++ blocks.flatten)

end Histogram

section Observations
variable {repr : ℚ → String} {h : Histogram} {obs : List (ℚ × Labels)}

def Histogram.observeAll (h : Histogram) (obs : List (ℚ × Labels)) : Histogram :=
  obs.foldl (fun h o => h.observe o.1 o.2) h

def keyOf (o : ℚ × Labels) : Key := key o.2

def valuesAt (obs : List (ℚ × Labels)) (k : Key) : List ℚ :=
  (obs.filter fun o => decide (keyOf o=k)).map Prod.fst

def series (repr : ℚ → String) (h : Histogram) (k : Key) (values : List ℚ) : List String :=
  h.buckets.map (fun edge => Histogram.bucketLine h.name k (fmtEdge repr edge)
      (Buckets.count AtMost values edge)) ++
    [Histogram.bucketLine h.name k "+Inf" values.length,
      h.name ++ "_sum" ++ renderLabels k ++ " " ++ fmt repr values.sum,
      h.name ++ "_count" ++ renderLabels k ++ " " ++ toString values.length]

theorem observeAll_eq (h : Histogram) (obs : List (ℚ × Labels)) :
    h.observeAll obs=
      { h with
        counts := obs.foldl (Dict.update keyOf (List.replicate h.buckets.length 0)
          fun counts o => Buckets.tally AtMost o.1 h.buckets counts) h.counts
        sum := obs.foldl (Dict.addTo keyOf Prod.fst) h.sum
        total := obs.foldl (Dict.addTo keyOf fun _ => 1) h.total } := by
  induction obs generalizing h with
  | nil => rfl
  | cons o obs ih => exact ih (h.observe o.1 o.2)

theorem new_ascending (name helpText : String) (buckets : List Edge) :
    Buckets.Ascending AtMost (Histogram.new name helpText buckets).buckets :=
  (List.pairwise_insertionSort (· ≤ ·) buckets).imp fun hle _ hv => le_trans hv hle

section Key
variable (name helpText : String) (buckets : List Edge) {k : Key}

theorem counts_observeAll (hk : k∈obs.map keyOf) :
    ((Histogram.new name helpText buckets).observeAll obs).counts.get k=
      some ((valuesAt obs k).foldl (fun counts v => Buckets.tally AtMost v
        (Histogram.new name helpText buckets).buckets counts)
        (List.replicate (Histogram.new name helpText buckets).buckets.length 0)) := by
  rw [observeAll_eq, valuesAt, List.foldl_map]
  exact (Dict.get_foldl_update_empty keyOf _ _ obs k).trans (if_pos hk)

theorem mem_keys_observeAll :
    k∈((Histogram.new name helpText buckets).observeAll obs).counts.keys ↔ k∈obs.map keyOf := by
  constructor
  · intro h
    by_contra hk
    refine Dict.get_eq_none_iff.mp ?_ h
    rw [observeAll_eq]
    exact (Dict.get_foldl_update_empty keyOf _ _ obs k).trans (if_neg hk)
  · intro hk
    by_contra h
    have hnone := Dict.get_eq_none_iff.mpr h
    rw [counts_observeAll name helpText buckets hk] at hnone
    cases hnone

variable (hk : k∈obs.map keyOf)
include hk

theorem sum_observeAll :
    ((Histogram.new name helpText buckets).observeAll obs).sum.get k=some (valuesAt obs k).sum := by
  rw [observeAll_eq]
  exact (Dict.get_tally keyOf Prod.fst obs k).trans (if_pos hk)

theorem total_observeAll :
    ((Histogram.new name helpText buckets).observeAll obs).total.get k=
      some (valuesAt obs k).length := by
  rw [observeAll_eq, valuesAt, List.length_map]
  refine (Dict.get_tally keyOf (fun _ => 1) obs k).trans ((if_pos hk).trans ?_)
  rw [List.map_const', List.sum_replicate, Nat.nsmul_eq_mul, Nat.mul_one]

theorem block_observeAll :
    ((Histogram.new name helpText buckets).observeAll obs).block repr k=
      some (series repr (Histogram.new name helpText buckets) k (valuesAt obs k)) := by
  have hname : ((Histogram.new name helpText buckets).observeAll obs).name=
      (Histogram.new name helpText buckets).name := by
    rw [observeAll_eq]
  have hbuckets : ((Histogram.new name helpText buckets).observeAll obs).buckets=
      (Histogram.new name helpText buckets).buckets := by
    rw [observeAll_eq]
  have hcounts := counts_observeAll name helpText buckets hk
  have hrunning := Buckets.running_tallies (new_ascending name helpText buckets) (valuesAt obs k)
  have hlength := Buckets.length_tallies AtMost (Histogram.new name helpText buckets).buckets
    (valuesAt obs k) (List.replicate (Histogram.new name helpText buckets).buckets.length 0)
  rw [List.length_replicate] at hlength
  generalize (valuesAt obs k).foldl _ _=counts at hcounts hrunning hlength
  simp only [Histogram.block, hcounts, sum_observeAll name helpText buckets hk,
    total_observeAll name helpText buckets hk, hname, hbuckets, Option.bind_eq_bind,
    Option.bind_some, guard]
  rw [if_pos hlength.symm, hrunning, ← List.map_prod_left_eq_zip, List.map_map]
  rfl

end Key

theorem sorted_keys {keys : List Key} (h : keys.Nodup) :
    (keys.insertionSort keyLe).Pairwise fun k k' => keyLe k k' ∧ k≠k' := by
  have hsorted : (keys.insertionSort keyLe).Pairwise keyLe :=
    Sorting.sorted_by (fun k : Key => k.map toLex) keys
  exact hsorted.and ((List.perm_insertionSort keyLe keys).nodup_iff.mpr h)

theorem render_observeAll (name helpText : String) (buckets : List Edge) {keys : List Key}
    (hkeys : keys=((Histogram.new name helpText buckets).observeAll obs).counts.keys.insertionSort
      keyLe) : ((Histogram.new name helpText buckets).observeAll obs).render repr=
        some (joinLines (header (sanitize name) helpText "histogram" ++ keys.flatMap fun k =>
          series repr (Histogram.new name helpText buckets) k (valuesAt obs k))) := by
  have hblock : ∀ k∈keys, ((Histogram.new name helpText buckets).observeAll obs).block repr k=
      some (series repr (Histogram.new name helpText buckets) k (valuesAt obs k)) := by
    intro k hk
    rw [hkeys, List.mem_insertionSort] at hk
    exact block_observeAll name helpText buckets ((mem_keys_observeAll name helpText buckets).mp hk)
  have hname : ((Histogram.new name helpText buckets).observeAll obs).name=sanitize name ∧
      ((Histogram.new name helpText buckets).observeAll obs).help=helpText := by
    rw [observeAll_eq]
    exact ⟨rfl, rfl⟩
  rw [Histogram.render, ← hkeys, Traverse.mapM_eq_map hblock, hname.1, hname.2, List.flatMap_def]
  rfl

/-- Over every sequence of observations the text tells, label set by label set and edge by edge,
how many values are at most the edge, then how many there are and their sum; the numbers rise to
the whole, and values under other labels do not count. -/
theorem histogram_cumulative (repr : ℚ → String) (name helpText : String) (buckets : List Edge)
    (obs : List (ℚ × Labels)) :
    (∃ keys : List Key, keys.Pairwise (fun k k' => keyLe k k' ∧ k≠k') ∧
      (∀ k, k∈keys ↔ k∈obs.map keyOf) ∧
      ((Histogram.new name helpText buckets).observeAll obs).render repr=
        some (joinLines (header (sanitize name) helpText "histogram" ++ keys.flatMap fun k =>
          series repr (Histogram.new name helpText buckets) k (valuesAt obs k)))) ∧
    ((Histogram.new name helpText buckets).buckets.Pairwise (· ≤ ·) ∧
      (Histogram.new name helpText buckets).buckets.Perm buckets) ∧
    (∀ k, ((Histogram.new name helpText buckets).buckets.map
        (Buckets.count AtMost (valuesAt obs k))).Pairwise (· ≤ ·) ∧
      ∀ edge, Buckets.count AtMost (valuesAt obs k) edge ≤ (valuesAt obs k).length) ∧
    ∀ k o before after, keyOf o≠k →
      valuesAt (before++o::after) k=valuesAt (before++after) k := by
  refine ⟨⟨_, sorted_keys ((Histogram.new name helpText buckets).observeAll obs).counts.nodup, ?_,
    render_observeAll name helpText buckets rfl⟩,
    ⟨List.pairwise_insertionSort _ _, List.perm_insertionSort _ _⟩, ?_, ?_⟩
  · intro k
    rw [List.mem_insertionSort]
    exact mem_keys_observeAll name helpText buckets
  · intro k
    refine ⟨?_, Buckets.count_le_length (valuesAt obs k)⟩
    exact List.pairwise_map.mpr ((new_ascending name helpText buckets).imp fun h =>
      Buckets.count_mono h (valuesAt obs k))
  · intro k o before after ho
    rw [valuesAt, valuesAt, List.filter_append, List.filter_append,
      List.filter_cons_of_neg (by simpa using ho)]

end Observations
end Sovereign.Metrics
