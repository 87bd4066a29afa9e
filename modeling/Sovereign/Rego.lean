import Sovereign.Json

/-! Partial-set rules of Rego. A rule `S contains head if body` contributes its
head value for each solution of the body under which every reference of the head
is defined; an undefined head contributes nothing. `sprintf` is the engine's own
built-in and stays a parameter. -/
namespace Sovereign.Rego
open Json

/-- An expression is satisfied when it is defined and not `false`. -/
def holds : Option Json → Bool
  | none => false
  | some (.bool false) => false
  | some _ => true

def count : Json → Option Nat
  | .arr items => some items.length
  | .obj members => some members.length
  | .str s => some s.length
  | _ => none

/-- What `some x in coll` ranges over. -/
def members : Json → List Json
  | .arr items => items
  | .obj members => members.map Prod.snd
  | _ => []

/-- `x in coll`; an undefined side makes the whole expression undefined. -/
def isIn : Option Json → Option Json → Bool
  | some x, some coll => decide (x∈members coll)
  | _, _ => false

/-- `coll[key]`: a member of an object or an element of an array. -/
def index : Option Json → Option Json → Option Json
  | some (.obj members), some (.str key) => Json.lookup key members
  | some (.arr items), some (.num n) => if n.den=1 ∧ 0 ≤ n.num then items[n.num.toNat]? else none
  | _, _ => none

def inSet (set : List String) : Option Json → Bool
  | some (.str x) => decide (x∈set)
  | _ => false

/- Values of different types compare by type: null, booleans, numbers, strings,
   arrays, objects. So a null or a boolean is below every number, and a string,
   an array or an object is above every number. -/
def ltNum (n : Rat) : Json → Bool
  | .null => true
  | .bool _ => true
  | .num m => decide (m < n)
  | _ => false

def gtNum (n : Rat) : Json → Bool
  | .null => false
  | .bool _ => false
  | .num m => decide (n < m)
  | _ => true

/-- A head refers to the input document or to a variable the body has bound. -/
inductive Term where
  | ref (path : List String)
  | var (index : Nat)
deriving DecidableEq

def Term.eval (doc : Json) (bound : List Json) : Term → Option Json
  | .ref p => Json.path p doc
  | .var i => bound[i]?

def evalTerms (doc : Json) (bound : List Json) : List Term → Option (List Json)
  | [] => some []
  | t::ts => (t.eval doc bound).bind fun v => (evalTerms doc bound ts).map (v::·)

inductive Head where
  | text (message : String)
  | sprintf (format : String) (args : List Term)
deriving DecidableEq

def Head.eval (sprintf : String → List Json → String) (doc : Json) (bound : List Json) :
    Head → Option String
  | .text message => some message
  | .sprintf format args => (evalTerms doc bound args).map (sprintf format)

/-- `body` lists, for each solution, the values of the rule's variables. -/
structure Rule where
  head : Head
  body : Json → List (List Json)

def Rule.bodyHolds (r : Rule) (doc : Json) : Prop := r.body doc≠[]

instance (r : Rule) (doc : Json) : Decidable (r.bodyHolds doc) :=
  inferInstanceAs (Decidable (r.body doc≠[]))

def Rule.values (sprintf : String → List Json → String) (r : Rule) (doc : Json) : List String :=
  (r.body doc).filterMap (r.head.eval sprintf doc)

def ruleSet (sprintf : String → List Json → String) (rules : List Rule) (doc : Json) :
    List String :=
  rules.flatMap fun r => r.values sprintf doc

def single (bound : Option (List Json)) : List (List Json) := bound.toList

theorem evalTerms_undefined (doc : Json) (bound : List Json) (p : List String)
    (hp : Json.path p doc=none) (ts : List Term) (h : Term.ref p∈ts) :
    evalTerms doc bound ts=none := by
  induction ts with
  | nil => simp at h
  | cons t ts ih =>
    obtain he | ht := List.mem_cons.mp h
    · subst he
      simp [evalTerms, Term.eval, hp]
    · cases hv : t.eval doc bound with
      | none => simp [evalTerms, hv]
      | some v => simp [evalTerms, hv, ih ht]

theorem evalTerms_defined (doc : Json) (bound : List Json) (ts : List Term)
    (h : ∀ t∈ts, (t.eval doc bound).isSome) : (evalTerms doc bound ts).isSome := by
  induction ts with
  | nil => rfl
  | cons t ts ih =>
    obtain ⟨v,hv⟩ := Option.isSome_iff_exists.mp (h t (by simp))
    obtain ⟨vs,hvs⟩ := Option.isSome_iff_exists.mp
      (ih (fun u hu => h u (List.mem_cons_of_mem t hu)))
    simp [evalTerms, hv, hvs]

/-- A rule whose head has an undefined reference contributes nothing, whether or
not its body holds. -/
theorem values_undefined_head (sprintf : String → List Json → String) (r : Rule)
    (doc : Json) (format : String) (args : List Term) (p : List String)
    (hh : r.head=.sprintf format args) (ha : Term.ref p∈args)
    (hp : Json.path p doc=none) : r.values sprintf doc=[] := by
  rw [Rule.values, List.filterMap_eq_nil_iff]
  intro bound _
  rw [hh, Head.eval, evalTerms_undefined doc bound p hp args ha]
  rfl

/-- A rule whose head is always defined contributes exactly when its body holds. -/
theorem values_eq_nil_iff (sprintf : String → List Json → String) (r : Rule) (doc : Json)
    (hd : ∀ bound∈r.body doc, (r.head.eval sprintf doc bound).isSome) :
    r.values sprintf doc=[] ↔ ¬ r.bodyHolds doc := by
  rw [Rule.values, List.filterMap_eq_nil_iff, Rule.bodyHolds, not_not]
  constructor
  · intro h
    by_contra hne
    obtain ⟨bound,hb⟩ := List.exists_mem_of_ne_nil _ hne
    have hs := hd bound hb
    rw [h bound hb] at hs
    simp at hs
  · intro h bound hb
    rw [h] at hb
    simp at hb

theorem ruleSet_eq_nil_iff (sprintf : String → List Json → String) (rules : List Rule)
    (doc : Json) :
    ruleSet sprintf rules doc=[] ↔ ∀ r∈rules, r.values sprintf doc=[] := by
  simp [ruleSet, List.flatMap_eq_nil_iff]

end Sovereign.Rego
