import Mathlib.Data.List.Dedup
import Mathlib.Data.List.DropRight
import Mathlib.Tactic.Linarith

/-! Python `str` operations the code uses, on lists of characters. Lower-casing is
ASCII: no character outside ASCII lowers to a letter of the words the results are
compared with. -/
namespace Sovereign.Text

def isSpace (c : Char) : Bool :=
  let n := c.toNat
  (9 ≤ n && n≤13) || (28 ≤ n && n≤32) || n==0x85 || n==0xA0 || n==0x1680 ||
    (0x2000 ≤ n && n≤0x200A) || n==0x2028 || n==0x2029 || n==0x202F || n==0x205F || n==0x3000

def strip (s : List Char) : List Char :=
  ((s.dropWhile isSpace).reverse.dropWhile isSpace).reverse

def lower (s : List Char) : List Char := s.map Char.toLower

def removePrefix (p s : List Char) : List Char :=
  if p.isPrefixOf s then s.drop p.length else s

def lstrip (c : Char) (s : List Char) : List Char := s.dropWhile fun d => decide (d=c)

def rstrip (c : Char) (s : List Char) : List Char := s.rdropWhile fun d => decide (d=c)

def replace (old : Char) (new s : List Char) : List Char :=
  s.flatMap fun c => if c=old then new else [c]

/-- The code points of the digit zero in the blocks of Unicode decimal digits, each
block holding ten consecutive digits. -/
def zeros : List Nat :=
  [0x30, 0x660, 0x6F0, 0x7C0, 0x966, 0x9E6, 0xA66, 0xAE6, 0xB66, 0xBE6, 0xC66, 0xCE6, 0xD66,
   0xDE6, 0xE50, 0xED0, 0xF20, 0x1040, 0x1090, 0x17E0, 0x1810, 0x1946, 0x19D0, 0x1A80, 0x1A90,
   0x1B50, 0x1BB0, 0x1C40, 0x1C50, 0xA620, 0xA8D0, 0xA900, 0xA9D0, 0xA9F0, 0xAA50, 0xABF0,
   0xFF10, 0x104A0, 0x10D30, 0x11066, 0x110F0, 0x11136, 0x111D0, 0x112F0, 0x11450, 0x114D0,
   0x11650, 0x116C0, 0x11730, 0x118E0, 0x11950, 0x11C50, 0x11D50, 0x11DA0, 0x11F50, 0x16A60,
   0x16AC0, 0x16B50, 0x1D7CE, 0x1D7D8, 0x1D7E2, 0x1D7EC, 0x1D7F6, 0x1E140, 0x1E2F0, 0x1E4F0,
   0x1E950, 0x1FBF0]

def digit (c : Char) : Option Nat :=
  (zeros.find? fun z => z ≤ c.toNat && c.toNat < z+10).map fun z => c.toNat-z

/-- Digits with single underscores between them, read after at least one digit. -/
def digitsFrom (acc : Nat) : List Char → Option Nat
  | [] => some acc
  | '_'::c::cs => (digit c).bind fun d => digitsFrom (10*acc+d) cs
  | c::cs => (digit c).bind fun d => digitsFrom (10*acc+d) cs

def digits : List Char → Option Nat
  | [] => none
  | c::cs =>
    -- the interpreter's limit on the number of digit characters
    if 4300<((c::cs).filter (· != '_')).length then none
    else (digit c).bind fun d => digitsFrom d cs

/-- The blanks that `int` takes around a number: not the separators U+001C to U+001F. -/
def isIntSpace (c : Char) : Bool := isSpace c && !(28 ≤ c.toNat && c.toNat≤31)

def stripInt (s : List Char) : List Char :=
  ((s.dropWhile isIntSpace).reverse.dropWhile isIntSpace).reverse

/-- `int(s)`; `none` is the `ValueError`. -/
def pyInt (s : String) : Option Int :=
  match stripInt s.toList with
  | '-'::cs => (digits cs).map fun n => -(n : Int)
  | '+'::cs => (digits cs).map fun n => (n : Int)
  | cs => (digits cs).map fun n => (n : Int)

instance lawfulText : LawfulBEq (List Char) := inferInstance

/-- `s.lower() in {"1", "true", "yes"}`. -/
def truthy (s : String) : Bool :=
  decide (lower s.toList∈["1".toList, "true".toList, "yes".toList])

def sortedSet (xs : List String) : List String :=
  xs.dedup.mergeSort fun a b => decide (a ≤ b)

theorem mem_sortedSet (x : String) (xs : List String) : x∈sortedSet xs ↔ x∈xs := by
  rw [sortedSet, List.mem_mergeSort, List.mem_dedup]

theorem sortedSet_pairwise (xs : List String) : (sortedSet xs).Pairwise fun a b => a ≤ b := by
  have h : (sortedSet xs).Pairwise fun a b => decide (a ≤ b)=true := by
    apply List.pairwise_mergeSort
    · intro a b c hab hbc
      simp only [decide_eq_true_eq] at hab hbc ⊢
      exact String.le_trans hab hbc
    · intro a b
      simpa using String.le_total a b
  exact h.imp fun hab => of_decide_eq_true hab

theorem nodup_sortedSet (xs : List String) : (sortedSet xs).Nodup :=
  (List.mergeSort_perm _ _).nodup_iff.mpr xs.nodup_dedup

theorem sortedSet_strict (xs : List String) : (sortedSet xs).Pairwise fun a b => a < b := by
  refine (sortedSet_pairwise xs).imp₂ ?_ (nodup_sortedSet xs)
  intro a b hle hne
  by_contra hlt
  exact hne (String.le_antisymm hle (String.not_lt.mp hlt))

theorem strict_ext {xs ys : List String} (hx : xs.Pairwise fun a b => a < b)
    (hy : ys.Pairwise fun a b => a < b) (h : ∀ x, x∈xs ↔ x∈ys) : xs=ys := by
  have hne : ∀ {zs : List String}, zs.Pairwise (fun a b => a < b) → zs.Nodup := by
    intro zs hz
    refine hz.imp ?_
    intro a b hlt he
    exact String.lt_irrefl a (he ▸ hlt)
  have hp : xs.Perm ys := (List.perm_ext_iff_of_nodup (hne hx) (hne hy)).mpr h
  exact hp.eq_of_pairwise (fun a b _ _ hab hba => absurd hba (String.lt_asymm hab)) hx hy

/-- Sorting forgets everything but the set. -/
theorem sortedSet_eq_iff (xs ys : List String) :
    sortedSet xs=sortedSet ys ↔ ∀ x, x∈xs ↔ x∈ys := by
  constructor
  · intro h x
    rw [← mem_sortedSet x xs, h, mem_sortedSet]
  · intro h
    have hp : xs.dedup.Perm ys.dedup :=
      (List.perm_ext_iff_of_nodup xs.nodup_dedup ys.nodup_dedup).mpr (by simpa using h)
    have hsort : (sortedSet xs).Perm (sortedSet ys) :=
      (List.mergeSort_perm _ _).trans (hp.trans (List.mergeSort_perm _ _).symm)
    exact List.Perm.eq_of_pairwise (fun a b _ _ hab hba => String.le_antisymm hab hba)
      (sortedSet_pairwise xs) (sortedSet_pairwise ys) hsort

theorem filter_sortedSet (p : String → Bool) (xs : List String) :
    (sortedSet xs).filter p=sortedSet (xs.filter p) :=
  strict_ext ((sortedSet_strict xs).filter p) (sortedSet_strict _)
    (by simp [mem_sortedSet])

theorem sortedSet_eq_nil (xs : List String) : sortedSet xs=[] ↔ xs=[] := by
  simp only [List.eq_nil_iff_forall_not_mem, mem_sortedSet]

/-- Words without the separator are told by a text that goes on with it. -/
theorem append_sep_inj {α : Type*} {sep : α} {xs ys rest rest' : List α} (hx : sep∉xs)
    (hy : sep∉ys) (h : xs++sep::rest=ys++sep::rest') : xs=ys ∧ rest=rest' := by
  induction xs generalizing ys with
  | nil =>
    cases ys with
    | nil => exact ⟨rfl, (List.cons.inj h).2⟩
    | cons y ys =>
      have hsep : sep=y := (List.cons.inj h).1
      exact absurd (hsep ▸ List.mem_cons_self) hy
  | cons x xs ih =>
    cases ys with
    | nil =>
      have hsep : x=sep := (List.cons.inj h).1
      exact absurd (hsep ▸ List.mem_cons_self) hx
    | cons y ys =>
      obtain ⟨rfl, htail⟩ := List.cons.inj h
      obtain ⟨rfl, hrest⟩ := ih (fun hm => hx (List.mem_cons_of_mem _ hm))
        (fun hm => hy (List.mem_cons_of_mem _ hm)) htail
      exact ⟨rfl, hrest⟩

theorem lstrip_rstrip_eq_nil {c : Char} {s : List Char} :
    lstrip c (rstrip c s)=[] ↔ rstrip c s=[] := by
  constructor
  · intro h
    by_contra hne
    have hall := List.dropWhile_eq_nil_iff.mp h _ (List.getLast_mem hne)
    exact List.rdropWhile_last_not _ _ hne hall
  · intro h
    rw [h]
    rfl

/-- A prefix that loses its trailing characters and then loses the leading ones with what
follows. -/
theorem lstrip_rstrip_append (c : Char) (s rest : List Char) :
    lstrip c (rstrip c s++rest)=
      if rstrip c s=[] then lstrip c rest else lstrip c (rstrip c s)++rest := by
  rw [lstrip, List.dropWhile_append]
  by_cases h : rstrip c s=[]
  · rw [if_pos h, h]
    rfl
  · have hne : ¬ (List.dropWhile (fun d => decide (d=c)) (rstrip c s)).isEmpty=true := by
      rw [List.isEmpty_iff]
      exact fun he => h (lstrip_rstrip_eq_nil.mp he)
    rw [if_neg h, if_neg hne]
    rfl

theorem toDigits_ten_inj {m n : Nat} (h : Nat.toDigits 10 m=Nat.toDigits 10 n) : m=n := by
  have hm := Nat.ofDigitChars_ten_toDigits (n := m)
  rw [h, Nat.ofDigitChars_ten_toDigits] at hm
  exact hm.symm

theorem toList_toString_ofNat (m : Nat) :
    (toString (Int.ofNat m)).toList=Nat.toDigits 10 m := String.toList_ofList

theorem toList_toString_negSucc (m : Nat) :
    (toString (Int.negSucc m)).toList= '-' ::Nat.toDigits 10 (m+1) := by
  rw [show toString (Int.negSucc m)="-" ++ Nat.repr (m+1) from rfl, String.toList_append,
    Nat.toList_repr]
  rfl

theorem mem_toString_int {n : Int} {c : Char} (h : c∈(toString n).toList) :
    c= '-' ∨ c.isDigit=true := by
  cases n with
  | ofNat m =>
    rw [toList_toString_ofNat] at h
    exact Or.inr (Nat.isDigit_of_mem_toDigits (by decide) (by decide) h)
  | negSucc m =>
    rw [toList_toString_negSucc] at h
    obtain rfl | h := List.mem_cons.mp h
    · exact Or.inl rfl
    · exact Or.inr (Nat.isDigit_of_mem_toDigits (by decide) (by decide) h)

theorem toString_int_inj {m n : Int} (h : toString m=toString n) : m=n := by
  have hsign : ∀ k l : Nat, Nat.toDigits 10 k≠ '-' ::Nat.toDigits 10 (l+1) := by
    intro k l he
    have hm : '-'∈Nat.toDigits 10 k := he ▸ List.mem_cons_self
    exact absurd (Nat.isDigit_of_mem_toDigits (by decide) (by decide) hm) (by decide)
  have hl := congrArg String.toList h
  cases m with
  | ofNat k =>
    cases n with
    | ofNat l =>
      rw [toList_toString_ofNat, toList_toString_ofNat] at hl
      rw [toDigits_ten_inj hl]
    | negSucc l =>
      rw [toList_toString_ofNat, toList_toString_negSucc] at hl
      exact absurd hl (hsign k l)
  | negSucc k =>
    cases n with
    | ofNat l =>
      rw [toList_toString_ofNat, toList_toString_negSucc] at hl
      exact absurd hl.symm (hsign l k)
    | negSucc l =>
      rw [toList_toString_negSucc, toList_toString_negSucc] at hl
      rw [Nat.succ.inj (toDigits_ten_inj (List.cons.inj hl).2)]

example : pyInt " 1_0 "=some 10 ∧ pyInt "-7"=some (-7) ∧ pyInt "1__0"=none := by decide
example : truthy "TRUE"=true ∧ truthy "on"=false := by decide

end Sovereign.Text
