import Mathlib.Data.Char
import Mathlib.Tactic.Linarith

/-! The lexicographic order of texts that are put together from parts: parts of one length,
numbers written with leading zeros, and a text with a delimiter below all its letters. -/
namespace Sovereign.TextOrder

section Parts
variable {α : Type*} [LinearOrder α]

/-- Parts of one length are compared before what follows them. -/
theorem append_lt_append_iff {a a' : List α} (h : a.length=a'.length) (b b' : List α) :
    a++b < a'++b' ↔ a < a' ∨ a=a' ∧ b < b' := by
  induction a generalizing a' with
  | nil =>
    cases a' with
    | nil => simp
    | cons c a' => cases h
  | cons c a ih =>
    cases a' with
    | nil => cases h
    | cons d a' =>
      have hlen : a.length=a'.length := Nat.succ.inj h
      simp only [List.cons_append, List.cons_lt_cons_iff, ih hlen, List.cons.injEq]
      constructor
      · intro hlt
        obtain hlt | ⟨rfl, hlt | ⟨rfl, hlt⟩⟩ := hlt
        · exact .inl (.inl hlt)
        · exact .inl (.inr ⟨rfl, hlt⟩)
        · exact .inr ⟨⟨rfl, rfl⟩, hlt⟩
      · intro hlt
        obtain (hlt | ⟨rfl, hlt⟩) | ⟨⟨rfl, rfl⟩, hlt⟩ := hlt
        · exact .inl hlt
        · exact .inr ⟨rfl, .inl hlt⟩
        · exact .inr ⟨rfl, .inr ⟨rfl, hlt⟩⟩

variable {stop : α}

/-- A delimiter below all letters does not change how a text compares with one without it. -/
theorem delimited_lt_iff {a b : List α} (hb : ∀ c∈b, stop < c) (rest : List α) :
    a++stop::rest < b ↔ a < b := by
  induction a generalizing b with
  | nil =>
    cases b with
    | nil => simp
    | cons d b => simp [List.cons_lt_cons_iff, hb d List.mem_cons_self]
  | cons c a ih =>
    cases b with
    | nil => simp
    | cons d b =>
      simp only [List.cons_append, List.cons_lt_cons_iff,
        ih fun e he => hb e (List.mem_cons_of_mem d he)]

theorem lt_delimited_iff {a b : List α} (ha : ∀ c∈a, stop < c) (rest : List α) :
    a < b++stop::rest ↔ a < b ∨ a=b := by
  induction a generalizing b with
  | nil =>
    cases b with
    | nil => simp
    | cons d b => simp
  | cons c a ih =>
    obtain ⟨hc, ha⟩ := List.forall_mem_cons.mp ha
    cases b with
    | nil => simp [List.cons_lt_cons_iff, hc.ne', not_lt_of_gt hc]
    | cons d b =>
      simp only [List.cons_append, List.cons_lt_cons_iff, ih ha, List.cons.injEq]
      constructor
      · intro hlt
        obtain hlt | ⟨rfl, hlt | rfl⟩ := hlt
        · exact .inl (.inl hlt)
        · exact .inl (.inr ⟨rfl, hlt⟩)
        · exact .inr ⟨rfl, rfl⟩
      · intro hlt
        obtain (hlt | ⟨rfl, hlt⟩) | ⟨rfl, rfl⟩ := hlt
        · exact .inl hlt
        · exact .inr ⟨rfl, .inl hlt⟩
        · exact .inr ⟨rfl, .inr rfl⟩

/-- Delimited texts compare as what stands before the delimiter, as far as that differs. -/
theorem delimited_lt_delimited {a b : List α} (ha : ∀ c∈a, stop < c) (hb : ∀ c∈b, stop < c)
    {rest rest' : List α} (h : a < b) : a++stop::rest < b++stop::rest' := by
  induction a generalizing b with
  | nil =>
    cases b with
    | nil => simp at h
    | cons d b => simp [List.cons_lt_cons_iff, hb d List.mem_cons_self]
  | cons c a ih =>
    obtain ⟨-, ha⟩ := List.forall_mem_cons.mp ha
    cases b with
    | nil => simp at h
    | cons d b =>
      obtain ⟨-, hb⟩ := List.forall_mem_cons.mp hb
      rw [List.cons_lt_cons_iff] at h
      rw [List.cons_append, List.cons_append, List.cons_lt_cons_iff]
      exact h.imp id fun h => ⟨h.1, ih ha hb h.2⟩

end Parts

/-- The last `width` decimal digits. -/
def pad : Nat → Nat → List Char
  | 0, _ => []
  | w+1, n => pad w (n/10)++[Nat.digitChar (n%10)]

@[simp] theorem length_pad (w n : Nat) : (pad w n).length=w := by
  induction w generalizing n with
  | zero => rfl
  | succ w ih => simp [pad, ih]

theorem digitChar_lt : ∀ a < 10, ∀ b < 10, (Nat.digitChar a < Nat.digitChar b ↔ a < b) := by
  decide

theorem pad_lt_iff {w n m : Nat} (hn : n < 10^w) (hm : m < 10^w) : pad w n < pad w m ↔ n < m := by
  induction w generalizing n m with
  | zero =>
    simp only [pow_zero] at hn hm
    simp only [pad, List.not_lt_nil, false_iff]
    omega
  | succ w ih =>
    rw [pow_succ] at hn hm
    have hless := ih (n := n/10) (m := m/10) (by omega) (by omega)
    have hmore := ih (n := m/10) (m := n/10) (by omega) (by omega)
    have hdigit := digitChar_lt (n%10) (by omega) (m%10) (by omega)
    rw [pad, pad, append_lt_append_iff (by simp), hless, List.cons_lt_cons_iff, hdigit]
    obtain hlt | heq | hgt := lt_trichotomy (n/10) (m/10)
    · simp only [hlt, true_or, true_iff]
      omega
    · simp only [heq, lt_irrefl, false_or, true_and, List.not_lt_nil, and_false, or_false]
      omega
    · have hne : pad w (n/10)≠pad w (m/10) := fun he => List.lt_irrefl _ (he ▸ hmore.mpr hgt)
      simp only [hne, false_and, or_false, not_lt_of_gt hgt, false_iff]
      omega

theorem pad_inj {w n m : Nat} (hn : n < 10^w) (hm : m < 10^w) : pad w n=pad w m ↔ n=m := by
  constructor
  · intro h
    have hless := (pad_lt_iff hn hm).not.mp (h ▸ List.lt_irrefl _)
    have hmore := (pad_lt_iff hm hn).not.mp (h ▸ List.lt_irrefl _)
    omega
  · intro h
    rw [h]

/-- Numbers of one width are compared before what follows them. -/
theorem pad_append_lt_iff {w n m : Nat} (hn : n < 10^w) (hm : m < 10^w) (b b' : List Char) :
    pad w n++b < pad w m++b' ↔ n < m ∨ n=m ∧ b < b' := by
  rw [append_lt_append_iff (by simp), pad_lt_iff hn hm, pad_inj hn hm]

theorem pad_append_inj {w n m : Nat} (hn : n < 10^w) (hm : m < 10^w) (b b' : List Char) :
    pad w n++b=pad w m++b' ↔ n=m ∧ b=b' := by
  constructor
  · intro h
    obtain ⟨hpad, hrest⟩ := List.append_inj h (by simp)
    exact ⟨(pad_inj hn hm).mp hpad, hrest⟩
  · intro h
    rw [h.1, h.2]

theorem mem_pad {w n : Nat} {c : Char} (h : c∈pad w n) : ∃ d < 10, c=Nat.digitChar d := by
  induction w generalizing n with
  | zero => cases h
  | succ w ih =>
    obtain h | h := List.mem_append.mp h
    · exact ih h
    · exact ⟨n%10, Nat.mod_lt n (by decide), List.mem_singleton.mp h⟩

end Sovereign.TextOrder
