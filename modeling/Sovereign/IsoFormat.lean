import Sovereign.TextOrder

/-! Aware datetimes, their instants, and the order of the texts of `isoformat`: by the reading
of the wall clock, then by the text of the offset. -/
namespace Sovereign.IsoFormat
open TextOrder

def isLeap (year : Nat) : Bool := decide (year%4=0 ∧ (year%100≠0 ∨ year%400=0))

def daysInMonth (year : Nat) : Nat → Nat
  | 1 | 3 | 5 | 7 | 8 | 10 | 12 => 31
  | 4 | 6 | 9 | 11 => 30
  | 2 => if isLeap year then 29 else 28
  | _ => 0

def daysBeforeMonth (year : Nat) : Nat → Nat
  | 0 => 0
  | m+1 => daysBeforeMonth year m+daysInMonth year m

def daysBeforeYear (year : Nat) : Nat :=
  let y := year-1
  y*365+y/4-y/100+y/400

/-- The offset is in microseconds east of UTC; a naive datetime has none. -/
structure DateTime where
  year : Nat
  month : Nat
  day : Nat
  hour : Nat := 0
  minute : Nat := 0
  second : Nat := 0
  microsecond : Nat := 0
  offset : Option Int := some 0
  year_pos : 1 ≤ year := by decide
  year_le : year ≤ 9999 := by decide
  month_pos : 1 ≤ month := by decide
  month_le : month ≤ 12 := by decide
  day_pos : 1 ≤ day := by decide
  day_le : day ≤ daysInMonth year month := by decide
  hour_lt : hour < 24 := by decide
  minute_lt : minute < 60 := by decide
  second_lt : second < 60 := by decide
  microsecond_lt : microsecond < 1000000 := by decide
  offset_lt : ∀ o∈offset, o.natAbs < 86400000000 := by decide

namespace DateTime
variable (d : DateTime)

def ordinal : Nat := daysBeforeYear d.year+daysBeforeMonth d.year d.month+d.day

def wall : Nat :=
  (((d.ordinal*24+d.hour)*60+d.minute)*60+d.second)*1000000+d.microsecond

/-- The point in time. A naive reading counts as UTC here. -/
def instant : Int := d.wall-d.offset.getD 0

def fraction (microsecond : Nat) : List Char :=
  if microsecond=0 then [] else '.'::pad 6 microsecond

def offsetText : Option Int → List Char
  | none => []
  | some o =>
    let n := o.natAbs
    (if o < 0 then '-' else '+')::(pad 2 (n/3600000000) ++ ':'::(pad 2 (n/60000000%60) ++
      if n%60000000=0 then [] else ':'::(pad 2 (n/1000000%60) ++ fraction (n%1000000))))

def isoformat : List Char :=
  pad 4 d.year ++ '-'::(pad 2 d.month ++ '-'::(pad 2 d.day ++ 'T'::(pad 2 d.hour ++
    ':'::(pad 2 d.minute ++ ':'::(pad 2 d.second ++
      (fraction d.microsecond ++ offsetText d.offset))))))

end DateTime

example : String.ofList (DateTime.mk 2026 5 22 17 30 0 500 (some 19800000000)).isoformat=
    "2026-05-22T17:30:00.000500+05:30" := by decide

section Dates

def daysInYear (year : Nat) : Nat := if isLeap year then 366 else 365

theorem daysBeforeYear_succ {year : Nat} (h : 1 ≤ year) :
    daysBeforeYear (year+1)=daysBeforeYear year+daysInYear year := by
  obtain ⟨y, rfl⟩ : ∃ y, year=y+1 := ⟨year-1, by omega⟩
  have hle : y/100 ≤ y/4 := by omega
  simp only [daysBeforeYear, daysInYear, isLeap, decide_eq_true_eq, Nat.add_sub_cancel,
    Nat.succ_div, Nat.dvd_iff_mod_eq_zero]
  split_ifs <;> omega

theorem daysBeforeYear_lt {y y' : Nat} (hy : 1 ≤ y) (h : y < y') :
    daysBeforeYear y+daysInYear y ≤ daysBeforeYear y' := by
  induction y', h using Nat.le_induction with
  | base => rw [daysBeforeYear_succ hy]
  | succ n hn ih => rw [daysBeforeYear_succ (by omega)]; omega

theorem daysBeforeMonth_lt (year : Nat) {m m' : Nat} (h : m < m') :
    daysBeforeMonth year m+daysInMonth year m ≤ daysBeforeMonth year m' := by
  induction m', h using Nat.le_induction with
  | base => exact le_rfl
  | succ n hn ih => rw [daysBeforeMonth]; omega

theorem daysBeforeMonth_year (year : Nat) : daysBeforeMonth year 13=daysInYear year := by
  simp only [daysBeforeMonth, daysInMonth, daysInYear]
  split <;> rfl

variable (a b : DateTime)

theorem daysInMonth_le (year month : Nat) : daysInMonth year month ≤ 31 := by
  have hfebruary : (if isLeap year then 29 else 28) ≤ 31 := by split <;> decide
  unfold daysInMonth
  split <;> first | exact hfebruary | decide

theorem dayOfYear_le : daysBeforeMonth a.year a.month+a.day ≤ daysInYear a.year := by
  have hmonth : daysBeforeMonth a.year a.month+daysInMonth a.year a.month ≤
      daysBeforeMonth a.year 13 := daysBeforeMonth_lt a.year (Nat.lt_succ_of_le a.month_le)
  have hday := a.day_le
  rw [← daysBeforeMonth_year]
  omega

theorem ordinal_lt_of_year {a b : DateTime} (h : a.year < b.year) : a.ordinal < b.ordinal := by
  have hyear := daysBeforeYear_lt a.year_pos h
  have hday := dayOfYear_le a
  have hpos := b.day_pos
  simp only [DateTime.ordinal]
  omega

theorem ordinal_lt_of_month {a b : DateTime} (hy : a.year=b.year) (h : a.month < b.month) :
    a.ordinal < b.ordinal := by
  have hmonth := daysBeforeMonth_lt a.year h
  have hday := a.day_le
  have hpos := b.day_pos
  simp only [DateTime.ordinal, ← hy]
  omega

theorem ordinal_cases :
    (a.ordinal < b.ordinal ↔
      a.year < b.year ∨ a.year=b.year ∧ (a.month < b.month ∨ a.month=b.month ∧ a.day < b.day)) ∧
    (a.ordinal=b.ordinal ↔ a.year=b.year ∧ a.month=b.month ∧ a.day=b.day) := by
  obtain hy | hy | hy := lt_trichotomy a.year b.year
  · have hlt := ordinal_lt_of_year hy
    omega
  · obtain hm | hm | hm := lt_trichotomy a.month b.month
    · have hlt := ordinal_lt_of_month hy hm
      omega
    · simp only [DateTime.ordinal, hy, hm, lt_irrefl, true_and, false_or]
      omega
    · have hlt := ordinal_lt_of_month hy.symm hm
      omega
  · have hlt := ordinal_lt_of_year hy
    omega

end Dates

section Texts
open DateTime

theorem radix_lt_iff {n p p' r r' : Nat} (hr : r < n) (hr' : r' < n) :
    p*n+r < p'*n+r' ↔ p < p' ∨ p=p' ∧ r < r' := by
  obtain hp | hp | hp := lt_trichotomy p p'
  · have hmul : (p+1)*n ≤ p'*n := Nat.mul_le_mul_right n hp
    rw [Nat.succ_mul] at hmul
    omega
  · subst hp
    omega
  · have hmul : (p'+1)*n ≤ p*n := Nat.mul_le_mul_right n hp
    rw [Nat.succ_mul] at hmul
    omega

theorem radix_eq_iff {n p p' r r' : Nat} (hr : r < n) (hr' : r' < n) :
    p*n+r=p'*n+r' ↔ p=p' ∧ r=r' := by
  have hless : p*n+r < p'*n+r' ↔ p < p' ∨ p=p' ∧ r < r' := radix_lt_iff hr hr'
  have hmore : p'*n+r' < p*n+r ↔ p' < p ∨ p'=p ∧ r' < r := radix_lt_iff hr' hr
  omega

theorem lex_assoc {p e q f x : Prop} : (p ∨ e ∧ (q ∨ f ∧ x)) ↔ (p ∨ e ∧ q) ∨ (e ∧ f) ∧ x := by
  tauto

/-- A text without a fraction sorts before one with a fraction. -/
theorem offsetText_lt (o : Option Int) (rest : List Char) : offsetText o < '.'::rest := by
  cases o with
  | none => exact List.nil_lt_cons _ _
  | some o =>
    simp only [offsetText, List.cons_lt_cons_iff]
    refine .inl ?_
    split <;> decide

theorem tail_lt_iff {m m' : Nat} (hm : m < 1000000) (hm' : m' < 1000000) (o o' : Option Int) :
    fraction m++offsetText o < fraction m'++offsetText o' ↔
      m < m' ∨ m=m' ∧ offsetText o < offsetText o' := by
  cases m with
  | zero =>
    cases m' with
    | zero => simp [fraction]
    | succ m' =>
      have hlt := offsetText_lt o (pad 6 (m'+1)++offsetText o')
      simpa [fraction] using hlt
  | succ m =>
    cases m' with
    | zero =>
      have hlt := offsetText_lt o' (pad 6 (m+1)++offsetText o)
      simpa [fraction] using List.lt_asymm hlt
    | succ m' =>
      simp only [fraction, Nat.succ_ne_zero, if_false, List.cons_append, List.cons_lt_cons_iff,
        lt_irrefl, true_and, false_or]
      exact pad_append_lt_iff hm hm' _ _

/-- The text of `a` sorts before that of `b`, as the wall clocks and the offsets tell. -/
def Sorts (a b : DateTime) : Prop :=
  a.wall < b.wall ∨ a.wall=b.wall ∧ offsetText a.offset < offsetText b.offset

instance (a b : DateTime) : Decidable (Sorts a b) :=
  inferInstanceAs (Decidable (_ ∨ _ ∧ _))

variable (a b : DateTime)

theorem isoformat_lt_iff : a.isoformat < b.isoformat ↔ Sorts a b := by
  have hday (d : DateTime) : d.day < 10^2 := by
    have hle := daysInMonth_le d.year d.month
    have hday := d.day_le
    omega
  have hyear (d : DateTime) : d.year < 10^4 := Nat.lt_succ_of_le d.year_le
  have hmonth (d : DateTime) : d.month < 10^2 := d.month_le.trans_lt (by decide)
  have hhour (d : DateTime) : d.hour < 10^2 := d.hour_lt.trans (by decide)
  have hminute (d : DateTime) : d.minute < 10^2 := d.minute_lt.trans (by decide)
  have hsecond (d : DateTime) : d.second < 10^2 := d.second_lt.trans (by decide)
  obtain ⟨hlt, heq⟩ := ordinal_cases a b
  simp only [isoformat, pad_append_lt_iff (hyear a) (hyear b),
    pad_append_lt_iff (hmonth a) (hmonth b), pad_append_lt_iff (hday a) (hday b),
    pad_append_lt_iff (hhour a) (hhour b), pad_append_lt_iff (hminute a) (hminute b),
    pad_append_lt_iff (hsecond a) (hsecond b), List.cons_lt_cons_iff, lt_irrefl, true_and,
    false_or, tail_lt_iff a.microsecond_lt b.microsecond_lt]
  simp only [Sorts, wall, radix_lt_iff a.microsecond_lt b.microsecond_lt,
    radix_eq_iff a.microsecond_lt b.microsecond_lt, radix_lt_iff a.second_lt b.second_lt,
    radix_eq_iff a.second_lt b.second_lt, radix_lt_iff a.minute_lt b.minute_lt,
    radix_eq_iff a.minute_lt b.minute_lt, radix_lt_iff a.hour_lt b.hour_lt,
    radix_eq_iff a.hour_lt b.hour_lt, hlt, heq]
  simp only [lex_assoc, and_assoc]

/-! What the text of an offset tells. -/

theorem fraction_inj {m m' : Nat} (hm : m < 1000000) (hm' : m' < 1000000) :
    fraction m=fraction m' ↔ m=m' := by
  constructor
  · intro h
    cases m with
    | zero =>
      cases m' with
      | zero => rfl
      | succ m' => simp [fraction] at h
    | succ m =>
      cases m' with
      | zero => simp [fraction] at h
      | succ m' =>
        simp only [fraction, Nat.succ_ne_zero, if_false, List.cons.injEq, true_and] at h
        exact (pad_inj hm hm').mp h
  · intro h
    rw [h]

theorem sign_inj {x y : Int}
    (h : (if x < 0 then '-' else '+')=(if y < 0 then '-' else '+')) : x < 0 ↔ y < 0 := by
  by_cases hx : x < 0
  · by_cases hy : y < 0
    · simp only [hx, hy]
    · simp [hx, hy] at h
  · by_cases hy : y < 0
    · simp [hx, hy] at h
    · simp only [hx, hy]

theorem seconds_inj {n m : Nat}
    (h : (if n%60000000=0 then [] else ':'::(pad 2 (n/1000000%60) ++ fraction (n%1000000)))=
      if m%60000000=0 then [] else ':'::(pad 2 (m/1000000%60) ++ fraction (m%1000000))) :
    n%60000000=m%60000000 := by
  by_cases hn : n%60000000=0
  · by_cases hm : m%60000000=0
    · rw [hn, hm]
    · rw [if_pos hn, if_neg hm] at h
      cases h
  · by_cases hm : m%60000000=0
    · rw [if_neg hn, if_pos hm] at h
      cases h
    · rw [if_neg hn, if_neg hm, List.cons.injEq, pad_append_inj (by omega) (by omega),
        fraction_inj (by omega) (by omega)] at h
      omega

theorem offsetText_inj {o o' : Option Int} (h : ∀ x∈o, x.natAbs < 86400000000)
    (h' : ∀ x∈o', x.natAbs < 86400000000) (he : offsetText o=offsetText o') : o=o' := by
  cases o with
  | none =>
    cases o' with
    | none => rfl
    | some y => simp [offsetText] at he
  | some x =>
    cases o' with
    | none => simp [offsetText] at he
    | some y =>
      have hx := h x rfl
      have hy := h' y rfl
      simp only [offsetText, List.cons.injEq] at he
      obtain ⟨hsign, he⟩ := he
      rw [pad_append_inj (by omega) (by omega), List.cons.injEq,
        pad_append_inj (by omega) (by omega)] at he
      obtain ⟨hhour, -, hminute, hrest⟩ := he
      have hseconds := seconds_inj hrest
      have hneg := sign_inj hsign
      rw [Option.some.injEq]
      omega

/-- Texts that do not sort are those of one instant. -/
theorem instant_eq {a b : DateTime} (h : ¬Sorts a b) (h' : ¬Sorts b a) : a.instant=b.instant := by
  obtain ⟨hwall, hoffset⟩ := not_or.mp h
  obtain ⟨hwall', hoffset'⟩ := not_or.mp h'
  have heq : a.wall=b.wall := by omega
  have htext : offsetText a.offset=offsetText b.offset :=
    List.le_antisymm (fun ht => hoffset' ⟨heq.symm, ht⟩) fun ht => hoffset ⟨heq, ht⟩
  simp only [instant, heq, offsetText_inj a.offset_lt b.offset_lt htext]

/-- With one offset the texts sort by time. -/
theorem sorts_iff_of_offset {a b : DateTime} (h : a.offset=b.offset) :
    Sorts a b ↔ a.instant < b.instant := by
  simp only [Sorts, instant, h, List.lt_irrefl, and_false, or_false]
  omega

theorem digit_above (d : Nat) (h : d < 10) : '#' < Nat.digitChar d := by
  revert h d
  decide

theorem pad_above (w n : Nat) : ∀ c∈pad w n, '#' < c := by
  intro c hc
  obtain ⟨d, hd, rfl⟩ := mem_pad hc
  exact digit_above d hd

theorem fraction_above (m : Nat) : ∀ c∈fraction m, '#' < c := by
  unfold fraction
  split
  · exact List.forall_mem_nil _
  · exact List.forall_mem_cons.mpr ⟨by decide, pad_above 6 m⟩

theorem offsetText_above (o : Option Int) : ∀ c∈offsetText o, '#' < c := by
  cases o with
  | none => exact List.forall_mem_nil _
  | some o =>
    simp only [offsetText, List.forall_mem_cons, List.forall_mem_append]
    refine ⟨?_, pad_above _ _, by decide, pad_above _ _, ?_⟩
    · split <;> decide
    · split
      · exact List.forall_mem_nil _
      · exact List.forall_mem_cons.mpr
          ⟨by decide, List.forall_mem_append.mpr ⟨pad_above _ _, fraction_above _⟩⟩

theorem isoformat_above : ∀ c∈a.isoformat, '#' < c := by
  simp only [isoformat, List.forall_mem_cons, List.forall_mem_append]
  exact ⟨pad_above _ _, by decide, pad_above _ _, by decide, pad_above _ _, by decide,
    pad_above _ _, by decide, pad_above _ _, by decide, pad_above _ _, fraction_above _,
    offsetText_above _⟩

end Texts
end Sovereign.IsoFormat
