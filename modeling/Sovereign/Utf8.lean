import Mathlib.Data.Char
import Mathlib.Data.List.Basic
import Mathlib.Data.List.Lex
import Mathlib.Data.String.Basic
import Mathlib.Order.Basic

/-! UTF-8. Texts are in one order by their code points and by their bytes. -/
namespace Sovereign.Utf8

def encode (s : List Char) : List UInt8 := s.flatMap String.utf8EncodeChar

/-- `none` when the bytes are no UTF-8. -/
def decode (bytes : List UInt8) : Option (List Char) :=
  bytes.toByteArray.utf8Decode?.map Array.toList

theorem decode_encode (s : List Char) : decode (encode s)=some s := by
  have h : (encode s).toByteArray=s.utf8Encode := rfl
  rw [decode, h, List.utf8Decode?_utf8Encode, Option.map_some]

theorem ofNat_lt_iff {m n : Nat} (hm : m < 256) (hn : n < 256) :
    UInt8.ofNat m < UInt8.ofNat n ↔ m < n := by
  rw [UInt8.lt_iff_toNat_lt, UInt8.toNat_ofNat_of_lt' hm, UInt8.toNat_ofNat_of_lt' hn]

theorem ofNat_eq_iff {m n : Nat} (hm : m < 256) (hn : n < 256) :
    UInt8.ofNat m=UInt8.ofNat n ↔ m=n := by
  rw [← UInt8.toNat_inj, UInt8.toNat_ofNat_of_lt' hm, UInt8.toNat_ofNat_of_lt' hn]

theorem div_lt_or {v w : Nat} (k : Nat) (h : v < w) : v/k < w/k ∨ v/k=w/k ∧ v%k < w%k := by
  obtain hlt | heq := (Nat.div_le_div_right (c := k) h.le).lt_or_eq
  · exact Or.inl hlt
  · refine Or.inr ⟨heq, ?_⟩
    have hv := Nat.div_add_mod v k
    have hw := Nat.div_add_mod w k
    rw [heq] at hv
    omega

theorem four_lt {v w : Nat} (h : v < w) (hw : w < 0x110000) (xs ys : List UInt8) :
    UInt8.ofNat (v/262144%8+240)::UInt8.ofNat (v/4096%64+128)::UInt8.ofNat (v/64%64+128)::
        UInt8.ofNat (v%64+128)::xs <
      UInt8.ofNat (w/262144%8+240)::UInt8.ofNat (w/4096%64+128)::UInt8.ofNat (w/64%64+128)::
        UInt8.ofNat (w%64+128)::ys := by
  have htop : ∀ n < 0x110000, n/262144%8=n/262144 := by
    intro n hn
    omega
  have htop_lt : ∀ n < 0x110000, n/262144+240 < 256 := by
    intro n hn
    omega
  have htail_lt : ∀ n, n%64+128 < 256 := by
    intro n
    omega
  have hv := h.trans hw
  rw [htop v hv, htop w hw]
  simp only [List.cons_lt_cons_iff, ofNat_lt_iff (htop_lt v hv) (htop_lt w hw),
    ofNat_eq_iff (htop_lt v hv) (htop_lt w hw), ofNat_lt_iff (htail_lt _) (htail_lt _),
    ofNat_eq_iff (htail_lt _) (htail_lt _), Nat.add_lt_add_iff_right, Nat.add_right_cancel_iff]
  obtain hlow | ⟨hlow, hmod⟩ := div_lt_or 64 h
  · obtain hmid | ⟨hmid, hmod⟩ := div_lt_or 64 hlow
    · rw [Nat.div_div_eq_div_mul, Nat.div_div_eq_div_mul] at hmid
      obtain hhigh | ⟨hhigh, hmod⟩ := div_lt_or 64 hmid
      · rw [Nat.div_div_eq_div_mul, Nat.div_div_eq_div_mul] at hhigh
        exact Or.inl hhigh
      · rw [Nat.div_div_eq_div_mul, Nat.div_div_eq_div_mul] at hhigh
        exact Or.inr ⟨hhigh, Or.inl hmod⟩
    · rw [Nat.div_div_eq_div_mul, Nat.div_div_eq_div_mul] at hmid
      have hhigh : v/262144=w/262144 := by omega
      exact Or.inr ⟨hhigh, Or.inr ⟨by rw [hmid], Or.inl hmod⟩⟩
  · have hmid : v/4096=w/4096 := by omega
    have hhigh : v/262144=w/262144 := by omega
    exact Or.inr ⟨hhigh, Or.inr ⟨by rw [hmid], Or.inr ⟨by rw [hlow], Or.inl hmod⟩⟩⟩

theorem encodeChar_append_lt {c d : Char} (h : c < d) (xs ys : List UInt8) :
    String.utf8EncodeChar c++xs < String.utf8EncodeChar d++ys := by
  have hlt : c.val.toNat < d.val.toNat := h
  have hmax : d.val.toNat < 0x110000 := by
    have hvalid := d.valid
    simp only [UInt32.isValidChar, Nat.isValidChar] at hvalid
    omega
  simp only [String.utf8EncodeChar]
  generalize c.val.toNat=v at hlt
  generalize d.val.toNat=w at hlt hmax
  by_cases hv : v ≤ 0xffff
  · split_ifs <;>
      simp only [List.cons_append, List.nil_append, List.cons_lt_cons_iff,
        UInt8.lt_iff_toNat_lt, ← UInt8.toNat_inj, UInt8.toNat_ofNat'] <;> omega
  · rw [if_neg (by omega), if_neg (by omega), if_neg hv, if_neg (by omega), if_neg (by omega),
      if_neg (by omega)]
    exact four_lt hlt hmax xs ys

theorem encode_lt {s t : List Char} (h : s < t) : encode s < encode t := by
  induction s generalizing t with
  | nil =>
    cases t with
    | nil => exact absurd h (List.lt_irrefl _)
    | cons d t =>
      obtain ⟨b, bs, he⟩ := List.exists_cons_of_ne_nil (String.utf8EncodeChar_ne_nil (c := d))
      rw [encode, encode, List.flatMap_nil, List.flatMap_cons, he]
      exact List.nil_lt_cons _ _
  | cons c s ih =>
    cases t with
    | nil => exact absurd h (List.not_lt_nil _)
    | cons d t =>
      rw [encode, encode, List.flatMap_cons, List.flatMap_cons]
      obtain hlt | ⟨rfl, hlt⟩ := List.cons_lt_cons_iff.mp h
      · exact encodeChar_append_lt hlt _ _
      · exact List.append_left_lt (ih hlt)

theorem encode_lt_iff {s t : List Char} : encode s < encode t ↔ s < t := by
  refine ⟨fun h => ?_, encode_lt⟩
  obtain hlt | rfl | hgt := lt_trichotomy s t
  · exact hlt
  · exact absurd h (List.lt_irrefl _)
  · exact absurd h (List.lt_asymm (encode_lt hgt))

instance linearOrderUInt8 : LinearOrder UInt8 where
  le_refl := UInt8.le_refl
  le_trans := fun _ _ _ => UInt8.le_trans
  le_antisymm := fun _ _ => UInt8.le_antisymm
  le_total := UInt8.le_total
  lt_iff_le_not_ge := fun a b => by
    rw [UInt8.not_le]
    exact ⟨fun h => ⟨UInt8.le_of_lt h, h⟩, fun h => h.2⟩
  toDecidableLE := inferInstance

end Sovereign.Utf8
