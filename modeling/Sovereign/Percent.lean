import Mathlib.Tactic.Common
import Sovereign.Traverse
import Sovereign.Utf8

/-! Percent-encoding: the bytes of a character are kept, or written as `%` and two hexadecimal
digits; query strings on top of it. -/
namespace Sovereign.Percent
open Sovereign

def hexDigits : List Char :=
  ['0', '1', '2', '3', '4', '5', '6', '7', '8', '9', 'A', 'B', 'C', 'D', 'E', 'F']

def hexValue (c : Char) : Option Nat := hexDigits.idxOf? c.toUpper

def hexDigit (n : Nat) : Char := hexDigits.getD n '0'

def percentByte (b : UInt8) : List Char :=
  ['%', hexDigit (b.toNat/16), hexDigit (b.toNat%16)]

def encode (keep : Char → Bool) (s : List Char) : List Char :=
  s.flatMap fun c => if keep c then [c] else (String.utf8EncodeChar c).flatMap percentByte

/-- A `%` that is not followed by two digits stands for itself. -/
def bytes : List Char → List UInt8
  | [] => []
  | c::h::l::rest =>
    if c = '%' then
      match hexValue h, hexValue l with
      | some a, some b => UInt8.ofNat (16*a+b)::bytes rest
      | _, _ => String.utf8EncodeChar c++bytes (h::l::rest)
    else String.utf8EncodeChar c++bytes (h::l::rest)
  | c::rest => String.utf8EncodeChar c++bytes rest

/-- `none` when the bytes are no UTF-8. -/
def decode (text : List Char) : Option (List Char) := Utf8.decode (bytes text)

theorem hexValue_hexDigit : ∀ n < 16, hexValue (hexDigit n)=some n := by decide

theorem hexDigit_mem : ∀ n < 16, hexDigit n∈hexDigits := by decide

theorem bytes_percentByte (b : UInt8) (rest : List Char) :
    bytes (percentByte b++rest)=b::bytes rest := by
  have hb : b.toNat < 256 := b.toNat_lt
  rw [percentByte, List.cons_append, List.cons_append, List.cons_append, List.nil_append, bytes,
    if_pos rfl, hexValue_hexDigit _ (by omega), hexValue_hexDigit _ (by omega)]
  simp only [Nat.div_add_mod, UInt8.ofNat_toNat]

theorem bytes_percentBytes (bs : List UInt8) (rest : List Char) :
    bytes (bs.flatMap percentByte++rest)=bs++bytes rest := by
  induction bs with
  | nil => rfl
  | cons b bs ih =>
    calc
      bytes ((b::bs).flatMap percentByte++rest)=
          bytes (percentByte b++(bs.flatMap percentByte++rest)) := by
        rw [List.flatMap_cons, List.append_assoc]
      _=b::bytes (bs.flatMap percentByte++rest) := bytes_percentByte b _
      _=(b::bs)++bytes rest := by rw [ih, List.cons_append]

theorem bytes_plain {c : Char} (h : c ≠ '%') (rest : List Char) :
    bytes (c::rest)=String.utf8EncodeChar c++bytes rest := by
  cases rest with
  | nil => rfl
  | cons d rest =>
    cases rest with
    | nil => rfl
    | cons e rest => rw [bytes, if_neg h]

section Keep
variable {keep : Char → Bool}

theorem bytes_encode (hkeep : keep '%'=false) (s rest : List Char) :
    bytes (encode keep s++rest)=Utf8.encode s++bytes rest := by
  induction s with
  | nil => rfl
  | cons c s ih =>
    rw [encode, Utf8.encode, List.flatMap_cons, List.flatMap_cons, List.append_assoc,
      List.append_assoc, ← encode, ← Utf8.encode, ← ih]
    split
    · next hc =>
      have hne : c ≠ '%' := by
        rintro rfl
        rw [hkeep] at hc
        cases hc
      exact bytes_plain hne _
    · exact bytes_percentBytes _ _

/-- What is encoded is read back. -/
theorem decode_encode (hkeep : keep '%'=false) (s : List Char) : decode (encode keep s)=some s := by
  have h := bytes_encode hkeep s []
  rw [List.append_nil, bytes, List.append_nil] at h
  rw [decode, h, Utf8.decode_encode]

theorem mem_encode {c : Char} {s : List Char} (h : c∈encode keep s) :
    keep c=true ∨ c = '%' ∨ c∈hexDigits := by
  obtain ⟨d, _, hd⟩ := List.mem_flatMap.mp h
  split at hd
  · next hk =>
    rw [List.mem_singleton.mp hd]
    exact Or.inl hk
  · obtain ⟨b, _, hb⟩ := List.mem_flatMap.mp hd
    have hlt : b.toNat < 256 := b.toNat_lt
    obtain rfl | hb := List.mem_cons.mp hb
    · exact Or.inr (Or.inl rfl)
    · refine Or.inr (Or.inr ?_)
      obtain rfl | hb := List.mem_cons.mp hb
      · exact hexDigit_mem _ (by omega)
      · rw [List.mem_singleton.mp hb]
        exact hexDigit_mem _ (by omega)

theorem encode_kept {s : List Char} (h : ∀ c∈s, keep c=true) : encode keep s=s := by
  induction s with
  | nil => rfl
  | cons c s ih =>
    obtain ⟨hc, hs⟩ := List.forall_mem_cons.mp h
    rw [encode, List.flatMap_cons, if_pos hc, ← encode, ih hs, List.singleton_append]

/-! Query strings: a blank is written as `+`. -/

variable (keep)

def formEncode (s : List Char) : List Char :=
  (encode (fun c => keep c || decide (c = ' ')) s).map fun c => if c = ' ' then '+' else c

def formDecode (text : List Char) : Option (List Char) :=
  decode (text.map fun c => if c = '+' then ' ' else c)

def queryText (pairs : List (List Char × List Char)) : List Char :=
  ['&'].intercalate (pairs.map fun p => formEncode keep p.1 ++ '=' :: formEncode keep p.2)

def readPair (text : List Char) : Option (List Char × List Char) := do
  let name ← formDecode (text.takeWhile fun c => decide (c ≠ '='))
  let value ← formDecode ((text.dropWhile fun c => decide (c ≠ '=')).drop 1)
  return (name, value)

def readQuery (text : List Char) : Option (List (List Char × List Char)) :=
  ((text.splitOn '&').filter fun part => decide (part≠[])).mapM readPair

variable {keep}

structure FormSafe (keep : Char → Bool) : Prop where
  percent : keep '%'=false
  plus : keep '+'=false
  equals : keep '='=false
  ampersand : keep '&'=false

theorem formDecode_formEncode (h : FormSafe keep) (s : List Char) :
    formDecode (formEncode keep s)=some s := by
  have hback : (formEncode keep s).map (fun c => if c = '+' then ' ' else c)=
      encode (fun c => keep c || decide (c = ' ')) s := by
    rw [formEncode, List.map_map]
    refine (List.map_congr_left fun c hc => ?_).trans (List.map_id _)
    by_cases hblank : c = ' '
    · simp [hblank]
    · have hplus : c ≠ '+' := by
        rintro rfl
        obtain hk | hx | hx := mem_encode hc
        · simp [h.plus] at hk
        · cases hx
        · exact absurd hx (by decide)
      simp [hblank, hplus]
  rw [formDecode, hback, decode_encode (by simp [h.percent])]

/-- A character that is neither kept nor of the encoding is not in the text. -/
theorem not_mem_formEncode {c : Char} (hc : keep c=false) (hne : c∉['+', '%', ' '])
    (hhex : c∉hexDigits) (s : List Char) : c∉formEncode keep s := by
  simp only [List.mem_cons, List.not_mem_nil, or_false, not_or] at hne
  obtain ⟨hplus, hpercent, hblank⟩ := hne
  intro hm
  obtain ⟨d, hd, he⟩ := List.mem_map.mp hm
  split at he
  · exact hplus he.symm
  · subst he
    obtain hk | hx | hx := mem_encode hd
    · simp [hc, hblank] at hk
    · exact hpercent hx
    · exact hhex hx

theorem readPair_text (h : FormSafe keep) (p : List Char × List Char) :
    readPair (formEncode keep p.1 ++ '=' :: formEncode keep p.2)=some p := by
  have hall : ∀ c∈formEncode keep p.1, decide (c ≠ '=')=true := by
    intro c hc
    refine decide_eq_true ?_
    rintro rfl
    exact not_mem_formEncode h.equals (by decide) (by decide) _ hc
  have hname : (formEncode keep p.1 ++ '=' :: formEncode keep p.2).takeWhile
      (fun c => decide (c ≠ '='))=formEncode keep p.1 := by
    rw [List.takeWhile_append_of_pos hall, List.takeWhile_cons_of_neg (by simp), List.append_nil]
  have hvalue : (formEncode keep p.1 ++ '=' :: formEncode keep p.2).dropWhile
      (fun c => decide (c ≠ '='))= '=' :: formEncode keep p.2 := by
    rw [List.dropWhile_append_of_pos hall, List.dropWhile_cons_of_neg (by simp)]
  rw [readPair, hname, hvalue, List.drop_succ_cons, List.drop_zero, formDecode_formEncode h,
    formDecode_formEncode h]
  rfl

/-- The pairs of a query string are read back, in order. -/
theorem readQuery_queryText (h : FormSafe keep) (pairs : List (List Char × List Char)) :
    readQuery (queryText keep pairs)=some pairs := by
  have hparts : (queryText keep pairs).splitOn '&'=
      if pairs=[] then [[]]
      else pairs.map fun p => formEncode keep p.1 ++ '=' :: formEncode keep p.2 := by
    split
    · next hnil =>
      rw [hnil]
      rfl
    · next hne =>
      refine List.splitOn_intercalate '&' ?_ (by simpa using hne)
      intro part hpart
      obtain ⟨p, _, rfl⟩ := List.mem_map.mp hpart
      simp only [List.mem_append, List.mem_cons, not_or]
      exact ⟨not_mem_formEncode h.ampersand (by decide) (by decide) _, by decide,
        not_mem_formEncode h.ampersand (by decide) (by decide) _⟩
  have hfilter : ((queryText keep pairs).splitOn '&').filter (fun part => decide (part≠[]))=
      pairs.map fun p => formEncode keep p.1 ++ '=' :: formEncode keep p.2 := by
    rw [hparts]
    split
    · next hnil =>
      rw [hnil]
      rfl
    · refine List.filter_eq_self.mpr fun part hpart => ?_
      obtain ⟨p, _, rfl⟩ := List.mem_map.mp hpart
      simp
  have hread := Traverse.mapM_eq_map (f := readPair ∘ fun p : List Char × List Char =>
    formEncode keep p.1 ++ '=' :: formEncode keep p.2) (g := id) fun p (_ : p∈pairs) =>
      readPair_text h p
  rw [readQuery, hfilter, List.mapM_map, hread, List.map_id]

end Keep
end Sovereign.Percent
