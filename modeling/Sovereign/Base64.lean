import Mathlib.Data.List.Basic
import Mathlib.Data.List.DropRight

/-! Base64: bytes as sextets, sextets as letters, with padding and without. The reader is the
forgiving one of the web platform: it skips blanks and takes the padding or its absence. -/
namespace Sovereign.Base64

def alphabet : List Char :=
  "ABCDEFGHIJKLMNOPQRSTUVWXYZabcdefghijklmnopqrstuvwxyz0123456789+/".toList

def letter (n : Nat) : Char := alphabet.getD n 'A'

def sextets : List UInt8 → List Nat
  | [] => []
  | [a] => [a.toNat/4, a.toNat%4*16]
  | [a, b] => [a.toNat/4, a.toNat%4*16+b.toNat/16, b.toNat%16*4]
  | a::b::c::rest =>
    a.toNat/4::(a.toNat%4*16+b.toNat/16)::(b.toNat%16*4+c.toNat/64)::c.toNat%64::sextets rest

/-- Bits that do not fill a byte are dropped. -/
def bytes : List Nat → List UInt8
  | x::y::z::w::rest =>
    UInt8.ofNat (x*4+y/16)::UInt8.ofNat (y%16*16+z/4)::UInt8.ofNat (z%4*64+w)::bytes rest
  | [x, y, z] => [UInt8.ofNat (x*4+y/16), UInt8.ofNat (y%16*16+z/4)]
  | [x, y] => [UInt8.ofNat (x*4+y/16)]
  | _ => []

def padding (n : Nat) : List Char := List.replicate ((4-n%4)%4) '='

def btoa (data : List UInt8) : List Char :=
  (sextets data).map letter ++ padding (sextets data).length

def unpad (text : List Char) : List Char :=
  match text.reverse with
  | '=' :: '=' :: rest => rest.reverse
  | '=' :: rest => rest.reverse
  | _ => text

def isBlank (c : Char) : Bool := decide (c∈[' ', '\t', '\n', '\x0c', '\r'])

def atob (text : List Char) : Option (List UInt8) :=
  let text := text.filter fun c => !isBlank c
  let body := if text.length%4=0 then unpad text else text
  if body.length%4=1 then none else (body.mapM fun c => alphabet.idxOf? c).map bytes

theorem letter_spec : ∀ n < 64, alphabet.idxOf? (letter n)=some n ∧ letter n ≠ '=' ∧
    isBlank (letter n)=false := by
  decide +kernel

theorem mapM_letters {s : List Nat} (h : ∀ n∈s, n < 64) :
    (s.map letter).mapM (fun c => alphabet.idxOf? c)=some s := by
  induction s with
  | nil => rfl
  | cons n s ih =>
    obtain ⟨hn, hs⟩ := List.forall_mem_cons.mp h
    rw [List.map_cons, List.mapM_cons, (letter_spec n hn).1, ih hs]
    rfl

theorem filter_letters {s : List Nat} (h : ∀ n∈s, n < 64) (k : Nat) :
    (s.map letter ++ List.replicate k '=').filter (fun c => !isBlank c)=
      s.map letter ++ List.replicate k '=' := by
  rw [List.filter_eq_self]
  intro c hc
  obtain hc | hc := List.mem_append.mp hc
  · obtain ⟨n, hn, rfl⟩ := List.mem_map.mp hc
    rw [(letter_spec n (h n hn)).2.2]
    rfl
  · rw [List.eq_of_mem_replicate hc]
    rfl

theorem unpad_letters {s : List Nat} (h : ∀ n∈s, n < 64) {k : Nat} (hk : k≤2) :
    unpad (s.map letter ++ List.replicate k '=')=s.map letter := by
  have hlast : ∀ c∈(s.map letter).reverse.head?, c ≠ '=' := by
    intro c hc
    obtain ⟨n, hn, rfl⟩ := List.mem_map.mp (List.mem_reverse.mp (List.mem_of_mem_head? hc))
    exact (letter_spec n (h n hn)).2.1
  have hback : (s.map letter).reverse.reverse=s.map letter := List.reverse_reverse _
  rw [unpad, List.reverse_append, List.reverse_replicate]
  generalize (s.map letter).reverse=back at hlast hback
  rw [← hback]
  obtain rfl | rfl | rfl : k=0 ∨ k=1 ∨ k=2 := by omega
  · cases back with
    | nil => rfl
    | cons c rest =>
      have hc : c ≠ '=' := hlast c rfl
      simp [hc]
  · cases back with
    | nil => rfl
    | cons c rest =>
      have hc : c ≠ '=' := hlast c rfl
      simp [List.replicate, hc]
  · rfl

theorem sextets_spec (data : List UInt8) :
    (∀ n∈sextets data, n < 64) ∧ (sextets data).length%4≠1 ∧ bytes (sextets data)=data := by
  induction data using sextets.induct with
  | case1 => simp [sextets, bytes]
  | case2 a =>
    have ha := a.toNat_lt
    refine ⟨?_, by simp [sextets], ?_⟩
    · simp only [sextets, List.mem_cons, List.not_mem_nil, or_false]
      rintro n (rfl | rfl) <;> omega
    · simp only [sextets, bytes, List.cons.injEq, and_true, ← UInt8.toNat_inj,
        UInt8.toNat_ofNat']
      omega
  | case3 a b =>
    have ha := a.toNat_lt
    have hb := b.toNat_lt
    refine ⟨?_, by simp [sextets], ?_⟩
    · simp only [sextets, List.mem_cons, List.not_mem_nil, or_false]
      rintro n (rfl | rfl | rfl) <;> omega
    · simp only [sextets, bytes, List.cons.injEq, and_true, ← UInt8.toNat_inj,
        UInt8.toNat_ofNat']
      omega
  | case4 a b c rest ih =>
    have ha := a.toNat_lt
    have hb := b.toNat_lt
    have hc := c.toNat_lt
    obtain ⟨hlt, hlen, hbytes⟩ := ih
    refine ⟨?_, ?_, ?_⟩
    · simp only [sextets, List.mem_cons]
      rintro n (rfl | rfl | rfl | rfl | hn)
      · omega
      · omega
      · omega
      · omega
      · exact hlt n hn
    · simp only [sextets, List.length_cons]
      omega
    · simp only [sextets, bytes, hbytes, List.cons.injEq, and_true, ← UInt8.toNat_inj,
        UInt8.toNat_ofNat']
      omega

/-- Padded letters are read as the bytes they stand for. -/
theorem atob_letters {s : List Nat} (h : ∀ n∈s, n < 64) (hlen : s.length%4≠1) :
    atob (s.map letter ++ padding s.length)=some (bytes s) := by
  have hk : (4-s.length%4)%4≤2 := by omega
  have hzero : (s.map letter ++ padding s.length).length%4=0 := by
    simp only [padding, List.length_append, List.length_map, List.length_replicate]
    omega
  have hfilter := filter_letters h ((4-s.length%4)%4)
  rw [padding] at hzero ⊢
  simp only [atob, hfilter, if_pos hzero, unpad_letters h hk, List.length_map, if_neg hlen,
    mapM_letters h, Option.map_some]

end Sovereign.Base64
