import Sovereign.Json

/-! JSON as text: what `json.dumps` writes, with its default separators and in ASCII, and
what `json.loads` reads. How a number is written and read is a parameter. -/
namespace Sovereign.JsonText
open Sovereign

structure Numbers where
  write : Rat → List Char
  read : List Char → Option Rat

/-- What holds of the characters of a text, read off one by one. -/
theorem forall_chars {P : Char → Prop} [DecidablePred P] {cs : List Char}
    (h : cs.all (fun c => decide (P c))=true) : ∀ c∈cs, P c :=
  fun c hc => of_decide_eq_true (List.all_eq_true.mp h c hc)

def isNumberChar (c : Char) : Bool := c.isDigit || decide (c∈['+', '-', '.', 'e', 'E'])

/-- The text of the number reads back. -/
structure Numbers.Reads (n : Numbers) (q : Rat) : Prop where
  read : n.read (n.write q)=some q
  chars : ∀ c∈n.write q, isNumberChar c=true
  ne_nil : n.write q≠[]

def unit (n : Nat) : List Char :=
  ['\\', 'u', Nat.digitChar (n/4096%16), Nat.digitChar (n/256%16), Nat.digitChar (n/16%16),
    Nat.digitChar (n%16)]

/-- One character of a string; outside ASCII as one UTF-16 unit or as two. -/
def escape (c : Char) : List Char :=
  if c= '"' then ['\\', '"']
  else if c= '\\' then ['\\', '\\']
  else if c= '\n' then ['\\', 'n']
  else if c= '\r' then ['\\', 'r']
  else if c= '\t' then ['\\', 't']
  else if c= '\x08' then ['\\', 'b']
  else if c= '\x0c' then ['\\', 'f']
  else if 32 ≤ c.toNat ∧ c.toNat≤126 then [c]
  else if c.toNat < 0x10000 then unit c.toNat
  else unit (0xD800+(c.toNat-0x10000)/1024) ++ unit (0xDC00+(c.toNat-0x10000)%1024)

def quote (s : String) : List Char := '"'::(s.toList.flatMap escape++['"'])

section Dumps
variable (n : Numbers)

mutual
def dumps : Json → List Char
  | .null => ['n', 'u', 'l', 'l']
  | .bool true => ['t', 'r', 'u', 'e']
  | .bool false => ['f', 'a', 'l', 's', 'e']
  | .num q => n.write q
  | .str s => quote s
  | .arr [] => ['[', ']']
  | .arr (x::xs) => '['::(dumps x++dumpsItems xs)
  | .obj [] => ['{', '}']
  | .obj ((k,x)::ms) => '{'::(quote k++ ':':: ' '::(dumps x++dumpsMembers ms))
def dumpsItems : List Json → List Char
  | [] => [']']
  | x::xs => ',':: ' '::(dumps x++dumpsItems xs)
def dumpsMembers : List (String × Json) → List Char
  | [] => ['}']
  | (k,x)::ms => ',':: ' '::(quote k++ ':':: ' '::(dumps x++dumpsMembers ms))
end

end Dumps

mutual
def Numeric (n : Numbers) : Json → Prop
  | .num q => n.Reads q
  | .arr xs => NumericItems n xs
  | .obj ms => NumericMembers n ms
  | _ => True
def NumericItems (n : Numbers) : List Json → Prop
  | [] => True
  | x::xs => Numeric n x ∧ NumericItems n xs
def NumericMembers (n : Numbers) : List (String × Json) → Prop
  | [] => True
  | (_,x)::ms => Numeric n x ∧ NumericMembers n ms
end

section Sorted
variable {n : Numbers}

theorem numericMembers_iff {ms : List (String × Json)} :
    NumericMembers n ms ↔ ∀ m∈ms, Numeric n m.2 := by
  induction ms with
  | nil => simp [NumericMembers]
  | cons m ms ih =>
    obtain ⟨k, x⟩ := m
    rw [NumericMembers, ih, List.forall_mem_cons]

mutual
/-- Sorting the members keeps the numbers. -/
theorem numeric_sortKeys : ∀ {x : Json}, Numeric n x → Numeric n x.sortKeys
  | .null, h => by rwa [Json.sortKeys]
  | .bool _, h => by rwa [Json.sortKeys]
  | .num _, h => by rwa [Json.sortKeys]
  | .str _, h => by rwa [Json.sortKeys]
  | .arr xs, h => by
    rw [Numeric] at h
    rw [Json.sortKeys, Numeric]
    exact numericItems_sort h
  | .obj ms, h => by
    rw [Numeric] at h
    rw [Json.sortKeys, Numeric, numericMembers_iff]
    intro m hm
    have hsorted := numericMembers_iff.mp (numericMembers_sort h)
    exact hsorted m ((List.perm_insertionSort _ _).mem_iff.mp hm)
theorem numericItems_sort : ∀ {xs : List Json}, NumericItems n xs →
    NumericItems n (Json.sortItems xs)
  | [], h => by rwa [Json.sortItems]
  | x::xs, h => by
    rw [NumericItems] at h
    rw [Json.sortItems, NumericItems]
    exact ⟨numeric_sortKeys h.1, numericItems_sort h.2⟩
theorem numericMembers_sort : ∀ {ms : List (String × Json)}, NumericMembers n ms →
    NumericMembers n (Json.sortMembers ms)
  | [], h => by rwa [Json.sortMembers]
  | (k,x)::ms, h => by
    rw [NumericMembers] at h
    rw [Json.sortMembers, NumericMembers]
    exact ⟨numeric_sortKeys h.1, numericMembers_sort h.2⟩
end

end Sorted

def isWs (c : Char) : Bool := decide (c∈[' ', '\t', '\n', '\r'])

def skipWs (cs : List Char) : List Char := cs.dropWhile isWs

def hexVal (c : Char) : Option Nat :=
  if '0' ≤ c ∧ c≤ '9' then some (c.toNat-48)
  else if 'a' ≤ c ∧ c≤ 'f' then some (c.toNat-87)
  else if 'A' ≤ c ∧ c≤ 'F' then some (c.toNat-55)
  else none

def readUnit : List Char → Option (Nat × List Char)
  | a::b::c::d::cs =>
    match hexVal a, hexVal b, hexVal c, hexVal d with
    | some a, some b, some c, some d => some (4096*a+256*b+16*c+d, cs)
    | _, _, _, _ => none
  | _ => none

def simpleEscape (c : Char) : Option Char :=
  match c with
  | '"' => some '"'
  | '\\' => some '\\'
  | '/' => some '/'
  | 'b' => some '\x08'
  | 'f' => some '\x0c'
  | 'n' => some '\n'
  | 'r' => some '\r'
  | 't' => some '\t'
  | _ => none

/-- After `\u`. A high unit needs a low one behind it; a lone one is no character here. -/
def readUnits (cs : List Char) : Option (Char × List Char) :=
  match readUnit cs with
  | none => none
  | some (u, cs) =>
    if 0xD800 ≤ u ∧ u < 0xDC00 then
      match cs with
      | '\\':: 'u'::cs =>
        match readUnit cs with
        | none => none
        | some (v, cs) =>
          if 0xDC00 ≤ v ∧ v < 0xE000 then
            some (Char.ofNat (0x10000+1024*(u-0xD800)+(v-0xDC00)), cs)
          else none
      | _ => none
    else if 0xDC00 ≤ u ∧ u < 0xE000 then none
    else some (Char.ofNat u, cs)

def readChar : List Char → Option (Char × List Char)
  | '\\':: 'u'::cs => readUnits cs
  | '\\'::c::cs => (simpleEscape c).map fun c => (c, cs)
  | ['\\'] => none
  | c::cs => if c.toNat < 32 then none else some (c, cs)
  | [] => none

def readChars : Nat → List Char → Option (List Char × List Char)
  | 0, _ => none
  | f+1, cs =>
    match cs with
    | '"'::cs => some ([], cs)
    | cs =>
      match readChar cs with
      | none => none
      | some (c, cs) => (readChars f cs).map fun p => (c::p.1, p.2)

def readString (cs : List Char) : Option (String × List Char) :=
  (readChars cs.length cs).map fun p => (String.ofList p.1, p.2)

section Loads
variable (n : Numbers)

def readNumber (cs : List Char) : Option (Json × List Char) :=
  (n.read (cs.takeWhile isNumberChar)).map fun q => (.num q, cs.dropWhile isNumberChar)

mutual
/-- A document and the rest; the number is fuel. -/
def readValue : Nat → List Char → Option (Json × List Char)
  | 0, _ => none
  | f+1, cs =>
    match cs with
    | '"'::cs => (readString cs).map fun p => (.str p.1, p.2)
    | '{'::cs =>
      match skipWs cs with
      | '}'::cs => some (.obj [], cs)
      | cs => (readMembers f cs).map fun p => (.obj p.1, p.2)
    | '['::cs =>
      match skipWs cs with
      | ']'::cs => some (.arr [], cs)
      | cs => (readItems f cs).map fun p => (.arr p.1, p.2)
    | 'n':: 'u':: 'l':: 'l'::cs => some (.null, cs)
    | 't':: 'r':: 'u':: 'e'::cs => some (.bool true, cs)
    | 'f':: 'a':: 'l':: 's':: 'e'::cs => some (.bool false, cs)
    | cs => readNumber n cs
def readItems : Nat → List Char → Option (List Json × List Char)
  | 0, _ => none
  | f+1, cs =>
    match readValue f cs with
    | none => none
    | some (x, cs) =>
      match skipWs cs with
      | ']'::cs => some ([x], cs)
      | ','::cs => (readItems f (skipWs cs)).map fun p => (x::p.1, p.2)
      | _ => none
def readMembers : Nat → List Char → Option (List (String × Json) × List Char)
  | 0, _ => none
  | f+1, cs =>
    match cs with
    | '"'::cs =>
      match readString cs with
      | none => none
      | some (k, cs) =>
        match skipWs cs with
        | ':'::cs =>
          match readValue f (skipWs cs) with
          | none => none
          | some (x, cs) =>
            match skipWs cs with
            | '}'::cs => some ([(k, x)], cs)
            | ','::cs => (readMembers f (skipWs cs)).map fun p => ((k, x)::p.1, p.2)
            | _ => none
        | _ => none
    | _ => none
end

def loads (cs : List Char) : Option Json :=
  match readValue n (cs.length+1) (skipWs cs) with
  | none => none
  | some (x, cs) => if skipWs cs=[] then some x else none

end Loads

theorem hexVal_digitChar : ∀ d < 16, hexVal (Nat.digitChar d)=some d := by decide

theorem readUnit_unit {u : Nat} (h : u < 65536) (cs : List Char) :
    readUnit (Nat.digitChar (u/4096%16)::Nat.digitChar (u/256%16)::Nat.digitChar (u/16%16)::
      Nat.digitChar (u%16)::cs)=some (u, cs) := by
  have hdigit : ∀ m, hexVal (Nat.digitChar (m%16))=some (m%16) := fun m =>
    hexVal_digitChar (m%16) (Nat.mod_lt m (by decide))
  have hsum : 4096*(u/4096%16)+256*(u/256%16)+16*(u/16%16)+u%16=u := by omega
  simp only [readUnit, hdigit, hsum]

/-- A code point is no surrogate. -/
theorem toNat_valid (c : Char) : c.toNat < 0xD800 ∨ (0xDFFF < c.toNat ∧ c.toNat < 0x110000) :=
  c.valid

theorem readChar_unit {u : Nat} (h : u < 0xD800 ∨ (0xDFFF < u ∧ u < 0x10000)) (cs : List Char) :
    readChar (unit u++cs)=some (Char.ofNat u, cs) := by
  have hu : u < 65536 := by omega
  simp only [unit, List.cons_append, List.nil_append, readChar, readUnits, readUnit_unit hu]
  rw [if_neg (by omega), if_neg (by omega)]

theorem readChar_units {u v : Nat} (hu : 0xD800 ≤ u ∧ u < 0xDC00) (hv : 0xDC00 ≤ v ∧ v < 0xE000)
    (cs : List Char) : readChar (unit u++(unit v++cs)) =
      some (Char.ofNat (0x10000+1024*(u-0xD800)+(v-0xDC00)), cs) := by
  have hu' : u < 65536 := by omega
  have hv' : v < 65536 := by omega
  simp only [unit, List.cons_append, List.nil_append, readChar, readUnits, readUnit_unit hu',
    readUnit_unit hv']
  rw [if_pos hu, if_pos hv]

theorem pair_eq {m u v w : Nat} (hm : 0x10000 ≤ m ∧ m < 0x110000) (hu : u=0xD800+(m-0x10000)/1024)
    (hv : v=0xDC00+(m-0x10000)%1024) (hw : w=0x10000+1024*(u-0xD800)+(v-0xDC00)) :
    (0xD800 ≤ u ∧ u < 0xDC00) ∧ (0xDC00 ≤ v ∧ v < 0xE000) ∧ w=m := by
  omega

theorem readChar_plain {c : Char} (hb : c≠ '\\') (hc : 32 ≤ c.toNat) (cs : List Char) :
    readChar (c::cs)=some (c, cs) := by
  unfold readChar
  split
  · next he => exact absurd (List.cons.inj he).1 hb
  · next he => exact absurd (List.cons.inj he).1 hb
  · next he => exact absurd (List.cons.inj he).1 hb
  · next he =>
    obtain ⟨rfl, rfl⟩ := List.cons.inj he
    rw [if_neg (by omega)]
  · next he => cases he

theorem readChar_simple {c d : Char} (h : simpleEscape d=some c) (cs : List Char) :
    readChar ('\\'::d::cs)=some (c, cs) := by
  unfold readChar
  split
  · next he =>
    rw [(List.cons.inj (List.cons.inj he).2).1] at h
    cases h
  · next he =>
    obtain ⟨_, he⟩ := List.cons.inj he
    obtain ⟨rfl, rfl⟩ := List.cons.inj he
    rw [h]
    rfl
  · next he => cases (List.cons.inj he).2
  · next hno _ he =>
    obtain ⟨rfl, rfl⟩ := List.cons.inj he
    exact absurd rfl (hno d cs rfl)
  · next he => cases he

/-- How a character is written: by a letter behind a backslash, as it is, or by its units. -/
inductive Escaped (c : Char) : List Char → Prop where
  | letter {d : Char} (h : simpleEscape d=some c) : Escaped c ['\\', d]
  | plain (hq : c≠ '"') (hb : c≠ '\\') (hp : 32 ≤ c.toNat ∧ c.toNat≤126) : Escaped c [c]
  | unit (h : c.toNat < 0x10000) : Escaped c (unit c.toNat)
  | units (h : 0x10000 ≤ c.toNat) : Escaped c
      (unit (0xD800+(c.toNat-0x10000)/1024) ++ unit (0xDC00+(c.toNat-0x10000)%1024))

theorem escape_cases (c : Char) : Escaped c (escape c) := by
  rw [escape]
  split
  · next h => exact .letter (by rw [h]; rfl)
  split
  · next h => exact .letter (by rw [h]; rfl)
  split
  · next h => exact .letter (by rw [h]; rfl)
  split
  · next h => exact .letter (by rw [h]; rfl)
  split
  · next h => exact .letter (by rw [h]; rfl)
  split
  · next h => exact .letter (by rw [h]; rfl)
  split
  · next h => exact .letter (by rw [h]; rfl)
  split
  · next hq hb _ _ _ _ _ h => exact .plain hq hb h
  split
  · next h => exact .unit h
  · next h => exact .units (Nat.not_lt.mp h)

theorem readChar_escape (c : Char) (cs : List Char) : readChar (escape c++cs)=some (c, cs) := by
  have hv := toNat_valid c
  have hc := escape_cases c
  generalize escape c=written at hc ⊢
  cases hc with
  | letter h => exact readChar_simple h cs
  | plain _ hb hp => exact readChar_plain hb hp.1 cs
  | unit h => rw [readChar_unit (by omega), Char.ofNat_toNat]
  | units h =>
    obtain ⟨u, hu⟩ : ∃ u, u=0xD800+(c.toNat-0x10000)/1024 := ⟨_, rfl⟩
    obtain ⟨v, hl⟩ : ∃ v, v=0xDC00+(c.toNat-0x10000)%1024 := ⟨_, rfl⟩
    obtain ⟨w, hw⟩ : ∃ w, w=0x10000+1024*(u-0xD800)+(v-0xDC00) := ⟨_, rfl⟩
    obtain ⟨hu', hl', he⟩ := pair_eq (by omega) hu hl hw
    rw [← hu, ← hl, List.append_assoc, readChar_units hu' hl', ← hw, he, Char.ofNat_toNat]

theorem escape_head (c : Char) : ∃ d ds, escape c=d::ds ∧ d≠ '"' := by
  have hc := escape_cases c
  generalize escape c=written at hc ⊢
  cases hc with
  | letter h => exact ⟨_, _, rfl, by decide⟩
  | plain hq _ _ => exact ⟨_, _, rfl, hq⟩
  | unit h => exact ⟨_, _, rfl, by decide⟩
  | units h => exact ⟨_, _, rfl, by decide⟩

theorem readChars_step {f : Nat} {c : Char} {d : Char} {ds cs : List Char} (hd : d≠ '"')
    (h : readChar (d::ds)=some (c, cs)) :
    readChars (f+1) (d::ds)=(readChars f cs).map fun p => (c::p.1, p.2) := by
  rw [readChars, h]
  intro cs' he
  exact hd (List.cons.inj he).1

theorem readChars_escaped (s r : List Char) {f : Nat} (h : s.length < f) :
    readChars f (s.flatMap escape++ '"'::r)=some (s, r) := by
  induction s generalizing f with
  | nil =>
    cases f with
    | zero => omega
    | succ f => rfl
  | cons c s ih =>
    cases f with
    | zero => omega
    | succ f =>
      obtain ⟨d, ds, he, hd⟩ := escape_head c
      have hread := readChar_escape c (s.flatMap escape++ '"'::r)
      rw [List.flatMap_cons, List.append_assoc]
      rw [he, List.cons_append] at hread ⊢
      rw [readChars_step hd hread, ih (by simpa using h)]
      rfl

theorem length_escaped (s : List Char) : s.length≤(s.flatMap escape).length := by
  induction s with
  | nil => exact Nat.le_refl 0
  | cons c s ih =>
    obtain ⟨d, ds, he, _⟩ := escape_head c
    rw [List.flatMap_cons, List.length_append, he, List.length_cons, List.length_cons]
    omega

theorem readString_quote (s : String) (r : List Char) :
    readString (s.toList.flatMap escape++ '"'::r)=some (s, r) := by
  have hlen : s.toList.length < (s.toList.flatMap escape++ '"'::r).length := by
    have h := length_escaped s.toList
    rw [List.length_append, List.length_cons]
    omega
  rw [readString, readChars_escaped _ _ hlen, Option.map_some, String.ofList_toList]

section RoundTrip
variable {n : Numbers}

def Follows (r : List Char) : Prop := ∀ c∈r.head?, isNumberChar c=false

theorem skipWs_cons {c : Char} (h : isWs c=false) (cs : List Char) : skipWs (c::cs)=c::cs := by
  simp [skipWs, h]

theorem skipWs_blank (cs : List Char) : skipWs (' '::cs)=skipWs cs := by
  simp [skipWs, isWs]

theorem span_number {w r : List Char} (hw : ∀ c∈w, isNumberChar c=true) (hr : Follows r) :
    (w++r).takeWhile isNumberChar=w ∧ (w++r).dropWhile isNumberChar=r := by
  rw [List.takeWhile_append_of_pos hw, List.dropWhile_append_of_pos hw]
  cases r with
  | nil => simp
  | cons c r =>
    have hc := hr c rfl
    simp [hc]

theorem number_head {c : Char} (h : isNumberChar c=true) :
    isWs c=false ∧ c∉['"', '{', '[', ']', 'n', 't', 'f'] := by
  have hall : ∀ d∈[' ', '\t', '\n', '\r', '"', '{', '[', ']', 'n', 't', 'f'], d≠c := by
    intro d hd he
    have hno := forall_chars (P := fun d => isNumberChar d=false) (by decide) d hd
    rw [he, h] at hno
    cases hno
  refine ⟨decide_eq_false fun hm => hall c ?_ rfl, fun hm => hall c ?_ rfl⟩
  · exact List.mem_append_left ['"', '{', '[', ']', 'n', 't', 'f'] hm
  · exact List.mem_append_right [' ', '\t', '\n', '\r'] hm

theorem readValue_number {c : Char} (h : isNumberChar c=true) (f : Nat) (cs : List Char) :
    readValue n (f+1) (c::cs)=readNumber n (c::cs) := by
  have hm := (number_head h).2
  simp only [List.mem_cons, List.not_mem_nil, or_false, not_or] at hm
  obtain ⟨hq, ho, hb, _, hn, ht, hf⟩ := hm
  rw [readValue]
  · intro cs' he
    exact hq (List.cons.inj he).1
  · intro cs' he
    exact ho (List.cons.inj he).1
  · intro cs' he
    exact hb (List.cons.inj he).1
  · intro cs' he
    exact hn (List.cons.inj he).1
  · intro cs' he
    exact ht (List.cons.inj he).1
  · intro cs' he
    exact hf (List.cons.inj he).1

theorem dumps_head {x : Json} (h : Numeric n x) :
    ∃ c cs, dumps n x=c::cs ∧ isWs c=false ∧ c≠ ']' := by
  cases x with
  | null => exact ⟨_, _, by rw [dumps], by decide, by decide⟩
  | bool b =>
    cases b with
    | true => exact ⟨_, _, by rw [dumps], by decide, by decide⟩
    | false => exact ⟨_, _, by rw [dumps], by decide, by decide⟩
  | num q =>
    rw [Numeric] at h
    rw [dumps]
    cases hw : n.write q with
    | nil => exact absurd hw h.ne_nil
    | cons c cs =>
      obtain ⟨hws, hm⟩ := number_head (h.chars c (by simp [hw]))
      exact ⟨c, cs, rfl, hws, fun he => hm (by simp [he])⟩
  | str s => exact ⟨_, _, by rw [dumps, quote], by decide, by decide⟩
  | arr xs =>
    cases xs with
    | nil => exact ⟨_, _, by rw [dumps], by decide, by decide⟩
    | cons x xs => exact ⟨_, _, by rw [dumps], by decide, by decide⟩
  | obj ms =>
    cases ms with
    | nil => exact ⟨_, _, by rw [dumps], by decide, by decide⟩
    | cons m ms => exact ⟨_, _, by rw [dumps], by decide, by decide⟩

theorem follows_items (xs : List Json) (r : List Char) : Follows (dumpsItems n xs++r) := by
  intro c hc
  cases xs with
  | nil =>
    rw [dumpsItems] at hc
    cases hc
    decide
  | cons x xs =>
    rw [dumpsItems] at hc
    cases hc
    decide

theorem follows_members (ms : List (String × Json)) (r : List Char) :
    Follows (dumpsMembers n ms++r) := by
  intro c hc
  cases ms with
  | nil =>
    rw [dumpsMembers] at hc
    cases hc
    decide
  | cons m ms =>
    rw [dumpsMembers] at hc
    cases hc
    decide

theorem skipWs_dumps {x : Json} (h : Numeric n x) (r : List Char) :
    skipWs (dumps n x++r)=dumps n x++r := by
  obtain ⟨c, cs, he, hws, _⟩ := dumps_head h
  rw [he, List.cons_append, skipWs_cons hws]

theorem dumps_pos {x : Json} (h : Numeric n x) : 0 < (dumps n x).length := by
  obtain ⟨c, cs, he, _, _⟩ := dumps_head h
  rw [he]
  exact Nat.succ_pos _

theorem quote_append (s : String) (r : List Char) :
    quote s++r= '"'::(s.toList.flatMap escape++ '"'::r) := by
  rw [quote, List.cons_append, List.append_assoc, List.singleton_append]

theorem readValue_items {f : Nat} {c : Char} {cs : List Char} (hws : isWs c=false) (hc : c≠ ']') :
    readValue n (f+1) ('['::c::cs)=(readItems n f (c::cs)).map fun p => (.arr p.1, p.2) := by
  rw [readValue, skipWs_cons hws]
  split
  · next he => exact absurd (List.cons.inj he).1 hc
  · rfl

theorem readValue_members (f : Nat) (cs : List Char) :
    readValue n (f+1) ('{':: '"'::cs) =
      (readMembers n f ('"'::cs)).map fun p => (.obj p.1, p.2) := by
  rw [readValue, skipWs_cons (by decide)]
  rfl

theorem readValue_write {q : Rat} (h : n.Reads q) (f : Nat) {r : List Char} (hr : Follows r) :
    readValue n (f+1) (n.write q++r)=some (.num q, r) := by
  obtain ⟨htake, hdrop⟩ := span_number h.chars hr
  cases hw : n.write q with
  | nil => exact absurd hw h.ne_nil
  | cons c cs =>
    have hc := h.chars c (by simp [hw])
    have hread : n.read (c::cs)=some q := hw ▸ h.read
    rw [hw] at htake hdrop
    rw [List.cons_append, readValue_number hc, readNumber, ← List.cons_append, htake, hdrop, hread]
    rfl

theorem fuel_succ {x : Json} {f : Nat} (h : Numeric n x) (hf : (dumps n x).length ≤ f) :
    ∃ g, f=g+1 := by
  have hpos := dumps_pos h
  exact ⟨f-1, by omega⟩

mutual
/-- With as much fuel as the text is long a document is read and the rest is left. -/
theorem readValue_dumps : ∀ (x : Json) (f : Nat) (r : List Char), Numeric n x →
    (dumps n x).length ≤ f → Follows r → readValue n f (dumps n x++r)=some (x, r)
  | .null, f, r, h, hf, _ => by
    obtain ⟨f, rfl⟩ := fuel_succ h hf
    rw [dumps]
    rfl
  | .bool true, f, r, h, hf, _ => by
    obtain ⟨f, rfl⟩ := fuel_succ h hf
    rw [dumps]
    rfl
  | .bool false, f, r, h, hf, _ => by
    obtain ⟨f, rfl⟩ := fuel_succ h hf
    rw [dumps]
    rfl
  | .num q, f, r, h, hf, hr => by
    obtain ⟨f, rfl⟩ := fuel_succ h hf
    rw [Numeric] at h
    rw [dumps, readValue_write h f hr]
  | .str s, f, r, h, hf, _ => by
    obtain ⟨f, rfl⟩ := fuel_succ h hf
    rw [dumps, quote_append, readValue, readString_quote]
    rfl
  | .arr [], f, r, h, hf, _ => by
    obtain ⟨f, rfl⟩ := fuel_succ h hf
    rw [dumps]
    rfl
  | .obj [], f, r, h, hf, _ => by
    obtain ⟨f, rfl⟩ := fuel_succ h hf
    rw [dumps]
    rfl
  | .arr (x::xs), f, r, h, hf, _ => by
    obtain ⟨f, rfl⟩ := fuel_succ h hf
    rw [Numeric, NumericItems] at h
    rw [dumps] at hf ⊢
    simp only [List.length_cons, List.length_append] at hf
    have hread := readItems_dumps x xs f r h.1 h.2 (by rw [List.length_append]; omega)
    obtain ⟨c, cs, he, hws, hc⟩ := dumps_head h.1
    rw [List.cons_append, List.append_assoc]
    rw [he, List.cons_append] at hread ⊢
    rw [readValue_items hws hc, hread]
    rfl
  | .obj ((k,x)::ms), f, r, h, hf, _ => by
    obtain ⟨f, rfl⟩ := fuel_succ h hf
    rw [Numeric, NumericMembers] at h
    rw [dumps] at hf ⊢
    simp only [List.length_cons, List.length_append] at hf
    have hread := readMembers_dumps k x ms f r h.1 h.2
      (by simp only [List.length_append, List.length_cons]; omega)
    simp only [List.cons_append, List.append_assoc, quote_append] at hread ⊢
    rw [readValue_members, hread]
    rfl
termination_by x => sizeOf x
theorem readItems_dumps : ∀ (x : Json) (xs : List Json) (f : Nat) (r : List Char), Numeric n x →
    NumericItems n xs → (dumps n x++dumpsItems n xs).length ≤ f →
    readItems n f (dumps n x++(dumpsItems n xs++r))=some (x::xs, r)
  | x, [], f, r, hx, _, hf => by
    rw [List.length_append] at hf
    obtain ⟨f, rfl⟩ := fuel_succ (f := f) hx (by omega)
    rw [dumpsItems, List.length_singleton] at hf
    have hread := readValue_dumps x f (dumpsItems n []++r) hx (by omega) (follows_items [] r)
    rw [readItems, hread, dumpsItems]
    simp only [List.singleton_append, skipWs_cons (c := ']') (by decide)]
  | x, y::ys, f, r, hx, hxs, hf => by
    rw [List.length_append] at hf
    obtain ⟨f, rfl⟩ := fuel_succ (f := f) hx (by omega)
    rw [NumericItems] at hxs
    rw [dumpsItems] at hf
    simp only [List.length_cons, List.length_append] at hf
    have hread := readValue_dumps x f (dumpsItems n (y::ys)++r) hx (by omega)
      (follows_items (y::ys) r)
    have hrest := readItems_dumps y ys f r hxs.1 hxs.2 (by rw [List.length_append]; omega)
    rw [readItems, hread, dumpsItems]
    simp only [List.cons_append, List.append_assoc, skipWs_cons (c := ',') (by decide),
      skipWs_blank, skipWs_dumps hxs.1, hrest, Option.map_some]
termination_by x xs => 1+sizeOf x+sizeOf xs
theorem readMembers_dumps : ∀ (k : String) (x : Json) (ms : List (String × Json)) (f : Nat)
    (r : List Char), Numeric n x → NumericMembers n ms →
    (quote k++ ':':: ' '::(dumps n x++dumpsMembers n ms)).length ≤ f →
    readMembers n f (quote k++ ':':: ' '::(dumps n x++(dumpsMembers n ms++r)))=some ((k, x)::ms, r)
  | k, x, [], f, r, hx, _, hf => by
    simp only [List.length_append, List.length_cons] at hf
    obtain ⟨f, rfl⟩ := fuel_succ (f := f) hx (by omega)
    rw [dumpsMembers, List.length_singleton] at hf
    have hread := readValue_dumps x f (dumpsMembers n []++r) hx (by omega) (follows_members [] r)
    rw [quote_append, readMembers, readString_quote]
    simp only [skipWs_cons (c := ':') (by decide), skipWs_blank, skipWs_dumps hx, hread]
    rw [dumpsMembers]
    simp only [List.singleton_append, skipWs_cons (c := '}') (by decide)]
  | k, x, (l,y)::ms, f, r, hx, hms, hf => by
    simp only [List.length_append, List.length_cons] at hf
    obtain ⟨f, rfl⟩ := fuel_succ (f := f) hx (by omega)
    rw [NumericMembers] at hms
    rw [dumpsMembers] at hf
    simp only [List.length_cons, List.length_append] at hf
    have hread := readValue_dumps x f (dumpsMembers n ((l, y)::ms)++r) hx (by omega)
      (follows_members ((l, y)::ms) r)
    have hrest := readMembers_dumps l y ms f r hms.1 hms.2
      (by simp only [List.length_append, List.length_cons]; omega)
    rw [quote_append, readMembers, readString_quote]
    simp only [skipWs_cons (c := ':') (by decide), skipWs_blank, skipWs_dumps hx, hread]
    rw [dumpsMembers]
    simp only [List.cons_append, List.append_assoc, skipWs_cons (c := ',') (by decide),
      skipWs_blank]
    rw [quote_append] at hrest ⊢
    rw [skipWs_cons (c := '"') (by decide), hrest]
    rfl
termination_by _ x ms => 1+sizeOf x+sizeOf ms
end

/-- `json.loads(json.dumps(x))`. -/
theorem loads_dumps {x : Json} (h : Numeric n x) : loads n (dumps n x)=some x := by
  have hread := readValue_dumps x ((dumps n x).length+1) [] h (by omega) (by intro c hc; cases hc)
  have hws := skipWs_dumps h []
  rw [List.append_nil] at hread hws
  rw [loads, hws, hread]
  rfl

end RoundTrip
end Sovereign.JsonText
