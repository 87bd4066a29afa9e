import Sovereign.Mtls
import Mathlib.Data.List.Forall2

/-! Elements of the client certificate header as the grammar writes them, and the identity that
is read from them. -/
namespace Sovereign.Mtls

inductive Key where
  | by
  | hash
  | cert
  | chain
  | subject
  | uri
  | dns
deriving DecidableEq

def Key.letters : Key → List Char
  | .by => "by".toList
  | .hash => "hash".toList
  | .cert => "cert".toList
  | .chain => "chain".toList
  | .subject => "subject".toList
  | .uri => "uri".toList
  | .dns => "dns".toList

/-- A pair, its key in any letter case. -/
structure Pair where
  name : Key
  key : List Char
  value : List Char
  spelled : List.Forall₂ (fun letter c => c=letter ∨ c=letter.toUpper) name.letters key

def NeedsQuotes (v : List Char) : Prop :=
  (∃ c∈v, Special c ∨ c = '=') ∨ v.head?.any Text.isSpace ∨ v.getLast?.any Text.isSpace

instance (v : List Char) : Decidable (NeedsQuotes v) :=
  inferInstanceAs (Decidable (_ ∨ _ ∨ _))

def encodeValue (v : List Char) : List Char :=
  if NeedsQuotes v then '"'::escape v++['"'] else v

def Pair.encode (p : Pair) : List Char := p.key ++ '='::encodeValue p.value

def encodeElement (pairs : List Pair) : List Char := [';'].intercalate (pairs.map Pair.encode)

def encode (elements : List (List Pair)) : List Char :=
  [','].intercalate (elements.map encodeElement)

def identityOf (pairs : List Pair) : Option String :=
  (pairs.find? fun p => decide (p.name=.uri)).bind fun p =>
    if p.value=[] then none else some (String.ofList p.value)

/-! A pair is a field that the scanner reads. -/

/-- Both spellings of the letters that occur in keys. -/
theorem letters_plain (k : Key) : ∀ d∈k.letters, ∀ c∈[d, d.toUpper],
    (¬Special c ∧ c ≠ '=') ∧ Text.isSpace c=false ∧
      (if c = 'ı' then 'I' else c.toUpper)=d.toUpper := by
  intro d hd c hc
  have hall : (k.letters.all fun d => [d, d.toUpper].all fun c =>
      decide ((¬Special c ∧ c ≠ '=') ∧ Text.isSpace c=false ∧
        (if c = 'ı' then 'I' else c.toUpper)=d.toUpper))=true := by
    cases k <;> decide +kernel
  exact of_decide_eq_true (List.all_eq_true.mp (List.all_eq_true.mp hall d hd) c hc)

theorem spelled_letters {letters key : List Char}
    (h : List.Forall₂ (fun letter c => c=letter ∨ c=letter.toUpper) letters key)
    (hl : ∀ d∈letters, ∀ c∈[d, d.toUpper], (¬Special c ∧ c ≠ '=') ∧ Text.isSpace c=false ∧
      (if c = 'ı' then 'I' else c.toUpper)=d.toUpper) :
    (∀ c∈key, (¬Special c ∧ c ≠ '=') ∧ Text.isSpace c=false) ∧
      upper key=letters.map Char.toUpper := by
  induction h with
  | nil => exact ⟨fun c hc => (by cases hc), rfl⟩
  | @cons d c letters key hdc _ ih =>
    obtain ⟨hd, hl⟩ := List.forall_mem_cons.mp hl
    obtain ⟨hplain, hupper⟩ := ih hl
    obtain ⟨hc, hspace, hc'⟩ := hd c (by simpa using hdc)
    refine ⟨List.forall_mem_cons.mpr ⟨⟨hc, hspace⟩, hplain⟩, ?_⟩
    simp only [upper, List.map_cons] at hupper ⊢
    rw [hc', hupper]

theorem dropWhile_self {p : Char → Bool} {s : List Char} (h : s.head?.any p=false) :
    s.dropWhile p=s := by
  cases s with
  | nil => rfl
  | cons c s => exact List.dropWhile_cons_of_neg (by simpa using h)

theorem strip_self {s : List Char} (hhead : s.head?.any Text.isSpace=false)
    (hlast : s.getLast?.any Text.isSpace=false) : Text.strip s=s := by
  rw [Text.strip, dropWhile_self hhead, dropWhile_self (by rwa [List.head?_reverse]),
    List.reverse_reverse]

theorem any_eq_false_of_mem {p : Char → Bool} {s : List Char} (h : ∀ c∈s, p c=false)
    {o : Option Char} (ho : ∀ c∈o, c∈s) : o.any p=false := by
  cases o with
  | none => rfl
  | some c => exact h c (ho c rfl)

def Pair.field (p : Pair) : Field where
  key := p.key
  value := p.value
  quoted := decide (NeedsQuotes p.value)
  key_plain := fun c hc => ((spelled_letters p.spelled (letters_plain p.name)).1 c hc).1
  value_plain := by
    intro h
    have hq := of_decide_eq_false h
    simp only [NeedsQuotes, not_or, Bool.not_eq_true] at hq
    obtain ⟨hplain, hhead, hlast⟩ := hq
    exact ⟨fun c hc hs => hplain ⟨c, hc, .inl hs⟩, strip_self hhead hlast⟩

theorem Pair.field_text (p : Pair) : p.field.text=p.encode := by
  simp only [Field.text, Field.valueText, Pair.field, Pair.encode, encodeValue, decide_eq_true_eq]

theorem Pair.field_isUri (p : Pair) : p.field.isUri=decide (p.name=.uri) := by
  obtain ⟨hplain, hupper⟩ := spelled_letters p.spelled (letters_plain p.name)
  have hspace : ∀ c∈p.key, Text.isSpace c=false := fun c hc => (hplain c hc).2
  have hstrip : Text.strip p.key=p.key := strip_self
    (any_eq_false_of_mem hspace fun c hc => List.mem_of_mem_head? hc)
    (any_eq_false_of_mem hspace fun c hc => List.mem_of_mem_getLast? hc)
  simp only [Field.isUri, Pair.field, hstrip, hupper]
  cases p.name <;> decide

theorem encodeElement_fields (pairs : List Pair) :
    encodeElement pairs=element (pairs.map Pair.field) := by
  induction pairs with
  | nil => rfl
  | cons p rest ih =>
    cases rest with
    | nil => simp [encodeElement, element, Pair.field_text]
    | cons q rest =>
      simp only [encodeElement, List.map_cons] at ih ⊢
      rw [List.intercalate_cons_cons, ih]
      simp [element, Pair.field_text]

theorem encode_cons (first : List Pair) (others : List (List Pair)) :
    ∃ rest, encode (first::others)=element (first.map Pair.field)++rest ∧
      (rest=[] ∨ ∃ others', rest = ','::others') := by
  cases others with
  | nil => exact ⟨[], by simp [encode, encodeElement_fields], .inl rfl⟩
  | cons second others =>
    refine ⟨','::encode (second::others), ?_, .inr ⟨_, rfl⟩⟩
    simp [encode, List.intercalate_cons_cons, encodeElement_fields]

theorem leafIdentity_pairs (pairs : List Pair) :
    leafIdentity ((pairs.map Pair.field).map Field.text)=identityOf pairs := by
  induction pairs with
  | nil => rfl
  | cons p pairs ih =>
    rw [List.map_cons, List.map_cons, leafIdentity_cons, p.field_isUri, identityOf, List.find?_cons]
    by_cases hu : p.name=.uri
    · simp only [hu, decide_true, if_true]
      rfl
    · simp only [hu, decide_false, Bool.false_eq_true, if_false]
      exact ih

/-- The identity that is read from an encoded header is the first URI of its first element. -/
theorem parse_encode (first : List Pair) (others : List (List Pair)) :
    parseXfccIdentity (some (String.ofList (encode (first::others))))=identityOf first := by
  obtain ⟨rest, he, hr⟩ := encode_cons first others
  unfold parseXfccIdentity
  simp only [String.toList_ofList]
  cases first with
  | nil =>
    have hleaf : (splitUnquoted (encode ([]::others)) ',').headD []=[] := by
      rw [he]
      exact split_leaf [] hr
    rw [hleaf]
    split <;> rfl
  | cons p pairs =>
    have hequal : '='∈element ((p::pairs).map Pair.field)++rest :=
      List.mem_append_left _
        (mem_element (List.mem_map_of_mem List.mem_cons_self) p.field.equal_mem)
    have hstrip := List.ne_nil_of_mem (mem_strip hequal (by decide))
    rw [he, if_neg hstrip, split_leaf _ hr, split_fields (by simp), leafIdentity_pairs]

/-- Decoding is exact, and the header with nothing but the first URI of the first element has the
same identity. -/
theorem xfcc_identity_exact (first : List Pair) (others : List (List Pair)) :
    parseXfccIdentity (some (String.ofList (encode (first::others))))=identityOf first ∧
      parseXfccIdentity (some (String.ofList (encode (first::others))))=
        parseXfccIdentity
          (some (String.ofList (encode [(first.find? fun p => decide (p.name=.uri)).toList]))) := by
  have halone : identityOf (first.find? fun p => decide (p.name=.uri)).toList=identityOf first := by
    rw [identityOf, identityOf]
    cases hf : first.find? fun p => decide (p.name=.uri) with
    | none => rfl
    | some p =>
      have hfound := List.find?_some hf
      have hp : p.name=.uri := by simpa using hfound
      simp [hp]
  exact ⟨parse_encode first others, by rw [parse_encode, parse_encode, halone]⟩

end Sovereign.Mtls
