import Sovereign.Text
import Mathlib.Data.List.TakeWhile

/-! The verified peer identity in `X-Forwarded-Client-Cert`: comma-separated elements of
`Key=Value` pairs between semicolons, with quoted values. What the mesh writes is read
back. -/
namespace Sovereign.Mtls
open Sovereign

def scan (sep : Char) (inQuotes escaped : Bool) (current : List Char)
    (parts : List (List Char)) : List Char → List (List Char)
  | [] => parts++[current]
  | ch::rest =>
    if escaped then scan sep inQuotes false (current++[ch]) parts rest
    else if ch = '\\' then scan sep inQuotes true (current++[ch]) parts rest
    else if ch = '"' then scan sep (!inQuotes) false (current++[ch]) parts rest
    else if ch=sep ∧ inQuotes=false then scan sep false false [] (parts++[current]) rest
    else scan sep inQuotes false (current++[ch]) parts rest

def splitUnquoted (value : List Char) (sep : Char) : List (List Char) :=
  scan sep false false [] [] value

def unescape : List Char → List Char
  | [] => []
  | [c] => if c = '\\' then [] else [c]
  | c::d::rest => if c = '\\' then d::unescape rest else c::unescape (d::rest)

def unquote (value : List Char) : List Char :=
  let value := Text.strip value
  if 2 ≤ value.length ∧ value.head?=some '"' ∧ value.getLast?=some '"' then
    unescape (value.tail.dropLast)
  else value

/-- `str.upper` as far as it can spell ASCII letters: the dotless i is one more I. -/
def upper (s : List Char) : List Char := s.map fun c => if c = 'ı' then 'I' else c.toUpper

def leafIdentity : List (List Char) → Option String
  | [] => none
  | pair::rest =>
    if '='∈pair then
      let key := pair.takeWhile (· != '=')
      let val := (pair.dropWhile (· != '=')).tail
      if upper (Text.strip key)="URI".toList then
        let identity := unquote val
        if identity=[] then none else some (String.ofList identity)
      else leafIdentity rest
    else leafIdentity rest

def parseXfccIdentity (raw : Option String) : Option String :=
  match raw with
  | none => none
  | some raw =>
    if Text.strip raw.toList=[] then none
    else leafIdentity (splitUnquoted ((splitUnquoted raw.toList ',').headD []) ';')

def escape (v : List Char) : List Char :=
  v.flatMap fun c => if c = '\\' ∨ c = '"' then ['\\', c] else [c]

def Special (c : Char) : Prop := c = '\\' ∨ c = '"' ∨ c = ',' ∨ c = ';'

instance (c : Char) : Decidable (Special c) :=
  inferInstanceAs (Decidable (c = '\\' ∨ c = '"' ∨ c = ',' ∨ c = ';'))

/-- A pair of an element; a value that is not quoted has nothing that needs quotes. -/
structure Field where
  key : List Char
  value : List Char
  quoted : Bool
  key_plain : ∀ c∈key, ¬Special c ∧ c ≠ '='
  value_plain : quoted=false → (∀ c∈value, ¬Special c) ∧ Text.strip value=value

namespace Field

def valueText (f : Field) : List Char := if f.quoted then '"'::escape f.value++['"'] else f.value

def text (f : Field) : List Char := f.key ++ '='::f.valueText

def isUri (f : Field) : Bool := decide (upper (Text.strip f.key)="URI".toList)

end Field

def element : List Field → List Char
  | [] => []
  | [f] => f.text
  | f::g::rest => f.text ++ ';'::element (g::rest)

/-- The header starts with an element whose first URI is the identity. -/
def Carries (header identity : String) : Prop :=
  ∃ before uri after rest, header.toList=element (before++uri::after)++rest ∧
    (rest=[] ∨ ∃ others, rest = ','::others) ∧ (∀ f∈before, f.isUri=false) ∧
    uri.isUri=true ∧ uri.value=identity.toList

section Scan
variable {sep : Char}

def Opaque (sep : Char) (text : List Char) : Prop :=
  ∀ current parts rest, scan sep false false current parts (text++rest)=
    scan sep false false (current++text) parts rest

theorem Opaque.nil : Opaque sep [] := by
  intro current parts rest
  simp

theorem Opaque.append {a b : List Char} (ha : Opaque sep a) (hb : Opaque sep b) :
    Opaque sep (a++b) := by
  intro current parts rest
  rw [List.append_assoc, ha, hb, List.append_assoc]

theorem Opaque.plain {c : Char} (hc : ¬(c = '\\' ∨ c = '"')) (hsep : c≠sep) : Opaque sep [c] := by
  intro current parts rest
  simp only [not_or] at hc
  simp [scan, hc, hsep]

theorem Opaque.of_forall {text : List Char} (h : ∀ c∈text, Opaque sep [c]) : Opaque sep text := by
  induction text with
  | nil => exact .nil
  | cons c cs ih =>
    exact .append (h c List.mem_cons_self) (ih fun d hd => h d (List.mem_cons_of_mem c hd))

/-- Between quotes an escaped value is passed over to its closing quote. -/
theorem scan_escape (v current : List Char) (parts : List (List Char)) (rest : List Char) :
    scan sep true false current parts (escape v ++ '"'::rest)=
      scan sep false false (current++escape v++['"']) parts rest := by
  induction v generalizing current with
  | nil => simp [escape, scan]
  | cons c cs ih =>
    simp only [escape, List.flatMap_cons] at ih ⊢
    by_cases hc : c = '\\' ∨ c = '"'
    · rw [if_pos hc]
      simp only [List.cons_append, List.nil_append, scan]
      simp [ih]
    · rw [if_neg hc]
      simp only [not_or] at hc
      simp [scan, hc, ih]

theorem Opaque.quote (v : List Char) : Opaque sep ('"'::escape v++['"']) := by
  intro current parts rest
  simp only [List.cons_append, List.append_assoc, List.nil_append, scan]
  simp [scan_escape]

theorem Opaque.field (f : Field) (hs : sep = ',' ∨ sep = ';') : Opaque sep f.text := by
  have hplain : ∀ c, ¬Special c → Opaque sep [c] := by
    intro c hc
    simp only [Special, not_or] at hc
    refine .plain (by simp [hc]) ?_
    obtain rfl | rfl := hs
    · exact hc.2.2.1
    · exact hc.2.2.2
  have hkey : Opaque sep f.key := .of_forall fun c hc => hplain c (f.key_plain c hc).1
  have hequal : Opaque sep ['='] := hplain '=' (by decide)
  have hvalue : Opaque sep f.valueText := by
    unfold Field.valueText
    split
    · exact .quote f.value
    · next hq =>
      exact .of_forall fun c hc => hplain c ((f.value_plain (by simpa using hq)).1 c hc)
  exact hkey.append (hequal.append hvalue)

theorem Opaque.element (fields : List Field) : Opaque ',' (element fields) := by
  induction fields with
  | nil => exact .nil
  | cons f rest ih =>
    cases rest with
    | nil => exact .field f (.inl rfl)
    | cons g rest =>
      have hsemi : Opaque ',' [';'] := .plain (by decide) (by decide)
      exact (Opaque.field f (.inl rfl)).append (hsemi.append ih)

/-- At its separator the scanner ends a part. -/
theorem scan_sep (hs : sep = ',' ∨ sep = ';') (current : List Char) (parts : List (List Char))
    (rest : List Char) :
    scan sep false false current parts (sep::rest)=
      scan sep false false [] (parts++[current]) rest := by
  obtain rfl | rfl := hs
  · simp [scan]
  · simp [scan]

theorem scan_head (q e : Bool) (current first : List Char) (parts : List (List Char))
    (rest : List Char) : (scan sep q e current (first::parts) rest).head?=some first := by
  induction rest generalizing q e current parts with
  | nil => simp [scan]
  | cons ch rest ih =>
    simp only [scan]
    split
    · exact ih ..
    · split
      · exact ih ..
      · split
        · exact ih ..
        · split
          · exact ih ..
          · exact ih ..

theorem split_leaf (fields : List Field) {rest : List Char}
    (hr : rest=[] ∨ ∃ others, rest = ','::others) :
    (splitUnquoted (element fields++rest) ',').headD []=element fields := by
  unfold splitUnquoted
  rw [Opaque.element fields]
  obtain rfl | ⟨others, rfl⟩ := hr
  · simp [scan]
  · rw [scan_sep (.inl rfl), List.headD_eq_head?_getD, List.nil_append, scan_head]
    simp

theorem scan_element {fields : List Field} (hne : fields≠[]) (parts : List (List Char)) :
    scan ';' false false [] parts (element fields)=parts++fields.map Field.text := by
  induction fields generalizing parts with
  | nil => contradiction
  | cons f rest ih =>
    have hf : Opaque ';' f.text := .field f (.inr rfl)
    cases rest with
    | nil =>
      have h := hf [] parts []
      simpa [element, scan] using h
    | cons g rest =>
      rw [element, hf, scan_sep (.inr rfl), ih (by simp)]
      simp

theorem split_fields {fields : List Field} (hne : fields≠[]) :
    splitUnquoted (element fields) ';'=fields.map Field.text := scan_element hne []

end Scan

theorem unescape_escape (v : List Char) : unescape (escape v)=v := by
  induction v with
  | nil => rfl
  | cons c cs ih =>
    simp only [escape, List.flatMap_cons] at ih ⊢
    by_cases hc : c = '\\' ∨ c = '"'
    · simp [hc, unescape, ih]
    · rw [if_neg hc]
      simp only [not_or] at hc
      cases hrest : cs.flatMap fun c => if c = '\\' ∨ c = '"' then ['\\', c] else [c] with
      | nil =>
        rw [hrest] at ih
        simp [unescape, hc, ← ih]
      | cons d rest =>
        rw [hrest] at ih
        simp [unescape, hc, ih]

theorem strip_quoted (v : List Char) : Text.strip ('"'::v++['"']) = '"'::v++['"'] := by
  have hq : Text.isSpace '"'=false := by decide
  simp [Text.strip, hq]

theorem Field.unquote_valueText (f : Field) : unquote f.valueText=f.value := by
  unfold Field.valueText
  split
  · have hlast : ('"'::(escape f.value++['"'])).getLast?=some '"' := by
      rw [← List.cons_append]
      exact List.getLast?_concat
    unfold unquote
    rw [strip_quoted]
    simp [unescape_escape, hlast]
  · next hq =>
    obtain ⟨hplain, hstrip⟩ := f.value_plain (by simpa using hq)
    unfold unquote
    rw [hstrip]
    dsimp only
    split
    · next hquoted =>
      have hmem := List.mem_of_mem_head? hquoted.2.1
      exact absurd (.inr (.inl rfl)) (hplain '"' hmem)
    · rfl

theorem Field.equal_mem (f : Field) : '='∈f.text := by
  simp [Field.text]

theorem Field.takeWhile_text (f : Field) : f.text.takeWhile (· != '=')=f.key := by
  have hkey : ∀ c∈f.key, (c != '=')=true := fun c hc => by simpa using (f.key_plain c hc).2
  rw [Field.text, List.takeWhile_append_of_pos hkey]
  simp

theorem Field.dropWhile_text (f : Field) : (f.text.dropWhile (· != '=')).tail=f.valueText := by
  have hkey : ∀ c∈f.key, (c != '=')=true := fun c hc => by simpa using (f.key_plain c hc).2
  rw [Field.text, List.dropWhile_append_of_pos hkey]
  simp

theorem leafIdentity_cons (f : Field) (rest : List (List Char)) :
    leafIdentity (f.text::rest)=
      if f.isUri then if f.value=[] then none else some (String.ofList f.value)
      else leafIdentity rest := by
  simp only [leafIdentity, f.equal_mem, if_true, f.takeWhile_text, f.dropWhile_text,
    f.unquote_valueText, Field.isUri, decide_eq_true_eq]

/-- The first URI is read, whatever other pairs stand around it. -/
theorem leafIdentity_fields {before after : List Field} {uri : Field}
    (hb : ∀ f∈before, f.isUri=false) (hu : uri.isUri=true) (hv : uri.value≠[]) :
    leafIdentity ((before++uri::after).map Field.text)=some (String.ofList uri.value) := by
  induction before with
  | nil =>
    rw [List.nil_append, List.map_cons, leafIdentity_cons]
    simp [hu, hv]
  | cons f before ih =>
    rw [List.cons_append, List.map_cons, leafIdentity_cons, hb f List.mem_cons_self]
    exact ih fun g hg => hb g (List.mem_cons_of_mem f hg)

theorem mem_dropWhile {s : List Char} {c : Char} (hc : c∈s) (hs : Text.isSpace c=false) :
    c∈s.dropWhile Text.isSpace := by
  rw [← List.takeWhile_append_dropWhile (p := Text.isSpace) (l := s), List.mem_append] at hc
  refine hc.resolve_left ?_
  intro h
  rw [List.mem_takeWhile_imp h] at hs
  cases hs

/-- Only blanks are stripped. -/
theorem mem_strip {s : List Char} {c : Char} (hc : c∈s) (hs : Text.isSpace c=false) :
    c∈Text.strip s := by
  unfold Text.strip
  exact List.mem_reverse.mpr (mem_dropWhile (List.mem_reverse.mpr (mem_dropWhile hc hs)) hs)

theorem mem_element {fields : List Field} {f : Field} (hf : f∈fields) {c : Char}
    (hc : c∈f.text) : c∈element fields := by
  induction fields with
  | nil => cases hf
  | cons g rest ih =>
    cases rest with
    | nil =>
      rw [List.mem_singleton.mp hf] at hc
      exact hc
    | cons g' rest =>
      rw [element, List.mem_append]
      cases List.mem_cons.mp hf with
      | inl h => exact .inl (h ▸ hc)
      | inr h => exact .inr (List.mem_cons_of_mem _ (ih h))

/-- The identity the mesh writes is the identity that is read. -/
theorem parse_carries {header identity : String} (h : Carries header identity)
    (hne : identity≠"") : parseXfccIdentity (some header)=some identity := by
  obtain ⟨before, uri, after, rest, hh, hr, hb, hu, hv⟩ := h
  have hvalue : uri.value≠[] := by
    rw [hv]
    simpa using hne
  have hequal : '='∈element (before++uri::after)++rest :=
    List.mem_append_left _ (mem_element (by simp) uri.equal_mem)
  have hstrip := List.ne_nil_of_mem (mem_strip hequal (by decide))
  unfold parseXfccIdentity
  simp only [hh, hstrip, if_false]
  rw [split_leaf _ hr, split_fields (by simp), leafIdentity_fields hb hu hvalue, hv]
  simp

example : parseXfccIdentity (some "By=spiffe://a;Subject=\"CN=x;,\";URI=spiffe://b,URI=c")=
    some "spiffe://b" := by decide +kernel

end Sovereign.Mtls
