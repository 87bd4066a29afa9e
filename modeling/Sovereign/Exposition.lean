import Mathlib.Data.List.Induction

/-! The labels of the text exposition format: names with quoted values, between braces. A machine
reads them letter by letter, and accepts exactly what is written. -/
namespace Sovereign.Exposition

abbrev Pair := List Char × List Char

def escapeChar (c : Char) : List Char :=
  if c= '\\' then ['\\', '\\'] else if c= '\n' then ['\\', 'n']
  else if c= '"' then ['\\', '"'] else [c]

def escape (value : List Char) : List Char := value.flatMap escapeChar

def pairText (p : Pair) : List Char := p.1++ '=' :: '"' ::(escape p.2++['"'])

def labelsText (pairs : List Pair) : List Char :=
  if pairs=[] then [] else '{' ::([','].intercalate (pairs.map pairText)++['}'])

inductive State where
  | start
  | name (pairs : List Pair) (cs : List Char)
  | quote (pairs : List Pair) (name : List Char)
  | value (pairs : List Pair) (name cs : List Char)
  | escape (pairs : List Pair) (name cs : List Char)
  | after (pairs : List Pair) (p : Pair)
  | closed (pairs : List Pair)
  | error

section Reader
variable (nameChar : Char → Prop) [DecidablePred nameChar]

def step : State → Char → State
  | .start, c => if c= '{' then .name [] [] else .error
  | .name pairs cs, c =>
    if c= '=' then .quote pairs cs else if nameChar c then .name pairs (cs++[c]) else .error
  | .quote pairs name, c => if c= '"' then .value pairs name [] else .error
  | .value pairs name cs, c =>
    if c= '"' then .after pairs (name, cs) else if c= '\\' then .escape pairs name cs
    else if c= '\n' then .error else .value pairs name (cs++[c])
  | .escape pairs name cs, c =>
    if c= '\\' then .value pairs name (cs++['\\']) else if c= '"' then .value pairs name (cs++['"'])
    else if c= 'n' then .value pairs name (cs++['\n']) else .error
  | .after pairs p, c =>
    if c= ',' then .name (pairs++[p]) [] else if c= '}' then .closed (pairs++[p]) else .error
  | .closed _, _ => .error
  | .error, _ => .error

def parse (text : List Char) : Option (List Pair) :=
  match text.foldl (step nameChar) .start with
  | .start => some []
  | .closed pairs => some pairs
  | _ => none

end Reader

def opened (pairs : List Pair) : List Char := '{' ::pairs.flatMap fun p => pairText p++[',']

def State.text : State → List Char
  | .start => []
  | .name pairs cs => opened pairs++cs
  | .quote pairs n => opened pairs++(n++['='])
  | .value pairs n cs => opened pairs++(n++ '=' :: '"' ::Exposition.escape cs)
  | .escape pairs n cs => opened pairs++(n++ '=' :: '"' ::(Exposition.escape cs++['\\']))
  | .after pairs p => opened pairs++pairText p
  | .closed pairs => labelsText pairs
  | .error => []

theorem opened_concat (pairs : List Pair) (p : Pair) :
    opened (pairs++[p])=opened pairs++(pairText p++[',']) := by
  simp [opened]

theorem intercalate_concat (sep : Char) (xs : List (List Char)) (x : List Char) :
    [sep].intercalate (xs++[x])=xs.flatMap (·++[sep])++x := by
  induction xs with
  | nil => simp
  | cons y ys ih =>
    rw [List.cons_append, List.intercalate_cons_of_ne_nil (by simp), ih, List.flatMap_cons]
    simp

theorem labelsText_concat (pairs : List Pair) (p : Pair) :
    labelsText (pairs++[p])=opened pairs++(pairText p++['}']) := by
  rw [labelsText, if_neg (by simp), List.map_append, List.map_singleton, intercalate_concat,
    opened, List.flatMap_map]
  simp

theorem escape_concat (cs : List Char) (c : Char) : escape (cs++[c])=escape cs++escapeChar c := by
  simp [escape]

section Sound
variable {nameChar : Char → Prop} [DecidablePred nameChar]

variable (nameChar) in
theorem step_text (s : State) (c : Char) :
    step nameChar s c=.error ∨ (step nameChar s c).text=s.text++[c] := by
  cases s with
  | start =>
    rw [step]
    split
    · next h => exact Or.inr (by rw [h]; rfl)
    · exact Or.inl rfl
  | name pairs cs =>
    rw [step]
    split
    · next h => exact Or.inr (by simp [State.text, h])
    · split
      · exact Or.inr (by simp [State.text])
      · exact Or.inl rfl
  | quote pairs n =>
    rw [step]
    split
    · next h => exact Or.inr (by simp [State.text, h, escape])
    · exact Or.inl rfl
  | value pairs n cs =>
    rw [step]
    split
    · next h => exact Or.inr (by simp [State.text, pairText, h])
    · split
      · next h => exact Or.inr (by simp [State.text, h])
      · split
        · exact Or.inl rfl
        · next hq hb hl =>
          exact Or.inr (by simp [State.text, escape_concat, escapeChar, hq, hb, hl])
  | escape pairs n cs =>
    rw [step]
    split
    · next h => exact Or.inr (by simp [State.text, escape_concat, escapeChar, h])
    · split
      · next h => exact Or.inr (by simp [State.text, escape_concat, escapeChar, h])
      · split
        · next h => exact Or.inr (by simp [State.text, escape_concat, escapeChar, h])
        · exact Or.inl rfl
  | after pairs p =>
    rw [step]
    split
    · next h => exact Or.inr (by simp [State.text, opened_concat, h])
    · split
      · next h => exact Or.inr (by simp [State.text, labelsText_concat, h])
      · exact Or.inl rfl
  | closed pairs => exact Or.inl rfl
  | error => exact Or.inl rfl

theorem run_error (text : List Char) : text.foldl (step nameChar) .error=.error := by
  induction text with
  | nil => rfl
  | cons c text ih => exact ih

variable (nameChar) in
theorem run_text (s : State) (text : List Char) :
    text.foldl (step nameChar) s=.error ∨
      (text.foldl (step nameChar) s).text=s.text++text := by
  induction text generalizing s with
  | nil => exact Or.inr (List.append_nil _).symm
  | cons c text ih =>
    rw [List.foldl_cons]
    obtain hstep | hstep := step_text nameChar s c
    · rw [hstep, run_error]
      exact Or.inl rfl
    · obtain hrun | hrun := ih (step nameChar s c)
      · exact Or.inl hrun
      · rw [hrun, hstep, List.append_assoc]
        exact Or.inr rfl

/-- What is read is written so. -/
theorem labelsText_of_parse {text : List Char} {pairs : List Pair}
    (h : parse nameChar text=some pairs) : labelsText pairs=text := by
  have hrun := run_text nameChar .start text
  rw [parse] at h
  cases hs : text.foldl (step nameChar) .start with
  | start =>
    rw [hs] at h hrun
    cases h
    exact hrun.resolve_left nofun
  | closed _ =>
    rw [hs] at h hrun
    cases h
    exact hrun.resolve_left nofun
  | _ =>
    rw [hs] at h
    cases h

theorem step_lineFeed (hl : ¬ nameChar '\n') (s : State) : step nameChar s '\n'=.error := by
  cases s <;> simp [step, hl]

theorem single_line (hl : ¬ nameChar '\n') {text : List Char} {pairs : List Pair}
    (h : parse nameChar text=some pairs) : '\n'∉text := by
  intro hm
  obtain ⟨before, after, rfl⟩ := List.append_of_mem hm
  rw [parse, List.foldl_append, List.foldl_cons, step_lineFeed hl, run_error] at h
  cases h

end Sound

section Complete
variable {nameChar : Char → Prop} [DecidablePred nameChar]

theorem run_name (heq : ¬ nameChar '=') (pairs : List Pair) {n : List Char}
    (h : ∀ c∈n, nameChar c) (cs : List Char) :
    n.foldl (step nameChar) (.name pairs cs)=.name pairs (cs++n) := by
  induction n generalizing cs with
  | nil => rw [List.foldl_nil, List.append_nil]
  | cons c n ih =>
    have hc : nameChar c := h c List.mem_cons_self
    have hne : c≠ '=' := by
      rintro rfl
      exact heq hc
    rw [List.foldl_cons, step, if_neg hne, if_pos hc,
      ih fun d hd => h d (List.mem_cons_of_mem c hd), List.append_assoc]
    rfl

theorem run_escapeChar (pairs : List Pair) (n cs : List Char) (c : Char) :
    (escapeChar c).foldl (step nameChar) (.value pairs n cs)=.value pairs n (cs++[c]) := by
  rw [escapeChar]
  split
  · next h => rw [h]; rfl
  · split
    · next h => rw [h]; rfl
    · split
      · next h => rw [h]; rfl
      · next hb hl hq =>
        rw [List.foldl_cons, List.foldl_nil, step, if_neg hq, if_neg hb, if_neg hl]

/-- Inside the quotes the reader takes the value as it is, and goes on to the quote that ends it. -/
theorem run_escape (pairs : List Pair) (n cs v : List Char) :
    (escape v).foldl (step nameChar) (.value pairs n cs)=.value pairs n (cs++v) := by
  induction v generalizing cs with
  | nil => rw [List.append_nil]; rfl
  | cons c v ih =>
    rw [escape, List.flatMap_cons, List.foldl_append, run_escapeChar]
    exact (ih (cs++[c])).trans (by rw [List.append_assoc]; rfl)

theorem run_pairText (heq : ¬ nameChar '=') (pairs : List Pair) {p : Pair}
    (h : ∀ c∈p.1, nameChar c) :
    (pairText p).foldl (step nameChar) (.name pairs [])=.after pairs p := by
  rw [pairText, List.foldl_append, run_name heq pairs h, List.foldl_cons, List.foldl_cons,
    List.foldl_append]
  change List.foldl (step nameChar) ((escape p.2).foldl (step nameChar) (.value pairs p.1 []))
    ['"']=_
  rw [run_escape]
  rfl

theorem run_opened (heq : ¬ nameChar '=') {pairs : List Pair}
    (h : ∀ p∈pairs, ∀ c∈p.1, nameChar c) :
    (opened pairs).foldl (step nameChar) .start=.name pairs [] := by
  induction pairs using List.reverseRecOn with
  | nil => rfl
  | append_singleton pairs p ih =>
    have hp := h p (List.mem_append_right _ (List.mem_singleton_self p))
    rw [opened_concat, List.foldl_append, ih fun q hq => h q (List.mem_append_left _ hq),
      List.foldl_append, run_pairText heq pairs hp]
    rfl

/-- What is written is read. -/
theorem parse_labelsText (heq : ¬ nameChar '=') {pairs : List Pair}
    (h : ∀ p∈pairs, ∀ c∈p.1, nameChar c) : parse nameChar (labelsText pairs)=some pairs := by
  cases pairs using List.reverseRecOn with
  | nil => rfl
  | append_singleton pairs p =>
    have hp := h p (List.mem_append_right _ (List.mem_singleton_self p))
    rw [parse, labelsText_concat, List.foldl_append,
      run_opened heq fun q hq => h q (List.mem_append_left _ hq), List.foldl_append,
      run_pairText heq pairs hp]
    rfl

end Complete

end Sovereign.Exposition
