import Sovereign.JsonText

/-! One pass over a text that wants to be a JSON object: brackets, strings and what may stand
behind a string. A text a JSON reader takes passes; the pass tells a line that was cut short,
or that another one was written behind, from a whole one. -/
namespace Sovereign.JsonText
open Sovereign

inductive Mode where
  | plain | quoted | escaped | ended
deriving DecidableEq

/-- `within` counts the open brackets but the outermost. -/
inductive Scan where
  | start
  | within (depth : Nat) (mode : Mode)
  | done
  | bad
deriving DecidableEq

namespace Scan

def close : Nat → Scan
  | 0 => .done
  | n+1 => .within n .plain

def step : Scan → Char → Scan
  | .start, c => if isWs c then .start else if c= '{' then .within 0 .plain else .bad
  | .within n .plain, c =>
    if c= '"' then .within n .quoted
    else if c= '{' ∨ c= '[' then .within (n+1) .plain
    else if c= '}' ∨ c= ']' then close n
    else .within n .plain
  | .within n .quoted, c =>
    if c= '"' then .within n .ended
    else if c= '\\' then .within n .escaped
    else .within n .quoted
  | .within n .escaped, _ => .within n .quoted
  | .within n .ended, c =>
    if isWs c then .within n .ended
    else if c= ':' ∨ c= ',' then .within n .plain
    else if c= '}' ∨ c= ']' then close n
    else .bad
  | .done, c => if isWs c then .done else .bad
  | .bad, _ => .bad

def run (s : Scan) (cs : List Char) : Scan := cs.foldl step s

@[simp] theorem run_nil (s : Scan) : s.run []=s := rfl

@[simp] theorem run_cons (s : Scan) (c : Char) (cs : List Char) :
    s.run (c::cs)=(s.step c).run cs := rfl

theorem run_append (s : Scan) (cs ds : List Char) : s.run (cs++ds)=(s.run cs).run ds :=
  List.foldl_append

@[simp] theorem run_bad (cs : List Char) : bad.run cs=bad := by
  induction cs with
  | nil => rfl
  | cons c cs ih => exact ih

theorem step_start {s : Scan} (h : s≠start) (c : Char) : s.step c≠start := by
  cases s with
  | start => exact absurd rfl h
  | done =>
    rw [step]
    split
    · exact Scan.noConfusion
    · exact Scan.noConfusion
  | bad => exact Scan.noConfusion
  | within n m =>
    have hclose : close n≠start := by
      cases n with
      | zero => exact Scan.noConfusion
      | succ n => exact Scan.noConfusion
    cases m with
    | escaped => exact Scan.noConfusion
    | plain =>
      rw [step]
      split
      · exact Scan.noConfusion
      split
      · exact Scan.noConfusion
      split
      · exact hclose
      · exact Scan.noConfusion
    | quoted =>
      rw [step]
      split
      · exact Scan.noConfusion
      split
      · exact Scan.noConfusion
      · exact Scan.noConfusion
    | ended =>
      rw [step]
      split
      · exact Scan.noConfusion
      split
      · exact Scan.noConfusion
      split
      · exact hclose
      · exact Scan.noConfusion

theorem run_start {s : Scan} (h : s≠start) (cs : List Char) : s.run cs≠start := by
  induction cs generalizing s with
  | nil => exact h
  | cons c cs ih => exact ih (step_start h c)

/-- Behind the object there is white space only. -/
theorem ws_of_run_done {cs : List Char} (h : done.run cs=done) : ∀ c∈cs, isWs c=true := by
  induction cs with
  | nil => simp
  | cons c cs ih =>
    rw [run_cons, step] at h
    split at h
    · next hc =>
      intro d hd
      cases List.mem_cons.mp hd with
      | inl he => exact he ▸ hc
      | inr hd => exact ih h d hd
    · rw [run_bad] at h
      cases h

theorem run_done_ws {cs : List Char} (h : ∀ c∈cs, isWs c=true) : done.run cs=done := by
  induction cs with
  | nil => rfl
  | cons c cs ih =>
    have hc : done.step c=done := by rw [step, if_pos (h c List.mem_cons_self)]
    rw [run_cons, hc]
    exact ih fun d hd => h d (List.mem_cons_of_mem c hd)

def Stuck : Scan → Prop
  | .within _ _ => True
  | .bad => True
  | _ => False

theorem Stuck.ne_done {s : Scan} (h : s.Stuck) : s≠done := by
  intro he
  rw [he] at h
  exact h

theorem stuck_iff {s : Scan} : s.Stuck ↔ s≠start ∧ s≠done := by
  cases s with
  | start => exact ⟨fun h => absurd h id, fun h => absurd rfl h.1⟩
  | done => exact ⟨fun h => absurd h id, fun h => absurd rfl h.2⟩
  | within n m => exact ⟨fun _ => ⟨Scan.noConfusion, Scan.noConfusion⟩, fun _ => trivial⟩
  | bad => exact ⟨fun _ => ⟨Scan.noConfusion, Scan.noConfusion⟩, fun _ => trivial⟩

/-- White space is read over between strings. -/
theorem step_ws (n : Nat) {c : Char} (h : isWs c=true) :
    (Scan.within n .plain).step c=.within n .plain := by
  have hall : ∀ d∈['"', '{', '[', '}', ']'], isWs d=false := forall_chars (by decide)
  have hne : ∀ d∈['"', '{', '[', '}', ']'], c≠d := by
    intro d hd he
    rw [he, hall d hd] at h
    cases h
  have hq := hne '"' (by decide)
  have ho := hne '{' (by decide)
  have hb := hne '[' (by decide)
  have hc := hne '}' (by decide)
  have hd := hne ']' (by decide)
  simp [step, hq, ho, hb, hc, hd]

inductive Inside (n : Nat) : Scan → Scan → Prop where
  | within (k : Nat) (m : Mode) : Inside n (.within k m) (.within (k+n+1) m)
  | done : Inside n .done (.within n .plain)

theorem Inside.close (n k : Nat) : Inside n (close k) (close (k+n+1)) := by
  cases k with
  | zero =>
    have h : Scan.close (0+n+1)=.within n .plain := by rw [Nat.zero_add, Scan.close]
    rw [h]
    exact .done
  | succ k =>
    have h : Scan.close (k+1+n+1)=.within (k+n+1) .plain := by
      have hk : k+1+n=k+n+1 := by omega
      rw [Scan.close, hk]
    rw [h]
    exact .within k .plain

theorem Inside.step {n : Nat} {s t : Scan} (h : Inside n s t) {c : Char} (hb : s.step c≠bad) :
    Inside n (s.step c) (t.step c) := by
  cases h with
  | done =>
    rw [Scan.step] at hb ⊢
    split at hb
    · next hc =>
      have ht : (Scan.within n .plain).step c=.within n .plain := step_ws n hc
      rw [if_pos hc, ht]
      exact .done
    · exact absurd rfl hb
  | within k m =>
    have hk : k+n+1+1=k+1+n+1 := by omega
    cases m with
    | escaped => exact .within k .quoted
    | plain =>
      rw [Scan.step, Scan.step]
      split
      · exact .within k .quoted
      split
      · rw [hk]
        exact .within (k+1) .plain
      split
      · exact Inside.close n k
      · exact .within k .plain
    | quoted =>
      rw [Scan.step, Scan.step]
      split
      · exact .within k .ended
      split
      · exact .within k .escaped
      · exact .within k .quoted
    | ended =>
      rw [Scan.step] at hb
      rw [Scan.step, Scan.step]
      split
      · exact .within k .ended
      split
      · exact .within k .plain
      split
      · exact Inside.close n k
      · next h1 h2 h3 => simp [h1, h2, h3] at hb

theorem Inside.run {n : Nat} {s t : Scan} (h : Inside n s t) {cs : List Char}
    (hb : s.run cs≠bad) : Inside n (s.run cs) (t.run cs) := by
  induction cs generalizing s t with
  | nil => exact h
  | cons c cs ih =>
    have hc : s.step c≠bad := by
      intro he
      rw [run_cons, he, run_bad] at hb
      exact hb rfl
    exact ih (h.step hc) hb

theorem Inside.stuck {n : Nat} {s t : Scan} (h : Inside n s t) : t.Stuck := by
  cases h with
  | within k m => trivial
  | done => trivial

end Scan

/-- The text of an object with a member whose name begins with a letter that cannot stand
behind a string. -/
structure ObjectText (text : List Char) : Prop where
  scans : Scan.start.run text=.done
  last : text.getLast?=some '}'
  first : ∃ c rest, text= '{':: '"'::c::rest ∧ isWs c=false ∧ c∉[':', ',', '}', ']']

section Cuts
open Scan
variable {text p : List Char}

/-- An object cut short is open. -/
theorem ObjectText.cut (h : ObjectText text) {q : List Char} (he : text=p++q) (hp : p≠[])
    (hq : q≠[]) : (Scan.start.run p).Stuck := by
  obtain ⟨c, rest, hfirst, _⟩ := h.first
  have hscan := h.scans
  rw [he, run_append] at hscan
  rw [stuck_iff]
  constructor
  · cases p with
    | nil => exact absurd rfl hp
    | cons d p =>
      rw [hfirst, List.cons_append] at he
      obtain ⟨rfl, _⟩ := List.cons.inj he
      exact run_start (by decide) p
  · intro hdone
    rw [hdone] at hscan
    have hlast := h.last
    rw [he, List.getLast?_append_of_ne_nil _ hq] at hlast
    have hm := ws_of_run_done hscan '}' (List.mem_of_getLast? hlast)
    revert hm
    decide

/-- A brace in a string, then a quotation mark that closes it before a letter. -/
theorem quoted_stuck (n : Nat) {c : Char} {rest q : List Char} (hws : isWs c=false)
    (hc : c∉[':', ',', '}', ']']) (he : '"'::c::rest=p++q) :
    ((Scan.within n .quoted).run p).Stuck := by
  have hquote : (Scan.within n .quoted).step '"'=.within n .ended := rfl
  have hbad : (Scan.within n .ended).step c=.bad := by
    simp only [List.mem_cons, List.not_mem_nil, or_false, not_or] at hc
    simp [Scan.step, hws, hc]
  cases p with
  | nil => trivial
  | cons d p =>
    obtain ⟨rfl, htail⟩ := List.cons.inj he
    rw [run_cons, hquote]
    cases p with
    | nil => trivial
    | cons d p =>
      obtain ⟨rfl, _⟩ := List.cons.inj htail
      rw [run_cons, hbad, run_bad]
      trivial

/-- What is written behind a text is no object with it. -/
theorem ObjectText.glued (h : ObjectText text) {q : List Char} (he : text=p++q) (hp : p≠[])
    {s : Scan} (hs : s≠.start) : (s.run p).Stuck := by
  obtain ⟨c, rest, hfirst, hws, hc⟩ := h.first
  have hopen : Scan.start.run p≠.bad := by
    intro hb
    have hscan := h.scans
    rw [he, run_append, hb, run_bad] at hscan
    cases hscan
  cases p with
  | nil => exact absurd rfl hp
  | cons d p =>
    rw [hfirst] at he
    obtain ⟨rfl, hrest⟩ := List.cons.inj he
    have hbad : ∀ t : Scan, t.step '{'=.bad → (t.run ('{'::p)).Stuck := by
      intro t ht
      rw [run_cons, ht, run_bad]
      trivial
    have hquoted : ∀ n, ((Scan.within n .quoted).run p).Stuck := fun n =>
      quoted_stuck n hws hc hrest
    cases s with
    | start => exact absurd rfl hs
    | bad => exact hbad .bad rfl
    | done => exact hbad .done rfl
    | within n m =>
      cases m with
      | quoted => exact hquoted n
      | escaped => exact hquoted n
      | ended => exact hbad (.within n .ended) rfl
      | plain =>
        have hstart : Inside n (.within 0 .plain) (.within (n+1) .plain) := by
          have h0 := Inside.within (n := n) 0 .plain
          rwa [Nat.zero_add] at h0
        exact (hstart.run hopen).stuck

end Cuts

section Written
open Scan

def Printable (c : Char) : Prop := 32 ≤ c.toNat ∧ c.toNat≤126

instance Printable.instDecidable (c : Char) : Decidable (Printable c) :=
  inferInstanceAs (Decidable (_ ∧ _))

theorem step_quoted (n : Nat) {c : Char} (hq : c≠ '"') (hb : c≠ '\\') :
    (Scan.within n .quoted).step c=.within n .quoted := by
  simp [Scan.step, hq, hb]

theorem digitChar_quoted : ∀ d < 16, Nat.digitChar d≠ '"' ∧ Nat.digitChar d≠ '\\' ∧
    Printable (Nat.digitChar d) := by decide

theorem run_unit (n u : Nat) : (Scan.within n .quoted).run (unit u)=.within n .quoted := by
  have hdigit : ∀ m, (Scan.within n .quoted).step (Nat.digitChar (m%16))=.within n .quoted := by
    intro m
    obtain ⟨hq, hb, _⟩ := digitChar_quoted (m%16) (Nat.mod_lt m (by decide))
    exact step_quoted n hq hb
  have hstart : ((Scan.within n .quoted).step '\\').step 'u'=.within n .quoted := rfl
  simp only [unit, run_cons, run_nil, hstart, hdigit]

theorem printable_unit (u : Nat) : ∀ c∈unit u, Printable c := by
  have hdigit : ∀ m, Printable (Nat.digitChar (m%16)) := fun m =>
    (digitChar_quoted (m%16) (Nat.mod_lt m (by decide))).2.2
  intro c hc
  simp only [unit, List.mem_cons, List.not_mem_nil, or_false] at hc
  obtain rfl | rfl | rfl | rfl | rfl | rfl := hc
  · decide
  · decide
  · exact hdigit _
  · exact hdigit _
  · exact hdigit _
  · exact hdigit _

theorem simpleEscape_printable {c d : Char} (h : simpleEscape d=some c) : Printable d := by
  unfold simpleEscape at h
  split at h
  · decide
  · decide
  · decide
  · decide
  · decide
  · decide
  · decide
  · decide
  · cases h

/-- An escape leaves the string open and is printable. -/
theorem escape_spec (n : Nat) (c : Char) :
    (Scan.within n .quoted).run (escape c)=.within n .quoted ∧ ∀ d∈escape c, Printable d := by
  have hc := escape_cases c
  generalize escape c=written at hc ⊢
  cases hc with
  | letter h =>
    refine ⟨rfl, ?_⟩
    intro d hd
    cases List.mem_cons.mp hd with
    | inl hd =>
      rw [hd]
      decide
    | inr hd =>
      rw [List.mem_singleton.mp hd]
      exact simpleEscape_printable h
  | plain hq hb hp =>
    refine ⟨step_quoted n hq hb, ?_⟩
    intro d hd
    rw [List.mem_singleton.mp hd]
    exact hp
  | unit h => exact ⟨run_unit n _, printable_unit _⟩
  | units h =>
    refine ⟨?_, ?_⟩
    · rw [run_append, run_unit, run_unit]
    · intro d hd
      cases List.mem_append.mp hd with
      | inl hd => exact printable_unit _ d hd
      | inr hd => exact printable_unit _ d hd

theorem escaped_spec (n : Nat) (s : List Char) :
    (Scan.within n .quoted).run (s.flatMap escape)=.within n .quoted ∧
      ∀ d∈s.flatMap escape, Printable d := by
  induction s with
  | nil => exact ⟨rfl, by simp⟩
  | cons c s ih =>
    obtain ⟨hrun, hprint⟩ := escape_spec n c
    rw [List.flatMap_cons, run_append, hrun]
    refine ⟨ih.1, ?_⟩
    intro d hd
    cases List.mem_append.mp hd with
    | inl hd => exact hprint d hd
    | inr hd => exact ih.2 d hd

theorem quote_spec (n : Nat) (s : String) :
    (Scan.within n .plain).run (quote s)=.within n .ended ∧ ∀ d∈quote s, Printable d := by
  obtain ⟨hrun, hprint⟩ := escaped_spec n s.toList
  have hopen : (Scan.within n .plain).step '"'=.within n .quoted := rfl
  have hclose : (Scan.within n .quoted).step '"'=.within n .ended := rfl
  rw [quote, run_cons, hopen, run_append, hrun, run_cons, hclose, run_nil]
  refine ⟨rfl, ?_⟩
  intro d hd
  cases List.mem_cons.mp hd with
  | inl hd =>
    subst hd
    decide
  | inr hd =>
    cases List.mem_append.mp hd with
    | inl hd => exact hprint d hd
    | inr hd =>
      rw [List.mem_singleton.mp hd]
      decide

theorem number_step (n : Nat) {c : Char} (h : isNumberChar c=true) :
    (Scan.within n .plain).step c=.within n .plain ∧ Printable c := by
  have hall : ∀ d∈['"', '{', '[', '}', ']'], isNumberChar d=false := forall_chars (by decide)
  have hne : ∀ d∈['"', '{', '[', '}', ']'], c≠d := by
    intro d hd he
    rw [he, hall d hd] at h
    cases h
  have hq := hne '"' (by decide)
  have ho := hne '{' (by decide)
  have hb := hne '[' (by decide)
  have hc := hne '}' (by decide)
  have hd := hne ']' (by decide)
  refine ⟨by simp [Scan.step, hq, ho, hb, hc, hd], ?_⟩
  simp only [isNumberChar, Bool.or_eq_true, decide_eq_true_eq] at h
  cases h with
  | inl h =>
    have hzero : '0'.toNat=48 := rfl
    have hnine : '9'.toNat=57 := rfl
    have hnat := Char.isDigit_iff_toNat.mp h
    rw [hzero, hnine] at hnat
    exact ⟨by omega, by omega⟩
  | inr h =>
    have hsigns : ∀ d∈['+', '-', '.', 'e', 'E'], Printable d := forall_chars (by decide)
    exact hsigns c h

theorem number_spec (n : Nat) {w : List Char} (h : ∀ c∈w, isNumberChar c=true) :
    (Scan.within n .plain).run w=.within n .plain ∧ ∀ d∈w, Printable d := by
  induction w with
  | nil => exact ⟨rfl, by simp⟩
  | cons c w ih =>
    obtain ⟨hstep, hprint⟩ := number_step n (h c List.mem_cons_self)
    obtain ⟨hrun, hrest⟩ := ih fun d hd => h d (List.mem_cons_of_mem c hd)
    rw [run_cons, hstep]
    exact ⟨hrun, List.forall_mem_cons.mpr ⟨hprint, hrest⟩⟩

def Mode.Behind (m : Mode) : Prop := m=.plain ∨ m=.ended

theorem behind_comma {m : Mode} (h : m.Behind) (n : Nat) :
    ((Scan.within n m).step ',').step ' '=.within n .plain := by
  cases h with
  | inl h => rw [h]; rfl
  | inr h => rw [h]; rfl

theorem behind_bracket {m : Mode} (h : m.Behind) (n : Nat) :
    (Scan.within n m).step ']'=close n := by
  cases h with
  | inl h => rw [h]; rfl
  | inr h => rw [h]; rfl

theorem behind_brace {m : Mode} (h : m.Behind) (n : Nat) : (Scan.within n m).step '}'=close n := by
  cases h with
  | inl h => rw [h]; rfl
  | inr h => rw [h]; rfl

variable {n : Numbers}

theorem run_name (d : Nat) (k : String) (cs : List Char) :
    (Scan.within d .plain).run (quote k++ ':':: ' '::cs)=(Scan.within d .plain).run cs := by
  have hcolon : ((Scan.within d .ended).step ':').step ' '=.within d .plain := rfl
  rw [run_append, (quote_spec d k).1, run_cons, run_cons, hcolon]

mutual
theorem run_dumps : ∀ (x : Json) (d : Nat), Numeric n x →
    ∃ m : Mode, m.Behind ∧ (Scan.within d .plain).run (dumps n x)=.within d m
  | .null, d, _ => ⟨.plain, Or.inl rfl, by rw [dumps]; rfl⟩
  | .bool true, d, _ => ⟨.plain, Or.inl rfl, by rw [dumps]; rfl⟩
  | .bool false, d, _ => ⟨.plain, Or.inl rfl, by rw [dumps]; rfl⟩
  | .num q, d, h => by
    rw [Numeric] at h
    exact ⟨.plain, Or.inl rfl, by rw [dumps, (number_spec d h.chars).1]⟩
  | .str s, d, _ => ⟨.ended, Or.inr rfl, by rw [dumps, (quote_spec d s).1]⟩
  | .arr [], d, _ => ⟨.plain, Or.inl rfl, by rw [dumps]; rfl⟩
  | .obj [], d, _ => ⟨.plain, Or.inl rfl, by rw [dumps]; rfl⟩
  | .arr (x::xs), d, h => by
    have hopen : (Scan.within d .plain).step '['=.within (d+1) .plain := rfl
    rw [Numeric, NumericItems] at h
    obtain ⟨m, hm, hx⟩ := run_dumps x (d+1) h.1
    refine ⟨.plain, Or.inl rfl, ?_⟩
    rw [dumps, run_cons, hopen, run_append, hx, run_dumpsItems xs (d+1) hm h.2]
    rfl
  | .obj ((k,x)::ms), d, h => by
    have hopen : (Scan.within d .plain).step '{'=.within (d+1) .plain := rfl
    rw [Numeric, NumericMembers] at h
    obtain ⟨m, hm, hx⟩ := run_dumps x (d+1) h.1
    refine ⟨.plain, Or.inl rfl, ?_⟩
    rw [dumps, run_cons, hopen, run_name, run_append, hx, run_dumpsMembers ms (d+1) hm h.2]
    rfl
termination_by x => sizeOf x
theorem run_dumpsItems : ∀ (xs : List Json) (d : Nat) {m : Mode}, m.Behind → NumericItems n xs →
    (Scan.within d m).run (dumpsItems n xs)=close d
  | [], d, m, hm, _ => by rw [dumpsItems, run_cons, behind_bracket hm, run_nil]
  | x::xs, d, m, hm, h => by
    rw [NumericItems] at h
    obtain ⟨m', hm', hx⟩ := run_dumps x d h.1
    rw [dumpsItems, run_cons, run_cons, behind_comma hm, run_append, hx,
      run_dumpsItems xs d hm' h.2]
termination_by xs => sizeOf xs
theorem run_dumpsMembers : ∀ (ms : List (String × Json)) (d : Nat) {m : Mode}, m.Behind →
    NumericMembers n ms → (Scan.within d m).run (dumpsMembers n ms)=close d
  | [], d, m, hm, _ => by rw [dumpsMembers, run_cons, behind_brace hm, run_nil]
  | (k,x)::ms, d, m, hm, h => by
    rw [NumericMembers] at h
    obtain ⟨m', hm', hx⟩ := run_dumps x d h.1
    rw [dumpsMembers, run_cons, run_cons, behind_comma hm, run_name, run_append, hx,
      run_dumpsMembers ms d hm' h.2]
termination_by ms => sizeOf ms
end

mutual
theorem printable_dumps : ∀ (x : Json), Numeric n x → ∀ c∈dumps n x, Printable c
  | .null, _ => by rw [dumps]; exact forall_chars (by decide)
  | .bool true, _ => by rw [dumps]; exact forall_chars (by decide)
  | .bool false, _ => by rw [dumps]; exact forall_chars (by decide)
  | .num q, h => by
    rw [Numeric] at h
    rw [dumps]
    exact (number_spec 0 h.chars).2
  | .str s, _ => by
    rw [dumps]
    exact (quote_spec 0 s).2
  | .arr [], _ => by rw [dumps]; exact forall_chars (by decide)
  | .obj [], _ => by rw [dumps]; exact forall_chars (by decide)
  | .arr (x::xs), h => by
    rw [Numeric, NumericItems] at h
    rw [dumps, List.forall_mem_cons, List.forall_mem_append]
    exact ⟨by decide, printable_dumps x h.1, printable_dumpsItems xs h.2⟩
  | .obj ((k,x)::ms), h => by
    rw [Numeric, NumericMembers] at h
    rw [dumps, List.forall_mem_cons, List.forall_mem_append, List.forall_mem_cons,
      List.forall_mem_cons, List.forall_mem_append]
    exact ⟨by decide, (quote_spec 0 k).2, by decide, by decide, printable_dumps x h.1,
      printable_dumpsMembers ms h.2⟩
termination_by x => sizeOf x
theorem printable_dumpsItems : ∀ (xs : List Json), NumericItems n xs →
    ∀ c∈dumpsItems n xs, Printable c
  | [], _ => by rw [dumpsItems]; exact forall_chars (by decide)
  | x::xs, h => by
    rw [NumericItems] at h
    rw [dumpsItems, List.forall_mem_cons, List.forall_mem_cons, List.forall_mem_append]
    exact ⟨by decide, by decide, printable_dumps x h.1, printable_dumpsItems xs h.2⟩
termination_by xs => sizeOf xs
theorem printable_dumpsMembers : ∀ (ms : List (String × Json)), NumericMembers n ms →
    ∀ c∈dumpsMembers n ms, Printable c
  | [], _ => by rw [dumpsMembers]; exact forall_chars (by decide)
  | (k,x)::ms, h => by
    rw [NumericMembers] at h
    rw [dumpsMembers, List.forall_mem_cons, List.forall_mem_cons, List.forall_mem_append,
      List.forall_mem_cons, List.forall_mem_cons, List.forall_mem_append]
    exact ⟨by decide, by decide, (quote_spec 0 k).2, by decide, by decide, printable_dumps x h.1,
      printable_dumpsMembers ms h.2⟩
termination_by ms => sizeOf ms
end

/-- The text of an object is an object from its brace on. -/
theorem scan_object {k : String} {x : Json} {ms : List (String × Json)}
    (h : Numeric n (.obj ((k, x)::ms))) :
    Scan.start.run (dumps n (.obj ((k, x)::ms)))=.done := by
  have hopen : Scan.start.step '{'=.within 0 .plain := rfl
  rw [Numeric, NumericMembers] at h
  obtain ⟨m, hm, hx⟩ := run_dumps x 0 h.1
  rw [dumps, run_cons, hopen, run_name, run_append, hx, run_dumpsMembers ms 0 hm h.2]
  rfl

theorem dumpsMembers_last (ms : List (String × Json)) :
    ∃ cs, dumpsMembers n ms=cs++['}'] := by
  induction ms with
  | nil => exact ⟨[], by rw [dumpsMembers, List.nil_append]⟩
  | cons m ms ih =>
    obtain ⟨k, x⟩ := m
    obtain ⟨cs, he⟩ := ih
    refine ⟨',':: ' '::(quote k++ ':':: ' '::(dumps n x++cs)), ?_⟩
    rw [dumpsMembers, he]
    simp

/-- An object whose first member's name begins with a plain letter. -/
theorem objectText_dumps {k : String} {x : Json} {ms : List (String × Json)} {c : Char}
    {cs : List Char} (h : Numeric n (.obj ((k, x)::ms))) (hk : k.toList=c::cs)
    (hc : escape c=[c]) (hws : isWs c=false) (hplain : c∉[':', ',', '}', ']']) :
    ObjectText (dumps n (.obj ((k, x)::ms))) := by
  obtain ⟨init, hinit⟩ := dumpsMembers_last (n := n) ms
  have hwhole : dumps n (.obj ((k, x)::ms)) =
      '{'::(quote k++ ':':: ' '::(dumps n x++init))++['}'] := by
    rw [dumps, hinit]
    simp
  refine ⟨scan_object h, by rw [hwhole, List.getLast?_append]; rfl, c, ?_⟩
  · refine ⟨cs.flatMap escape++ '"':: ':':: ' '::(dumps n x++dumpsMembers n ms), ?_, hws, hplain⟩
    rw [dumps, quote, hk, List.flatMap_cons, hc]
    simp

end Written
end Sovereign.JsonText
