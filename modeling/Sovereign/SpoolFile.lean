import Sovereign.AuditChain
import Sovereign.JsonScan
import Sovereign.Text
import Mathlib.Data.List.TakeWhile

/-! The spool as a file of lines. A call may be cut off after any number of characters of its
line, and nothing but the newline separates one line from the next. The lines are ASCII, so
characters are bytes. -/
namespace Sovereign.AuditSpool
open Sovereign AuditService JsonText

def fields (e : AuditEvent) : List (String × Json) :=
  payloadMembers e++[("event_hash", optText e.eventHash),
    ("signature_key_id", optText e.signatureKeyId), ("signature", optText e.signature)]

def sortMetadata (e : AuditEvent) : AuditEvent :=
  { e with metadata := (Json.sortMembers e.metadata).insertionSort fun a b => a.1 ≤ b.1 }

/-- `validate` is `AuditEvent.model_validate_json`, `none` where it raises. -/
structure Reader where
  numbers : Numbers
  validate : List Char → Option AuditEvent

section Spool
variable (r : Reader)

def text (e : AuditEvent) : List Char := dumps r.numbers (Json.sortKeys (.obj (fields e)))

def line (e : AuditEvent) : List Char := text r e++['\n']

abbrev File := Option (List Char)

/-- How a write ends: whole, in a crash of the process, or in an `OSError`, the latter two
after `n` characters of the line. -/
inductive Fate where
  | completes
  | crashes (n : Nat)
  | fails (n : Nat)
deriving DecidableEq

def Capped (maxBytes : Nat) (file : File) : Prop := ∃ raw∈file, maxBytes ≤ raw.length

instance Capped.instDecidable (maxBytes : Nat) (file : File) : Decidable (Capped maxBytes file) :=
  match file with
  | none => .isFalse (by simp [Capped])
  | some raw => decidable_of_iff (maxBytes ≤ raw.length) (by simp [Capped])

/-- What the call returns, `none` when it does not return, and the file after it. -/
def append (maxBytes : Nat) (e : AuditEvent) (fate : Fate) (file : File) : Option Bool × File :=
  if Capped maxBytes file then (some false, file)
  else
    match fate with
    | .completes => (some true, some (file.getD []++line r e))
    | .crashes n => (none, some (file.getD []++(line r e).take n))
    | .fails n => (some false, some (file.getD []++(line r e).take n))

/-- The characters `str.splitlines` splits at. -/
def isLineBreak (c : Char) : Bool :=
  decide (c∈['\n', '\r', '\x0b', '\x0c', '\x1c', '\x1d', '\x1e', '\u0085', '\u2028', '\u2029'])

/-- The stripped lines that are not empty. The empty lines in which this splitting differs
from `splitlines` are among those that are skipped. -/
def lines (raw : List Char) : List (List Char) :=
  ((raw.splitOnP isLineBreak).map Text.strip).filter fun l => decide (l≠[])

def events (raw : List Char) : List AuditEvent := (lines raw).filterMap r.validate

def drain (file : File) : List AuditEvent × File :=
  match file with
  | none => ([], none)
  | some raw => (events r raw, none)

def count (file : File) : Nat :=
  match file with
  | none => 0
  | some raw => (((raw.splitOnP (· == '\n')).map Text.strip).filter fun l => decide (l≠[])).length

structure Calls where
  file : File := none
  results : List (AuditEvent × Option Bool) := []

def Calls.step (maxBytes : Nat) (w : Calls) (op : AuditEvent × Fate) : Calls :=
  { file := (append r maxBytes op.1 op.2 w.file).2
    results := w.results++[(op.1, (append r maxBytes op.1 op.2 w.file).1)] }

end Spool

/-- The events of the calls that returned `True`, in their order; a call that was cut off may
have left its event or not. -/
inductive Kept : List (AuditEvent × Option Bool) → List AuditEvent → Prop where
  | nil : Kept [] []
  | returned (e : AuditEvent) {rs : List (AuditEvent × Option Bool)} {es : List AuditEvent}
      (h : Kept rs es) : Kept ((e, some true)::rs) (e::es)
  | refused (e : AuditEvent) {rs : List (AuditEvent × Option Bool)} {es : List AuditEvent}
      (h : Kept rs es) : Kept ((e, some false)::rs) es
  | dropped (e : AuditEvent) {rs : List (AuditEvent × Option Bool)} {es : List AuditEvent}
      (h : Kept rs es) : Kept ((e, none)::rs) es
  | whole (e : AuditEvent) {rs : List (AuditEvent × Option Bool)} {es : List AuditEvent}
      (h : Kept rs es) : Kept ((e, none)::rs) (e::es)

/-- What the drain after the calls must give. A dict does not know the order of its keys. -/
structure RoundTrip (r : Reader) (maxBytes : Nat) (ops : List (AuditEvent × Fate)) : Prop where
  events : ∃ es, Kept (Trace.exec (Calls.step r maxBytes) {} ops).results es ∧
    (drain r (Trace.exec (Calls.step r maxBytes) {} ops).file).1=es.map sortMetadata
  emptied : count (drain r (Trace.exec (Calls.step r maxBytes) {} ops).file).2=0

def Closed (file : File) : Prop := ∀ c∈(file.getD []).getLast?, c= '\n'

/-- A completed line begins a line of its own, and a failed write leaves less than a whole
line. -/
def Clean (r : Reader) (maxBytes : Nat) (w : Calls) (op : AuditEvent × Fate) : Prop :=
  Capped maxBytes w.file ∨
    match op.2 with
    | .completes => Closed w.file
    | .crashes _ => True
    | .fails n => n < (text r op.1).length

theorem Kept.append {rs rs' : List (AuditEvent × Option Bool)} {es es' : List AuditEvent}
    (h : Kept rs es) (h' : Kept rs' es') : Kept (rs++rs') (es++es') := by
  induction h with
  | nil => exact h'
  | returned e _ ih => exact .returned e ih
  | refused e _ ih => exact .refused e ih
  | dropped e _ ih => exact .dropped e ih
  | whole e _ ih => exact .whole e ih

theorem Kept.drop {rs : List (AuditEvent × Option Bool)} {es : List AuditEvent} (h : Kept rs es)
    (e : AuditEvent) {b : Option Bool} (hb : b≠some true) : Kept (rs++[(e, b)]) es := by
  have hlast : Kept [(e, b)] [] := by
    cases b with
    | none => exact .dropped e .nil
    | some b =>
      cases b with
      | true => exact absurd rfl hb
      | false => exact .refused e .nil
  have happ := h.append hlast
  rwa [List.append_nil] at happ

theorem Kept.mem {rs : List (AuditEvent × Option Bool)} {es : List AuditEvent} (h : Kept rs es)
    {e : AuditEvent} (he : (e, some true)∈rs) : e∈es := by
  induction h with
  | nil => cases he
  | returned x _ ih =>
    cases List.mem_cons.mp he with
    | inl heq =>
      cases heq
      exact List.mem_cons_self
    | inr hm => exact List.mem_cons_of_mem x (ih hm)
  | refused x _ ih =>
    cases List.mem_cons.mp he with
    | inl heq => cases heq
    | inr hm => exact ih hm
  | dropped x _ ih =>
    cases List.mem_cons.mp he with
    | inl heq => cases heq
    | inr hm => exact ih hm
  | whole x _ ih =>
    cases List.mem_cons.mp he with
    | inl heq => cases heq
    | inr hm => exact List.mem_cons_of_mem x (ih hm)

theorem isSpace_printable {c : Char} (h : Printable c) (hs : Text.isSpace c=true) :
    isWs c=true := by
  have hnat : c.toNat=32 := by
    obtain ⟨h1, h2⟩ := h
    simp only [Text.isSpace, Bool.or_eq_true, Bool.and_eq_true, decide_eq_true_eq,
      beq_iff_eq] at hs
    omega
  have hc : c= ' ' := Char.toNat_inj.mp hnat
  rw [hc]
  rfl

theorem printable_noBreak {c : Char} (h : Printable c) : isLineBreak c=false := by
  rw [isLineBreak, decide_eq_false_iff_not]
  intro hm
  have hall : ∀ d∈['\n', '\r', '\x0b', '\x0c', '\x1c', '\x1d', '\x1e', '\u0085', '\u2028',
      '\u2029'], ¬ Printable d := forall_chars (by decide)
  exact hall c hm h

theorem strip_split (l : List Char) : ∃ pre post, l=pre++Text.strip l++post ∧
    (∀ c∈pre, Text.isSpace c=true) ∧ ∀ c∈post, Text.isSpace c=true := by
  obtain ⟨m, hm⟩ : ∃ m, m=l.dropWhile Text.isSpace := ⟨_, rfl⟩
  have hback : m=(m.reverse.dropWhile Text.isSpace).reverse++
      (m.reverse.takeWhile Text.isSpace).reverse := by
    rw [← List.reverse_append, List.takeWhile_append_dropWhile, List.reverse_reverse]
  refine ⟨l.takeWhile Text.isSpace, (m.reverse.takeWhile Text.isSpace).reverse, ?_, ?_, ?_⟩
  · rw [Text.strip, ← hm, List.append_assoc, ← hback, hm, List.takeWhile_append_dropWhile]
  · intro c hc
    exact List.mem_takeWhile_imp hc
  · intro c hc
    exact List.mem_takeWhile_imp (List.mem_reverse.mp hc)

/-- A stripped line is an object only if the line is one. -/
theorem run_of_strip {l : List Char} (hp : ∀ c∈l, Printable c)
    (h : Scan.start.run (Text.strip l)=.done) : Scan.start.run l=.done := by
  obtain ⟨pre, post, he, hpre, hpost⟩ := strip_split l
  have hws : ∀ c∈pre++post, isWs c=true := by
    intro c hc
    have hm : c∈l := by
      rw [he]
      cases List.mem_append.mp hc with
      | inl hc => exact List.mem_append_left _ (List.mem_append_left _ hc)
      | inr hc => exact List.mem_append_right _ hc
    cases List.mem_append.mp hc with
    | inl hc => exact isSpace_printable (hp c hm) (hpre c hc)
    | inr hc => exact isSpace_printable (hp c hm) (hpost c hc)
  have hstart : ∀ cs : List Char, (∀ c∈cs, isWs c=true) → Scan.start.run cs=.start := by
    intro cs hcs
    induction cs with
    | nil => rfl
    | cons c cs ih =>
      have hc : Scan.start.step c=.start := by rw [Scan.step, if_pos (hcs c List.mem_cons_self)]
      rw [Scan.run_cons, hc]
      exact ih fun d hd => hcs d (List.mem_cons_of_mem c hd)
  rw [he, Scan.run_append, Scan.run_append,
    hstart pre fun c hc => hws c (List.mem_append_left _ hc),
    h]
  exact Scan.run_done_ws fun c hc => hws c (List.mem_append_right _ hc)

section Lines
variable {r : Reader} {e : AuditEvent} {raw : List Char}

theorem events_append (r : Reader) (a b : List Char) :
    events r (a++ '\n'::b)=events r a++events r b := by
  rw [events, lines, List.splitOnP_append_cons a b (by decide), List.map_append, List.filter_append,
    List.filterMap_append]
  rfl

theorem events_nil (r : Reader) : events r []=[] := by
  rw [events, lines, List.splitOnP_nil]
  rfl

/-- The event of a text without a line break. -/
theorem events_single {l : List Char} (hp : ∀ c∈l, Printable c) :
    events r l=if Text.strip l=[] then [] else (r.validate (Text.strip l)).toList := by
  have hsplit : l.splitOnP isLineBreak=[l] :=
    List.splitOnP_eq_singleton fun c hc => printable_noBreak (hp c hc)
  rw [events, lines, hsplit, List.map_singleton]
  split
  · next hnil => simp [hnil]
  · next hne =>
    cases hv : r.validate (Text.strip l) with
    | none => simp [hne, hv]
    | some e => simp [hne, hv]

/-- What `model_validate_json` takes is the text of one object. -/
def Strict (r : Reader) : Prop := ∀ s e, r.validate s=some e → Scan.start.run s=.done

/-- The event's metadata is JSON, and its text validates to it. -/
structure Readable (r : Reader) (e : AuditEvent) : Prop where
  numeric : NumericMembers r.numbers e.metadata
  validates : r.validate (text r e)=some (sortMetadata e)

/-- A line that is cut short or written behind another one is skipped. -/
theorem events_stuck (hr : Strict r) {l : List Char} (hp : ∀ c∈l, Printable c)
    (h : (Scan.start.run l).Stuck) : events r l=[] := by
  rw [events_single hp]
  split
  · rfl
  · cases hv : r.validate (Text.strip l) with
    | none => rfl
    | some e => exact absurd (run_of_strip hp (hr _ e hv)) h.ne_done

theorem sortKeys_fields (e : AuditEvent) : Json.sortKeys (.obj (fields e))=.obj
    [("action", .str e.action), ("actor", .str e.actor), ("decision", .str e.decision),
     ("event_hash", optText e.eventHash), ("metadata", Json.sortKeys (.obj e.metadata)),
     ("previous_hash", optText e.previousHash), ("resource", .str e.resource),
     ("signature", optText e.signature), ("signature_key_id", optText e.signatureKeyId),
     ("tenant_id", .str e.tenantId), ("ts", .str e.ts)] := by
  rw [Json.sortKeys]
  simp [fields, payloadMembers, Json.sortMembers, Json.sortKeys, List.insertionSort,
    List.orderedInsert]

theorem numeric_fields (h : NumericMembers r.numbers e.metadata) {x : Json}
    (hx : x=Json.sortKeys (.obj (fields e))) : Numeric r.numbers x := by
  have hopt : ∀ o : Option String, Numeric r.numbers (optText o) := by
    intro o
    cases o with
    | none => trivial
    | some s => trivial
  have hmeta : Numeric r.numbers (.obj e.metadata) := by rwa [Numeric]
  have hobj : Numeric r.numbers (.obj (fields e)) := by
    rw [Numeric, numericMembers_iff]
    intro m hm
    simp only [fields, payloadMembers, List.mem_append, List.mem_cons, List.not_mem_nil,
      or_false] at hm
    obtain (rfl | rfl | rfl | rfl | rfl | rfl | rfl | rfl) | rfl | rfl | rfl := hm
    · trivial
    · trivial
    · trivial
    · trivial
    · trivial
    · trivial
    · exact hmeta
    · exact hopt _
    · exact hopt _
    · exact hopt _
    · exact hopt _
  rw [hx]
  generalize Json.obj (fields e)=y at hobj ⊢
  exact numeric_sortKeys hobj

/-- The text of an event is that of an object, in printable characters. -/
theorem objectText_text (h : NumericMembers r.numbers e.metadata) : ObjectText (text r e) := by
  have hn : ∀ x, x=Json.sortKeys (.obj (fields e)) → Numeric r.numbers x := fun x hx =>
    numeric_fields h hx
  rw [text]
  rw [sortKeys_fields] at hn ⊢
  exact objectText_dumps (c := 'a') (hn _ rfl) rfl rfl rfl (by decide)

theorem printable_text (h : NumericMembers r.numbers e.metadata) : ∀ c∈text r e, Printable c := by
  rw [text]
  generalize hx : Json.sortKeys (.obj (fields e))=x
  exact printable_dumps x (numeric_fields h hx.symm)

theorem text_ne_nil (h : NumericMembers r.numbers e.metadata) : text r e≠[] := by
  obtain ⟨c, rest, he, _⟩ := (objectText_text h).first
  rw [he]
  exact List.cons_ne_nil _ _

/-- A whole line gives its event. -/
theorem events_text (h : Readable r e) : events r (text r e)=[sortMetadata e] := by
  obtain ⟨c, rest, he, _⟩ := (objectText_text h.numeric).first
  have hlast := (objectText_text h.numeric).last
  have hstrip : Text.strip (text r e)=text r e := by
    have hdrop : (text r e).dropWhile Text.isSpace=text r e := by
      rw [he]
      exact List.dropWhile_cons_of_neg (by decide)
    have hback : (text r e).reverse.dropWhile Text.isSpace=(text r e).reverse := by
      obtain ⟨init, hinit⟩ := List.getLast?_eq_some_iff.mp hlast
      rw [hinit, List.reverse_append]
      exact List.dropWhile_cons_of_neg (by decide)
    rw [Text.strip, hdrop, hback, List.reverse_reverse]
  rw [events_single (printable_text h.numeric), hstrip, if_neg (text_ne_nil h.numeric), h.validates]
  rfl

/-- What stands behind the last newline: nothing, something that is skipped, or the whole text
of an event. -/
inductive Tail (r : Reader) : List Char → Option AuditEvent → Prop where
  | empty : Tail r [] none
  | stuck (t : List Char) (hp : ∀ c∈t, Printable c) (hne : t≠[]) (h : (Scan.start.run t).Stuck) :
    Tail r t none
  | whole (t : List Char) (e : AuditEvent) (ht : t=text r e) (h : Readable r e) : Tail r t (some e)

/-- The events of the ended lines, and the one behind the last newline. -/
structure Shape (r : Reader) (raw : List Char) (es : List AuditEvent) (last : Option AuditEvent) :
    Prop where
  split : ∃ body tail, raw=body++tail ∧ (body=[] ∨ ∃ b, body=b++['\n']) ∧
    events r body=es.map sortMetadata ∧ Tail r tail last

theorem Tail.printable {t : List Char} {last : Option AuditEvent} (h : Tail r t last) :
    ∀ c∈t, Printable c := by
  cases h with
  | empty => simp
  | stuck _ hp _ _ => exact hp
  | whole _ e ht h =>
    rw [ht]
    exact printable_text h.numeric

theorem Tail.not_start {t : List Char} {last : Option AuditEvent} (h : Tail r t last) (hne : t≠[]) :
    Scan.start.run t≠.start := by
  cases h with
  | empty => exact absurd rfl hne
  | stuck _ _ _ h => exact (Scan.stuck_iff.mp h).1
  | whole _ e ht h =>
    rw [ht, (objectText_text h.numeric).scans]
    exact Scan.noConfusion

theorem Tail.events (hr : Strict r) {t : List Char} {last : Option AuditEvent} (h : Tail r t last) :
    events r t=last.toList.map sortMetadata := by
  cases h with
  | empty => exact events_nil r
  | stuck _ hp _ h => exact events_stuck hr hp h
  | whole _ e ht h =>
    rw [ht]
    exact events_text h

theorem Tail.nil {t : List Char} {last : Option AuditEvent} (h : Tail r t last) (ht : t=[]) :
    last=none := by
  cases h with
  | empty => rfl
  | stuck _ _ hne _ => exact absurd ht hne
  | whole _ e he hread => exact absurd (he.symm.trans ht) (text_ne_nil hread.numeric)

theorem events_body {body : List Char} (h : body=[] ∨ ∃ b, body=b++['\n']) (t : List Char) :
    events r (body++t)=events r body++events r t := by
  cases h with
  | inl h =>
    rw [h, List.nil_append, events_nil, List.nil_append]
  | inr h =>
    obtain ⟨b, rfl⟩ := h
    rw [List.append_assoc, List.singleton_append, events_append, events_append, events_nil,
      List.append_nil]

theorem Shape.drained (hr : Strict r) {es : List AuditEvent} {last : Option AuditEvent}
    (h : Shape r raw es last) : events r raw=(es++last.toList).map sortMetadata := by
  obtain ⟨body, tail, rfl, hbody, hes, ht⟩ := h.split
  rw [events_body hbody, hes, ht.events hr, List.map_append]

theorem shape_nil (r : Reader) : Shape r [] [] none :=
  ⟨[], [], rfl, Or.inl rfl, events_nil r, .empty⟩

/-- A file whose last line is ended holds nothing behind it. -/
theorem Shape.closed {es : List AuditEvent} {last : Option AuditEvent} (h : Shape r raw es last)
    (hc : Closed (some raw)) : (raw=[] ∨ ∃ b, raw=b++['\n']) ∧
    events r raw=es.map sortMetadata ∧ last=none := by
  obtain ⟨body, tail, rfl, hbody, hes, ht⟩ := h.split
  have hnil : tail=[] := by
    cases hl : tail.getLast? with
    | none => exact List.getLast?_eq_none_iff.mp hl
    | some c =>
      have hlast : (body++tail).getLast?=some c := by
        rw [List.getLast?_append, hl]
        rfl
      have hp := ht.printable c (List.mem_of_getLast? hl)
      rw [hc c hlast] at hp
      exact absurd hp (by decide)
  rw [hnil, List.append_nil]
  exact ⟨hbody, hes, ht.nil hnil⟩

structure Wrote (r : Reader) (raw : List Char) (e : AuditEvent) (n : Nat)
    (es : List AuditEvent) (last : Option AuditEvent) (es' : List AuditEvent)
    (last' : Option AuditEvent) : Prop where
  shape : Shape r (raw++(line r e).take n) es' last'
  effect : (es'=es ∧ (last'=last ∨ last'=none)) ∨
    (Closed (some raw) ∧ (text r e).length ≤ n ∧ (es'=es ∧ last'=some e ∨ es'=es++[e] ∧ last'=none))

theorem take_line (r : Reader) (e : AuditEvent) (n : Nat) : (line r e).take n=
    if n≤(text r e).length then (text r e).take n else text r e++['\n'] := by
  rw [line]
  split
  · next h => exact List.take_append_of_le_length h
  · next h =>
    have hlen : (text r e++['\n']).length ≤ n := by
      rw [List.length_append, List.length_singleton]
      omega
    exact List.take_of_length_le hlen

theorem closed_body {body : List Char} (h : body=[] ∨ ∃ b, body=b++['\n']) :
    Closed (some body) := by
  intro c hc
  cases h with
  | inl h =>
    rw [h] at hc
    cases hc
  | inr h =>
    obtain ⟨b, rfl⟩ := h
    rw [Option.getD_some, List.getLast?_concat] at hc
    cases hc
    rfl

/-- A whole line behind the last newline. -/
theorem wrote_line (he : Readable r e) {es : List AuditEvent}
    (hbody : raw=[] ∨ ∃ b, raw=b++['\n']) (hes : events r raw=es.map sortMetadata) :
    Shape r (raw++line r e) (es++[e]) none := by
  refine ⟨⟨raw++line r e, [], (List.append_nil _).symm, ?_, ?_, .empty⟩⟩
  · exact Or.inr ⟨raw++text r e, by rw [line, List.append_assoc]⟩
  · rw [events_body hbody, line, events_append, events_nil, events_text he, hes]
    simp

theorem wrote_closed (he : Readable r e) {es : List AuditEvent}
    (hbody : raw=[] ∨ ∃ b, raw=b++['\n']) (hes : events r raw=es.map sortMetadata) (n : Nat) :
    ∃ es' last', Wrote r raw e n es none es' last' := by
  have hp := printable_text he.numeric
  have hclosed := closed_body hbody
  obtain hlt | heq | hgt := Nat.lt_trichotomy n (text r e).length
  · have htake : (line r e).take n=(text r e).take n := by rw [take_line, if_pos hlt.le]
    have hq : (text r e).drop n≠[] := by
      intro hnil
      have hlen := List.drop_eq_nil_iff.mp hnil
      omega
    by_cases hn : n=0
    · refine ⟨es, none, ⟨⟨raw, [], ?_, hbody, hes, .empty⟩⟩, Or.inl ⟨rfl, Or.inl rfl⟩⟩
      rw [hn, List.take_zero]
    · have hne : (text r e).take n≠[] := by
        intro hnil
        rw [List.take_eq_nil_iff] at hnil
        exact hnil.elim hn (text_ne_nil he.numeric)
      have hstuck := (objectText_text he.numeric).cut (List.take_append_drop n _).symm hne hq
      refine ⟨es, none, ⟨⟨raw, (text r e).take n, ?_, hbody, hes, ?_⟩⟩, Or.inl ⟨rfl, Or.inl rfl⟩⟩
      · rw [htake]
      · exact .stuck _ (fun c hc => hp c (List.mem_of_mem_take hc)) hne hstuck
  · have htake : (line r e).take n=text r e := by
      rw [take_line, if_pos heq.le, heq, List.take_length]
    refine ⟨es, some e, ⟨⟨raw, text r e, ?_, hbody, hes, ?_⟩⟩, Or.inr ⟨hclosed, heq.ge, ?_⟩⟩
    · rw [htake]
    · exact .whole _ e rfl he
    · exact Or.inl ⟨rfl, rfl⟩
  · have htake : (line r e).take n=line r e := by rw [take_line, if_neg (by omega), line]
    refine ⟨es++[e], none, ⟨?_, Or.inr ⟨hclosed, hgt.le, Or.inr ⟨rfl, rfl⟩⟩⟩⟩
    rw [htake]
    exact wrote_line he hbody hes

theorem wrote_open (he : Readable r e) (hr : Strict r) {body tail : List Char}
    {es : List AuditEvent} {last : Option AuditEvent} (hbody : body=[] ∨ ∃ b, body=b++['\n'])
    (hes : events r body=es.map sortMetadata) (ht : Tail r tail last) (hne : tail≠[]) (n : Nat) :
    ∃ es' last', Wrote r (body++tail) e n es last es' last' ∧ (n≠0 → es'=es ∧ last'=none) := by
  have hp := printable_text he.numeric
  have hglued : ∀ p q : List Char, text r e=p++q → p≠[] → (Scan.start.run (tail++p)).Stuck := by
    intro p q hpq hpne
    rw [Scan.run_append]
    exact (objectText_text he.numeric).glued hpq hpne (ht.not_start hne)
  by_cases hn : n=0
  · refine ⟨es, last, ⟨⟨⟨body, tail, ?_, hbody, hes, ht⟩⟩, Or.inl ⟨rfl, Or.inl rfl⟩⟩,
      fun h => absurd hn h⟩
    rw [hn, List.take_zero, List.append_nil]
  by_cases hle : n≤(text r e).length
  · have hpne : (text r e).take n≠[] := by
      intro hnil
      rw [List.take_eq_nil_iff] at hnil
      exact hnil.elim hn (text_ne_nil he.numeric)
    refine ⟨es, none, ⟨⟨⟨body, tail++(text r e).take n, ?_, hbody, hes, ?_⟩⟩,
      Or.inl ⟨rfl, Or.inr rfl⟩⟩, fun _ => ⟨rfl, rfl⟩⟩
    · rw [take_line, if_pos hle, List.append_assoc]
    · refine .stuck _ ?_ (List.append_ne_nil_of_left_ne_nil hne _)
        (hglued _ _ (List.take_append_drop n _).symm hpne)
      intro c hc
      cases List.mem_append.mp hc with
      | inl hc => exact ht.printable c hc
      | inr hc => exact hp c (List.mem_of_mem_take hc)
  · refine ⟨es, none, ⟨⟨⟨body++(tail++text r e++['\n']), [], ?_, ?_, ?_, .empty⟩⟩,
      Or.inl ⟨rfl, Or.inr rfl⟩⟩, fun _ => ⟨rfl, rfl⟩⟩
    · rw [take_line, if_neg hle]
      simp
    · exact Or.inr ⟨body++(tail++text r e), by simp⟩
    · have hprint : ∀ c∈tail++text r e, Printable c := by
        intro c hc
        cases List.mem_append.mp hc with
        | inl hc => exact ht.printable c hc
        | inr hc => exact hp c hc
      have hstuck := hglued (text r e) [] (List.append_nil _).symm (text_ne_nil he.numeric)
      rw [events_body hbody, events_append, events_nil, events_stuck hr hprint hstuck, hes]
      simp

/-- Any write, after any number of its characters. -/
theorem Shape.write (hr : Strict r) (he : Readable r e) {es : List AuditEvent}
    {last : Option AuditEvent} (h : Shape r raw es last) (n : Nat) :
    ∃ es' last', Wrote r raw e n es last es' last' := by
  obtain ⟨body, tail, rfl, hbody, hes, ht⟩ := h.split
  by_cases hne : tail=[]
  · rw [hne, List.append_nil, ht.nil hne]
    exact wrote_closed he hbody hes n
  · obtain ⟨es', last', hw, _⟩ := wrote_open he hr hbody hes ht hne n
    exact ⟨es', last', hw⟩

end Lines
section Runs
variable {r : Reader} {maxBytes : Nat} {w : Calls} {op : AuditEvent × Fate}

/-- A call below the cap writes some characters of its line, all of them when it returns
`True`. -/
theorem Calls.step_spec (hc : ¬ Capped maxBytes w.file) (e : AuditEvent) (fate : Fate) :
    ∃ b n, (w.step r maxBytes (e, fate)).results=w.results++[(e, b)] ∧
      (w.step r maxBytes (e, fate)).file=some (w.file.getD []++(line r e).take n) ∧
      match fate with
      | .completes => b=some true ∧ n=(line r e).length
      | .crashes k => b=none ∧ n=k
      | .fails k => b=some false ∧ n=k := by
  cases fate with
  | completes =>
    refine ⟨some true, (line r e).length, ?_, ?_, rfl, rfl⟩
    · simp [step, append, hc]
    · simp [step, append, hc]
  | crashes n =>
    refine ⟨none, n, ?_, ?_, rfl, rfl⟩
    · simp [step, append, hc]
    · simp [step, append, hc]
  | fails n =>
    refine ⟨some false, n, ?_, ?_, rfl, rfl⟩
    · simp [step, append, hc]
    · simp [step, append, hc]

theorem Calls.step_capped (hc : Capped maxBytes w.file) :
    w.step r maxBytes op={ w with results := w.results++[(op.1, some false)] } := by
  simp [step, append, hc]

structure Holds (r : Reader) (w : Calls) (es : List AuditEvent) (last : Option AuditEvent) :
    Prop where
  shape : Shape r (w.file.getD []) es last
  kept : Kept w.results es
  last : ∀ x∈last, Kept w.results (es++[x])

theorem Holds.skip {es : List AuditEvent} {last last' : Option AuditEvent} (h : Holds r w es last)
    {w' : Calls} {e : AuditEvent} {b : Option Bool} (hb : b≠some true)
    (hres : w'.results=w.results++[(e, b)]) (hlast : last'=last ∨ last'=none)
    (hshape : Shape r (w'.file.getD []) es last') : Holds r w' es last' := by
  refine ⟨hshape, ?_, ?_⟩
  · rw [hres]
    exact h.kept.drop e hb
  · intro x hx
    rw [hres]
    cases hlast with
    | inl hl => exact (h.last x (hl ▸ hx)).drop e hb
    | inr hl =>
      rw [hl] at hx
      cases hx

theorem Holds.step (hr : Strict r) {es : List AuditEvent} {last : Option AuditEvent}
    (he : Readable r op.1) (h : Holds r w es last) (hclean : Clean r maxBytes w op) :
    ∃ es' last', Holds r (w.step r maxBytes op) es' last' := by
  by_cases hcap : Capped maxBytes w.file
  · rw [Calls.step_capped hcap]
    exact ⟨es, last, h.skip (by decide) rfl (Or.inl rfl) h.shape⟩
  have hfate := hclean.resolve_left hcap
  obtain ⟨e, fate⟩ := op
  obtain ⟨b, n, hres, hfile, hn⟩ := Calls.step_spec (r := r) hcap e fate
  have hwrite := h.shape.write hr he n
  cases fate with
  | completes =>
    obtain ⟨hb, hlen⟩ := hn
    rw [hb] at hres
    rw [hlen, List.take_length] at hfile
    obtain ⟨hbody, hes, _⟩ := h.shape.closed hfate
    refine ⟨es++[e], none, ⟨?_, ?_, fun x hx => ?_⟩⟩
    · rw [hfile]
      exact wrote_line he hbody hes
    · rw [hres]
      exact h.kept.append (.returned e .nil)
    · cases hx
  | crashes k =>
    obtain ⟨rfl, rfl⟩ := hn
    obtain ⟨es', last', hshape, heffect⟩ := hwrite
    rw [← Option.getD_some (a := w.file.getD []++(line r e).take n) (b := []), ← hfile] at hshape
    obtain ⟨rfl, hlast⟩ | ⟨hclosed, _, hadded⟩ := heffect
    · exact ⟨es', last', h.skip (by decide) hres hlast hshape⟩
    · have hwhole : Kept (w.results++[(e, none)]) (es++[e]) := h.kept.append (.whole e .nil)
      obtain ⟨rfl, rfl⟩ | ⟨rfl, rfl⟩ := hadded
      · refine ⟨es', some e, ⟨hshape, hres ▸ h.kept.drop e (by decide), fun x hx => ?_⟩⟩
        cases hx
        rwa [hres]
      · refine ⟨es++[e], none, ⟨hshape, by rwa [hres], fun x hx => ?_⟩⟩
        cases hx
  | fails k =>
    obtain ⟨rfl, rfl⟩ := hn
    obtain ⟨es', last', hshape, heffect⟩ := hwrite
    rw [← Option.getD_some (a := w.file.getD []++(line r e).take n) (b := []), ← hfile] at hshape
    obtain ⟨rfl, hlast⟩ | ⟨_, hlong, _⟩ := heffect
    · exact ⟨es', last', h.skip (by decide) hres hlast hshape⟩
    · exact absurd hlong (Nat.not_le.mpr hfate)

theorem Holds.start (r : Reader) : Holds r {} [] none := by
  refine ⟨shape_nil r, .nil, fun x hx => ?_⟩
  cases hx

theorem drain_eq (file : File) : (drain r file).1=events r (file.getD []) := by
  cases file with
  | none => exact (events_nil r).symm
  | some raw => rfl

theorem drain_count (file : File) : count (drain r file).2=0 := by
  cases file with
  | none => rfl
  | some raw => rfl

/-- What is drained is what is kept, a last event without its newline included. -/
theorem Holds.drained (hr : Strict r) {es : List AuditEvent} {last : Option AuditEvent}
    (h : Holds r w es last) : ∃ kept, Kept w.results kept ∧
      (drain r w.file).1=kept.map sortMetadata := by
  rw [drain_eq, h.shape.drained hr]
  refine ⟨es++last.toList, ?_, rfl⟩
  cases last with
  | none =>
    rw [Option.toList_none, List.append_nil]
    exact h.kept
  | some x => exact h.last x rfl

structure Free (r : Reader) (e : AuditEvent) (w : Calls) : Prop where
  shape : ∃ es last, Shape r (w.file.getD []) es last ∧
    ∀ x∈es++last.toList, sortMetadata x≠sortMetadata e

theorem Free.start (r : Reader) (e : AuditEvent) : Free r e {} :=
  ⟨[], none, shape_nil r, by simp⟩

theorem Free.step (hr : Strict r) {e : AuditEvent} (he : Readable r op.1)
    (hne : sortMetadata op.1≠sortMetadata e) (h : Free r e w) :
    Free r e (w.step r maxBytes op) := by
  by_cases hcap : Capped maxBytes w.file
  · rw [Calls.step_capped hcap]
    exact ⟨h.shape⟩
  obtain ⟨es, last, hshape, hfree⟩ := h.shape
  obtain ⟨b, n, _, hfile, _⟩ := Calls.step_spec (r := r) hcap op.1 op.2
  obtain ⟨es', last', hshape', heffect⟩ := hshape.write hr he n
  have hold : ∀ x∈es, sortMetadata x≠sortMetadata e := fun x hx =>
    hfree x (List.mem_append_left _ hx)
  refine ⟨es', last', by rwa [hfile], ?_⟩
  intro x hx
  obtain ⟨rfl, hlast⟩ | ⟨_, _, hadded⟩ := heffect
  · cases hlast with
    | inl hl => exact hfree x (hl ▸ hx)
    | inr hl =>
      rw [hl, Option.toList_none, List.append_nil] at hx
      exact hold x hx
  · have hmem : x∈es ∨ x=op.1 := by
      obtain ⟨rfl, rfl⟩ | ⟨rfl, rfl⟩ := hadded
      · simpa using hx
      · simpa using hx
    cases hmem with
    | inl hm => exact hold x hm
    | inr hm => exact hm ▸ hne

/-- A line written behind characters that no newline follows is lost. -/
theorem Free.glue (hr : Strict r) {e : AuditEvent} (he : Readable r e)
    (hcap : ¬ Capped maxBytes w.file) (hopen : ¬ Closed w.file) (h : Free r e w) :
    Free r e (w.step r maxBytes (e, .completes)) := by
  obtain ⟨es, last, hshape, hfree⟩ := h.shape
  obtain ⟨body, tail, hraw, hbody, hes, ht⟩ := hshape.split
  have hne : tail≠[] := by
    intro hnil
    rw [hnil, List.append_nil] at hraw
    have hclosed := closed_body hbody
    rw [← hraw] at hclosed
    exact hopen hclosed
  obtain ⟨b, n, _, hfile, _, hn⟩ := Calls.step_spec (r := r) hcap e .completes
  obtain ⟨es', last', hw, hlost⟩ := wrote_open he hr hbody hes ht hne n
  have hpos : n≠0 := by
    rw [hn, line, List.length_append, List.length_singleton]
    exact Nat.succ_ne_zero _
  obtain ⟨rfl, rfl⟩ := hlost hpos
  refine ⟨es', none, ?_, ?_⟩
  · rw [hfile, hraw]
    exact hw.shape
  · intro x hx
    rw [Option.toList_none, List.append_nil] at hx
    exact hfree x (List.mem_append_left _ hx)

theorem results_exec (w : Calls) (ops : List (AuditEvent × Fate)) :
    w.results⊆(Trace.exec (Calls.step r maxBytes) w ops).results := by
  induction ops generalizing w with
  | nil => exact List.Subset.refl _
  | cons op ops ih =>
    have hstep : w.results⊆(w.step r maxBytes op).results := List.subset_append_left _ _
    exact fun x hx => ih _ (hstep hx)

/-- What a run whose drain gives every event back must have done. -/
theorem Free.along (hr : Strict r) {ops : List (AuditEvent × Fate)}
    (hread : ∀ op∈ops, Readable r op.1) (hnodup : (ops.map fun op => sortMetadata op.1).Nodup)
    (hfree : ∀ op∈ops, Free r op.1 w) {kept : List AuditEvent}
    (hkept : Kept (Trace.exec (Calls.step r maxBytes) w ops).results kept)
    (hdrain : events r ((Trace.exec (Calls.step r maxBytes) w ops).file.getD [])=
      kept.map sortMetadata) :
    Trace.Along (Calls.step r maxBytes)
      (fun w op => op.2=.completes → Capped maxBytes w.file ∨ Closed w.file) w ops := by
  induction ops generalizing w with
  | nil => trivial
  | cons op ops ih =>
    obtain ⟨hop, hread⟩ := List.forall_mem_cons.mp hread
    obtain ⟨hfop, hfree⟩ := List.forall_mem_cons.mp hfree
    rw [List.map_cons, List.nodup_cons] at hnodup
    have hne : ∀ x∈ops, sortMetadata x.1≠sortMetadata op.1 := fun x hx he =>
      hnodup.1 (List.mem_map.mpr ⟨x, hx, he⟩)
    refine ⟨?_, ih hread hnodup.2 ?_ hkept hdrain⟩
    · intro hdone
      by_contra hnot
      rw [not_or] at hnot
      have hgone : Free r op.1 (Trace.exec (Calls.step r maxBytes) (w.step r maxBytes op) ops) := by
        refine Trace.Along.invariant (Free r op.1) (fun x => x∈ops) ?_ ?_ (fun _ hx => hx)
          (Trace.Along.of_true _ ops)
        · exact fun w x hx h _ => h.step hr (hread x hx) (hne x hx)
        · have hglue := hfop.glue hr hop hnot.1 hnot.2
          rwa [← hdone] at hglue
      obtain ⟨b, n, hres, _, hb, _⟩ := Calls.step_spec (r := r) hnot.1 op.1 .completes
      have hlast : (op.1, some true)∈(w.step r maxBytes op).results := by
        rw [← hdone, hb] at hres
        have hm : (op.1, some true)∈w.results++[(op.1, some true)] :=
          List.mem_append_right _ List.mem_cons_self
        rwa [← hres] at hm
      have hin := hkept.mem (results_exec _ ops hlast)
      obtain ⟨es, last, hshape, hother⟩ := hgone.shape
      have hm : sortMetadata op.1∈(es++last.toList).map sortMetadata := by
        rw [← hshape.drained hr, ← Trace.exec, hdrain]
        exact List.mem_map.mpr ⟨op.1, hin, rfl⟩
      obtain ⟨x, hx, he⟩ := List.mem_map.mp hm
      exact hother x hx he
    · intro x hx
      exact (hfree x hx).step hr hop (hne x hx).symm

/-- Every event is drained if each completed line begins a line of its own and no failed write
leaves a whole line; and of different events only then, as to the former. -/
theorem spool_round_trip {r : Reader} (hr : Strict r) (maxBytes : Nat)
    {ops : List (AuditEvent × Fate)} (hread : ∀ op∈ops, Readable r op.1) :
    (Trace.Along (Calls.step r maxBytes) (Clean r maxBytes) {} ops → RoundTrip r maxBytes ops) ∧
    ((ops.map fun op => sortMetadata op.1).Nodup → RoundTrip r maxBytes ops →
      Trace.Along (Calls.step r maxBytes)
        (fun w op => op.2=.completes → Capped maxBytes w.file ∨ Closed w.file) {} ops) := by
  constructor
  · intro hclean
    obtain ⟨es, last, hend⟩ := Trace.Along.invariant
      (fun w => ∃ es last, Holds r w es last) (fun op => op∈ops)
      (fun w op hop h hc => by
        obtain ⟨es, last, h⟩ := h
        exact h.step hr (hread op hop) hc)
      ⟨[], none, Holds.start r⟩ (fun _ hop => hop) hclean
    exact ⟨hend.drained hr, drain_count _⟩
  · intro hnodup h
    obtain ⟨kept, hkept, hes⟩ := h.events
    rw [drain_eq] at hes
    exact Free.along hr hread hnodup (fun op _ => Free.start r op.1) hkept hes

end Runs

def deniedEvent : AuditEvent :=
  { ts := "2026-01-01T00:00:01+00:00", action := "policy.evaluated", resource := "provision:i1"
    decision := "deny", metadata := [("denies", .arr [.str "SC-8: TLS required"])] }

def noNumbers : Numbers := { write := fun _ => [], read := fun _ => none }

def sampleReader : Reader where
  numbers := noNumbers
  validate := fun s => [sampleEvent, deniedEvent].find? fun e =>
    decide (dumps noNumbers (Json.sortKeys (.obj (fields e)))=s)

theorem sampleReader_numeric : ∀ e∈[sampleEvent, deniedEvent],
    NumericMembers sampleReader.numbers e.metadata := by
  intro e he
  simp only [List.mem_cons, List.not_mem_nil, or_false] at he
  obtain rfl | rfl := he
  · trivial
  · exact ⟨⟨trivial, trivial⟩, trivial⟩

theorem sampleReader_strict : Strict sampleReader := by
  intro s e h
  have hm := List.mem_of_find?_eq_some h
  have hs := List.find?_some (p := fun e =>
    decide (dumps noNumbers (Json.sortKeys (.obj (fields e)))=s)) h
  rw [← of_decide_eq_true hs]
  exact (objectText_text (r := sampleReader) (sampleReader_numeric e hm)).scans

theorem sampleReader_readable : ∀ e∈[sampleEvent, deniedEvent], Readable sampleReader e := by
  intro e he
  refine ⟨sampleReader_numeric e he, ?_⟩
  simp only [List.mem_cons, List.not_mem_nil, or_false] at he
  obtain rfl | rfl := he
  · decide +kernel
  · decide +kernel

def tornLast : List (AuditEvent × Fate) := [(sampleEvent, .completes), (deniedEvent, .crashes 24)]

def tornFirst : List (AuditEvent × Fate) := [(sampleEvent, .crashes 24), (deniedEvent, .completes)]

theorem tornLast_readable : ∀ op∈tornLast, Readable sampleReader op.1 := by
  intro op hop
  exact sampleReader_readable op.1 (List.mem_map_of_mem (f := Prod.fst) hop)

theorem spool_round_trip_tornLast : RoundTrip sampleReader 50000000 tornLast ∧
    Trace.Along (Calls.step sampleReader 50000000)
      (fun w op => op.2=.completes → Capped 50000000 w.file ∨ Closed w.file) {} tornLast := by
  have hclosed : Closed none := by
    intro c hc
    cases hc
  have hclean : Trace.Along (Calls.step sampleReader 50000000) (Clean sampleReader 50000000) {}
      tornLast := ⟨Or.inr hclosed, Or.inr trivial, trivial⟩
  have h := spool_round_trip sampleReader_strict 50000000 tornLast_readable
  exact ⟨h.1 hclean, h.2 (by decide +kernel) (h.1 hclean)⟩

/-- The event whose call returned `True` is not drained: its line stands behind the piece of the
first one. -/
theorem spool_loses_event : Strict sampleReader ∧ (∀ op∈tornFirst, Readable sampleReader op.1) ∧
    (Trace.exec (Calls.step sampleReader 50000000) {} tornFirst).results=
      [(sampleEvent, none), (deniedEvent, some true)] ∧
    (drain sampleReader (Trace.exec (Calls.step sampleReader 50000000) {} tornFirst).file).1=[] ∧
    ¬ RoundTrip sampleReader 50000000 tornFirst := by
  have hresults : (Trace.exec (Calls.step sampleReader 50000000) {} tornFirst).results=
      [(sampleEvent, none), (deniedEvent, some true)] := by decide +kernel
  have hdrain : (drain sampleReader
      (Trace.exec (Calls.step sampleReader 50000000) {} tornFirst).file).1=[] := by decide +kernel
  refine ⟨sampleReader_strict, ?_, hresults, hdrain, ?_⟩
  · intro op hop
    exact sampleReader_readable op.1 (List.mem_map_of_mem (f := Prod.fst) hop)
  · intro h
    obtain ⟨kept, hkept, hes⟩ := h.events
    rw [hdrain] at hes
    rw [hresults] at hkept
    have hm := hkept.mem (e := deniedEvent) (by simp)
    rw [List.map_eq_nil_iff.mp hes.symm] at hm
    cases hm

end Sovereign.AuditSpool
