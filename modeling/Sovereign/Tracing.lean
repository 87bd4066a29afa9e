import Sovereign.Text
import Mathlib

/-! Trace context. A request carries its trace from service to service in the header
`traceparent`; each handler it reaches logs the trace, answers under it and hands it on. -/
namespace Sovereign.Tracing

def isHex (c : Char) : Bool := c∈"0123456789abcdef".toList

def zeros (n : Nat) : List Char := List.replicate n '0'

/-- The groups of `^00-(?P<trace>[0-9a-f]{32})-(?P<span>[0-9a-f]{16})-[0-9a-f]{2}$`; behind a
strip no line feed stands before the end. -/
def groups (text : List Char) : Option (List Char × List Char) :=
  let trace := (text.drop 3).take 32
  let span := (text.drop 36).take 16
  let flags := text.drop 53
  if trace.length=32 ∧ span.length=16 ∧ flags.length=2 ∧ (∀ c∈trace++span++flags, isHex c=true) ∧
      text="00-".toList++(trace++ '-' ::(span++ '-' ::flags)) then
    some (trace, span)
  else none

def parseTraceparent (header : Option String) : Option (String × String) :=
  match header with
  | none => none
  | some h =>
    if h="" then none
    else match groups (Text.strip h.toList) with
      | none => none
      | some (trace, span) =>
        if trace=zeros 32 ∨ span=zeros 16 then none
        else some (String.ofList trace, String.ofList span)

def formatTraceparent (traceId spanId : String) (sampled : Bool := true) : String :=
  "00-" ++ traceId ++ "-" ++ spanId ++ "-" ++ (if sampled then "01" else "00")

structure ValidId (n : Nat) (id : String) : Prop where
  length : id.toList.length=n
  hex : ∀ c∈id.toList, isHex c=true
  nonzero : id.toList≠zeros n

instance (n : Nat) (id : String) : Decidable (ValidId n id) :=
  decidable_of_iff (id.toList.length=n ∧ (∀ c∈id.toList, isHex c=true) ∧ id.toList≠zeros n)
    ⟨fun h => ⟨h.1, h.2.1, h.2.2⟩, fun h => ⟨h.length, h.hex, h.nonzero⟩⟩

/-! What is read and what is written. -/

theorem groups_eq {text : List Char} {trace span : List Char} (h : groups text=some (trace, span)) :
    ∃ flags : List Char, trace.length=32 ∧ span.length=16 ∧ flags.length=2 ∧
      (∀ c∈trace++span++flags, isHex c=true) ∧
      text="00-".toList++(trace++ '-' ::(span++ '-' ::flags)) := by
  simp only [groups] at h
  split at h
  · next hall =>
    obtain ⟨htrace, hspan⟩ := Prod.mk.inj (Option.some.inj h)
    subst htrace hspan
    exact ⟨_, hall⟩
  · cases h

theorem groups_text {trace span flags : List Char} (ht : trace.length=32) (hs : span.length=16)
    (hf : flags.length=2) (hex : ∀ c∈trace++span++flags, isHex c=true) :
    groups ("00-".toList++(trace++ '-' ::(span++ '-' ::flags)))=some (trace, span) := by
  have h3 : ("00-".toList++(trace++ '-' ::(span++ '-' ::flags))).drop 3=
      trace++ '-' ::(span++ '-' ::flags) := rfl
  have htake : (trace++ '-' ::(span++ '-' ::flags)).take 32=trace := by
    rw [← ht, List.take_left]
  have h36 : ("00-".toList++(trace++ '-' ::(span++ '-' ::flags))).drop 36=span++ '-' ::flags := by
    rw [show 36=3+33 from rfl, ← List.drop_drop, h3, show 33=32+1 from rfl, ← List.drop_drop, ← ht,
      List.drop_left]
    rfl
  have htake' : (span++ '-' ::flags).take 16=span := by
    rw [← hs, List.take_left]
  have h53 : ("00-".toList++(trace++ '-' ::(span++ '-' ::flags))).drop 53=flags := by
    rw [show 53=36+17 from rfl, ← List.drop_drop, h36, show 17=16+1 from rfl, ← List.drop_drop, ← hs,
      List.drop_left]
    rfl
  simp only [groups, h3, htake, h36, htake', h53]
  exact if_pos ⟨ht, hs, hf, hex, trivial⟩

/-- The words that stand in the text of a header cannot be stripped. -/
theorem strip_eq_self {s : List Char} {a b : Char} (mid : List Char) (hs : s=a::(mid++[b]))
    (ha : Text.isSpace a=false) (hb : Text.isSpace b=false) : Text.strip s=s := by
  subst hs
  have hfront : (a::(mid++[b])).dropWhile Text.isSpace=a::(mid++[b]) := by
    simp [List.dropWhile, ha]
  have hback : (a::(mid++[b])).reverse=b::(mid.reverse++[a]) := by simp
  rw [Text.strip, hfront, hback]
  simp [List.dropWhile, hb]

theorem toList_format (traceId spanId : String) (sampled : Bool) :
    (formatTraceparent traceId spanId sampled).toList=
      "00-".toList++(traceId.toList++ '-' ::(spanId.toList++ '-' ::
        (if sampled then ['0', '1'] else ['0', '0']))) := by
  have hdash : "-".toList=['-'] := rfl
  have hflags : (if sampled then "01" else "00").toList=
      (if sampled then ['0', '1'] else ['0', '0']) := by
    cases sampled <;> rfl
  simp only [formatTraceparent, String.toList_append, hdash, hflags, List.append_assoc,
    List.cons_append, List.nil_append]

theorem strip_format (traceId spanId : String) (sampled : Bool) :
    Text.strip (formatTraceparent traceId spanId sampled).toList=
      (formatTraceparent traceId spanId sampled).toList := by
  rw [toList_format]
  cases sampled with
  | true =>
    exact strip_eq_self ("0-".toList++(traceId.toList++ '-' ::(spanId.toList++['-', '0'])))
      (a := '0') (b := '1') (by simp) (by decide) (by decide)
  | false =>
    exact strip_eq_self ("0-".toList++(traceId.toList++ '-' ::(spanId.toList++['-', '0'])))
      (a := '0') (b := '0') (by simp) (by decide) (by decide)

theorem ValidId.ofList {n : Nat} {id : List Char} (hlength : id.length=n)
    (hhex : ∀ c∈id, isHex c=true) (hzero : id≠zeros n) : ValidId n (String.ofList id) := by
  refine ⟨?_, ?_, ?_⟩
  · rw [String.toList_ofList, hlength]
  · rwa [String.toList_ofList]
  · rwa [String.toList_ofList]

theorem parse_eq_some {header : Option String} {traceId spanId : String}
    (h : parseTraceparent header=some (traceId, spanId)) :
    ValidId 32 traceId ∧ ValidId 16 spanId := by
  cases header with
  | none => cases h
  | some text =>
    simp only [parseTraceparent] at h
    split at h
    · cases h
    · split at h
      · cases h
      · next trace span hgroups =>
        split at h
        · cases h
        · next hzero =>
          obtain ⟨rfl, rfl⟩ := Prod.mk.inj (Option.some.inj h)
          obtain ⟨flags, ht, hs, _, hex, _⟩ := groups_eq hgroups
          obtain ⟨hztrace, hzspan⟩ := not_or.mp hzero
          exact ⟨ValidId.ofList ht (fun c hc => hex c (by simp [hc])) hztrace,
            ValidId.ofList hs (fun c hc => hex c (by simp [hc])) hzspan⟩

/-- A header that is written is read back exactly when both ids are valid. -/
theorem parse_format (traceId spanId : String) (sampled : Bool) :
    parseTraceparent (some (formatTraceparent traceId spanId sampled))=some (traceId, spanId) ↔
      ValidId 32 traceId ∧ ValidId 16 spanId := by
  constructor
  · exact parse_eq_some
  · intro h
    obtain ⟨ht, hs⟩ := h
    have hne : formatTraceparent traceId spanId sampled≠"" := by
      intro h
      have hlist := congrArg String.toList h
      rw [toList_format] at hlist
      cases hlist
    have hflags : (if sampled then ['0', '1'] else ['0', '0']).length=2 := by
      cases sampled <;> rfl
    have hflagHex : ∀ c∈(if sampled then ['0', '1'] else ['0', '0']), isHex c=true := by
      cases sampled <;> simp [isHex]
    have hall : ∀ c∈traceId.toList++spanId.toList++(if sampled then ['0', '1'] else ['0', '0']),
        isHex c=true := by
      intro c hc
      obtain hc | hc := List.mem_append.mp hc
      · obtain hc | hc := List.mem_append.mp hc
        · exact ht.hex c hc
        · exact hs.hex c hc
      · exact hflagHex c hc
    simp only [parseTraceparent, if_neg hne, strip_format]
    rw [toList_format, groups_text ht.length hs.length hflags hall]
    simp [ht.nonzero, hs.nonzero]

/-! A request and all that it causes. -/

/-- The ids that a handler draws for itself; the trace is drawn only where none comes in. -/
structure Drawn where
  traceId : String
  spanId : String

mutual

/-- A request that a service handles: what it does on the way, and whether it answers or raises. -/
inductive Visit where
  | node (drawn : Drawn) (acts : Acts) (answers : Bool)

/-- A call of another service or a subprocess, each under a span of its own, or the readiness probe
of a service, which hands it no header. -/
inductive Acts where
  | done
  | call (spanId : String) (callee : Visit) (rest : Acts)
  | subprocess (spanId : String) (rest : Acts)
  | probe (callee : Visit) (rest : Acts)

end

/-- What comes out of a handler: a line of the access log, a header of its answer, or a value
that another service or a subprocess is given. -/
inductive Emission where
  | log (traceId : String)
  | answer (traceparent : String)
  | outbound (traceparent : String)
  | environment (traceparent : String)

/-- `dispatch`: the trace that comes in, or a new one. -/
def traceOf (header : Option String) (drawn : Drawn) : String :=
  match parseTraceparent header with
  | some (traceId, _) => traceId
  | none => drawn.traceId

mutual

/-- What a visit emits, with the services that it hands a header to. -/
def emissions (header : Option String) : Visit → List Emission
  | .node drawn acts answers =>
    let traceId := traceOf header drawn
    actEmissions traceId acts ++
      (if answers then [.answer (formatTraceparent traceId drawn.spanId)] else []) ++
      [.log traceId]

def actEmissions (traceId : String) : Acts → List Emission
  | .done => []
  | .call spanId callee rest =>
    let traceparent := formatTraceparent traceId spanId
    .outbound traceparent::(emissions (some traceparent) callee ++ actEmissions traceId rest)
  | .subprocess spanId rest =>
    .environment (formatTraceparent traceId spanId)::actEmissions traceId rest
  | .probe _ rest => actEmissions traceId rest

end

mutual

def Visit.probed : Visit → List Visit
  | .node _ acts _ => acts.probed

def Acts.probed : Acts → List Visit
  | .done => []
  | .call _ callee rest => callee.probed++rest.probed
  | .subprocess _ rest => rest.probed
  | .probe callee rest => callee::(callee.probed++rest.probed)

end

mutual

def Visit.Proper : Visit → Prop
  | .node drawn acts _ => ValidId 32 drawn.traceId ∧ ValidId 16 drawn.spanId ∧ acts.Proper

def Acts.Proper : Acts → Prop
  | .done => True
  | .call spanId callee rest => ValidId 16 spanId ∧ callee.Proper ∧ rest.Proper
  | .subprocess spanId rest => ValidId 16 spanId ∧ rest.Proper
  | .probe callee rest => callee.Proper ∧ rest.Proper

end

/-- The emission belongs to the trace; a value that is handed on is read as such. -/
def Emission.OfTrace (traceId : String) : Emission → Prop
  | .log t => t=traceId
  | .answer v => (parseTraceparent (some v)).map Prod.fst=some traceId
  | .outbound v => (parseTraceparent (some v)).map Prod.fst=some traceId
  | .environment v => (parseTraceparent (some v)).map Prod.fst=some traceId

def Visit.drawn : Visit → Drawn
  | .node drawn _ _ => drawn

theorem parse_handed {traceId spanId : String} (ht : ValidId 32 traceId) (hs : ValidId 16 spanId) :
    parseTraceparent (some (formatTraceparent traceId spanId))=some (traceId, spanId) :=
  (parse_format traceId spanId true).mpr ⟨ht, hs⟩

/-- A trace that comes in, or is drawn, is valid. -/
theorem valid_traceOf (header : Option String) {drawn : Drawn} (h : ValidId 32 drawn.traceId) :
    ValidId 32 (traceOf header drawn) := by
  rw [traceOf]
  split
  · next hparse => exact (parse_eq_some hparse).1
  · exact h

/-- The callee of a handler takes up the trace. -/
theorem traceOf_handed {traceId spanId : String} (ht : ValidId 32 traceId) (hs : ValidId 16 spanId)
    (drawn : Drawn) : traceOf (some (formatTraceparent traceId spanId)) drawn=traceId := by
  rw [traceOf, parse_handed ht hs]

mutual

theorem emissions_ofTrace (header : Option String) (v : Visit) (h : v.Proper) :
    ∀ e∈emissions header v, e.OfTrace (traceOf header v.drawn) := by
  cases v with
  | node drawn acts answers =>
    obtain ⟨htrace, hspan, hacts⟩ := h
    have hvalid := valid_traceOf header htrace
    intro e he
    simp only [emissions, List.mem_append] at he
    obtain (he | he) | he := he
    · exact actEmissions_ofTrace hvalid acts hacts e he
    · cases answers with
      | true =>
        rw [List.mem_singleton.mp he]
        exact congrArg (Option.map Prod.fst) (parse_handed hvalid hspan)
      | false => cases he
    · rw [List.mem_singleton.mp he]
      rfl

theorem actEmissions_ofTrace {traceId : String} (ht : ValidId 32 traceId) (acts : Acts)
    (h : acts.Proper) : ∀ e∈actEmissions traceId acts, e.OfTrace traceId := by
  cases acts with
  | done => exact fun e he => by cases he
  | call spanId callee rest =>
    obtain ⟨hspan, hcallee, hrest⟩ := h
    intro e he
    simp only [actEmissions, List.mem_cons, List.mem_append] at he
    obtain rfl | he | he := he
    · exact congrArg (Option.map Prod.fst) (parse_handed ht hspan)
    · have hof := emissions_ofTrace _ callee hcallee e he
      rwa [traceOf_handed ht hspan] at hof
    · exact actEmissions_ofTrace ht rest hrest e he
  | subprocess spanId rest =>
    obtain ⟨hspan, hrest⟩ := h
    intro e he
    simp only [actEmissions, List.mem_cons] at he
    obtain rfl | he := he
    · exact congrArg (Option.map Prod.fst) (parse_handed ht hspan)
    · exact actEmissions_ofTrace ht rest hrest e he
  | probe callee rest => exact actEmissions_ofTrace ht rest h.2

end

mutual

theorem proper_probed (v : Visit) (h : v.Proper) : ∀ p∈v.probed, p.Proper := by
  cases v with
  | node drawn acts answers => exact acts_proper_probed acts h.2.2

theorem acts_proper_probed (acts : Acts) (h : acts.Proper) : ∀ p∈acts.probed, p.Proper := by
  cases acts with
  | done => exact fun p hp => by cases hp
  | call spanId callee rest =>
    obtain ⟨-, hcallee, hrest⟩ := h
    exact List.forall_mem_append.mpr
      ⟨proper_probed callee hcallee, acts_proper_probed rest hrest⟩
  | subprocess spanId rest => exact acts_proper_probed rest h.2
  | probe callee rest =>
    obtain ⟨hcallee, hrest⟩ := h
    exact List.forall_mem_cons.mpr ⟨hcallee, List.forall_mem_append.mpr
      ⟨proper_probed callee hcallee, acts_proper_probed rest hrest⟩⟩

end

/-- However services call one another, everything that a request causes is of one trace: all log
lines tell it, and whatever value of `traceparent` is answered, handed to a service or put into
the environment of a subprocess is read as it. It is the trace that came in, if one did. A
service that is probed on the way starts a trace of its own, and all that it causes is of that. -/
theorem one_trace (header : Option String) (v : Visit) (h : v.Proper) :
    (∀ e∈emissions header v, e.OfTrace (traceOf header v.drawn)) ∧
      (∀ traceId spanId, parseTraceparent header=some (traceId, spanId) →
        traceOf header v.drawn=traceId) ∧
      ∀ p∈v.probed, ∀ e∈emissions none p, e.OfTrace p.drawn.traceId := by
  refine ⟨emissions_ofTrace header v h, fun traceId spanId hparse => ?_, fun p hp => ?_⟩
  · rw [traceOf, hparse]
  · exact emissions_ofTrace none p (proper_probed v h p hp)

def hexId (n : Nat) (digit : Char) : String := String.ofList (List.replicate n digit)

theorem hexId_valid {n : Nat} (hn : 0 < n) {digit : Char} (hhex : isHex digit=true)
    (hne : digit ≠ '0') : ValidId n (hexId n digit) := by
  refine ⟨by simp [hexId], ?_, ?_⟩
  · intro c hc
    rw [hexId, String.toList_ofList] at hc
    rwa [List.eq_of_mem_replicate hc]
  · intro h
    rw [hexId, String.toList_ofList, zeros, List.replicate_inj] at h
    exact hne (h.2.resolve_left hn.ne')

def provisionVisit : Visit :=
  .node ⟨hexId 32 'a', hexId 16 '1'⟩
    (.call (hexId 16 '2')
      (.node ⟨hexId 32 'b', hexId 16 '3'⟩ (.subprocess (hexId 16 '4') .done) true)
      (.call (hexId 16 '5') (.node ⟨hexId 32 'c', hexId 16 '6'⟩ .done false) .done))
    true

def readyVisit : Visit :=
  .node ⟨hexId 32 'a', hexId 16 '1'⟩ (.probe (.node ⟨hexId 32 'b', hexId 16 '3'⟩ .done true) .done)
    true

theorem one_trace_provision :
    (emissions none provisionVisit≠[] ∧
      ∀ e∈emissions none provisionVisit, e.OfTrace (hexId 32 'a')) ∧
    readyVisit.probed≠[] ∧
      ∀ p∈readyVisit.probed, ∀ e∈emissions none p, e.OfTrace p.drawn.traceId := by
  have hproper : provisionVisit.Proper := by
    simp [provisionVisit, Visit.Proper, Acts.Proper, hexId_valid, isHex]
  have hready : readyVisit.Proper := by
    simp [readyVisit, Visit.Proper, Acts.Proper, hexId_valid, isHex]
  exact ⟨⟨by simp [provisionVisit, emissions], (one_trace none provisionVisit hproper).1⟩,
    by simp [readyVisit, Visit.probed, Acts.probed], (one_trace none readyVisit hready).2.2⟩

end Sovereign.Tracing
