import Sovereign.AuditService
import Sovereign.HashChain

/-! Calls of `ingest_event` side by side in one process. A call advances from one lock
section, or one call out of the process, to the next; between two steps of a call any
other call may take any number of its own. -/
namespace Sovereign.AuditService
open Sovereign

/-- Where a call stands. `again` tells the flush after a drain from the one before the
insert; the rows are those a flush holds in its hands. -/
inductive Stage where
  | posted (e : AuditEvent)
  | chained (e : AuditEvent)
  | prepared (e : AuditEvent)
  | flushing (again : Bool) (e : AuditEvent)
  | inserting (again : Bool) (e : AuditEvent) (rows : List Row)
  | requeueing (again : Bool) (e : AuditEvent) (rows : List Row)
  | own (e : AuditEvent)
  | draining (e : AuditEvent)
  | refilling (e : AuditEvent) (events : List AuditEvent)
  | placing (e : AuditEvent)
  | spilling (e : AuditEvent)
  | dropping (e : AuditEvent)
deriving DecidableEq

def afterFlush (again : Bool) (e : AuditEvent) : Option Stage :=
  if again then none else some (.own e)

/-- One step of a call: the state after it, and where the call stands then. `ok` is how the
call out of the process ends; `also` is whether a failed insert has stored its rows all
the same, or whether the drained file could be unlinked. A line written behind a torn one
is read back as part of it. -/
def advance (cfg : Config) (torn ok also : Bool) (s : State) : Stage → State × Option Stage
  | .posted e =>
    let (e, last) := ensureChained cfg s.lastEventHash e
    ({ s with lastEventHash := last }, some (.chained e))
  | .chained e => (s, (signAuditEvent cfg e).map .prepared)
  | .prepared e =>
    let connected := s.connected || ok
    ({ s with connected }, some (if connected then .flushing false e else .placing e))
  | .flushing again e =>
    let taken := takeRows cfg s.buffer.items s.lastEventHash []
    let left : Deque AuditEvent bufferCap :=
      ⟨taken.2.1, takeRows_fits cfg s⟩
    let s := { s with buffer := left, lastEventHash := taken.2.2 }
    match taken.1 with
    | none => (s, if again then some (.placing e) else none)
    | some [] => (s, afterFlush again e)
    | some rows => (s, some (.inserting again e rows))
  | .inserting again e rows =>
    if ok then ({ s with rows := s.rows++rows }, afterFlush again e)
    else ({ s with rows := if also then s.rows++rows else s.rows },
      some (.requeueing again e rows))
  | .requeueing again e rows => ({ s with buffer := requeue rows s.buffer }, afterFlush again e)
  | .own e =>
    if ok then ({ s with rows := s.rows++[row e] },
      if s.spool.isSome then some (.draining e) else none)
    else ({ s with rows := if also then s.rows++[row e] else s.rows }, some (.placing e))
  | .draining e =>
    match s.spool with
    | none => (s, none)
    | some spool =>
      let (events, rest) := drain { reads := ok, unlinks := also } spool
      ({ s with spool := some rest }, some (.refilling e events))
  | .refilling e [] => (s, some (.flushing true e))
  | .refilling e (x::xs) => ({ s with buffer := s.buffer.append x }, some (.refilling e xs))
  | .placing e =>
    if s.buffer.items.length < bufferCap then ({ s with buffer := s.buffer.append e }, none)
    else (s, some (.spilling e))
  | .spilling e =>
    match s.spool with
    | none => (s, some (.dropping e))
    | some spool =>
      if ok then ({ s with spool := some (if torn then spool else spool++[e]) }, none)
      else (s, some (.dropping e))
  | .dropping e => ({ s with buffer := s.buffer.append e }, none)

def Stage.events : Stage → List AuditEvent
  | .posted _ | .chained _ => []
  | .inserting _ e rows | .requeueing _ e rows => e::rows.map eventFromRow
  | .refilling e events => e::events
  | .prepared e | .flushing _ e | .own e | .draining e | .placing e | .spilling e | .dropping e => [e]

def State.waiting (s : State) : List AuditEvent := s.buffer.items++s.spool.getD []

theorem mem_waiting {s : State} {x : AuditEvent} :
    x∈s.waiting ↔ x∈s.buffer.items ∨ x∈s.spool.getD [] := List.mem_append

theorem row_eventFromRow (r : Row) : row (eventFromRow r)=r := rfl

theorem requeue_cons (r : Row) (rows : List Row) (b : Deque AuditEvent bufferCap) :
    requeue (r::rows) b =
      (if bufferCap≤(requeue rows b).items.length then (requeue rows b).popleft
        else requeue rows b).appendleft (eventFromRow r) := by
  rw [requeue, List.reverse_cons, List.foldl_append, List.foldl_cons, List.foldl_nil]
  rfl

theorem mem_requeue {rows : List Row} {b : Deque AuditEvent bufferCap} {x : AuditEvent}
    (h : x∈(requeue rows b).items) : x∈b.items ∨ x∈rows.map eventFromRow := by
  induction rows with
  | nil => exact Or.inl h
  | cons r rows ih =>
    rw [requeue_cons] at h
    obtain hx | rfl := Deque.mem_appendleft h
    · have hx : x∈(requeue rows b).items := by
        split at hx
        · exact List.mem_of_mem_tail hx
        · exact hx
      exact (ih hx).imp_right (List.mem_cons_of_mem _)
    · exact Or.inr List.mem_cons_self

/-! What a step of a call does with prepared events: it moves them. -/

section Carries
variable {cfg : Config} {torn ok also : Bool} {s : State} {st : Stage}

structure Carried (Q : AuditEvent → Prop) (R : Row → Prop) (next : State × Option Stage) : Prop where
  waiting : ∀ x∈next.1.waiting, Q x
  rows : ∀ r∈next.1.rows, R r
  events : ∀ st∈next.2, ∀ x∈st.events, Q x

theorem afterFlush_events {again : Bool} {e : AuditEvent} {Q : AuditEvent → Prop} (h : Q e) :
    ∀ st∈afterFlush again e, ∀ x∈st.events, Q x := by
  intro st hst x hx
  rw [afterFlush] at hst
  split at hst
  · cases hst
  · cases hst
    rw [List.mem_singleton.mp hx]
    exact h

theorem forall_mem_none {α : Type} {P : α → Prop} : ∀ a∈(none : Option α), P a := by
  intro a h
  cases h

theorem forall_mem_some {α : Type} {P : α → Prop} {a : α} (h : P a) : ∀ b∈some a, P b := by
  intro b hb
  cases hb
  exact h

theorem forall_mem_append {α : Type} {P : α → Prop} {xs ys : List α} (hx : ∀ x∈xs, P x)
    (hy : ∀ x∈ys, P x) : ∀ x∈xs++ys, P x := fun x h => (List.mem_append.mp h).elim (hx x) (hy x)

/-- The flush of prepared events takes them all, in their order, and chains nothing. -/
theorem advance_flushing (h : ∀ x∈s.buffer.items, Prepared cfg x) (again : Bool) (e : AuditEvent) :
    advance cfg torn ok also s (.flushing again e) =
      ({ s with buffer := Deque.empty },
        if s.buffer.items=[] then afterFlush again e
        else some (.inserting again e (s.buffer.items.map row))) := by
  have htake := takeRows_prepared h s.lastEventHash []
  rw [List.nil_append] at htake
  have hleft : ∀ hl, (⟨(takeRows cfg s.buffer.items s.lastEventHash []).2.1, hl⟩ :
      Deque AuditEvent bufferCap)=Deque.empty := fun hl =>
    Deque.ext (congrArg (fun t => t.2.1) htake)
  simp only [advance, hleft]
  rw [htake]
  cases s.buffer.items with
  | nil => simp
  | cons x xs => simp

theorem mem_drain (o : Outcomes) (spool : List AuditEvent) (x : AuditEvent) :
    x∈spool ↔ x∈(drain o spool).1 ∨ x∈(drain o spool).2 := by
  rw [drain]
  split
  · split
    · simp
    · simp
  · simp

/-- The branches of a step, when all that is buffered is prepared: the state and the stage
that each one leaves. -/
inductive Advances (cfg : Config) (torn ok : Bool) (s : State) :
    Stage → State × Option Stage → Prop where
  | posted (e : AuditEvent) : Advances cfg torn ok s (.posted e)
      ({ s with lastEventHash := (ensureChained cfg s.lastEventHash e).2 },
        some (.chained (ensureChained cfg s.lastEventHash e).1))
  | chained (c : AuditEvent) : Advances cfg torn ok s (.chained c)
      (s, (signAuditEvent cfg c).map .prepared)
  | connected (e : AuditEvent) : Advances cfg torn ok s (.prepared e)
      ({ s with connected := true }, some (.flushing false e))
  | unconnected (e : AuditEvent) : Advances cfg torn ok s (.prepared e)
      ({ s with connected := false }, some (.placing e))
  | empty (again : Bool) (e : AuditEvent) (items : s.buffer.items=[]) :
      Advances cfg torn ok s (.flushing again e) ({ s with buffer := Deque.empty }, afterFlush again e)
  | took (again : Bool) (e : AuditEvent) (items : s.buffer.items≠[]) :
      Advances cfg torn ok s (.flushing again e)
        ({ s with buffer := Deque.empty }, some (.inserting again e (s.buffer.items.map row)))
  | inserted (again : Bool) (e : AuditEvent) (rows : List Row) :
      Advances cfg torn ok s (.inserting again e rows)
        ({ s with rows := s.rows++rows }, afterFlush again e)
  | refused (again : Bool) (e : AuditEvent) (rows stored : List Row)
      (rowsAfter : stored=s.rows ∨ stored=s.rows++rows) :
      Advances cfg torn ok s (.inserting again e rows)
        ({ s with rows := stored }, some (.requeueing again e rows))
  | requeued (again : Bool) (e : AuditEvent) (rows : List Row) :
      Advances cfg torn ok s (.requeueing again e rows)
        ({ s with buffer := requeue rows s.buffer }, afterFlush again e)
  | stored (e : AuditEvent) (next : Option Stage)
      (nextStage : next=none ∨ next=some (.draining e)) :
      Advances cfg torn ok s (.own e) ({ s with rows := s.rows++[row e] }, next)
  | unstored (e : AuditEvent) (stored : List Row)
      (rowsAfter : stored=s.rows ∨ stored=s.rows++[row e]) :
      Advances cfg torn ok s (.own e) ({ s with rows := stored }, some (.placing e))
  | unspooled (e : AuditEvent) : Advances cfg torn ok s (.draining e) (s, none)
  | drained (e : AuditEvent) (spool events rest : List AuditEvent) (file : s.spool=some spool)
      (kept : ∀ x, x∈spool ↔ x∈events ∨ x∈rest) :
      Advances cfg torn ok s (.draining e) ({ s with spool := some rest }, some (.refilling e events))
  | refilled (e : AuditEvent) : Advances cfg torn ok s (.refilling e []) (s, some (.flushing true e))
  | refills (e x : AuditEvent) (xs : List AuditEvent) : Advances cfg torn ok s (.refilling e (x::xs))
      ({ s with buffer := s.buffer.append x }, some (.refilling e xs))
  | placed (e : AuditEvent) (room : s.buffer.items.length < bufferCap) :
      Advances cfg torn ok s (.placing e) ({ s with buffer := s.buffer.append e }, none)
  | full (e : AuditEvent) : Advances cfg torn ok s (.placing e) (s, some (.spilling e))
  | unspilled (e : AuditEvent) : Advances cfg torn ok s (.spilling e) (s, some (.dropping e))
  | spilled (e : AuditEvent) (spool : List AuditEvent) (file : s.spool=some spool)
      (written : ok=true) :
      Advances cfg torn ok s (.spilling e)
        ({ s with spool := some (if torn then spool else spool++[e]) }, none)
  | dropped (e : AuditEvent) : Advances cfg torn ok s (.dropping e)
      ({ s with buffer := s.buffer.append e }, none)

theorem advance_advances (torn ok also : Bool) (h : ∀ x∈s.buffer.items, Prepared cfg x)
    (st : Stage) : Advances cfg torn ok s st (advance cfg torn ok also s st) := by
  cases st with
  | posted e => exact .posted e
  | chained c => exact .chained c
  | prepared e =>
    rw [advance]
    cases s.connected || ok with
    | true => exact .connected e
    | false => exact .unconnected e
  | flushing again e =>
    rw [advance_flushing h]
    split
    · next hi => exact .empty again e hi
    · next hi => exact .took again e hi
  | inserting again e rows =>
    rw [advance]
    split
    · exact .inserted again e rows
    · refine .refused again e rows _ ?_
      cases also with
      | true => exact Or.inr rfl
      | false => exact Or.inl rfl
  | requeueing again e rows => exact .requeued again e rows
  | own e =>
    rw [advance]
    split
    · refine .stored e _ ?_
      split
      · exact Or.inr rfl
      · exact Or.inl rfl
    · refine .unstored e _ ?_
      cases also with
      | true => exact Or.inr rfl
      | false => exact Or.inl rfl
  | draining e =>
    rw [advance]
    split
    · exact .unspooled e
    · next spool hs =>
      exact .drained e spool _ _ hs (mem_drain { reads := ok, unlinks := also } spool)
  | refilling e events =>
    cases events with
    | nil => exact .refilled e
    | cons x xs =>
      rw [advance]
      exact .refills e x xs
  | placing e =>
    rw [advance]
    split
    · next hlt => exact .placed e hlt
    · exact .full e
  | spilling e =>
    rw [advance]
    split
    · exact .unspilled e
    · next spool hs =>
      split
      · next hok => exact .spilled e spool hs hok
      · exact .unspilled e
  | dropping e =>
    rw [advance]
    exact .dropped e

def Stage.Underway : Stage → Prop
  | .posted _ | .chained _ => False
  | _ => True

theorem afterFlush_underway (again : Bool) (e : AuditEvent) :
    ∀ st∈afterFlush again e, st.Underway := by
  cases again with
  | true => exact forall_mem_none
  | false => exact forall_mem_some trivial

variable {next : State × Option Stage}

/-- Only the first step of a call moves the head of the chain, and a call never goes back
to an event that is not prepared. -/
theorem Advances.underway (h : Advances cfg torn ok s st next) (hst : ∀ e, st≠.posted e) :
    next.1.lastEventHash=s.lastEventHash ∧ ∀ st'∈next.2, st'.Underway := by
  cases h with
  | posted e => exact absurd rfl (hst e)
  | chained c =>
    refine ⟨rfl, fun st hst => ?_⟩
    obtain ⟨e, _, rfl⟩ := Option.map_eq_some_iff.mp hst
    trivial
  | connected e => exact ⟨rfl, forall_mem_some trivial⟩
  | unconnected e => exact ⟨rfl, forall_mem_some trivial⟩
  | empty again e _ => exact ⟨rfl, afterFlush_underway again e⟩
  | took again e _ => exact ⟨rfl, forall_mem_some trivial⟩
  | inserted again e rows => exact ⟨rfl, afterFlush_underway again e⟩
  | refused again e rows stored _ => exact ⟨rfl, forall_mem_some trivial⟩
  | requeued again e rows => exact ⟨rfl, afterFlush_underway again e⟩
  | stored e next hnext =>
    refine ⟨rfl, ?_⟩
    cases hnext with
    | inl hn => exact hn ▸ forall_mem_none
    | inr hn => exact hn ▸ forall_mem_some trivial
  | unstored e stored _ => exact ⟨rfl, forall_mem_some trivial⟩
  | unspooled e => exact ⟨rfl, forall_mem_none⟩
  | drained e spool events rest _ _ => exact ⟨rfl, forall_mem_some trivial⟩
  | refilled e => exact ⟨rfl, forall_mem_some trivial⟩
  | refills e x xs => exact ⟨rfl, forall_mem_some trivial⟩
  | placed e _ => exact ⟨rfl, forall_mem_none⟩
  | full e => exact ⟨rfl, forall_mem_some trivial⟩
  | unspilled e => exact ⟨rfl, forall_mem_some trivial⟩
  | spilled e spool _ _ => exact ⟨rfl, forall_mem_none⟩
  | dropped e => exact ⟨rfl, forall_mem_none⟩

/-- Steps move prepared events and change none: what holds of all of them before, and of
the event the step signs, holds of all of them after it. -/
theorem Advances.carries (h : Advances cfg torn ok s st next) {Q : AuditEvent → Prop}
    {R : Row → Prop} (hprepared : ∀ x, Q x → Prepared cfg x) (hstore : ∀ x, Q x → R (row x))
    (hwaiting : ∀ x∈s.waiting, Q x) (hrows : ∀ r∈s.rows, R r) (hevents : ∀ x∈st.events, Q x)
    (hsign : ∀ c, st=.chained c → ∀ e∈signAuditEvent cfg c, Q e) : Carried Q R next := by
  have hbuffer : ∀ x∈s.buffer.items, Q x := fun x hx => hwaiting x (mem_waiting.mpr (Or.inl hx))
  have hspool : ∀ x∈s.spool.getD [], Q x := fun x hx => hwaiting x (mem_waiting.mpr (Or.inr hx))
  have happend : ∀ e, Q e → ∀ x∈(s.buffer.append e).items++s.spool.getD [], Q x := fun e he =>
    forall_mem_append (fun x hx => (Deque.mem_append hx).elim (hbuffer x) (fun h => h ▸ he)) hspool
  have hstored : ∀ rows : List Row, (∀ x∈rows.map eventFromRow, Q x) → ∀ r∈s.rows++rows, R r :=
    fun rows h => forall_mem_append hrows fun r hr => by
      rw [← row_eventFromRow r]
      exact hstore _ (h _ (List.mem_map_of_mem hr))
  -- a prepared event is read back from its row as it was
  have hown : ∀ e, Q e → ∀ x∈[row e].map eventFromRow, Q x := by
    intro e he x hx
    rw [List.mem_singleton.mp hx, (hprepared e he).eventFromRow_row]
    exact he
  cases h with
  | posted e => exact ⟨hwaiting, hrows, forall_mem_some fun x hx => (by cases hx)⟩
  | chained c =>
    refine ⟨hwaiting, hrows, ?_⟩
    intro st hst x hx
    obtain ⟨e, he, rfl⟩ := Option.map_eq_some_iff.mp hst
    rw [List.mem_singleton.mp hx]
    exact hsign c rfl e he
  | connected e => exact ⟨hwaiting, hrows, forall_mem_some hevents⟩
  | unconnected e => exact ⟨hwaiting, hrows, forall_mem_some hevents⟩
  | empty again e _ =>
    exact ⟨hspool, hrows, afterFlush_events (hevents e List.mem_cons_self)⟩
  | took again e _ =>
    refine ⟨hspool, hrows, forall_mem_some ?_⟩
    rw [Stage.events, map_eventFromRow fun x hx => hprepared x (hbuffer x hx)]
    exact List.forall_mem_cons.mpr ⟨hevents e List.mem_cons_self, hbuffer⟩
  | inserted again e rows =>
    obtain ⟨he, hr⟩ := List.forall_mem_cons.mp hevents
    exact ⟨hwaiting, hstored rows hr, afterFlush_events he⟩
  | refused again e rows stored hafter =>
    obtain ⟨he, hr⟩ := List.forall_mem_cons.mp hevents
    refine ⟨hwaiting, ?_, forall_mem_some hevents⟩
    cases hafter with
    | inl hs => exact hs ▸ hrows
    | inr hs => exact hs ▸ hstored rows hr
  | requeued again e rows =>
    obtain ⟨he, hr⟩ := List.forall_mem_cons.mp hevents
    refine ⟨?_, hrows, afterFlush_events he⟩
    exact forall_mem_append (fun x hx => (mem_requeue hx).elim (hbuffer x) (hr x)) hspool
  | stored e next hnext =>
    refine ⟨hwaiting, hstored _ (hown e (hevents e List.mem_cons_self)), ?_⟩
    cases hnext with
    | inl hn => exact hn ▸ forall_mem_none
    | inr hn => exact hn ▸ forall_mem_some hevents
  | unstored e stored hafter =>
    refine ⟨hwaiting, ?_, forall_mem_some hevents⟩
    cases hafter with
    | inl hs => exact hs ▸ hrows
    | inr hs => exact hs ▸ hstored _ (hown e (hevents e List.mem_cons_self))
  | unspooled e => exact ⟨hwaiting, hrows, forall_mem_none⟩
  | drained e spool events rest hs hkept =>
    rw [hs, Option.getD_some] at hspool
    have hrest : ∀ x∈rest, Q x := fun x hx => hspool x ((hkept x).mpr (Or.inr hx))
    have htaken : ∀ x∈events, Q x := fun x hx => hspool x ((hkept x).mpr (Or.inl hx))
    exact ⟨forall_mem_append hbuffer hrest, hrows,
      forall_mem_some (List.forall_mem_cons.mpr ⟨hevents e List.mem_cons_self, htaken⟩)⟩
  | refilled e => exact ⟨hwaiting, hrows, forall_mem_some hevents⟩
  | refills e x xs =>
    obtain ⟨he, hx, hxs⟩ : Q e ∧ Q x ∧ ∀ y∈xs, Q y := by
      simpa [Stage.events] using hevents
    exact ⟨happend x hx, hrows, forall_mem_some (List.forall_mem_cons.mpr ⟨he, hxs⟩)⟩
  | placed e _ => exact ⟨happend e (hevents e List.mem_cons_self), hrows, forall_mem_none⟩
  | full e => exact ⟨hwaiting, hrows, forall_mem_some hevents⟩
  | unspilled e => exact ⟨hwaiting, hrows, forall_mem_some hevents⟩
  | spilled e spool hs _ =>
    rw [hs, Option.getD_some] at hspool
    refine ⟨forall_mem_append hbuffer ?_, hrows, forall_mem_none⟩
    cases torn with
    | true => exact hspool
    | false =>
      exact forall_mem_append hspool fun x hx =>
        List.mem_singleton.mp hx ▸ hevents e List.mem_cons_self
  | dropped e => exact ⟨happend e (hevents e List.mem_cons_self), hrows, forall_mem_none⟩

end Carries

/-! A call that runs alone does what `ingestEvent` says. -/

section Alone
variable {cfg : Config}

inductive Alone (cfg : Config) : State → Option Stage → State → Prop where
  | returned (s : State) : Alone cfg s none s
  | step {s s' : State} {st : Stage} (ok also : Bool)
      (h : Alone cfg (advance cfg false ok also s st).1 (advance cfg false ok also s st).2 s') :
      Alone cfg s (some st) s'

theorem Alone.of_invariant (I : State → Option Stage → Prop)
    (hstep : ∀ s st ok also, I s (some st) →
      I (advance cfg false ok also s st).1 (advance cfg false ok also s st).2)
    {s s' : State} {st : Option Stage} (h : Alone cfg s st s') (hI : I s st) : I s' none := by
  induction h with
  | returned s => exact hI
  | step ok also _ ih => exact ih (hstep _ _ ok also hI)

theorem dropping_alone (e : AuditEvent) (s : State) :
    Alone cfg s (some (.dropping e)) { s with buffer := s.buffer.append e } := by
  refine .step true true ?_
  rw [advance]
  exact .returned _

theorem bufferOrSpool_alone (o : Outcomes) (e : AuditEvent) (s : State) :
    Alone cfg s (some (.placing e)) (bufferOrSpool o e s).2 := by
  refine .step true true ?_
  rw [advance, bufferOrSpool]
  split
  · exact .returned _
  · refine .step o.appends true ?_
    obtain ⟨connected, last, buffer, spool, rows⟩ := s
    cases spool with
    | none => exact dropping_alone e _
    | some spool =>
      simp only [advance]
      cases o.appends with
      | true => exact .returned _
      | false => exact dropping_alone e _

/-- Two flushes differ in what comes next: `k` after a flush that returns, `raised` after
one that does not. -/
theorem flushBuffer_alone (again inserts : Bool) (e : AuditEvent) {s s' : State}
    (hok : ∀ n t, flushBuffer cfg inserts s=(some n, t) → Alone cfg t (afterFlush again e) s')
    (hraised : ∀ t, flushBuffer cfg inserts s=(none, t) →
      Alone cfg t (if again then some (.placing e) else none) s') :
    Alone cfg s (some (.flushing again e)) s' := by
  refine .step true true ?_
  rw [advance]
  simp only [flushBuffer] at hok hraised
  cases ht : (takeRows cfg s.buffer.items s.lastEventHash []).1 with
  | none =>
    simp only [ht] at hraised
    exact hraised _ rfl
  | some rows =>
    simp only [ht] at hok
    cases rows with
    | nil => exact hok 0 _ rfl
    | cons r rows =>
      refine .step inserts false ?_
      rw [advance]
      cases inserts with
      | true => exact hok _ _ rfl
      | false => exact .step true true (hok 0 _ rfl)

theorem refilling_alone (e : AuditEvent) (events : List AuditEvent) {s s' : State}
    (h : Alone cfg { s with buffer := s.buffer.extend events } (some (.flushing true e)) s') :
    Alone cfg s (some (.refilling e events)) s' := by
  induction events generalizing s with
  | nil => exact .step true true h
  | cons x xs ih =>
    refine .step true true ?_
    rw [advance]
    rw [Deque.extend_cons] at h
    exact ih h

theorem inserted_alone (o : Outcomes) (e : AuditEvent) (s : State) :
    Alone cfg s (if s.spool.isSome then some (.draining e) else none) (inserted cfg o e s).2 := by
  rw [inserted]
  cases hs : s.spool with
  | none => exact .returned _
  | some spool =>
    refine .step o.reads o.unlinks ?_
    simp only [advance, hs]
    refine refilling_alone e _ (flushBuffer_alone true o.reflushes e ?_ ?_)
    · intro n t ht
      have hd : drain { reads := o.reads, unlinks := o.unlinks } spool=drain o spool := rfl
      rw [hd] at ht
      simp only [ht]
      exact .returned _
    · intro t ht
      have hd : drain { reads := o.reads, unlinks := o.unlinks } spool=drain o spool := rfl
      rw [hd] at ht
      simp only [ht]
      exact bufferOrSpool_alone o e t

theorem ingestPrepared_alone (o : Outcomes) {e e' : AuditEvent} {last : Option String} {s : State}
    (hp : prepareEvent cfg s.lastEventHash e=(some e', last)) :
    Alone cfg { s with lastEventHash := last } (some (.prepared e')) (ingestEvent cfg o e s).2 := by
  refine .step o.connects true ?_
  simp only [advance, ingestEvent, hp]
  cases hc : s.connected || o.connects with
  | false => exact bufferOrSpool_alone o e' _
  | true =>
    simp only [if_true]
    refine flushBuffer_alone false o.flushes e' ?_ ?_
    · intro n t ht
      simp only [ht]
      refine .step o.inserts false ?_
      rw [advance]
      cases o.inserts with
      | true => exact inserted_alone o e' _
      | false => exact bufferOrSpool_alone o e' _
    · intro t ht
      simp only [ht]
      exact .returned _

/-- One call with nothing between its steps is one `ingest_event` of the service. -/
theorem ingestEvent_alone (o : Outcomes) (e : AuditEvent) (s : State) :
    Alone cfg s (some (.posted e)) (ingestEvent cfg o e s).2 := by
  refine .step true true ?_
  rw [advance]
  dsimp only
  refine .step true true ?_
  rw [advance]
  cases hp : prepareEvent cfg s.lastEventHash e with
  | mk prepared last =>
    have hlast : (ensureChained cfg s.lastEventHash e).2=last := congrArg Prod.snd hp
    have hsign : signAuditEvent cfg (ensureChained cfg s.lastEventHash e).1=prepared :=
      congrArg Prod.fst hp
    rw [hlast, hsign]
    cases prepared with
    | none =>
      simp only [ingestEvent, hp]
      exact .returned _
    | some e' => exact ingestPrepared_alone o hp

end Alone

/-- A process with the calls under way, and the events in the order in which they left
`_chain_event`. `torn` is set while the spool's file ends in a torn line. -/
structure Process where
  state : State := {}
  torn : Bool := false
  calls : List Stage := []
  left : List AuditEvent := []

inductive Turn where
  | post (e : AuditEvent)
  | run (call : Nat) (ok also : Bool)
deriving DecidableEq

/-- A flush finds only prepared events in the buffer and chains none. -/
def chains (cfg : Config) (s : State) : Stage → List AuditEvent
  | .posted e => if present e.eventHash then [] else [chainEvent cfg s.lastEventHash e]
  | _ => []

/-- A new line ends the torn one; unlinking takes it away with the file. -/
def tornAfter (torn ok also : Bool) (s : State) : Stage → Bool
  | .spilling _ => if s.spool.isSome && ok then false else torn
  | .draining _ => if ok && also then false else torn
  | _ => torn

def moved (calls : List Stage) (call : Nat) : Option Stage → List Stage
  | none => calls.eraseIdx call
  | some st => calls.set call st

def Process.step (cfg : Config) (p : Process) : Turn → Process
  | .post e => { p with calls := p.calls++[.posted e] }
  | .run call ok also =>
    match p.calls[call]? with
    | none => p
    | some st =>
      let next := advance cfg p.torn ok also p.state st
      { state := next.1, torn := tornAfter p.torn ok also p.state st
        calls := moved p.calls call next.2, left := p.left++chains cfg p.state st }

theorem mem_moved {calls : List Stage} {call : Nat} {next : Option Stage} {st : Stage}
    (h : st∈moved calls call next) : st∈calls ∨ next=some st := by
  cases next with
  | none => exact Or.inl (List.mem_of_mem_eraseIdx h)
  | some st' =>
    obtain hm | he := List.mem_or_eq_of_mem_set h
    · exact Or.inl hm
    · exact Or.inr (he ▸ rfl)

section Chain
variable {cfg : Config}

def Plain (e : AuditEvent) : Prop := present e.eventHash=false ∧ present e.signature=false

instance (e : AuditEvent) : Decidable (Plain e) := inferInstanceAs (Decidable (_ ∧ _))

/-- The event is one that left `_chain_event`, with the signature of the configured key, or
one that waited before. -/
def Settled (cfg : Config) (start : State) (p : Process) (x : AuditEvent) : Prop :=
  (∃ c∈p.left, signAuditEvent cfg c=some x) ∨ x∈start.waiting

/-- Every event in the hands of a call, in the buffer, in the spool or in the table is as
it left `_chain_event` and was signed; rows of before stay. -/
structure Unchanged (cfg : Config) (start : State) (p : Process) : Prop where
  waiting : ∀ x∈p.state.waiting, Settled cfg start p x
  rows : ∀ r∈p.state.rows, r∈start.rows ∨ Settled cfg start p (eventFromRow r)
  calls : ∀ st∈p.calls, ∀ x∈st.events, Settled cfg start p x

structure Unforked (start : State) (p : Process) : Prop where
  linked : HashChain.Linked AuditEvent.previousHash AuditEvent.eventHash start.lastEventHash p.left
  head : p.state.lastEventHash=
    HashChain.headAfter AuditEvent.eventHash start.lastEventHash p.left

structure Process.Inv (cfg : Config) (start : State) (p : Process) : Prop where
  unforked : Unforked start p
  unchanged : Unchanged cfg start p
  hashed : ∀ c∈p.left, present c.eventHash=true
  posted : ∀ e, .posted e∈p.calls → Plain e
  chained : ∀ c, .chained c∈p.calls → c∈p.left

variable {start : State} {p : Process}

theorem Settled.mono {q : Process} (h : p.left⊆q.left) {x : AuditEvent}
    (hx : Settled cfg start p x) : Settled cfg start q x := by
  obtain ⟨c, hc, hs⟩ | hw := hx
  · exact Or.inl ⟨c, h hc, hs⟩
  · exact Or.inr hw

theorem Process.Inv.initial (cfg : Config) (start : State) :
    Process.Inv cfg start { state := start } where
  unforked := ⟨trivial, rfl⟩
  unchanged := ⟨fun _ hx => Or.inr hx, fun _ hr => Or.inl hr, fun _ hst => (by cases hst)⟩
  hashed := fun _ hc => (by cases hc)
  posted := fun _ he => (by cases he)
  chained := fun _ hc => (by cases hc)

theorem Process.Inv.post (h : p.Inv cfg start) {e : AuditEvent} (he : Plain e) :
    (p.step cfg (.post e)).Inv cfg start where
  unforked := ⟨h.unforked.linked, h.unforked.head⟩
  unchanged := by
    refine ⟨h.unchanged.waiting, h.unchanged.rows, ?_⟩
    refine forall_mem_append h.unchanged.calls ?_
    intro st hst x hx
    rw [List.mem_singleton.mp hst] at hx
    cases hx
  hashed := h.hashed
  posted := by
    intro e' he'
    cases List.mem_append.mp he' with
    | inl hm => exact h.posted e' hm
    | inr hm =>
      cases List.mem_singleton.mp hm
      exact he
  chained := by
    intro c hc
    cases List.mem_append.mp hc with
    | inl hm => exact h.chained c hm
    | inr hm => cases List.mem_singleton.mp hm

theorem Settled.prepared (hstart : ∀ x∈start.waiting, Prepared cfg x)
    (hhashed : ∀ c∈p.left, present c.eventHash=true) {x : AuditEvent}
    (hx : Settled cfg start p x) : Prepared cfg x := by
  obtain ⟨c, hc, hs⟩ | hw := hx
  · exact signAuditEvent_prepared (hhashed c hc) hs
  · exact hstart x hw

theorem Process.Inv.chain (h : p.Inv cfg start) {call : Nat} {e : AuditEvent}
    (hcall : p.calls[call]?=some (.posted e)) (ok also : Bool) :
    (p.step cfg (.run call ok also)).Inv cfg start := by
  have hplain := h.posted e (List.mem_of_getElem? hcall)
  let c := chainEvent cfg p.state.lastEventHash e
  have hstep : p.step cfg (.run call ok also) =
      { p with state := { p.state with lastEventHash := c.eventHash }
               calls := p.calls.set call (.chained c), left := p.left++[c] } := by
    simp only [Process.step, hcall, advance, ensureChained, chains, hplain.1, tornAfter, moved]
    rfl
  have hsub : p.left⊆p.left++[c] := List.subset_append_left _ _
  have hcalls : ∀ st∈p.calls.set call (.chained c), st∈p.calls ∨ st=.chained c :=
    fun st hst => List.mem_or_eq_of_mem_set hst
  rw [hstep]
  refine ⟨⟨?_, ?_⟩, ⟨?_, ?_, ?_⟩, ?_, ?_, ?_⟩
  · exact HashChain.linked_append.mpr ⟨h.unforked.linked, h.unforked.head, trivial⟩
  · rw [HashChain.headAfter_append]
    rfl
  · exact fun x hx => (h.unchanged.waiting x hx).mono hsub
  · exact fun r hr => (h.unchanged.rows r hr).imp_right fun hs => hs.mono hsub
  · intro st hst x hx
    obtain hm | rfl := hcalls st hst
    · exact (h.unchanged.calls st hm x hx).mono hsub
    · cases hx
  · refine forall_mem_append h.hashed fun x hx => ?_
    rw [List.mem_singleton.mp hx]
    exact decide_eq_true (cfg.digest _).2
  · intro e' he'
    obtain hm | he := hcalls _ he'
    · exact h.posted e' hm
    · cases he
  · intro c' hc'
    obtain hm | he := hcalls _ hc'
    · exact hsub (h.chained c' hm)
    · cases he
      simp

theorem Process.Inv.move (h : p.Inv cfg start) (hstart : ∀ x∈start.waiting, Prepared cfg x)
    {call : Nat} {st : Stage} (hcall : p.calls[call]?=some st) (hst : ∀ e, st≠.posted e)
    (ok also : Bool) : (p.step cfg (.run call ok also)).Inv cfg start := by
  have hmem : st∈p.calls := List.mem_of_getElem? hcall
  have hprepared : ∀ x, Settled cfg start p x → Prepared cfg x :=
    fun x hx => hx.prepared hstart h.hashed
  have hstore : ∀ x, Settled cfg start p x →
      row x∈start.rows ∨ Settled cfg start p (eventFromRow (row x)) := by
    intro x hx
    rw [(hprepared x hx).eventFromRow_row]
    exact Or.inr hx
  have hsign : ∀ c, st=.chained c → ∀ e∈signAuditEvent cfg c, Settled cfg start p e := by
    intro c hc e he
    exact Or.inl ⟨c, h.chained c (hc ▸ hmem), he⟩
  have hbuffer : ∀ x∈p.state.buffer.items, Prepared cfg x := fun x hx =>
    hprepared x (h.unchanged.waiting x (mem_waiting.mpr (Or.inl hx)))
  have hadv := advance_advances p.torn ok also hbuffer st
  obtain ⟨hwaiting, hrows, hevents⟩ := hadv.carries hprepared hstore
    h.unchanged.waiting h.unchanged.rows (h.unchanged.calls st hmem) hsign
  obtain ⟨hlast, hunder⟩ := hadv.underway hst
  have hchains : chains cfg p.state st=[] := by
    cases st with
    | posted e => exact absurd rfl (hst e)
    | _ => rfl
  have hstep : p.step cfg (.run call ok also) =
      { state := (advance cfg p.torn ok also p.state st).1
        torn := tornAfter p.torn ok also p.state st
        calls := moved p.calls call (advance cfg p.torn ok also p.state st).2, left := p.left } := by
    simp only [Process.step, hcall, hchains, List.append_nil]
  rw [hstep]
  refine ⟨⟨h.unforked.linked, hlast.trans h.unforked.head⟩, ⟨hwaiting, hrows, ?_⟩, h.hashed, ?_, ?_⟩
  · intro st' hst' x hx
    obtain hm | he := mem_moved hst'
    · exact h.unchanged.calls st' hm x hx
    · exact hevents st' he x hx
  · intro e he
    obtain hm | hn := mem_moved he
    · exact h.posted e hm
    · exact absurd (hunder _ hn) id
  · intro c hc
    obtain hm | hn := mem_moved hc
    · exact h.chained c hm
    · exact absurd (hunder _ hn) id

def Turn.Plain : Turn → Prop
  | .post e => AuditService.Plain e
  | .run _ _ _ => True

instance : ∀ t : Turn, Decidable t.Plain
  | .post e => inferInstanceAs (Decidable (AuditService.Plain e))
  | .run _ _ _ => isTrue trivial

theorem Process.Inv.step (h : p.Inv cfg start) (hstart : ∀ x∈start.waiting, Prepared cfg x)
    {t : Turn} (ht : t.Plain) : (p.step cfg t).Inv cfg start := by
  cases t with
  | post e => exact h.post ht
  | run call ok also =>
    cases hcall : p.calls[call]? with
    | none =>
      have hsame : p.step cfg (.run call ok also)=p := by simp only [Process.step, hcall]
      rw [hsame]
      exact h
    | some st =>
      by_cases hposted : ∃ e, st=.posted e
      · obtain ⟨e, rfl⟩ := hposted
        exact h.chain hcall ok also
      · exact h.move hstart hcall (fun e he => hposted ⟨e, he⟩) ok also

theorem Process.Inv.run (h : p.Inv cfg start) (hstart : ∀ x∈start.waiting, Prepared cfg x)
    {turns : List Turn} (ht : ∀ t∈turns, t.Plain) :
    (Trace.exec (Process.step cfg) p turns).Inv cfg start := by
  induction turns generalizing p with
  | nil => exact h
  | cons t turns ih =>
    obtain ⟨ht, hrest⟩ := List.forall_mem_cons.mp ht
    exact ih (h.step hstart ht) hrest

theorem left_step_grows (cfg : Config) (p : Process) (t : Turn) : p.left<+:(p.step cfg t).left := by
  cases t with
  | post e => exact List.prefix_rfl
  | run call ok also =>
    rw [Process.step]
    split
    · exact List.prefix_rfl
    · exact List.prefix_append _ _

theorem left_exec_grows (cfg : Config) (p : Process) (turns : List Turn) :
    p.left<+:(Trace.exec (Process.step cfg) p turns).left := by
  induction turns generalizing p with
  | nil => exact List.prefix_rfl
  | cons t turns ih => exact (left_step_grows cfg p t).trans (ih (p.step cfg t))

/-- Under every interleaving of calls that post plain events: the events that left
`_chain_event` are one chain from the first head on, which only grows; and what the calls
hold and what is buffered, spooled or stored is one of them, hashes and signature as they
were. -/
theorem concurrent_chain_unforked (cfg : Config) (start : State)
    (hstart : ∀ x∈start.waiting, Prepared cfg x) (turns : List Turn) (ht : ∀ t∈turns, t.Plain) :
    Unforked start (Trace.exec (Process.step cfg) { state := start } turns) ∧
    Unchanged cfg start (Trace.exec (Process.step cfg) { state := start } turns) ∧
    ∀ later, (Trace.exec (Process.step cfg) { state := start } turns).left <+:
      (Trace.exec (Process.step cfg) { state := start } (turns++later)).left := by
  have hI := (Process.Inv.initial cfg start).run hstart ht
  refine ⟨hI.unforked, hI.unchanged, fun later => ?_⟩
  rw [Trace.exec_append]
  exact left_exec_grows cfg _ later

/-- Two events. The second one is chained first, the first one is buffered, and the second
call fails to flush it, requeues it and stores its own. -/
def twoCalls : List Turn :=
  [.post { ts := "2026-01-01T00:00:00Z", action := "instance.provisioned", resource := "lb-1" },
    .post { ts := "2026-01-01T00:00:00Z", action := "instance.updated", resource := "lb-2" },
    .run 1 true true, .run 0 true true, .run 0 true true, .run 0 false false, .run 0 true true,
    .run 0 true true, .run 0 true true, .run 0 true true, .run 0 false false, .run 0 true true,
    .run 0 true true]

theorem concurrent_chain_unforked_twoCalls :
    (Trace.exec (Process.step sampleConfig) {} twoCalls).left.length=2 ∧
    (Trace.exec (Process.step sampleConfig) {} twoCalls).state.rows.length=1 ∧
    Unforked {} (Trace.exec (Process.step sampleConfig) {} twoCalls) :=
  ⟨by decide +kernel, by decide +kernel,
    (concurrent_chain_unforked sampleConfig {} (fun x hx => by cases hx) twoCalls
      (by decide +kernel)).1⟩

end Chain
end Sovereign.AuditService
