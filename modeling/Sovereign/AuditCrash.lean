import Sovereign.AuditChain

/-! Crashes. A crash clears the memory of the process, the calls and the buffer, and leaves
the spool's file and the table. What `AuditSpool.append` has answered for is recorded and
looked for at every later moment. -/
namespace Sovereign.AuditService
open Sovereign

/-- What a call has still to place: its own event until its row is stored or it is placed,
and what it took from the buffer or the spool. -/
def Stage.hands : Stage → List AuditEvent
  | .posted _ | .chained _ | .draining _ | .flushing true _ => []
  | .inserting true _ rows | .requeueing true _ rows => rows.map eventFromRow
  | .inserting false e rows | .requeueing false e rows => e::rows.map eventFromRow
  | .refilling _ events => events
  | .prepared e | .flushing false e | .own e | .placing e | .spilling e | .dropping e => [e]

def Durable (s : State) (x : AuditEvent) : Prop := x∈s.spool.getD [] ∨ row x∈s.rows

instance (s : State) (x : AuditEvent) : Decidable (Durable s x) := inferInstanceAs (Decidable (_ ∨ _))

/-- What a step lets go: the oldest of a full buffer, what does not fit back into it, or a
line written behind a torn one. -/
def lets (torn ok : Bool) (s : State) : Stage → List AuditEvent
  | .dropping _ | .refilling _ (_::_) =>
    if bufferCap≤ s.buffer.items.length then s.buffer.items.take 1 else []
  | .requeueing _ _ rows =>
    (s.buffer.items++rows.map eventFromRow).filter fun x => decide (x∉(requeue rows s.buffer).items)
  | .spilling e => if torn && ok && s.spool.isSome then [e] else []
  | _ => []

def Found (next : State × Option Stage) (x : AuditEvent) : Prop :=
  Durable next.1 x ∨ x∈next.1.buffer.items ∨ ∃ st∈next.2, x∈st.hands

section Keeps
variable {cfg : Config} {s : State} {st : Stage} {x : AuditEvent}

theorem found_afterFlush_own {again : Bool} {e : AuditEvent} (s : State) (h : again=false) :
    Found (s, afterFlush again e) e := by
  subst h
  exact Or.inr (Or.inr ⟨.own e, rfl, List.mem_singleton.mpr rfl⟩)

variable {torn ok : Bool} {next : State × Option Stage}

/-- A stored event stays in the table, a spooled one in the file until a drain takes it in
hand. -/
theorem Advances.durable (ha : Advances cfg torn ok s st next) (h : Durable s x) :
    Found next x := by
  have hsame : ∀ (t : State) (next : Option Stage), t.spool=s.spool → s.rows⊆t.rows →
      Found (t, next) x := by
    intro t next hs hr
    rw [Durable, ← hs] at h
    exact Or.inl (h.imp_right fun hx => hr hx)
  have hall : s.rows⊆s.rows := fun _ hr => hr
  have hgrow : ∀ rows, s.rows⊆s.rows++rows := fun rows => List.subset_append_left _ _
  have hafter : ∀ {stored rows : List Row}, stored=s.rows ∨ stored=s.rows++rows → s.rows⊆stored := by
    intro stored rows hs
    cases hs with
    | inl hs => exact hs ▸ hall
    | inr hs => exact hs ▸ hgrow rows
  cases ha with
  | posted e => exact hsame _ _ rfl hall
  | chained c => exact hsame _ _ rfl hall
  | connected e => exact hsame _ _ rfl hall
  | unconnected e => exact hsame _ _ rfl hall
  | empty again e _ => exact hsame _ _ rfl hall
  | took again e _ => exact hsame _ _ rfl hall
  | inserted again e rows => exact hsame _ _ rfl (hgrow rows)
  | refused again e rows stored hs => exact hsame _ _ rfl (hafter hs)
  | requeued again e rows => exact hsame _ _ rfl hall
  | stored e next _ => exact hsame _ _ rfl (hgrow _)
  | unstored e stored hs => exact hsame _ _ rfl (hafter hs)
  | unspooled e => exact Or.inl h
  | drained e spool events rest hs hkept =>
    cases h with
    | inl hx =>
      rw [hs, Option.getD_some] at hx
      cases (hkept x).mp hx with
      | inl hx => exact Or.inr (Or.inr ⟨_, rfl, hx⟩)
      | inr hx => exact Or.inl (Or.inl hx)
    | inr hx => exact Or.inl (Or.inr hx)
  | refilled e => exact hsame _ _ rfl hall
  | refills e y ys => exact hsame _ _ rfl hall
  | placed e _ => exact hsame _ _ rfl hall
  | full e => exact hsame _ _ rfl hall
  | unspilled e => exact hsame _ _ rfl hall
  | spilled e spool hs _ =>
    refine Or.inl (h.imp_left fun hx => ?_)
    rw [hs, Option.getD_some] at hx
    cases torn with
    | true => exact hx
    | false => exact List.mem_append_left _ hx
  | dropped e => exact hsame _ _ rfl hall

theorem Advances.buffered (ha : Advances cfg torn ok s st next)
    (hb : ∀ x∈s.buffer.items, Prepared cfg x) (h : x∈s.buffer.items) :
    Found next x ∨ x∈lets torn ok s st := by
  have happend : ∀ e (next : Option Stage), Found ({ s with buffer := s.buffer.append e }, next) x ∨
      x∈(if bufferCap≤ s.buffer.items.length then s.buffer.items.take 1 else []) := by
    intro e next
    obtain hx | ⟨hfull, hx⟩ := Deque.mem_items_append h e
    · exact Or.inl (Or.inr (Or.inl hx))
    · exact Or.inr (by rw [if_pos hfull]; exact hx)
  have hstays : ∀ (t : State) (next : Option Stage), t.buffer=s.buffer → Found (t, next) x :=
    fun t next ht => Or.inr (Or.inl (ht ▸ h))
  cases ha with
  | posted e => exact Or.inl (hstays _ _ rfl)
  | chained c => exact Or.inl (hstays _ _ rfl)
  | connected e => exact Or.inl (hstays _ _ rfl)
  | unconnected e => exact Or.inl (hstays _ _ rfl)
  | empty again e hi => exact absurd hi (List.ne_nil_of_mem h)
  | took again e _ =>
    refine Or.inl (Or.inr (Or.inr ⟨_, rfl, ?_⟩))
    have hmem : x∈(s.buffer.items.map row).map eventFromRow := by
      rw [map_eventFromRow hb]
      exact h
    cases again with
    | true => exact hmem
    | false => exact List.mem_cons_of_mem e hmem
  | inserted again e rows => exact Or.inl (hstays _ _ rfl)
  | refused again e rows stored _ => exact Or.inl (hstays _ _ rfl)
  | requeued again e rows =>
    by_cases hx : x∈(requeue rows s.buffer).items
    · exact Or.inl (Or.inr (Or.inl hx))
    · refine Or.inr (List.mem_filter.mpr ⟨List.mem_append_left _ h, ?_⟩)
      simp [hx]
  | stored e next _ => exact Or.inl (hstays _ _ rfl)
  | unstored e stored _ => exact Or.inl (hstays _ _ rfl)
  | unspooled e => exact Or.inl (hstays _ _ rfl)
  | drained e spool events rest _ _ => exact Or.inl (hstays _ _ rfl)
  | refilled e => exact Or.inl (hstays _ _ rfl)
  | refills e y ys => exact happend y _
  | placed e hlt =>
    refine Or.inl (Or.inr (Or.inl ?_))
    rw [Deque.items_append_of_lt hlt]
    exact List.mem_append_left _ h
  | full e => exact Or.inl (hstays _ _ rfl)
  | unspilled e => exact Or.inl (hstays _ _ rfl)
  | spilled e spool _ _ => exact Or.inl (hstays _ _ rfl)
  | dropped e => exact happend e _

theorem Advances.hands (ha : Advances cfg torn ok s st next) (h : x∈st.hands) :
    Found next x ∨ x∈lets torn ok s st := by
  have hself : ∀ e (next : Option Stage), x=e →
      Found ({ s with buffer := s.buffer.append e }, next) x :=
    fun e next hx => hx ▸ Or.inr (Or.inl (Deque.mem_append_self _ _ (by decide)))
  have hholds : ∀ (t : State) (st' : Stage), x∈st'.hands → Found (t, some st') x :=
    fun t st' hx => Or.inr (Or.inr ⟨st', rfl, hx⟩)
  have hstored : ∀ rows : List Row, x∈rows.map eventFromRow → ∀ next,
      Found ({ s with rows := s.rows++rows }, next) x := by
    intro rows hx next
    obtain ⟨r, hr, rfl⟩ := List.mem_map.mp hx
    exact Or.inl (Or.inr (List.mem_append_right _ hr))
  cases ha with
  | posted e => cases h
  | chained c => cases h
  | connected e => exact Or.inl (hholds _ _ h)
  | unconnected e => exact Or.inl (hholds _ _ h)
  | empty again e _ =>
    cases again with
    | true => cases h
    | false => exact Or.inl (hholds _ _ h)
  | took again e _ =>
    cases again with
    | true => cases h
    | false => exact Or.inl (hholds _ _ (List.mem_cons.mpr (Or.inl (List.mem_singleton.mp h))))
  | inserted again e rows =>
    cases again with
    | true => exact Or.inl (hstored rows h _)
    | false =>
      cases List.mem_cons.mp h with
      | inl hx => exact Or.inl (hx ▸ found_afterFlush_own _ rfl)
      | inr hx => exact Or.inl (hstored rows hx _)
  | refused again e rows stored _ =>
    cases again with
    | true => exact Or.inl (hholds _ _ h)
    | false => exact Or.inl (hholds _ _ h)
  | requeued again e rows =>
    have hback : x∈rows.map eventFromRow →
        Found ({ s with buffer := requeue rows s.buffer }, afterFlush again e) x ∨
          x∈lets torn ok s (.requeueing again e rows) := by
      intro hx
      by_cases hin : x∈(requeue rows s.buffer).items
      · exact Or.inl (Or.inr (Or.inl hin))
      · refine Or.inr (List.mem_filter.mpr ⟨List.mem_append_right _ hx, ?_⟩)
        simp [hin]
    cases again with
    | true => exact hback h
    | false =>
      cases List.mem_cons.mp h with
      | inl hx => exact Or.inl (hx ▸ found_afterFlush_own _ rfl)
      | inr hx => exact hback hx
  | stored e next _ =>
    refine Or.inl (Or.inl (Or.inr ?_))
    simp [List.mem_singleton.mp h]
  | unstored e stored _ => exact Or.inl (hholds _ _ h)
  | unspooled e => cases h
  | drained e spool events rest _ _ => cases h
  | refilled e => cases h
  | refills e y ys =>
    cases List.mem_cons.mp h with
    | inl hx => exact Or.inl (hself _ _ hx)
    | inr hx => exact Or.inl (hholds _ _ hx)
  | placed e _ => exact Or.inl (hself _ _ (List.mem_singleton.mp h))
  | full e => exact Or.inl (hholds _ _ h)
  | unspilled e => exact Or.inl (hholds _ _ h)
  | spilled e spool hs hok =>
    rw [lets, hs, hok]
    cases torn with
    | true => exact Or.inr h
    | false => exact Or.inl (Or.inl (Or.inl (List.mem_append_right _ h)))
  | dropped e => exact Or.inl (hself _ _ (List.mem_singleton.mp h))

end Keeps

structure Desk where
  process : Process := { state := { spool := some [] } }
  spooled : List AuditEvent := []

/-- `tears` tells whether the crash cuts off a line that is being written. -/
inductive Happening where
  | turn (t : Turn)
  | crash (tears : Bool)
deriving DecidableEq

def Stage.writes : Stage → Bool
  | .spilling _ => true
  | _ => false

def Process.crashed (p : Process) (tears : Bool) : Process :=
  { state := { spool := p.state.spool, rows := p.state.rows }
    torn := p.torn || (tears && p.calls.any Stage.writes) }

def appended (p : Process) : Turn → List AuditEvent
  | .run call true _ =>
    match p.calls[call]? with
    | some (.spilling e) => if p.state.spool.isSome then [e] else []
    | _ => []
  | _ => []

def Desk.step (cfg : Config) (d : Desk) : Happening → Desk
  | .turn t => { process := d.process.step cfg t, spooled := d.spooled++appended d.process t }
  | .crash tears => { process := d.process.crashed tears, spooled := d.spooled }

def Process.Remembers (p : Process) (x : AuditEvent) : Prop :=
  x∈p.state.buffer.items ∨ ∃ st∈p.calls, x∈st.hands

/-- Every event that was spooled is in the file, in the table or in the memory of the
living process. -/
def Desk.Survives (d : Desk) : Prop :=
  ∀ x∈d.spooled, Durable d.process.state x ∨ d.process.Remembers x

def Process.letsGo (p : Process) (call : Nat) (ok : Bool) : List AuditEvent :=
  match p.calls[call]? with
  | none => []
  | some st => lets p.torn ok p.state st

/-- No spooled event is in memory only when the process crashes, and none that is nowhere
durable is let go by a full buffer or written behind a torn line. -/
def Safe (d : Desk) : Happening → Prop
  | .crash _ => ∀ x∈d.spooled, Durable d.process.state x
  | .turn (.post _) => True
  | .turn (.run call ok also) => ∀ x∈d.process.letsGo call ok,
      x∈d.spooled++appended d.process (.run call ok also) → Durable d.process.state x

instance (d : Desk) : ∀ a : Happening, Decidable (Safe d a)
  | .crash _ => inferInstanceAs (Decidable (∀ x∈d.spooled, Durable d.process.state x))
  | .turn (.post _) => isTrue trivial
  | .turn (.run call ok also) => inferInstanceAs (Decidable (∀ x∈d.process.letsGo call ok,
      x∈d.spooled++appended d.process (.run call ok also) → Durable d.process.state x))

section Runs
variable {cfg : Config} {d : Desk} {p : Process}

structure Process.Ready (cfg : Config) (p : Process) : Prop where
  waiting : ∀ x∈p.state.waiting, Prepared cfg x
  calls : ∀ st∈p.calls, ∀ x∈st.events, Prepared cfg x
  chained : ∀ c, .chained c∈p.calls → present c.eventHash=true

theorem Process.Ready.crashed (h : p.Ready cfg) (tears : Bool) : (p.crashed tears).Ready cfg where
  waiting := fun x hx => h.waiting x (mem_waiting.mpr (Or.inr hx))
  calls := fun st hst => (by cases hst)
  chained := fun c hc => (by cases hc)

theorem Process.Ready.step (h : p.Ready cfg) (t : Turn) : (p.step cfg t).Ready cfg := by
  cases t with
  | post e =>
    refine ⟨h.waiting, forall_mem_append h.calls ?_, ?_⟩
    · intro st hst x hx
      rw [List.mem_singleton.mp hst] at hx
      cases hx
    · intro c hc
      cases List.mem_append.mp hc with
      | inl hm => exact h.chained c hm
      | inr hm => cases List.mem_singleton.mp hm
  | run call ok also =>
    rw [Process.step]
    split
    · exact h
    · next st hcall =>
      have hmem : st∈p.calls := List.mem_of_getElem? hcall
      have hbuffer : ∀ x∈p.state.buffer.items, Prepared cfg x :=
        fun x hx => h.waiting x (mem_waiting.mpr (Or.inl hx))
      have hadv := advance_advances p.torn ok also hbuffer st
      obtain ⟨hwaiting, _, hevents⟩ := hadv.carries (R := fun _ => True) (fun x hx => hx)
        (fun _ _ => trivial) h.waiting (fun _ _ => trivial) (h.calls st hmem)
        (fun c hc e he => signAuditEvent_prepared (h.chained c (hc ▸ hmem)) he)
      refine ⟨hwaiting, ?_, ?_⟩
      · intro st' hst' x hx
        obtain hm | hn := mem_moved hst'
        · exact h.calls st' hm x hx
        · exact hevents st' hn x hx
      · intro c hc
        obtain hm | hn := mem_moved hc
        · exact h.chained c hm
        · by_cases hposted : ∃ e, st=.posted e
          · obtain ⟨e, rfl⟩ := hposted
            cases hn
            exact ensureChained_present _
          · have hunder := (hadv.underway fun e he => hposted ⟨e, he⟩).2
            exact absurd (hunder _ hn) id

theorem mem_moved_of_ne {calls : List Stage} {call i : Nat} {next : Option Stage} {st : Stage}
    (hi : calls[i]?=some st) (hne : i≠call) : st∈moved calls call next := by
  cases next with
  | none =>
    rw [moved, List.mem_eraseIdx_iff_getElem?]
    exact ⟨i, hne, hi⟩
  | some st' =>
    rw [moved]
    refine List.mem_of_getElem? (i := i) ?_
    rw [List.getElem?_set_ne (Ne.symm hne)]
    exact hi

theorem mem_moved_self {calls : List Stage} {call : Nat} {st st' : Stage}
    (h : calls[call]?=some st) : st'∈moved calls call (some st') := by
  have hlt : call < calls.length := (List.getElem?_eq_some_iff.mp h).1
  refine List.mem_of_getElem? (i := call) ?_
  rw [moved, List.getElem?_set_self hlt]

theorem found_in_process {call : Nat} {ok also : Bool} {st : Stage} {x : AuditEvent}
    (hcall : p.calls[call]?=some st) (h : Found (advance cfg p.torn ok also p.state st) x) :
    Durable (p.step cfg (.run call ok also)).state x ∨
      (p.step cfg (.run call ok also)).Remembers x := by
  simp only [Process.step, hcall]
  obtain hd | hb | ⟨st', hst', hx⟩ := h
  · exact Or.inl hd
  · exact Or.inr (Or.inl hb)
  · refine Or.inr (Or.inr ⟨st', ?_, hx⟩)
    have hst' : (advance cfg p.torn ok also p.state st).2=some st' := hst'
    rw [hst']
    exact mem_moved_self hcall

theorem mem_appended {call : Nat} {ok also : Bool} {x : AuditEvent}
    (h : x∈appended p (.run call ok also)) : ∃ st, p.calls[call]?=some st ∧ x∈st.hands := by
  cases ok with
  | false => cases h
  | true =>
    rw [appended] at h
    split at h
    · next e hcall =>
      split at h
      · exact ⟨_, hcall, h⟩
      · cases h
    · cases h

theorem Desk.Survives.run (h : d.Survives) (hready : d.process.Ready cfg) {call : Nat}
    {ok also : Bool} (hs : Safe d (.turn (.run call ok also))) :
    (d.step cfg (.turn (.run call ok also))).Survives := by
  have hbuffer : ∀ x∈d.process.state.buffer.items, Prepared cfg x :=
    fun x hx => hready.waiting x (mem_waiting.mpr (Or.inl hx))
  cases hcall : d.process.calls[call]? with
  | none =>
    have hstep : d.process.step cfg (.run call ok also)=d.process := by
      simp only [Process.step, hcall]
    intro x hx
    simp only [Desk.step, hstep]
    cases List.mem_append.mp hx with
    | inl hx => exact h x hx
    | inr hx =>
      obtain ⟨st, hst, _⟩ := mem_appended hx
      rw [hcall] at hst
      cases hst
  | some st =>
    have hadv := advance_advances d.process.torn ok also hbuffer st
    intro x hx
    -- wherever the event was, it is found again or it is let go; then it was durable
    have hfound : Found (advance cfg d.process.torn ok also d.process.state st) x ∨
        x∈lets d.process.torn ok d.process.state st → Durable (d.process.step cfg
          (.run call ok also)).state x ∨ (d.process.step cfg (.run call ok also)).Remembers x := by
      intro hcase
      obtain hf | hl := hcase
      · exact found_in_process hcall hf
      · have hdurable : Durable d.process.state x := by
          refine hs x ?_ hx
          rw [Process.letsGo, hcall]
          exact hl
        exact found_in_process hcall (hadv.durable hdurable)
    cases List.mem_append.mp hx with
    | inl hold =>
      obtain hd | hb | ⟨st', hst', hhands⟩ := h x hold
      · exact found_in_process hcall (hadv.durable hd)
      · exact hfound (hadv.buffered hbuffer hb)
      · obtain ⟨i, hi⟩ := List.getElem?_of_mem hst'
        by_cases hic : i=call
        · rw [hic, hcall] at hi
          cases hi
          exact hfound (hadv.hands hhands)
        · refine Or.inr (Or.inr ⟨st', ?_, hhands⟩)
          simp only [Desk.step, Process.step, hcall]
          exact mem_moved_of_ne hi hic
    | inr hnew =>
      obtain ⟨st', hst', hhands⟩ := mem_appended hnew
      rw [hcall] at hst'
      cases hst'
      exact hfound (hadv.hands hhands)

structure Desk.Inv (cfg : Config) (d : Desk) : Prop where
  ready : d.process.Ready cfg
  survives : d.Survives

theorem Desk.Inv.start (cfg : Config) : ({} : Desk).Inv cfg where
  ready := ⟨fun x hx => (by cases hx), fun st hst => (by cases hst), fun c hc => (by cases hc)⟩
  survives := fun x hx => (by cases hx)

theorem Desk.Inv.step (h : d.Inv cfg) {a : Happening} (hs : Safe d a) : (d.step cfg a).Inv cfg := by
  cases a with
  | crash tears => exact ⟨h.ready.crashed tears, fun x hx => Or.inl (hs x hx)⟩
  | turn t =>
    refine ⟨h.ready.step t, ?_⟩
    cases t with
    | post e =>
      intro x hx
      have hx : x∈d.spooled := by simpa [Desk.step, appended] using hx
      obtain hd | hb | ⟨st, hst, hhands⟩ := h.survives x hx
      · exact Or.inl hd
      · exact Or.inr (Or.inl hb)
      · exact Or.inr (Or.inr ⟨st, List.mem_append_left _ hst, hhands⟩)
    | run call ok also => exact h.survives.run h.ready hs

/-- Along every run, with crashes at any point, whose crashes find no spooled event in
memory only and whose steps let go of none that is nowhere durable, every spooled event
is in the file, in the table or in the memory of the living process. -/
theorem spooled_events_survive (cfg : Config) (as : List Happening)
    (h : Trace.Along (Desk.step cfg) Safe {} as) :
    Trace.Along (Desk.step cfg) (fun d a => (d.step cfg a).Survives) {} as := by
  refine Trace.Along.of_invariant (Desk.Inv cfg) ?_ ?_ (Desk.Inv.start cfg) h
  · intro d a hI hs
    exact hI.step hs
  · intro d a hI hs
    exact (hI.step hs).survives

end Runs

/-- A call that fails to connect and buffers its event, then a crash. -/
theorem spooled_events_survive_early :
    (Trace.exec (Desk.step sampleConfig) {} [.turn (.post sampleEvent), .turn (.run 0 true true),
      .turn (.run 0 true true), .turn (.run 0 false true), .turn (.run 0 true true),
      .crash true]).process.state.buffer.items=[] ∧
    Trace.Along (Desk.step sampleConfig) (fun d a => (d.step sampleConfig a).Survives) {}
      [.turn (.post sampleEvent), .turn (.run 0 true true), .turn (.run 0 true true),
        .turn (.run 0 false true), .turn (.run 0 true true), .crash true] :=
  ⟨by decide +kernel, spooled_events_survive _ _ (by decide +kernel)⟩

section Loss
variable {cfg : Config}

def desk (s : State) (spooled : List AuditEvent) (st : Option Stage) : Desk :=
  { process := { state := s, calls := st.toList }, spooled }

theorem tornAfter_false (ok also : Bool) (s : State) (st : Stage) :
    tornAfter false ok also s st=false := by
  cases st with
  | spilling e => simp [tornAfter]
  | draining e => simp [tornAfter]
  | _ => rfl

theorem appended_nil (s : State) {st : Stage} (ok also : Bool) (hst : st.writes=false) :
    appended { state := s, calls := [st] } (.run 0 ok also)=[] := by
  cases ok with
  | false => rfl
  | true =>
    cases st with
    | spilling e => cases hst
    | _ => rfl

theorem desk_run (s : State) (spooled : List AuditEvent) {st : Stage} (ok also : Bool)
    (hc : chains cfg s st=[]) :
    (desk s spooled (some st)).step cfg (.turn (.run 0 ok also)) =
      desk (advance cfg false ok also s st).1
        (spooled++appended { state := s, calls := [st] } (.run 0 ok also))
        (advance cfg false ok also s st).2 := by
  simp only [desk, Desk.step, Process.step, Option.toList_some, List.getElem?_cons_zero,
    tornAfter_false, hc, List.append_nil]
  cases (advance cfg false ok also s st).2 with
  | none => rfl
  | some st' => rfl

theorem desk_run_quiet (s : State) (spooled : List AuditEvent) {st : Stage} (ok also : Bool)
    (hc : chains cfg s st=[]) (hst : st.writes=false) :
    (desk s spooled (some st)).step cfg (.turn (.run 0 ok also)) =
      desk (advance cfg false ok also s st).1 spooled (advance cfg false ok also s st).2 := by
  rw [desk_run s spooled ok also hc, appended_nil s ok also hst, List.append_nil]

def opened (x : AuditEvent) (connects : Bool) : List Happening :=
  [.turn (.post x), .turn (.run 0 true true), .turn (.run 0 true true),
    .turn (.run 0 connects true)]

theorem exec_opened {x : AuditEvent} (hx : Prepared cfg x) (s : State)
    (spooled : List AuditEvent) (connects : Bool) :
    Trace.exec (Desk.step cfg) (desk s spooled none) (opened x connects) =
      desk { s with connected := s.connected || connects } spooled
        (some (if s.connected || connects then .flushing false x else .placing x)) := by
  have hposted : (desk s spooled none).step cfg (.turn (.post x))=
      desk s spooled (some (.posted x)) := by
    simp [desk, Desk.step, Process.step, appended]
  have hchains : chains cfg s (.posted x)=[] := by
    simp [chains, hx.chained]
  simp only [opened, Trace.exec, hposted]
  rw [desk_run_quiet s spooled true true hchains rfl, advance, ensureChained_hashed hx.chained]
  dsimp only
  rw [desk_run_quiet _ spooled true true rfl rfl, advance, hx.signed]
  dsimp only [Option.map_some]
  rw [desk_run_quiet _ spooled connects true rfl rfl, advance]

def buffered (x : AuditEvent) : List Happening := opened x false++[.turn (.run 0 true true)]

theorem exec_buffered {x : AuditEvent} (hx : Prepared cfg x) {s : State} (hs : s.connected=false)
    (hlt : s.buffer.items.length < bufferCap) (spooled : List AuditEvent) :
    Trace.exec (Desk.step cfg) (desk s spooled none) (buffered x) =
      desk { s with buffer := s.buffer.append x } spooled none := by
  obtain ⟨connected, last, buffer, spool, rows⟩ := s
  dsimp only at hs
  subst hs
  rw [buffered, Trace.exec_append, exec_opened hx]
  simp only [Bool.or_false, Bool.false_eq_true, if_false, Trace.exec]
  rw [desk_run_quiet _ spooled true true rfl rfl, advance, if_pos hlt]

def fill (x : AuditEvent) (n : Nat) : List Happening := (List.replicate n (buffered x)).flatten

theorem exec_fill {x : AuditEvent} (hx : Prepared cfg x) {n : Nat} (hn : n≤bufferCap) :
    ∃ buffer : Deque AuditEvent bufferCap, buffer.items=List.replicate n x ∧
      Trace.exec (Desk.step cfg) {} (fill x n)=desk { spool := some [], buffer } [] none := by
  induction n with
  | zero => exact ⟨Deque.empty, rfl, rfl⟩
  | succ n ih =>
    obtain ⟨buffer, hitems, hrun⟩ := ih (by omega)
    have hlt : buffer.items.length < bufferCap := by
      rw [hitems, List.length_replicate]
      omega
    refine ⟨buffer.append x, ?_, ?_⟩
    · rw [Deque.items_append_of_lt hlt, hitems, List.replicate_succ']
    · rw [fill, List.replicate_succ', List.flatten_append, List.flatten_singleton,
        Trace.exec_append]
      rw [fill] at hrun
      rw [hrun]
      exact exec_buffered hx rfl hlt []

def spilled (x : AuditEvent) : List Happening :=
  opened x false++[.turn (.run 0 true true), .turn (.run 0 true true)]

theorem exec_spilled {x : AuditEvent} (hx : Prepared cfg x) {buffer : Deque AuditEvent bufferCap}
    (hfull : ¬ buffer.items.length < bufferCap) :
    Trace.exec (Desk.step cfg) (desk { buffer, spool := some [] } [] none) (spilled x) =
      desk { buffer, spool := some [x] } [x] none := by
  rw [spilled, Trace.exec_append, exec_opened hx]
  simp only [Bool.or_false, Bool.false_eq_true, if_false, Trace.exec]
  rw [desk_run_quiet _ _ true true rfl rfl, advance, if_neg hfull]
  dsimp only
  rw [desk_run _ _ true true rfl, advance]
  rfl

def drained (x : AuditEvent) : List Happening :=
  opened x true++[.turn (.run 0 true true), .turn (.run 0 true true), .turn (.run 0 true true),
    .turn (.run 0 true true)]

theorem exec_drained {x : AuditEvent} (hx : Prepared cfg x) {buffer : Deque AuditEvent bufferCap}
    (hb : ∀ y∈buffer.items, Prepared cfg y) (hne : buffer.items≠[]) (spool spooled : List AuditEvent) :
    Trace.exec (Desk.step cfg) (desk { buffer, spool := some spool } spooled none) (drained x) =
      desk { connected := true, spool := some [], rows := buffer.items.map row++[row x] } spooled
        (some (.refilling x spool)) := by
  rw [drained, Trace.exec_append, exec_opened hx]
  simp only [Bool.or_true, if_true, Trace.exec]
  rw [desk_run_quiet _ _ true true rfl rfl, advance_flushing hb]
  simp only [if_neg hne]
  rw [desk_run_quiet _ _ true true rfl rfl, advance]
  simp only [if_true, afterFlush, Bool.false_eq_true, if_false, List.nil_append]
  rw [desk_run_quiet _ _ true true rfl rfl, advance]
  simp only [if_true, Option.isSome_some]
  rw [desk_run_quiet _ _ true true rfl rfl, advance]
  rfl

def spilledEvent : AuditEvent := { sampleEvent with resource := "lb-2" }

theorem spilledEvent_prepared : Prepared sampleConfig spilledEvent := ⟨by decide, by decide⟩

/-- The buffer fills while ClickHouse is away, and the next event is spooled. ClickHouse is
back: a call flushes, stores its row and drains the spool. The process crashes. -/
def lossRun : List Happening :=
  fill sampleEvent bufferCap++(spilled spilledEvent++(drained sampleEvent++[.crash false]))

theorem exec_lossRun : Trace.exec (Desk.step sampleConfig) {} lossRun =
    { process := { state := { spool := some []
                              rows := List.replicate bufferCap (row sampleEvent)++[row sampleEvent] } }
      spooled := [spilledEvent] } := by
  obtain ⟨buffer, hitems, hfill⟩ := exec_fill sampleEvent_prepared (Nat.le_refl bufferCap)
  have hfull : ¬ buffer.items.length < bufferCap := by
    rw [hitems, List.length_replicate]
    omega
  have hprepared : ∀ x∈buffer.items, Prepared sampleConfig x := by
    intro x hx
    rw [hitems] at hx
    rw [List.eq_of_mem_replicate hx]
    exact sampleEvent_prepared
  have hne : buffer.items≠[] := by
    intro hnil
    rw [hnil] at hfull
    exact hfull (by decide)
  rw [lossRun, Trace.exec_append, hfill, Trace.exec_append,
    exec_spilled spilledEvent_prepared hfull, Trace.exec_append,
    exec_drained sampleEvent_prepared hprepared hne, hitems, List.map_replicate]
  rfl

/-- The event that was spooled is in no place any more. -/
theorem crash_loses_spooled :
    (Trace.exec (Desk.step sampleConfig) {} lossRun).spooled=[spilledEvent] ∧
    ¬ (Trace.exec (Desk.step sampleConfig) {} lossRun).Survives := by
  rw [exec_lossRun]
  refine ⟨rfl, fun h => ?_⟩
  have hother : row spilledEvent≠row sampleEvent := by decide
  obtain (hfile | hrow) | hbuffer | ⟨st, hst, _⟩ := h spilledEvent (by simp)
  · cases hfile
  · cases List.mem_append.mp hrow with
    | inl hm => exact hother (List.eq_of_mem_replicate hm)
    | inr hm => exact hother (List.mem_singleton.mp hm)
  · cases hbuffer
  · cases hst

end Loss
end Sovereign.AuditService
