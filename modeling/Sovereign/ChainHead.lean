import Sovereign.AuditChain

/-! The end of the chain when an ingest is rejected. The head moves while the event is
chained; the event is signed after that, and signing can raise. -/
namespace Sovereign.AuditService
open Sovereign

/-- `_private_key`: nothing is configured, the configured text raises, or a key signs. -/
inductive PrivateKey where
  | missing
  | raises (error : String)
  | signs (sign : Json → NonEmpty)

structure Signing where
  sha256 : Json → NonEmpty
  privateKey : PrivateKey := .missing
  auditSignatureKeyId : String := ""
  requireAuditSigning : Bool := false

namespace Signing

def signAuditEvent (k : Signing) (e : AuditEvent) : Except String AuditEvent :=
  if present e.signature then .ok e
  else match k.privateKey with
    | .raises error => .error error
    | .missing =>
      if k.requireAuditSigning then
        .error "audit signing is required but no private key is configured"
      else .ok e
    | .signs sign =>
      .ok { e with signatureKeyId := some k.auditSignatureKeyId
                   signature := some (sign (canonicalSigningPayload e)).1 }

/-- A key that raises refuses what a missing required one refuses. -/
def config (k : Signing) : Config where
  digest := fun e => k.sha256 (canonicalEventPayload e)
  sign := match k.privateKey with
    | .signs sign => some fun e => sign (canonicalSigningPayload e)
    | _ => none
  auditSignatureKeyId := k.auditSignatureKeyId
  requireAuditSigning := match k.privateKey with
    | .raises _ => true
    | _ => k.requireAuditSigning

def Keyless (k : Signing) : Prop :=
  match k.privateKey with
  | .missing => k.requireAuditSigning=true
  | .raises _ => True
  | .signs _ => False

instance Keyless.instDecidable (k : Signing) : Decidable k.Keyless :=
  match h : k.privateKey with
  | .missing => decidable_of_iff (k.requireAuditSigning=true) (by simp [Keyless, h])
  | .raises _ => .isTrue (by simp [Keyless, h])
  | .signs _ => .isFalse (by simp [Keyless, h])

def Refuses (k : Signing) (e : AuditEvent) : Prop := present e.signature=false ∧ k.Keyless

instance Refuses.instDecidable (k : Signing) (e : AuditEvent) : Decidable (k.Refuses e) :=
  inferInstanceAs (Decidable (_ ∧ _))

variable {k : Signing} {e : AuditEvent}

theorem signAuditEvent_config (k : Signing) (e : AuditEvent) :
    AuditService.signAuditEvent k.config e=(k.signAuditEvent e).toOption := by
  rw [AuditService.signAuditEvent, signAuditEvent]
  split
  · rfl
  · cases hk : k.privateKey with
    | missing =>
      simp only [config, hk]
      split
      · rfl
      · rfl
    | raises error =>
      simp only [config, hk, if_true]
      rfl
    | signs sign =>
      simp only [config, hk]
      rfl

theorem refuses_iff : AuditService.signAuditEvent k.config e=none ↔ k.Refuses e := by
  rw [signAuditEvent_config, signAuditEvent]
  cases hp : present e.signature with
  | true => simp [Refuses, hp, Except.toOption]
  | false =>
    cases hk : k.privateKey with
    | missing =>
      cases hr : k.requireAuditSigning with
      | true => simp [Refuses, Keyless, hp, hk, hr, Except.toOption]
      | false => simp [Refuses, Keyless, hp, hk, hr, Except.toOption]
    | raises error => simp [Refuses, Keyless, hp, hk, Except.toOption]
    | signs sign => simp [Refuses, Keyless, hp, hk, Except.toOption]

end Signing

def Hashed (s : State) : Prop := ∀ x∈s.waiting, present x.eventHash=true

section Hashed
variable {cfg : Config} {o : Outcomes} {s : State} {e : AuditEvent} {es : List AuditEvent}

theorem Hashed.buffer (h : Hashed s) : ∀ x∈s.buffer.items, present x.eventHash=true :=
  fun x hx => h x (mem_waiting.mpr (Or.inl hx))

theorem Hashed.spool (h : Hashed s) : ∀ x∈s.spool.getD [], present x.eventHash=true :=
  fun x hx => h x (mem_waiting.mpr (Or.inr hx))

theorem present_eventFromRow (h : present e.eventHash=true) :
    present (eventFromRow (row e)).eventHash=true := by
  cases he : e.eventHash with
  | none =>
    rw [he] at h
    cases h
  | some hash =>
    rw [he] at h
    simpa [eventFromRow, row, he] using h

theorem prepareEvent_hashed (h : present e.eventHash=true) (last : Option String) :
    prepareEvent cfg last e=(signAuditEvent cfg e, last) := by
  rw [prepareEvent, ensureChained_hashed h]

/-- Preparing chained events again leaves the head, and stops at the first one that is
refused. -/
theorem takeRows_hashed (cfg : Config) (h : ∀ x∈es, present x.eventHash=true) (last : Option String)
    (rows : List Row) :
    (takeRows cfg es last rows).2.2=last ∧
      ((takeRows cfg es last rows).1=none ↔ ∃ x∈es, signAuditEvent cfg x=none) := by
  induction es generalizing rows with
  | nil => simp [takeRows]
  | cons x es ih =>
    have hx := h x List.mem_cons_self
    have hes := fun y hy => h y (List.mem_cons_of_mem x hy)
    simp only [takeRows, prepareEvent_hashed hx]
    cases hs : signAuditEvent cfg x with
    | none => exact ⟨rfl, fun _ => ⟨x, List.mem_cons_self, hs⟩, fun _ => rfl⟩
    | some x' =>
      obtain ⟨hlast, hnone⟩ := ih hes (rows++[row x'])
      refine ⟨hlast, hnone.trans ?_⟩
      simp [hs]

theorem takeRows_left (cfg : Config) (es : List AuditEvent) (last : Option String)
    (rows : List Row) :
    ∀ x∈(takeRows cfg es last rows).2.1, x∈es := by
  induction es generalizing last rows with
  | nil => simp [takeRows]
  | cons y es ih =>
    intro x hx
    simp only [takeRows] at hx
    split at hx
    · exact List.mem_cons_of_mem y hx
    · exact List.mem_cons_of_mem y (ih _ _ x hx)

theorem takeRows_rows (cfg : Config) (es : List AuditEvent) (last : Option String)
    (rows : List Row) :
    ∀ taken∈(takeRows cfg es last rows).1, ∀ r∈taken,
      r∈rows ∨ ∃ x, present x.eventHash=true ∧ r=row x := by
  induction es generalizing last rows with
  | nil =>
    intro taken htaken r hr
    cases htaken
    exact Or.inl hr
  | cons y es ih =>
    intro taken htaken r hr
    simp only [takeRows] at htaken
    split at htaken
    · cases htaken
    · next y' last' hp =>
      have hy := (prepareEvent_prepared hp).chained
      cases ih last' (rows++[row y']) taken htaken r hr with
      | inr hx => exact Or.inr hx
      | inl hr =>
        cases List.mem_append.mp hr with
        | inl hr => exact Or.inl hr
        | inr hr => exact Or.inr ⟨y', hy, List.mem_singleton.mp hr⟩

/-- A flush keeps the head, keeps everything chained, and raises exactly when an event of
the buffer is refused. -/
theorem Hashed.flushBuffer (h : Hashed s) (cfg : Config) (inserts : Bool) :
    Hashed (flushBuffer cfg inserts s).2 ∧
    (AuditService.flushBuffer cfg inserts s).2.lastEventHash=s.lastEventHash ∧
    ((AuditService.flushBuffer cfg inserts s).1=none ↔
      ∃ x∈s.buffer.items, signAuditEvent cfg x=none) := by
  obtain ⟨hlast, hnone⟩ := takeRows_hashed cfg h.buffer s.lastEventHash []
  have hleft := takeRows_left cfg s.buffer.items s.lastEventHash []
  have hrows := takeRows_rows cfg s.buffer.items s.lastEventHash []
  have hkept : ∀ x, x∈(takeRows cfg s.buffer.items s.lastEventHash []).2.1 ∨ x∈s.spool.getD [] →
      present x.eventHash=true := by
    intro x hx
    cases hx with
    | inl hx => exact h.buffer x (hleft x hx)
    | inr hx => exact h.spool x hx
  rw [AuditService.flushBuffer]
  cases ht : (takeRows cfg s.buffer.items s.lastEventHash []).1 with
  | none =>
    refine ⟨fun x hx => hkept x (mem_waiting.mp hx), hlast, ?_⟩
    exact ⟨fun _ => hnone.mp ht, fun _ => rfl⟩
  | some rows =>
    have hsome : ¬ ∃ x∈s.buffer.items, signAuditEvent cfg x=none := by
      rw [← hnone, ht]
      exact Option.some_ne_none rows
    cases rows with
    | nil =>
      refine ⟨fun x hx => hkept x (mem_waiting.mp hx), hlast, ?_⟩
      exact ⟨fun hf => (by cases hf), fun hf => absurd hf hsome⟩
    | cons r rows =>
      cases inserts with
      | true =>
        refine ⟨fun x hx => hkept x (mem_waiting.mp hx), hlast, ?_⟩
        exact ⟨fun hf => (by cases hf), fun hf => absurd hf hsome⟩
      | false =>
        refine ⟨?_, hlast, fun hf => (by cases hf), fun hf => absurd hf hsome⟩
        intro x hx
        cases mem_waiting.mp hx with
        | inr hx => exact hkept x (Or.inr hx)
        | inl hx =>
          cases mem_requeue hx with
          | inl hx => exact hkept x (Or.inl hx)
          | inr hx =>
            obtain ⟨q, hq, rfl⟩ := List.mem_map.mp hx
            cases hrows _ ht q hq with
            | inl hf => cases hf
            | inr hq =>
              obtain ⟨y, hy, rfl⟩ := hq
              exact present_eventFromRow hy

theorem Hashed.bufferOrSpool (h : Hashed s) (he : present e.eventHash=true) :
    Hashed (bufferOrSpool o e s).2 := by
  have happend : Hashed { s with buffer := s.buffer.append e } := by
    intro x hx
    cases mem_waiting.mp hx with
    | inr hx => exact h.spool x hx
    | inl hx =>
      cases Deque.mem_append hx with
      | inl hx => exact h.buffer x hx
      | inr hx => exact hx ▸ he
  rw [AuditService.bufferOrSpool]
  split
  · exact happend
  · split
    · next spool hs =>
      split
      · intro x hx
        cases mem_waiting.mp hx with
        | inl hx => exact h.buffer x hx
        | inr hx =>
          cases List.mem_append.mp hx with
          | inl hx => exact h.spool x (hs ▸ hx)
          | inr hx => exact List.mem_singleton.mp hx ▸ he
      · exact happend
    · exact happend

theorem Hashed.drained (h : Hashed s) {spool : List AuditEvent} (hs : s.spool=some spool) :
    Hashed { s with buffer := s.buffer.extend (drain o spool).1
                    spool := some (drain o spool).2 } := by
  have hspool : ∀ x∈spool, present x.eventHash=true := fun x hx => h.spool x (hs ▸ hx)
  have hevents : ∀ x∈(drain o spool).1, x∈spool := by
    intro x hx
    rw [drain] at hx
    split at hx
    · exact hx
    · cases hx
  have hrest : ∀ x∈(drain o spool).2, x∈spool := by
    intro x hx
    rw [drain] at hx
    split at hx
    · split at hx
      · cases hx
      · exact hx
    · exact hx
  intro x hx
  cases mem_waiting.mp hx with
  | inr hx => exact hspool x (hrest x hx)
  | inl hx =>
    rw [Deque.items_extend] at hx
    cases List.mem_append.mp (List.mem_of_mem_drop hx) with
    | inl hx => exact h.buffer x hx
    | inr hx => exact hspool x (hevents x hx)

theorem Hashed.inserted (h : Hashed s) (he : present e.eventHash=true) :
    Hashed (inserted cfg o e s).2 := by
  rw [AuditService.inserted]
  split
  · exact h
  · next spool hs =>
    have hd := h.drained (o := o) hs
    obtain ⟨hflush, _⟩ := hd.flushBuffer cfg o.reflushes
    dsimp only
    split
    · next n s' hf =>
      rw [hf] at hflush
      exact hflush
    · next s' hf =>
      rw [hf] at hflush
      exact Hashed.bufferOrSpool hflush he

theorem Hashed.ingestEvent (h : Hashed s) (cfg : Config) (o : Outcomes) (e : AuditEvent) :
    Hashed (ingestEvent cfg o e s).2 := by
  rw [AuditService.ingestEvent]
  split
  · exact h
  · next e' last hp =>
    have he := (prepareEvent_prepared hp).chained
    have hs : Hashed { s with lastEventHash := last, connected := s.connected || o.connects } := h
    dsimp only
    split
    · obtain ⟨hflush, _⟩ := hs.flushBuffer cfg o.flushes
      split
      · next s' hf =>
        rw [hf] at hflush
        exact hflush
      · next n s' hf =>
        rw [hf] at hflush
        split
        · have hrow : Hashed { s' with rows := s'.rows++[row e'] } := hflush
          exact hrow.inserted he
        · exact Hashed.bufferOrSpool hflush he
    · exact hs.bufferOrSpool he

/-- The head after an ingest that fails is the one its own event was chained to. -/
theorem Hashed.head_of_none (h : Hashed s) (hn : (AuditService.ingestEvent cfg o e s).1=none) :
    (AuditService.ingestEvent cfg o e s).2.lastEventHash =
      (ensureChained cfg s.lastEventHash e).2 := by
  cases hp : prepareEvent cfg s.lastEventHash e with
  | mk prepared last =>
    have hlast : last=(ensureChained cfg s.lastEventHash e).2 := (congrArg Prod.snd hp).symm
    cases prepared with
    | none => simp only [AuditService.ingestEvent, hp, hlast]
    | some e' =>
      have hs : Hashed { s with
          lastEventHash := last, connected := s.connected || o.connects } := h
      obtain ⟨_, hhead, _⟩ := hs.flushBuffer cfg o.flushes
      simp only [AuditService.ingestEvent, hp] at hn ⊢
      cases hc : s.connected || o.connects with
      | false => simp [hc] at hn
      | true =>
        rw [hc] at hhead
        simp only [hc, if_true] at hn ⊢
        cases hf : AuditService.flushBuffer cfg o.flushes
            { s with lastEventHash := last, connected := true } with
        | mk flushed s' =>
          rw [hf] at hhead
          cases flushed with
          | none => exact hhead.trans hlast
          | some n =>
            simp only [hf] at hn
            split at hn
            · exact absurd hn (Option.isSome_iff_ne_none.mp (inserted_isSome _ _))
            · cases hn

end Hashed

/-- The call answers 500: its own event is refused, or one it flushes from the buffer. -/
def Rejects (k : Signing) (o : Outcomes) (e : AuditEvent) (s : State) : Prop :=
  k.Refuses e ∨ ((s.connected || o.connects)=true ∧ ∃ x∈s.buffer.items, k.Refuses x)

instance Rejects.instDecidable (k : Signing) (o : Outcomes) (e : AuditEvent) (s : State) :
    Decidable (Rejects k o e s) := inferInstanceAs (Decidable (_ ∨ _))

section Rejected
variable {k : Signing} {o : Outcomes} {s : State} {e : AuditEvent}

theorem Hashed.rejects_iff (h : Hashed s) :
    (AuditService.ingestEvent k.config o e s).1=none ↔ Rejects k o e s := by
  have hsign : (ensureChained k.config s.lastEventHash e).1.signature=e.signature := by
    rw [ensureChained]
    split
    · rfl
    · rfl
  have hrefuses : k.Refuses (ensureChained k.config s.lastEventHash e).1 ↔ k.Refuses e := by
    rw [Signing.Refuses, Signing.Refuses, hsign]
  cases hp : prepareEvent k.config s.lastEventHash e with
  | mk prepared last =>
    have hprep : signAuditEvent k.config (ensureChained k.config s.lastEventHash e).1=prepared :=
      congrArg Prod.fst hp
    cases prepared with
    | none =>
      have hown := hrefuses.mp (Signing.refuses_iff.mp hprep)
      simp [AuditService.ingestEvent, hp, Rejects, hown]
    | some e' =>
      have hown : ¬ k.Refuses e := by
        rw [← hrefuses, ← Signing.refuses_iff, hprep]
        exact Option.some_ne_none e'
      have hs : Hashed { s with
          lastEventHash := last, connected := s.connected || o.connects } := h
      obtain ⟨_, _, hnone⟩ := hs.flushBuffer k.config o.flushes
      simp only [Signing.refuses_iff] at hnone
      simp only [AuditService.ingestEvent, hp, Rejects, hown, false_or]
      cases hc : s.connected || o.connects with
      | false => simp
      | true =>
        rw [hc] at hnone
        simp only [if_true, true_and]
        rw [← hnone]
        cases hf : AuditService.flushBuffer k.config o.flushes
            { s with lastEventHash := last, connected := true } with
        | mk flushed s' =>
          cases flushed with
          | none => simp
          | some n =>
            simp only [reduceCtorEq, iff_false]
            split
            · exact Option.isSome_iff_ne_none.mp (inserted_isSome _ _)
            · exact Option.some_ne_none _

/-- Chaining moves the head unless the event brings its hash, or the digest is the head
already. -/
theorem head_kept_iff (cfg : Config) (last : Option String) (e : AuditEvent) :
    (ensureChained cfg last e).2=last ↔
      present e.eventHash=true ∨ (chainEvent cfg last e).eventHash=last := by
  cases hp : present e.eventHash with
  | true => simp [ensureChained_hashed hp]
  | false => simp [ensureChained_plain hp]

end Rejected

/-- The states of the service: calls one after another, each under settings of its own, and
restarts. -/
inductive Reached : State → Prop where
  | start (spooling : Bool) : Reached { spool := if spooling then some [] else none }
  | ingest {s : State} (k : Signing) (o : Outcomes) (e : AuditEvent) (h : Reached s) :
    Reached (ingestEvent k.config o e s).2
  | restart {s : State} (h : Reached s) : Reached { spool := s.spool, rows := s.rows }

theorem Reached.hashed {s : State} (h : Reached s) : Hashed s := by
  induction h with
  | start spooling =>
    intro x hx
    cases spooling with
    | true => simp [State.waiting, Deque.empty] at hx
    | false => simp [State.waiting, Deque.empty] at hx
  | ingest k o e _ ih => exact ih.ingestEvent k.config o e
  | restart _ ih =>
    intro x hx
    refine ih.spool x ?_
    simpa [State.waiting, Deque.empty] using hx

/-- A failed ingest leaves the head alone exactly when it does not fail, or its event was not
chained by it. -/
theorem rejected_head_iff {s : State} (hr : Reached s) (k : Signing) (o : Outcomes)
    (e : AuditEvent) :
    ((ingestEvent k.config o e s).1=none →
        (ingestEvent k.config o e s).2.lastEventHash=s.lastEventHash) ↔
      ¬ Rejects k o e s ∨ present e.eventHash=true ∨
        (chainEvent k.config s.lastEventHash e).eventHash=s.lastEventHash := by
  rw [hr.hashed.rejects_iff, ← head_kept_iff]
  constructor
  · intro h
    by_cases hn : Rejects k o e s
    · refine Or.inr ?_
      rw [← hr.hashed.head_of_none (hr.hashed.rejects_iff.mpr hn)]
      exact h hn
    · exact Or.inl hn
  · intro h hn
    rw [hr.hashed.head_of_none (hr.hashed.rejects_iff.mpr hn)]
    exact h.resolve_left (not_not.mpr hn)

def unkeyed : Signing :=
  { sha256 := fun _ =>
      ⟨"5feceb66ffc86f38d952786c6d696c79c2dbc239dd4e91b46729d73a27fb57e9", by decide⟩
    requireAuditSigning := true }

theorem rejected_head_hashed :
    Rejects unkeyed {} sampleEvent { spool := some [] } ∧
    ((ingestEvent unkeyed.config {} sampleEvent { spool := some [] }).1=none →
      (ingestEvent unkeyed.config {} sampleEvent { spool := some [] }).2.lastEventHash=none) :=
  ⟨by decide +kernel, (rejected_head_iff (Reached.start true) unkeyed {} sampleEvent).mpr
    (Or.inr (Or.inl (by decide +kernel)))⟩

/-- The same event without a hash: the first call of the process answers 500, and the chain
goes on from an event that was never accepted. -/
theorem rejected_head_moves :
    Reached { spool := some [] } ∧
    (ingestEvent unkeyed.config {} { sampleEvent with eventHash := none }
      { spool := some [] }).1=none ∧
    (ingestEvent unkeyed.config {} { sampleEvent with eventHash := none }
      { spool := some [] }).2.lastEventHash =
      some "5feceb66ffc86f38d952786c6d696c79c2dbc239dd4e91b46729d73a27fb57e9" :=
  ⟨Reached.start true, by decide +kernel, by decide +kernel⟩

end Sovereign.AuditService
