import Sovereign.AuditProcess

/-! What the hashes and signatures of stored events show. The digest is taken over the
canonical payload, the signature over the same members with the hash. -/
namespace Sovereign.AuditService
open Sovereign

def optText : Option String → Json
  | none => .null
  | some s => .str s

@[simp] theorem sortKeys_optText (o : Option String) : (optText o).sortKeys=optText o := by
  cases o with
  | none => rfl
  | some s => rfl

theorem optText_inj {o o' : Option String} (h : optText o=optText o') : o=o' := by
  cases o with
  | none =>
    cases o' with
    | none => rfl
    | some s => cases h
  | some s =>
    cases o' with
    | none => cases h
    | some s' =>
      cases h
      rfl

def payloadMembers (e : AuditEvent) : List (String × Json) :=
  [("ts", .str e.ts), ("tenant_id", .str e.tenantId), ("actor", .str e.actor),
    ("action", .str e.action), ("resource", .str e.resource), ("decision", .str e.decision),
    ("metadata", .obj e.metadata), ("previous_hash", optText e.previousHash)]

def canonicalEventPayload (e : AuditEvent) : Json := Json.sortKeys (.obj (payloadMembers e))

def canonicalSigningPayload (e : AuditEvent) : Json :=
  Json.sortKeys (.obj (payloadMembers e++[("event_hash", optText e.eventHash)]))

/-- SHA-256 in hex of a document's text, and the signature of the configured private key
over it in base64. -/
structure Signer where
  sha256 : Json → NonEmpty
  privateKey : Option (Json → NonEmpty) := none
  auditSignatureKeyId : String := ""
  requireAuditSigning : Bool := false

def Signer.config (k : Signer) : Config where
  digest := fun e => k.sha256 (canonicalEventPayload e)
  sign := k.privateKey.map fun sign e => sign (canonicalSigningPayload e)
  auditSignatureKeyId := k.auditSignatureKeyId
  requireAuditSigning := k.requireAuditSigning

theorem ensureChained_plain {cfg : Config} {e : AuditEvent} (h : present e.eventHash=false)
    (last : Option String) : ensureChained cfg last e =
      (chainEvent cfg last e, (chainEvent cfg last e).eventHash) := by
  simp only [ensureChained, h, Bool.false_eq_true, if_false]

theorem ensureChained_hashed {cfg : Config} {e : AuditEvent} (h : present e.eventHash=true)
    (last : Option String) : ensureChained cfg last e=(e, last) := by
  simp only [ensureChained, h, if_true]

/-- What happens to the one event of a call that runs alone from `prepared` on: it ends in
the table, in the buffer or in the spool. -/
def Lands (e : AuditEvent) (s : State) : Option Stage → Prop
  | none => row e∈s.rows ∨ e∈s.waiting
  | some (.prepared e') | some (.flushing false e') | some (.inserting false e' _)
  | some (.requeueing false e' _) | some (.own e') | some (.placing e') | some (.spilling e')
  | some (.dropping e') => e'=e
  | some (.flushing true _) | some (.inserting true _ _) | some (.requeueing true _ _)
  | some (.draining _) | some (.refilling _ _) => row e∈s.rows
  | some (.posted _) | some (.chained _) => False

section Lands
variable {cfg : Config} {e : AuditEvent} {s : State} {st : Stage}

theorem Advances.lands {ok : Bool} {next : State × Option Stage}
    (ha : Advances cfg false ok s st next) (h : Lands e s (some st)) : Lands e next.1 next.2 := by
  have hgrow : ∀ {rows rows' : List Row}, row e∈rows → row e∈rows++rows' :=
    fun h => List.mem_append_left _ h
  have hplaced : e∈(s.buffer.append e).items := Deque.mem_append_self _ _ (by decide)
  cases ha with
  | posted e' => exact absurd h id
  | chained e' => exact absurd h id
  | connected e' => exact h
  | unconnected e' => exact h
  | empty again e' _ =>
    cases again with
    | true => exact Or.inl h
    | false => exact h
  | took again e' _ =>
    cases again with
    | true => exact h
    | false => exact h
  | inserted again e' rows =>
    cases again with
    | true => exact Or.inl (hgrow h)
    | false => exact h
  | refused again e' rows stored hafter =>
    cases again with
    | false => exact h
    | true =>
      cases hafter with
      | inl hs => exact hs ▸ h
      | inr hs => exact hs ▸ hgrow h
  | requeued again e' rows =>
    cases again with
    | true => exact Or.inl h
    | false => exact h
  | stored e' next hnext =>
    have he : e'=e := h
    have hrow : row e∈s.rows++[row e'] := by simp [he]
    cases hnext with
    | inl hn => exact hn ▸ Or.inl hrow
    | inr hn => exact hn ▸ hrow
  | unstored e' stored _ => exact h
  | unspooled e' => exact Or.inl h
  | drained e' spool events rest _ _ => exact h
  | refilled e' => exact h
  | refills e' x xs =>
    have hrow : row e∈s.rows := h
    exact hrow
  | placed e' _ =>
    have he : e'=e := h
    subst he
    exact Or.inr (mem_waiting.mpr (Or.inl hplaced))
  | full e' => exact h
  | unspilled e' => exact h
  | spilled e' spool _ _ =>
    have he : e'=e := h
    refine Or.inr (mem_waiting.mpr (Or.inr ?_))
    simp [he]
  | dropped e' =>
    have he : e'=e := h
    subst he
    exact Or.inr (mem_waiting.mpr (Or.inl hplaced))

/-- An event that is taken is in the table, the buffer or the spool afterwards, and beside
it there is only what was there before. -/
theorem ingest_held (o : Outcomes) {e' : AuditEvent} {last : Option String}
    (hw : ∀ x∈s.waiting, Prepared cfg x)
    (hp : prepareEvent cfg s.lastEventHash e=(some e', last)) :
    Lands e' (ingestEvent cfg o e s).2 none ∧
    (∀ x∈(ingestEvent cfg o e s).2.waiting, x=e' ∨ x∈s.waiting) ∧
    ∀ r∈(ingestEvent cfg o e s).2.rows, r∈s.rows ∨ r=row e' ∨ ∃ x∈s.waiting, r=row x := by
  have he : Prepared cfg e' := prepareEvent_prepared hp
  have hQ : ∀ x, x=e' ∨ x∈s.waiting → Prepared cfg x := fun x hx => hx.elim (· ▸ he) (hw x)
  have hR : ∀ x, x=e' ∨ x∈s.waiting →
      row x∈s.rows ∨ row x=row e' ∨ ∃ y∈s.waiting, row x=row y := by
    intro x hx
    cases hx with
    | inl hx => exact Or.inr (Or.inl (hx ▸ rfl))
    | inr hx => exact Or.inr (Or.inr ⟨x, hx, rfl⟩)
  have hrun := (ingestPrepared_alone o hp).of_invariant
    (fun t st => Carried (fun x => x=e' ∨ x∈s.waiting)
      (fun r => r∈s.rows ∨ r=row e' ∨ ∃ x∈s.waiting, r=row x) (t, st) ∧
      (∀ st'∈st, st'.Underway) ∧ Lands e' t st) ?_ ?_
  · exact ⟨hrun.2.2, hrun.1.waiting, hrun.1.rows⟩
  · intro t st ok also ⟨hc, hu, hl⟩
    have hbuffer : ∀ x∈t.buffer.items, Prepared cfg x := fun x hx =>
      hQ x (hc.waiting x (mem_waiting.mpr (Or.inl hx)))
    have hunder := hu st rfl
    have hadv := advance_advances false ok also hbuffer st
    refine ⟨hadv.carries hQ hR hc.waiting hc.rows (hc.events st rfl) ?_, ?_, hadv.lands hl⟩
    · intro c hst
      rw [hst] at hunder
      exact absurd hunder id
    · refine (hadv.underway ?_).2
      intro e hst
      rw [hst] at hunder
      exact absurd hunder id
  · refine ⟨⟨fun x hx => Or.inr hx, fun r hr => Or.inl hr, ?_⟩, ?_, rfl⟩
    · intro st hst x hx
      cases hst
      exact Or.inl (List.mem_singleton.mp hx)
    · intro st hst
      cases hst
      trivial

theorem ingest_isSome (o : Outcomes) {e' : AuditEvent} {last : Option String}
    (hw : ∀ x∈s.waiting, Prepared cfg x)
    (hp : prepareEvent cfg s.lastEventHash e=(some e', last)) :
    (ingestEvent cfg o e s).1.isSome=true := by
  have hb : ∀ x∈s.buffer.items, Prepared cfg x := fun x hx => hw x (mem_waiting.mpr (Or.inl hx))
  simp only [ingestEvent, hp]
  cases hc : s.connected || o.connects with
  | false => rfl
  | true =>
    obtain ⟨n, hflush⟩ := flushBuffer_prepared
      (s := { s with lastEventHash := last, connected := true }) hb o.flushes
    simp only [if_true, hflush]
    split
    · exact inserted_isSome _ _
    · rfl

end Lands

structure Register where
  state : State := {}
  accepted : List (AuditEvent × Option String) := []

def Register.start (spooling : Bool) : Register :=
  { state := { spool := if spooling then some [] else none } }

def Register.step (cfg : Config) (w : Register) (a : Outcomes × AuditEvent) : Register :=
  { state := (ingestEvent cfg a.1 a.2 w.state).2
    accepted :=
      match (ingestEvent cfg a.1 a.2 w.state).1, (prepareEvent cfg w.state.lastEventHash a.2).1 with
      | some _, some e => (e, w.state.lastEventHash)::w.accepted
      | _, _ => w.accepted }

section Authentic
variable (k : Signer) (key : Json → NonEmpty)

def Signer.keyed : Config := Signer.config { k with privateKey := some key }

/-- The hash is that of the event's own payload, it points to the head, and the service's
key has signed it. -/
structure Authentic (head : Option String) (e : AuditEvent) : Prop where
  hash : e.eventHash=some (k.sha256 (canonicalEventPayload e)).1
  previous : e.previousHash=head
  signature : e.signature=some (key (canonicalSigningPayload e)).1

/-- Every event that reached the table, the buffer or the spool was accepted, and was
authentic when it was. -/
structure Register.Genuine (w : Register) : Prop where
  accepted : ∀ a∈w.accepted, Authentic k key a.2 a.1
  held : ∀ x∈w.state.held, ∃ head, (x, head)∈w.accepted

structure Unforged (head : Option String) (e : AuditEvent) : Prop where
  hash : present e.eventHash=true →
    e.eventHash=some (k.sha256 (canonicalEventPayload e)).1 ∧ e.previousHash=head
  signature : present e.signature=true →
    e.signature=some (key (canonicalSigningPayload (ensureChained (k.keyed key) head e).1)).1

theorem signAuditEvent_keyed (e : AuditEvent) : signAuditEvent (k.keyed key) e =
    some (if present e.signature then e else
      { e with signatureKeyId := some k.auditSignatureKeyId
               signature := some (key (canonicalSigningPayload e)).1 }) := by
  rw [signAuditEvent]
  split
  · rfl
  · rfl

variable {k key}

/-- With a key every event is taken, and it is authentic exactly when it is not forged. -/
theorem prepareEvent_keyed (k : Signer) (key : Json → NonEmpty) (head : Option String)
    (e : AuditEvent) :
    ∃ e', prepareEvent (k.keyed key) head e =
        (some e', (ensureChained (k.keyed key) head e).2) ∧
      (Authentic k key head e' ↔ Unforged k key head e) := by
  have hsign := signAuditEvent_keyed k key (ensureChained (k.keyed key) head e).1
  refine ⟨_, Prod.ext hsign rfl, ?_⟩
  have hsig : (ensureChained (k.keyed key) head e).1.signature=e.signature := by
    rw [ensureChained]
    split
    · rfl
    · rfl
  have hhash : ((ensureChained (k.keyed key) head e).1.eventHash=
        some (k.sha256 (canonicalEventPayload (ensureChained (k.keyed key) head e).1)).1 ∧
      (ensureChained (k.keyed key) head e).1.previousHash=head) ↔
      (present e.eventHash=true →
        e.eventHash=some (k.sha256 (canonicalEventPayload e)).1 ∧ e.previousHash=head) := by
    cases hp : present e.eventHash with
    | true =>
      rw [ensureChained_hashed hp]
      exact ⟨fun h _ => h, fun h => h rfl⟩
    | false =>
      rw [ensureChained_plain hp]
      exact ⟨fun _ hf => (by cases hf), fun _ => ⟨rfl, rfl⟩⟩
  rw [hsig]
  cases hp : present e.signature with
  | true =>
    constructor
    · intro h
      obtain ⟨hh, hprev, hs⟩ := h
      refine ⟨hhash.mp ⟨hh, hprev⟩, fun _ => ?_⟩
      exact hsig.symm.trans hs
    · intro h
      obtain ⟨hh, hs⟩ := h
      obtain ⟨hh, hprev⟩ := hhash.mpr hh
      exact ⟨hh, hprev, hsig.trans (hs hp)⟩
  | false =>
    constructor
    · intro h
      obtain ⟨hh, hprev, _⟩ := h
      refine ⟨hhash.mp ⟨hh, hprev⟩, fun hf => ?_⟩
      rw [hp] at hf
      cases hf
    · intro h
      obtain ⟨hh, _⟩ := h
      obtain ⟨hh, hprev⟩ := hhash.mpr hh
      exact ⟨hh, hprev, rfl⟩

theorem Authentic.prepared {head : Option String} {e : AuditEvent} (h : Authentic k key head e) :
    Prepared (k.keyed key) e := by
  refine ⟨?_, signAuditEvent_of_present ?_⟩
  · rw [h.hash]
    exact decide_eq_true (k.sha256 (canonicalEventPayload e)).2
  · rw [h.signature]
    exact decide_eq_true (key (canonicalSigningPayload e)).2

theorem mem_held {s : State} {x : AuditEvent} :
    x∈s.held ↔ (∃ r∈s.rows, eventFromRow r=x) ∨ x∈s.waiting := by
  simp only [State.held, State.waiting, List.mem_append, List.mem_map, or_assoc]

/-- A genuine register stays genuine exactly when the next event is not forged. -/
theorem Register.Genuine.step_iff {w : Register} (h : w.Genuine k key) (a : Outcomes × AuditEvent) :
    (w.step (k.keyed key) a).Genuine k key ↔ Unforged k key w.state.lastEventHash a.2 := by
  have hauthentic : ∀ x∈w.state.held, Prepared (k.keyed key) x := by
    intro x hx
    obtain ⟨head, hm⟩ := h.held x hx
    exact (h.accepted _ hm).prepared
  have hw : ∀ x∈w.state.waiting, Prepared (k.keyed key) x := fun x hx =>
    hauthentic x (mem_held.mpr (Or.inr hx))
  obtain ⟨e', hp, hiff⟩ := prepareEvent_keyed k key w.state.lastEventHash a.2
  have he : Prepared (k.keyed key) e' := prepareEvent_prepared hp
  obtain ⟨reply, hreply⟩ := Option.isSome_iff_exists.mp (ingest_isSome a.1 hw hp)
  obtain ⟨_, hwaiting, hrows⟩ := ingest_held a.1 hw hp
  have hstep : w.step (k.keyed key) a =
      { state := (ingestEvent (k.keyed key) a.1 a.2 w.state).2
        accepted := (e', w.state.lastEventHash)::w.accepted } := by
    simp only [Register.step, hreply, hp]
  rw [hstep, ← hiff]
  constructor
  · intro hg
    exact hg.accepted _ List.mem_cons_self
  · intro hg
    refine ⟨List.forall_mem_cons.mpr ⟨hg, h.accepted⟩, ?_⟩
    have hold : ∀ x∈w.state.held, ∃ head, (x, head)∈(e', w.state.lastEventHash)::w.accepted := by
      intro x hx
      obtain ⟨head, hm⟩ := h.held x hx
      exact ⟨head, List.mem_cons_of_mem _ hm⟩
    intro x hx
    obtain ⟨r, hr, rfl⟩ | hx := mem_held.mp hx
    · obtain hm | rfl | ⟨y, hy, rfl⟩ := hrows r hr
      · exact hold _ (mem_held.mpr (Or.inl ⟨r, hm, rfl⟩))
      · rw [he.eventFromRow_row]
        exact ⟨_, List.mem_cons_self⟩
      · rw [(hw y hy).eventFromRow_row]
        exact hold y (mem_held.mpr (Or.inr hy))
    · obtain rfl | hm := hwaiting x hx
      · exact ⟨_, List.mem_cons_self⟩
      · exact hold x (mem_held.mpr (Or.inr hm))

theorem Register.Genuine.start (k : Signer) (key : Json → NonEmpty) (spooling : Bool) :
    (Register.start spooling).Genuine k key := by
  refine ⟨fun a ha => (by cases ha), fun x hx => ?_⟩
  cases spooling with
  | true => cases hx
  | false => cases hx

/-- With a signing key, along every sequence of posted events everything that reaches the
table, the buffer or the spool is authentic exactly as long as no posted event brings
along a hash or a signature that the service would not have put there. -/
theorem audit_authentic_iff (k : Signer) (key : Json → NonEmpty) (spooling : Bool)
    (as : List (Outcomes × AuditEvent)) :
    Trace.Along (Register.step (k.keyed key))
      (fun w a => (w.step (k.keyed key) a).Genuine k key) (Register.start spooling) as ↔
    Trace.Along (Register.step (k.keyed key))
      (fun w a => Unforged k key w.state.lastEventHash a.2) (Register.start spooling) as := by
  refine Trace.Along.iff_of_invariant (Register.Genuine k key) ?_ ?_
    (Register.Genuine.start k key spooling) as
  · intro w a hI hc
    exact (hI.step_iff a).mpr hc
  · intro w a hI
    exact hI.step_iff a

def sampleSigner : Signer where
  sha256 := fun _ => ⟨"e3b0c44298fc1c149afbf4c8996fb92427ae41e4649b934ca495991b7852b855", by decide⟩

def sampleKey : Json → NonEmpty := fun _ => ⟨"signature", by decide⟩

def forgedEvent : AuditEvent :=
  { ts := "2026-01-01T00:00:00Z", action := "instance.provisioned", resource := "lb-1"
    eventHash := some "chosen", signatureKeyId := some "chosen", signature := some "chosen" }

theorem forged_event_stored :
    ((Register.start false).step (sampleSigner.keyed sampleKey) (up, forgedEvent)).state.rows =
      [row forgedEvent] ∧
    ¬ ((Register.start false).step (sampleSigner.keyed sampleKey) (up, forgedEvent)).Genuine
      sampleSigner sampleKey := by
  refine ⟨by decide +kernel, fun h => ?_⟩
  have haccepted : ((Register.start false).step (sampleSigner.keyed sampleKey)
      (up, forgedEvent)).accepted=[(forgedEvent, none)] := by decide +kernel
  have hauthentic := h.accepted (forgedEvent, none) (by rw [haccepted]; exact List.mem_cons_self)
  have hhash := hauthentic.hash
  revert hhash
  decide +kernel

end Authentic

/-! The chain over the lifetimes of the process. The head of the chain is in memory, the
rows are in the table. -/

section Lifetimes

inductive LifeStep where
  | restart
  | post (appends reads unlinks : Bool) (e : AuditEvent)

def lifeStep (cfg : Config) (s : State) : LifeStep → State
  | .restart => { spool := s.spool, rows := s.rows }
  | .post appends reads unlinks e => (ingestEvent cfg { appends, reads, unlinks } e s).2

variable (k : Signer)

def Signer.Refuses : Prop := k.privateKey=none ∧ k.requireAuditSigning=true

def rowPayload (r : Row) : Json := canonicalEventPayload (eventFromRow r)

def Collision (rows : List Row) : Prop :=
  ∃ x∈rows, ∃ y∈rows, rowPayload x≠rowPayload y ∧
    k.sha256 (rowPayload x)=k.sha256 (rowPayload y)

def rowHash (r : Row) : Option String := some r.eventHash

structure Detectable (rows : List Row) : Prop where
  single : rows=[] ∨ HashChain.Single Row.previousHash rowHash rows
  removal : ∀ a r b, rows=a++r::b → b≠[] →
    HashChain.Broken Row.previousHash rowHash (a++b) ∨ Collision k rows

/-- The posted event brings no hash; where signing is required without a key, it brings no
signature either. -/
def LifeStep.Unhashed : LifeStep → Prop
  | .restart => True
  | .post _ _ _ e => present e.eventHash=false ∧ (k.Refuses → present e.signature=false)

def LifeStep.Continues (s : State) : LifeStep → Prop
  | .restart => True
  | .post _ _ _ _ => k.Refuses ∨ s.rows=[] ∨ s.lastEventHash≠none

instance : Decidable k.Refuses := inferInstanceAs (Decidable (_ ∧ _))

instance : ∀ a : LifeStep, Decidable (a.Unhashed k)
  | .restart => isTrue trivial
  | .post _ _ _ _ => inferInstanceAs (Decidable (_ ∧ _))

instance (s : State) : ∀ a : LifeStep, Decidable (a.Continues k s)
  | .restart => isTrue trivial
  | .post _ _ _ _ => inferInstanceAs (Decidable (_ ∨ _))

theorem ingest_answered {cfg : Config} {s : State} {e e' : AuditEvent} {last : Option String}
    (hb : s.buffer=Deque.empty) (hs : s.spool.getD []=[])
    (hp : prepareEvent cfg s.lastEventHash e=(some e', last)) (appends reads unlinks : Bool) :
    (ingestEvent cfg { appends, reads, unlinks } e s).2 =
      { s with connected := true, lastEventHash := last, rows := s.rows++[row e'] } := by
  obtain ⟨connected, head, buffer, spool, rows⟩ := s
  dsimp only at hb
  subst hb
  have hflush : ∀ t : State, t.buffer=Deque.empty → ∃ n, flushBuffer cfg true t=(some n, t) := by
    intro t ht
    have hnone : ∀ x∈t.buffer.items, Prepared cfg x := by
      rw [ht]
      intro x hx
      cases hx
    obtain ⟨n, hn⟩ := flushBuffer_prepared hnone true
    refine ⟨n, hn.trans (congrArg (Prod.mk (some n)) ?_)⟩
    obtain ⟨_, _, _, _, _⟩ := t
    cases ht
    simp [State.flushed, Deque.empty]
  obtain ⟨n, hn⟩ := hflush
    { connected := true, lastEventHash := last, buffer := Deque.empty, spool, rows } rfl
  obtain ⟨m, hm⟩ := hflush
    { connected := true, lastEventHash := last, buffer := Deque.empty, spool
      rows := rows++[row e'] } rfl
  simp only [ingestEvent, hp, Bool.or_true, if_true, hn, inserted]
  cases spool with
  | none => rfl
  | some spool =>
    have hnil : spool=[] := hs
    subst hnil
    have hd : drain { appends, reads, unlinks } []=([], []) := by
      cases reads with
      | false => rfl
      | true => simp [drain]
    simp only [hd, Deque.extend, List.foldl_nil, hm]

variable {k}

theorem signAuditEvent_none_iff {e : AuditEvent} :
    signAuditEvent k.config e=none ↔ present e.signature=false ∧ k.Refuses := by
  rw [signAuditEvent]
  cases hp : present e.signature with
  | true => simp
  | false =>
    cases hk : k.privateKey with
    | none => simp [Signer.config, Signer.Refuses, hk]
    | some key => simp [Signer.config, Signer.Refuses, hk]

theorem signAuditEvent_eq {cfg : Config} {e e' : AuditEvent} (h : signAuditEvent cfg e=some e') :
    ∃ keyId signature, e'={ e with signatureKeyId := keyId, signature } := by
  rw [signAuditEvent] at h
  split at h
  · cases h
    exact ⟨_, _, rfl⟩
  · split at h
    · split at h
      · cases h
      · cases h
        exact ⟨_, _, rfl⟩
    · cases h
      exact ⟨_, _, rfl⟩

theorem mem_of_sortKeys_eq {xs ys : List (String × Json)}
    (h : Json.sortKeys (.obj xs)=Json.sortKeys (.obj ys)) {m : String × Json}
    (hm : m∈Json.sortMembers xs) : m∈Json.sortMembers ys := by
  simp only [Json.sortKeys, Json.obj.injEq] at h
  have hsorted := (List.mem_insertionSort fun a b : String × Json => a.1≤b.1).mpr hm
  rw [h] at hsorted
  exact (List.mem_insertionSort _).mp hsorted

theorem previousHash_of_payload {e e' : AuditEvent}
    (h : canonicalEventPayload e=canonicalEventPayload e') : e.previousHash=e'.previousHash := by
  have hm : ("previous_hash", optText e.previousHash)∈Json.sortMembers (payloadMembers e) := by
    simp [payloadMembers, Json.sortMembers]
  have hm' : ("previous_hash", optText e.previousHash)∈Json.sortMembers (payloadMembers e') :=
    mem_of_sortKeys_eq h hm
  refine optText_inj ?_
  simpa [payloadMembers, Json.sortMembers] using hm'

structure Trail (k : Signer) (s : State) : Prop where
  buffer : s.buffer=Deque.empty
  spool : s.spool.getD []=[]
  linked : HashChain.Linked Row.previousHash rowHash none s.rows
  digests : ∀ r∈s.rows, r.eventHash=(k.sha256 (rowPayload r)).1
  refused : k.Refuses → s.rows=[]
  head : ¬ k.Refuses → s.lastEventHash=none ∨
    s.lastEventHash=HashChain.headAfter rowHash none s.rows

theorem Trail.detectable {s : State} (h : Trail k s) : Detectable k s.rows := by
  have hsome : ∀ r∈s.rows, rowHash r≠none := fun r _ => Option.some_ne_none _
  refine ⟨?_, ?_⟩
  · by_cases hne : s.rows=[]
    · exact Or.inl hne
    · exact Or.inr (h.linked.single hsome hne)
  · intro a r b he hb
    by_cases hc : Collision k s.rows
    · exact Or.inr hc
    · have hinj : ∀ x∈s.rows, ∀ y∈s.rows, rowHash x=rowHash y → x.previousHash=y.previousHash := by
        intro x hx y hy hxy
        have hsha : k.sha256 (rowPayload x)=k.sha256 (rowPayload y) := by
          refine Subtype.ext ?_
          rw [← h.digests x hx, ← h.digests y hy]
          exact Option.some.inj hxy
        have hpayload : rowPayload x=rowPayload y := by
          by_contra hne
          exact hc ⟨x, hx, y, hy, hne, hsha⟩
        exact previousHash_of_payload hpayload
      exact Or.inl (h.linked.broken_of_remove hsome (h.linked.nodup hsome hinj) he hb)

theorem Trail.start (k : Signer) (spooling : Bool) : Trail k (Register.start spooling).state where
  buffer := rfl
  spool := by cases spooling <;> rfl
  linked := trivial
  digests := fun r hr => (by cases hr)
  refused := fun _ => rfl
  head := fun _ => Or.inl rfl

theorem Trail.restart {s : State} (h : Trail k s) : Trail k (lifeStep k.config s .restart) where
  buffer := rfl
  spool := h.spool
  linked := h.linked
  digests := h.digests
  refused := h.refused
  head := fun _ => Or.inl rfl

theorem Trail.accepts {s : State} (h : Trail k s) (hr : ¬ k.Refuses) {e : AuditEvent}
    (he : present e.eventHash=false) (appends reads unlinks : Bool) :
    ∃ e', (lifeStep k.config s (.post appends reads unlinks e)) =
        { s with connected := true, lastEventHash := e'.eventHash, rows := s.rows++[row e'] } ∧
      Prepared k.config e' ∧ e'.previousHash=s.lastEventHash ∧
      e'.eventHash=some (k.sha256 (canonicalEventPayload e')).1 := by
  have hsign : signAuditEvent k.config (chainEvent k.config s.lastEventHash e)≠none :=
    fun hn => hr (signAuditEvent_none_iff.mp hn).2
  obtain ⟨e', he'⟩ := Option.ne_none_iff_exists'.mp hsign
  obtain ⟨keyId, signature, heq⟩ := signAuditEvent_eq he'
  have hhash : e'.eventHash=(chainEvent k.config s.lastEventHash e).eventHash := by rw [heq]
  have hp : prepareEvent k.config s.lastEventHash e=(some e', e'.eventHash) := by
    simp only [prepareEvent, ensureChained_plain he, he', hhash]
  refine ⟨e', ingest_answered h.buffer h.spool hp appends reads unlinks, prepareEvent_prepared hp,
    ?_, ?_⟩
  · rw [heq]
    rfl
  · rw [heq]
    rfl

theorem Trail.post {s : State} (h : Trail k s) (hr : ¬ k.Refuses) {e : AuditEvent}
    (he : present e.eventHash=false) (appends reads unlinks : Bool)
    (hc : s.rows=[] ∨ s.lastEventHash≠none) :
    Trail k (lifeStep k.config s (.post appends reads unlinks e)) := by
  obtain ⟨e', hstep, hprepared, hprev, hhash⟩ := h.accepts hr he appends reads unlinks
  have hhead : e'.previousHash=HashChain.headAfter rowHash none s.rows := by
    rw [hprev]
    obtain hnone | heq := h.head hr
    · have hnil : s.rows=[] := hc.resolve_right fun hne => hne hnone
      rw [hnone, hnil]
      rfl
    · exact heq
  have hrow : (row e').eventHash=(k.sha256 (canonicalEventPayload e')).1 := by
    rw [row, hhash, Option.getD_some]
  rw [hstep]
  refine ⟨h.buffer, h.spool, ?_, ?_, fun hf => absurd hf hr, fun _ => Or.inr ?_⟩
  · exact HashChain.linked_append.mpr ⟨h.linked, hhead, trivial⟩
  · refine forall_mem_append h.digests fun r hm => ?_
    rw [List.mem_singleton.mp hm, rowPayload, hprepared.eventFromRow_row, hrow]
  · rw [HashChain.headAfter_append, hhash, ← hrow]
    rfl

/-- One step: the rows stay one chain exactly when a new lifetime does not start a second
one. -/
theorem Trail.step_iff {s : State} (h : Trail k s) {a : LifeStep} (ha : a.Unhashed k) :
    (a.Continues k s → Trail k (lifeStep k.config s a)) ∧
    (Detectable k (lifeStep k.config s a).rows ↔ a.Continues k s) := by
  cases a with
  | restart => exact ⟨fun _ => h.restart, fun _ => trivial, fun _ => h.restart.detectable⟩
  | post appends reads unlinks e =>
    obtain ⟨he, hsig⟩ := ha
    by_cases hr : k.Refuses
    · -- the event is chained, not signed and not taken
      have hp : prepareEvent k.config s.lastEventHash e =
          (none, (chainEvent k.config s.lastEventHash e).eventHash) := by
        have hsign : signAuditEvent k.config (chainEvent k.config s.lastEventHash e)=none :=
          signAuditEvent_none_iff.mpr ⟨hsig hr, hr⟩
        simp only [prepareEvent, ensureChained_plain he, hsign]
      have hstep : lifeStep k.config s (.post appends reads unlinks e) =
          { s with lastEventHash := (chainEvent k.config s.lastEventHash e).eventHash } := by
        simp only [lifeStep, ingestEvent, hp]
      have htrail : Trail k (lifeStep k.config s (.post appends reads unlinks e)) := by
        rw [hstep]
        exact ⟨h.buffer, h.spool, h.linked, h.digests, h.refused, fun hn => absurd hr hn⟩
      exact ⟨fun _ => htrail, fun _ => Or.inl hr, fun _ => htrail.detectable⟩
    · have hcases : (LifeStep.post appends reads unlinks e).Continues k s ↔
          s.rows=[] ∨ s.lastEventHash≠none := or_iff_right hr
      refine ⟨fun hc => h.post hr he appends reads unlinks (hcases.mp hc), ?_, ?_⟩
      · intro hd
        rw [hcases]
        by_contra hno
        obtain ⟨hne, hlast⟩ : s.rows≠[] ∧ s.lastEventHash=none := by simpa using hno
        obtain ⟨e', hstep, _, hprev, _⟩ := h.accepts hr he appends reads unlinks
        have hsingle := h.linked.single (fun r _ => Option.some_ne_none _) hne
        rw [hstep] at hd
        obtain hnil | hd := hd.single
        · simp at hnil
        · exact hsingle.not_append (hprev.trans hlast) hd
      · intro hc
        exact (h.post hr he appends reads unlinks (hcases.mp hc)).detectable

/-- Over any lifetimes in which every insert succeeds and no posted event brings a hash of
its own: the rows are one chain from which no row can be taken unseen, after every step,
exactly as long as no process starts a second chain. -/
theorem trail_detectable_iff (k : Signer) (spooling : Bool) (as : List LifeStep)
    (h : ∀ a∈as, a.Unhashed k) :
    Trace.Along (lifeStep k.config) (fun s a => Detectable k (lifeStep k.config s a).rows)
      (Register.start spooling).state as ↔
    Trace.Along (lifeStep k.config) (fun s a => a.Continues k s)
      (Register.start spooling).state as := by
  refine Trace.Along.iff_of_invariant_on (Trail k) (fun a => a.Unhashed k) ?_ ?_
    (Trail.start k spooling) h
  · intro s a ha hI hc
    exact (hI.step_iff ha).1 hc
  · intro s a ha hI
    exact (hI.step_iff ha).2

def postEvent : LifeStep := .post true true true
  { ts := "2026-01-01T00:00:00Z", action := "instance.provisioned", resource := "lb-1" }

theorem trail_detectable_oneLifetime :
    (Trace.exec (lifeStep sampleSigner.config) (Register.start true).state
      [postEvent, postEvent, .restart]).rows.length=2 ∧
    Trace.Along (lifeStep sampleSigner.config)
      (fun s a => Detectable sampleSigner (lifeStep sampleSigner.config s a).rows)
      (Register.start true).state [postEvent, postEvent, .restart] :=
  ⟨by decide +kernel,
    (trail_detectable_iff sampleSigner true _ (by decide +kernel)).mpr (by decide +kernel)⟩

/-- Two lifetimes with one event each: two rows without a predecessor. -/
theorem second_lifetime_starts_chain :
    ((Trace.exec (lifeStep sampleSigner.config) (Register.start true).state
      [postEvent, .restart, postEvent]).rows.map Row.previousHash)=[none, none] ∧
    ¬ Detectable sampleSigner (Trace.exec (lifeStep sampleSigner.config)
      (Register.start true).state [postEvent, .restart, postEvent]).rows := by
  refine ⟨by decide +kernel, fun h => ?_⟩
  obtain hnil | hsingle := h.single
  · revert hnil
    decide +kernel
  · have hcount := hsingle.start
    revert hcount
    decide +kernel

end Lifetimes
end Sovereign.AuditService
