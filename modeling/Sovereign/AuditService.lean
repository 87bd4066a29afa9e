import Sovereign.Json
import Sovereign.Deque
import Sovereign.Trace

/-! The audit service. An accepted event goes to the table, to a bounded buffer in memory
or to a spool on disk; buffered and spooled events are moved to the table later. Calls
are handled one after another; the copies for a SIEM are in a module of their own. -/
namespace Sovereign.AuditService
open Sovereign

/-- `metadata` is a dict of JSON values; its text in a row parses back to it. -/
structure AuditEvent where
  ts : String
  tenantId : String := "default"
  actor : String := "system"
  action : String
  resource : String
  decision : String := "allow"
  metadata : List (String × Json) := []
  previousHash : Option String := none
  eventHash : Option String := none
  signatureKeyId : Option String := none
  signature : Option String := none
deriving DecidableEq

structure Row where
  ts : String
  tenantId : String
  actor : String
  action : String
  resource : String
  decision : String
  metadata : List (String × Json)
  previousHash : Option String
  eventHash : String
  signatureKeyId : Option String
  signature : Option String
deriving DecidableEq

def row (e : AuditEvent) : Row :=
  { ts := e.ts, tenantId := e.tenantId, actor := e.actor, action := e.action
    resource := e.resource, decision := e.decision, metadata := e.metadata
    previousHash := e.previousHash, eventHash := e.eventHash.getD ""
    signatureKeyId := e.signatureKeyId, signature := e.signature }

def eventFromRow (r : Row) : AuditEvent :=
  { ts := r.ts, tenantId := r.tenantId, actor := r.actor, action := r.action
    resource := r.resource, decision := r.decision, metadata := r.metadata
    previousHash := r.previousHash, eventHash := some r.eventHash
    signatureKeyId := r.signatureKeyId, signature := r.signature }

abbrev NonEmpty := { s : String // s≠"" }

/-- `digest` is the SHA-256 of the canonical payload; `sign` is there when a private key
is configured. -/
structure Config where
  digest : AuditEvent → NonEmpty
  sign : Option (AuditEvent → NonEmpty) := none
  auditSignatureKeyId : String := ""
  requireAuditSigning : Bool := false

def present : Option String → Bool
  | none => false
  | some s => decide (s≠"")

section Prepare
variable (cfg : Config)

def chainEvent (lastEventHash : Option String) (e : AuditEvent) : AuditEvent :=
  let chained := { e with previousHash := lastEventHash, eventHash := none }
  { chained with eventHash := some (cfg.digest chained).1 }

def ensureChained (lastEventHash : Option String) (e : AuditEvent) :
    AuditEvent × Option String :=
  if present e.eventHash then (e, lastEventHash)
  else
    let chained := chainEvent cfg lastEventHash e
    (chained, chained.eventHash)

/-- `none` when signing is required and there is no key. -/
def signAuditEvent (e : AuditEvent) : Option AuditEvent :=
  if present e.signature then some e
  else match cfg.sign with
    | none => if cfg.requireAuditSigning then none else some e
    | some sign =>
      some { e with signatureKeyId := some cfg.auditSignatureKeyId, signature := some (sign e).1 }

def prepareEvent (lastEventHash : Option String) (e : AuditEvent) :
    Option AuditEvent × Option String :=
  let (chained, last) := ensureChained cfg lastEventHash e
  (signAuditEvent cfg chained, last)

end Prepare

def bufferCap : Nat := 1000

/-- `rows` is the table; the spool is `none` when it is not configured. -/
structure State where
  connected : Bool := false
  lastEventHash : Option String := none
  buffer : Deque AuditEvent bufferCap := Deque.empty
  spool : Option (List AuditEvent) := none
  rows : List Row := []

/-- How one call meets ClickHouse (the connection, the inserts in their order) and the
spool's file. -/
structure Outcomes where
  connects : Bool := true
  flushes : Bool := true
  inserts : Bool := true
  reflushes : Bool := true
  appends : Bool := true
  reads : Bool := true
  unlinks : Bool := true

structure Reply where
  key : String
  persisted : Bool
  buffered : Bool
deriving DecidableEq

section Service
variable (cfg : Config) (o : Outcomes)

inductive Placed where
  | buffer | spool | dropped

def bufferOrSpool (e : AuditEvent) (s : State) : Placed × State :=
  if s.buffer.items.length < bufferCap then (.buffer, { s with buffer := s.buffer.append e })
  else
    match s.spool with
    | some spool =>
      if o.appends then (.spool, { s with spool := some (spool++[e]) })
      else (.dropped, { s with buffer := s.buffer.append e })
    | none => (.dropped, { s with buffer := s.buffer.append e })

/-- The loop that empties the buffer into rows: the rows, or `none` when preparing an
event raises, then what is left of the buffer and the end of the chain. -/
def takeRows : List AuditEvent → Option String → List Row →
    Option (List Row) × List AuditEvent × Option String
  | [], last, rows => (some rows, [], last)
  | e::es, last, rows =>
    match prepareEvent cfg last e with
    | (none, last) => (none, es, last)
    | (some e, last) => takeRows es last (rows++[row e])

def requeue (rows : List Row) (buffer : Deque AuditEvent bufferCap) :
    Deque AuditEvent bufferCap :=
  rows.reverse.foldl (fun b r =>
    (if bufferCap ≤ b.items.length then b.popleft else b).appendleft (eventFromRow r)) buffer

theorem takeRows_length (es : List AuditEvent) (last : Option String) (rows : List Row) :
    (takeRows cfg es last rows).2.1.length ≤ es.length := by
  induction es generalizing last rows with
  | nil => exact Nat.le_refl _
  | cons e es ih =>
    simp only [takeRows]
    split
    · exact Nat.le_succ _
    · exact Nat.le_succ_of_le (ih _ _)

theorem takeRows_fits (s : State) :
    (takeRows cfg s.buffer.items s.lastEventHash []).2.1.length ≤ bufferCap :=
  Nat.le_trans (takeRows_length cfg _ _ _) s.buffer.length_le

/-- The number of rows flushed; `none` when it raises. -/
def flushBuffer (inserts : Bool) (s : State) : Option Nat × State :=
  let taken := takeRows cfg s.buffer.items s.lastEventHash []
  let left : Deque AuditEvent bufferCap :=
    ⟨taken.2.1, takeRows_fits cfg s⟩
  let s := { s with buffer := left, lastEventHash := taken.2.2 }
  match taken.1 with
  | none => (none, s)
  | some [] => (some 0, s)
  | some rows =>
    if inserts then (some rows.length, { s with rows := s.rows++rows })
    else (some 0, { s with buffer := requeue rows s.buffer })

def drain (spool : List AuditEvent) : List AuditEvent × List AuditEvent :=
  if o.reads then (spool, if o.unlinks then [] else spool) else ([], spool)

def eventKey (e : AuditEvent) : String :=
  e.ts ++ "|" ++ e.tenantId ++ "|" ++ e.action ++ "|" ++ e.resource

def persistedReply (e : AuditEvent) : Reply := ⟨eventKey e, true, false⟩
def bufferedReply (e : AuditEvent) : Reply := ⟨eventKey e, false, true⟩

def inserted (e : AuditEvent) (s : State) : Option Reply × State :=
  match s.spool with
  | none => (some (persistedReply e), s)
  | some spool =>
    let (events, rest) := drain o spool
    match flushBuffer cfg o.reflushes
      { s with buffer := s.buffer.extend events, spool := some rest } with
    | (some _, s) => (some (persistedReply e), s)
    | (none, s) => (some (bufferedReply e), (bufferOrSpool o e s).2)

/-- `none` is the answer 500. -/
def ingestEvent (e : AuditEvent) (s : State) : Option Reply × State :=
  match prepareEvent cfg s.lastEventHash e with
  | (none, last) => (none, { s with lastEventHash := last })
  | (some e, last) =>
    let s := { s with lastEventHash := last, connected := s.connected || o.connects }
    if s.connected then
      match flushBuffer cfg o.flushes s with
      | (none, s) => (none, s)
      | (some _, s) =>
        if o.inserts then inserted cfg o e { s with rows := s.rows++[row e] }
        else (some (bufferedReply e), (bufferOrSpool o e s).2)
    else (some (bufferedReply e), (bufferOrSpool o e s).2)

end Service
/-! Prepared events. Preparing one again changes nothing, so the way through the buffer,
the spool and back leaves it as it is. -/

structure Prepared (cfg : Config) (e : AuditEvent) : Prop where
  chained : present e.eventHash=true
  signed : signAuditEvent cfg e=some e

section Prepared
variable {cfg : Config} {e : AuditEvent}

theorem ensureChained_present (last : Option String) :
    present (ensureChained cfg last e).1.eventHash=true := by
  rw [ensureChained]
  split
  · next h => exact h
  · exact decide_eq_true (cfg.digest { e with previousHash := last, eventHash := none }).2

theorem signAuditEvent_of_present (h : present e.signature=true) :
    signAuditEvent cfg e=some e := if_pos h

theorem signAuditEvent_prepared {e' : AuditEvent} (h : present e.eventHash=true)
    (hs : signAuditEvent cfg e=some e') : Prepared cfg e' := by
  have hs' := hs
  rw [signAuditEvent] at hs
  split at hs
  · have he := Option.some.inj hs
    rw [← he] at hs' ⊢
    exact ⟨h, hs'⟩
  · split at hs
    · split at hs
      · cases hs
      · have he := Option.some.inj hs
        rw [← he] at hs' ⊢
        exact ⟨h, hs'⟩
    · next sign _ =>
      have he := Option.some.inj hs
      rw [← he]
      exact ⟨h, signAuditEvent_of_present (decide_eq_true (sign e).2)⟩

theorem prepareEvent_prepared {last last' : Option String} {e' : AuditEvent}
    (h : prepareEvent cfg last e=(some e', last')) : Prepared cfg e' :=
  signAuditEvent_prepared (ensureChained_present last) (Prod.mk.inj h).1

theorem Prepared.prepareEvent (h : Prepared cfg e) (last : Option String) :
    prepareEvent cfg last e=(some e, last) := by
  simp only [AuditService.prepareEvent, ensureChained, h.chained, if_true, h.signed]

theorem Prepared.eventFromRow_row (h : Prepared cfg e) : eventFromRow (row e)=e := by
  have hc := h.chained
  obtain ⟨ts, tenantId, actor, action, resource, decision, metadata, previousHash, eventHash,
    signatureKeyId, signature⟩ := e
  cases eventHash with
  | none => cases hc
  | some hash => rfl

theorem map_eventFromRow {es : List AuditEvent} (h : ∀ e∈es, Prepared cfg e) :
    (es.map row).map eventFromRow=es := by
  rw [List.map_map]
  refine (List.map_congr_left ?_).trans (List.map_id es)
  intro e he
  exact (h e he).eventFromRow_row

theorem takeRows_prepared {es : List AuditEvent} (h : ∀ e∈es, Prepared cfg e)
    (last : Option String) (rows : List Row) :
    takeRows cfg es last rows=(some (rows++es.map row), [], last) := by
  induction es generalizing rows with
  | nil => rw [takeRows, List.map_nil, List.append_nil]
  | cons e es ih =>
    have he : Prepared cfg e := h e List.mem_cons_self
    rw [takeRows, he.prepareEvent]
    dsimp only
    rw [ih fun x hx => h x (List.mem_cons_of_mem e hx), List.append_assoc]
    rfl

end Prepared

/-- Requeueing into the emptied buffer restores the rows in their order. -/
theorem items_requeue (rows : List Row) (h : rows.length ≤ bufferCap) :
    (requeue rows Deque.empty).items=rows.map eventFromRow := by
  induction rows with
  | nil => rfl
  | cons r rows ih =>
    have hlen : rows.length < bufferCap := h
    have hrest := ih (Nat.le_of_lt hlen)
    have hlt : (requeue rows Deque.empty).items.length < bufferCap := by
      rw [hrest, List.length_map]
      exact hlen
    have hstep : requeue (r::rows) Deque.empty =
        (requeue rows Deque.empty).appendleft (eventFromRow r) := by
      rw [requeue, List.reverse_cons, List.foldl_append, List.foldl_cons, List.foldl_nil]
      exact congrArg (fun b => Deque.appendleft b (eventFromRow r)) (if_neg (Nat.not_le.mpr hlt))
    rw [hstep, Deque.items_appendleft_of_lt hlt, hrest]
    rfl

section Flush
variable {cfg : Config} {s : State}

def State.flushed (s : State) (inserts : Bool) : State :=
  if inserts then { s with rows := s.rows++s.buffer.items.map row, buffer := Deque.empty } else s

theorem flushBuffer_prepared (h : ∀ e∈s.buffer.items, Prepared cfg e) (inserts : Bool) :
    ∃ n, flushBuffer cfg inserts s=(some n, s.flushed inserts) := by
  have htake : takeRows cfg s.buffer.items s.lastEventHash [] =
      (some (s.buffer.items.map row), [], s.lastEventHash) := takeRows_prepared h _ []
  have hrows : (takeRows cfg s.buffer.items s.lastEventHash []).1=some (s.buffer.items.map row) := by
    rw [htake]
  have hlast : (takeRows cfg s.buffer.items s.lastEventHash []).2.2=s.lastEventHash := by
    rw [htake]
  have hleft : ∀ hl, (⟨(takeRows cfg s.buffer.items s.lastEventHash []).2.1, hl⟩ :
      Deque AuditEvent bufferCap)=Deque.empty := by
    intro hl
    apply Deque.ext
    exact congrArg (fun t => t.2.1) htake
  have hback : requeue (s.buffer.items.map row) Deque.empty=s.buffer := by
    apply Deque.ext
    rw [items_requeue _ (by rw [List.length_map]; exact s.buffer.length_le), map_eventFromRow h]
  have hsame : ∀ b, b=s.buffer → { s with buffer := b }=s := by
    intro b hb
    rw [hb]
  rw [flushBuffer, State.flushed]
  simp only [hrows, hlast, hleft]
  cases hi : s.buffer.items with
  | nil =>
    have hb : s.buffer=Deque.empty := Deque.ext hi
    refine ⟨0, ?_⟩
    cases inserts with
    | true => simp
    | false => exact congrArg (Prod.mk (some 0)) (hsame _ hb.symm)
  | cons e es =>
    rw [hi] at hback
    cases inserts with
    | true => exact ⟨_, rfl⟩
    | false => exact ⟨0, congrArg (Prod.mk (some 0)) (hsame _ hback)⟩

end Flush

def State.held (s : State) : List AuditEvent :=
  s.rows.map eventFromRow ++ s.buffer.items ++ s.spool.getD []

structure Sound (cfg : Config) (s : State) : Prop where
  spool : s.spool.isSome=true
  buffered : ∀ e∈s.buffer.items, Prepared cfg e
  spooled : ∀ e∈s.spool.getD [], Prepared cfg e

/-- The spool takes what it is given, and what a drain returns fits into the buffer
beside what the flush before it has left there, and leaves the file. -/
def Fits (s : State) (o : Outcomes) : Prop :=
  o.appends=true ∧
  ((s.connected || o.connects)=true → o.inserts=true → o.reads=true →
    (if o.flushes then 0 else s.buffer.items.length)+(s.spool.getD []).length ≤ bufferCap ∧
      (o.unlinks=true ∨ s.spool.getD []=[]))

instance (s : State) (o : Outcomes) : Decidable (Fits s o) := inferInstanceAs (Decidable (_ ∧ _))

section Conservation
variable {cfg : Config} {o : Outcomes} {s : State} {e : AuditEvent}

theorem Sound.flushed (h : Sound cfg s) (inserts : Bool) : Sound cfg (s.flushed inserts) := by
  cases inserts with
  | false => exact h
  | true => exact ⟨h.spool, fun e he => (by cases he), h.spooled⟩

theorem Sound.held_flushed (h : Sound cfg s) (inserts : Bool) :
    (s.flushed inserts).held=s.held := by
  cases inserts with
  | false => rfl
  | true =>
    have hrows : (s.rows++s.buffer.items.map row).map eventFromRow =
        s.rows.map eventFromRow ++ s.buffer.items := by
      rw [List.map_append, map_eventFromRow h.buffered]
    calc
      (s.flushed true).held =
          (s.rows++s.buffer.items.map row).map eventFromRow ++ [] ++ s.spool.getD [] := rfl
      _=s.held := by rw [hrows, List.append_nil]; rfl

theorem Sound.bufferOrSpool (h : Sound cfg s) (ho : o.appends=true) (he : Prepared cfg e) :
    Sound cfg (bufferOrSpool o e s).2 ∧ (bufferOrSpool o e s).2.held.Perm (e::s.held) := by
  obtain ⟨spool, hs⟩ := Option.isSome_iff_exists.mp h.spool
  rw [AuditService.bufferOrSpool]
  split
  · next hlt =>
    have hitems := Deque.items_append_of_lt hlt e
    refine ⟨⟨h.spool, ?_, h.spooled⟩, ?_⟩
    · intro x hx
      simp only [hitems] at hx
      cases List.mem_append.mp hx with
      | inl hx => exact h.buffered x hx
      | inr hx => rw [List.mem_singleton.mp hx]; exact he
    · have hmid : s.rows.map eventFromRow ++ (s.buffer.items++[e]) ++ s.spool.getD [] =
          s.rows.map eventFromRow ++ s.buffer.items ++ e::s.spool.getD [] := by simp
      simp only [State.held, hitems]
      rw [hmid]
      exact List.perm_middle
  · simp only [hs]
    refine ⟨⟨rfl, h.buffered, ?_⟩, ?_⟩
    · intro x hx
      cases List.mem_append.mp hx with
      | inl hx =>
        have hsp := h.spooled
        rw [hs] at hsp
        exact hsp x hx
      | inr hx => rw [List.mem_singleton.mp hx]; exact he
    · simp only [State.held, hs, Option.getD_some]
      rw [← List.append_assoc]
      exact List.perm_append_singleton e _

theorem inserted_isSome (e : AuditEvent) (s : State) :
    (inserted cfg o e s).1.isSome=true := by
  rw [inserted]
  split
  · rfl
  · dsimp only
    split
    · rfl
    · rfl

/-- A drain that fits moves the spool to the buffer, or does nothing. -/
theorem Sound.drained (h : Sound cfg s) {spool : List AuditEvent} (hs : s.spool=some spool)
    (hfits : o.reads=true → s.buffer.items.length+spool.length ≤ bufferCap ∧
      (o.unlinks=true ∨ spool=[])) :
    Sound cfg { s with buffer := s.buffer.extend (drain o spool).1, spool := some (drain o spool).2 } ∧
      State.held { s with
        buffer := s.buffer.extend (drain o spool).1, spool := some (drain o spool).2 }=s.held := by
  have hsp : ∀ x∈spool, Prepared cfg x := by
    have h' := h.spooled
    rw [hs] at h'
    exact h'
  cases hr : o.reads with
  | false =>
    have hd : drain o spool=([], spool) := by simp [drain, hr]
    rw [hd]
    refine ⟨⟨rfl, h.buffered, hsp⟩, ?_⟩
    rw [State.held, State.held, hs]
    rfl
  | true =>
    obtain ⟨hlen, hun⟩ := hfits hr
    have hd : drain o spool=(spool, []) := by
      cases hun with
      | inl hu => simp [drain, hr, hu]
      | inr hnil => simp [drain, hr, hnil]
    have hitems := Deque.items_extend_of_fits hlen
    rw [hd]
    refine ⟨⟨rfl, ?_, fun x hx => (by cases hx)⟩, ?_⟩
    · intro x hx
      simp only [hitems] at hx
      cases List.mem_append.mp hx with
      | inl hx => exact h.buffered x hx
      | inr hx => exact hsp x hx
    · simp only [State.held, hitems, hs, Option.getD_some, List.append_nil, List.append_assoc]

theorem Sound.inserted (h : Sound cfg s)
    (hfits : o.reads=true → s.buffer.items.length+(s.spool.getD []).length ≤ bufferCap ∧
      (o.unlinks=true ∨ s.spool.getD []=[])) (e : AuditEvent) :
    Sound cfg (AuditService.inserted cfg o e s).2 ∧
      (AuditService.inserted cfg o e s).2.held=s.held := by
  obtain ⟨spool, hs⟩ := Option.isSome_iff_exists.mp h.spool
  rw [hs, Option.getD_some] at hfits
  obtain ⟨hsound, hheld⟩ := h.drained hs hfits
  obtain ⟨n, hflush⟩ := flushBuffer_prepared hsound.buffered o.reflushes
  simp only [AuditService.inserted, hs, hflush]
  refine ⟨hsound.flushed o.reflushes, ?_⟩
  rw [hsound.held_flushed, hheld]

theorem Sound.inserted_empty (h : Sound cfg s) {spool : List AuditEvent} (hs : s.spool=some spool)
    (hfits : s.buffer.items.length+spool.length ≤ bufferCap) (hr : o.reads=true)
    (hu : o.unlinks=true) (hf : o.reflushes=true) (e : AuditEvent) :
    (AuditService.inserted cfg o e s).2.buffer.items=[] ∧
      (AuditService.inserted cfg o e s).2.spool=some [] := by
  have hd : drain o spool=(spool, []) := by simp [drain, hr, hu]
  obtain ⟨hsound, _⟩ := h.drained hs fun _ => ⟨hfits, .inl hu⟩
  obtain ⟨n, hflush⟩ := flushBuffer_prepared hsound.buffered o.reflushes
  simp only [AuditService.inserted, hs, hflush]
  rw [hf, hd]
  exact ⟨rfl, rfl⟩

/-- When the drain does not fit, the oldest of the buffer and the spool are lost. -/
theorem Sound.inserted_overflow (h : Sound cfg s) {spool : List AuditEvent}
    (hs : s.spool=some spool) (hr : o.reads=true) (hu : o.unlinks=true) (e : AuditEvent) :
    (AuditService.inserted cfg o e s).2.held=s.rows.map eventFromRow ++
      (s.buffer.items++spool).drop (s.buffer.items.length+spool.length-bufferCap) := by
  have hd : drain o spool=(spool, []) := by simp [drain, hr, hu]
  have hsound : Sound cfg { s with buffer := s.buffer.extend spool, spool := some [] } := by
    refine ⟨rfl, ?_, fun x hx => (by cases hx)⟩
    intro x hx
    have hsp := h.spooled
    rw [hs] at hsp
    rw [Deque.items_extend] at hx
    cases List.mem_append.mp (List.mem_of_mem_drop hx) with
    | inl hx => exact h.buffered x hx
    | inr hx => exact hsp x hx
  obtain ⟨n, hflush⟩ := flushBuffer_prepared hsound.buffered o.reflushes
  simp only [AuditService.inserted, hs, hd, hflush]
  rw [hsound.held_flushed, State.held, Deque.items_extend]
  exact List.append_nil _

theorem State.flushed_spool (s : State) (inserts : Bool) : (s.flushed inserts).spool=s.spool := by
  cases inserts with
  | true => rfl
  | false => rfl

theorem State.flushed_length (s : State) (inserts : Bool) :
    (s.flushed inserts).buffer.items.length=if inserts then 0 else s.buffer.items.length := by
  cases inserts with
  | true => rfl
  | false => rfl

theorem Sound.insertRow (h : Sound cfg s) (he : Prepared cfg e) :
    Sound cfg { s with rows := s.rows++[row e] } ∧
      (State.held { s with rows := s.rows++[row e] }).Perm (e::s.held) := by
  refine ⟨⟨h.spool, h.buffered, h.spooled⟩, ?_⟩
  have hmid : (s.rows++[row e]).map eventFromRow ++ s.buffer.items ++ s.spool.getD [] =
      s.rows.map eventFromRow ++ e::(s.buffer.items++s.spool.getD []) := by
    rw [List.map_append, List.map_singleton, he.eventFromRow_row]
    simp
  have hheld : s.held=s.rows.map eventFromRow ++ (s.buffer.items++s.spool.getD []) := by
    rw [State.held, List.append_assoc]
  rw [State.held, hmid, hheld]
  exact List.perm_middle

/-- A prepared event that is taken by a sound service is added to what is held. -/
theorem Sound.ingestPrepared (h : Sound cfg s) (hfits : Fits s o) {last : Option String}
    {e' : AuditEvent} (hp : prepareEvent cfg s.lastEventHash e=(some e', last)) :
    (ingestEvent cfg o e s).1.isSome=true ∧ Sound cfg (ingestEvent cfg o e s).2 ∧
      (ingestEvent cfg o e s).2.held.Perm (e'::s.held) := by
  have he : Prepared cfg e' := prepareEvent_prepared hp
  have hs : Sound cfg { s with
      lastEventHash := last, connected := s.connected || o.connects } :=
    ⟨h.spool, h.buffered, h.spooled⟩
  obtain ⟨n, hflush⟩ := flushBuffer_prepared hs.buffered o.flushes
  have hsf := hs.flushed o.flushes
  have hheld := hs.held_flushed o.flushes
  simp only [AuditService.ingestEvent, hp]
  cases hc : s.connected || o.connects with
  | false =>
    rw [hc] at hs
    obtain ⟨hb, hperm⟩ := hs.bufferOrSpool hfits.1 he
    exact ⟨rfl, hb, hperm⟩
  | true =>
    rw [hc] at hflush hsf hheld
    simp only [if_true, hflush]
    cases hins : o.inserts with
    | false =>
      obtain ⟨hb, hperm⟩ := hsf.bufferOrSpool hfits.1 he
      rw [hheld] at hperm
      exact ⟨rfl, hb, hperm⟩
    | true =>
      obtain ⟨hrow, hperm⟩ := hsf.insertRow he
      rw [hheld] at hperm
      obtain ⟨hb, heq⟩ := hrow.inserted (o := o) (by
        intro hr
        rw [State.flushed_length, State.flushed_spool]
        exact hfits.2 hc hins hr) e'
      simp only [if_true]
      exact ⟨inserted_isSome _ _, hb, heq ▸ hperm⟩

end Conservation

structure Ledger where
  state : State := { spool := some [] }
  accepted : List AuditEvent := []

def Ledger.step (cfg : Config) (w : Ledger) (a : Outcomes × AuditEvent) : Ledger :=
  { state := (ingestEvent cfg a.1 a.2 w.state).2
    accepted :=
      match (ingestEvent cfg a.1 a.2 w.state).1 with
      | none => w.accepted
      | some _ => (prepareEvent cfg w.state.lastEventHash a.2).1.toList++w.accepted }

/-- The accepted events are those in the table, in the buffer and in the spool, each as
often as it was accepted. -/
def Ledger.Complete (w : Ledger) : Prop := w.accepted.Perm w.state.held

structure Ledger.Inv (cfg : Config) (w : Ledger) : Prop where
  sound : Sound cfg w.state
  complete : w.Complete

section Runs
variable {cfg : Config} {w : Ledger} {a : Outcomes × AuditEvent}

theorem Ledger.Inv.start : ({} : Ledger).Inv cfg where
  sound := ⟨rfl, fun e he => (by cases he), fun e he => (by cases he)⟩
  complete := List.Perm.refl _

theorem Ledger.Inv.step (hI : w.Inv cfg) (hfits : Fits w.state a.1) : (w.step cfg a).Inv cfg := by
  cases hp : prepareEvent cfg w.state.lastEventHash a.2 with
  | mk prepared last =>
    cases prepared with
    | none =>
      have hi : ingestEvent cfg a.1 a.2 w.state=(none, { w.state with lastEventHash := last }) := by
        simp only [ingestEvent, hp]
      refine ⟨?_, ?_⟩
      · simp only [Ledger.step, hi]
        exact ⟨hI.sound.spool, hI.sound.buffered, hI.sound.spooled⟩
      · simp only [Ledger.step, hi]
        exact hI.complete
    | some e =>
      obtain ⟨hsome, hsound, hperm⟩ := hI.sound.ingestPrepared hfits hp
      obtain ⟨r, hr⟩ := Option.isSome_iff_exists.mp hsome
      refine ⟨hsound, ?_⟩
      simp only [Ledger.Complete, Ledger.step, hr, hp]
      exact ((List.Perm.cons e hI.complete).trans hperm.symm)

/-- Along every run whose drains fit into the buffer nothing is lost and nothing is
stored twice. -/
theorem audit_complete (cfg : Config) (as : List (Outcomes × AuditEvent))
    (h : Trace.Along (Ledger.step cfg) (fun w a => Fits w.state a.1) {} as) :
    Trace.Along (Ledger.step cfg) (fun w a => (w.step cfg a).Complete) {} as := by
  refine Trace.Along.of_invariant (Ledger.Inv cfg) ?_ ?_ Ledger.Inv.start h
  · intro w a hI hfits
    exact hI.step hfits
  · intro w a hI hfits
    exact (hI.step hfits).complete

end Runs
/-! An outage longer than the buffer and the spool's drain can take. -/

def sampleConfig : Config := { digest := fun _ => ⟨"digest", by decide⟩ }

def sampleEvent : AuditEvent :=
  { ts := "2026-01-01T00:00:00+00:00", action := "instance.provisioned", resource := "lb-1"
    eventHash := some "5feceb66ffc86f38d952786c6d696c79c2dbc239dd4e91b46729d73a27fb57e9" }

def down : Outcomes := { connects := false }

theorem sampleEvent_prepared : Prepared sampleConfig sampleEvent := ⟨by decide, by decide⟩

structure Outage (n : Nat) (w : Ledger) : Prop where
  connected : w.state.connected=false
  last : w.state.lastEventHash=none
  buffer : w.state.buffer.items=List.replicate (min n bufferCap) sampleEvent
  spool : w.state.spool=some (List.replicate (n-bufferCap) sampleEvent)
  rows : w.state.rows=[]
  accepted : w.accepted=List.replicate n sampleEvent

theorem Outage.step {n : Nat} {w : Ledger} (h : Outage n w) :
    Outage (n+1) (w.step sampleConfig (down, sampleEvent)) := by
  obtain ⟨⟨connected, last, buffer, spool, rows⟩, accepted⟩ := w
  obtain ⟨hc, hl, hb, hs, hr, ha⟩ := h
  dsimp only at hc hl hb hs hr ha
  subst hc hl hs hr ha
  have hlen : buffer.items.length=min n bufferCap := by rw [hb, List.length_replicate]
  have hi : ingestEvent sampleConfig down sampleEvent
      { buffer, spool := some (List.replicate (n-bufferCap) sampleEvent) } =
      (some (bufferedReply sampleEvent), (bufferOrSpool down sampleEvent
        { buffer, spool := some (List.replicate (n-bufferCap) sampleEvent) }).2) := by
    simp only [ingestEvent, sampleEvent_prepared.prepareEvent]
    rfl
  have hacc : (prepareEvent sampleConfig none sampleEvent).1.toList++List.replicate n sampleEvent =
      List.replicate (n+1) sampleEvent := by
    rw [sampleEvent_prepared.prepareEvent]
    rfl
  by_cases hn : n < bufferCap
  · have hlt : buffer.items.length < bufferCap := by rw [hlen]; omega
    have hput : bufferOrSpool down sampleEvent
        { buffer, spool := some (List.replicate (n-bufferCap) sampleEvent) } =
        (.buffer, { buffer := buffer.append sampleEvent
                    spool := some (List.replicate (n-bufferCap) sampleEvent) }) := by
      rw [bufferOrSpool, if_pos hlt]
    have hmin : min (n+1) bufferCap=min n bufferCap+1 := by omega
    have hsub : n+1-bufferCap=n-bufferCap := by omega
    simp only [Ledger.step, hi, hput]
    refine ⟨rfl, rfl, ?_, by rw [hsub], rfl, hacc⟩
    rw [Deque.items_append_of_lt hlt, hb, hmin, List.replicate_succ']
  · have hge : ¬ buffer.items.length < bufferCap := by rw [hlen]; omega
    have hput : bufferOrSpool down sampleEvent
        { buffer, spool := some (List.replicate (n-bufferCap) sampleEvent) } =
        (.spool, { buffer, spool := some (List.replicate (n-bufferCap) sampleEvent++[sampleEvent]) }) := by
      rw [bufferOrSpool, if_neg hge]
      rfl
    have hmin : min (n+1) bufferCap=min n bufferCap := by omega
    have hsub : n+1-bufferCap=n-bufferCap+1 := by omega
    simp only [Ledger.step, hi, hput]
    refine ⟨rfl, rfl, by rw [hb, hmin], ?_, rfl, hacc⟩
    rw [hsub, List.replicate_succ']

theorem outage_run (n : Nat) :
    Outage n (Trace.exec (Ledger.step sampleConfig) {} (List.replicate n (down, sampleEvent))) := by
  induction n with
  | zero => exact ⟨rfl, rfl, rfl, rfl, rfl, rfl⟩
  | succ n ih =>
    rw [List.replicate_succ', Trace.exec_append]
    exact ih.step

def up : Outcomes := {}

theorem Outage.sound {n : Nat} {w : Ledger} (h : Outage n w) :
    Sound sampleConfig { w.state with connected := true } := by
  have hall : ∀ k, ∀ e∈List.replicate k sampleEvent, Prepared sampleConfig e := by
    intro k e he
    rw [List.eq_of_mem_replicate he]
    exact sampleEvent_prepared
  refine ⟨by rw [h.spool]; rfl, ?_, ?_⟩
  · rw [h.buffer]
    exact hall _
  · rw [h.spool, Option.getD_some]
    exact hall _

theorem Outage.ingest {n : Nat} {w : Ledger} (h : Outage n w) :
    ingestEvent sampleConfig up sampleEvent w.state =
      inserted sampleConfig up sampleEvent
        { State.flushed { w.state with connected := true } true with
          rows := (State.flushed { w.state with connected := true } true).rows++[row sampleEvent] } := by
  obtain ⟨m, hflush⟩ := flushBuffer_prepared h.sound.buffered true
  simp only [ingestEvent, sampleEvent_prepared.prepareEvent, up, Bool.or_true, if_true, hflush]

theorem Outage.accepts {n : Nat} {w : Ledger} (h : Outage n w) :
    (w.step sampleConfig (up, sampleEvent)).accepted.length=n+1 := by
  obtain ⟨r, hr⟩ : ∃ r, (ingestEvent sampleConfig up sampleEvent w.state).1=some r := by
    rw [h.ingest]
    exact Option.isSome_iff_exists.mp (inserted_isSome _ _)
  simp only [Ledger.step, hr, sampleEvent_prepared.prepareEvent, h.accepted, Option.toList_some,
    List.length_append, List.length_replicate, List.length_singleton]
  omega

theorem Outage.fits {n : Nat} {w : Ledger} (h : Outage n w) (hn : n ≤ 2*bufferCap) :
    Fits w.state up := by
  refine ⟨rfl, fun _ _ _ => ⟨?_, .inl rfl⟩⟩
  rw [h.spool, Option.getD_some, List.length_replicate, up, if_pos rfl]
  omega

/-- What the spool has taken moves to the table where the drain fits. -/
theorem Outage.drained {n : Nat} {w : Ledger} (h : Outage n w) (hn : n ≤ 2*bufferCap) :
    (w.step sampleConfig (up, sampleEvent)).state.buffer.items=[] ∧
      (w.step sampleConfig (up, sampleEvent)).state.spool=some [] := by
  obtain ⟨hrow, _⟩ := (h.sound.flushed true).insertRow sampleEvent_prepared
  have hlen : (State.flushed { w.state with connected := true } true).buffer.items.length+
      (List.replicate (n-bufferCap) sampleEvent).length ≤ bufferCap := by
    rw [State.flushed_length, if_pos rfl, List.length_replicate]
    omega
  simp only [Ledger.step, h.ingest]
  exact hrow.inserted_empty (o := up) h.spool hlen rfl rfl rfl sampleEvent

theorem outage_fits (n : Nat) : Trace.Along (Ledger.step sampleConfig)
    (fun w a => Fits w.state a.1) {} (List.replicate n (down, sampleEvent)) := by
  induction n with
  | zero => trivial
  | succ n ih =>
    rw [List.replicate_succ', Trace.Along.append_iff]
    refine ⟨ih, ⟨rfl, fun hc => ?_⟩, trivial⟩
    rw [(outage_run n).connected] at hc
    cases hc

/-- An outage with one event more than the buffer takes: it is spooled and drained. -/
theorem audit_complete_shortOutage :
    (Trace.exec (Ledger.step sampleConfig) {}
      (List.replicate (bufferCap+1) (down, sampleEvent))).state.spool=some [sampleEvent] ∧
    (Trace.exec (Ledger.step sampleConfig) {} (List.replicate (bufferCap+1) (down, sampleEvent)++
      [(up, sampleEvent)])).state.rows.length=bufferCap+2 ∧
    Trace.Along (Ledger.step sampleConfig) (fun w a => (w.step sampleConfig a).Complete) {}
      (List.replicate (bufferCap+1) (down, sampleEvent)++[(up, sampleEvent)]) := by
  have hrun := outage_run (bufferCap+1)
  have hfits : bufferCap+1 ≤ 2*bufferCap := by decide
  have hcomplete := audit_complete sampleConfig
    (List.replicate (bufferCap+1) (down, sampleEvent)++[(up, sampleEvent)])
    (Trace.Along.append_iff.mpr ⟨outage_fits _, hrun.fits hfits, trivial⟩)
  refine ⟨by rw [hrun.spool, Nat.add_sub_cancel_left]; rfl, ?_, hcomplete⟩
  obtain ⟨hbuffer, hspool⟩ := hrun.drained hfits
  have hlen := hcomplete.last.length_eq
  rw [State.held, hbuffer, hspool, Option.getD_some, List.append_nil, List.append_nil,
    List.length_map, hrun.accepts] at hlen
  rw [Trace.exec_append]
  exact hlen.symm

/-- One event more than the buffer takes is in the spool, and the drain loses one. -/
theorem Outage.recovery {w : Ledger} (h : Outage (2*bufferCap+1) w) :
    (w.step sampleConfig (up, sampleEvent)).state.held.length=2*bufferCap+1 := by
  obtain ⟨hrow, _⟩ := (h.sound.flushed true).insertRow sampleEvent_prepared
  have hheld := hrow.inserted_overflow h.spool rfl rfl (o := up) sampleEvent
  have hrows : ((State.flushed { w.state with connected := true } true).rows++
      [row sampleEvent]).length=bufferCap+1 := by
    have hmin : min (2*bufferCap+1) bufferCap=bufferCap := by omega
    calc
      ((State.flushed { w.state with connected := true } true).rows++[row sampleEvent]).length=
          (w.state.rows++w.state.buffer.items.map row).length+1 := List.length_append
      _=w.state.buffer.items.length+1 := by rw [h.rows, List.nil_append, List.length_map]
      _=bufferCap+1 := by rw [h.buffer, List.length_replicate, hmin]
  have hb : (State.flushed { w.state with connected := true } true).buffer.items=[] := rfl
  simp only [Ledger.step, h.ingest]
  rw [hheld, List.length_append, List.length_map, hrows, List.length_drop, hb, List.nil_append,
    List.length_nil, List.length_replicate]
  omega

/-- A long outage and a full recovery: every insert after it succeeds, and one of the
accepted events is in no place any more. -/
theorem recovery_loses_event :
    (Trace.exec (Ledger.step sampleConfig) {} (List.replicate (2*bufferCap+1) (down, sampleEvent)++
      [(up, sampleEvent)])).accepted.length=2*bufferCap+2 ∧
    (Trace.exec (Ledger.step sampleConfig) {} (List.replicate (2*bufferCap+1) (down, sampleEvent)++
      [(up, sampleEvent)])).state.held.length=2*bufferCap+1 ∧
    ¬ Trace.Along (Ledger.step sampleConfig) (fun w a => (w.step sampleConfig a).Complete) {}
      (List.replicate (2*bufferCap+1) (down, sampleEvent)++[(up, sampleEvent)]) := by
  have hacc := (outage_run (2*bufferCap+1)).accepts
  have hheld := (outage_run (2*bufferCap+1)).recovery
  rw [Trace.exec_append]
  refine ⟨hacc, hheld, ?_⟩
  intro h
  have hperm := h.last.length_eq
  rw [hacc, hheld] at hperm
  omega

end Sovereign.AuditService
