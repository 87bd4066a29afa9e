import Sovereign.AuditCrash
import Sovereign.SpoolFile

/-! A flush whose insert fails puts its rows back. Other calls may have appended to the buffer
meanwhile, and the two need not fit. -/
namespace Sovereign.AuditService
open Sovereign JsonText AuditSpool

structure TextRow where
  ts : String
  tenantId : String
  actor : String
  action : String
  resource : String
  decision : String
  metadata : List Char
  previousHash : Option String
  eventHash : String
  signatureKeyId : Option String
  signature : Option String
deriving DecidableEq

def textRow (n : Numbers) (e : AuditEvent) : TextRow :=
  { ts := e.ts, tenantId := e.tenantId, actor := e.actor, action := e.action
    resource := e.resource, decision := e.decision
    metadata := dumps n (Json.sortKeys (.obj e.metadata))
    previousHash := e.previousHash, eventHash := e.eventHash.getD ""
    signatureKeyId := e.signatureKeyId, signature := e.signature }

/-- `json.loads(row[6]) if row[6] else {}`; `none` when the text is no dict. -/
def readMetadata (n : Numbers) (text : List Char) : Option (List (String × Json)) :=
  if text=[] then some []
  else
    match loads n text with
    | some (.obj members) => some members
    | _ => none

/-- `_event_from_row`; `none` when it raises. -/
def eventFromTextRow (n : Numbers) (r : TextRow) : Option AuditEvent :=
  (readMetadata n r.metadata).map fun metadata =>
    { ts := r.ts, tenantId := r.tenantId, actor := r.actor, action := r.action
      resource := r.resource, decision := r.decision, metadata
      previousHash := r.previousHash, eventHash := some r.eventHash
      signatureKeyId := r.signatureKeyId, signature := r.signature }

theorem dumps_obj_ne_nil (n : Numbers) (members : List (String × Json)) :
    dumps n (.obj members)≠[] := by
  cases members with
  | nil =>
    rw [dumps]
    exact List.cons_ne_nil _ _
  | cons m members =>
    rw [dumps]
    exact List.cons_ne_nil _ _

theorem eventFromTextRow_textRow (n : Numbers) {cfg : Config} {e : AuditEvent}
    (he : Prepared cfg e) (hm : NumericMembers n e.metadata) :
    eventFromTextRow n (textRow n e)=some (sortMetadata e) := by
  have hnumeric : Numeric n (Json.sortKeys (.obj e.metadata)) := by
    refine numeric_sortKeys ?_
    rwa [Numeric]
  have hread : readMetadata n (dumps n (Json.sortKeys (.obj e.metadata)))=
      some (sortMetadata e).metadata := by
    rw [readMetadata, loads_dumps hnumeric, Json.sortKeys, if_neg (dumps_obj_ne_nil n _)]
    rfl
  have hhash : some (e.eventHash.getD "")=e.eventHash := by
    have hc := he.chained
    cases hh : e.eventHash with
    | none => simp [hh, present] at hc
    | some h => rfl
  rw [eventFromTextRow, textRow, hread, hhash]
  rfl

theorem requeue_eq_prepend (rows : List Row) (b : Deque AuditEvent bufferCap) :
    requeue rows b=b.prepend (rows.map eventFromRow) := by
  induction rows with
  | nil => rfl
  | cons r rows ih => rw [requeue_cons, List.map_cons, Deque.prepend_cons, ih, Deque.replaceleft]

/-- What a flush takes leaves nothing behind. -/
theorem takeRows_emptied {cfg : Config} {es : List AuditEvent} {last : Option String}
    {taken rows : List Row} (h : (takeRows cfg es last taken).1=some rows) :
    (takeRows cfg es last taken).2.1=[] ∧ rows.length=taken.length+es.length := by
  induction es generalizing last taken with
  | nil =>
    cases h
    exact ⟨rfl, rfl⟩
  | cons e es ih =>
    rw [takeRows] at h ⊢
    cases hp : prepareEvent cfg last e with
    | mk prepared last' =>
      rw [hp] at h
      cases prepared with
      | none => cases h
      | some e' =>
        obtain ⟨hleft, hlen⟩ := ih h
        refine ⟨hleft, ?_⟩
        rw [hlen, List.length_append, List.length_singleton, List.length_cons]
        omega

/-- The newest of the events put back and of those appended since, in order. -/
structure Requeued (taken appended : List AuditEvent) (b : Deque AuditEvent bufferCap) : Prop where
  newest : b.items=(taken++appended).drop (taken.length+appended.length-bufferCap)
  complete : taken.length+appended.length ≤ bufferCap → b.items=taken++appended
  distinct : (taken++appended).Nodup → b.items.Nodup

theorem requeued_iff {taken appended : List AuditEvent} {b : Deque AuditEvent bufferCap} :
    Requeued taken appended b ↔
      b.items=(taken++appended).drop (taken.length+appended.length-bufferCap) := by
  constructor
  · exact fun h => h.newest
  · intro h
    refine ⟨h, fun hfit => ?_, fun hnodup => ?_⟩
    · rw [h, Nat.sub_eq_zero_of_le hfit, List.drop_zero]
    · rw [h]
      exact hnodup.sublist (List.drop_sublist _ _)

/-- What of the appended events a full buffer has dropped is not among the last ones. -/
theorem drop_extend (xs ys : List AuditEvent) :
    (xs++ys).drop (xs.length+ys.length-bufferCap) =
      (xs++((Deque.empty : Deque AuditEvent bufferCap).extend ys).items).drop
        (xs.length+((Deque.empty : Deque AuditEvent bufferCap).extend ys).items.length-
          bufferCap) := by
  have hitems : ((Deque.empty : Deque AuditEvent bufferCap).extend ys).items=
      ys.drop (ys.length-bufferCap) := by
    rw [Deque.items_extend]
    simp [Deque.empty]
  rw [hitems, List.length_drop]
  by_cases hfit : ys.length ≤ bufferCap
  · have hzero : ys.length-bufferCap=0 := by omega
    rw [hzero, List.drop_zero, Nat.sub_zero]
  · have hl : xs.length+ys.length-bufferCap=xs.length+(ys.length-bufferCap) := by omega
    have hr : xs.length+(ys.length-(ys.length-bufferCap))-bufferCap=xs.length := by omega
    rw [hl, hr, List.drop_length_add_append, List.drop_left]

theorem requeued_requeue_iff (r : Row) (rows : List Row) (appended : List AuditEvent) :
    Requeued ((r::rows).map eventFromRow) appended
        (requeue (r::rows) (Deque.empty.extend appended)) ↔
      (r::rows).length+appended.length ≤ bufferCap ∨ some (eventFromRow r)=
        ((r::rows).map eventFromRow++appended)[(r::rows).length+appended.length-bufferCap]? := by
  have hdrop := drop_extend ((r::rows).map eventFromRow) appended
  have hlen : ((r::rows).map eventFromRow).length=(r::rows).length := List.length_map _
  have hhead := congrArg List.head? hdrop
  rw [List.head?_drop, List.head?_drop] at hhead
  rw [requeued_iff, requeue_eq_prepend, hdrop, ← hlen, hhead, List.map_cons,
    Deque.prepend_newest_iff _ _ _ (by decide)]
  have hfit : (eventFromRow r::rows.map eventFromRow).length+
      ((Deque.empty : Deque AuditEvent bufferCap).extend appended).items.length ≤ bufferCap ↔
      (eventFromRow r::rows.map eventFromRow).length+appended.length ≤ bufferCap := by
    rw [Deque.items_extend]
    simp only [Deque.empty, List.nil_append, List.length_drop, List.length_nil, Nat.zero_add,
      List.length_cons]
    omega
  rw [hfit]

/-- A flush that comes to its insert has taken the whole buffer. -/
theorem advance_inserting {cfg : Config} {torn ok also again : Bool} {s : State} {e : AuditEvent}
    {rows : List Row}
    (h : (advance cfg torn ok also s (.flushing again e)).2=some (.inserting again e rows)) :
    rows≠[] ∧ (takeRows cfg s.buffer.items s.lastEventHash []).1=some rows ∧
      (advance cfg torn ok also s (.flushing again e)).1.buffer=Deque.empty := by
  have htaken : rows≠[] ∧ (takeRows cfg s.buffer.items s.lastEventHash []).1=some rows := by
    simp only [advance] at h
    split at h
    · split at h
      · cases h
      · cases h
    · cases again with
      | true => cases h
      | false => cases h
    · next hne ht =>
      cases h
      exact ⟨fun hnil => hne hnil, ht⟩
  obtain ⟨hne, ht⟩ := htaken
  refine ⟨hne, ht, Deque.ext ?_⟩
  simp only [advance, ht]
  cases rows with
  | nil => exact absurd rfl hne
  | cons r rows => exact (takeRows_emptied ht).1

/-- The buffer of a failed flush holds the newest events exactly if all fit, or the oldest one
taken is equal to the oldest one that ought to stay. -/
theorem requeue_newest_iff (n : Numbers) {cfg : Config} {torn ok also again : Bool} {s : State}
    {e : AuditEvent} {rows : List Row}
    (h : (advance cfg torn ok also s (.flushing again e)).2=some (.inserting again e rows))
    (appended : List AuditEvent) {s' : State}
    (hs : s'.buffer=(advance cfg torn ok also s (.flushing again e)).1.buffer.extend appended) :
    rows.length=s.buffer.items.length ∧
    ((∀ x∈s.buffer.items, Prepared cfg x) → rows.map eventFromRow=s.buffer.items) ∧
    (∀ x, Prepared cfg x → NumericMembers n x.metadata →
      eventFromTextRow n (textRow n x)=some (sortMetadata x)) ∧
    (Requeued (rows.map eventFromRow) appended
        (advance cfg torn ok also s' (.requeueing again e rows)).1.buffer ↔
      s.buffer.items.length+appended.length ≤ bufferCap ∨ (rows.map eventFromRow).head?=
        (rows.map eventFromRow++appended)[s.buffer.items.length+appended.length-bufferCap]?) := by
  obtain ⟨hne, ht, hbuffer⟩ := advance_inserting h
  have hlen := (takeRows_emptied ht).2
  rw [List.length_nil, Nat.zero_add] at hlen
  refine ⟨hlen, ?_, fun x hx hm => eventFromTextRow_textRow n hx hm, ?_⟩
  · intro hp
    have htake := takeRows_prepared hp s.lastEventHash []
    rw [htake, List.nil_append] at ht
    rw [← Option.some.inj ht]
    exact map_eventFromRow hp
  · rw [advance, hs, hbuffer, ← hlen]
    cases rows with
    | nil => exact absurd rfl hne
    | cons r rows => exact requeued_requeue_iff r rows appended

/-- Two events with room for them. -/
theorem requeue_newest_room :
    Requeued [sampleEvent] [deniedEvent]
      (requeue [row sampleEvent] (Deque.empty.extend [deniedEvent])) := by
  have htake : (advance sampleConfig false false false { buffer := Deque.empty.append sampleEvent }
      (.flushing false sampleEvent)).2=some (.inserting false sampleEvent [row sampleEvent]) := by
    decide +kernel
  have hs : ({ buffer := Deque.empty.extend [deniedEvent] } : State).buffer=
      (advance sampleConfig false false false { buffer := Deque.empty.append sampleEvent }
        (.flushing false sampleEvent)).1.buffer.extend [deniedEvent] :=
    Deque.ext (by decide +kernel)
  have h := requeue_newest_iff noNumbers htake [deniedEvent] hs
  exact h.2.2.2.mpr (Or.inl (by decide +kernel))

/-- Two events taken, and 999 more meanwhile: the older one of the two is kept, and the newer one
is dropped. -/
theorem requeue_keeps_oldest :
    (requeue [row sampleEvent, row spilledEvent]
      (Deque.empty.extend (List.replicate 999 deniedEvent))).items=
        sampleEvent::List.replicate 999 deniedEvent ∧
    ¬ Requeued [sampleEvent, spilledEvent] (List.replicate 999 deniedEvent)
      (requeue [row sampleEvent, row spilledEvent]
        (Deque.empty.extend (List.replicate 999 deniedEvent))) := by
  have hfits : (Deque.empty : Deque AuditEvent bufferCap).items.length+
      (List.replicate 999 deniedEvent).length ≤ bufferCap := by
    rw [List.length_replicate]
    decide
  have hitems : ((Deque.empty : Deque AuditEvent bufferCap).extend
      (List.replicate 999 deniedEvent)).items=List.replicate 999 deniedEvent := by
    rw [Deque.items_extend_of_fits hfits]
    rfl
  refine ⟨?_, fun h => ?_⟩
  · have hfull : bufferCap < [sampleEvent, spilledEvent].length+
        ((Deque.empty : Deque AuditEvent bufferCap).extend
          (List.replicate 999 deniedEvent)).items.length := by
      rw [hitems, List.length_replicate]
      decide
    have hprepend := Deque.items_prepend_of_full (by decide) hfull
    rw [hitems, List.length_replicate] at hprepend
    rw [requeue_eq_prepend]
    exact hprepend
  · have hiff := (requeued_requeue_iff (row sampleEvent) [row spilledEvent]
      (List.replicate 999 deniedEvent)).mp h
    rw [List.length_replicate] at hiff
    revert hiff
    decide +kernel

end Sovereign.AuditService
