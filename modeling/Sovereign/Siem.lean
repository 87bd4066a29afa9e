import Mathlib.Data.List.Perm.Basic
import Sovereign.AuditCrash

/-! The copies that a SIEM gets. A call of `ingest_event` sends its event to the webhook as
its last act, after it has placed it. A request that fails, or that the SIEM answers with 400 or
more, is written to the log and not made again. -/
namespace Sovereign.AuditService
open Sovereign

/-- The settings that an export reads, when it is made. -/
structure Siem where
  siemWebhookUrl : String := ""
  siemWebhookToken : String := ""
deriving DecidableEq

structure SiemPost where
  url : String
  headers : List (String × String)
  body : Json

def eventJson (e : AuditEvent) : Json :=
  .obj (payloadMembers e++[("event_hash", optText e.eventHash),
    ("signature_key_id", optText e.signatureKeyId), ("signature", optText e.signature)])

def exportToSiem (s : Siem) (e : AuditEvent) : Option SiemPost :=
  if s.siemWebhookUrl="" then none
  else some
    { url := s.siemWebhookUrl
      headers := if s.siemWebhookToken="" then []
        else [("Authorization", "Bearer " ++ s.siemWebhookToken)]
      body := eventJson e }

def Stage.subject : Stage → Option AuditEvent
  | .posted _ | .chained _ => none
  | .prepared e | .flushing _ e | .inserting _ e _ | .requeueing _ e _ | .own e | .draining e
  | .refilling e _ | .placing e | .spilling e | .dropping e => some e

def prepares (cfg : Config) : Stage → Option AuditEvent
  | .chained c => signAuditEvent cfg c
  | _ => none

/-- What a call goes on to export when its last stage is over. The flush before the insert
ends a call only by raising. -/
def returned : Stage → Option Stage → Option AuditEvent
  | _, some _ => none
  | .flushing false _, none => none
  | st, none => st.subject

/-- An export that was made: the settings it read, its event and whether the SIEM took the
document, which the process does not learn. -/
structure Export where
  siem : Siem
  event : AuditEvent
  taken : Bool
deriving DecidableEq

/-- The process, with the calls that have placed their event and have still to export it.
`sent`, `accepted` and `lost` are the exports that were made, the events as they were prepared
and those whose call a crash cut off. -/
structure Exporter where
  process : Process := {}
  exporting : List AuditEvent := []
  sent : List Export := []
  accepted : List AuditEvent := []
  lost : List AuditEvent := []

inductive SiemEvent where
  | happens (a : Happening)
  | send (call : Nat) (siem : Siem) (taken : Bool)

namespace Exporter
variable (cfg : Config)

def subjects (d : Exporter) : List AuditEvent := d.process.calls.filterMap Stage.subject

def posts (d : Exporter) : List SiemPost := d.sent.filterMap fun x => exportToSiem x.siem x.event

/-- The requests whose document the SIEM took. -/
def held (d : Exporter) : List SiemPost :=
  (d.sent.filter Export.taken).filterMap fun x => exportToSiem x.siem x.event

def start (spooling : Bool) : Exporter :=
  { process := { state := { spool := if spooling then some [] else none } } }

def step (d : Exporter) : SiemEvent → Exporter
  | .happens (.turn (.post e)) => { d with process := d.process.step cfg (.post e) }
  | .happens (.turn (.run call ok also)) =>
    match d.process.calls[call]? with
    | none => d
    | some st =>
      let next := (advance cfg d.process.torn ok also d.process.state st).2
      { d with
        process := d.process.step cfg (.run call ok also)
        exporting := d.exporting++(returned st next).toList
        accepted := d.accepted++(prepares cfg st).toList }
  | .happens (.crash tears) =>
    { d with process := d.process.crashed tears, exporting := []
             lost := d.lost++(d.exporting++d.subjects) }
  | .send call siem taken =>
    match d.exporting[call]? with
    | none => d
    | some e =>
      { d with exporting := d.exporting.eraseIdx call, sent := d.sent++[⟨siem, e, taken⟩] }

end Exporter

/-! A step of a call, and the event that the call is about. -/

section Subject
variable {cfg : Config} {torn ok : Bool} {s : State} {st : Stage} {next : State × Option Stage}

theorem afterFlush_subject (again : Bool) (e : AuditEvent) :
    ((afterFlush again e).bind Stage.subject).toList++
      (returned (.flushing again e) (afterFlush again e)).toList=[e] := by
  cases again with
  | true => rfl
  | false => rfl

/-- A call keeps its event until it exports it. -/
theorem Advances.subject (h : Advances cfg torn ok s st next) :
    (next.2.bind Stage.subject).toList++(returned st next.2).toList=
      st.subject.toList++(prepares cfg st).toList := by
  cases h with
  | posted e => rfl
  | chained c =>
    rw [prepares]
    cases signAuditEvent cfg c with
    | none => rfl
    | some x => rfl
  | connected e => rfl
  | unconnected e => rfl
  | empty again e _ => exact afterFlush_subject again e
  | took again e _ => rfl
  | inserted again e rows =>
    cases again with
    | true => rfl
    | false => rfl
  | refused again e rows stored _ => rfl
  | requeued again e rows =>
    cases again with
    | true => rfl
    | false => rfl
  | stored e next hnext =>
    cases hnext with
    | inl hn => exact hn ▸ rfl
    | inr hn => exact hn ▸ rfl
  | unstored e stored _ => rfl
  | unspooled e => rfl
  | drained e spool events rest _ _ => rfl
  | refilled e => rfl
  | refills e x xs => rfl
  | placed e _ => rfl
  | full e => rfl
  | unspilled e => rfl
  | spilled e spool _ _ => rfl
  | dropped e => rfl

end Subject

theorem moved_perm {calls : List Stage} {call : Nat} {st : Stage} (h : calls[call]?=some st)
    (next : Option Stage) :
    calls.Perm ((some st).toList++calls.eraseIdx call) ∧
      (moved calls call next).Perm (next.toList++calls.eraseIdx call) := by
  obtain ⟨hlt, rfl⟩ := List.getElem?_eq_some_iff.mp h
  refine ⟨(List.getElem_cons_eraseIdx_perm hlt).symm, ?_⟩
  cases next with
  | none => exact List.Perm.refl _
  | some st' => exact List.set_perm_cons_eraseIdx hlt st'

theorem filterMap_toList {α β : Type*} (f : α → Option β) (o : Option α) :
    o.toList.filterMap f=(o.bind f).toList := by
  cases o with
  | none => rfl
  | some a =>
    rw [Option.toList_some, List.filterMap_cons, Option.bind_some]
    cases f a with
    | none => rfl
    | some b => rfl

namespace Exporter
variable {cfg : Config} {d : Exporter}

def Balanced (d : Exporter) : Prop :=
  (d.sent.map Export.event++(d.exporting++(d.subjects++d.lost))).Perm d.accepted

theorem Balanced.run (h : d.Balanced) (hbuffer : ∀ x∈d.process.state.buffer.items, Prepared cfg x)
    (call : Nat) (ok also : Bool) :
    (d.step cfg (.happens (.turn (.run call ok also)))).Balanced := by
  rw [step]
  split
  · exact h
  · next st hcall =>
    have hsubject := (advance_advances d.process.torn ok also hbuffer st).subject
    have hprocess : (d.process.step cfg (.run call ok also)).calls=
        moved d.process.calls call (advance cfg d.process.torn ok also d.process.state st).2 := by
      simp only [Process.step, hcall]
    generalize (advance cfg d.process.torn ok also d.process.state st).2=next at hsubject hprocess ⊢
    obtain ⟨hold, hnew⟩ := moved_perm hcall next
    rw [Balanced, List.perm_iff_count]
    intro x
    have hx := List.perm_iff_count.mp h x
    have hs := congrArg (List.count x) hsubject
    have ho := (hold.filterMap Stage.subject).count_eq x
    have hn := (hnew.filterMap Stage.subject).count_eq x
    simp only [List.filterMap_append, filterMap_toList, Option.bind_some, List.count_append]
      at ho hn hs
    simp only [subjects, hprocess, List.count_append] at hx ⊢
    omega

theorem Balanced.step (h : d.Balanced)
    (hbuffer : ∀ x∈d.process.state.buffer.items, Prepared cfg x) (a : SiemEvent) :
    (d.step cfg a).Balanced := by
  cases a with
  | happens a =>
    cases a with
    | turn t =>
      cases t with
      | post e =>
        have hsubjects : (d.step cfg (.happens (.turn (.post e)))).subjects=d.subjects := by
          simp [Exporter.step, subjects, Process.step, Stage.subject]
        rw [Balanced, hsubjects]
        exact h
      | run call ok also => exact h.run hbuffer call ok also
    | crash tears =>
      rw [Balanced, List.perm_iff_count]
      intro x
      have hx := List.perm_iff_count.mp h x
      simp only [Exporter.step, subjects, Process.crashed, List.count_append, List.filterMap_nil,
        List.count_nil] at hx ⊢
      omega
  | send call siem taken =>
    rw [Exporter.step]
    split
    · exact h
    · next e he =>
      obtain ⟨hlt, rfl⟩ := List.getElem?_eq_some_iff.mp he
      rw [Balanced, List.perm_iff_count]
      intro x
      have hx := List.perm_iff_count.mp h x
      have hperm := (List.getElem_cons_eraseIdx_perm hlt).count_eq x
      simp only [subjects, List.count_append, List.map_append, List.map_cons, List.map_nil,
        List.count_cons, List.count_nil] at hx hperm ⊢
      omega

def Posted (pre : List SiemEvent) (e : AuditEvent) : Prop := .happens (.turn (.post e))∈pre

structure Traced (cfg : Config) (pre : List SiemEvent) (d : Exporter) : Prop where
  ready : d.process.Ready cfg
  balanced : d.Balanced
  posted : ∀ e, .posted e∈d.process.calls → Posted pre e
  chained : ∀ c, .chained c∈d.process.calls →
    ∃ e last, Posted pre e ∧ (ensureChained cfg last e).1=c
  accepted : ∀ x∈d.accepted, ∃ e last, Posted pre e ∧ (prepareEvent cfg last e).1=some x
  waiting : ∀ x∈d.process.state.waiting, x∈d.accepted
  rows : ∀ r∈d.process.state.rows, eventFromRow r∈d.accepted
  calls : ∀ st∈d.process.calls, ∀ x∈st.events, x∈d.accepted

variable {pre : List SiemEvent}

theorem Traced.later (h : d.Traced cfg pre) (a : SiemEvent) : d.Traced cfg (pre++[a]) where
  ready := h.ready
  balanced := h.balanced
  posted := fun e he => List.mem_append_left _ (h.posted e he)
  chained := fun c hc => by
    obtain ⟨e, last, he, hl⟩ := h.chained c hc
    exact ⟨e, last, List.mem_append_left _ he, hl⟩
  accepted := fun x hx => by
    obtain ⟨e, last, he, hl⟩ := h.accepted x hx
    exact ⟨e, last, List.mem_append_left _ he, hl⟩
  waiting := h.waiting
  rows := h.rows
  calls := h.calls

theorem Traced.buffer (h : d.Traced cfg pre) :
    ∀ x∈d.process.state.buffer.items, Prepared cfg x :=
  fun x hx => h.ready.waiting x (mem_waiting.mpr (Or.inl hx))

/-- What the step of a call prepares is a posted event, prepared. -/
theorem Traced.prepares (h : d.Traced cfg pre) {st : Stage} (hst : st∈d.process.calls) :
    ∀ x∈(AuditService.prepares cfg st).toList,
      Prepared cfg x ∧ ∃ e last, Posted pre e ∧ (prepareEvent cfg last e).1=some x := by
  intro x hx
  cases st with
  | chained c =>
    have hsign : signAuditEvent cfg c=some x := Option.mem_toList.mp hx
    obtain ⟨e, last, he, hl⟩ := h.chained c hst
    refine ⟨signAuditEvent_prepared (h.ready.chained c hst) hsign, e, last, he, ?_⟩
    rw [prepareEvent, ← hsign, ← hl]
  | _ => cases hx

theorem Traced.run (h : d.Traced cfg pre) (call : Nat) (ok also : Bool) :
    (d.step cfg (.happens (.turn (.run call ok also)))).Traced cfg pre := by
  have hbalanced := h.balanced.run h.buffer call ok also
  have hready := h.ready.step (.run call ok also)
  rw [Exporter.step] at hbalanced ⊢
  rw [Process.step] at hready
  split at hbalanced
  · exact h
  · next st hcall =>
    simp only [hcall, Process.step] at hready hbalanced ⊢
    have hst : st∈d.process.calls := List.mem_of_getElem? hcall
    have hprepares := h.prepares hst
    have hadv := advance_advances d.process.torn ok also h.buffer st
    generalize advance cfg d.process.torn ok also d.process.state st=next at hready hbalanced hadv ⊢
    generalize hnew : (AuditService.prepares cfg st).toList=new at hprepares hbalanced ⊢
    have hold : d.accepted⊆d.accepted++new := List.subset_append_left _ _
    obtain ⟨hwaiting, hrows, hevents⟩ := hadv.carries
      (Q := fun x => Prepared cfg x ∧ x∈d.accepted++new)
      (R := fun r => eventFromRow r∈d.accepted++new) (fun x hx => hx.1)
      (fun x hx => by rw [hx.1.eventFromRow_row]; exact hx.2)
      (fun x hx => ⟨h.ready.waiting x hx, hold (h.waiting x hx)⟩)
      (fun r hr => hold (h.rows r hr))
      (fun x hx => ⟨h.ready.calls st hst x hx, hold (h.calls st hst x hx)⟩)
      (fun c hc e he => by
        have hmem : e∈new := by
          rw [← hnew, hc]
          exact Option.mem_toList.mpr he
        exact ⟨(hprepares e hmem).1, List.mem_append_right _ hmem⟩)
    refine ⟨hready, hbalanced, ?_, ?_, ?_, fun x hx => (hwaiting x hx).2, hrows, ?_⟩
    · intro e he
      obtain hm | hn := mem_moved he
      · exact h.posted e hm
      · by_cases hposted : ∃ e, st=.posted e
        · obtain ⟨e, rfl⟩ := hposted
          cases hadv
          cases hn
        · exact absurd ((hadv.underway fun e he => hposted ⟨e, he⟩).2 _ hn) id
    · intro c hc
      obtain hm | hn := mem_moved hc
      · exact h.chained c hm
      · by_cases hposted : ∃ e, st=.posted e
        · obtain ⟨e, rfl⟩ := hposted
          cases hadv
          cases hn
          exact ⟨e, _, h.posted e hst, rfl⟩
        · exact absurd ((hadv.underway fun e he => hposted ⟨e, he⟩).2 _ hn) id
    · intro x hx
      cases List.mem_append.mp hx with
      | inl hm => exact h.accepted x hm
      | inr hm => exact (hprepares x hm).2
    · intro st' hst' x hx
      obtain hm | hn := mem_moved hst'
      · exact hold (h.calls st' hm x hx)
      · exact (hevents st' hn x hx).2

theorem Traced.step (h : d.Traced cfg pre) (a : SiemEvent) :
    (d.step cfg a).Traced cfg (pre++[a]) := by
  have hbalanced := h.balanced.step h.buffer a
  have hlater := h.later a
  cases a with
  | happens a =>
    cases a with
    | turn t =>
      cases t with
      | post e =>
        have hcalls : ∀ st∈(d.process.step cfg (.post e)).calls,
            st∈d.process.calls ∨ st=.posted e := fun st hst =>
          (List.mem_append.mp hst).imp_right List.mem_singleton.mp
        refine ⟨h.ready.step (.post e), hbalanced, ?_, ?_, hlater.accepted, h.waiting, h.rows, ?_⟩
        · intro e' he'
          obtain hm | hn := hcalls _ he'
          · exact hlater.posted e' hm
          · cases hn
            exact List.mem_append_right _ (List.mem_singleton.mpr rfl)
        · intro c hc
          obtain hm | hn := hcalls _ hc
          · exact hlater.chained c hm
          · cases hn
        · intro st hst x hx
          obtain hm | rfl := hcalls st hst
          · exact h.calls st hm x hx
          · cases hx
      | run call ok also => exact (h.run call ok also).later _
    | crash tears =>
      refine ⟨h.ready.crashed tears, hbalanced, fun e he => (by cases he),
        fun c hc => (by cases hc), hlater.accepted, fun x hx => ?_, h.rows,
        fun st hst => (by cases hst)⟩
      exact h.waiting x (mem_waiting.mpr (Or.inr hx))
  | send call siem taken =>
    rw [Exporter.step] at hbalanced ⊢
    split at hbalanced
    · exact hlater
    · exact ⟨h.ready, hbalanced, hlater.posted, hlater.chained, hlater.accepted, h.waiting, h.rows,
        h.calls⟩

theorem Traced.start (cfg : Config) (spooling : Bool) : (start spooling).Traced cfg [] := by
  have hwaiting : ∀ x, x∉(Exporter.start spooling).process.state.waiting := by
    intro x hx
    cases spooling with
    | true => cases hx
    | false => cases hx
  have hready : (Exporter.start spooling).process.Ready cfg :=
    ⟨fun x hx => absurd hx (hwaiting x), fun st hst => (by cases hst), fun c hc => (by cases hc)⟩
  exact ⟨hready, List.Perm.refl _, fun e he => (by cases he), fun c hc => (by cases hc),
    fun x hx => (by cases hx), fun x hx => absurd hx (hwaiting x), fun r hr => (by cases hr),
    fun st hst => (by cases hst)⟩

theorem bodies_of_configured {sent : List Export} (hurl : ∀ x∈sent, x.siem.siemWebhookUrl≠"") :
    (sent.filterMap fun x => exportToSiem x.siem x.event).map SiemPost.body=
      (sent.map Export.event).map eventJson := by
  induction sent with
  | nil => rfl
  | cons x sent ih =>
    obtain ⟨hx, hsent⟩ := List.forall_mem_cons.mp hurl
    rw [List.filterMap_cons, List.map_cons, List.map_cons, ← ih hsent, exportToSiem, if_neg hx,
      List.map_cons]

theorem body_exportToSiem {siem : Siem} {e : AuditEvent} {post : SiemPost}
    (h : exportToSiem siem e=some post) : post.body=eventJson e := by
  rw [exportToSiem] at h
  split at h
  · cases h
  · cases h
    rfl

/-- The bodies of some exports are documents of their events, each of an export of its own. -/
theorem bodies_sublist (sent : List Export) :
    ((sent.filterMap fun x => exportToSiem x.siem x.event).map SiemPost.body).Sublist
      ((sent.map Export.event).map eventJson) := by
  induction sent with
  | nil => exact List.Sublist.refl _
  | cons x sent ih =>
    rw [List.filterMap_cons, List.map_cons, List.map_cons]
    cases hpost : exportToSiem x.siem x.event with
    | none => exact ih.cons _
    | some post =>
      rw [List.map_cons, body_exportToSiem hpost]
      exact ih.cons_cons _

/-- What the SIEM holds are documents of accepted events, no event's more often than the event
was accepted. -/
theorem Balanced.held (h : d.Balanced) :
    (d.held.map SiemPost.body).Subperm (d.accepted.map eventJson) := by
  have hsent : ((d.sent.map Export.event).map eventJson).Subperm (d.accepted.map eventJson) := by
    have hb := h.map eventJson
    rw [List.map_append] at hb
    exact (List.sublist_append_left _ _).subperm.trans hb.subperm
  have htaken : ((d.sent.filter Export.taken).map Export.event).Sublist
      (d.sent.map Export.event) := List.filter_sublist.map _
  exact (bodies_sublist _).subperm.trans ((htaken.map eventJson).subperm.trans hsent)

/-- Along every interleaving of calls and crashes, whatever the SIEM does with a request: every
event that was accepted is exported once, or its call has it still in hand or was cut off by a
crash; it is a posted event as it was prepared; the rows of the table are rows of accepted events;
and the SIEM holds nothing else than documents of accepted events. So when no call was cut off, all
have returned and the webhook was configured, the SIEM was sent the accepted events, each once,
and every row of the table is among them, hashes and signature as they are; and it holds them
all, once each, just when it took every request. -/
theorem siem_copies (cfg : Config) (spooling : Bool) (as : List SiemEvent) :
    let d := Trace.exec (Exporter.step cfg) (Exporter.start spooling) as
    (d.sent.map Export.event++(d.exporting++(d.subjects++d.lost))).Perm d.accepted ∧
    (∀ x∈d.accepted, ∃ e last, Posted as e ∧ (prepareEvent cfg last e).1=some x) ∧
    (∀ r∈d.process.state.rows, eventFromRow r∈d.accepted) ∧
    (d.held.map SiemPost.body).Subperm (d.accepted.map eventJson) ∧
    (d.lost=[] → d.exporting=[] → d.process.calls=[] →
      (∀ x∈d.sent, x.siem.siemWebhookUrl≠"") →
      (d.posts.map SiemPost.body).Perm (d.accepted.map eventJson) ∧
      (∀ r∈d.process.state.rows, eventJson (eventFromRow r)∈d.posts.map SiemPost.body) ∧
      ((d.held.map SiemPost.body).Perm (d.accepted.map eventJson) ↔ ∀ x∈d.sent, x.taken)) := by
  intro d
  have h : d.Traced cfg as := Trace.exec_history (fun pre d => Traced cfg pre d)
    (fun pre s a hs => hs.step a) (Traced.start cfg spooling) as
  refine ⟨h.balanced, h.accepted, h.rows, h.balanced.held, fun hlost hexporting hcalls hurl => ?_⟩
  have hsent : (d.sent.map Export.event).Perm d.accepted := by
    have hb := h.balanced
    rwa [Balanced, subjects, hlost, hexporting, hcalls, List.filterMap_nil, List.append_nil,
      List.append_nil, List.append_nil] at hb
  have hposts : d.posts.map SiemPost.body=(d.sent.map Export.event).map eventJson :=
    bodies_of_configured hurl
  have hheld : d.held.map SiemPost.body=
      ((d.sent.filter Export.taken).map Export.event).map eventJson :=
    bodies_of_configured fun x hx => hurl x (List.mem_of_mem_filter hx)
  rw [hposts, hheld]
  refine ⟨hsent.map eventJson,
    fun r hr => List.mem_map_of_mem (hsent.mem_iff.mpr (h.rows r hr)),
    fun hall => ?_, fun hall => ?_⟩
  · have hlength := hall.length_eq
    rw [List.length_map, List.length_map, List.length_map, ← hsent.length_eq, List.length_map]
      at hlength
    exact List.length_filter_eq_length_iff.mp hlength
  · rw [List.filter_eq_self.mpr hall]
    exact hsent.map eventJson

def webhook : Siem := { siemWebhookUrl := "https://siem.example.gov/audit" }

/-- ClickHouse is away at the first call, which buffers its event, and back at the second, which
stores both. The SIEM takes the first document and refuses the second. -/
def refusedRun : List SiemEvent :=
  (buffered sampleEvent).map .happens++.send 0 webhook true::
    (opened spilledEvent true++List.replicate 3 (Happening.turn (.run 0 true true))).map .happens++
      [.send 0 webhook false]

theorem siem_copies_refused :
    let d := Trace.exec (Exporter.step sampleConfig) (Exporter.start false) refusedRun
    d.process.state.rows=[row sampleEvent, row spilledEvent] ∧
    (∀ r∈d.process.state.rows, eventJson (eventFromRow r)∈d.posts.map SiemPost.body) ∧
    ¬(d.held.map SiemPost.body).Perm (d.accepted.map eventJson) := by
  intro d
  obtain ⟨-, -, -, -, hcopies⟩ := siem_copies sampleConfig false refusedRun
  have hcalls : d.process.calls.isEmpty=true := by decide +kernel
  obtain ⟨-, hrows, hheld⟩ := hcopies (by decide +kernel) (by decide +kernel)
    (List.isEmpty_iff.mp hcalls) (by decide +kernel)
  exact ⟨by decide +kernel, hrows, fun hall => absurd (hheld.mp hall) (by decide +kernel)⟩

end Exporter
end Sovereign.AuditService
