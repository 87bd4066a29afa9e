import Sovereign.SideTables
import Sovereign.Interleaving
import Sovereign.Ownership

/-! Bindings live in a table of their own, keyed by binding id, and only the instance in
the path of a request is checked. A bind or unbind may therefore hit the binding of
another instance, and an instance may go while bindings of it are stored. -/
namespace Sovereign.Broker
open Sovereign Policy

def Request.binding : Request → Option (String × String)
  | .bind instanceId bindingId _ => some (instanceId, bindingId)
  | .unbind instanceId bindingId => some (instanceId, bindingId)
  | _ => none

def KeepsForeign (hash : String → Nat) (s : State) (a : Env × Event) : Prop :=
  ∀ caller req instanceId bindingId, requested a=some (caller, req) →
    req.binding=some (instanceId, bindingId) →
    ∀ x∈s.tables.bindings, x.instanceId≠instanceId → x∈(step hash s a).tables.bindings

def NamesOwn (s : State) (a : Env × Event) : Prop :=
  ∀ caller req instanceId bindingId, requested a=some (caller, req) →
    req.binding=some (instanceId, bindingId) →
    bindingAdmitted a.1 caller instanceId s.tables=false ∨
    ∀ x∈s.tables.bindings, x.bindingId=bindingId → x.instanceId=instanceId

theorem mem_dropBinding {bindingId : String} {bindings : List Binding} {x : Binding} :
    x∈dropBinding bindingId bindings ↔ x∈bindings ∧ x.bindingId≠bindingId := by
  simp [dropBinding]

section Step
variable {hash : String → Nat} {s : State} {a : Env × Event}

/-- An admitted bind or unbind replaces or drops whatever stands under its binding id; a
refused one leaves the bindings as they are. -/
theorem bindings_request (hash : String → Nat) {caller : Caller} {req : Request} {instanceId bindingId : String}
    (hr : requested a=some (caller, req)) (hb : req.binding=some (instanceId, bindingId)) :
    (bindingAdmitted a.1 caller instanceId s.tables=false ∧
      (step hash s a).tables.bindings=s.tables.bindings) ∨
    (bindingAdmitted a.1 caller instanceId s.tables=true ∧
      ∃ new : List Binding, (∀ x∈new, x.instanceId=instanceId) ∧
        (step hash s a).tables.bindings=new++dropBinding bindingId s.tables.bindings) := by
  rw [step_segment (segment_requested hr)]
  cases ha : bindingAdmitted a.1 caller instanceId s.tables with
  | false =>
    have hp : (serve a.1 caller s.tables req).Plain := by
      cases req with
      | bind i b r =>
        cases hb
        exact bind_refused bindingId r ha
      | unbind i b =>
        cases hb
        exact unbind_refused bindingId ha
      | provision i r b => cases hb
      | update i r => cases hb
      | deprovision i => cases hb
      | reconcile i n => cases hb
    exact Or.inl ⟨rfl, (tables_plain hash hp.writes s.tables).1⟩
  | true =>
    refine Or.inr ⟨rfl, ?_⟩
    cases req with
    | bind i b r =>
      cases hb
      obtain ⟨x, record, hx, hbx, hw, _⟩ := bind_effect bindingId r ha
      refine ⟨[x], by simpa using hx, ?_⟩
      simp only [State.run, serve, hw]
      rw [← hbx]
      rfl
    | unbind i b =>
      cases hb
      obtain ⟨record, hw, _⟩ := unbind_effect bindingId ha
      refine ⟨[], by simp, ?_⟩
      simp only [State.run, serve, hw]
      rfl
    | provision i r b => cases hb
    | update i r => cases hb
    | deprovision i => cases hb
    | reconcile i n => cases hb

theorem keepsForeign_iff : KeepsForeign hash s a ↔ NamesOwn s a := by
  refine forall_congr' fun caller => forall_congr' fun req => forall_congr' fun instanceId =>
    forall_congr' fun bindingId => forall_congr' fun hr => forall_congr' fun hb => ?_
  obtain ⟨ha, he⟩ | ⟨ha, new, hnew, he⟩ := bindings_request hash hr hb
  · rw [ha, he]
    exact ⟨fun _ => Or.inl rfl, fun _ x hx _ => hx⟩
  · rw [ha, he]
    constructor
    · intro h
      refine Or.inr fun x hx hid => ?_
      by_contra hne
      cases List.mem_append.mp (h x hx hne) with
      | inl hx => exact hne (hnew x hx)
      | inr hx => exact (mem_dropBinding.mp hx).2 hid
    · intro h x hx hne
      cases h with
      | inl h => cases h
      | inr h =>
        exact List.mem_append_right new
          (mem_dropBinding.mpr ⟨hx, fun hid => hne (h x hx hid)⟩)

end Step

/-- Along every run, the binds and unbinds leave the bindings of other instances alone
exactly when each of them is refused or names a binding id that no other instance uses. -/
theorem binding_ownership_iff (hash : String → Nat) (as : List (Env × Event)) :
    Trace.Along (step hash) (KeepsForeign hash) {} as ↔
      Trace.Along (step hash) NamesOwn {} as :=
  Trace.Along.iff_of_invariant (fun _ => True) (fun _ _ _ _ => trivial)
    (fun _ _ _ => keepsForeign_iff) trivial as

def provisionOf (auth : AuthHeader) (instanceId organizationGuid : String) : Env × Event :=
  (bureauEnv, .request auth (.provision instanceId
    { serviceId := "sovereign-envoy-lb", planId := "standard-regional"
      organizationGuid := some organizationGuid } false))

def bindOf (auth : AuthHeader) (instanceId bindingId : String) : Env × Event :=
  (bureauEnv, .request auth (.bind instanceId bindingId {}))

def unbindOf (auth : AuthHeader) (instanceId bindingId : String) : Env × Event :=
  (bureauEnv, .request auth (.unbind instanceId bindingId))

def twoBureausRun : List (Env × Event) :=
  [provisionOf alice "lb-1" "treasury", provisionOf bob "lb-2" "energy",
    bindOf alice "lb-1" "app"]

/-- Bob, with no role at `treasury`, unbinds `app` from his own instance and removes
Alice's binding. -/
theorem foreign_binding_removed :
    bureauEnv.directory.can "bob" "treasury" .bind=false ∧
    ((Trace.exec (step fun _ => 0) {} twoBureausRun).tables.bindings.map fun x =>
      (x.bindingId, x.instanceId))=[("app", "lb-1")] ∧
    (Trace.exec (step fun _ => 0) {}
      (twoBureausRun++[unbindOf bob "lb-2" "app"])).tables.bindings.isEmpty=true ∧
    ¬ Trace.Along (step fun _ => 0) (KeepsForeign fun _ => 0) {}
      (twoBureausRun++[unbindOf bob "lb-2" "app"]) := by
  refine ⟨by decide, by decide +kernel, by decide +kernel, ?_⟩
  intro h
  have hb : ((Trace.exec (step fun _ => 0) {} twoBureausRun).tables.bindings.map fun x =>
      (x.bindingId, x.instanceId))=[("app", "lb-1")] := by decide +kernel
  obtain ⟨x, rest, hx, hxe, _⟩ := List.map_eq_cons_iff.mp hb
  have hne : x.instanceId≠"lb-2" := by
    rw [(Prod.mk.inj hxe).2]
    decide
  have hmem := h.last bobCaller (.unbind "lb-2" "app") "lb-2" "app" rfl rfl x
    (by rw [hx]; exact List.mem_cons_self) hne
  have hnil : (step (fun _ => 0) (Trace.exec (step fun _ => 0) {} twoBureausRun)
      (unbindOf bob "lb-2" "app")).tables.bindings.isEmpty=true := by decide +kernel
  rw [List.isEmpty_iff.mp hnil] at hmem
  cases hmem

def bound (s : State) (a : Env × Event) : List String :=
  match segment a.1 s a.2 with
  | none => []
  | some (_, seg) => seg.writes.filterMap boundId
where
  boundId : Write → Option String
    | .putBinding b => some b.bindingId
    | _ => none

/-- A run, with the binding ids whose instance was missing in some state since they were
last bound. -/
structure Tenure where
  state : State := {}
  lapsed : String → Bool := fun _ => false

def Tenure.step (hash : String → Nat) (w : Tenure) (a : Env × Event) : Tenure :=
  let s := Broker.step hash w.state a
  { state := s
    lapsed := fun b => (!decide (b∈bound w.state a) && w.lapsed b) ||
      s.tables.bindings.any fun x =>
        decide (x.bindingId=b) && (Store.stored s.tables.rows x.instanceId).isNone }

def Tenure.Anchored (w : Tenure) : Prop :=
  ∀ x∈w.state.tables.bindings, (Store.stored w.state.tables.rows x.instanceId).isSome=true ∧
    w.lapsed x.bindingId=false

instance (w : Tenure) : Decidable w.Anchored :=
  inferInstanceAs (Decidable (∀ x∈w.state.tables.bindings, _ ∧ _))

def Unbound (s : State) (a : Env × Event) : Prop :=
  ∀ i∈deprovisioned s a, ∀ x∈s.tables.bindings, x.instanceId≠i

structure Tenure.Inv (w : Tenure) : Prop where
  wellFormed : Store.WellFormed w.state.tables.rows
  anchored : w.Anchored

section Tenure
variable {hash : String → Nat} {s : State} {a : Env × Event} {w : Tenure}

theorem stored_of_bindingAdmitted {env : Env} {caller : Caller} {instanceId : String} {t : Tables}
    (h : bindingAdmitted env caller instanceId t=true) :
    (Store.stored t.rows instanceId).isSome=true := by
  obtain ⟨inst, _, hst, _⟩ := withBinding_admitted internalError (fun _ _ => {}) h
  rw [hst]
  rfl

theorem deprovisioned_requested {caller : Caller} {req : Request}
    (hr : requested a=some (caller, req)) (hne : ∀ i, req≠.deprovision i) :
    deprovisioned s a=none := by
  obtain ⟨env, event⟩ := a
  obtain ⟨auth, he⟩ := requested_event hr
  have he' : event=.request auth req := he
  rw [he']
  exact deprovisioned_of_request hne

/-- The bindings stay as they are, but for the admitted binds and unbinds. -/
theorem bindings_step (hash : String → Nat) (s : State) (a : Env × Event) :
    (step hash s a).tables.bindings=s.tables.bindings ∨
    (∃ caller x req, requested a=some (caller, .bind x.instanceId x.bindingId req) ∧
      bindingAdmitted a.1 caller x.instanceId s.tables=true ∧ x.bindingId∈bound s a ∧
      (step hash s a).tables.bindings=x::dropBinding x.bindingId s.tables.bindings) ∨
    (∃ caller instanceId bindingId, requested a=some (caller, .unbind instanceId bindingId) ∧
      (step hash s a).tables.bindings=dropBinding bindingId s.tables.bindings) := by
  cases step_side s a with
  | stuck eq => exact Or.inl (by rw [step, eq])
  | plain resumed seg eq hp hc hf =>
    rw [step_segment eq]
    exact Or.inl (tables_plain hash hp.writes s.tables).1
  | provision c background seg eq hc hw ht =>
    rw [step_segment eq]
    exact Or.inl (tables_plain hash hw s.tables).1
  | bind caller x req record seg eq hr ha hw ht =>
    refine Or.inr (Or.inl ⟨caller, x, req, hr, ha, ?_, ?_⟩)
    · simp [bound, eq, hw, bound.boundId]
    · rw [step_segment eq]
      simp only [State.run, hw]
      rfl
  | unbind caller instanceId bindingId record seg eq hr ha hw ht =>
    refine Or.inr (Or.inr ⟨caller, instanceId, bindingId, hr, ?_⟩)
    rw [step_segment eq]
    simp only [State.run, hw]
    rfl
  | finish id inst y caller tenantId background record seg eq hl hf htouched hservice hw ht =>
    left
    rw [step_segment eq]
    simp only [State.run, hw]
    cases a.1.faults.metering with
    | true => rfl
    | false => rfl

/-- A binding after a step was there before, or is bound now to a stored instance. -/
theorem mem_bindings_step {x : Binding} (h : x∈(step hash s a).tables.bindings) :
    x∈s.tables.bindings ∨ (x.bindingId∈bound s a ∧ deprovisioned s a=none ∧
      (Store.stored s.tables.rows x.instanceId).isSome=true) := by
  obtain he | ⟨caller, y, req, hr, ha, hb, he⟩ | ⟨caller, i, b, hr, he⟩ := bindings_step hash s a
  · exact Or.inl (he ▸ h)
  · rw [he] at h
    cases List.mem_cons.mp h with
    | inl hxy =>
      subst hxy
      exact Or.inr ⟨hb, deprovisioned_requested hr (by simp), stored_of_bindingAdmitted ha⟩
    | inr hx => exact Or.inl (mem_dropBinding.mp hx).1
  · rw [he] at h
    exact Or.inl (mem_dropBinding.mp h).1

theorem bindings_deprovisioned {i : String} (h : deprovisioned s a=some i) :
    (step hash s a).tables.bindings=s.tables.bindings := by
  obtain he | ⟨caller, y, req, hr, _⟩ | ⟨caller, i, b, hr, _⟩ := bindings_step hash s a
  · exact he
  · rw [deprovisioned_requested hr (by simp)] at h
    cases h
  · rw [deprovisioned_requested hr (by simp)] at h
    cases h

/-- Only an acknowledged deprovision takes a record away. -/
theorem stored_step (hash : String → Nat) (hw : Store.WellFormed s.tables.rows) {i : String}
    (h : (Store.stored s.tables.rows i).isSome=true) (hd : deprovisioned s a≠some i) :
    (Store.stored (step hash s a).tables.rows i).isSome=true := by
  have hkept : (abs (step hash s a)).table i=(abs s).table i →
      (Store.stored (step hash s a).tables.rows i).isSome=true :=
    fun he => (congrArg Option.isSome he).trans h
  cases step_kind hash hw a with
  | quiet hc hu hd' hp hq =>
    obtain he | ⟨x, c, hx, _⟩ := hq.table i
    · exact hkept he
    · exact Option.isSome_of_mem hx
  | create c hc hu hd' hp hf =>
    by_cases he : i=c.record.instanceId
    · rw [he]
      exact Option.isSome_of_mem hf.same
    · exact hkept (hf.other i he)
  | update inst req hc hu hd' hst hp hf =>
    by_cases he : i=(updatedRecord inst req).instanceId
    · rw [he]
      exact Option.isSome_of_mem hf.same
    · exact hkept (hf.other i he)
  | delete j hc hu hd' hp hr =>
    have hij : i≠j := by
      intro he
      rw [he] at hd
      exact hd hd'
    exact hkept (hr.other i hij)

theorem deprovisioned_removes (hash : String → Nat) (hw : Store.WellFormed s.tables.rows)
    {i : String} (h : deprovisioned s a=some i) :
    Store.stored (step hash s a).tables.rows i=none := by
  cases step_kind hash hw a with
  | quiet hc hu hd hp hq =>
    rw [hd] at h
    cases h
  | create c hc hu hd hp hf =>
    rw [hd] at h
    cases h
  | update inst req hc hu hd hst hp hf =>
    rw [hd] at h
    cases h
  | delete j hc hu hd hp hr =>
    rw [hd] at h
    cases h
    exact hr.gone

theorem Tenure.Inv.anchored_step (hI : w.Inv) (hu : Unbound w.state a) :
    (w.step hash a).Anchored := by
  have hstored : ∀ x∈(w.step hash a).state.tables.bindings,
      (Store.stored (w.step hash a).state.tables.rows x.instanceId).isSome=true := by
    intro x hx
    obtain hx | ⟨_, hd, hst⟩ := mem_bindings_step hx
    · exact stored_step hash hI.wellFormed (hI.anchored x hx).1 fun hd => hu _ hd x hx rfl
    · exact stored_step hash hI.wellFormed hst (by simp [hd])
  intro x hx
  refine ⟨hstored x hx, ?_⟩
  have hold : (!decide (x.bindingId∈bound w.state a) && w.lapsed x.bindingId)=false := by
    obtain hx | ⟨hb, _⟩ := mem_bindings_step hx
    · simp [(hI.anchored x hx).2]
    · simp [hb]
  have hnew : ((w.step hash a).state.tables.bindings.any fun y => decide (y.bindingId=x.bindingId) &&
      (Store.stored (w.step hash a).state.tables.rows y.instanceId).isNone)=false := by
    rw [List.any_eq_false]
    intro y hy
    have := hstored y hy
    simp [Option.isSome_iff_ne_none.mp this]
  exact Bool.or_eq_false_iff.mpr ⟨hold, hnew⟩

/-- The state after a step is anchored exactly when the step deprovisions no bound
instance. -/
theorem Tenure.Inv.anchored_iff (hI : w.Inv) :
    (w.step hash a).Anchored ↔ Unbound w.state a := by
  constructor
  · intro h i hi x hx he
    have hgone := deprovisioned_removes hash hI.wellFormed hi
    have hx' : x∈(w.step hash a).state.tables.bindings := by
      rw [Tenure.step, bindings_deprovisioned hi]
      exact hx
    have hst := (h x hx').1
    rw [he, Tenure.step, hgone] at hst
    cases hst
  · exact hI.anchored_step

end Tenure

/-- Along every run, the states are anchored exactly when no deprovision is acknowledged
while a binding of its instance is stored. -/
theorem binding_integrity_iff (hash : String → Nat) (as : List (Env × Event)) :
    Trace.Along (Tenure.step hash) (fun w a => (w.step hash a).Anchored) {} as ↔
      Trace.Along (Tenure.step hash) (fun w a => Unbound w.state a) {} as := by
  have hstart : ({} : Tenure).Inv := ⟨Store.WellFormed.nil, fun x hx => by cases hx⟩
  refine Trace.Along.iff_of_invariant Tenure.Inv ?_ ?_ hstart as
  · intro w a hI hu
    exact ⟨step_wellFormed hash hI.wellFormed a, hI.anchored_step hu⟩
  · intro w a hI
    exact hI.anchored_iff

def bindEvent : Event := .request operator (.bind "lb-1" "app" {})

def reusedRun : List (Env × Event) :=
  [provisionEvent, .resume 0 (.rendered (.ok [])), bindEvent, deprovisionEvent,
    .resume 3 tornDownOk, provisionEvent, .resume 5 (.rendered (.ok []))].map
    fun e => (sampleEnv, e)

/-- The old binding stands, and is live again at the new instance. -/
theorem old_binding_revived :
    ((Trace.exec (Tenure.step fun _ => 0) {} reusedRun).state.tables.bindings.map fun x =>
      (x.bindingId, x.instanceId))=[("app", "lb-1")] ∧
    (Store.stored (Trace.exec (Tenure.step fun _ => 0) {} reusedRun).state.tables.rows
      "lb-1").isSome=true ∧
    (Trace.exec (Tenure.step fun _ => 0) {} reusedRun).lapsed "app"=true ∧
    ¬ Trace.Along (Tenure.step fun _ => 0) (fun w a => (w.step (fun _ => 0) a).Anchored) {}
      reusedRun := by
  exact ⟨by decide +kernel, by decide +kernel, by decide +kernel, by decide +kernel⟩

end Sovereign.Broker
