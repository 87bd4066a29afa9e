import Sovereign.Effects

/-! What one step of the broker does. Every step is a step of the system of `WriteBack`:
it is quiet, or stores one admitted record, or removes one. -/
namespace Sovereign.Broker
open Sovereign Policy Renderers

def requested (a : Env × Event) : Option (Caller × Request) :=
  match a.2 with
  | .request auth req =>
    match stateChangeIdentify a.1.settings a.1.decode auth with
    | .ok caller => some (caller, req)
    | .error _ => none
  | _ => none

structure Creation where
  caller : Caller
  instanceId : String
  req : ProvisionRequest
  now : String

def Creation.tenantId (c : Creation) : String := resolveTenantId c.caller c.req.organizationGuid

def Creation.record (c : Creation) : ServiceInstance := provisionedRecord c.instanceId c.req c.now

def created (s : State) (a : Env × Event) : Option Creation :=
  match requested a with
  | some (caller, .provision instanceId req _) =>
    if provisionAdmitted a.1 caller instanceId req s.tables then some ⟨caller, instanceId, req, a.1.now⟩
    else none
  | _ => none

def updated (s : State) (a : Env × Event) : Option (ServiceInstance × UpdateRequest) :=
  match requested a with
  | some (caller, .update instanceId req) =>
    (updateAdmitted a.1 caller instanceId req s.tables).map fun inst => (inst, req)
  | _ => none

def deprovisioned (s : State) (a : Env × Event) : Option String :=
  if (segment a.1 s a.2).any fun seg => seg.2.acknowledges then
    match a.2 with
    | .request _ (.deprovision instanceId) => some instanceId
    | .resume id _ =>
      match s.tasks.lookup id with
      | some (.teardown instanceId _ _ _) => some instanceId
      | _ => none
    | _ => none
  else none

def puts (s : State) (a : Env × Event) : List ServiceInstance :=
  match segment a.1 s a.2 with
  | none => []
  | some (_, seg) => seg.writes.filterMap putRecord
where
  putRecord : Write → Option ServiceInstance
    | .put inst => some inst
    | _ => none

/-- Every step is of one of four kinds. -/
inductive Kind (hash : String → Nat) (s : State) (a : Env × Event) : Prop where
  | quiet (created : created s a=none) (updated : updated s a=none)
      (deprovisioned : deprovisioned s a=none)
      (puts : ∀ x∈puts s a, ∃ c, s.Source c ∧ Touched c x)
      (effect : WriteBack.Quiet ServiceInstance.instanceId Touched (abs s) (abs (step hash s a)))
  | create (c : Creation) (created : created s a=some c) (updated : updated s a=none)
      (deprovisioned : deprovisioned s a=none) (puts : puts s a=[c.record])
      (effect : WriteBack.Fresh ServiceInstance.instanceId c.record (abs s)
        (abs (step hash s a)))
  | update (inst : ServiceInstance) (req : UpdateRequest) (created : created s a=none)
      (updated : updated s a=some (inst, req)) (deprovisioned : deprovisioned s a=none)
      (stored : Store.stored s.tables.rows inst.instanceId=some inst)
      (puts : puts s a=[updatedRecord inst req])
      (effect : WriteBack.Fresh ServiceInstance.instanceId (updatedRecord inst req) (abs s)
        (abs (step hash s a)))
  | delete (instanceId : String) (created : created s a=none) (updated : updated s a=none)
      (deprovisioned : deprovisioned s a=some instanceId) (puts : puts s a=[])
      (effect : WriteBack.Removed instanceId (abs s) (abs (step hash s a)))

def rendered (s : State) (a : Env × Event) : Option (ServiceInstance × Artifact) :=
  match a.2 with
  | .resume id (.rendered (.ok artifact)) =>
    ((s.tasks.lookup id).bind Task.rendering).map fun inst => (inst, artifact)
  | _ => none

inductive Shape (s : State) (a : Env × Event) (seg : Segment) : Prop where
  | carries (created : created s a=none) (updated : updated s a=none)
      (deprovisioned : deprovisioned s a=none)
      (carries : ∀ P : ServiceInstance → Prop, Kept P → (∀ c, s.Source c → P c) →
        (∀ inst artifact x, a.1.faults.put=false → rendered s a=some (inst, artifact) →
          markOperationSucceeded { inst with status := .succeeded } artifact=some x → P x) →
        seg.Carries P)
  | create (c : Creation) (created : created s a=some c) (updated : updated s a=none)
      (deprovisioned : deprovisioned s a=none) (stores : seg.Stores c.record)
  | update (inst : ServiceInstance) (req : UpdateRequest) (created : created s a=none)
      (updated : updated s a=some (inst, req)) (deprovisioned : deprovisioned s a=none)
      (stored : Store.stored s.tables.rows inst.instanceId=some inst)
      (stores : seg.Stores (updatedRecord inst req))
  | delete (instanceId : String) (created : created s a=none) (updated : updated s a=none)
      (deprovisioned : deprovisioned s a=some instanceId) (deletes : seg.Deletes instanceId)

section Kind
variable {hash : String → Nat} {s : State} {a : Env × Event} {resumed : Option Nat}
  {seg : Segment}

theorem step_segment (h : segment a.1 s a.2=some (resumed, seg)) :
    step hash s a=s.run hash resumed seg := by
  rw [step, h]

theorem mem_puts (h : segment a.1 s a.2=some (resumed, seg)) (x : ServiceInstance) :
    x∈puts s a ↔ Write.put x∈seg.writes := by
  simp only [puts, h, List.mem_filterMap]
  constructor
  · rintro ⟨w, hw, hx⟩
    cases w with
    | put inst =>
      have he : inst=x := Option.some.inj hx
      rw [← he]
      exact hw
    | delete i => cases hx
    | putBinding b => cases hx
    | deleteBinding i => cases hx
    | meter r => cases hx
    | audit r => cases hx
  · intro hx
    exact ⟨.put x, hx, rfl⟩

theorem putRecord_plain {ws : List Write} (h : WritesBack (fun _ => False) ws) :
    ws.filterMap puts.putRecord=[] := by
  rw [List.filterMap_eq_nil_iff]
  intro w hw
  cases w with
  | put inst =>
    obtain ⟨_, hf, _⟩ := h.puts inst hw
    exact hf.elim
  | delete i => rfl
  | putBinding b => rfl
  | deleteBinding i => rfl
  | meter r => rfl
  | audit r => rfl

theorem puts_stores (h : segment a.1 s a.2=some (resumed, seg)) {x : ServiceInstance}
    (hs : seg.Stores x) : puts s a=[x] := by
  obtain ⟨ws, hws, hw⟩ := hs.writes
  simp only [puts, h, hw, List.filterMap_append, putRecord_plain hws]
  rfl

theorem puts_deletes (h : segment a.1 s a.2=some (resumed, seg)) {instanceId : String}
    (hs : seg.Deletes instanceId) : puts s a=[] := by
  obtain ⟨ws, record, hws, hw⟩ := hs.writes
  simp only [puts, h, hw, List.filterMap_append, putRecord_plain hws]
  rfl

theorem mem_tasks_of_lookup {id : Nat} {task : Task} (h : s.tasks.lookup id=some task) :
    (id, task)∈s.tasks := by
  obtain ⟨before, after, ht, _⟩ := List.lookup_eq_some_iff.mp h
  rw [ht]
  exact List.mem_append_right before List.mem_cons_self

theorem source_of_task {id : Nat} {task : Task} (h : s.tasks.lookup id=some task)
    {x : ServiceInstance} (hx : x∈task.copies) : s.Source x :=
  Or.inl (List.mem_flatMap.mpr ⟨(id, task), mem_tasks_of_lookup h, hx⟩)

theorem rendering_mem {task : Task} {inst : ServiceInstance} (h : task.rendering=some inst) :
    inst∈task.copies := by
  cases task with
  | provision x caller tenantId background =>
    cases h
    exact List.mem_cons_self
  | update x caller tenantId =>
    cases h
    exact List.mem_cons_self
  | reconcile x pass =>
    cases h
    exact List.mem_cons_self
  | teardown i x caller tenantId => cases h
  | diff x pass => cases h

theorem source_of_rendered {inst : ServiceInstance} {artifact : Artifact}
    (h : rendered s a=some (inst, artifact)) : s.Source inst := by
  simp only [rendered] at h
  split at h
  · obtain ⟨i, hb, he⟩ := Option.map_eq_some_iff.mp h
    obtain ⟨task, ht, hr⟩ := Option.bind_eq_some_iff.mp hb
    cases he
    exact source_of_task ht (rendering_mem hr)
  · cases h

theorem created_of_requested {caller : Caller} {req : Request}
    (h : requested a=some (caller, req))
    (hne : ∀ i r b, req≠.provision i r b) : created s a=none := by
  rw [created, h]
  cases req with
  | provision i r b => exact absurd rfl (hne i r b)
  | update i r => rfl
  | deprovision i => rfl
  | bind i b r => rfl
  | unbind i b => rfl
  | reconcile i n => rfl

theorem updated_of_requested {caller : Caller} {req : Request}
    (h : requested a=some (caller, req)) (hne : ∀ i r, req≠.update i r) :
    updated s a=none := by
  rw [updated, h]
  cases req with
  | provision i r b => rfl
  | update i r => exact absurd rfl (hne i r)
  | deprovision i => rfl
  | bind i b r => rfl
  | unbind i b => rfl
  | reconcile i n => rfl

theorem deprovisioned_of_request {env : Env} {auth : AuthHeader} {req : Request}
    (hne : ∀ i, req≠.deprovision i) : deprovisioned s (env, .request auth req)=none := by
  rw [deprovisioned]
  split
  · cases req with
    | deprovision i => exact absurd rfl (hne i)
    | provision i r b => rfl
    | update i r => rfl
    | bind i b r => rfl
    | unbind i b => rfl
    | reconcile i n => rfl
  · rfl

theorem requested_eq {env : Env} {auth : AuthHeader} {caller : Caller}
    (hi : stateChangeIdentify env.settings env.decode auth=.ok caller) (req : Request) :
    requested (env, .request auth req)=some (caller, req) := by
  simp only [requested, hi]

theorem segment_eq {env : Env} {auth : AuthHeader} {caller : Caller}
    (hi : stateChangeIdentify env.settings env.decode auth=.ok caller) (req : Request) :
    segment env s (.request auth req)=some (none, serve env caller s.tables req) := by
  simp only [segment, hi]

theorem shape_provision {env : Env} {auth : AuthHeader} {caller : Caller} (instanceId : String)
    (req : ProvisionRequest) (acceptsIncomplete : Bool)
    (hi : stateChangeIdentify env.settings env.decode auth=.ok caller) :
    Shape s (env, .request auth (.provision instanceId req acceptsIncomplete))
      (provision env caller instanceId req acceptsIncomplete s.tables) := by
  have hr := requested_eq hi (.provision instanceId req acceptsIncomplete)
  have hu := updated_of_requested (s := s) hr (by simp)
  have hd : deprovisioned s
      (env, .request auth (.provision instanceId req acceptsIncomplete))=none :=
    deprovisioned_of_request (by simp)
  have hc : created s (env, .request auth (.provision instanceId req acceptsIncomplete)) =
      if provisionAdmitted env caller instanceId req s.tables then some ⟨caller, instanceId, req, env.now⟩
      else none := by
    rw [created, hr]
  cases ha : provisionAdmitted env caller instanceId req s.tables with
  | false =>
    refine Shape.carries ?_ hu hd fun P _ _ _ => provision_refused acceptsIncomplete ha
    rw [hc, ha]
    rfl
  | true =>
    refine Shape.create ⟨caller, instanceId, req, env.now⟩ ?_ hu hd (provision_admitted acceptsIncomplete ha)
    rw [hc, ha]
    rfl

theorem shape_update {env : Env} {auth : AuthHeader} {caller : Caller} (instanceId : String)
    (req : UpdateRequest) (hw : Store.WellFormed s.tables.rows)
    (hi : stateChangeIdentify env.settings env.decode auth=.ok caller) :
    Shape s (env, .request auth (.update instanceId req))
      (Broker.update env caller instanceId req s.tables) := by
  have hr := requested_eq hi (.update instanceId req)
  have hc := created_of_requested (s := s) hr (by simp)
  have hd : deprovisioned s (env, .request auth (.update instanceId req))=none :=
    deprovisioned_of_request (by simp)
  have hu : updated s (env, .request auth (.update instanceId req)) =
      (updateAdmitted env caller instanceId req s.tables).map fun inst => (inst, req) := by
    rw [updated, hr]
  cases ha : updateAdmitted env caller instanceId req s.tables with
  | none =>
    refine Shape.carries hc ?_ hd fun P _ _ _ => update_refused ha
    rw [hu, ha]
    rfl
  | some inst =>
    obtain ⟨hst, hs⟩ := update_admitted ha
    have hid : inst.instanceId=instanceId := hw.stored_eq hst
    refine Shape.update inst req hc ?_ hd (by rw [hid, hst]) hs
    rw [hu, ha]
    rfl

theorem shape_deprovision {env : Env} {auth : AuthHeader} {caller : Caller}
    (instanceId : String) (hi : stateChangeIdentify env.settings env.decode auth=.ok caller) :
    Shape s (env, .request auth (.deprovision instanceId))
      (deprovision env caller instanceId s.tables) := by
  have hr := requested_eq hi (.deprovision instanceId)
  have hseg := segment_eq (s := s) hi (.deprovision instanceId)
  have hc := created_of_requested (s := s) hr (by simp)
  have hu := updated_of_requested (s := s) hr (by simp)
  obtain h | h := deprovision_effect env caller instanceId s.tables
  · refine Shape.delete instanceId hc hu ?_ h.2
    simp [deprovisioned, hseg, serve, h.1]
  · refine Shape.carries hc hu ?_ fun P _ _ _ => h.2 P
    simp [deprovisioned, hseg, serve, h.1]

theorem shape_request {env : Env} {auth : AuthHeader} {caller : Caller} (req : Request)
    (hw : Store.WellFormed s.tables.rows)
    (hi : stateChangeIdentify env.settings env.decode auth=.ok caller) :
    Shape s (env, .request auth req) (serve env caller s.tables req) := by
  have hr := requested_eq hi req
  cases req with
  | provision instanceId r b => exact shape_provision instanceId r b hi
  | update instanceId r => exact shape_update instanceId r hw hi
  | deprovision instanceId => exact shape_deprovision instanceId hi
  | bind instanceId b r =>
    refine Shape.carries (created_of_requested hr (by simp)) (updated_of_requested hr (by simp))
      (deprovisioned_of_request (by simp)) fun P _ _ _ => ?_
    exact withBinding_carries _ _ _ _ _
      fun _ _ => carries_done (binding_writes (by simp) (by simp))
  | unbind instanceId b =>
    refine Shape.carries (created_of_requested hr (by simp)) (updated_of_requested hr (by simp))
      (deprovisioned_of_request (by simp)) fun P _ _ _ => ?_
    exact withBinding_carries _ _ _ _ _
      fun _ _ => carries_done (binding_writes (by simp) (by simp))
  | reconcile instanceId limit =>
    refine Shape.carries (created_of_requested hr (by simp)) (updated_of_requested hr (by simp))
      (deprovisioned_of_request (by simp)) fun P hk hP _ => ?_
    exact reconcile_carries hk caller instanceId limit s.tables hw fun x hx => hP x (Or.inr hx)

theorem shape_resume {env : Env} {id : Nat} {outcome : Outcome} {task : Task}
    (ht : s.tasks.lookup id=some task) (hres : task.resume env outcome=some seg) :
    Shape s (env, .resume id outcome) seg := by
  have hseg : segment env s (.resume id outcome)=some (some id, seg) := by
    simp [segment, ht, hres]
  cases hd : task.isTeardown with
  | false =>
    refine Shape.carries rfl rfl ?_ ?_
    · simp only [deprovisioned, ht]
      split
      · cases task with
        | teardown i inst caller tenantId => cases hd
        | provision inst caller tenantId background => rfl
        | update inst caller tenantId => rfl
        | diff inst pass => rfl
        | reconcile inst pass => rfl
      · rfl
    · intro P hk hP hrender
      refine resume_carries hk hres hd (fun x hx => hP x (source_of_task ht hx)) ?_
      intro inst artifact x hp hr ho hx
      refine hrender inst artifact x hp ?_ hx
      rw [ho]
      simp [rendered, ht, hr]
  | true =>
    cases resumed_of_resume hres with
    | teardown instanceId inst caller tenantId result =>
      obtain h | h := deprovisionTornDown_effect env instanceId inst caller tenantId result
      · refine Shape.delete instanceId rfl rfl ?_ h.2
        simp [deprovisioned, hseg, h.1, ht]
      · refine Shape.carries rfl rfl ?_ fun P _ _ _ => h.2 P
        simp [deprovisioned, hseg, h.1]
    | provision inst caller tenantId background result => cases hd
    | update inst caller tenantId result => cases hd
    | diff inst pass result => cases hd
    | abandoned inst pass => cases hd
    | reconcile inst pass result => cases hd

theorem segment_shape (hw : Store.WellFormed s.tables.rows)
    (h : segment a.1 s a.2=some (resumed, seg)) : Shape s a seg := by
  obtain ⟨env, event⟩ := a
  cases event with
  | request auth req =>
    cases hi : stateChangeIdentify env.settings env.decode auth with
    | error e =>
      have hr : requested (env, .request auth req)=none := by simp only [requested, hi]
      simp only [segment, hi] at h
      cases h
      refine Shape.carries ?_ ?_ ?_ fun P _ _ _ => carries_failure e WritesOnly.nil
      · rw [created, hr]
      · rw [updated, hr]
      · simp [deprovisioned, segment, hi, failure, Segment.acknowledges]
    | ok caller =>
      simp only [segment, hi] at h
      cases h
      exact shape_request req hw hi
  | tick =>
    cases h
    refine Shape.carries rfl rfl (by simp [deprovisioned]) fun P hk hP _ => ?_
    exact startPass_carries hk _ _ _ fun x hx => hP x (Or.inr (stored_of_mem_scanned env hw hx))
  | resume id outcome =>
    obtain ⟨seg', hb, he⟩ := Option.map_eq_some_iff.mp h
    obtain ⟨task, ht, hres⟩ := Option.bind_eq_some_iff.mp hb
    cases he
    exact shape_resume ht hres

theorem kind_stuck (h : segment a.1 s a.2=none) : Kind hash s a := by
  have hs : step hash s a=s := by rw [step, h]
  obtain ⟨env, event⟩ := a
  cases event with
  | request auth req =>
    simp only [segment] at h
    split at h
    · cases h
    · cases h
  | tick => cases h
  | resume id outcome =>
    have h' : segment env s (.resume id outcome)=none := h
    refine Kind.quiet rfl rfl ?_ ?_ ?_
    · simp [deprovisioned, h']
    · simp [puts, h']
    · rw [hs]
      exact ⟨fun i => Or.inl rfl, fun x hx => ⟨x, Or.inl hx, Touched.refl x⟩⟩

/-- One of the four, for every step of the broker. -/
theorem step_kind (hash : String → Nat) (hw : Store.WellFormed s.tables.rows) (a : Env × Event) :
    Kind hash s a := by
  cases hseg : segment a.1 s a.2 with
  | none => exact kind_stuck hseg
  | some r =>
    obtain ⟨resumed, seg⟩ := r
    have hrun : step hash s a=s.run hash resumed seg := step_segment hseg
    cases segment_shape hw hseg with
    | carries hc hu hd hcarries =>
      have hq : seg.Quiet s.Source := by
        refine (hcarries _ (kept_backOf s.Source) (fun c hc => BackOf.of_src hc) ?_).quiet
        intro inst artifact x _ hr hx
        exact (BackOf.of_src (source_of_rendered hr)).touched (touched_succeeded hx)
      refine Kind.quiet hc hu hd ?_ ?_
      · intro x hx
        exact hq.writes.puts x ((mem_puts hseg x).mp hx)
      · rw [hrun]
        exact run_quiet hq
    | create c hc hu hd hs =>
      refine Kind.create c hc hu hd (puts_stores hseg hs) ?_
      rw [hrun]
      exact run_stores hs
    | update inst req hc hu hd hst hs =>
      refine Kind.update inst req hc hu hd hst (puts_stores hseg hs) ?_
      rw [hrun]
      exact run_stores hs
    | delete instanceId hc hu hd hs =>
      refine Kind.delete instanceId hc hu hd (puts_deletes hseg hs) ?_
      rw [hrun]
      exact run_deletes hs

/-- A property of records that the bookkeeping keeps holds of every record after a step,
when it does before and of what the step admits or brings back rendered. -/
theorem source_step {P : ServiceInstance → Prop} (hk : Kept P)
    (hw : Store.WellFormed s.tables.rows) (hP : ∀ c, s.Source c → P c)
    (hcreate : ∀ c, created s a=some c → P c.record)
    (hupdate : ∀ inst req, updated s a=some (inst, req) →
      Store.stored s.tables.rows inst.instanceId=some inst → P (updatedRecord inst req))
    (hrender : ∀ inst artifact x, a.1.faults.put=false → rendered s a=some (inst, artifact) →
      markOperationSucceeded { inst with status := .succeeded } artifact=some x → P x)
    {x : ServiceInstance} (hx : (step hash s a).Source x) : P x := by
  cases hseg : segment a.1 s a.2 with
  | none =>
    rw [step, hseg] at hx
    exact hP x hx
  | some r =>
    obtain ⟨resumed, seg⟩ := r
    rw [step_segment hseg] at hx
    cases segment_shape hw hseg with
    | carries hc hu hd hcarries =>
      have hs := hcarries P hk hP hrender
      cases hx with
      | inl hx =>
        cases copies_run hx with
        | inl hx => exact hP x (Or.inl hx)
        | inr hx =>
          obtain ⟨task, ht, hx⟩ := hx
          exact hs.copies task ht x hx
      | inr hx =>
        obtain he | ⟨y, hy, _, hst⟩ := stored_writes hash seg.writes hs.writes.deletes s.tables
          x.instanceId
        · exact hP x (Or.inr (he.symm.trans hx))
        · have hxy : y=x := Option.some.inj (hst.symm.trans hx)
          rw [← hxy]
          exact hs.writes.puts y hy
    | create c hc hu hd hs =>
      obtain he | hx := (run_stores hs).source hx
      · rw [he]
        exact hcreate c hc
      · exact hP x hx
    | update inst req hc hu hd hst hs =>
      obtain he | hx := (run_stores hs).source hx
      · rw [he]
        exact hupdate inst req hu hst
      · exact hP x hx
    | delete instanceId hc hu hd hs => exact hP x ((run_deletes hs).source hx)

theorem step_wellFormed (hash : String → Nat) (hw : Store.WellFormed s.tables.rows)
    (a : Env × Event) : Store.WellFormed (step hash s a).tables.rows := by
  rw [step]
  split
  · exact hw
  · exact wellFormed_writes hash hw _

theorem keyed (hw : Store.WellFormed s.tables.rows) :
    (abs s).Keyed ServiceInstance.instanceId := fun _ _ h => hw.stored_eq h

end Kind
end Sovereign.Broker
