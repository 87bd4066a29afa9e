import Sovereign.Policy
import Sovereign.Trace

/-! The provision wizard of the portal: plan, parameters, policy pre-check, review. The
pre-check is answered by the broker at some later moment, with the policy of that moment. The
catalog that the page has fetched stays the same over a run. -/
namespace Sovereign.Wizard
open Sovereign

inductive Step where
  | plan
  | params
  | policy
  | review
deriving DecidableEq

structure Draft where
  serviceId : String
  planId : String := ""
  tenantId : String := "default"
  parameters : Json := .obj []

/-- The state of the page, while it is mounted; `checking` is the request of the pre-check that
waits for its answer. -/
structure State where
  draft : Draft
  instanceId : String
  step : Step := .plan
  policy : Option PolicyDecision := none
  policyError : Option String := none
  checking : Option Draft := none
  provisioning : Bool := false
  provisionError : Option String := none
  mounted : Bool := true

inductive Event where
  | visit (serviceId : String)
  | choosePlan (planId : String)
  | typeInstanceId (text : String)
  | typeTenantId (text : String)
  | setParameters (parameters : Json)
  | next
  | back
  | runCheck
  | answered (policy : Json → PolicyDecision) (caller : Caller)
  | failed (message : String)
  | provision
  | provisioned
  | refused (message : String)

inductive Output where
  | policyCheck (body : Json)
  | provision (instanceId : String) (body : Json)

def Draft.checkBody (d : Draft) : Json :=
  .obj [("service_id", .str d.serviceId), ("plan_id", .str d.planId),
    ("tenant_id", .str d.tenantId), ("parameters", d.parameters)]

def Draft.provisionBody (d : Draft) : Json :=
  .obj [("service_id", .str d.serviceId), ("plan_id", .str d.planId),
    ("organization_guid", .str d.tenantId), ("parameters", d.parameters)]

/-- `POST /v2/policy/check`; `none` when the body is no `PolicyCheckBody`. -/
def policyCheckRoute (policy : Json → PolicyDecision) (caller : Caller) (body : Json) :
    Option PolicyDecision :=
  match body.get? "service_id", body.get? "plan_id", body.get? "tenant_id",
    (body.get? "parameters").getD (.obj []) with
  | some (.str serviceId), some (.str planId), some (.str tenantId), .obj parameters =>
    some (Policy.policyCheck policy caller tenantId serviceId planId parameters)
  | _, _, _, _ => none

/-- The message of the answer that the broker gives to any other body. -/
def validationMessage : String := "unprocessable entity: request body failed validation"

section Page
variable (plans : String → Option (List String))

def State.shows (s : State) (step : Step) : Bool :=
  s.mounted && (plans s.draft.serviceId).isSome && decide (s.step=step)

def State.mayGoOn (s : State) : Option Step :=
  if s.shows plans .plan then
    if s.draft.planId≠"" ∧ s.instanceId≠"" ∧ s.draft.tenantId≠"" then some .params else none
  else if s.shows plans .params then some .policy
  else if s.shows plans .policy then
    if s.policy.any PolicyDecision.allow then some .review else none
  else none

def State.mayGoBack (s : State) : Option Step :=
  if s.shows plans .params then some .plan
  else if s.shows plans .policy then some .params
  else if s.shows plans .review then some .policy
  else none

def handle (s : State) : Event → State × List Output
  | .visit serviceId => ({ s with draft := { s.draft with serviceId } }, [])
  | .choosePlan planId =>
    if s.shows plans .plan ∧ planId∈(plans s.draft.serviceId).getD [] then
      ({ s with draft := { s.draft with planId } }, [])
    else (s, [])
  | .typeInstanceId text =>
    if s.shows plans .plan then ({ s with instanceId := text }, []) else (s, [])
  | .typeTenantId text =>
    if s.shows plans .plan then ({ s with draft := { s.draft with tenantId := text } }, [])
    else (s, [])
  | .setParameters parameters =>
    if s.shows plans .params then ({ s with draft := { s.draft with parameters } }, [])
    else (s, [])
  | .next => ({ s with step := (s.mayGoOn plans).getD s.step }, [])
  | .back => ({ s with step := (s.mayGoBack plans).getD s.step }, [])
  | .runCheck =>
    if s.shows plans .policy ∧ s.checking.isNone then
      ({ s with policyError := none, checking := some s.draft }, [.policyCheck s.draft.checkBody])
    else (s, [])
  | .answered policy caller =>
    match s.checking with
    | none => (s, [])
    | some d =>
      match policyCheckRoute policy caller d.checkBody with
      | some dec => ({ s with checking := none, policy := some dec }, [])
      | none => ({ s with checking := none, policyError := some validationMessage }, [])
  | .failed message =>
    match s.checking with
    | none => (s, [])
    | some _ => ({ s with checking := none, policyError := some message }, [])
  | .provision =>
    if s.shows plans .review ∧ s.provisioning=false then
      ({ s with provisioning := true, provisionError := none },
        [.provision s.instanceId s.draft.provisionBody])
    else (s, [])
  | .provisioned => if s.provisioning then ({ s with mounted := false }, []) else (s, [])
  | .refused message =>
    if s.provisioning then
      ({ s with provisioning := false, provisionError := some message }, [])
    else (s, [])

def step (s : State) (e : Event) : State := (handle plans s e).1
def out (s : State) (e : Event) : List Output := (handle plans s e).2

end Page

def Event.edits : Event → Bool
  | .visit _ | .choosePlan _ | .typeTenantId _ | .setParameters _ => true
  | _ => false

/-! What one event does to each part of the page. -/

section Steps
variable {plans : String → Option (List String)} {s : State} {e : Event}

def verdict (s : State) : Event → Option PolicyDecision
  | .answered policy caller => s.checking.bind fun d => policyCheckRoute policy caller d.checkBody
  | _ => none

theorem step_policy : (step plans s e).policy=(verdict s e).or s.policy := by
  cases e with
  | answered policy caller =>
    simp only [step, handle, verdict]
    cases s.checking with
    | none => rfl
    | some d =>
      simp only [Option.bind_some]
      cases policyCheckRoute policy caller d.checkBody with
      | none => rfl
      | some dec => rfl
  | visit _ | next | back => rfl
  | _ =>
    simp only [step, handle, verdict, Option.none_or]
    split <;> rfl

theorem step_draft (he : e.edits=false) : (step plans s e).draft=s.draft := by
  cases e with
  | visit _ | choosePlan _ | typeTenantId _ | setParameters _ => cases he
  | answered policy caller =>
    simp only [step, handle]
    split
    · rfl
    · split <;> rfl
  | next | back => rfl
  | _ =>
    simp only [step, handle]
    split <;> rfl

theorem exec_draft {es : List Event} (h : ∀ e∈es, e.edits=false) :
    (Trace.exec (step plans) s es).draft=s.draft := by
  induction es generalizing s with
  | nil => rfl
  | cons e es ih =>
    obtain ⟨he, hes⟩ := List.forall_mem_cons.mp h
    exact (ih hes).trans (step_draft he)

theorem mem_step_checking {d : Draft} (h : d∈(step plans s e).checking) :
    d∈s.checking ∨ e=.runCheck ∧ s.draft=d ∧ out plans s e=[.policyCheck d.checkBody] := by
  cases e with
  | runCheck =>
    simp only [step, out, handle] at h ⊢
    split at h
    · next hc =>
      obtain rfl : s.draft=d := Option.some.inj h
      rw [if_pos hc]
      exact Or.inr ⟨trivial, rfl, rfl⟩
    · exact Or.inl h
  | answered policy caller =>
    simp only [step, handle] at h
    split at h
    · exact Or.inl h
    · split at h <;> cases h
  | failed message =>
    simp only [step, handle] at h
    split at h
    · exact Or.inl h
    · cases h
  | visit _ | next | back => exact Or.inl h
  | _ =>
    simp only [step, handle] at h
    split at h <;> exact Or.inl h

theorem shows_step {st : Step} (h : s.shows plans st=true) : s.step=st := by
  simp only [State.shows, Bool.and_eq_true, decide_eq_true_eq] at h
  exact h.2

/-- The review is reached by the button of a decision that allows. -/
theorem step_review (h : (step plans s e).step=.review) :
    s.step=.review ∨ e=.next ∧ ∃ dec, s.policy=some dec ∧ dec.allow=true := by
  cases e with
  | next =>
    simp only [step, handle, State.mayGoOn] at h
    split at h
    · next hshow =>
      split at h
      · cases h
      · exact Or.inl h
    · split at h
      · cases h
      · split at h
        · split at h
          · next hany =>
            obtain ⟨dec, hdec, hallow⟩ := (Option.any_eq_true _ _).mp hany
            exact Or.inr ⟨rfl, dec, hdec, hallow⟩
          · exact Or.inl h
        · exact Or.inl h
  | back =>
    simp only [step, handle, State.mayGoBack] at h
    split at h
    · cases h
    · split at h
      · cases h
      · split at h
        · cases h
        · exact Or.inl h
  | visit _ => exact Or.inl h
  | answered policy caller =>
    simp only [step, handle] at h
    split at h
    · exact Or.inl h
    · split at h <;> exact Or.inl h
  | _ =>
    simp only [step, handle] at h
    split at h <;> exact Or.inl h

theorem mem_out_provision {instanceId : String} {body : Json}
    (h : Output.provision instanceId body∈out plans s e) :
    s.step=.review ∧ instanceId=s.instanceId ∧ body=s.draft.provisionBody := by
  cases e with
  | provision =>
    simp only [out, handle] at h
    split at h
    · next hc =>
      cases List.mem_singleton.mp h
      exact ⟨shows_step hc.1, rfl, rfl⟩
    · cases h
  | runCheck =>
    simp only [out, handle] at h
    split at h
    · cases List.mem_singleton.mp h
    · cases h
  | visit _ | next | back => cases h
  | answered policy caller =>
    simp only [out, handle] at h
    split at h
    · cases h
    · split at h <;> cases h
  | _ =>
    simp only [out, handle] at h
    split at h <;> cases h

/-- Behind the first step all that a request needs has been given, but for the service of the
address. -/
def State.Given (s : State) : Prop :=
  s.step≠.plan → s.draft.planId≠"" ∧ s.instanceId≠"" ∧ s.draft.tenantId≠""

theorem not_shows {st : Step} (h : s.step≠st) : ¬ s.shows plans st=true :=
  fun hs => h (shows_step hs)

theorem State.Given.next (h : s.Given) : (Wizard.step plans s .next).Given := by
  intro hne
  simp only [Wizard.step, handle, State.mayGoOn] at hne ⊢
  split at hne
  · split at hne
    · next hgiven => exact hgiven
    · exact h hne
  · by_cases hplan : s.step=.plan
    · have hparams : ¬ s.shows plans .params=true := not_shows (by simp [hplan])
      have hpolicy : ¬ s.shows plans .policy=true := not_shows (by simp [hplan])
      rw [if_neg hparams, if_neg hpolicy] at hne
      exact absurd hplan hne
    · exact h hplan

theorem State.Given.back (h : s.Given) : (Wizard.step plans s .back).Given := by
  intro hne
  by_cases hplan : s.step=.plan
  · have hparams : ¬ s.shows plans .params=true := not_shows (by simp [hplan])
    have hpolicy : ¬ s.shows plans .policy=true := not_shows (by simp [hplan])
    have hreview : ¬ s.shows plans .review=true := not_shows (by simp [hplan])
    simp only [Wizard.step, handle, State.mayGoBack, if_neg hparams, if_neg hpolicy,
      if_neg hreview] at hne
    exact absurd hplan hne
  · exact h hplan

theorem State.Given.step (h : s.Given) : (Wizard.step plans s e).Given := by
  cases e with
  | next => exact h.next
  | back => exact h.back
  | visit _ => exact h
  | choosePlan planId =>
    simp only [Wizard.step, handle]
    split
    · next hc => exact fun hne => absurd (shows_step hc.1) hne
    · exact h
  | typeInstanceId _ | typeTenantId _ =>
    simp only [Wizard.step, handle]
    split
    · next hc => exact fun hne => absurd (shows_step hc) hne
    · exact h
  | answered policy caller =>
    simp only [Wizard.step, handle]
    split
    · exact h
    · split <;> exact h
  | _ =>
    simp only [Wizard.step, handle]
    split <;> exact h

end Steps

theorem provisionBody_inj {d d' : Draft} (h : d.provisionBody=d'.provisionBody) : d=d' := by
  cases d
  cases d'
  simp only [Draft.provisionBody, Json.obj.injEq, List.cons.injEq, Prod.mk.injEq, Json.str.injEq,
    true_and, and_true] at h
  obtain ⟨rfl, rfl, rfl, rfl⟩ := h
  rfl

section Runs
variable (plans : String → Option (List String)) (start : State)

/-- A pre-check of the draft was begun in the run, before the last events. -/
def Checked (as since : List Event) (d : Draft) : Prop :=
  ∃ pre, as=pre++.runCheck::since ∧ (Trace.exec (step plans) start pre).draft=d ∧
    out plans (Trace.exec (step plans) start pre) .runCheck=[.policyCheck d.checkBody]

/-- It was answered by the broker with the decision, and no decision has come after it. -/
def Decided (as since : List Event) (d : Draft) (dec : PolicyDecision) : Prop :=
  ∃ pre waiting policy caller post, as=pre++.answered policy caller::post ∧
    since=waiting++.answered policy caller::post ∧ Checked plans start pre waiting d ∧
    policyCheckRoute policy caller d.checkBody=some dec ∧
    Trace.Along (step plans) (fun s e => verdict s e=none)
      (Trace.exec (step plans) start (pre++[.answered policy caller])) post

/-- The decision allowed, and the review was entered on it and has not been left. -/
def Reviewed (as since : List Event) (d : Draft) : Prop :=
  ∃ pre asked dec post, as=pre++.next::post ∧ since=asked++.next::post ∧
    Decided plans start pre asked d dec ∧ dec.allow=true ∧
    Trace.Along (step plans) (fun s _ => s.step=.review)
      (Trace.exec (step plans) start (pre++[.next])) post

structure Traced (as : List Event) (s : State) : Prop where
  state : s=Trace.exec (step plans) start as
  checking : ∀ d∈s.checking, ∃ since, Checked plans start as since d
  policy : ∀ dec∈s.policy, ∃ since d, Decided plans start as since d dec
  review : s.step=.review → ∃ since d, Reviewed plans start as since d
  given : s.Given

variable {plans start} {as since : List Event} {d : Draft} {dec : PolicyDecision} {s : State}

theorem exec_snoc (as : List Event) (e : Event) :
    Trace.exec (step plans) start (as++[e])=step plans (Trace.exec (step plans) start as) e := by
  rw [Trace.exec_append]
  rfl

theorem Checked.later (h : Checked plans start as since d) (e : Event) :
    Checked plans start (as++[e]) (since++[e]) d := by
  obtain ⟨pre, rfl, hdraft, hout⟩ := h
  exact ⟨pre, by simp, hdraft, hout⟩

theorem Decided.later (h : Decided plans start as since d dec) {e : Event}
    (he : verdict (Trace.exec (step plans) start as) e=none) :
    Decided plans start (as++[e]) (since++[e]) d dec := by
  obtain ⟨pre, waiting, policy, caller, post, rfl, rfl, hchecked, hroute, halong⟩ := h
  refine ⟨pre, waiting, policy, caller, post++[e], by simp, by simp, hchecked, hroute, ?_⟩
  rw [Trace.Along.append_iff]
  refine ⟨halong, ?_, trivial⟩
  rwa [← Trace.exec_append, List.append_assoc, List.singleton_append]

theorem Reviewed.later (h : Reviewed plans start as since d)
    (hs : (Trace.exec (step plans) start as).step=.review) (e : Event) :
    Reviewed plans start (as++[e]) (since++[e]) d := by
  obtain ⟨pre, asked, dec, post, rfl, rfl, hdecided, hallow, halong⟩ := h
  refine ⟨pre, asked, dec, post++[e], by simp, by simp, hdecided, hallow, ?_⟩
  rw [Trace.Along.append_iff]
  refine ⟨halong, ?_, trivial⟩
  rwa [← Trace.exec_append, List.append_assoc, List.singleton_append]

theorem Traced.step (h : Traced plans start as s) (e : Event) :
    Traced plans start (as++[e]) (Wizard.step plans s e) := by
  have hs := h.state
  refine ⟨by rw [exec_snoc, ← hs], fun d hd => ?_, fun dec hdec => ?_, fun hreview => ?_,
    h.given.step⟩
  · obtain hold | ⟨rfl, hdraft, hout⟩ := mem_step_checking hd
    · obtain ⟨since, hc⟩ := h.checking d hold
      exact ⟨_, hc.later e⟩
    · exact ⟨[], as, rfl, hs ▸ hdraft, hs ▸ hout⟩
  · rw [step_policy] at hdec
    cases hv : verdict s e with
    | none =>
      rw [hv] at hdec
      obtain ⟨since, d, hd⟩ := h.policy dec hdec
      exact ⟨_, d, hd.later (hs ▸ hv)⟩
    | some dec' =>
      rw [hv] at hdec
      cases hdec
      cases e with
      | answered policy caller =>
        obtain ⟨d, hd, hroute⟩ := Option.bind_eq_some_iff.mp hv
        obtain ⟨since, hc⟩ := h.checking d hd
        exact ⟨_, d, as, since, policy, caller, [], rfl, rfl, hc, hroute, trivial⟩
      | _ => cases hv
  · obtain hold | ⟨rfl, dec, hdec, hallow⟩ := step_review hreview
    · obtain ⟨since, d, hr⟩ := h.review hold
      exact ⟨_, d, hr.later (hs ▸ hold) e⟩
    · obtain ⟨since, d, hd⟩ := h.policy dec hdec
      exact ⟨_, d, as, since, dec, [], rfl, rfl, hd, hallow, trivial⟩

/-- Since the pre-check was begun, the draft has changed by edits only. -/
theorem Reviewed.draft (h : Reviewed plans start as since d) (he : ∀ e∈since, e.edits=false) :
    (Trace.exec (Wizard.step plans) start as).draft=d := by
  obtain ⟨pre, asked, dec, post, rfl, rfl, hdecided, _⟩ := h
  obtain ⟨pre, waiting, policy, caller, post', rfl, rfl, ⟨pre, rfl, hdraft, _⟩, _⟩ := hdecided
  have hrun : pre++Event.runCheck::waiting++Event.answered policy caller::post'++Event.next::post=
      pre++(Event.runCheck::(waiting++Event.answered policy caller::post'++Event.next::post)) := by
    simp
  rw [hrun, Trace.exec_append, exec_draft, hdraft]
  exact List.forall_mem_cons.mpr ⟨rfl, he⟩

end Runs

def opened (serviceId instanceId : String) : State := { draft := { serviceId }, instanceId }

/-- Whatever is clicked, typed and answered in whatever order: a provision request that the page
sends names an instance, a plan and a tenant, and the review it is sent from was entered on a
decision that allowed, the last one then, given by the broker on a pre-check that the page had
sent. The request asks for what was checked exactly when the draft is still that one, as it is
when nothing was edited since the pre-check began. -/
theorem submission_prechecked (plans : String → Option (List String))
    (serviceId startId instanceId : String) (as : List Event) (e : Event) (body : Json)
    (h : Output.provision instanceId body∈
      out plans (Trace.exec (step plans) (opened serviceId startId) as) e) :
    ∃ d since, Reviewed plans (opened serviceId startId) as since d ∧
      (body=d.provisionBody ↔
        (Trace.exec (step plans) (opened serviceId startId) as).draft=d) ∧
      ((∀ e∈since, e.edits=false) → body=d.provisionBody) ∧
      ∃ sent : Draft, body=sent.provisionBody ∧ sent.planId≠"" ∧ sent.tenantId≠"" ∧
        instanceId≠"" := by
  have hstart : Traced plans (opened serviceId startId) [] (opened serviceId startId) :=
    ⟨rfl, fun d hd => (by cases hd), fun dec hdec => (by cases hdec), fun hr => (by cases hr),
      fun hne => absurd rfl hne⟩
  have htraced := Trace.exec_history (fun pre s => Traced plans (opened serviceId startId) pre s)
    (fun pre s e hs => hs.step e) hstart as
  rw [List.nil_append] at htraced
  obtain ⟨hreview, rfl, rfl⟩ := mem_out_provision h
  obtain ⟨since, d, hr⟩ := htraced.review hreview
  obtain ⟨hplan, hinstance, htenant⟩ := htraced.given (by rw [hreview]; simp)
  refine ⟨d, since, hr, ⟨provisionBody_inj, fun hd => by rw [hd]⟩, fun he => ?_,
    _, rfl, hplan, htenant, hinstance⟩
  rw [hr.draft he]

def pilotPlans (serviceId : String) : Option (List String) :=
  if serviceId="sovereign-envoy-lb" then some ["standard-regional"] else none

def pilotCaller : Caller :=
  { user := { principal := "alice", tenantId := none, groups := [], raw := {} }, isBasic := false }

def allowAll : Json → PolicyDecision := fun _ => { allow := true }

def editedRun : List Event :=
  [.choosePlan "standard-regional", .next, .next, .runCheck, .answered allowAll pilotCaller, .back,
    .setParameters (.obj [("region", .str "us-east-1")]), .next, .next]

def editedBody : Json :=
  Draft.provisionBody ⟨"sovereign-envoy-lb", "standard-regional", "default",
    .obj [("region", .str "us-east-1")]⟩

/-- The edited parameters are sent, on the decision about the ones before. -/
theorem submission_prechecked_edited :
    (∃ d since, Reviewed pilotPlans (opened "sovereign-envoy-lb" "demo-1") editedRun since d ∧
      (editedBody=d.provisionBody ↔ (Trace.exec (step pilotPlans)
        (opened "sovereign-envoy-lb" "demo-1") editedRun).draft=d)) ∧
    Reviewed pilotPlans (opened "sovereign-envoy-lb" "demo-1") editedRun (editedRun.drop 4)
      ⟨"sovereign-envoy-lb", "standard-regional", "default", .obj []⟩ := by
  have hsent : Output.provision "demo-1" editedBody∈out pilotPlans
      (Trace.exec (step pilotPlans) (opened "sovereign-envoy-lb" "demo-1") editedRun) .provision :=
    List.mem_singleton.mpr rfl
  obtain ⟨d, since, hr, hiff, _, _⟩ := submission_prechecked pilotPlans "sovereign-envoy-lb"
    "demo-1" "demo-1" editedRun .provision editedBody hsent
  refine ⟨⟨d, since, hr, hiff⟩, ?_⟩
  have hchecked : Checked pilotPlans (opened "sovereign-envoy-lb" "demo-1") (editedRun.take 4) []
      ⟨"sovereign-envoy-lb", "standard-regional", "default", .obj []⟩ :=
    ⟨editedRun.take 3, rfl, rfl, rfl⟩
  have hdecided : Decided pilotPlans (opened "sovereign-envoy-lb" "demo-1") (editedRun.take 8)
      ((editedRun.take 8).drop 4) ⟨"sovereign-envoy-lb", "standard-regional", "default", .obj []⟩
      { allow := true } :=
    ⟨editedRun.take 4, [], allowAll, pilotCaller, (editedRun.take 8).drop 5, rfl, rfl, hchecked,
      rfl, rfl, rfl, rfl, trivial⟩
  exact ⟨editedRun.take 8, (editedRun.take 8).drop 4, { allow := true }, [], rfl, rfl, hdecided,
    rfl, trivial⟩

end Sovereign.Wizard
