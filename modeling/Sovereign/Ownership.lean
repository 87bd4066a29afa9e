import Sovereign.Steps

/-! Who may act on an instance. The tenant a provision is authorized at is not stored with
the record: later requests resolve a tenant again, from the stored organization or else
from their own caller. -/
namespace Sovereign.Broker
open Sovereign

/-- A named organization decides the tenant, whoever calls. -/
theorem resolveTenantId_named {guid : Option String} (h : orElseStr guid ""≠"")
    (caller : Caller) : resolveTenantId caller guid=orElseStr guid "" := by
  cases guid with
  | none => exact absurd rfl h
  | some g =>
    by_cases hg : g=""
    · subst hg
      exact absurd rfl h
    · rw [resolveTenantId, orElseStr_ne hg, orElseStr_ne hg]

/-- Without one it is the caller's own. -/
theorem resolveTenantId_unnamed {guid : Option String} (h : orElseStr guid ""="")
    (caller : Caller) : resolveTenantId caller guid=resolveTenantId caller none := by
  cases guid with
  | none => rfl
  | some g =>
    by_cases hg : g=""
    · subst hg
      rfl
    · rw [orElseStr_ne hg] at h
      exact absurd h hg

/-! Admission of the requests that act on an instance. -/

def Request.operates : Request → Option (String × Action)
  | .update instanceId _ => some (instanceId, .update)
  | .deprovision instanceId => some (instanceId, .deprovision)
  | .bind instanceId _ _ => some (instanceId, .bind)
  | .unbind instanceId _ => some (instanceId, .bind)
  | .provision _ _ _ => none
  | .reconcile _ _ => none

def Segment.refused (seg : Segment) : Bool :=
  match seg.reply with
  | some (.error _) => true
  | _ => false

theorem failure_refused (ws : List Write) (e : HttpError) : (failure ws e).refused=true := rfl

/-- The request found its instance and passed RBAC at the tenant it resolved. -/
def PassedRbac (env : Env) (caller : Caller) (t : Tables) (instanceId : String)
    (action : Action) : Prop :=
  ∃ inst, Store.stored t.rows instanceId=some inst ∧
    (enforceRbac env.settings env.directory caller
      (resolveTenantId caller inst.organizationGuid) action).raised=none

section Admission
variable {env : Env} {caller : Caller} {t : Tables} {instanceId : String}

theorem update_passedRbac {req : UpdateRequest}
    (h : (update env caller instanceId req t).refused=false) :
    PassedRbac env caller t instanceId .update := by
  simp only [update] at h
  split at h
  · rw [failure_refused] at h
    cases h
  · rw [failure_refused] at h
    cases h
  · next inst hg =>
    split at h
    · rw [failure_refused] at h
      cases h
    · next hr =>
      have hgate := (Gate.andThen_raised_none _ _).mp hr
      exact ⟨inst, Store.stored_of_getInstance hg, hgate.1⟩

theorem deprovision_passedRbac (h : (deprovision env caller instanceId t).refused=false) :
    PassedRbac env caller t instanceId .deprovision := by
  simp only [deprovision] at h
  split at h
  · rw [failure_refused] at h
    cases h
  · rw [failure_refused] at h
    cases h
  · next inst hg =>
    split at h
    · rw [failure_refused] at h
      cases h
    · next hr => exact ⟨inst, Store.stored_of_getInstance hg, hr⟩

theorem withBinding_passedRbac {absent : HttpError} {done : ServiceInstance → String → Segment}
    (h : (withBinding env caller instanceId absent t done).refused=false) :
    PassedRbac env caller t instanceId .bind := by
  simp only [withBinding] at h
  split at h
  · rw [failure_refused] at h
    cases h
  · rw [failure_refused] at h
    cases h
  · next inst hg =>
    split at h
    · rw [failure_refused] at h
      cases h
    · next hr => exact ⟨inst, Store.stored_of_getInstance hg, hr⟩

/-- A request that acts on an instance and is not refused has passed RBAC. -/
theorem serve_passedRbac {req : Request} {action : Action}
    (ho : req.operates=some (instanceId, action))
    (h : (serve env caller t req).refused=false) : PassedRbac env caller t instanceId action := by
  cases req with
  | update i r =>
    cases ho
    exact update_passedRbac h
  | deprovision i =>
    cases ho
    exact deprovision_passedRbac h
  | bind i b r =>
    cases ho
    exact withBinding_passedRbac h
  | unbind i b =>
    cases ho
    exact withBinding_passedRbac h
  | provision i r b => cases ho
  | reconcile i n => cases ho

end Admission

structure Owned where
  state : State := {}
  owner : String → Option Creation := fun _ => none

def Owned.step (hash : String → Nat) (w : Owned) (a : Env × Event) : Owned :=
  { state := Broker.step hash w.state a
    owner := fun i =>
      match created w.state a with
      | some c => if c.instanceId=i then some c else w.owner i
      | none => w.owner i }

def TrustedBasic (env : Env) (caller : Caller) : Prop :=
  caller.isBasic=true ∧ env.settings.brokerTrustBasicAuth=true

/-- Every admitted request on an instance is by a trusted Basic caller, or by one who may
take the action at the tenant the instance was created at. -/
def OwnerDecides (w : Owned) (a : Env × Event) : Prop :=
  ∀ caller req instanceId action c, requested a=some (caller, req) →
    req.operates=some (instanceId, action) →
    (serve a.1 caller w.state.tables req).refused=false → w.owner instanceId=some c →
    TrustedBasic a.1 caller ∨ a.1.directory.can caller.user.principal c.tenantId action=true

/-- The provision named its organization, or the caller is trusted, or its own tenant is
the creator's, or it holds no role for the action at its own tenant. -/
def OwnerKnown (env : Env) (c : Creation) (caller : Caller) (action : Action) : Prop :=
  TrustedBasic env caller ∨
  orElseStr c.req.organizationGuid ""≠"" ∨
  resolveTenantId caller none=c.tenantId ∨
  env.directory.can caller.user.principal (resolveTenantId caller none) action=false

instance (env : Env) (c : Creation) (caller : Caller) (action : Action) :
    Decidable (OwnerKnown env c caller action) :=
  inferInstanceAs (Decidable ((caller.isBasic=true ∧ env.settings.brokerTrustBasicAuth=true) ∨ _))

/-- Requests on an instance meet `OwnerKnown`, and a provision is admitted only while no
task holds a record of the instance for another organization. -/
def OwnerKept (w : Owned) (a : Env × Event) : Prop :=
  (∀ r∈requested a, ∀ o∈r.2.operates, ∀ c∈w.owner o.1, OwnerKnown a.1 c r.1 o.2) ∧
  ∀ c∈created w.state a, ∀ x∈(abs w.state).copies, x.instanceId=c.instanceId →
    x.organizationGuid=c.req.organizationGuid

instance (w : Owned) (a : Env × Event) : Decidable (OwnerKept w a) :=
  inferInstanceAs (Decidable (_ ∧ _))

/-- Every record of an instance, stored or held, carries its creator's organization. -/
structure Owned.Inv (w : Owned) : Prop where
  wellFormed : Store.WellFormed w.state.tables.rows
  organization : ∀ i c, w.owner i=some c → ∀ x, w.state.Source x → x.instanceId=i →
    x.organizationGuid=c.req.organizationGuid

section Runs
variable {hash : String → Nat} {w : Owned} {a : Env × Event}

theorem owner_unchanged (h : created w.state a=none) : (w.step hash a).owner=w.owner := by
  funext i
  simp only [Owned.step, h]

theorem owner_created {c d : Creation} {i : String} (h : created w.state a=some c)
    (hd : (w.step hash a).owner i=some d) :
    (c.instanceId=i ∧ d=c) ∨ (c.instanceId≠i ∧ w.owner i=some d) := by
  simp only [Owned.step, h] at hd
  split at hd
  · next hi => exact Or.inl ⟨hi, (Option.some.inj hd).symm⟩
  · next hi => exact Or.inr ⟨hi, hd⟩

theorem Owned.Inv.step (hI : w.Inv) (hk : OwnerKept w a) : (w.step hash a).Inv := by
  refine ⟨step_wellFormed hash hI.wellFormed a, ?_⟩
  intro i d hd x hx hxi
  cases step_kind hash hI.wellFormed a with
  | quiet hc hu hdel hp hq =>
    rw [owner_unchanged hc] at hd
    obtain ⟨y, hy, ht⟩ := hq.source Touched.refl hx
    rw [ht.organizationGuid]
    exact hI.organization i d hd y hy (ht.instanceId.symm.trans hxi)
  | create c hc hu hdel hp hf =>
    obtain ⟨hi, rfl⟩ | ⟨hi, hold⟩ := owner_created hc hd
    · obtain rfl | hm | ht := hf.source_cases hx
      · rfl
      · exact hk.2 d hc x hm (hxi.trans hi.symm)
      · exact absurd (hxi.trans hi.symm) ht.2
    · obtain rfl | hxs := hf.source hx
      · exact absurd hxi hi
      · exact hI.organization i d hold x hxs hxi
  | update inst req hc hu hdel hst hp hf =>
    rw [owner_unchanged hc] at hd
    obtain rfl | hxs := hf.source hx
    · exact hI.organization i d hd inst (Or.inr hst) hxi
    · exact hI.organization i d hd x hxs hxi
  | delete j hc hu hdel hp hr =>
    rw [owner_unchanged hc] at hd
    exact hI.organization i d hd x (hr.source hx) hxi

theorem Owned.Inv.start : ({} : Owned).Inv where
  wellFormed := Store.WellFormed.nil
  organization := by
    intro i c h
    cases h

/-- With the organization in the record, RBAC at the resolved tenant is RBAC at the
creator's tenant whenever the owner is known. -/
theorem can_at_owner {env : Env} {c : Creation} {caller : Caller} {action : Action}
    {guid : Option String} (hg : guid=c.req.organizationGuid)
    (hk : OwnerKnown env c caller action)
    (h : env.directory.can caller.user.principal (resolveTenantId caller guid) action=true) :
    TrustedBasic env caller ∨
      env.directory.can caller.user.principal c.tenantId action=true := by
  subst hg
  by_cases hn : orElseStr c.req.organizationGuid ""=""
  · rw [resolveTenantId_unnamed hn] at h
    obtain hb | hne | heq | hno := hk
    · exact Or.inl hb
    · exact absurd hn hne
    · rw [← heq]
      exact Or.inr h
    · rw [hno] at h
      cases h
  · rw [resolveTenantId_named hn] at h
    rw [Creation.tenantId, resolveTenantId_named hn]
    exact Or.inr h

/-- Along every run in which the owner of an instance can be known, it is the creator's
tenant that decides who acts on it. -/
theorem owner_decides (hash : String → Nat) (as : List (Env × Event))
    (h : Trace.Along (Owned.step hash) OwnerKept {} as) :
    Trace.Along (Owned.step hash) OwnerDecides {} as := by
  refine Trace.Along.of_invariant Owned.Inv ?_ ?_ Owned.Inv.start h
  · intro w a hI hk
    exact hI.step hk
  · intro w a hI hk caller req instanceId action c hr ho href hc
    obtain ⟨inst, hst, hrbac⟩ := serve_passedRbac ho href
    have hid : inst.instanceId=instanceId := hI.wellFormed.stored_eq hst
    have hsrc : w.state.Source inst := Or.inr (by rw [hid]; exact hst)
    have horg := hI.organization instanceId c hc inst hsrc hid
    have hknown : OwnerKnown a.1 c caller action := hk.1 (caller, req) hr _ ho c hc
    cases (enforceRbac_raised_none _ _ _ _ _).mp hrbac with
    | inl hb => exact Or.inl hb
    | inr hcan => exact can_at_owner horg hknown hcan

end Runs

/-! Two bureaus, each with a program team of its own. -/

def tokenClaims : String → Except HttpError Claims
  | "alice" => .ok { sub := some "alice", tid := some "treasury" }
  | "bob" => .ok { sub := some "bob", tid := some "energy" }
  | _ => .error (unauthorized "invalid token")

def bureauEnv : Env :=
  { decode := tokenClaims
    directory :=
      { tenants := [{ tenantId := "treasury" }, { tenantId := "energy" }]
        roles := [{ principal := "alice", tenantId := "treasury", role := .programTeam },
          { principal := "bob", tenantId := "energy", role := .programTeam }] }
    policy := fun _ => { allow := true } }

def alice : AuthHeader := { authorization := some "Bearer alice" }

def bob : AuthHeader := { authorization := some "Bearer bob" }

def provisionBy (auth : AuthHeader) (organizationGuid : Option String) : Env × Event :=
  (bureauEnv, .request auth (.provision "lb-1"
    { serviceId := "sovereign-envoy-lb", planId := "standard-regional", organizationGuid } false))

def updateBy (auth : AuthHeader) : Env × Event :=
  (bureauEnv, .request auth (.update "lb-1" { planId := some "premium" }))

theorem owner_decides_named :
    (updated (Owned.step (fun _ => 0) {} (provisionBy alice (some "treasury"))).state
      (updateBy alice)).isSome=true ∧
    Trace.Along (Owned.step fun _ => 0) OwnerDecides {}
      [provisionBy alice (some "treasury"), updateBy alice, updateBy bob] :=
  ⟨by decide +kernel, owner_decides _ _ (by decide +kernel)⟩

def bobCaller : Caller :=
  { user := { principal := "bob", tenantId := some "energy", groups := []
              raw := { sub := some "bob", tid := some "energy" } }
    isBasic := false }

/-- Alice's provision names no organization and is authorized at `treasury`; Bob, with no
role there, updates the instance by his own `tid`. -/
theorem foreign_update_admitted :
    bureauEnv.directory.can "bob" "treasury" .update=false ∧
    ¬ Trace.Along (Owned.step fun _ => 0) OwnerDecides {}
      [provisionBy alice none, updateBy bob] := by
  refine ⟨by decide, ?_⟩
  intro h
  have hlast : OwnerDecides (Owned.step (fun _ => 0) {} (provisionBy alice none))
      (updateBy bob) := h.2.1
  have howner : ((Owned.step (fun _ => 0) {} (provisionBy alice none)).owner "lb-1").map
      Creation.tenantId=some "treasury" := by
    decide +kernel
  obtain ⟨c, hc, ht⟩ := Option.map_eq_some_iff.mp howner
  have hor := hlast bobCaller (.update "lb-1" { planId := some "premium" }) "lb-1" .update c rfl
    rfl (by decide +kernel) hc
  rw [ht] at hor
  cases hor with
  | inl hb => exact absurd hb.1 (by decide)
  | inr hcan => exact absurd hcan (by decide)

end Sovereign.Broker
