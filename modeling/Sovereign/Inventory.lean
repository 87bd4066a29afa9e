import Sovereign.Store

/-! The two read endpoints of the inventory, `GET /v2/instances` and
`GET /v2/service_instances/{id}/last_operation`, and who learns what from them. -/
namespace Sovereign.Inventory
open Sovereign

def osbState : InstanceStatus → String
  | .provisioning => "in progress"
  | .succeeded => "succeeded"
  | .failed => "failed"
  | .deprovisioning => "in progress"

structure LastOperation where
  state : String
  operation : String
  operationId : Option String
  description : String
  failedStepKind : Option String
  desiredVersion : Int
  appliedVersion : Option Int
  driftStatus : String
  reconcileAttempts : Nat
deriving DecidableEq

def describe (inst : ServiceInstance) : LastOperation :=
  { state := inst.status.value
    operation := match inst.operationState with
      | some st => st.value
      | none => osbState inst.status
    operationId := inst.operationId
    description := inst.operationReason
    failedStepKind := inst.failedStepKind
    desiredVersion := inst.version
    appliedVersion := inst.appliedVersion
    driftStatus := inst.driftStatus.value
    reconcileAttempts := inst.reconcileAttempts }

inductive Request where
  | instances (tenantId : Option String) (limit : Int)
  | lastOperation (instanceId : String)
deriving DecidableEq

inductive Reply where
  | gone
  | operation (body : LastOperation)
  | page (instances : List ServiceInstance) (count : Nat)
deriving DecidableEq

section Endpoints
variable (s : Settings) (d : Directory) (decode : String → Except HttpError Claims)
variable (faults : StoreFaults) (rows : List Row) (auth : AuthHeader)

def lastOperation (instanceId : String) : Except HttpError Reply :=
  match identify s decode auth with
  | .error e => .error e
  | .ok _ =>
    match Store.getInstance faults rows instanceId with
    | .error e => .error e
    | .ok none => .ok .gone
    | .ok (some inst) => .ok (.operation (describe inst))

def pageReply (tenantId : Option String) (limit : Int) : Reply :=
  let instances := Store.listInstances faults rows tenantId limit
  .page instances instances.length

def listInstances (tenantId : Option String) (limit : Int) : Except HttpError Reply :=
  match identify s decode auth with
  | .error e => .error e
  | .ok caller =>
    if caller.isBasic then .ok (pageReply faults rows tenantId limit)
    else
      match tenantId with
      | none => .error ⟨400, .str "tenant_id query parameter is required for JWT callers"⟩
      | some tenant =>
        match (enforceRbac s d caller tenant .read).raised with
        | some e => .error e
        | none => .ok (pageReply faults rows tenantId limit)

def handle : Request → Except HttpError Reply
  | .instances tenantId limit => listInstances s d decode faults rows auth tenantId limit
  | .lastOperation instanceId => lastOperation s decode faults rows auth instanceId

/-- The reply to `req` carries data of the instance. -/
def Discloses (req : Request) (inst : ServiceInstance) : Prop :=
  match req, handle s d decode faults rows auth req with
  | .instances _ _, .ok (.page instances _) => inst∈instances
  | .lastOperation instanceId, .ok (.operation body) =>
    Store.getInstance faults rows instanceId=.ok (some inst) ∧ body=describe inst
  | _, _ => False

def TrustedBasic : Prop :=
  s.brokerTrustBasicAuth=true ∧ ∃ creds, auth.creds=some creds ∧
    creds.username=s.brokerUsername ∧ creds.password=s.brokerPassword

def JwtMayRead (tenantId : String) : Prop :=
  ∃ header claims principal, auth.authorization=some header ∧ isBearer header=true ∧
    decode (bearerToken header)=.ok claims ∧ claims.sub=some principal ∧
    d.can principal tenantId .read=true

def tenantOf (inst : ServiceInstance) : String := orElseStr inst.organizationGuid "default"

def Permitted (inst : ServiceInstance) : Prop :=
  TrustedBasic s auth ∨ JwtMayRead d decode auth (tenantOf inst)

/- When the endpoints keep an instance from callers who may not read it. Nothing is
   shown to rejected credentials, and anything may be shown to a trusted Basic caller.
   The listing asks a token for a tenant; it then errs only on the empty tenant name,
   under which instances of the tenant "default" are filed. It asks a caller without a
   token nothing, so then the listing must be empty. `last_operation` asks no one. -/
def KeptApart : Request → Prop
  | .instances tenantId limit =>
    TrustedBasic s auth ∨ (∃ e, identify s decode auth=.error e) ∨
    Store.listInstances faults rows tenantId limit=[] ∨
    (isBearer (auth.authorization.getD "")=true ∧
      (tenantId=some "" → JwtMayRead d decode auth "" → JwtMayRead d decode auth "default"))
  | .lastOperation instanceId =>
    TrustedBasic s auth ∨ (∃ e, identify s decode auth=.error e) ∨
    ∀ inst, Store.getInstance faults rows instanceId=.ok (some inst) →
      JwtMayRead d decode auth (tenantOf inst)

end Endpoints

section Lemmas
variable {s : Settings} {d : Directory} {decode : String → Except HttpError Claims}
variable {faults : StoreFaults} {rows : List Row} {auth : AuthHeader}

theorem identify_bearer {caller : Caller} (hi : identify s decode auth=.ok caller)
    (hb : isBearer (auth.authorization.getD "")=true) : caller.isBasic=false := by
  simp only [identify, hb, if_true] at hi
  split at hi
  · cases hi
  · split at hi
    · cases hi
    · cases hi
      rfl

theorem identify_not_bearer {caller : Caller} (hi : identify s decode auth=.ok caller)
    (hb : isBearer (auth.authorization.getD "")=false) : caller.isBasic=true := by
  by_contra hc
  obtain ⟨header, claims, ha, hbear, _⟩ := identify_jwt hi (by simpa using hc)
  rw [ha, Option.getD_some, hbear] at hb
  exact absurd hb (by decide)

theorem jwtMayRead_iff {caller : Caller} (hi : identify s decode auth=.ok caller)
    (hb : caller.isBasic=false) (tenantId : String) :
    JwtMayRead d decode auth tenantId ↔ d.can caller.user.principal tenantId .read=true := by
  obtain ⟨header, claims, ha, hbear, hd, hs⟩ := identify_jwt hi hb
  constructor
  · rintro ⟨header', claims', principal, ha', _, hd', hs', hc⟩
    rw [ha] at ha'
    cases ha'
    rw [hd] at hd'
    cases hd'
    rw [hs] at hs'
    cases hs'
    exact hc
  · intro hc
    exact ⟨header, claims, caller.user.principal, ha, hbear, hd, hs, hc⟩

theorem not_jwtMayRead (hb : isBearer (auth.authorization.getD "")=false) (tenantId : String) :
    ¬ JwtMayRead d decode auth tenantId := by
  rintro ⟨header, _, _, ha, hbear, _⟩
  rw [ha, Option.getD_some, hbear] at hb
  exact absurd hb (by decide)

theorem not_trustedBasic (hb : isBearer (auth.authorization.getD "")=true) :
    ¬ TrustedBasic s auth := by
  rintro ⟨_, creds, hc, _⟩
  rw [auth.scheme hb] at hc
  cases hc

theorem discloses_lastOperation (instanceId : String) (inst : ServiceInstance) :
    Discloses s d decode faults rows auth (.lastOperation instanceId) inst ↔
      (∃ caller, identify s decode auth=.ok caller) ∧
        Store.getInstance faults rows instanceId=.ok (some inst) := by
  cases hi : identify s decode auth with
  | error e => simp [Discloses, handle, lastOperation, hi]
  | ok caller =>
    cases hg : Store.getInstance faults rows instanceId with
    | error e => simp [Discloses, handle, lastOperation, hi, hg]
    | ok result =>
      cases result with
      | none => simp [Discloses, handle, lastOperation, hi, hg]
      | some found =>
        simp only [Discloses, handle, lastOperation, hi, hg, Except.ok.injEq, Option.some.injEq,
          exists_eq', true_and]
        constructor
        · exact fun h => h.1
        · rintro rfl
          exact ⟨rfl, rfl⟩

theorem discloses_instances_basic {caller : Caller} (hi : identify s decode auth=.ok caller)
    (hb : caller.isBasic=true) (tenantId : Option String) (limit : Int)
    (inst : ServiceInstance) :
    Discloses s d decode faults rows auth (.instances tenantId limit) inst ↔
      inst∈Store.listInstances faults rows tenantId limit := by
  simp [Discloses, handle, listInstances, hi, hb, pageReply]

theorem discloses_instances_jwt {caller : Caller} (hi : identify s decode auth=.ok caller)
    (hb : caller.isBasic=false) (tenantId : Option String) (limit : Int)
    (inst : ServiceInstance) :
    Discloses s d decode faults rows auth (.instances tenantId limit) inst ↔
      ∃ tenant, tenantId=some tenant ∧ d.can caller.user.principal tenant .read=true ∧
        inst∈Store.listInstances faults rows tenantId limit := by
  cases tenantId with
  | none => simp [Discloses, handle, listInstances, hi, hb]
  | some tenant =>
    have hg := enforceRbac_raised_none s d caller tenant .read
    simp only [hb, Bool.false_eq_true, false_and, false_or] at hg
    cases hr : (enforceRbac s d caller tenant .read).raised with
    | none =>
      have hc := hg.mp hr
      simp [Discloses, handle, listInstances, hi, hb, hr, hc, pageReply]
    | some e =>
      have hc : ¬ d.can caller.user.principal tenant .read=true := by
        rw [← hg, hr]
        simp
      simp [Discloses, handle, listInstances, hi, hb, hr, hc]

theorem keptApart_instances_jwt {caller : Caller} (hi : identify s decode auth=.ok caller)
    (hbear : isBearer (auth.authorization.getD "")=true) (tenantId : Option String)
    (limit : Int) :
    (∀ inst, Discloses s d decode faults rows auth (.instances tenantId limit) inst →
      Permitted s d decode auth inst) ↔
    KeptApart s d decode faults rows auth (.instances tenantId limit) := by
  have hb := identify_bearer hi hbear
  have hmay := fun t => jwtMayRead_iff (d := d) hi hb t
  constructor
  · intro h
    by_cases hl : Store.listInstances faults rows tenantId limit=[]
    · exact Or.inr (Or.inr (Or.inl hl))
    · refine Or.inr (Or.inr (Or.inr ⟨hbear, ?_⟩))
      intro ht hcan
      obtain ⟨inst, hm⟩ := List.exists_mem_of_ne_nil _ hl
      have hd := (discloses_instances_jwt hi hb tenantId limit inst).mpr
        ⟨"", ht, (hmay "").mp hcan, hm⟩
      subst ht
      have ho := Store.listInstances_organization faults rows "" limit inst hm
      have hp := (h inst hd).resolve_left (not_trustedBasic hbear)
      simpa [tenantOf, ho, orElseStr] using hp
  · intro hk inst hd
    obtain ⟨tenant, ht, hcan, hm⟩ := (discloses_instances_jwt hi hb tenantId limit inst).mp hd
    subst ht
    have ho := Store.listInstances_organization faults rows tenant limit inst hm
    obtain hk | ⟨e, hk⟩ | hk | ⟨_, hk⟩ := hk
    · exact Or.inl hk
    · rw [hi] at hk
      cases hk
    · rw [hk] at hm
      cases hm
    · refine Or.inr ?_
      by_cases he : tenant=""
      · subst he
        simpa [tenantOf, ho, orElseStr] using hk rfl ((hmay "").mpr hcan)
      · simpa [tenantOf, ho, orElseStr_ne he] using (hmay tenant).mpr hcan

theorem keptApart_instances_basic {caller : Caller} (hi : identify s decode auth=.ok caller)
    (hbear : isBearer (auth.authorization.getD "")=false) (tenantId : Option String)
    (limit : Int) :
    (∀ inst, Discloses s d decode faults rows auth (.instances tenantId limit) inst →
      Permitted s d decode auth inst) ↔
    KeptApart s d decode faults rows auth (.instances tenantId limit) := by
  have hb := identify_not_bearer hi hbear
  constructor
  · intro h
    by_cases hl : Store.listInstances faults rows tenantId limit=[]
    · exact Or.inr (Or.inr (Or.inl hl))
    · obtain ⟨inst, hm⟩ := List.exists_mem_of_ne_nil _ hl
      have hd := (discloses_instances_basic (d := d) hi hb tenantId limit inst).mpr hm
      exact Or.inl ((h inst hd).resolve_right (not_jwtMayRead hbear _))
  · intro hk inst hd
    have hm := (discloses_instances_basic hi hb tenantId limit inst).mp hd
    obtain hk | ⟨e, hk⟩ | hk | ⟨hk, _⟩ := hk
    · exact Or.inl hk
    · rw [hi] at hk
      cases hk
    · rw [hk] at hm
      cases hm
    · rw [hbear] at hk
      cases hk

theorem keptApart_instances (tenantId : Option String) (limit : Int) :
    (∀ inst, Discloses s d decode faults rows auth (.instances tenantId limit) inst →
      Permitted s d decode auth inst) ↔
    KeptApart s d decode faults rows auth (.instances tenantId limit) := by
  cases hi : identify s decode auth with
  | error e =>
    have hk : KeptApart s d decode faults rows auth (.instances tenantId limit) :=
      Or.inr (Or.inl ⟨e, hi⟩)
    simp [Discloses, handle, listInstances, hi, hk]
  | ok caller =>
    cases hbear : isBearer (auth.authorization.getD "") with
    | true => exact keptApart_instances_jwt hi hbear tenantId limit
    | false => exact keptApart_instances_basic hi hbear tenantId limit

theorem keptApart_lastOperation (instanceId : String) :
    (∀ inst, Discloses s d decode faults rows auth (.lastOperation instanceId) inst →
      Permitted s d decode auth inst) ↔
    KeptApart s d decode faults rows auth (.lastOperation instanceId) := by
  simp only [discloses_lastOperation, Permitted, KeptApart]
  constructor
  · intro h
    by_cases ht : TrustedBasic s auth
    · exact Or.inl ht
    · cases hi : identify s decode auth with
      | error e => exact Or.inr (Or.inl ⟨e, rfl⟩)
      | ok caller =>
        exact Or.inr (Or.inr fun inst hg => (h inst ⟨⟨caller, hi⟩, hg⟩).resolve_left ht)
  · rintro hk inst ⟨⟨caller, hi⟩, hg⟩
    obtain hk | ⟨e, hk⟩ | hk := hk
    · exact Or.inl hk
    · rw [hi] at hk
      cases hk
    · exact Or.inr (hk inst hg)

def readableRow (d : Directory) (principal : String) (r : Row) : Bool :=
  r.payload.any fun inst => d.can principal (tenantOf inst) .read

theorem queryOrgIndex_readable (principal tenant : String) (limit : Int)
    (hw : ∀ r∈rows, ∃ inst, r=Store.rowOf inst)
    (hc : d.can principal tenant .read=true) :
    Store.queryOrgIndex rows tenant limit =
      Store.queryOrgIndex (rows.filter (readableRow d principal)) tenant limit := by
  rw [Store.queryOrgIndex, Store.queryOrgIndex, List.filter_filter]
  congr 1
  apply List.filter_congr
  intro r hr
  obtain ⟨inst, rfl⟩ := hw r hr
  by_cases ht : (Store.rowOf inst).organizationGuid=some tenant
  · obtain ⟨ho, hne⟩ : inst.organizationGuid=some tenant ∧ tenant≠"" := by
      simpa [Store.rowOf, Option.filter_eq_some_iff] using ht
    have hr : readableRow d principal (Store.rowOf inst)=true := by
      simp [readableRow, Store.rowOf, tenantOf, ho, orElseStr_ne hne, hc]
    simp [ht, hr]
  · simp [ht]

/-- Two tables that agree on what a token may read give its listing the same reply,
when the index answers. -/
theorem listInstances_two_runs {caller : Caller} {rows' : List Row}
    (hi : identify s decode auth=.ok caller) (hb : caller.isBasic=false)
    (hq : faults.query=none)
    (hw : ∀ r∈rows, ∃ inst, r=Store.rowOf inst) (hw' : ∀ r∈rows', ∃ inst, r=Store.rowOf inst)
    (hr : rows.filter (readableRow d caller.user.principal) =
      rows'.filter (readableRow d caller.user.principal))
    (tenantId : Option String) (limit : Int) :
    handle s d decode faults rows auth (.instances tenantId limit) =
      handle s d decode faults rows' auth (.instances tenantId limit) := by
  cases tenantId with
  | none => simp [handle, listInstances, hi, hb]
  | some tenant =>
    simp only [handle, listInstances, hi, hb, Bool.false_eq_true, if_false]
    have hg := enforceRbac_raised_none s d caller tenant .read
    cases he : (enforceRbac s d caller tenant .read).raised with
    | some e => rfl
    | none =>
      have hc : d.can caller.user.principal tenant .read=true := by
        simpa [hb, he] using hg
      simp only [pageReply, Store.listInstances, hq]
      rw [queryOrgIndex_readable caller.user.principal tenant limit hw hc,
        queryOrgIndex_readable caller.user.principal tenant limit hw' hc, hr]

end Lemmas

/-- Exactly when a reply keeps to its caller: for every request, table and directory.
The second part is the two-run form for listings by token over the index. -/
theorem inventory_isolation (s : Settings) (d : Directory)
    (decode : String → Except HttpError Claims) (faults : StoreFaults) (rows : List Row)
    (auth : AuthHeader) (req : Request) :
    ((∀ inst, Discloses s d decode faults rows auth req inst → Permitted s d decode auth inst) ↔
      KeptApart s d decode faults rows auth req) ∧
    (∀ caller rows' tenantId limit, identify s decode auth=.ok caller →
      caller.isBasic=false → faults.query=none →
      (∀ r∈rows, ∃ inst, r=Store.rowOf inst) → (∀ r∈rows', ∃ inst, r=Store.rowOf inst) →
      rows.filter (readableRow d caller.user.principal) =
        rows'.filter (readableRow d caller.user.principal) →
      handle s d decode faults rows auth (.instances tenantId limit) =
        handle s d decode faults rows' auth (.instances tenantId limit)) := by
  refine ⟨?_, fun caller rows' tenantId limit hi hb hq hw hw' hr =>
    listInstances_two_runs hi hb hq hw hw' hr tenantId limit⟩
  cases req with
  | instances tenantId limit => exact keptApart_instances tenantId limit
  | lastOperation instanceId => exact keptApart_lastOperation instanceId

def sampleInstance : ServiceInstance :=
  { instanceId := "i-1", serviceId := "sovereign-envoy-lb", planId := "standard-regional"
    organizationGuid := some "treasury" }

/-- A request with no credentials at all is served the whole table, although Basic
callers are not trusted and nobody holds a role. -/
theorem inventory_anonymous_leak :
    ¬ (∀ inst, Discloses { brokerTrustBasicAuth := false } {} (fun _ => .ok {}) {}
        [Store.rowOf sampleInstance] {} (.instances none 200) inst →
      Permitted { brokerTrustBasicAuth := false } {} (fun _ => .ok {}) {} inst) := by
  intro h
  have hd : Discloses { brokerTrustBasicAuth := false } {} (fun _ => .ok {}) {}
      [Store.rowOf sampleInstance] {} (.instances none 200) sampleInstance := by
    have hi : identify { brokerTrustBasicAuth := false } (fun _ => .ok {}) {} =
        .ok anonymousCaller := rfl
    refine (discloses_instances_basic hi rfl none 200 _).mpr ?_
    decide
  obtain ht | ⟨header, _, _, ha, _⟩ := h sampleInstance hd
  · exact absurd ht.1 (by decide)
  · cases ha

end Sovereign.Inventory
