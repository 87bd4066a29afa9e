import Sovereign.SideTables

/-! The gates of provision and update: RBAC, quota, policy and obligations come before the
first write, and what is stored is what the policy document describes. -/
namespace Sovereign.Broker
open Sovereign Policy Renderers

inductive GatedRequest where
  | provision (instanceId : String) (req : ProvisionRequest) (acceptsIncomplete : Bool)
  | update (instanceId : String) (req : UpdateRequest)

def GatedRequest.request : GatedRequest → Request
  | .provision instanceId req acceptsIncomplete => .provision instanceId req acceptsIncomplete
  | .update instanceId req => .update instanceId req

structure Screening where
  rbac : Gate
  quota : Gate := {}
  document : Json

/-- Some gate says no: RBAC or quota raises, the policy denies, or an obligation has no
handler that returns true. -/
def Screening.Rejects (env : Env) (sc : Screening) : Prop :=
  sc.rbac.raised≠none ∨ sc.quota.raised≠none ∨ (env.policy sc.document).allow=false ∨
    ∃ ob∈(env.policy sc.document).obligations, env.handlers ob≠some (.returned true)

/-- The gates that a request reaches, if it reaches them: a provision of a record that is
not there, or an update of one that is. -/
def screening (env : Env) (caller : Caller) (t : Tables) : GatedRequest → Option Screening
  | .provision instanceId req _ =>
    match Store.getInstance env.faults.toStoreFaults t.rows instanceId with
    | .ok none =>
      let tenantId := resolveTenantId caller req.organizationGuid
      some
        { rbac := enforceRbac env.settings env.directory caller tenantId .provision
          quota := if env.faults.quota then { raised := some internalError }
            else Quotas.checkQuota env.host env.quotas t.usage tenantId caller req.serviceId
              (env.packOf req.serviceId)
          document := buildPolicyInput (gateCall caller
            (tenantById env.directory.tenants tenantId) req.serviceId req.planId
            req.parameters.modelDump tenantId "provision") }
    | _ => none
  | .update instanceId req =>
    match Store.getInstance env.faults.toStoreFaults t.rows instanceId with
    | .ok (some inst) =>
      let tenantId := resolveTenantId caller inst.organizationGuid
      some
        { rbac := enforceRbac env.settings env.directory caller tenantId .update
          document := buildPolicyInput (gateCall caller
            (tenantById env.directory.tenants tenantId) inst.serviceId
            (orElseStr req.planId inst.planId)
            (req.parameters.getD inst.parameters).modelDump tenantId "update") }
    | _ => none

def asked (env : Env) (s : State) (auth : AuthHeader) (req : GatedRequest) : Segment :=
  match stateChangeIdentify env.settings env.decode auth with
  | .error e => failure [] e
  | .ok caller => serve env caller s.tables req.request

def screened (env : Env) (s : State) (auth : AuthHeader) (req : GatedRequest) :
    Option Screening :=
  match stateChangeIdentify env.settings env.decode auth with
  | .error _ => none
  | .ok caller => screening env caller s.tables req

def RequestWrites (env : Env) (s : State) (auth : AuthHeader) (req : GatedRequest) (w : Write) :
    Prop :=
  w∈(asked env s auth req).writes ∨
    ∃ task∈(asked env s auth req).task, ∃ env' outcome seg,
      task.resume env' outcome=some seg ∧ w∈seg.writes

def Write.changesInstance : Write → Bool
  | .put _ => true
  | .delete _ => true
  | _ => false

structure Describes (document : Json) (x : ServiceInstance) : Prop where
  plan : Json.get? "plan_id" document=some (.str x.planId)
  parameters : Json.get? "parameters" document=some (.obj x.parameters.modelDump)

/-! The update handler assigns the plan and the parameters one by one, and builds the
policy document from values computed beside it. -/

/-- `if req.plan_id: inst.plan_id = req.plan_id`. -/
def assignPlan (planId : Option String) (inst : ServiceInstance) : ServiceInstance :=
  match planId with
  | none => inst
  | some p => if p="" then inst else { inst with planId := p }

def assignParameters (parameters : Option LbParameters) (inst : ServiceInstance) :
    ServiceInstance :=
  match parameters with
  | none => inst
  | some p => { inst with parameters := p }

theorem updatedRecord_assigned (inst : ServiceInstance) (req : UpdateRequest) :
    updatedRecord inst req =
      let assigned := assignParameters req.parameters (assignPlan req.planId inst)
      beginOperation { assigned with version := assigned.version+1 } "update" := by
  cases hp : req.planId with
  | none => cases hq : req.parameters <;> simp [updatedRecord, assignPlan, assignParameters,
      orElseStr, hp, hq]
  | some plan =>
    by_cases he : plan=""
    · cases hq : req.parameters <;> simp [updatedRecord, assignPlan, assignParameters,
        orElseStr, hp, hq, he]
    · cases hq : req.parameters <;> simp [updatedRecord, assignPlan, assignParameters,
        orElseStr, hp, hq, he]

section Gates
variable {env : Env} {caller : Caller}

theorem honoured_iff (handlers : String → Option HandlerOutcome) (ob : String) :
    honoured handlers ob=true ↔ handlers ob=some (.returned true) := by
  rw [honoured]
  split
  · next b h => simp [h]
  · next h =>
    simp only [Bool.false_eq_true, false_iff]
    exact fun he => h true he

theorem not_rejects_iff (sc : Screening) :
    ¬ sc.Rejects env ↔ sc.rbac.raised=none ∧ sc.quota.raised=none ∧
      (env.policy sc.document).allow=true ∧
      ∀ ob∈(env.policy sc.document).obligations, honoured env.handlers ob=true := by
  simp [Screening.Rejects, honoured_iff]

theorem describes_call (c : Call) {x : ServiceInstance} (hp : c.planId=x.planId)
    (hq : c.parameters=x.parameters.modelDump) : Describes (buildPolicyInput c) x where
  plan := by simp [buildPolicyInput, Json.lookup, hp]
  parameters := by simp [buildPolicyInput, Json.lookup, hq]

/-- What an arriving request does: it only reports, or every gate has let it pass and it
stores the record that the document describes, which its task then holds. -/
inductive Passage (env : Env) (sc : Option Screening) (seg : Segment) : Prop where
  | reported (audits : List AuditRecord) (writes : seg.writes=audits.map .audit)
      (task : seg.task=none)
  | stored (judged : Screening) (x : ServiceInstance) (audits : List AuditRecord)
      (reached : sc=some judged) (passed : ¬ judged.Rejects env)
      (describes : Describes judged.document x)
      (writes : seg.writes=audits.map .audit ++ [.put x])
      (task : ∀ task∈seg.task, task.copies=[x] ∧ task.isTeardown=false)

theorem passage_of_gate {gate : Gate} {sc : Screening}
    (hgate : gate.raised=none ↔ ¬ sc.Rejects env) {x : ServiceInstance}
    (hd : Describes sc.document x) {task : Task} (hc : task.copies=[x])
    (ht : task.isTeardown=false) (e' : HttpError) (r : Option (Except HttpError Reply)) :
    Passage env (some sc)
      (match gate.raised with
      | some e => failure (gate.audits.map Write.audit) e
      | none =>
        if env.faults.put then failure (gate.audits.map Write.audit) e'
        else { writes := gate.audits.map Write.audit++[.put x], reply := r, task := some task }) := by
  cases hr : gate.raised with
  | some e => exact .reported gate.audits rfl rfl
  | none =>
    dsimp only
    split
    · exact .reported gate.audits rfl rfl
    · refine .stored sc x gate.audits rfl (hgate.mp hr) hd rfl ?_
      intro task' h
      cases h
      exact ⟨hc, ht⟩

theorem provision_passage (env : Env) (caller : Caller) (instanceId : String)
    (req : ProvisionRequest) (acceptsIncomplete : Bool) (t : Tables) :
    Passage env (screening env caller t (.provision instanceId req acceptsIncomplete))
      (provision env caller instanceId req acceptsIncomplete t) := by
  simp only [provision, screening]
  cases hg : Store.getInstance env.faults.toStoreFaults t.rows instanceId with
  | error e => exact .reported [] rfl rfl
  | ok found =>
    cases found with
    | some inst => exact .reported [] rfl rfl
    | none =>
      refine passage_of_gate ?_ (describes_call _ rfl rfl) rfl rfl _ _
      rw [not_rejects_iff, provisionGates, Gate.andThen_raised_none, Gate.andThen_raised_none,
        evaluatePolicy_raised_none, and_assoc]
      rfl

theorem update_passage (env : Env) (caller : Caller) (instanceId : String) (req : UpdateRequest)
    (t : Tables) :
    Passage env (screening env caller t (.update instanceId req))
      (update env caller instanceId req t) := by
  simp only [update, screening]
  cases hg : Store.getInstance env.faults.toStoreFaults t.rows instanceId with
  | error e => exact .reported [] rfl rfl
  | ok found =>
    cases found with
    | none => exact .reported [] rfl rfl
    | some inst =>
      refine passage_of_gate ?_ (describes_call _ rfl rfl) rfl rfl _ _
      rw [not_rejects_iff, updateGates, Gate.andThen_raised_none, evaluatePolicy_raised_none]
      simp only [true_and]
      rfl

theorem asked_passage (env : Env) (s : State) (auth : AuthHeader) (req : GatedRequest) :
    Passage env (screened env s auth req) (asked env s auth req) := by
  rw [screened, asked]
  cases stateChangeIdentify env.settings env.decode auth with
  | error e => exact .reported [] rfl rfl
  | ok caller =>
    cases req with
    | provision instanceId req acceptsIncomplete => exact provision_passage env caller _ _ _ _
    | update instanceId req => exact update_passage env caller _ _ _

theorem Passage.rejected {sc : Screening} {seg : Segment} (h : Passage env (some sc) seg)
    (hrej : sc.Rejects env) :
    ∃ audits : List AuditRecord, seg.writes=audits.map .audit ∧ seg.task=none := by
  cases h with
  | reported audits writes task => exact ⟨audits, writes, task⟩
  | stored judged x audits reached passed describes writes task =>
    cases reached
    exact absurd hrej passed

theorem tables_audits (hash : String → Nat) (audits : List AuditRecord) (t : Tables) :
    ((audits.map Write.audit).foldl (Write.apply hash) t).rows=t.rows := by
  induction audits generalizing t with
  | nil => rfl
  | cons r rest ih => exact ih _

theorem Describes.touched {document : Json} {c x : ServiceInstance} (h : Describes document c)
    (ht : Touched c x) : Describes document x where
  plan := by rw [ht.planId]; exact h.plan
  parameters := by rw [ht.parameters]; exact h.parameters

theorem kept_described (document : Json) : Kept (Describes document) where
  failed := fun c fault h => h.touched (touched_failed c fault)
  started := fun c h => h.touched (touched_reconcileStarted c)
  refreshed := fun _ _ _ h hr => h.touched (touched_refreshedDrift hr)

/-- After the render a request still writes what the document describes. -/
theorem resumed_described {document : Json} {x : ServiceInstance} (hd : Describes document x)
    {task : Task} (hc : task.copies=[x]) (ht : task.isTeardown=false) {outcome : Outcome}
    {seg : Segment} (hres : task.resume env outcome=some seg) :
    seg.Carries (Describes document) := by
  refine resume_carries (kept_described document) hres ht ?_ ?_
  · intro c hm
    rw [hc] at hm
    rw [List.mem_singleton.mp hm]
    exact hd
  · intro inst artifact y _ hr _ hy
    have hinst := rendering_mem hr
    rw [hc] at hinst
    have hy := touched_succeeded hy
    rw [List.mem_singleton.mp hinst] at hy
    exact hd.touched hy

theorem put_of_writesOnly {P : ServiceInstance → Prop} {ws : List Write} (h : WritesOnly P ws)
    {w : Write} (hw : w∈ws) (hc : w.changesInstance=true) : ∃ x, w=.put x ∧ P x := by
  cases w with
  | put y => exact ⟨y, rfl, h.puts y hw⟩
  | delete i => exact absurd hw (h.deletes i)
  | putBinding b => cases hc
  | deleteBinding b => cases hc
  | meter r => cases hc
  | audit r => cases hc

end Gates

theorem step_asked (hash : String → Nat) (env : Env) (s : State) (auth : AuthHeader)
    (req : GatedRequest) :
    step hash s (env, .request auth req.request)=s.run hash none (asked env s auth req) := by
  refine step_segment ?_
  rw [segment, asked]
  cases stateChangeIdentify env.settings env.decode auth <;> rfl

/-- A request that a gate rejects leaves the instances, the bindings, the usage records and
the waiting tasks as they were, so nothing is rendered for it. Whatever a request writes to
the instance table, then or after its render, is a record with the plan and parameters of a
document that every gate has let pass. -/
theorem gate_atomicity (hash : String → Nat) (env : Env) (s : State) (auth : AuthHeader)
    (req : GatedRequest) :
    (∀ sc, screened env s auth req=some sc → sc.Rejects env →
      (step hash s (env, .request auth req.request)).tables.rows=s.tables.rows ∧
      (step hash s (env, .request auth req.request)).tables.bindings=s.tables.bindings ∧
      (step hash s (env, .request auth req.request)).tables.usage=s.tables.usage ∧
      (step hash s (env, .request auth req.request)).tasks=s.tasks) ∧
    ∀ w, RequestWrites env s auth req w → w.changesInstance=true →
      ∃ sc x, screened env s auth req=some sc ∧ ¬ sc.Rejects env ∧ w=.put x ∧
        Describes sc.document x := by
  rw [step_asked]
  constructor
  · intro sc hsc hrej
    have hpassage := asked_passage env s auth req
    rw [hsc] at hpassage
    obtain ⟨audits, hwrites, htask⟩ := hpassage.rejected hrej
    obtain ⟨hb, hu⟩ := tables_plain hash (plain_audits audits) s.tables
    simp only [State.run, hwrites, htask]
    exact ⟨tables_audits hash audits s.tables, hb, hu, by simp⟩
  · intro w hw hchange
    cases asked_passage env s auth req with
    | reported audits writes task =>
      obtain hw | ⟨task', ht, _⟩ := hw
      · rw [writes] at hw
        obtain ⟨_, _, hfalse⟩ := put_of_writesOnly (P := fun _ => False) (writesOnly_audits audits)
          hw hchange
        exact hfalse.elim
      · rw [task] at ht
        cases ht
    | stored judged x audits reached passed describes writes task =>
      have hput : ∃ y, w=.put y ∧ Describes judged.document y := by
        obtain hw | ⟨task', ht, env', outcome, seg, hres, hw⟩ := hw
        · rw [writes] at hw
          exact put_of_writesOnly ((writesOnly_audits audits).append (WritesOnly.put describes))
            hw hchange
        · obtain ⟨hcopies, htear⟩ := task task' ht
          exact put_of_writesOnly (resumed_described describes hcopies htear hres).writes hw hchange
      obtain ⟨y, hy, hd⟩ := hput
      exact ⟨judged, y, reached, passed, hy, hd⟩

end Sovereign.Broker
