import Sovereign.ControlPlane
import Sovereign.Effects

/-! Deprovision and the live resources. The Envoy renderer deletes the objects under the
instance's prefix; the packs' renderers answer with the name of what a teardown would
remove, and no executor ever deletes anything. -/
namespace Sovereign.Teardown
open Sovereign Renderers Executors Trace

section Teardown
variable (s : RenderSettings) (b : Backend)

def instancePrefix (instanceId : String) : String := "instances/" ++ instanceId ++ "/"

/-- The keys a listing of the bucket returns for the instance. -/
def listKeys (instanceId : String) (w : World) : List String :=
  Text.sortedSet ((w.objects.filter fun o => decide (o.bucket=s.configBucket) &&
    (instancePrefix instanceId).toList.isPrefixOf o.key.toList).map S3Object.key)

structure Deletion where
  removed : List String := []
  failed : List String := []
  world : World

def deleteKeys (d : Deletion) : List String → Deletion
  | [] => d
  | key::keys =>
    match b.deleteFault s.configBucket key with
    | none => deleteKeys { d with
        removed := d.removed++[key], world := d.world.deleteObject s.configBucket key } keys
    | some e => deleteKeys { d with failed := d.failed++[key ++ ": " ++ e] } keys

/-- `EnvoyRenderer.teardown`. The listing may raise on a later page. -/
def envoyTeardown (inst : ServiceInstance) (w : World) : TeardownResult × World :=
  let keys := listKeys s inst.instanceId w
  match b.listFault with
  | none =>
    let d := deleteKeys s b { world := w } keys
    ({ ok := d.failed.isEmpty, removed := d.removed, failed := d.failed }, d.world)
  | some (listed, e) =>
    let d := deleteKeys s b { world := w } (keys.take listed)
    ({ ok := false, removed := d.removed, failed := d.failed, detail := e }, d.world)

/-- `TeardownResult(ok=True, removed=[name])` and nothing else. -/
def intent (name : String) (w : World) : TeardownResult × World :=
  ({ ok := true, removed := [name] }, w)

def teardown (t : ServiceType) (inst : ServiceInstance) (w : World) : TeardownResult × World :=
  match t with
  | .envoy => envoyTeardown s b inst w
  | .inferenceEndpoint => intent ("deployment/" ++ inst.instanceId) w
  | .ragWorkspace => intent ("configmap/" ++ inst.instanceId ++ "-rag") w
  | .managedDatabase => intent ("aws_db_instance." ++ inst.instanceId) w
  | .vectorDb => intent ("sovereign_vector_store." ++ inst.instanceId) w
  | .permissionedLedger => intent ("statefulset/" ++ inst.instanceId) w
  | .siemWorkspace => intent ("statefulset/" ++ inst.instanceId) w
  | .logPipeline => intent ("configmap/" ++ inst.instanceId ++ "-pipeline") w
  | .edgeNode => intent ("pod/" ++ inst.instanceId) w
  | .edgeCluster => intent ("daemonset/" ++ inst.instanceId) w
  | .cloudAccount => intent ("sovereign_cloud_account." ++ inst.instanceId) w
  | .landingZone => intent ("sovereign_landing_zone." ++ inst.instanceId) w
  | .secureEmail => intent ("secure-email/" ++ inst.instanceId) w
  | .secureChat => intent ("secure-chat/" ++ inst.instanceId) w
  | .idpBroker => intent ("idp-broker/" ++ inst.instanceId) w
  | .scimBridge => intent ("scim-bridge/" ++ inst.instanceId) w

end Teardown

section Specs
variable {s : RenderSettings} {b : Backend}

theorem deleteKeys_parts (keys : List String) (d : Deletion) :
    (deleteKeys s b d keys).removed=
        d.removed++keys.filter (fun key => (b.deleteFault s.configBucket key).isNone) ∧
      (deleteKeys s b d keys).failed=d.failed++keys.filterMap fun key =>
        (b.deleteFault s.configBucket key).map fun e => key ++ ": " ++ e := by
  induction keys generalizing d with
  | nil => simp [deleteKeys]
  | cons key keys ih =>
    cases hf : b.deleteFault s.configBucket key with
    | none =>
      simp only [deleteKeys, hf]
      obtain ⟨hr, he⟩ := ih { d with
        removed := d.removed++[key], world := d.world.deleteObject s.configBucket key }
      exact ⟨by rw [hr]; simp [hf], by rw [he]; simp [hf]⟩
    | some e =>
      simp only [deleteKeys, hf]
      obtain ⟨hr, he⟩ := ih { d with failed := d.failed++[key ++ ": " ++ e] }
      exact ⟨by rw [hr]; simp [hf], by rw [he]; simp [hf]⟩

theorem deleteKeys_objects (keys : List String) (d : Deletion) :
    (deleteKeys s b d keys).world.objects=d.world.objects.filter fun o =>
      decide (¬ (o.bucket=s.configBucket ∧ o.key∈keys ∧
        b.deleteFault s.configBucket o.key=none)) := by
  induction keys generalizing d with
  | nil => simp [deleteKeys]
  | cons key keys ih =>
    cases hf : b.deleteFault s.configBucket key with
    | none =>
      simp only [deleteKeys, hf]
      rw [ih, World.deleteObject, List.filter_filter]
      refine List.filter_congr ?_
      intro o _
      by_cases hk : o.key=key
      · by_cases hb : o.bucket=s.configBucket
        · simp [hk, hb, hf]
        · simp [hb]
      · simp [hk]
    | some e =>
      simp only [deleteKeys, hf]
      rw [ih]
      refine List.filter_congr ?_
      intro o _
      by_cases hk : o.key=key
      · simp [hk, hf]
      · simp [hk]

theorem deleteKeys_deployed (keys : List String) (d : Deletion) :
    (deleteKeys s b d keys).world.deployed=d.world.deployed := by
  induction keys generalizing d with
  | nil => rfl
  | cons key keys ih =>
    simp only [deleteKeys]
    split
    · exact ih _
    · exact ih _

theorem deleteKeys_gone (keys : List String) (d : Deletion)
    (h : (deleteKeys s b d keys).failed=[]) (key : String) (hk : key∈keys) :
    ∀ o∈(deleteKeys s b d keys).world.objects, ¬ (o.bucket=s.configBucket ∧ o.key=key) := by
  rintro o ho ⟨hb, rfl⟩
  rw [(deleteKeys_parts keys d).2, List.append_eq_nil_iff, List.filterMap_eq_nil_iff] at h
  rw [deleteKeys_objects, List.mem_filter, decide_eq_true_iff] at ho
  exact ho.2 ⟨hb, hk, Option.map_eq_none_iff.mp (h.2 _ hk)⟩

theorem mem_listKeys_iff {instanceId : String} {w : World} {key : String} :
    key∈listKeys s instanceId w ↔
      (∃ o∈w.objects, o.bucket=s.configBucket ∧ o.key=key) ∧
        (instancePrefix instanceId).toList.isPrefixOf key.toList=true := by
  rw [listKeys, Text.mem_sortedSet]
  simp only [List.mem_map, List.mem_filter, Bool.and_eq_true, decide_eq_true_eq]
  constructor
  · intro h
    obtain ⟨o, ⟨ho, hb, hp⟩, rfl⟩ := h
    exact ⟨⟨o, ho, hb, rfl⟩, hp⟩
  · intro h
    obtain ⟨⟨o, ho, hb, rfl⟩, hp⟩ := h
    exact ⟨o, ⟨ho, hb, hp⟩, rfl⟩

theorem mem_listKeys {instanceId : String} {w : World} {o : S3Object} (ho : o∈w.objects)
    (hb : o.bucket=s.configBucket)
    (hp : (instancePrefix instanceId).toList.isPrefixOf o.key.toList=true) :
    o.key∈listKeys s instanceId w :=
  mem_listKeys_iff.mpr ⟨⟨o, ho, hb, rfl⟩, hp⟩

/-- A teardown of the Envoy renderer that reports success leaves nothing under the
prefix. -/
theorem envoyTeardown_gone {inst : ServiceInstance} {w : World}
    (h : (envoyTeardown s b inst w).1.ok=true) (key : String)
    (hp : (instancePrefix inst.instanceId).toList.isPrefixOf key.toList=true) :
    ¬ (envoyTeardown s b inst w).2.Live (.object s.configBucket key) := by
  rintro ⟨o, ho, hb, hk⟩
  simp only [envoyTeardown] at h ho
  split at h
  · next hl =>
    simp only [hl] at ho
    have hf : (deleteKeys s b { world := w } (listKeys s inst.instanceId w)).failed=[] := by
      simpa using h
    have hin : o∈w.objects := by
      rw [deleteKeys_objects] at ho
      exact (List.mem_filter.mp ho).1
    have hkey : o.key∈listKeys s inst.instanceId w := mem_listKeys hin hb (by rw [hk]; exact hp)
    exact deleteKeys_gone _ _ hf o.key hkey o ho ⟨hb, rfl⟩
  · cases h

theorem teardown_deployed (t : ServiceType) (inst : ServiceInstance) (w : World) :
    (teardown s b t inst w).2.deployed=w.deployed := by
  cases t with
  | envoy =>
    simp only [teardown, envoyTeardown]
    split
    · exact deleteKeys_deployed _ _
    · exact deleteKeys_deployed _ _
  | _ => rfl

/-- The packs' teardowns report success. -/
theorem teardown_pack {t : ServiceType} (ht : t≠.envoy) (inst : ServiceInstance) (w : World) :
    (teardown s b t inst w).1.ok=true ∧ (teardown s b t inst w).2=w := by
  cases t with
  | envoy => exact absurd rfl ht
  | _ => exact ⟨rfl, rfl⟩

end Specs
/-! Everything that reaches the backends: renders by the control plane, teardowns by the
broker, of any instances. -/

inductive Operation where
  | render (codec : Codec) (backend : Backend) (inst : ServiceInstance)
  | teardown (backend : Backend) (inst : ServiceInstance)

section Operations
variable (s : RenderSettings)

def Operation.run (w : World) : Operation → World
  | .render codec backend inst =>
    (ControlPlane.render { codec, settings := s, backend } inst w).world
  | .teardown backend inst =>
    match ServiceType.get inst.serviceId with
    | none => w
    | some t => (Teardown.teardown s backend t inst w).2

def Operation.reply (instanceId serviceId : String) (w : World) :
    Operation → Option ControlPlane.RenderReply
  | .render codec backend inst =>
    if inst.instanceId=instanceId ∧ inst.serviceId=serviceId then
      (ControlPlane.render { codec, settings := s, backend } inst w).reply.toOption
    else none
  | .teardown _ _ => none

def applications (instanceId serviceId : String) :
    World → List Operation → List ControlPlane.RenderReply
  | _, [] => []
  | w, op::ops =>
    (op.reply s instanceId serviceId w).toList ++
      applications instanceId serviceId (op.run s w) ops

def createdResources (replies : List ControlPlane.RenderReply) : List Resource :=
  (replies.flatMap fun r => r.manifest).filterMap (resource s)

end Operations

section Histories
variable {s : RenderSettings}

theorem applyManifest_deployed (b : Backend) (manifest applied : List DeploymentStep)
    (w : World) : w.deployed⊆(applyManifest b manifest applied w).2.deployed := by
  induction manifest generalizing applied w with
  | nil => exact List.Subset.refl _
  | cons step rest ih =>
    rw [applyManifest]
    cases he : execute b step w with
    | none => exact List.Subset.refl _
    | some out =>
      obtain ⟨result, w₁⟩ := out
      have hx := execute_spec he
      cases result with
      | error e => exact hx.deployed
      | ok result =>
        dsimp only
        split
        · exact fun r hr => ih _ w₁ (hx.deployed hr)
        · exact hx.deployed

theorem envoyApply_deployed (b : Backend) (files : List (String × Bytes))
    (manifest applied : List DeploymentStep) (w : World) :
    (envoyApply b s files manifest applied w).2.deployed=w.deployed := by
  induction manifest generalizing applied w with
  | nil => rfl
  | cons step rest ih =>
    rw [envoyApply]
    split
    · split
      · rfl
      · dsimp only
        split
        · rfl
        · exact ih _ _
    · exact ih _ _
    · exact ih _ _

theorem apply_deployed (b : Backend) (t : ServiceType) (a : RenderedArtifact) (w : World) :
    w.deployed⊆(apply b s t a w).2.deployed := by
  cases t with
  | envoy =>
    rw [apply, envoyApply_deployed]
    exact List.Subset.refl _
  | secureEmail | secureChat | idpBroker | scimBridge => exact List.Subset.refl _
  | inferenceEndpoint | ragWorkspace | managedDatabase | vectorDb | permissionedLedger |
      siemWorkspace | logPipeline | edgeNode | edgeCluster | cloudAccount | landingZone =>
    exact applyManifest_deployed b _ _ w

theorem render_deployed (plane : ControlPlane.Plane) (inst : ServiceInstance) (w : World) :
    w.deployed⊆(ControlPlane.render plane inst w).world.deployed := by
  obtain h | ⟨t, a, h⟩ := ControlPlane.render_world plane inst w
  · rw [h]
    exact List.Subset.refl _
  · rw [h]
    exact apply_deployed _ _ _ w

/-- No operation takes a deployed resource away. -/
theorem run_deployed (w : World) (op : Operation) : w.deployed⊆(op.run s w).deployed := by
  cases op with
  | render codec backend inst => exact render_deployed _ inst w
  | teardown backend inst =>
    simp only [Operation.run]
    split
    · exact List.Subset.refl _
    · rw [teardown_deployed]
      exact List.Subset.refl _

theorem exec_deployed (w : World) (ops : List Operation) :
    w.deployed⊆(exec (Operation.run s) w ops).deployed := by
  induction ops generalizing w with
  | nil => exact List.Subset.refl _
  | cons op ops ih => exact fun r hr => ih (op.run s w) (run_deployed w op hr)

theorem mem_applications {instanceId serviceId : String} {w : World} {ops : List Operation}
    {reply : ControlPlane.RenderReply} (h : reply∈applications s instanceId serviceId w ops) :
    ∃ plane inst w₁, plane.settings=s ∧ inst.instanceId=instanceId ∧
      inst.serviceId=serviceId ∧ (ControlPlane.render plane inst w₁).reply=.ok reply ∧
      (ControlPlane.render plane inst w₁).world.deployed⊆
        (exec (Operation.run s) w ops).deployed := by
  induction ops generalizing w with
  | nil => cases h
  | cons op ops ih =>
    cases List.mem_append.mp h with
    | inr h => exact ih h
    | inl h =>
      cases op with
      | teardown backend inst => cases h
      | render codec backend inst =>
        simp only [Operation.reply] at h
        split at h
        · next hid =>
          cases hr : (ControlPlane.render { codec, settings := s, backend } inst w).reply with
          | error e =>
            rw [hr] at h
            cases h
          | ok r =>
            rw [hr] at h
            have he : reply=r := List.mem_singleton.mp h
            subst he
            exact ⟨_, inst, w, rfl, hid.1, hid.2, hr, exec_deployed _ ops⟩
        · cases h

end Histories
section Created
variable {plane : ControlPlane.Plane} {inst : ServiceInstance} {w : World} {t : ServiceType}
  {reply : ControlPlane.RenderReply}

theorem live_of_deployed {s : RenderSettings} {step : DeploymentStep} {r : Resource}
    (hk : step.kind≠"s3-put") (hr : resource s step=some r) (hd : r∈w.deployed) : w.Live r := by
  cases r with
  | object bucket key =>
    simp only [resource] at hr
    split at hr
    · next he => exact absurd he hk
    · simp at hr
    · cases hr
    · simp at hr
    · cases hr
  | kubernetes namespace_ path => exact hd
  | helm release => exact hd
  | terraform dir => exact hd

theorem disk_creates (ht : ControlPlane.appliesFromDisk t=true)
    (hg : ServiceType.get inst.serviceId=some t)
    (h : (ControlPlane.render plane inst w).reply=.ok reply) :
    ∃ step∈reply.manifest, ∃ r, resource plane.settings step=some r ∧ step.kind≠"s3-put" ∧
      r∈(ControlPlane.render plane inst w).world.deployed := by
  obtain ⟨t', a, ar, hg', hr, har, hok, hm, -, hw⟩ := ControlPlane.render_ok h
  have htt : t'=t := Option.some.inj (hg'.symm.trans hg)
  subst htt
  obtain ⟨step, body, hd⟩ := ControlPlane.render_fromDisk ht hr
  rw [ControlPlane.apply_fromDisk ht] at har hw
  obtain ⟨happ, _, _, _, _, hcre⟩ :=
    applyManifest_ok plane.backend a.deploymentManifest [] w har hok
  have hstep : step∈a.deploymentManifest := by
    rw [hd.manifest]
    exact List.mem_cons_self
  obtain ⟨r, hres⟩ := hd.creates plane.settings
  refine ⟨step, ?_, r, hres, hd.kind, ?_⟩
  · rw [hm, happ]
    exact hstep
  · rw [hw]
    exact hcre step hstep plane.settings r hres

theorem envoyApply_applied (b : Backend) (s : RenderSettings) (files : List (String × Bytes))
    (manifest applied : List DeploymentStep) (w : World) :
    ∀ step∈(envoyApply b s files manifest applied w).1.appliedSteps,
      step∈applied ∨ step∈manifest := by
  induction manifest generalizing applied w with
  | nil => exact fun step h => Or.inl h
  | cons first rest ih =>
    have hskip : ∀ w', ∀ step∈(envoyApply b s files rest applied w').1.appliedSteps,
        step∈applied ∨ step∈first::rest := by
      intro w' step h
      cases ih applied w' step h with
      | inl h => exact Or.inl h
      | inr h => exact Or.inr (List.mem_cons_of_mem first h)
    have htake : ∀ w', ∀ step∈(envoyApply b s files rest (applied++[first]) w').1.appliedSteps,
        step∈applied ∨ step∈first::rest := by
      intro w' step h
      cases ih (applied++[first]) w' step h with
      | inl h =>
        cases List.mem_append.mp h with
        | inl h => exact Or.inl h
        | inr h => exact Or.inr (by rw [List.mem_singleton.mp h]; exact List.mem_cons_self)
      | inr h => exact Or.inr (List.mem_cons_of_mem first h)
    rw [envoyApply]
    split
    · split
      · exact fun step h => Or.inl h
      · dsimp only
        split
        · exact fun step h => Or.inl h
        · exact htake _
    · exact htake _
    · exact hskip _

/-- Every resource of an Envoy artifact is an object under the instance's prefix. -/
theorem envoy_resource {s : RenderSettings} {k : Codec} {a : RenderedArtifact}
    (h : renderEnvoy s k inst=.ok a) {step : DeploymentStep}
    (hstep : step∈a.deploymentManifest) {r : Resource} (hr : resource s step=some r) :
    ∃ key, r=.object s.configBucket key ∧
      (instancePrefix inst.instanceId).toList.isPrefixOf key.toList=true := by
  rw [(ControlPlane.renderEnvoy_ok h).manifest] at hstep
  cases List.mem_cons.mp hstep with
  | inl he =>
    subst he
    refine ⟨keyFor inst.instanceId inst.version "envoy.yaml", ?_, ?_⟩
    · simp only [resource, Option.some.injEq] at hr
      rw [← hr, ControlPlane.payload_configBucket rfl]
    · rw [List.isPrefixOf_iff_prefix]
      simp only [instancePrefix, keyFor, String.toList_append]
      exact ⟨"v".toList ++ (toString inst.version).toList ++ "/envoy.yaml".toList, by simp⟩
  | inr he =>
    have hs := List.mem_singleton.mp he
    subst hs
    simp [resource] at hr

/-- The Envoy renderer creates objects under the prefix, the configuration-only renderers
create nothing. -/
theorem native_creates (ht : ControlPlane.appliesFromDisk t=false)
    (hg : ServiceType.get inst.serviceId=some t)
    (h : (ControlPlane.render plane inst w).reply=.ok reply) {step : DeploymentStep}
    (hstep : step∈reply.manifest) {r : Resource} (hr : resource plane.settings step=some r) :
    t=.envoy ∧ ∃ key, r=.object plane.settings.configBucket key ∧
      (instancePrefix inst.instanceId).toList.isPrefixOf key.toList=true := by
  obtain ⟨t', a, ar, hg', hra, har, hok, hm, -, hw⟩ := ControlPlane.render_ok h
  have htt : t'=t := Option.some.inj (hg'.symm.trans hg)
  subst htt
  rw [hm] at hstep
  cases t' with
  | envoy =>
    cases har
    refine ⟨rfl, ?_⟩
    cases envoyApply_applied _ _ _ _ _ _ step hstep with
    | inl h => cases h
    | inr h => exact envoy_resource hra h hr
  | secureEmail | secureChat | idpBroker | scimBridge =>
    cases har
    cases hstep
  | inferenceEndpoint | ragWorkspace | managedDatabase | vectorDb | permissionedLedger |
      siemWorkspace | logPipeline | edgeNode | edgeCluster | cloudAccount | landingZone =>
    cases ht

end Created

structure Exit where
  audits : List AuditRecord
  reply : Option (Except HttpError Broker.Reply)
  world : World

def auditRecord : Broker.Write → Option AuditRecord
  | .audit record => some record
  | _ => none

def deprovisionAll (env : Broker.Env) (s : RenderSettings) (b : Backend) (caller : Caller)
    (instanceId : String) (t : Broker.Tables) (w : World) : Exit :=
  let first := Broker.deprovision env caller instanceId t
  let audits := first.writes.filterMap auditRecord
  match first.task with
  | some (.teardown instanceId inst caller tenantId) =>
    match ServiceType.get inst.serviceId with
    | none => { audits, reply := none, world := w }
    | some ty =>
      let (result, w) := teardown s b ty inst w
      let last := Broker.deprovisionTornDown env instanceId inst caller tenantId (.ok result)
      { audits := audits ++ last.writes.filterMap auditRecord, reply := last.reply, world := w }
  | _ => { audits, reply := first.reply, world := w }

def Exit.records (e : Exit) (action : String) : Prop := ∃ r∈e.audits, r.action=action

/-- After a recorded teardown none of the resources is live, and a deprovision that
records none records that it failed or was skipped. -/
def Clean (e : Exit) (created : List Resource) : Prop :=
  (e.records "instance.torn_down" → ∀ r∈created, ¬ e.world.Live r) ∧
  (¬ e.records "instance.torn_down" →
    e.records "instance.teardown_failed" ∨ e.records "instance.teardown_skipped")

theorem enforceRbac_audits {s : Settings} {d : Directory} {caller : Caller} {tenantId : String}
    {action : Action} (h : (enforceRbac s d caller tenantId action).raised=none) :
    (enforceRbac s d caller tenantId action).audits=[] := by
  unfold enforceRbac at h ⊢
  split
  · rfl
  · split
    · rfl
    · next hb hc => simp [hb, hc] at h

section Deprovision
variable {env : Broker.Env} {s : RenderSettings} {b : Backend} {caller : Caller}
  {instanceId : String} {t : Broker.Tables} {w : World} {inst : ServiceInstance}
  {ty : ServiceType}

/-- A successful deprovision of a registered type ran the renderer's teardown and recorded
its result. -/
theorem deprovisionAll_done (hst : Store.stored t.rows instanceId=some inst)
    (hg : ServiceType.get inst.serviceId=some ty)
    (hdone : (deprovisionAll env s b caller instanceId t w).reply=some (.ok .deprovisioned)) :
    ∃ record, record.action="instance.deprovisioned" ∧
      (deprovisionAll env s b caller instanceId t w).audits =
        [Broker.teardownRecord inst caller (resolveTenantId caller inst.organizationGuid)
          (.ok (teardown s b ty inst w).1), record] ∧
      (deprovisionAll env s b caller instanceId t w).world=(teardown s b ty inst w).2 := by
  unfold deprovisionAll Broker.deprovision at hdone ⊢
  cases hget : Store.getInstance env.faults.toStoreFaults t.rows instanceId with
  | error e => simp [hget, Broker.failure] at hdone
  | ok found =>
    cases found with
    | none => simp [hget, Broker.failure] at hdone
    | some x =>
      have hx : x=inst := Option.some.inj ((Store.stored_of_getInstance hget).symm.trans hst)
      subst hx
      simp only [hget] at hdone ⊢
      cases hr : (enforceRbac env.settings env.directory caller
          (resolveTenantId caller x.organizationGuid) .deprovision).raised with
      | some e => simp [hr, Broker.failure] at hdone
      | none =>
        simp only [hr, hg, enforceRbac_audits hr] at hdone ⊢
        unfold Broker.deprovisionTornDown Broker.deleteRecord at hdone ⊢
        split at hdone
        · simp [Broker.failure] at hdone
        · next hf =>
          rw [if_neg hf]
          exact ⟨_, rfl, rfl, trivial⟩

theorem records_done (hst : Store.stored t.rows instanceId=some inst)
    (hg : ServiceType.get inst.serviceId=some ty)
    (hdone : (deprovisionAll env s b caller instanceId t w).reply=some (.ok .deprovisioned)) :
    ((deprovisionAll env s b caller instanceId t w).records "instance.torn_down" ↔
      (teardown s b ty inst w).1.ok=true) ∧
    ((teardown s b ty inst w).1.ok=false →
      (deprovisionAll env s b caller instanceId t w).records "instance.teardown_failed") := by
  obtain ⟨record, hrec, haudits, _⟩ := deprovisionAll_done hst hg hdone
  simp only [Exit.records, haudits, List.mem_cons, List.not_mem_nil, or_false, exists_eq_or_imp,
    exists_eq_left, hrec, Broker.teardownRecord]
  cases (teardown s b ty inst w).1.ok with
  | true => simp
  | false => simp

variable {history : List Operation}

/-- What was applied from the artifact directory outlives its recorded teardown. -/
theorem not_clean_of_disk (hst : Store.stored t.rows instanceId=some inst)
    (hg : ServiceType.get inst.serviceId=some ty) (hdisk : ControlPlane.appliesFromDisk ty=true)
    {reply : ControlPlane.RenderReply}
    (hreply : reply∈applications s inst.instanceId inst.serviceId w history)
    (hdone : (deprovisionAll env s b caller instanceId t (exec (Operation.run s) w history)).reply =
      some (.ok .deprovisioned)) :
    ¬ Clean (deprovisionAll env s b caller instanceId t (exec (Operation.run s) w history))
      (createdResources s (applications s inst.instanceId inst.serviceId w history)) := by
  intro hclean
  have hne : ty≠.envoy := by
    intro he
    rw [he] at hdisk
    cases hdisk
  obtain ⟨plane, x, w₁, hs, _, hsid, hok, hdep⟩ := mem_applications hreply
  obtain ⟨step, hstep, r, hres, hk, hr⟩ := disk_creates hdisk (hsid ▸ hg) hok
  have hmem : r∈createdResources s
      (applications s inst.instanceId inst.serviceId w history) := by
    refine List.mem_filterMap.mpr ⟨step, List.mem_flatMap.mpr ⟨reply, hreply, hstep⟩, ?_⟩
    rw [← hs]
    exact hres
  obtain ⟨hokt, hsame⟩ := teardown_pack (s := s) (b := b) hne inst
    (exec (Operation.run s) w history)
  obtain ⟨_, _, _, hworld⟩ := deprovisionAll_done hst hg hdone
  have htorn := (records_done hst hg hdone).1.mpr hokt
  refine absurd ?_ (hclean.1 htorn r hmem)
  rw [hworld, hsame]
  exact live_of_deployed hk hres (hdep hr)

/-- The other renderers' resources are gone, or the failure is recorded. -/
theorem clean_of_native (hst : Store.stored t.rows instanceId=some inst)
    (hg : ServiceType.get inst.serviceId=some ty)
    (hdisk : ControlPlane.appliesFromDisk ty=false)
    (hdone : (deprovisionAll env s b caller instanceId t (exec (Operation.run s) w history)).reply =
      some (.ok .deprovisioned)) :
    Clean (deprovisionAll env s b caller instanceId t (exec (Operation.run s) w history))
      (createdResources s (applications s inst.instanceId inst.serviceId w history)) := by
  obtain ⟨htorn, hfailed⟩ := records_done hst hg hdone
  obtain ⟨_, _, _, hworld⟩ := deprovisionAll_done hst hg hdone
  refine ⟨?_, ?_⟩
  · intro hrec r hr
    obtain ⟨step, hstep, hres⟩ := List.mem_filterMap.mp hr
    obtain ⟨reply, hreply, hstep⟩ := List.mem_flatMap.mp hstep
    obtain ⟨plane, x, w₁, hs, hid, hsid, hok, _⟩ := mem_applications hreply
    obtain ⟨hty, key, hkey, hpre⟩ := native_creates hdisk (hsid ▸ hg) hok hstep (hs ▸ hres)
    rw [hid] at hpre
    rw [hworld, hkey, hs]
    rw [hty] at htorn ⊢
    exact envoyTeardown_gone (htorn.mp hrec) key hpre
  · intro hnot
    refine Or.inl (hfailed ?_)
    cases hokt : (teardown s b ty inst (exec (Operation.run s) w history)).1.ok with
    | false => rfl
    | true => exact absurd (htorn.mpr hokt) hnot

end Deprovision

/-- For an instance whose manifest was applied, a successful deprovision is clean exactly
when the renderer is the Envoy one or one that deploys nothing. -/
theorem teardown_clean_iff (env : Broker.Env) (s : RenderSettings) (b : Backend)
    (caller : Caller) (instanceId : String) (t : Broker.Tables) (w : World)
    (history : List Operation) (inst : ServiceInstance)
    (hst : Store.stored t.rows instanceId=some inst)
    (happlied : applications s inst.instanceId inst.serviceId w history≠[])
    (hdone : (deprovisionAll env s b caller instanceId t (exec (Operation.run s) w history)).reply =
      some (.ok .deprovisioned)) :
    Clean (deprovisionAll env s b caller instanceId t (exec (Operation.run s) w history))
        (createdResources s (applications s inst.instanceId inst.serviceId w history)) ↔
      ∃ ty, ServiceType.get inst.serviceId=some ty ∧ ControlPlane.appliesFromDisk ty=false := by
  obtain ⟨reply, hreply⟩ := List.exists_mem_of_ne_nil _ happlied
  obtain ⟨plane, x, w₁, _, _, hsid, hok, _⟩ := mem_applications hreply
  obtain ⟨ty, _, _, hg, _⟩ := ControlPlane.render_ok hok
  rw [hsid] at hg
  constructor
  · intro hclean
    refine ⟨ty, hg, ?_⟩
    cases hdisk : ControlPlane.appliesFromDisk ty with
    | false => rfl
    | true => exact absurd hclean (not_clean_of_disk hst hg hdisk hreply hdone)
  · rintro ⟨ty', hg', hdisk⟩
    exact clean_of_native hst hg' hdisk hdone

/-! The landing zone again: rendered once, then deprovisioned. -/

def exitEnv : Broker.Env :=
  { decode := fun _ => .error (unauthorized "no token"), policy := fun _ => { allow := true } }

def brokerCaller : Caller :=
  { user := { principal := "broker:broker", tenantId := none, groups := [], raw := {} }
    isBasic := true }

def landingZoneTables : Broker.Tables :=
  { rows := Store.putInstance (fun _ => 0) ControlPlane.landingZone [] }

def landingZoneHistory : List Operation :=
  [.render ControlPlane.samplePlane.codec ControlPlane.samplePlane.backend
    ControlPlane.landingZone]

def landingZoneExit : Exit :=
  deprovisionAll exitEnv {} ControlPlane.samplePlane.backend brokerCaller "lz-1"
    landingZoneTables (exec (Operation.run {}) ControlPlane.staleWorld landingZoneHistory)

theorem landingZone_applications :
    applications {} "lz-1" "landing-zone" ControlPlane.staleWorld landingZoneHistory =
      [ControlPlane.landingZoneReply] := rfl

theorem teardown_clean_iff_landingZone :
    Clean landingZoneExit (createdResources {} (applications {} "lz-1" "landing-zone"
      ControlPlane.staleWorld landingZoneHistory)) ↔
    ∃ ty, ServiceType.get "landing-zone"=some ty ∧ ControlPlane.appliesFromDisk ty=false :=
  teardown_clean_iff exitEnv {} ControlPlane.samplePlane.backend brokerCaller "lz-1"
    landingZoneTables ControlPlane.staleWorld landingZoneHistory ControlPlane.landingZone rfl
    (fun h => by cases landingZone_applications.symm.trans h) rfl

/-- The record says that the landing zone is torn down; its module is still applied. -/
theorem landingZone_outlives_teardown :
    landingZoneExit.reply=some (.ok .deprovisioned) ∧
    landingZoneExit.audits.map (fun r => (r.action, Json.lookup "removed" r.metadata)) =
      [("instance.torn_down", some (.arr [.str "sovereign_landing_zone.lz-1"])),
       ("instance.deprovisioned", none)] ∧
    landingZoneExit.world.Live (.terraform "/artifacts/lz-1") ∧
    ¬ Clean landingZoneExit (createdResources {} (applications {} "lz-1" "landing-zone"
      ControlPlane.staleWorld landingZoneHistory)) := by
  have hdone : landingZoneExit.reply=some (.ok .deprovisioned) := rfl
  refine ⟨hdone, rfl, ?_, ?_⟩
  · exact List.mem_cons_self
  · have hst : Store.stored landingZoneTables.rows "lz-1"=some ControlPlane.landingZone := rfl
    have hg : ServiceType.get ControlPlane.landingZone.serviceId=some .landingZone := by decide
    have hmem : ControlPlane.landingZoneReply∈applications {} "lz-1" "landing-zone"
        ControlPlane.staleWorld landingZoneHistory := by
      rw [landingZone_applications]
      exact List.mem_cons_self
    exact not_clean_of_disk hst hg rfl hmem hdone

end Sovereign.Teardown
