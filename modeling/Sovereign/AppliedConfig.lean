import Sovereign.FailureAttribution
import Sovereign.Teardown

/-! Bindings and the configuration they point at: the broker and the control plane with the
object store between them. The answers of the control plane travel as messages; an answer
may be lost, and a render may run after its caller has given up. -/
namespace Sovereign.AppliedConfig
open Sovereign Renderers Executors Teardown ControlPlane

/-- `storeFault` is an error of the object store other than a missing key. -/
def getConfig (s : RenderSettings) (storeFault : Option String) (w : World)
    (instanceId : String) (version : Int) : Except HttpError Bytes :=
  let key := keyFor instanceId version "envoy.yaml"
  match storeFault with
  | some e => .error ⟨503, .str ("object store unavailable: " ++ e)⟩
  | none =>
    match w.getObject s.configBucket key with
    | some body => .ok body
    | none => .error ⟨404, .str ("no config at " ++ key)⟩

structure System where
  broker : Broker.State := {}
  world : World
  /-- the answers of successful renders, each with the record it was asked for -/
  answers : List (ServiceInstance × RenderReply) := []

inductive Move where
  | broker (env : Broker.Env) (event : Broker.Event)
  | control (op : Operation)

section System
variable (hash : String → Nat) (s : RenderSettings)

def answer (w : World) : Operation → Option (ServiceInstance × RenderReply)
  | .render codec backend inst =>
    (render { codec, settings := s, backend } inst w).reply.toOption.map fun r => (inst, r)
  | .teardown _ _ => none

def System.step (sys : System) : Move → System
  | .broker env event => { sys with broker := Broker.step hash sys.broker (env, event) }
  | .control op =>
    { sys with world := op.run s sys.world, answers := (answer s sys.world op).toList++sys.answers }

end System

/-- A render that the broker brings back was answered for that record. -/
def Delivered (sys : System) : Move → Prop
  | .broker env event => ∀ inst artifact,
      Broker.rendered sys.broker (env, event)=some (inst, artifact) →
        ∃ r, (inst, r)∈sys.answers ∧ artifact=Broker.replyMembers r
  | .control _ => True

def isEnvoy (inst : ServiceInstance) : Prop := ServiceType.get inst.serviceId=some .envoy

instance (inst : ServiceInstance) : Decidable (isEnvoy inst) :=
  inferInstanceAs (Decidable (ServiceType.get inst.serviceId=some .envoy))

def Applies (s : RenderSettings) (w : World) (op : Operation) (instanceId : String)
    (version : Int) : Prop :=
  ∃ inst r, answer s w op=some (inst, r) ∧ isEnvoy inst ∧ inst.instanceId=instanceId ∧
    inst.version=version

def TearsDown (instanceId : String) : Move → Prop
  | .control (.teardown _ inst) => inst.instanceId=instanceId
  | _ => False

/-- Instance ids are path segments of the broker's routes. -/
def Routed : Move → Prop
  | .control (.teardown _ inst) => '/'∉inst.instanceId.toList
  | _ => True

section Objects
variable {s : RenderSettings} {b : Backend} {bucket key : String}

theorem getConfig_isOk {w : World} {instanceId : String} {version : Int} :
    (getConfig s none w instanceId version).isOk=true ↔
      w.Live (.object s.configBucket (keyFor instanceId version "envoy.yaml")) := by
  unfold getConfig World.getObject World.Live
  dsimp only
  cases hf : w.objects.find? fun o => decide (o.bucket=s.configBucket ∧
      o.key=keyFor instanceId version "envoy.yaml") with
  | none =>
    rw [List.find?_eq_none] at hf
    simp only [Option.map_none, Except.isOk, Except.toBool, Bool.false_eq_true, false_iff]
    intro h
    obtain ⟨o, ho, hkey⟩ := h
    exact hf o ho (by simpa using hkey)
  | some o =>
    simp only [Option.map_some, Except.isOk, Except.toBool, true_iff]
    exact ⟨o, List.mem_of_find?_eq_some hf, by simpa using List.find?_some hf⟩

theorem live_putObject (b' k' : String) (body : Bytes) {w : World}
    (h : w.Live (.object bucket key)) : (w.putObject b' k' body).Live (.object bucket key) := by
  obtain ⟨o, ho, hb, hk⟩ := h
  by_cases hsame : o.bucket=b' ∧ o.key=k'
  · exact ⟨⟨b', k', body⟩, List.mem_cons_self, hsame.1.symm.trans hb, hsame.2.symm.trans hk⟩
  · exact ⟨o, List.mem_cons_of_mem _ (List.mem_filter.mpr ⟨ho, decide_eq_true hsame⟩), hb, hk⟩

theorem live_envoyApply (files : List (String × Bytes)) (manifest applied : List DeploymentStep)
    {w : World} (h : w.Live (.object bucket key)) :
    (envoyApply b s files manifest applied w).2.Live (.object bucket key) := by
  induction manifest generalizing applied w with
  | nil => exact h
  | cons step rest ih =>
    rw [envoyApply]
    split
    · split
      · exact h
      · dsimp only
        split
        · exact h
        · exact ih _ (live_putObject _ _ _ h)
    · exact ih _ h
    · exact ih _ h

theorem applyManifest_objects (manifest applied : List DeploymentStep) (w : World) :
    (applyManifest b manifest applied w).2.objects=w.objects := by
  induction manifest generalizing applied w with
  | nil => rfl
  | cons step rest ih =>
    rw [applyManifest]
    cases he : execute b step w with
    | none => rfl
    | some out =>
      obtain ⟨result, w'⟩ := out
      have hobj := (execute_spec he).objects
      cases result with
      | error e => exact hobj
      | ok result =>
        dsimp only
        split
        · rw [ih, hobj]
        · exact hobj

theorem live_apply (t : ServiceType) (a : RenderedArtifact) {w : World}
    (h : w.Live (.object bucket key)) : (apply b s t a w).2.Live (.object bucket key) := by
  have hpack : (applyManifest b a.deploymentManifest [] w).2.Live (.object bucket key) := by
    unfold World.Live
    rw [applyManifest_objects]
    exact h
  cases t with
  | envoy => exact live_envoyApply _ _ _ h
  | secureEmail | secureChat | idpBroker | scimBridge => exact h
  | _ => exact hpack

theorem live_render (plane : Plane) (inst : ServiceInstance) {w : World}
    (h : w.Live (.object bucket key)) :
    (render plane inst w).world.Live (.object bucket key) := by
  obtain hsame | ⟨t, a, happlied⟩ := render_world plane inst w
  · rw [hsame]
    exact h
  · rw [happlied]
    exact live_apply t a h

theorem live_deleteKeys {key : String} (keys : List String) (hk : key∉keys) (d : Deletion)
    (h : d.world.Live (.object s.configBucket key)) :
    (deleteKeys s b d keys).world.Live (.object s.configBucket key) := by
  induction keys generalizing d with
  | nil => exact h
  | cons k keys ih =>
    obtain ⟨hne, hrest⟩ := not_or.mp (fun hm => hk (List.mem_cons.mpr hm))
    simp only [deleteKeys]
    split
    · apply ih hrest
      obtain ⟨o, ho, hb, hkey⟩ := h
      refine ⟨o, List.mem_filter.mpr ⟨ho, ?_⟩, hb, hkey⟩
      exact decide_eq_true fun hdel => hne (hkey.symm.trans hdel.2)
    · exact ih hrest _ h

/-- A word without the separator is told by what stands before the first one. -/
theorem eq_of_prefix_sep {α : Type*} {sep : α} {xs ys rest : List α} (hx : sep∉xs) (hy : sep∉ys)
    (h : xs++[sep] <+: ys++sep::rest) : xs=ys := by
  obtain ⟨tail, he⟩ := h
  rw [List.append_assoc, List.singleton_append] at he
  exact (Text.append_sep_inj hx hy he).1

/-- A key of one instance is under the prefix of no other. -/
theorem prefix_keyFor {j i : String} {version : Int} {name : String} (hj : '/'∉j.toList)
    (hi : '/'∉i.toList)
    (h : (instancePrefix j).toList.isPrefixOf (keyFor i version name).toList=true) : j=i := by
  rw [List.isPrefixOf_iff_prefix] at h
  simp only [instancePrefix, keyFor, String.toList_append, List.append_assoc,
    List.prefix_append_right_inj] at h
  exact String.toList_inj.mp (eq_of_prefix_sep hj hi h)

theorem live_teardown (t : ServiceType) (inst : ServiceInstance) {w : World} {instanceId : String}
    {version : Int} (hj : '/'∉inst.instanceId.toList) (hi : '/'∉instanceId.toList)
    (hne : inst.instanceId≠instanceId)
    (h : w.Live (.object s.configBucket (keyFor instanceId version "envoy.yaml"))) :
    (Teardown.teardown s b t inst w).2.Live
      (.object s.configBucket (keyFor instanceId version "envoy.yaml")) := by
  have hkeys : keyFor instanceId version "envoy.yaml"∉listKeys s inst.instanceId w := by
    intro hm
    rw [listKeys, Text.mem_sortedSet] at hm
    obtain ⟨o, ho, hk⟩ := List.mem_map.mp hm
    have hprefix := (Bool.and_eq_true_iff.mp (List.mem_filter.mp ho).2).2
    rw [hk] at hprefix
    exact hne (prefix_keyFor hj hi hprefix)
  cases t with
  | envoy =>
    simp only [Teardown.teardown, envoyTeardown]
    split
    · exact live_deleteKeys _ hkeys _ h
    · exact live_deleteKeys _ (fun hm => hkeys (List.mem_of_mem_take hm)) _ h
  | _ => exact h

end Objects

/-! What the control plane answers for an Envoy instance. -/

section Answers
variable {s : RenderSettings} {w : World} {op : Operation} {inst : ServiceInstance}
  {r : RenderReply}

theorem answer_render (h : answer s w op=some (inst, r)) : ∃ codec backend,
    op=.render codec backend inst ∧
      (render { codec, settings := s, backend } inst w).reply=.ok r := by
  cases op with
  | teardown backend x => cases h
  | render codec backend x =>
    obtain ⟨r', hr, he⟩ := Option.map_eq_some_iff.mp h
    cases he
    refine ⟨codec, backend, rfl, ?_⟩
    cases hrep : (render { codec, settings := s, backend } inst w).reply with
    | error e => simp [hrep, Except.toOption] at hr
    | ok r'' =>
      rw [hrep] at hr
      exact congrArg Except.ok (Option.some.inj hr)

/-- The Envoy renderer's apply stores the file under the key of the rendered version. -/
theorem live_envoy_applied {k : Codec} {b : Backend} {a : RenderedArtifact}
    (h : renderEnvoy s k inst=.ok a)
    (hok : (envoyApply b s a.configFiles a.deploymentManifest [] w).1.ok=true) :
    (envoyApply b s a.configFiles a.deploymentManifest [] w).2.Live
      (.object s.configBucket (keyFor inst.instanceId inst.version "envoy.yaml")) := by
  obtain ⟨doc, -, happly⟩ := (renderEnvoy_ok h).apply_ok hok
  rw [happly]
  exact ⟨_, List.mem_cons_self, rfl, rfl⟩

/-- An answered render of an Envoy instance names its version, and the object is stored. -/
theorem answer_envoy (h : answer s w op=some (inst, r)) (henvoy : isEnvoy inst) :
    r.version=inst.version ∧ (op.run s w).Live
      (.object s.configBucket (keyFor inst.instanceId inst.version "envoy.yaml")) := by
  obtain ⟨codec, backend, rfl, hrep⟩ := answer_render h
  obtain ⟨t, a, ar, hg, hr, har, hok, -, hversion, hworld⟩ := render_ok hrep
  obtain rfl : t=.envoy := Option.some.inj (hg.symm.trans henvoy)
  have hr' : renderEnvoy s codec inst=.ok a := hr
  cases har
  refine ⟨hversion.trans (renderEnvoy_ok hr').version, ?_⟩
  simp only [Operation.run]
  rw [hworld]
  exact live_envoy_applied hr' hok

end Answers

section Runs
variable {hash : String → Nat} {s : RenderSettings} {sys : System}

theorem answers_exec {moves : List Move} {x : ServiceInstance} {r : RenderReply}
    (h : (x, r)∈(Trace.exec (System.step hash s) sys moves).answers) :
    (x, r)∈sys.answers ∨ ∃ early op late, moves=early++.control op::late ∧
      answer s (Trace.exec (System.step hash s) sys early).world op=some (x, r) := by
  induction moves generalizing sys with
  | nil => exact .inl h
  | cons m moves ih =>
    obtain hbefore | ⟨early, op, late, rfl, ha⟩ := ih h
    · cases m with
      | broker env event => exact .inl hbefore
      | control op =>
        obtain hnew | hold := List.mem_append.mp hbefore
        · exact .inr ⟨[], op, moves, rfl, Option.mem_toList.mp hnew⟩
        · exact .inl hold
    · exact .inr ⟨m::early, op, late, rfl, ha⟩

theorem live_exec {moves : List Move} {instanceId : String} {version : Int}
    (hi : '/'∉instanceId.toList) (hrouted : ∀ m∈moves, Routed m)
    (hkeep : ∀ m∈moves, ¬TearsDown instanceId m)
    (h : sys.world.Live (.object s.configBucket (keyFor instanceId version "envoy.yaml"))) :
    (Trace.exec (System.step hash s) sys moves).world.Live
      (.object s.configBucket (keyFor instanceId version "envoy.yaml")) := by
  induction moves generalizing sys with
  | nil => exact h
  | cons m moves ih =>
    apply ih (fun m' hm => hrouted m' (List.mem_cons_of_mem m hm))
      (fun m' hm => hkeep m' (List.mem_cons_of_mem m hm))
    have hroute := hrouted m List.mem_cons_self
    have hne := hkeep m List.mem_cons_self
    cases m with
    | broker env event => exact h
    | control op =>
      cases op with
      | render codec backend inst => exact live_render _ inst h
      | teardown backend inst =>
        simp only [System.step, Operation.run]
        split
        · exact h
        · exact live_teardown _ inst hroute hi hne h

def Backed (sys : System) (c : ServiceInstance) : Prop :=
  isEnvoy c → ∀ v, c.appliedVersion=some v →
    ∃ x r, (x, r)∈sys.answers ∧ isEnvoy x ∧ x.instanceId=c.instanceId ∧ x.version=v

structure Inv (sys : System) : Prop where
  wellFormed : Store.WellFormed sys.broker.tables.rows
  versions : ∀ x r, (x, r)∈sys.answers → isEnvoy x → r.version=x.version
  backed : ∀ c, sys.broker.Source c → Backed sys c

theorem Backed.same {c x : ServiceInstance} (h : Backed sys c) (hid : x.instanceId=c.instanceId)
    (hs : x.serviceId=c.serviceId) (hv : x.appliedVersion=c.appliedVersion) : Backed sys x := by
  intro henvoy v hx
  have hc : isEnvoy c := by
    unfold isEnvoy at henvoy ⊢
    rwa [← hs]
  obtain ⟨y, r, hm, hy, hyid, hyv⟩ := h hc v (hv.symm.trans hx)
  exact ⟨y, r, hm, hy, hyid.trans hid.symm, hyv⟩

theorem kept_backed : Broker.Kept (Backed sys) where
  failed := fun _ _ h => h.same rfl rfl rfl
  started := fun _ h => h.same rfl rfl rfl
  refreshed := by
    intro c x result h hx
    cases result with
    | none => cases hx
    | some r =>
      simp only [Broker.refreshedDrift] at hx
      split at hx
      · cases hx
      · cases hx
        exact h.same rfl rfl rfl

theorem Backed.mono {sys' : System} {c : ServiceInstance} (h : Backed sys c)
    (hsub : ∀ p∈sys.answers, p∈sys'.answers) : Backed sys' c := by
  intro henvoy v hv
  obtain ⟨x, r, hm, hx⟩ := h henvoy v hv
  exact ⟨x, r, hsub _ hm, hx⟩

theorem backed_rendered (hI : Inv sys) {inst x : ServiceInstance} {r : RenderReply}
    (hm : (inst, r)∈sys.answers)
    (hx : Broker.markOperationSucceeded { inst with status := .succeeded }
      (Broker.replyMembers r)=some x) : Backed sys x := by
  have happlied : Broker.appliedVersion { inst with status := .succeeded }
      (Broker.replyMembers r)=some r.version := by
    simp [Broker.appliedVersion, Broker.replyMembers, Json.lookup]
  unfold Broker.markOperationSucceeded at hx
  rw [happlied] at hx
  cases hx
  intro henvoy v hv
  have hv' : r.version=v := Option.some.inj hv
  exact ⟨inst, r, hm, henvoy, rfl, (hI.versions inst r hm henvoy).symm.trans hv'⟩

theorem inv_step (hI : Inv sys) (m : Move) (hd : Delivered sys m) :
    Inv (System.step hash s sys m) := by
  cases m with
  | control op =>
    have hsub : ∀ p∈sys.answers, p∈(System.step hash s sys (.control op)).answers :=
      fun p hp => List.mem_append_right _ hp
    refine ⟨hI.wellFormed, ?_, fun c hc => (hI.backed c hc).mono hsub⟩
    intro x r hm henvoy
    obtain hnew | hold := List.mem_append.mp hm
    · exact (answer_envoy (by simpa using hnew) henvoy).1
    · exact hI.versions x r hold henvoy
  | broker env event =>
    refine ⟨Broker.step_wellFormed hash hI.wellFormed _, hI.versions, ?_⟩
    intro c hc
    refine (Broker.source_step (P := Backed sys) kept_backed hI.wellFormed hI.backed ?_ ?_ ?_ hc)
    · intro created _ _ v hv
      cases hv
    · intro inst req _ hst
      exact (hI.backed inst (.inr hst)).same rfl rfl rfl
    · intro inst artifact x _ hr hx
      obtain ⟨r, hm, rfl⟩ := hd inst artifact hr
      exact backed_rendered hI hm hx

theorem inv_exec (hI : Inv sys) (moves : List Move)
    (hd : Trace.Along (System.step hash s) Delivered sys moves) :
    Inv (Trace.exec (System.step hash s) sys moves) := by
  induction moves generalizing sys with
  | nil => exact hI
  | cons m moves ih => exact ih (inv_step hI m hd.1) hd.2

def configUrl (instanceId : String) (version : Int) : String :=
  "/instances/" ++ instanceId ++ "/versions/" ++ toString version ++ "/envoy.yaml"

/-- The credentials of a bind name the desired version of the stored record. -/
theorem bound_reply {st : Broker.State} {env : Broker.Env} {auth : AuthHeader}
    {instanceId bindingId : String} {req : BindRequest} {credentials : List (String × String)}
    (h : Broker.reply st (env, .request auth (.bind instanceId bindingId req))=
      some (.ok (.bound credentials))) :
    ∃ inst, Store.stored st.tables.rows instanceId=some inst ∧
      credentials=[("config_url", configUrl instanceId inst.version), ("instance_id", instanceId),
        ("version", toString inst.version)] := by
  simp only [Broker.reply, Broker.segment] at h
  split at h
  · cases h
  · simp only [Option.bind_some, Broker.serve, Broker.bind, Broker.withBinding] at h
    split at h
    · cases h
    · cases h
    · next inst hget =>
      split at h
      · cases h
      · split at h
        · cases h
        · cases h
          exact ⟨inst, Store.stored_of_getInstance hget, rfl⟩

theorem inv_initial (w : World) : Inv { world := w } := by
  refine ⟨Store.WellFormed.nil, ?_, ?_⟩
  · intro x r hm
    cases hm
  · intro c hc
    obtain hcopy | hst := hc
    · cases hcopy
    · cases hst

def Binds (sys : System) (instanceId : String) (credentials : List (String × String)) :
    Move → Prop
  | .broker env (.request auth (.bind i bindingId req)) =>
    i=instanceId ∧ Broker.reply sys.broker (env, .request auth (.bind i bindingId req))=
      some (.ok (.bound credentials))
  | _ => False

theorem Binds.reply {instanceId : String} {credentials : List (String × String)} {m : Move}
    (h : Binds sys instanceId credentials m) : ∃ env auth bindingId req,
      m=.broker env (.request auth (.bind instanceId bindingId req)) ∧
      Broker.reply sys.broker (env, .request auth (.bind instanceId bindingId req))=
        some (.ok (.bound credentials)) := by
  unfold Binds at h
  split at h
  · obtain ⟨rfl, hreply⟩ := h
    exact ⟨_, _, _, _, rfl, hreply⟩
  · cases h

/-- In every run, the credentials of a bind of an Envoy instance name a version that has been
applied before, when the record the bind reads has its version applied; and the object is
found from then on while the instance is not torn down after that apply. -/
theorem binding_points_at_applied (w : World) (hash : String → Nat) (s : RenderSettings)
    (before : List Move) (m : Move) (instanceId : String) (credentials : List (String × String))
    (inst : ServiceInstance)
    (hd : Trace.Along (System.step hash s) Delivered { world := w } before)
    (hi : '/'∉instanceId.toList)
    (hbind : Binds (Trace.exec (System.step hash s) { world := w } before) instanceId
      credentials m)
    (hstored : Store.stored (Trace.exec (System.step hash s)
      { world := w } before).broker.tables.rows instanceId=some inst)
    (henvoy : isEnvoy inst) (happlied : inst.appliedVersion=some inst.version) :
    credentials=[("config_url", configUrl instanceId inst.version), ("instance_id", instanceId),
      ("version", toString inst.version)] ∧
    ∃ early op late, before=early++.control op::late ∧
      Applies s (Trace.exec (System.step hash s) { world := w } early).world op instanceId
        inst.version ∧
      ∀ after, (∀ m'∈late++m::after, Routed m' ∧ ¬TearsDown instanceId m') →
        (getConfig s none (Trace.exec (System.step hash s) { world := w }
          (before++m::after)).world instanceId inst.version).isOk=true := by
  have hI := inv_exec (inv_initial w) before hd
  obtain ⟨env, auth, bindingId, req, rfl, hreply⟩ := hbind.reply
  obtain ⟨inst', hst, hcred⟩ := bound_reply hreply
  obtain rfl : inst'=inst := Option.some.inj (hst.symm.trans hstored)
  have hid := hI.wellFormed.stored_eq hst
  have hsource : (Trace.exec (System.step hash s) { world := w } before).broker.Source inst' :=
    .inr (hid ▸ hst)
  obtain ⟨x, r, hm, hx, hxid, hxv⟩ := hI.backed inst' hsource henvoy _ happlied
  refine ⟨hcred, ?_⟩
  obtain hnone | ⟨early, op, late, rfl, ha⟩ := answers_exec hm
  · cases hnone
  · refine ⟨early, op, late, rfl, ⟨x, r, ha, hx, hxid.trans hid, hxv⟩, ?_⟩
    intro after hafter
    -- the object is there after the apply, and the rest of the run leaves it
    have hlive := (answer_envoy ha hx).2
    rw [hxid, hid, hxv] at hlive
    rw [getConfig_isOk, List.append_assoc, Trace.exec_append, List.cons_append, Trace.exec]
    exact live_exec hi (fun m' hm' => (hafter m' hm').1) (fun m' hm' => (hafter m' hm').2) hlive

end Runs

/-! A balancer is provisioned, updated and bound. -/

def emptyWorld : World := { files := fun _ => none }

def creating : ServiceInstance :=
  { Broker.balancer with
    driftStatus := .reconciling
    operationId := some "lb-1:v1:provision"
    operationType := some "provision"
    operationState := some .inProgress }

def createdReply : RenderReply :=
  { bucket := "sovereign-configs"
    key := keyFor "lb-1" 1 "envoy.yaml"
    version := 1
    serviceType := "sovereign-envoy-lb"
    manifest :=
      [{ kind := "s3-put", target := keyFor "lb-1" 1 "envoy.yaml"
         payload := [("bucket", .str "sovereign-configs"),
           ("content_type", .str "application/x-yaml")] },
       { kind := "envoy-snapshot", target := "lb-1", payload := [("version", .num 1)] }] }

def createdRun : List Move :=
  [.broker Broker.sampleEnv Broker.provisionEvent,
    .control (.render Broker.fullBucket.codec samplePlane.backend creating),
    .broker Broker.sampleEnv (.resume 0 (.rendered (.ok (Broker.replyMembers createdReply))))]

def bindMove : Move :=
  .broker Broker.sampleEnv (.request Broker.operator (.bind "lb-1" "binding-1" {}))

theorem binding_points_at_applied_created :
    ∃ early op late, createdRun=early++.control op::late ∧
      Applies {} (Trace.exec (System.step (fun _ => 0) {}) { world := emptyWorld }
        early).world op "lb-1" 1 ∧
      ∀ after, (∀ m'∈late++bindMove::after, Routed m' ∧ ¬TearsDown "lb-1" m') →
        (getConfig {} none (Trace.exec (System.step (fun _ => 0) {}) { world := emptyWorld }
          (createdRun++bindMove::after)).world "lb-1" 1).isOk=true := by
  have hstored : ∃ inst, Store.stored (Trace.exec (System.step (fun _ => 0) {})
      { world := emptyWorld } createdRun).broker.tables.rows "lb-1"=some inst ∧
        isEnvoy inst ∧ inst.appliedVersion=some inst.version ∧ inst.version=1 :=
    ⟨_, rfl, by decide +kernel, by decide +kernel, by decide +kernel⟩
  obtain ⟨inst, hst, henvoy, happlied, hversion⟩ := hstored
  have hdelivered : Trace.Along (System.step (fun _ => 0) {}) Delivered { world := emptyWorld }
      createdRun := by
    refine ⟨?_, trivial, ?_, trivial⟩
    · intro x artifact hr
      cases hr
    · intro x artifact hr
      have htask : ((Trace.exec (System.step (fun _ => 0) {}) { world := emptyWorld }
          (createdRun.take 2)).broker.tasks.lookup 0).bind Broker.Task.rendering=some creating := by
        decide +kernel
      have hrendered := congrArg
        (Option.map fun y => (y, Broker.replyMembers createdReply)) htask
      cases hrendered.symm.trans hr
      exact ⟨createdReply, by decide +kernel, rfl⟩
  have h := binding_points_at_applied emptyWorld (fun _ => 0) {} createdRun bindMove "lb-1"
    [("config_url", configUrl "lb-1" 1), ("instance_id", "lb-1"), ("version", toString 1)] inst
    hdelivered (by decide) ⟨rfl, rfl⟩ hst henvoy happlied
  rw [hversion] at h
  exact h.2

def updating : ServiceInstance :=
  { creating with
    planId := "premium"
    status := .succeeded
    version := 2
    appliedVersion := some 1
    operationId := some "lb-1:v2:update"
    operationType := some "update"
    applyOutputs := (Broker.replyMembers createdReply).filter fun m => decide (m.1≠"version") }

def failedRun : List Move :=
  createdRun++[.broker Broker.sampleEnv Broker.updateEvent,
    .control (.render Broker.fullBucket.codec Broker.fullBucket.backend updating),
    .broker Broker.sampleEnv (.resume 2 (.rendered (.error (.http (Broker.serverError 503)))))]

theorem failedRun_keeps (m : Move) (hm : m∈failedRun) : Routed m ∧ ¬TearsDown "lb-1" m := by
  simp only [failedRun, createdRun, List.cons_append, List.nil_append, List.mem_cons,
    List.not_mem_nil, or_false] at hm
  obtain rfl | rfl | rfl | rfl | rfl | rfl := hm <;> exact ⟨trivial, not_false⟩

/-- The bind names version 2, which no operation has applied and the control plane does not
have. -/
theorem bound_before_applied :
    Binds (Trace.exec (System.step (fun _ => 0) {}) { world := emptyWorld } failedRun) "lb-1"
      [("config_url", configUrl "lb-1" 2), ("instance_id", "lb-1"), ("version", "2")] bindMove ∧
    (∀ early op late, failedRun=early++.control op::late →
      ¬Applies {} (Trace.exec (System.step (fun _ => 0) {}) { world := emptyWorld }
        early).world op "lb-1" 2) ∧
    (getConfig {} none (Trace.exec (System.step (fun _ => 0) {}) { world := emptyWorld }
      (failedRun++[bindMove])).world "lb-1" 2).isOk=false := by
  have hget : (getConfig {} none (Trace.exec (System.step (fun _ => 0) {})
      { world := emptyWorld } failedRun).world "lb-1" 2).isOk=false := by decide +kernel
  refine ⟨⟨rfl, rfl⟩, ?_, by decide +kernel⟩
  intro early op late he happlies
  obtain ⟨x, r, ha, hx, hid, hv⟩ := happlies
  have hlive := (answer_envoy ha hx).2
  rw [hid, hv] at hlive
  have hlate : ∀ m∈late, m∈failedRun := by
    intro m hm
    rw [he]
    exact List.mem_append_right _ (List.mem_cons_of_mem _ hm)
  have hkept : (getConfig {} none (Trace.exec (System.step (fun _ => 0) {})
      { world := emptyWorld } failedRun).world "lb-1" 2).isOk=true := by
    rw [getConfig_isOk, he, Trace.exec_append, Trace.exec]
    exact live_exec (by decide) (fun m hm => (failedRun_keeps m (hlate m hm)).1)
      (fun m hm => (failedRun_keeps m (hlate m hm)).2) hlive
  exact Bool.false_ne_true (hget.symm.trans hkept)

end Sovereign.AppliedConfig
