import Sovereign.Executors
import Sovereign.Identity

/-! The control plane's `/render`: look up the renderer, render, validate, apply. -/
namespace Sovereign.ControlPlane
open Sovereign Packs Renderers Executors

structure Plane where
  codec : Codec
  settings : RenderSettings := {}
  backend : Backend

structure RenderReply where
  bucket : String
  key : String
  version : Int
  serviceType : String
  manifest : List DeploymentStep
deriving DecidableEq

structure Outcome where
  reply : Except HttpError RenderReply
  audits : List AuditRecord := []
  world : World

def replyKey (inst : ServiceInstance) (applied : List DeploymentStep) : String :=
  match applied.find? fun step => decide (step.kind="s3-put") with
  | some step => step.target
  | none => keyFor inst.instanceId inst.version "envoy.yaml"

def Plane.errorText (plane : Plane) (inst : ServiceInstance) : RenderError → String
  | .validation => "rendered Envoy config failed schema validation: " ++
      ((buildDoc plane.settings inst).map plane.codec.schemaError).getD ""
  | .raised => plane.codec.exceptionText inst

def applyArtifact (plane : Plane) (inst : ServiceInstance) (t : ServiceType)
    (a : RenderedArtifact) (w : World) : Outcome :=
  match apply plane.backend plane.settings t a w with
  | (.error e, w) => { reply := .error ⟨500, .str e⟩, world := w }
  | (.ok ar, w) =>
    if ar.ok then
      let key := replyKey inst ar.appliedSteps
      { reply := .ok { bucket := plane.settings.configBucket, key, version := a.version
                       serviceType := a.serviceType, manifest := ar.appliedSteps }
        audits := [{ action := "config.rendered", resource := inst.instanceId, details := key
                     actor := "system"
                     metadata := [("service_type", .str a.serviceType),
                       ("version", int a.version),
                       ("bucket", .str plane.settings.configBucket)] ++ a.metadata }]
        world := w }
    else
      { reply := .error ⟨503, .obj [("message", .str "apply failed"),
          ("failed_step", .str ((ar.failedStep.map (·.kind)).getD "")),
          ("detail", .str ar.detail)]⟩
        world := w }

def render (plane : Plane) (inst : ServiceInstance) (w : World) : Outcome :=
  match ServiceType.get inst.serviceId with
  | none =>
    { reply := .error ⟨404, .str ("no renderer for service_type '" ++ inst.serviceId ++ "'")⟩
      world := w }
  | some t =>
    match t.render plane.codec plane.settings inst with
    | .error e =>
      { reply := .error ⟨match e with | .validation => 422 | .raised => 500,
          .str (plane.errorText inst e)⟩
        world := w }
    | .ok a =>
      match t.validate plane.codec a with
      | [] => applyArtifact plane inst t a w
      | errors =>
        { reply := .error ⟨422, .str ("artifact validation failed: " ++ plane.codec.repr errors)⟩
          world := w }

/-- The object or file a step reads, by its last path component. -/
def sourceName (step : DeploymentStep) : Option String :=
  match step.kind with
  | "s3-put" => some (basename step.target)
  | _ => (filePath step).map basename

/-- What the step read or, for `s3-put`, what its key now holds. -/
def bytesRead (s : RenderSettings) (w : World) (step : DeploymentStep) : Option Bytes :=
  match step.kind with
  | "s3-put" => w.getObject ((payloadStr step "bucket").getD s.configBucket) step.target
  | _ => (w.reads.lookup step).join

/-- Every applied step that reads something has read the file this render produced. -/
def Faithful (s : RenderSettings) (a : RenderedArtifact) (w : World)
    (applied : List DeploymentStep) : Prop :=
  ∀ step∈applied, ∀ name, sourceName step=some name →
    ∃ body, a.configFiles.lookup name=some body ∧ bytesRead s w step=some body

def appliesFromDisk : ServiceType → Bool
  | .envoy => false
  | .secureEmail => false
  | .secureChat => false
  | .idpBroker => false
  | .scimBridge => false
  | _ => true

theorem basename_append (dir name : String) (h : '/'∉name.toList) :
    basename (dir ++ "/" ++ name)=name := by
  have hl : (dir ++ "/" ++ name).toList=dir.toList ++ '/'::name.toList := by
    simp
  have hall : ∀ c∈name.toList.reverse, (c != '/')=true := by
    intro c hc
    have hne : c≠ '/' := fun he => h (he ▸ List.mem_reverse.mp hc)
    simpa using hne
  rw [basename, hl, List.reverse_append, List.reverse_cons, List.append_assoc,
    List.takeWhile_append_of_pos hall]
  simp

theorem artifact_ok {inst : ServiceInstance} {serviceType : String}
    {files : List (String × Bytes)} {metadata : List (String × Json)}
    {manifest : List DeploymentStep} {a : RenderedArtifact}
    (h : artifact inst serviceType files metadata manifest=.ok a) :
    a.configFiles=files ∧ a.deploymentManifest=manifest := by
  unfold artifact at h
  split at h
  · cases h
    exact ⟨rfl, rfl⟩
  · cases h

theorem artifact_version {inst : ServiceInstance} {serviceType : String}
    {files : List (String × Bytes)} {metadata : List (String × Json)}
    {manifest : List DeploymentStep} {a : RenderedArtifact}
    (h : artifact inst serviceType files metadata manifest=.ok a) : a.version=inst.version := by
  unfold artifact at h
  split at h
  · cases h
    rfl
  · cases h

theorem payloadStr_of_ne {step : DeploymentStep} {name s : String}
    (h : Json.lookup name step.payload=some (.str s)) (hs : s≠"") :
    payloadStr step name=some s := by
  unfold payloadStr
  rw [h]
  split
  · next he =>
    cases he
    exact absurd rfl hs
  · next he =>
    cases he
    rfl
  · next _ hn => exact absurd rfl (hn s)

theorem payload_configBucket {s : RenderSettings} {step : DeploymentStep}
    (h : Json.lookup "bucket" step.payload=some (.str s.configBucket)) :
    (payloadStr step "bucket").getD s.configBucket=s.configBucket := by
  by_cases he : s.configBucket=""
  · simp [payloadStr, h, he]
  · rw [payloadStr_of_ne h he]
    rfl

theorem artifactPath_ne (inst : ServiceInstance) (rest : String) :
    artifactPath inst ++ rest≠"" := by
  simp [artifactPath, ← String.toList_inj]

structure FromDisk (inst : ServiceInstance) (t : ServiceType) (a : RenderedArtifact)
    (step : DeploymentStep) (body : Bytes) : Prop where
  files : a.configFiles=[(t.filename, body)]
  manifest : a.deploymentManifest=[step]
  kind : step.kind≠"s3-put"
  path : filePath step=some (artifactPath inst ++ "/" ++ t.filename)
  creates : ∀ s, ∃ r, resource s step=some r

structure FromEnvoy (s : RenderSettings) (k : Codec) (inst : ServiceInstance)
    (a : RenderedArtifact) : Prop where
  version : a.version=inst.version
  files : ∃ doc, buildDoc s inst=some doc ∧ a.configFiles=[("envoy.yaml", k.safeDump doc)]
  manifest : a.deploymentManifest =
    [{ kind := "s3-put", target := keyFor inst.instanceId inst.version "envoy.yaml"
       payload := [("bucket", .str s.configBucket),
         ("content_type", .str "application/x-yaml")] },
     { kind := "envoy-snapshot", target := inst.instanceId
       payload := [("version", int inst.version)] }]

theorem renderEnvoy_ok {s : RenderSettings} {k : Codec} {inst : ServiceInstance}
    {a : RenderedArtifact} (h : renderEnvoy s k inst=.ok a) : FromEnvoy s k inst a := by
  unfold renderEnvoy at h
  cases hdoc : buildDoc s inst with
  | none => simp [hdoc] at h
  | some doc =>
    simp only [hdoc] at h
    split at h
    · obtain ⟨hf, hm⟩ := artifact_ok h
      exact ⟨artifact_version h, ⟨doc, hdoc, hf⟩, hm⟩
    · cases h

section Shapes
variable {k : Codec} {inst : ServiceInstance} {t : ServiceType} {a : RenderedArtifact}
variable {doc : Json} {metadata : List (String × Json)}

theorem k8sArtifact_fromDisk {namespace_ : String}
    (h : k8sArtifact k inst t.value t.filename namespace_ doc metadata=.ok a) :
    ∃ step body, FromDisk inst t a step body := by
  obtain ⟨hf, hm⟩ := artifact_ok h
  have hp : payloadStr ⟨"k8s-apply", namespace_,
      [("manifest_path", .str (artifactPath inst ++ "/" ++ t.filename))]⟩ "manifest_path" =
      some (artifactPath inst ++ "/" ++ t.filename) := by
    apply payloadStr_of_ne rfl
    rw [String.append_assoc]
    exact artifactPath_ne inst _
  refine ⟨_, _, hf, hm, by simp, ?_, ?_⟩
  · simp only [filePath]
    exact hp
  · intro s
    simp only [resource, hp, Option.map_some]
    exact ⟨_, rfl⟩

theorem tfArtifact_fromDisk (hn : t.filename="main.tf.json")
    (h : tfArtifact k inst t.value doc metadata=.ok a) :
    ∃ step body, FromDisk inst t a step body := by
  obtain ⟨hf, hm⟩ := artifact_ok h
  have hp : payloadStr ⟨"terraform-apply", inst.instanceId,
      [("module_dir", .str (artifactPath inst))]⟩ "module_dir"=some (artifactPath inst) := by
    apply payloadStr_of_ne rfl
    simpa using artifactPath_ne inst ""
  rw [← hn] at hf
  refine ⟨_, _, hf, hm, by simp, ?_, ?_⟩
  · simp only [filePath, hp, Option.map_some, moduleFile, hn, String.append_assoc]
    rfl
  · intro s
    simp only [resource, hp, Option.map_some]
    exact ⟨_, rfl⟩

theorem render_fromDisk {s : RenderSettings} (ht : appliesFromDisk t=true)
    (h : t.render k s inst=.ok a) : ∃ step body, FromDisk inst t a step body := by
  cases t with
  | inferenceEndpoint | ragWorkspace | permissionedLedger | siemWorkspace | logPipeline |
      edgeNode | edgeCluster =>
    obtain ⟨p, _, h⟩ := bind_eq_ok h
    exact k8sArtifact_fromDisk h
  | managedDatabase | vectorDb | cloudAccount | landingZone =>
    obtain ⟨p, _, h⟩ := bind_eq_ok h
    exact tfArtifact_fromDisk rfl h
  | envoy | secureEmail | secureChat | idpBroker | scimBridge => cases ht

end Shapes

section Fidelity
variable {plane : Plane} {inst : ServiceInstance} {w : World}

theorem render_ok {reply : RenderReply} (h : (render plane inst w).reply=.ok reply) :
    ∃ t a ar, ServiceType.get inst.serviceId=some t ∧
      t.render plane.codec plane.settings inst=.ok a ∧
      (apply plane.backend plane.settings t a w).1=.ok ar ∧ ar.ok=true ∧
      reply.manifest=ar.appliedSteps ∧ reply.version=a.version ∧
      (render plane inst w).world=(apply plane.backend plane.settings t a w).2 := by
  unfold render at h ⊢
  cases hg : ServiceType.get inst.serviceId with
  | none => simp [hg] at h
  | some t =>
    simp only [hg] at h ⊢
    cases hr : t.render plane.codec plane.settings inst with
    | error e => simp [hr] at h
    | ok a =>
      simp only [hr] at h ⊢
      cases hv : t.validate plane.codec a with
      | cons e errors => simp [hv] at h
      | nil =>
        simp only [hv, applyArtifact] at h ⊢
        obtain ⟨⟨result, w'⟩, hap⟩ : ∃ out, apply plane.backend plane.settings t a w=out := ⟨_, rfl⟩
        rw [hap] at h ⊢
        cases result with
        | error e => cases h
        | ok ar =>
          by_cases hok : ar.ok=true
          · simp only [hok, if_true, Except.ok.injEq] at h ⊢
            subst h
            exact ⟨t, a, ar, rfl, hr, congrArg Prod.fst hap, hok, rfl, rfl,
              (congrArg Prod.snd hap).symm⟩
          · simp [hok] at h

/-- Whatever `/render` answers, the world is as it was or as an apply left it. -/
theorem render_world (plane : Plane) (inst : ServiceInstance) (w : World) :
    (render plane inst w).world=w ∨
      ∃ t a, (render plane inst w).world=(apply plane.backend plane.settings t a w).2 := by
  unfold render
  split
  · exact .inl rfl
  · next t _ =>
    split
    · exact .inl rfl
    · next a _ =>
      split
      · refine .inr ⟨t, a, ?_⟩
        unfold applyArtifact
        generalize apply plane.backend plane.settings t a w=out
        obtain ⟨result, w'⟩ := out
        cases result with
        | error e => rfl
        | ok ar =>
          dsimp only
          split
          · rfl
          · rfl
      · exact .inl rfl

theorem apply_fromDisk {b : Backend} {s : RenderSettings} {t : ServiceType}
    (ht : appliesFromDisk t=true) (a : RenderedArtifact) :
    apply b s t a w=applyManifest b a.deploymentManifest [] w := by
  cases t <;> first | rfl | cases ht

/-- For a tool that reads the artifact directory the read bytes are whatever was there. -/
theorem faithful_fromDisk {b : Backend} {s : RenderSettings} {t : ServiceType}
    {a : RenderedArtifact} {step : DeploymentStep} {body : Bytes}
    (hd : FromDisk inst t a step body) (hslash : '/'∉t.filename.toList) {ar : ApplyResult}
    (har : (applyManifest b a.deploymentManifest [] w).1=.ok ar) (hok : ar.ok=true) :
    Faithful s a (applyManifest b a.deploymentManifest [] w).2 ar.appliedSteps ↔
    w.files (artifactPath inst ++ "/" ++ t.filename)=a.configFiles.lookup t.filename := by
  obtain ⟨ha, hfiles, _, _, hfresh, _⟩ := applyManifest_ok b a.deploymentManifest [] w har hok
  have hread := hfresh step (Or.inr (by rw [hd.manifest]; simp)) _ hd.path
  have hname : sourceName step=some t.filename := by
    simp only [sourceName, hd.path, Option.map_some, basename_append _ _ hslash]
    split
    · next hk => exact absurd hk hd.kind
    · rfl
  have hbytes : bytesRead s (applyManifest b a.deploymentManifest [] w).2 step =
      w.files (artifactPath inst ++ "/" ++ t.filename) := by
    simp only [bytesRead, hread, hfiles, Option.join_some]
    split
    · next hk => exact absurd hk hd.kind
    · rfl
  have hlookup : a.configFiles.lookup t.filename=some body := by
    rw [hd.files]
    simp
  have hsteps : ar.appliedSteps=[step] := by
    rw [ha, List.nil_append]
    exact hd.manifest
  rw [hsteps, hlookup]
  constructor
  · intro h
    obtain ⟨body', hl, hb⟩ := h step (by simp) _ hname
    rw [hlookup] at hl
    rw [← hbytes, hb, hl]
  · intro h other hm name hn
    have he : other=step := by simpa using hm
    subst he
    rw [hname] at hn
    cases hn
    exact ⟨body, hlookup, by rw [hbytes, h]⟩

/-- An apply of an Envoy artifact that succeeds has put the file under the key of the version. -/
theorem FromEnvoy.apply_ok {k : Codec} {b : Backend} {s : RenderSettings} {a : RenderedArtifact}
    (h : FromEnvoy s k inst a)
    (hok : (envoyApply b s a.configFiles a.deploymentManifest [] w).1.ok=true) :
    ∃ doc, a.configFiles=[("envoy.yaml", k.safeDump doc)] ∧
      envoyApply b s a.configFiles a.deploymentManifest [] w =
        ({ ok := true, appliedSteps := a.deploymentManifest },
          w.putObject s.configBucket (keyFor inst.instanceId inst.version "envoy.yaml")
            (k.safeDump doc)) := by
  obtain ⟨-, ⟨doc, -, hf⟩, hm⟩ := h
  have hname : basename (keyFor inst.instanceId inst.version "envoy.yaml")="envoy.yaml" :=
    basename_append _ _ (by decide)
  refine ⟨doc, hf, ?_⟩
  rw [hf, hm] at hok ⊢
  simp only [envoyApply, hname, List.lookup_cons_self] at hok ⊢
  split at hok
  · cases hok
  · rw [payload_configBucket rfl]
    rfl

/-- The Envoy renderer puts its own file under its own key. -/
theorem faithful_envoy {k : Codec} {b : Backend} {s : RenderSettings} {a : RenderedArtifact}
    (h : renderEnvoy s k inst=.ok a)
    (hok : (envoyApply b s a.configFiles a.deploymentManifest [] w).1.ok=true) :
    Faithful s a (envoyApply b s a.configFiles a.deploymentManifest [] w).2
      (envoyApply b s a.configFiles a.deploymentManifest [] w).1.appliedSteps := by
  obtain ⟨doc, hf, happly⟩ := (renderEnvoy_ok h).apply_ok hok
  have hname : basename (keyFor inst.instanceId inst.version "envoy.yaml")="envoy.yaml" :=
    basename_append _ _ (by decide)
  rw [happly, (renderEnvoy_ok h).manifest]
  intro step hstep name hn
  obtain rfl | hstep := List.mem_cons.mp hstep
  · simp only [sourceName, hname, Option.some.injEq] at hn
    subst hn
    refine ⟨k.safeDump doc, by rw [hf]; rfl, ?_⟩
    simp only [bytesRead]
    rw [payload_configBucket rfl]
    simp [World.putObject, World.getObject]
  · have he := List.mem_singleton.mp hstep
    subst he
    simp [sourceName, filePath] at hn

/-- The Envoy renderer and the renderers that deploy nothing are always faithful; the
others are when the file their step names already holds the bytes of this render. -/
theorem faithful_iff {t : ServiceType} {a : RenderedArtifact}
    (hr : t.render plane.codec plane.settings inst=.ok a) {ar : ApplyResult}
    (har : (apply plane.backend plane.settings t a w).1=.ok ar) (hok : ar.ok=true) :
    Faithful plane.settings a (apply plane.backend plane.settings t a w).2 ar.appliedSteps ↔
    (appliesFromDisk t=true →
      w.files (artifactPath inst ++ "/" ++ t.filename)=a.configFiles.lookup t.filename) := by
  cases ht : appliesFromDisk t with
  | true =>
    obtain ⟨step, body, hd⟩ := render_fromDisk ht hr
    rw [apply_fromDisk ht] at har ⊢
    have hslash : '/'∉t.filename.toList := by cases t <;> decide
    rw [faithful_fromDisk hd hslash har hok]
    simp
  | false =>
    suffices hf : Faithful plane.settings a (apply plane.backend plane.settings t a w).2
        ar.appliedSteps by simpa using hf
    cases t with
    | envoy =>
      cases har
      exact faithful_envoy hr hok
    | secureEmail | secureChat | idpBroker | scimBridge =>
      cases har
      intro step hstep
      cases hstep
    | inferenceEndpoint | ragWorkspace | managedDatabase | vectorDb | permissionedLedger |
        siemWorkspace | logPipeline | edgeNode | edgeCluster | cloudAccount | landingZone =>
      cases ht

end Fidelity

/-- Exactly when a successful `/render` is faithful: nothing writes the files that
`kubectl` and `terraform` are pointed at. -/
theorem apply_fidelity (plane : Plane) (inst : ServiceInstance) (w : World)
    (reply : RenderReply) (h : (render plane inst w).reply=.ok reply) :
    ∃ t a, ServiceType.get inst.serviceId=some t ∧
      t.render plane.codec plane.settings inst=.ok a ∧
      (Faithful plane.settings a (render plane inst w).world reply.manifest ↔
        (appliesFromDisk t=true →
          w.files (artifactPath inst ++ "/" ++ t.filename)=a.configFiles.lookup t.filename)) := by
  obtain ⟨t, a, ar, hg, hr, har, hok, hmanifest, -, hworld⟩ := render_ok h
  refine ⟨t, a, hg, hr, ?_⟩
  rw [hmanifest, hworld]
  exact faithful_iff hr har hok

/-! A landing zone whose artifact directory holds an empty module. -/

def landingZone : ServiceInstance :=
  { instanceId := "lz-1", serviceId := "landing-zone", planId := "standard" }

def ascii (s : String) : Bytes := s.toList.map fun c => UInt8.ofNat c.toNat

def landingZoneBytes : Bytes :=
  ascii "\x7b\n" ++ ascii "  \"resource\": \x7b\n    \"sovereign_landing_zone\": \x7b\n" ++
  ascii "      \"lz-1\": \x7b\n        \"account_count\": 3,\n" ++
  ascii "        \"network_boundary\": true,\n        \"provider\": \"aws-govcloud\",\n" ++
  ascii "        \"region\": \"us-gov-west-1\"\n      \x7d\n    \x7d\n  \x7d\n\x7d"

def samplePlane : Plane :=
  { codec := { lax := { bool := fun _ => none, int := Text.pyInt }
               safeDump := fun _ => []
               safeLoad := fun _ => none
               jsonDumps := fun _ => landingZoneBytes
               jsonLoads := fun _ => some (tfLandingZone {} "lz-1")
               validateBootstrap := fun _ => true
               yamlError := fun _ => "while parsing a block mapping"
               jsonError := fun _ => "Expecting value: line 1 column 1 (char 0)"
               schemaError := fun _ => "1 validation error for EnvoyBootstrap"
               exceptionText := fun _ => "list index out of range"
               repr := fun texts => "['" ++ String.intercalate "', '" texts ++ "']" }
    backend := { onPath := fun _ => true
                 run := fun _ _ => .ok (0, "", "")
                 post := fun _ _ => .ok 200
                 putFault := fun _ _ => none
                 deleteFault := fun _ _ => none
                 listFault := none } }

def staleWorld : World :=
  { files := fun p =>
      if p="/artifacts/lz-1/main.tf.json" then some (ascii "\x7b\x7d") else none }

def landingZoneReply : RenderReply :=
  { bucket := "sovereign-configs", key := "instances/lz-1/v1/envoy.yaml", version := 1
    serviceType := "landing-zone"
    manifest := [{ kind := "terraform-apply", target := "lz-1"
                   payload := [("module_dir", .str "/artifacts/lz-1")] }] }

theorem emptyModule_ne : ascii "\x7b\x7d"≠landingZoneBytes := by
  have hempty : ascii "\x7b\x7d"=[123, 125] := by decide
  have hstart : ascii "\x7b\n"=[123, 10] := by decide
  simp [landingZoneBytes, hempty, hstart]

theorem apply_fidelity_landingZone :
    (render samplePlane landingZone staleWorld).reply=.ok landingZoneReply ∧
    ∃ t a, ServiceType.get landingZone.serviceId=some t ∧
      t.render samplePlane.codec samplePlane.settings landingZone=.ok a ∧
      (Faithful samplePlane.settings a (render samplePlane landingZone staleWorld).world
        landingZoneReply.manifest ↔
        (appliesFromDisk t=true →
          staleWorld.files (artifactPath landingZone ++ "/" ++ t.filename) =
            a.configFiles.lookup t.filename)) := by
  have h : (render samplePlane landingZone staleWorld).reply=.ok landingZoneReply := by rfl
  exact ⟨h, apply_fidelity samplePlane landingZone staleWorld landingZoneReply h⟩

/-- `/render` answers success after `terraform` has applied the empty module. -/
theorem stale_module_applied :
    (render samplePlane landingZone staleWorld).reply=.ok landingZoneReply ∧
    ∃ a, ServiceType.landingZone.render samplePlane.codec samplePlane.settings landingZone =
        .ok a ∧
      ¬ Faithful samplePlane.settings a (render samplePlane landingZone staleWorld).world
        landingZoneReply.manifest := by
  have h : (render samplePlane landingZone staleWorld).reply=.ok landingZoneReply := by rfl
  refine ⟨h, ?_⟩
  obtain ⟨t, a, ar, hg, hr, har, hok, hmanifest, -, hworld⟩ := render_ok h
  have ht : t=.landingZone := by
    have hl : ServiceType.get landingZone.serviceId=some .landingZone := by decide
    rw [hl] at hg
    exact (Option.some.inj hg).symm
  subst ht
  refine ⟨a, hr, ?_⟩
  rw [hmanifest, hworld, faithful_iff hr har hok]
  intro hfile
  obtain ⟨p, _, hp⟩ := bind_eq_ok hr
  have hdump : ∀ doc, samplePlane.codec.jsonDumps doc=landingZoneBytes := fun _ => rfl
  have hfiles : a.configFiles=[(ServiceType.landingZone.filename, landingZoneBytes)] := by
    rw [(artifact_ok hp).1, hdump]
    rfl
  have hstale : staleWorld.files (artifactPath landingZone ++ "/" ++
      ServiceType.landingZone.filename)=some (ascii "\x7b\x7d") := by
    simp [staleWorld, artifactPath, landingZone, ServiceType.filename]
  have he := hfile rfl
  rw [hstale, hfiles, List.lookup_cons_self] at he
  exact emptyModule_ne (Option.some.inj he)

end Sovereign.ControlPlane
