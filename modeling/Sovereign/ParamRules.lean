import Sovereign.Tools
import Sovereign.EnvoySchema

/-! Which parameters a renderer takes, tag by tag, and how the control plane answers for those it
does not take. -/
namespace Sovereign.Packs
open Sovereign

/-- What a renderer asks of one tag, when the tag is there. `nonEmpty` has the text that stands for
an absent one. -/
inductive Rule where
  | int (name : String) (lo hi : Int)
  | laxInt (name : String) (lo hi : Int)
  | laxBool (name : String)
  | literal (name : String) (values : List String)
  | nonEmpty (name fill : String)
  | absent (name : String)

def Rule.Holds (lax : Lax) (tags : List (String × String)) : Rule → Prop
  | .int name lo hi => ∀ s∈tags.lookup name, ∃ n, Text.pyInt s=some n ∧ lo ≤ n ∧ n ≤ hi
  | .laxInt name lo hi => ∀ s∈tags.lookup name, ∃ n, lax.int s=some n ∧ lo ≤ n ∧ n ≤ hi
  | .laxBool name => ∀ s∈tags.lookup name, ∃ b, lax.bool s=some b
  | .literal name values => ∀ s∈tags.lookup name, s∈values
  | .nonEmpty name fill => strTag tags name fill≠""
  | .absent name => tags.lookup name=none

/-! Each reader gives a value exactly under its rule. -/
section Readers
variable {tags : List (String × String)} {name : String}

theorem bind_ok_iff {ε α β : Type} {x : Except ε α} {f : α → Except ε β} :
    (∃ b, (x >>= f)=.ok b) ↔ ∃ a, x=.ok a ∧ ∃ b, f a=.ok b := by
  cases x with
  | error e => simp [bind, Except.bind]
  | ok a => simp [bind, Except.bind]

/-- A reader and then the rest of the readers, under a rule and then the rest of the rules. -/
theorem bind_rules {α β : Type} {x : Except ParamError α} {f : α → Except ParamError β} {lax : Lax}
    {rule : Rule} {rest : List Rule} (h : (∃ a, x=.ok a) ↔ rule.Holds lax tags)
    (hrest : ∀ a, (∃ b, f a=.ok b) ↔ ∀ r∈rest, r.Holds lax tags) :
    (∃ b, (x >>= f)=.ok b) ↔ ∀ r∈rule::rest, r.Holds lax tags := by
  rw [bind_ok_iff, List.forall_mem_cons, ← h]
  constructor
  · intro h'
    obtain ⟨a, ha, hb⟩ := h'
    exact ⟨⟨a, ha⟩, (hrest a).mp hb⟩
  · intro h'
    obtain ⟨⟨a, ha⟩, hr⟩ := h'
    exact ⟨a, ha, (hrest a).mpr hr⟩

theorem pure_rules {α : Type} {a : α} {lax : Lax} : (∃ b, (pure a : Except ParamError α)=.ok b) ↔
    ∀ r∈([] : List Rule), r.Holds lax tags :=
  iff_of_true ⟨a, rfl⟩ fun _ hr => (List.not_mem_nil hr).elim

theorem bounded_ok_iff {lo hi n : Int} : (∃ b, bounded name lo hi n=.ok b) ↔ lo ≤ n ∧ n ≤ hi := by
  by_cases h : lo ≤ n ∧ n ≤ hi
  · simp [bounded, h]
  · simp [bounded, h]

theorem intTag_ok_iff {lo hi : Int} {d : Bounded lo hi} : (∃ b, intTag tags name d=.ok b) ↔
    ∀ s∈tags.lookup name, ∃ n, Text.pyInt s=some n ∧ lo ≤ n ∧ n ≤ hi := by
  rw [intTag]
  cases tags.lookup name with
  | none => simp
  | some s =>
    cases hn : Text.pyInt s with
    | none => simp [hn]
    | some n =>
      simp only [hn]
      rw [bounded_ok_iff]
      simp [hn]

theorem laxIntTag_ok_iff {lax : Lax} {lo hi : Int} {d : Bounded lo hi} :
    (∃ b, laxIntTag tags name lax d=.ok b) ↔
      ∀ s∈tags.lookup name, ∃ n, lax.int s=some n ∧ lo ≤ n ∧ n ≤ hi := by
  rw [laxIntTag]
  cases tags.lookup name with
  | none => simp
  | some s =>
    cases hn : lax.int s with
    | none => simp [hn]
    | some n =>
      simp only [hn]
      rw [bounded_ok_iff]
      simp [hn]

theorem laxBoolTag_ok_iff {lax : Lax} {d : Bool} : (∃ b, laxBoolTag tags name lax d=.ok b) ↔
    ∀ s∈tags.lookup name, ∃ b, lax.bool s=some b := by
  rw [laxBoolTag]
  cases tags.lookup name with
  | none => simp
  | some s =>
    cases hb : lax.bool s with
    | none => simp [hb]
    | some b => simp [hb]

theorem literalTag_ok_iff {α : Type} {value : α → String} {all : List α} {d : α} :
    (∃ b, literalTag tags name value all d=.ok b) ↔
      ∀ s∈tags.lookup name, s∈all.map value := by
  rw [literalTag]
  cases tags.lookup name with
  | none => simp
  | some s =>
    dsimp only
    cases hf : all.find? fun a => decide (value a=s) with
    | none =>
      have hne := List.find?_eq_none.mp hf
      constructor
      · intro h
        obtain ⟨b, hb⟩ := h
        cases hb
      · intro h
        obtain ⟨a, ha, he⟩ := List.mem_map.mp (h s rfl)
        exact absurd (decide_eq_true he) (hne a ha)
    | some a =>
      have hv : value a=s :=
        of_decide_eq_true (List.find?_some (p := fun a => decide (value a=s)) hf)
      constructor
      · intro _ s' hs'
        cases hs'
        exact List.mem_map.mpr ⟨a, List.mem_of_find?_eq_some hf, hv⟩
      · exact fun _ => ⟨a, rfl⟩

theorem nonEmptyTag_ok_iff {fill : String} :
    (∃ b, nonEmptyTag tags name fill=.ok b) ↔ strTag tags name fill≠"" := by
  by_cases h : strTag tags name fill≠""
  · simp [nonEmptyTag, h]
  · simp [nonEmptyTag, h]

theorem unsplitListTag_ok_iff {d : List String} :
    (∃ b, unsplitListTag tags name d=.ok b) ↔ tags.lookup name=none := by
  rw [unsplitListTag]
  cases tags.lookup name with
  | none => simp
  | some s => simp

end Readers
end Sovereign.Packs

namespace Sovereign.Renderers.ServiceType
open Sovereign Packs Renderers

def classificationRule : Rule := .literal "classification" ["U", "CUI", "SECRET"]

def rules (instanceId : String) : ServiceType → List Rule
  | .envoy => []
  | .inferenceEndpoint =>
    [.nonEmpty "model_id" instanceId, .literal "engine" ["vllm", "tgi"],
     .literal "accelerator" ["cpu", "a10", "a100", "h100"], .laxInt "replicas" 1 64,
     .laxInt "max_context_tokens" 512 1000000, classificationRule, .laxBool "pii_redaction",
     .laxBool "tls", .laxBool "logging_enabled"]
  | .ragWorkspace =>
    [.nonEmpty "name" instanceId, .literal "vector_store" ["pgvector", "qdrant", "milvus"],
     .absent "connectors", classificationRule, .laxBool "encryption_at_rest",
     .laxBool "pii_redaction"]
  | .managedDatabase =>
    [.int "storage_gb" 10 65536, .int "backup_retention_days" 0 35,
     .literal "engine" ["postgres", "mysql"], classificationRule]
  | .vectorDb =>
    [.int "storage_gb" 10 65536, .literal "store" ["pgvector", "qdrant", "milvus"],
     classificationRule]
  | .permissionedLedger =>
    [.int "validator_count" 1 100, .literal "platform" ["fabric", "besu"],
     .literal "consensus" ["raft", "ibft2", "qbft"], classificationRule]
  | .siemWorkspace =>
    [.int "retention_days" 1 3650, .int "hot_nodes" 1 100,
     .literal "backend" ["elastic", "opensearch", "splunk"], classificationRule]
  | .logPipeline => [.nonEmpty "name" instanceId, classificationRule]
  | .edgeNode => [classificationRule]
  | .edgeCluster => [.int "node_count" 1 50, classificationRule]
  | .cloudAccount =>
    [.literal "provider" ["aws-govcloud", "azure-gov", "gcp"], classificationRule]
  | .landingZone =>
    [.int "account_count" 1 100, .literal "provider" ["aws-govcloud", "azure-gov", "gcp"],
     classificationRule]
  | .secureEmail => [.int "retention_days" 1 36500, classificationRule]
  | .secureChat => [.int "retention_days" 1 36500, classificationRule]
  | .idpBroker =>
    [.nonEmpty "issuer_url" ("https://idp/" ++ instanceId), .int "max_token_minutes" 1 1440,
     .literal "protocol" ["oidc", "saml"], .literal "required_aal" ["aal1", "aal2", "aal3"]]
  | .scimBridge =>
    [.nonEmpty "endpoint_url" ("https://scim/" ++ instanceId),
     .int "sync_interval_minutes" 1 1440]

/-- `ep.split(":")` has a second part, and `int` takes it. -/
def EndpointReadable (ep : String) : Prop :=
  ∃ host port rest, ep.toList.splitOnP (· == ':')=host::port::rest ∧
    ∃ n, Text.pyInt (String.ofList port)=some n

structure Readable (lax : Lax) (inst : ServiceInstance) (t : ServiceType) : Prop where
  tags : ∀ rule∈t.rules inst.instanceId, rule.Holds lax inst.parameters.tags
  endpoints : t=.envoy → ∀ c∈inst.parameters.clusters, ∀ ep∈c.endpoints, EndpointReadable ep

theorem endpointAddress_some_iff (ep : String) :
    (∃ a, endpointAddress ep=some a) ↔ EndpointReadable ep := by
  rw [endpointAddress, EndpointReadable]
  split
  · next host port rest he =>
    constructor
    · intro h
      obtain ⟨a, ha⟩ := h
      obtain ⟨n, hn, _⟩ := Option.map_eq_some_iff.mp ha
      exact ⟨host, port, rest, he, n, hn⟩
    · intro h
      obtain ⟨host', port', rest', he', n, hn⟩ := h
      rw [he] at he'
      cases he'
      exact ⟨_, by rw [hn, Option.map_some]⟩
  · next hne =>
    constructor
    · intro h
      obtain ⟨a, ha⟩ := h
      cases ha
    · intro h
      obtain ⟨host, port, rest, he, _⟩ := h
      exact absurd he (hne host port rest)

/-- The document can be built exactly if every endpoint can be taken apart. -/
theorem clusterDoc_some_iff (s : RenderSettings) (mtlsEnabled : Bool) (c : Cluster) :
    (∃ d, clusterDoc s mtlsEnabled c=some d) ↔ ∀ ep∈c.endpoints, EndpointReadable ep := by
  simp only [clusterDoc, Option.map_eq_some_iff, ← endpointAddress_some_iff,
    ← Traverse.mapM_isSome_iff]
  constructor
  · intro h
    obtain ⟨d, as, ha, hd⟩ := h
    exact ⟨as, ha⟩
  · intro h
    obtain ⟨as, ha⟩ := h
    exact ⟨_, as, ha, rfl⟩

theorem buildDoc_some_iff (s : RenderSettings) (inst : ServiceInstance) :
    (∃ doc, buildDoc s inst=some doc) ↔
      ∀ c∈inst.parameters.clusters, ∀ ep∈c.endpoints, EndpointReadable ep := by
  simp only [← clusterDoc_some_iff s inst.parameters.mtlsEnabled, ← Traverse.mapM_isSome_iff]
  constructor
  · intro h
    obtain ⟨doc, hdoc⟩ := h
    exact ⟨_, (EnvoyV3.buildDoc_eq_some_iff.mp hdoc).choose_spec.1⟩
  · intro h
    obtain ⟨clusters, hc⟩ := h
    exact ⟨_, EnvoyV3.buildDoc_eq_some_iff.mpr ⟨clusters, hc, rfl⟩⟩

section Render
variable {k : Codec} {s : RenderSettings} {inst : ServiceInstance}

theorem artifact_total (hv : 1 ≤ inst.version) (serviceType : String)
    (files : List (String × Bytes)) (metadata : List (String × Json))
    (manifest : List DeploymentStep) :
    ∃ a, artifact inst serviceType files metadata manifest=.ok a := by
  rw [artifact, dif_pos hv]
  exact ⟨_, rfl⟩

theorem ofParams_bind_raised_iff {α : Type} {x : Except ParamError α}
    {f : α → Except RenderError RenderedArtifact} (hf : ∀ p, ∃ a, f p=.ok a) :
    (ofParams x >>= f)=.error .raised ↔ ¬ ∃ p, x=.ok p := by
  cases x with
  | error e => simp [ofParams, Except.mapError, bind, Except.bind]
  | ok p =>
    obtain ⟨a, ha⟩ := hf p
    simp [ofParams, Except.mapError, bind, Except.bind, ha]

theorem renderEnvoy_raised_iff (hv : 1 ≤ inst.version) :
    renderEnvoy s k inst=.error .raised ↔
      ¬ ∀ c∈inst.parameters.clusters, ∀ ep∈c.endpoints, EndpointReadable ep := by
  rw [← buildDoc_some_iff s, renderEnvoy]
  cases buildDoc s inst with
  | none => simp
  | some doc =>
    dsimp only
    split
    · obtain ⟨a, ha⟩ := artifact_total hv "sovereign-envoy-lb" [("envoy.yaml", k.safeDump doc)]
        [("listener_count", int inst.parameters.listeners.length),
         ("cluster_count", int inst.parameters.clusters.length),
         ("route_count", int inst.parameters.routes.length)]
        [{ kind := "s3-put", target := keyFor inst.instanceId inst.version "envoy.yaml"
           payload := [("bucket", .str s.configBucket),
             ("content_type", .str "application/x-yaml")] },
         { kind := "envoy-snapshot", target := inst.instanceId
           payload := [("version", int inst.version)] }]
      rw [ha]
      simp
    · simp

theorem readable_envoy_iff {lax : Lax} : Readable lax inst .envoy ↔
    ∀ c∈inst.parameters.clusters, ∀ ep∈c.endpoints, EndpointReadable ep :=
  ⟨fun h => h.endpoints rfl, fun h => ⟨fun _ hm => (List.not_mem_nil hm).elim, fun _ => h⟩⟩

theorem readable_pack_iff {lax : Lax} {t : ServiceType} (ht : t≠.envoy) : Readable lax inst t ↔
    ∀ rule∈t.rules inst.instanceId, rule.Holds lax inst.parameters.tags :=
  ⟨fun h => h.tags, fun h => ⟨h, fun he => absurd he ht⟩⟩

theorem pack_raised_iff {α : Type} {t : ServiceType} {lax : Lax} {x : Except ParamError α}
    {f : α → Except RenderError RenderedArtifact} (ht : t≠.envoy) (hf : ∀ p, ∃ a, f p=.ok a)
    (hx : (∃ p, x=.ok p) ↔ ∀ rule∈t.rules inst.instanceId, rule.Holds lax inst.parameters.tags) :
    (ofParams x >>= f)=.error .raised ↔ ¬ Readable lax inst t := by
  rw [readable_pack_iff ht, ← hx]
  exact ofParams_bind_raised_iff hf

/-- A renderer raises exactly for parameters it does not take. -/
theorem render_raised_iff (hv : 1 ≤ inst.version) (t : ServiceType) :
    t.render k s inst=.error .raised ↔ ¬ Readable k.lax inst t := by
  cases t with
  | envoy =>
    rw [readable_envoy_iff]
    exact renderEnvoy_raised_iff hv
  | inferenceEndpoint =>
    exact pack_raised_iff (by decide) (fun _ => artifact_total hv _ _ _ _)
      (bind_rules nonEmptyTag_ok_iff fun _ => bind_rules literalTag_ok_iff fun _ =>
        bind_rules literalTag_ok_iff fun _ => bind_rules laxIntTag_ok_iff fun _ =>
        bind_rules laxIntTag_ok_iff fun _ => bind_rules literalTag_ok_iff fun _ =>
        bind_rules laxBoolTag_ok_iff fun _ => bind_rules laxBoolTag_ok_iff fun _ =>
        bind_rules laxBoolTag_ok_iff fun _ => pure_rules)
  | ragWorkspace =>
    exact pack_raised_iff (by decide) (fun _ => artifact_total hv _ _ _ _)
      (bind_rules nonEmptyTag_ok_iff fun _ => bind_rules literalTag_ok_iff fun _ =>
        bind_rules unsplitListTag_ok_iff fun _ => bind_rules literalTag_ok_iff fun _ =>
        bind_rules laxBoolTag_ok_iff fun _ => bind_rules laxBoolTag_ok_iff fun _ => pure_rules)
  | managedDatabase =>
    exact pack_raised_iff (by decide) (fun _ => artifact_total hv _ _ _ _)
      (bind_rules intTag_ok_iff fun _ => bind_rules intTag_ok_iff fun _ =>
        bind_rules literalTag_ok_iff fun _ => bind_rules literalTag_ok_iff fun _ => pure_rules)
  | permissionedLedger =>
    exact pack_raised_iff (by decide) (fun _ => artifact_total hv _ _ _ _)
      (bind_rules intTag_ok_iff fun _ => bind_rules literalTag_ok_iff fun _ =>
        bind_rules literalTag_ok_iff fun _ => bind_rules literalTag_ok_iff fun _ => pure_rules)
  | siemWorkspace =>
    exact pack_raised_iff (by decide) (fun _ => artifact_total hv _ _ _ _)
      (bind_rules intTag_ok_iff fun _ => bind_rules intTag_ok_iff fun _ =>
        bind_rules literalTag_ok_iff fun _ => bind_rules literalTag_ok_iff fun _ => pure_rules)
  | vectorDb | landingZone =>
    exact pack_raised_iff (by decide) (fun _ => artifact_total hv _ _ _ _)
      (bind_rules intTag_ok_iff fun _ => bind_rules literalTag_ok_iff fun _ =>
        bind_rules literalTag_ok_iff fun _ => pure_rules)
  | logPipeline =>
    exact pack_raised_iff (by decide) (fun _ => artifact_total hv _ _ _ _)
      (bind_rules nonEmptyTag_ok_iff fun _ => bind_rules literalTag_ok_iff fun _ => pure_rules)
  | edgeNode =>
    exact pack_raised_iff (by decide) (fun _ => artifact_total hv _ _ _ _)
      (bind_rules literalTag_ok_iff fun _ => pure_rules)
  | edgeCluster | secureEmail | secureChat =>
    exact pack_raised_iff (by decide) (fun _ => artifact_total hv _ _ _ _)
      (bind_rules intTag_ok_iff fun _ => bind_rules literalTag_ok_iff fun _ => pure_rules)
  | cloudAccount =>
    exact pack_raised_iff (by decide) (fun _ => artifact_total hv _ _ _ _)
      (bind_rules literalTag_ok_iff fun _ => bind_rules literalTag_ok_iff fun _ => pure_rules)
  | idpBroker =>
    exact pack_raised_iff (by decide) (fun _ => artifact_total hv _ _ _ _)
      (bind_rules nonEmptyTag_ok_iff fun _ => bind_rules intTag_ok_iff fun _ =>
        bind_rules literalTag_ok_iff fun _ => bind_rules literalTag_ok_iff fun _ => pure_rules)
  | scimBridge =>
    exact pack_raised_iff (by decide) (fun _ => artifact_total hv _ _ _ _)
      (bind_rules nonEmptyTag_ok_iff fun _ => bind_rules intTag_ok_iff fun _ => pure_rules)

end Render
end Sovereign.Renderers.ServiceType

namespace Sovereign.ControlPlane
open Sovereign Packs Renderers Executors

def Handled {α : Type} (answer : Except HttpError α) : Prop :=
  ∀ e, answer=.error e → e.status∈[404, 422, 503]

theorem handled_ok {α : Type} (a : α) : Handled (.ok a) := by
  intro e he
  cases he

theorem handled_error_iff {α : Type} {status : Nat} {detail : Json} :
    Handled (.error ⟨status, detail⟩ : Except HttpError α) ↔ status∈[404, 422, 503] := by
  constructor
  · exact fun h => h _ rfl
  · intro h e' he
    cases he
    exact h

section Answers
variable {plane : Plane} {inst : ServiceInstance}

/-- An apply comes to an end exactly when the commands of its tool do. -/
theorem apply_ends {k : Codec} {s : RenderSettings} {t : ServiceType} {a : RenderedArtifact}
    (h : t.render k s inst=.ok a) (b : Backend) (w : World) :
    (∃ ar, (apply b s t a w).1=.ok ar) ↔ ∀ tool∈t.tool,
      tool.Ends b w inst t.filename "apply" ["apply", "-auto-approve", "-input=false"] := by
  cases ht : t.tool with
  | none =>
    refine iff_of_true ?_ fun _ htool => by cases htool
    cases t with
    | envoy | secureEmail | secureChat | idpBroker | scimBridge => exact ⟨_, rfl⟩
    | _ => cases ht
  | some tool =>
    have hdisk : appliesFromDisk t=true := by
      cases t <;> first | rfl | cases ht
    rw [apply_fromDisk hdisk, render_tool ht h, applyManifest_ends]
    simp

/-- No step raises while it is compared exactly when the commands end. -/
theorem render_findings {k : Codec} {s : RenderSettings} {t : ServiceType} {a : RenderedArtifact}
    (h : t.render k s inst=.ok a) (b : Backend) (w : World) :
    (∀ step∈a.deploymentManifest, finding (defaultDiffs b w) step≠.raised) ↔ ∀ tool∈t.tool,
      tool.Ends b w inst t.filename "diff" ["plan", "-detailed-exitcode", "-input=false"] := by
  cases ht : t.tool with
  | none =>
    refine iff_of_true ?_ fun _ htool => by cases htool
    cases t with
    | envoy =>
      rw [(renderEnvoy_ok h).manifest]
      simp [finding, defaultDiffs, baseDiff]
    | secureEmail | secureChat | idpBroker | scimBridge =>
      obtain ⟨p, -, hp⟩ := bind_eq_ok h
      rw [(artifact_ok hp).2]
      exact fun step hstep => by cases hstep
    | _ => cases ht
  | some tool =>
    rw [render_tool ht h]
    simp [finding_ends]

theorem not_handled {α : Type} {detail : Json} :
    ¬ Handled (.error ⟨500, detail⟩ : Except HttpError α) := by
  rw [handled_error_iff]
  decide

theorem applyArtifact_handled (plane : Plane) (inst : ServiceInstance) (t : ServiceType)
    (a : RenderedArtifact) (w : World) : Handled (applyArtifact plane inst t a w).reply ↔
      ∃ ar, (apply plane.backend plane.settings t a w).1=.ok ar := by
  rw [applyArtifact]
  generalize apply plane.backend plane.settings t a w=out
  obtain ⟨result, w'⟩ := out
  cases result with
  | error e => exact iff_of_false not_handled fun h => by obtain ⟨ar, har⟩ := h; cases har
  | ok ar =>
    refine iff_of_true ?_ ⟨ar, rfl⟩
    dsimp only
    split
    · exact handled_ok _
    · exact handled_error_iff.mpr (by decide)

/-- A renderer gives an artifact, rejects what it has read, or raises. -/
theorem render_cases (plane : Plane) (hv : 1 ≤ inst.version) (t : ServiceType) :
    (∃ a, t.render plane.codec plane.settings inst=.ok a) ∧
      ServiceType.Readable plane.codec.lax inst t ∨
    t.render plane.codec plane.settings inst=.error .validation ∧
      ServiceType.Readable plane.codec.lax inst t ∨
    t.render plane.codec plane.settings inst=.error .raised ∧
      ¬ ServiceType.Readable plane.codec.lax inst t := by
  have hraised := ServiceType.render_raised_iff (k := plane.codec) (s := plane.settings) hv t
  cases hr : t.render plane.codec plane.settings inst with
  | ok a =>
    rw [hr] at hraised
    exact Or.inl ⟨⟨a, rfl⟩, not_not.mp fun hn => by cases hraised.mpr hn⟩
  | error e =>
    rw [hr] at hraised
    cases e with
    | validation => exact Or.inr (Or.inl ⟨rfl, not_not.mp fun hn => by cases hraised.mpr hn⟩)
    | raised => exact Or.inr (Or.inr ⟨rfl, hraised.mp rfl⟩)

/-- Only the Envoy renderer, which runs no tool, rejects what it has read. -/
theorem render_tool_ok (hv : 1 ≤ inst.version) {t : ServiceType} {tool : Tool}
    (ht : t.tool=some tool) (h : t.render plane.codec plane.settings inst=.error .validation) :
    False := by
  have hpack : ∀ {α : Type} {x : Except ParamError α}
      {f : α → Except RenderError RenderedArtifact}, (∀ p, ∃ a, f p=.ok a) →
      (ofParams x >>= f)≠.error .validation := by
    intro α x f hf hx
    cases x with
    | error e => cases hx
    | ok p =>
      obtain ⟨a, ha⟩ := hf p
      simp [ofParams, Except.mapError, bind, Except.bind, ha] at hx
  cases t with
  | envoy | secureEmail | secureChat | idpBroker | scimBridge => cases ht
  | _ => exact hpack (fun _ => ServiceType.artifact_total hv _ _ _ _) h

/-- The renderer takes the parameters, and if the artifact validates the commands end. -/
structure Renders (plane : Plane) (inst : ServiceInstance) (w : World) (t : ServiceType) : Prop
    where
  readable : ServiceType.Readable plane.codec.lax inst t
  ends : (∀ a, t.render plane.codec plane.settings inst=.ok a → t.validate plane.codec a=[]) →
    ∀ tool∈t.tool, tool.Ends plane.backend w inst t.filename "apply"
      ["apply", "-auto-approve", "-input=false"]

structure Diffs (plane : Plane) (inst : ServiceInstance) (w : World) (t : ServiceType) : Prop
    where
  readable : ServiceType.Readable plane.codec.lax inst t
  ends : ∀ tool∈t.tool, tool.Ends plane.backend w inst t.filename "diff"
    ["plan", "-detailed-exitcode", "-input=false"]

theorem render_handled_iff (hv : 1 ≤ inst.version) (w : World) :
    Handled (render plane inst w).reply ↔
      ∀ t∈ServiceType.get inst.serviceId, Renders plane inst w t := by
  rw [render]
  cases ServiceType.get inst.serviceId with
  | none => exact iff_of_true (handled_error_iff.mpr (by decide)) fun _ ht => by cases ht
  | some t =>
    simp only [Option.mem_def, Option.some.injEq, forall_eq']
    obtain ⟨⟨a, hr⟩, hread⟩ | ⟨hr, hread⟩ | ⟨hr, hread⟩ := render_cases plane hv t
    · rw [hr]
      dsimp only
      cases hval : t.validate plane.codec a with
      | nil =>
        dsimp only
        rw [applyArtifact_handled, apply_ends hr]
        constructor
        · exact fun h => ⟨hread, fun _ => h⟩
        · refine fun h => h.ends fun a' ha' => ?_
          cases hr.symm.trans ha'
          exact hval
      | cons e errors =>
        refine iff_of_true (handled_error_iff.mpr (by decide)) ⟨hread, fun h => ?_⟩
        have hnil := h a hr
        rw [hval] at hnil
        cases hnil
    · rw [hr]
      refine iff_of_true (handled_error_iff.mpr (by decide)) ⟨hread, fun _ tool htool => ?_⟩
      exact (render_tool_ok hv htool hr).elim
    · rw [hr]
      exact iff_of_false not_handled fun h => hread h.readable

theorem diff_handled_iff (hv : 1 ≤ inst.version) (w : World) :
    Handled (diff (shippedRenderers plane) (defaultDiffs plane.backend w) inst).1 ↔
      ∀ t∈ServiceType.get inst.serviceId, Diffs plane inst w t := by
  rw [diff, shippedRenderers]
  cases ServiceType.get inst.serviceId with
  | none => exact iff_of_true (handled_error_iff.mpr (by decide)) fun _ ht => by cases ht
  | some t =>
    simp only [Option.map_some, Option.mem_def, Option.some.injEq, forall_eq']
    obtain ⟨⟨a, hr⟩, hread⟩ | ⟨hr, hread⟩ | ⟨hr, hread⟩ := render_cases plane hv t
    · rw [hr]
      simp only [Except.mapError]
      have hends := render_findings hr plane.backend w
      by_cases hquiet : ∀ step∈a.deploymentManifest,
          finding (defaultDiffs plane.backend w) step≠.raised
      · obtain ⟨md, hmd, _⟩ := diffManifest_flags a.deploymentManifest {} hquiet
        simp only [hmd]
        exact iff_of_true (handled_ok _) ⟨hread, hends.mp hquiet⟩
      · have hraised := hquiet
        push Not at hraised
        obtain ⟨step, hm, hr'⟩ := hraised
        obtain ⟨e, he⟩ := diffManifest_raised hm hr' {}
        simp only [he]
        exact iff_of_false not_handled fun h => hquiet (hends.mpr h.ends)
    · rw [hr]
      refine iff_of_true (handled_error_iff.mpr (by decide)) ⟨hread, fun tool htool => ?_⟩
      exact (render_tool_ok hv htool hr).elim
    · rw [hr]
      exact iff_of_false not_handled fun h => hread h.readable

end Answers

/-- Both handlers answer, or raise an error of theirs, exactly for an instance whose parameters its
renderer takes, when no command raises that they run for it. -/
theorem bad_params_iff (plane : Plane) {inst : ServiceInstance} (hv : 1 ≤ inst.version)
    (w : World) :
    (Handled (render plane inst w).reply ↔
      ∀ t∈ServiceType.get inst.serviceId, Renders plane inst w t) ∧
    (Handled (diff (shippedRenderers plane) (defaultDiffs plane.backend w) inst).1 ↔
      ∀ t∈ServiceType.get inst.serviceId, Diffs plane inst w t) :=
  ⟨render_handled_iff hv w, diff_handled_iff hv w⟩

def database (storageGb : String) : ServiceInstance :=
  { instanceId := "db-1", serviceId := "managed-database", planId := "standard"
    parameters := { tags := [("storage_gb", storageGb)], tags_nodup := List.nodup_singleton _ } }

def balancer (endpoint : String) : ServiceInstance :=
  { instanceId := "lb-1", serviceId := "sovereign-envoy-lb", planId := "standard-regional"
    parameters := { clusters := [{ name := "app", endpoints := [endpoint] }] } }

theorem database_readable_iff (storageGb : String) :
    ServiceType.Readable samplePlane.codec.lax (database storageGb) .managedDatabase ↔
      ∃ n, Text.pyInt storageGb=some n ∧ 10 ≤ n ∧ n≤65536 := by
  rw [ServiceType.readable_pack_iff (by decide)]
  simp [ServiceType.rules, ServiceType.classificationRule, Rule.Holds, database, List.lookup_cons]

theorem balancer_readable_iff (endpoint : String) :
    ServiceType.Readable samplePlane.codec.lax (balancer endpoint) .envoy ↔
      ServiceType.EndpointReadable endpoint := by
  rw [ServiceType.readable_envoy_iff]
  simp [balancer]

theorem bad_params_database :
    Handled (render samplePlane (database "50") staleWorld).reply ∧
    Handled (diff (shippedRenderers samplePlane) (defaultDiffs samplePlane.backend staleWorld)
      (database "50")).1 := by
  have hdb : ∀ t∈ServiceType.get (database "50").serviceId, t=.managedDatabase := by decide
  have hread : ServiceType.Readable samplePlane.codec.lax (database "50") .managedDatabase :=
    (database_readable_iff "50").mpr ⟨50, by decide +kernel, by decide, by decide⟩
  have hends : ∀ tool∈ServiceType.managedDatabase.tool, ∀ verb args, tool.Ends
      samplePlane.backend staleWorld (database "50") "main.tf.json" verb args := by
    intro tool htool verb args
    cases htool
    exact fun _ => ⟨_, rfl, fun _ => ⟨_, rfl⟩⟩
  have h := bad_params_iff samplePlane (by decide : 1≤(database "50").version) staleWorld
  exact ⟨h.1.mpr fun t ht => hdb t ht ▸ ⟨hread, fun _ tool htool => hends tool htool _ _⟩,
    h.2.mpr fun t ht => hdb t ht ▸ ⟨hread, fun tool htool => hends tool htool _ _⟩⟩

def Unanswered (plane : Plane) (inst : ServiceInstance) : Prop :=
  ¬ Handled (render plane inst staleWorld).reply ∧
  ¬ Handled (diff (shippedRenderers plane) (defaultDiffs plane.backend staleWorld) inst).1

theorem unanswered_of {inst : ServiceInstance} (hv : 1 ≤ inst.version)
    (h : ¬ ∀ t∈ServiceType.get inst.serviceId,
      ServiceType.Readable samplePlane.codec.lax inst t) : Unanswered samplePlane inst :=
  ⟨fun hh => h fun t ht => ((render_handled_iff hv _).mp hh t ht).readable,
    fun hh => h fun t ht => ((diff_handled_iff hv _).mp hh t ht).readable⟩

theorem unanswered_database {storageGb : String}
    (hn : ∀ n, Text.pyInt storageGb=some n → n < 10) :
    Unanswered samplePlane (database storageGb) := by
  refine unanswered_of (Int.le_refl 1) ?_
  intro h
  have hget : ServiceType.get "managed-database"=some .managedDatabase := by decide
  obtain ⟨n, hs, hle, _⟩ := (database_readable_iff storageGb).mp (h .managedDatabase hget)
  exact absurd (hn n hs) (Int.not_lt.mpr hle)

def startingPlane : Plane :=
  { samplePlane with
    codec := { samplePlane.codec with safeLoad := fun _ => some (.obj [("kind", .str "Pod")]) }
    backend := { samplePlane.backend with
                 run := fun cmd _ =>
                   if cmd.any fun arg => decide ('\x00'∈arg.toList) then
                     .error "embedded null byte"
                   else .ok (0, "", "") } }

def edgeNode (namespace_ : String) : ServiceInstance :=
  { instanceId := "edge-1", serviceId := "edge-node", planId := "standard"
    parameters := { tags := [("namespace", namespace_)], tags_nodup := List.nodup_singleton _ } }

/-- A tag that is no number, one out of range, an endpoint without a port, and a namespace with
a NUL. -/
theorem bad_params_raise : Unanswered samplePlane (database "lots") ∧
    Unanswered samplePlane (database "5") ∧ Unanswered samplePlane (balancer "backend") ∧
    Unanswered startingPlane (edgeNode "edge\x00") := by
  refine ⟨unanswered_database (by decide +kernel), unanswered_database (by decide +kernel),
    unanswered_of (by decide) ?_, ?_, ?_⟩
  · intro h
    obtain ⟨a, ha⟩ := (ServiceType.endpointAddress_some_iff "backend").mpr
      ((balancer_readable_iff "backend").mp (h .envoy (by decide)))
    have hnone : endpointAddress "backend"=none := by decide +kernel
    rw [hnone] at ha
    cases ha
  · intro h
    have hstatus := h ⟨500, .str "embedded null byte"⟩ (by rfl)
    exact absurd hstatus (by decide)
  · intro h
    have hstatus := h ⟨500, .str "embedded null byte"⟩ (by rfl)
    exact absurd hstatus (by decide)

end Sovereign.ControlPlane
