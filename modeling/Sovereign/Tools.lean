import Sovereign.DriftDetection

/-! The commands that the shipped renderers make the control plane run, and what follows when one
of them raises. -/
namespace Sovereign.Renderers
open Sovereign Packs Executors

inductive Tool where
  | kubectl (namespace_ : String)
  | terraform
deriving DecidableEq

def ServiceType.tool : ServiceType → Option Tool
  | .envoy => none
  | .inferenceEndpoint => some (.kubectl "sovereign-ai")
  | .ragWorkspace => some (.kubectl "sovereign-ai")
  | .managedDatabase => some .terraform
  | .vectorDb => some .terraform
  | .permissionedLedger => some (.kubectl "sovereign-ledger")
  | .siemWorkspace => some (.kubectl "sovereign-secops")
  | .logPipeline => some (.kubectl "sovereign-secops")
  | .edgeNode => some (.kubectl "sovereign-edge")
  | .edgeCluster => some (.kubectl "sovereign-edge")
  | .cloudAccount => some .terraform
  | .landingZone => some .terraform
  | .secureEmail => none
  | .secureChat => none
  | .idpBroker => none
  | .scimBridge => none

section Commands
variable (b : Backend) (w : World) (inst : ServiceInstance) (filename : String)

def Tool.step : Tool → DeploymentStep
  | .kubectl namespace_ =>
    { kind := "k8s-apply", target := strTag inst.parameters.tags "namespace" namespace_
      payload := [("manifest_path", .str (artifactPath inst ++ "/" ++ filename))] }
  | .terraform =>
    { kind := "terraform-apply", target := inst.instanceId
      payload := [("module_dir", .str (artifactPath inst))] }

/-- The command comes to an end, whatever its exit code. -/
def Ends (cmd : List String) (content : Option Bytes) : Prop := ∃ out, b.run cmd content=.ok out

/-- The tool is not there, or its commands end: for `kubectl` the one with this verb, for
`terraform` the `init` and, where that exits with 0, the one with these arguments. -/
def Tool.Ends (verb : String) (args : List String) : Tool → Prop
  | .kubectl namespace_ =>
    let target := strTag inst.parameters.tags "namespace" namespace_
    let path := artifactPath inst ++ "/" ++ filename
    b.onPath "kubectl"=true → Renderers.Ends b
      ["kubectl", verb, "-n", if target="" then "default" else target, "-f", path] (w.files path)
  | .terraform =>
    let dir := artifactPath inst
    let content := w.files (moduleFile dir)
    b.onPath "terraform"=true →
      ∃ out, b.run ["terraform", "-chdir=" ++ dir, "init", "-input=false"] content=.ok out ∧
        (out.1=0 → Renderers.Ends b (["terraform", "-chdir=" ++ dir]++args) content)

end Commands

section Steps
variable {b : Backend} {w : World} {inst : ServiceInstance} {filename : String}

theorem payloadStr_manifestPath (kind target : String) :
    payloadStr ⟨kind, target, [("manifest_path", .str (artifactPath inst ++ "/" ++ filename))]⟩
      "manifest_path"=some (artifactPath inst ++ "/" ++ filename) :=
  ControlPlane.payloadStr_of_ne rfl
    (by rw [String.append_assoc]; exact ControlPlane.artifactPath_ne inst _)

theorem payloadStr_moduleDir (kind target : String) :
    payloadStr ⟨kind, target, [("module_dir", .str (artifactPath inst))]⟩ "module_dir"=
      some (artifactPath inst) :=
  ControlPlane.payloadStr_of_ne rfl (by simpa using ControlPlane.artifactPath_ne inst "")

theorem runApply_ends (step : DeploymentStep) (cmd : List String)
    (reading : Option (Option Bytes)) (failure : String) (done : ExecResult)
    (created : Resource) :
    (∃ r, (runApply b step cmd reading failure done created w).1=.ok r) ↔
      Ends b cmd reading.join := by
  rw [runApply, Ends]
  cases b.run cmd reading.join with
  | error e => simp
  | ok out =>
    obtain ⟨code, out, err⟩ := out
    refine iff_of_true ?_ ⟨_, rfl⟩
    dsimp only
    split
    · exact ⟨_, rfl⟩
    · exact ⟨_, rfl⟩

theorem kubernetesExecute_ends {step : DeploymentStep} {path : String}
    (hp : payloadStr step "manifest_path"=some path) :
    (∃ r, (kubernetesExecute b step w).1=.ok r) ↔ (b.onPath "kubectl"=true → Ends b
      ["kubectl", "apply", "-n", if step.target="" then "default" else step.target, "-f", path]
      (w.files path)) := by
  by_cases h : b.onPath "kubectl"=true
  · rw [kubernetesExecute, if_pos h, hp]
    dsimp only
    rw [runApply_ends]
    simp [h]
  · rw [kubernetesExecute, if_neg h]
    exact iff_of_true ⟨_, rfl⟩ fun hpath => absurd hpath h

theorem terraformExecute_ends {step : DeploymentStep} {dir : String}
    (hp : payloadStr step "module_dir"=some dir) :
    (∃ r, (terraformExecute b step w).1=.ok r) ↔ (b.onPath "terraform"=true →
      ∃ out, b.run ["terraform", "-chdir=" ++ dir, "init", "-input=false"]
          (w.files (moduleFile dir))=.ok out ∧
        (out.1=0 → Ends b ["terraform", "-chdir=" ++ dir, "apply", "-auto-approve", "-input=false"]
          (w.files (moduleFile dir)))) := by
  by_cases h : b.onPath "terraform"=true
  · rw [terraformExecute, if_pos h, hp]
    dsimp only
    cases b.run ["terraform", "-chdir=" ++ dir, "init", "-input=false"]
        (w.files (moduleFile dir)) with
    | error e => simp [h]
    | ok out =>
      by_cases hcode : out.1=0
      · simp only [hcode, if_true]
        rw [runApply_ends]
        simp [h, hcode]
      · simp only [hcode, if_false]
        exact iff_of_true ⟨_, rfl⟩ fun _ => ⟨_, rfl, fun h0 => absurd h0 hcode⟩
  · rw [terraformExecute, if_neg h]
    exact iff_of_true ⟨_, rfl⟩ fun hpath => absurd hpath h

variable (b w inst filename) in
theorem execute_ends (tool : Tool) : ∃ result w', execute b (tool.step inst filename) w=
      some (result, w') ∧ ((∃ r, result=.ok r) ↔
        tool.Ends b w inst filename "apply" ["apply", "-auto-approve", "-input=false"]) := by
  cases tool with
  | kubectl namespace_ =>
    exact ⟨_, _, rfl, kubernetesExecute_ends (payloadStr_manifestPath "k8s-apply" _)⟩
  | terraform => exact ⟨_, _, rfl, terraformExecute_ends (payloadStr_moduleDir "terraform-apply" _)⟩

theorem applyManifest_ends (tool : Tool) :
    (∃ r, (applyManifest b [tool.step inst filename] [] w).1=.ok r) ↔
      tool.Ends b w inst filename "apply" ["apply", "-auto-approve", "-input=false"] := by
  obtain ⟨result, w', he, hends⟩ := execute_ends b w inst filename tool
  rw [← hends, applyManifest, he]
  cases result with
  | error e => simp
  | ok r =>
    refine iff_of_true ?_ ⟨r, rfl⟩
    dsimp only
    split
    · exact ⟨_, rfl⟩
    · exact ⟨_, rfl⟩

theorem kubernetesDiff_ends {step : DeploymentStep} {path : String}
    (hp : payloadStr step "manifest_path"=some path) :
    (∃ d, kubernetesDiff b w step=.ok d) ↔ (b.onPath "kubectl"=true → Ends b
      ["kubectl", "diff", "-n", if step.target="" then "default" else step.target, "-f", path]
      (w.files path)) := by
  by_cases h : b.onPath "kubectl"=true
  · rw [kubernetesDiff, if_pos h, hp, Ends]
    dsimp only
    cases b.run ["kubectl", "diff", "-n", if step.target="" then "default" else step.target, "-f",
        path] (w.files path) with
    | error e => simp [h]
    | ok out =>
      refine iff_of_true ?_ fun _ => ⟨_, rfl⟩
      dsimp only
      split
      · exact ⟨_, rfl⟩
      split
      · exact ⟨_, rfl⟩
      · exact ⟨_, rfl⟩
  · rw [kubernetesDiff, if_neg h]
    exact iff_of_true ⟨_, rfl⟩ fun hpath => absurd hpath h

theorem terraformDiff_ends {step : DeploymentStep} {dir : String}
    (hp : payloadStr step "module_dir"=some dir) :
    (∃ d, terraformDiff b w step=.ok d) ↔ (b.onPath "terraform"=true →
      ∃ out, b.run ["terraform", "-chdir=" ++ dir, "init", "-input=false"]
          (w.files (moduleFile dir))=.ok out ∧
        (out.1=0 → Ends b
          ["terraform", "-chdir=" ++ dir, "plan", "-detailed-exitcode", "-input=false"]
          (w.files (moduleFile dir)))) := by
  by_cases h : b.onPath "terraform"=true
  · rw [terraformDiff, if_pos h, hp]
    dsimp only
    cases b.run ["terraform", "-chdir=" ++ dir, "init", "-input=false"]
        (w.files (moduleFile dir)) with
    | error e => simp [h]
    | ok out =>
      by_cases hcode : out.1=0
      · simp only [hcode, if_true, h, Except.ok.injEq, exists_eq_left', true_imp_iff, Ends]
        cases b.run ["terraform", "-chdir=" ++ dir, "plan", "-detailed-exitcode", "-input=false"]
            (w.files (moduleFile dir)) with
        | error e => simp
        | ok plan =>
          refine iff_of_true ?_ ⟨_, rfl⟩
          dsimp only
          split
          · exact ⟨_, rfl⟩
          split
          · exact ⟨_, rfl⟩
          · exact ⟨_, rfl⟩
      · simp only [hcode, if_false]
        exact iff_of_true ⟨_, rfl⟩ fun _ => ⟨_, rfl, fun h0 => absurd h0 hcode⟩
  · rw [terraformDiff, if_neg h]
    exact iff_of_true ⟨_, rfl⟩ fun hpath => absurd hpath h

theorem finding_ne_raised {executors : DiffRegistry} {step : DeploymentStep} {diff : Differ}
    (h : executors step.kind=some diff) :
    finding executors step≠.raised ↔ ∃ d, diff step=.ok d := by
  rw [finding, h]
  dsimp only
  cases diff step with
  | error e => simp
  | ok d =>
    refine iff_of_true ?_ ⟨d, rfl⟩
    dsimp only
    split
    · exact Finding.noConfusion
    split
    · exact Finding.noConfusion
    · exact Finding.noConfusion

theorem finding_ends (tool : Tool) :
    finding (defaultDiffs b w) (tool.step inst filename)≠.raised ↔
      tool.Ends b w inst filename "diff" ["plan", "-detailed-exitcode", "-input=false"] := by
  cases tool with
  | kubectl namespace_ =>
    have hdiff : defaultDiffs b w "k8s-apply"=some (kubernetesDiff b w) := rfl
    rw [finding_ne_raised hdiff]
    exact kubernetesDiff_ends (payloadStr_manifestPath "k8s-apply" _)
  | terraform =>
    have hdiff : defaultDiffs b w "terraform-apply"=some (terraformDiff b w) := rfl
    rw [finding_ne_raised hdiff]
    exact terraformDiff_ends (payloadStr_moduleDir "terraform-apply" _)

end Steps

section Manifests
variable {k : Codec} {s : RenderSettings} {inst : ServiceInstance} {t : ServiceType}
variable {a : RenderedArtifact}

theorem ofParams_ok {α : Type} {x : Except ParamError α} {p : α} (h : ofParams x=.ok p) :
    x=.ok p := by
  cases x with
  | error e => cases h
  | ok q =>
    cases h
    rfl

theorem render_tool {tool : Tool} (ht : t.tool=some tool) (h : t.render k s inst=.ok a) :
    a.deploymentManifest=[tool.step inst t.filename] := by
  cases t with
  | inferenceEndpoint | ragWorkspace | permissionedLedger | siemWorkspace | logPipeline |
      edgeNode | edgeCluster =>
    cases ht
    obtain ⟨p, hp, h⟩ := bind_eq_ok h
    rw [(ControlPlane.artifact_ok h).2]
    -- the parameter model reads its namespace from the tag
    have hp := ofParams_ok hp
    repeat obtain ⟨_, -, hp⟩ := bind_eq_ok hp
    cases hp
    rfl
  | managedDatabase | vectorDb | cloudAccount | landingZone =>
    cases ht
    obtain ⟨p, -, h⟩ := bind_eq_ok h
    exact (ControlPlane.artifact_ok h).2
  | envoy | secureEmail | secureChat | idpBroker | scimBridge => cases ht

end Manifests
end Sovereign.Renderers
