import Sovereign.ControlPlane
import Sovereign.ManualPass

/-! Drift detection: what the executors report of each step, how `diff_manifest` folds the
reports into two flags, and what the broker makes of the flags. -/
namespace Sovereign.Executors
open Sovereign Renderers

structure DiffResult where
  checked : Bool := true
  drifted : Bool := false
  detail : String := ""
deriving DecidableEq

/-- The `diff` of an executor; an exception carries its text. -/
abbrev Differ := DeploymentStep → Except String DiffResult

abbrev DiffRegistry := String → Option Differ

section Shipped
variable (b : Backend) (w : World)

/-- `BaseExecutor.diff`: nothing to compare. -/
def baseDiff (kind : String) : Differ := fun _ =>
  .ok { detail := kind ++ ": no drift surface" }

def unchecked (detail : String) : Except String DiffResult := .ok { checked := false, detail }

def kubernetesDiff : Differ := fun step =>
  if b.onPath "kubectl" then
    match payloadStr step "manifest_path" with
    | none => unchecked "k8s diff requires payload.manifest_path"
    | some path =>
      let ns := if step.target="" then "default" else step.target
      match b.run ["kubectl", "diff", "-n", ns, "-f", path] (w.files path) with
      | .error e => .error e
      | .ok (code, _, err) =>
        if code=0 then .ok { detail := ns ++ ": in sync" }
        else if code=1 then .ok { drifted := true, detail := ns ++ ": drift detected" }
        else unchecked ("kubectl diff error: " ++ message "" err)
  else unchecked "kubectl not found on PATH"

def terraformDiff : Differ := fun step =>
  if b.onPath "terraform" then
    match payloadStr step "module_dir" with
    | none => unchecked "terraform diff requires payload.module_dir"
    | some dir =>
      let content := w.files (moduleFile dir)
      match b.run ["terraform", "-chdir=" ++ dir, "init", "-input=false"] content with
      | .error e => .error e
      | .ok (code, _, err) =>
        if code=0 then
          match b.run
            ["terraform", "-chdir=" ++ dir, "plan", "-detailed-exitcode", "-input=false"]
            content with
          | .error e => .error e
          | .ok (code, _, err) =>
            if code=0 then .ok { detail := dir ++ ": in sync" }
            else if code=2 then .ok { drifted := true, detail := dir ++ ": drift detected" }
            else unchecked ("terraform plan error: " ++ message "" err)
        else unchecked ("terraform init failed: " ++ message "" err)
  else unchecked "terraform not found on PATH"

def defaultDiffs : DiffRegistry
  | "envoy-snapshot" => some (baseDiff "envoy-snapshot")
  | "k8s-apply" => some (kubernetesDiff b w)
  | "helm-upgrade" => some (baseDiff "helm-upgrade")
  | "terraform-apply" => some (terraformDiff b w)
  | "webhook" => some (baseDiff "webhook")
  | _ => none

end Shipped

structure ManifestDiff where
  drifted : Bool := false
  unknown : Bool := false
  details : List String := []
deriving DecidableEq

def ManifestDiff.add (md : ManifestDiff) (step : DeploymentStep) (d : DiffResult) :
    ManifestDiff :=
  if !d.checked then
    { md with unknown := true, details := md.details++[step.kind ++ ": unchecked — " ++ d.detail] }
  else if d.drifted then
    { md with drifted := true, details := md.details++[step.kind ++ ": DRIFTED — " ++ d.detail] }
  else { md with details := md.details++[step.kind ++ ": in sync"] }

def diffManifest (executors : DiffRegistry) :
    List DeploymentStep → ManifestDiff → Except String ManifestDiff
  | [], md => .ok md
  | step::rest, md =>
    match executors step.kind with
    | none => diffManifest executors rest
        { md with unknown := true
                  details := md.details++[step.kind ++ ": no executor registered (unchecked)"] }
    | some diff =>
      match diff step with
      | .error e => .error e
      | .ok d => diffManifest executors rest (md.add step d)

inductive Finding where
  | inSync | drifted | unchecked | raised
deriving DecidableEq

def finding (executors : DiffRegistry) (step : DeploymentStep) : Finding :=
  match executors step.kind with
  | none => .unchecked
  | some diff =>
    match diff step with
    | .error _ => .raised
    | .ok d => if !d.checked then .unchecked else if d.drifted then .drifted else .inSync

section Findings
variable {executors : DiffRegistry}

theorem diffManifest_cons (executors : DiffRegistry) (step : DeploymentStep) (rest : List DeploymentStep)
    (md : ManifestDiff) :
    (finding executors step=.raised ∧
      ∃ e, diffManifest executors (step::rest) md=.error e) ∨
    (finding executors step≠.raised ∧
      ∃ md', diffManifest executors (step::rest) md=diffManifest executors rest md' ∧
        (md'.drifted=true ↔ md.drifted=true ∨ finding executors step=.drifted) ∧
        (md'.unknown=true ↔ md.unknown=true ∨ finding executors step=.unchecked)) := by
  rw [diffManifest, finding]
  cases executors step.kind with
  | none => exact Or.inr ⟨by simp, _, rfl, by simp, by simp⟩
  | some diff =>
    dsimp only
    cases diff step with
    | error e => exact Or.inl ⟨rfl, e, rfl⟩
    | ok d =>
      refine Or.inr ⟨?_, _, rfl, ?_, ?_⟩
      · dsimp only
        split
        · simp
        · split <;> simp
      · simp only [ManifestDiff.add]
        split
        · simp
        · split <;> simp
      · simp only [ManifestDiff.add]
        split
        · simp
        · split <;> simp

theorem diffManifest_flags (manifest : List DeploymentStep) (md : ManifestDiff)
    (h : ∀ step∈manifest, finding executors step≠.raised) :
    ∃ md', diffManifest executors manifest md=.ok md' ∧
      (md'.drifted=true ↔ md.drifted=true ∨ ∃ step∈manifest, finding executors step=.drifted) ∧
      (md'.unknown=true ↔
        md.unknown=true ∨ ∃ step∈manifest, finding executors step=.unchecked) := by
  induction manifest generalizing md with
  | nil => exact ⟨md, rfl, by simp, by simp⟩
  | cons step rest ih =>
    obtain ⟨hstep, hrest⟩ := List.forall_mem_cons.mp h
    obtain ⟨hraised, _⟩ | ⟨_, md₁, he, hd, hu⟩ := diffManifest_cons executors step rest md
    · exact absurd hraised hstep
    · obtain ⟨md₂, he₂, hd₂, hu₂⟩ := ih md₁ hrest
      refine ⟨md₂, he.trans he₂, ?_, ?_⟩
      · rw [hd₂, hd]
        simp [or_assoc]
      · rw [hu₂, hu]
        simp [or_assoc]

theorem diffManifest_raised {manifest : List DeploymentStep} {step : DeploymentStep}
    (hm : step∈manifest) (hr : finding executors step=.raised) (md : ManifestDiff) :
    ∃ e, diffManifest executors manifest md=.error e := by
  induction manifest generalizing md with
  | nil => cases hm
  | cons first rest ih =>
    obtain ⟨_, h⟩ | ⟨hne, md₁, he, _, _⟩ := diffManifest_cons executors first rest md
    · exact h
    · obtain rfl | hm := List.mem_cons.mp hm
      · exact absurd hr hne
      · rw [he]
        exact ih hm md₁

end Findings
end Sovereign.Executors

namespace Sovereign.ControlPlane
open Sovereign Renderers Executors

abbrev RendererRegistry :=
  String → Option (ServiceInstance → Except (RenderError × String) RenderedArtifact)

def shippedRenderers (plane : Plane) : RendererRegistry := fun serviceType =>
  (ServiceType.get serviceType).map fun t inst =>
    (t.render plane.codec plane.settings inst).mapError fun e => (e, plane.errorText inst e)

def diffReply (inst : ServiceInstance) (a : RenderedArtifact) (md : ManifestDiff) :
    List (String × Json) :=
  [("instance_id", .str inst.instanceId), ("service_type", .str a.serviceType),
   ("version", .num a.version), ("drifted", .bool md.drifted), ("unknown", .bool md.unknown),
   ("details", .arr (md.details.map .str))]

def diffAudit (inst : ServiceInstance) (a : RenderedArtifact) (md : ManifestDiff) : AuditRecord :=
  { action := "config.diffed", resource := inst.instanceId, actor := "system"
    details := if md.drifted then "drifted" else if md.unknown then "unknown" else "in_sync"
    metadata := [("service_type", .str a.serviceType), ("version", .num a.version),
      ("drifted", .bool md.drifted), ("unknown", .bool md.unknown)] }

def diff (renderers : RendererRegistry) (executors : DiffRegistry) (inst : ServiceInstance) :
    Except HttpError (List (String × Json)) × List AuditRecord :=
  match renderers inst.serviceId with
  | none =>
    (.error ⟨404, .str ("no renderer for service_type '" ++ inst.serviceId ++ "'")⟩, [])
  | some render =>
    match render inst with
    | .error (.validation, e) => (.error ⟨422, .str e⟩, [])
    | .error (.raised, e) => (.error ⟨500, .str e⟩, [])
    | .ok a =>
      match diffManifest executors a.deploymentManifest {} with
      | .error e => (.error ⟨500, .str e⟩, [])
      | .ok md => (.ok (diffReply inst a md), [diffAudit inst a md])

/-- The steps that `/diff` looks at. -/
def diffedManifest (renderers : RendererRegistry) (inst : ServiceInstance) :
    List DeploymentStep :=
  match renderers inst.serviceId with
  | none => []
  | some render =>
    match render inst with
    | .error _ => []
    | .ok a => a.deploymentManifest

end Sovereign.ControlPlane

namespace Sovereign.Broker
open Sovereign Packs Renderers Executors ControlPlane

def diffAnswer (renderers : RendererRegistry) (executors : DiffRegistry)
    (inst : ServiceInstance) : Option Artifact :=
  (ControlPlane.diff renderers executors inst).1.toOption

def ConfirmedDrift (executors : DiffRegistry) (manifest : List DeploymentStep) : Prop :=
  ∃ step∈manifest, finding executors step=.drifted

/-- Every step could be compared with its backend. -/
def AllChecked (executors : DiffRegistry) (manifest : List DeploymentStep) : Prop :=
  ∀ step∈manifest, finding executors step=.inSync ∨ finding executors step=.drifted

section Refresh
variable {renderers : RendererRegistry} {executors : DiffRegistry} {inst : ServiceInstance}

theorem truthyMember_diffReply (inst : ServiceInstance) (a : RenderedArtifact) (md : ManifestDiff) :
    refreshedDrift.truthyMember "unknown" (diffReply inst a md)=md.unknown ∧
    refreshedDrift.truthyMember "drifted" (diffReply inst a md)=md.drifted := by
  simp [refreshedDrift.truthyMember, diffReply, Json.lookup]

/-- What the broker gets: an answer with both flags, or nothing when a step raises. -/
theorem diffAnswer_cases (renderers : RendererRegistry) (executors : DiffRegistry)
    (inst : ServiceInstance) :
    (diffAnswer renderers executors inst=none ∧
      (diffedManifest renderers inst=[] ∨
        ∃ step∈diffedManifest renderers inst, finding executors step=.raised)) ∨
    ∃ a md, diffAnswer renderers executors inst=some (diffReply inst a md) ∧
      (md.drifted=true ↔ ConfirmedDrift executors (diffedManifest renderers inst)) ∧
      (md.unknown=true ↔
        ∃ step∈diffedManifest renderers inst, finding executors step=.unchecked) ∧
      ∀ step∈diffedManifest renderers inst, finding executors step≠.raised := by
  rw [diffAnswer, ControlPlane.diff, diffedManifest]
  cases renderers inst.serviceId with
  | none => exact Or.inl ⟨rfl, Or.inl rfl⟩
  | some render =>
    dsimp only
    cases render inst with
    | error e =>
      obtain ⟨kind, text⟩ := e
      cases kind <;> exact Or.inl ⟨rfl, Or.inl rfl⟩
    | ok a =>
      dsimp only
      by_cases hraise : ∃ step∈a.deploymentManifest, finding executors step=.raised
      · obtain ⟨step, hm, hr⟩ := hraise
        obtain ⟨e, he⟩ := diffManifest_raised hm hr {}
        rw [he]
        exact Or.inl ⟨rfl, Or.inr ⟨step, hm, hr⟩⟩
      · have hok : ∀ step∈a.deploymentManifest, finding executors step≠.raised :=
          fun step hm hr => hraise ⟨step, hm, hr⟩
        obtain ⟨md, he, hd, hu⟩ := diffManifest_flags a.deploymentManifest {} hok
        rw [he]
        exact Or.inr ⟨a, md, rfl, by simpa [ConfirmedDrift] using hd, by simpa using hu, hok⟩

/-- The refresh marks exactly the confirmed drift, and the pass goes on to reconcile it. -/
structure DriftActedOn (env : Env) (renderers : RendererRegistry) (executors : DiffRegistry)
    (inst : ServiceInstance) (pass : Pass) : Prop where
  acted : ConfirmedDrift executors (diffedManifest renderers inst) →
    ((refreshedDrift inst (diffAnswer renderers executors inst)).getD inst).driftStatus=.drifted ∧
    ∃ x, (diffed env inst pass (diffAnswer renderers executors inst)).task =
      some (.reconcile x pass)
  only : ¬ ConfirmedDrift executors (diffedManifest renderers inst) →
    ∀ x, refreshedDrift inst (diffAnswer renderers executors inst)=some x →
      x.driftStatus≠.drifted

/-- A record that is marked as drifted after the refresh is reconciled. -/
theorem diffed_reconciles (env : Env) (pass : Pass) {result : Option Artifact}
    (h : ((refreshedDrift inst result).getD inst).driftStatus=.drifted) :
    ∃ x, (diffed env inst pass result).task=some (.reconcile x pass) := by
  have hneed : needsReconcile ((refreshedDrift inst result).getD inst)=true := by
    simp [needsReconcile, h]
  simp only [diffed, hneed, if_true]
  exact ⟨_, rfl⟩

/-- The refreshed record of an answer: the old one if a step was unchecked. -/
theorem refreshed_diffReply (a : RenderedArtifact) (md : ManifestDiff) :
    refreshedDrift inst (some (diffReply inst a md)) =
      if md.unknown then none
      else some { inst with driftStatus := if md.drifted then .drifted else .inSync } := by
  obtain ⟨hu, hd⟩ := truthyMember_diffReply inst a md
  rw [refreshedDrift, hu, hd]

theorem allChecked_iff {manifest : List DeploymentStep}
    (h : ∀ step∈manifest, finding executors step≠.raised) :
    AllChecked executors manifest ↔ ¬ ∃ step∈manifest, finding executors step=.unchecked := by
  constructor
  · intro hall hex
    obtain ⟨step, hm, hu⟩ := hex
    obtain hf | hf := hall step hm
    · rw [hf] at hu
      cases hu
    · rw [hf] at hu
      cases hu
  · intro hno step hm
    have hr := h step hm
    have hu : finding executors step≠.unchecked := fun hu => hno ⟨step, hm, hu⟩
    cases hf : finding executors step with
    | inSync => exact Or.inl rfl
    | drifted => exact Or.inr rfl
    | unchecked => exact absurd hf hu
    | raised => exact absurd hf hr

/-- The refresh leaves the record because a step was not checked, or it sets the status
that the steps, all checked, call for. -/
theorem refreshed_cases (renderers : RendererRegistry) (executors : DiffRegistry)
    (inst : ServiceInstance) :
    (refreshedDrift inst (diffAnswer renderers executors inst)=none ∧
      (ConfirmedDrift executors (diffedManifest renderers inst) →
        ¬ AllChecked executors (diffedManifest renderers inst))) ∨
    (AllChecked executors (diffedManifest renderers inst) ∧
      ∃ x, refreshedDrift inst (diffAnswer renderers executors inst)=some x ∧
        (x.driftStatus=.drifted ↔
          ConfirmedDrift executors (diffedManifest renderers inst))) := by
  obtain ⟨hnone, hwhy⟩ | ⟨a, md, hanswer, hd, hu, hok⟩ :=
    diffAnswer_cases renderers executors inst
  · refine Or.inl ⟨by rw [hnone]; rfl, ?_⟩
    intro hc hall
    obtain ⟨step, hm, _⟩ := hc
    obtain hnil | ⟨step', hm', hr⟩ := hwhy
    · rw [hnil] at hm
      cases hm
    · obtain hf | hf := hall step' hm'
      · rw [hf] at hr
        cases hr
      · rw [hf] at hr
        cases hr
  · have hall := allChecked_iff hok
    rw [← hu] at hall
    rw [hanswer, refreshed_diffReply]
    cases hmu : md.unknown with
    | true => exact Or.inl ⟨rfl, fun _ h => hall.mp h hmu⟩
    | false =>
      refine Or.inr ⟨hall.mpr (by simp [hmu]), _, rfl, ?_⟩
      rw [← hd]
      cases md.drifted <;> simp

theorem driftActedOn_kept (env : Env) (pass : Pass)
    (h : refreshedDrift inst (diffAnswer renderers executors inst)=none) :
    DriftActedOn env renderers executors inst pass ↔
      (ConfirmedDrift executors (diffedManifest renderers inst) → inst.driftStatus=.drifted) := by
  have hkeep : (refreshedDrift inst (diffAnswer renderers executors inst)).getD inst=inst := by
    rw [h]
    rfl
  constructor
  · intro ha hc
    have hmark := (ha.acted hc).1
    rw [hkeep] at hmark
    exact hmark
  · intro hprior
    refine ⟨fun hc => ?_, fun _ x hx => by rw [h] at hx; cases hx⟩
    have hmark : ((refreshedDrift inst (diffAnswer renderers executors inst)).getD
        inst).driftStatus=.drifted := by
      rw [hkeep]
      exact hprior hc
    exact ⟨hmark, diffed_reconciles env pass hmark⟩

theorem driftActedOn_set (env : Env) (pass : Pass) {x : ServiceInstance}
    (hx : refreshedDrift inst (diffAnswer renderers executors inst)=some x)
    (hdrift : x.driftStatus=.drifted ↔
      ConfirmedDrift executors (diffedManifest renderers inst)) :
    DriftActedOn env renderers executors inst pass := by
  refine ⟨fun hc => ?_, fun hc y hy => ?_⟩
  · have hmark : ((refreshedDrift inst (diffAnswer renderers executors inst)).getD
        inst).driftStatus=.drifted := by
      rw [hx]
      exact hdrift.mpr hc
    exact ⟨hmark, diffed_reconciles env pass hmark⟩
  · rw [hx] at hy
    cases hy
    exact fun hd => hc (hdrift.mp hd)

/-- Confirmed drift is acted on exactly when no other step hides it: every step could be
checked, or the record was marked as drifted before. -/
theorem drift_acted_on_iff (env : Env) (renderers : RendererRegistry) (executors : DiffRegistry)
    (inst : ServiceInstance) (pass : Pass) :
    DriftActedOn env renderers executors inst pass ↔
      (ConfirmedDrift executors (diffedManifest renderers inst) →
        AllChecked executors (diffedManifest renderers inst) ∨ inst.driftStatus=.drifted) := by
  obtain ⟨hnone, hhidden⟩ | ⟨hall, x, hx, hdrift⟩ := refreshed_cases renderers executors inst
  · rw [driftActedOn_kept env pass hnone]
    constructor
    · intro h hc
      exact Or.inr (h hc)
    · intro h hc
      exact (h hc).resolve_left (hhidden hc)
  · exact ⟨fun _ _ => Or.inl hall, fun _ => driftActedOn_set env pass hx hdrift⟩

end Refresh

/-! A module of two steps: the first has drifted, the backend of the second is away. -/

def twoSteps : RendererRegistry := fun _ => some fun inst =>
  (artifact inst "sample" [] []
    [{ kind := "terraform-apply", target := inst.instanceId }, { kind := "k8s-apply" }]).mapError
      fun e => (e, "")

def halfReachable : DiffRegistry
  | "terraform-apply" => some fun _ => .ok { drifted := true, detail := "drift detected" }
  | _ => some fun _ => .ok { checked := false, detail := "kubectl not found on PATH" }

def inSyncRecord : ServiceInstance :=
  { instanceId := "db-1", serviceId := "managed-database", planId := "standard"
    status := .succeeded, appliedVersion := some 1, driftStatus := .inSync }

def emptyPass : Pass := { checked := 1, refreshDrift := true, manual := false, rest := [], results := [] }

/-- The drift of the first step is confirmed, and the pass skips the instance. -/
theorem unchecked_step_hides_drift :
    ConfirmedDrift halfReachable (diffedManifest twoSteps inSyncRecord) ∧
    (diffed sampleEnv inSyncRecord emptyPass
      (diffAnswer twoSteps halfReachable inSyncRecord)).task.isNone=true ∧
    ¬ DriftActedOn sampleEnv twoSteps halfReachable inSyncRecord emptyPass := by
  have hc : ConfirmedDrift halfReachable (diffedManifest twoSteps inSyncRecord) :=
    ⟨{ kind := "terraform-apply", target := "db-1" }, by decide, by decide⟩
  have hnone : (diffed sampleEnv inSyncRecord emptyPass
      (diffAnswer twoSteps halfReachable inSyncRecord)).task.isNone=true := by decide +kernel
  refine ⟨hc, hnone, ?_⟩
  intro h
  obtain ⟨x, hx⟩ := (h.acted hc).2
  rw [hx] at hnone
  cases hnone

end Sovereign.Broker
