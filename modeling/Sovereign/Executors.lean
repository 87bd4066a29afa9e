import Sovereign.Renderers

/-! Deployment. The backends (command line tools, webhooks, the object store) are
oracles; the file system, the stored objects and the deployed resources are state. A
tool reads the path it is given when it runs. -/
namespace Sovereign.Executors
open Sovereign Renderers

structure S3Object where
  bucket : String
  key : String
  body : Bytes
deriving DecidableEq

/-- What an applied step leaves behind; the objects of a manifest or of a module count
as one resource. -/
inductive Resource where
  | object (bucket key : String)
  | kubernetes (namespace_ manifestPath : String)
  | helm (release : String)
  | terraform (moduleDir : String)
deriving DecidableEq

/-- `reads` holds what each executed step found at its path, latest first. -/
structure World where
  files : String → Option Bytes
  objects : List S3Object := []
  deployed : List Resource := []
  reads : List (DeploymentStep × Option Bytes) := []

/-- How the outside answers: `run` gets the command and the content of the file the tool
reads, and answers exit code, output and error output, or raises (a time-out, a command that
holds a NUL); a fault is the error's text. -/
structure Backend where
  onPath : String → Bool
  run : List String → Option Bytes → Except String (Int × String × String)
  post : String → Json → Except String Nat
  putFault : String → String → Option String
  deleteFault : String → String → Option String
  /-- the listing raises after so many keys -/
  listFault : Option (Nat × String)

structure ExecResult where
  ok : Bool
  detail : String := ""
  outputs : List (String × String) := []

structure ApplyResult where
  ok : Bool
  appliedSteps : List DeploymentStep := []
  failedStep : Option DeploymentStep := none
  detail : String := ""

def World.putObject (bucket key : String) (body : Bytes) (w : World) : World :=
  { w with objects := ⟨bucket, key, body⟩ ::
      w.objects.filter fun o => decide (¬ (o.bucket=bucket ∧ o.key=key)) }

def World.deleteObject (bucket key : String) (w : World) : World :=
  { w with objects := w.objects.filter fun o => decide (¬ (o.bucket=bucket ∧ o.key=key)) }

def World.getObject (bucket key : String) (w : World) : Option Bytes :=
  (w.objects.find? fun o => decide (o.bucket=bucket ∧ o.key=key)).map S3Object.body

def World.Live (w : World) : Resource → Prop
  | .object bucket key => ∃ o∈w.objects, o.bucket=bucket ∧ o.key=key
  | r => r∈w.deployed

def payloadStr (step : DeploymentStep) (name : String) : Option String :=
  match Json.lookup name step.payload with
  | some (.str "") => none
  | some (.str s) => some s
  | _ => none

def message (out err : String) : String :=
  match Text.strip err.toList with
  | [] => String.ofList (Text.strip out.toList)
  | cs => String.ofList cs

section Executors
variable (b : Backend)

def noopExecute (step : DeploymentStep) (w : World) : Except String ExecResult × World :=
  (.ok { ok := true, detail := "acknowledged " ++ step.kind ++ " for " ++ step.target }, w)

def failed (detail : String) (w : World) : Except String ExecResult × World :=
  (.ok { ok := false, detail }, w)

/-- Run the applying command of a step. `content` is what it reads, if it reads a file,
and `created` what exists once it exits with 0. -/
def runApply (step : DeploymentStep) (cmd : List String) (reading : Option (Option Bytes))
    (failure : String) (done : ExecResult) (created : Resource) (w : World) :
    Except String ExecResult × World :=
  let w := { w with reads := (reading.toList.map fun content => (step, content))++w.reads }
  match b.run cmd reading.join with
  | .error e => (.error e, w)
  | .ok (code, out, err) =>
    if code=0 then (.ok done, { w with deployed := created::w.deployed })
    else failed (failure ++ message out err) w

def kubernetesExecute (step : DeploymentStep) (w : World) : Except String ExecResult × World :=
  if b.onPath "kubectl" then
    match payloadStr step "manifest_path" with
    | none => failed "k8s-apply requires payload.manifest_path" w
    | some path =>
      let ns := if step.target="" then "default" else step.target
      runApply b step ["kubectl", "apply", "-n", ns, "-f", path] (some (w.files path))
        "kubectl apply failed: "
        { ok := true, detail := "applied to namespace " ++ ns, outputs := [("namespace", ns)] }
        (.kubernetes ns path) w
  else failed "kubectl not found on PATH" w

def helmOptions (step : DeploymentStep) : List String :=
  (match payloadStr step "namespace" with
    | none => []
    | some ns => ["--namespace", ns, "--create-namespace"]) ++
  (match payloadStr step "values_file" with
    | none => []
    | some v => ["-f", v])

def helmExecute (step : DeploymentStep) (w : World) : Except String ExecResult × World :=
  if b.onPath "helm" then
    match payloadStr step "chart" with
    | none => failed "helm-upgrade requires target (release) and payload.chart" w
    | some chart =>
      if step.target="" then failed "helm-upgrade requires target (release) and payload.chart" w
      else
        runApply b step (["helm", "upgrade", "--install", step.target, chart] ++ helmOptions step)
          none "helm upgrade failed: "
          { ok := true, detail := "released " ++ step.target, outputs := [("release", step.target)] }
          (.helm step.target) w
  else failed "helm not found on PATH" w

def moduleFile (moduleDir : String) : String := moduleDir ++ "/main.tf.json"

def terraformExecute (step : DeploymentStep) (w : World) : Except String ExecResult × World :=
  if b.onPath "terraform" then
    match payloadStr step "module_dir" with
    | none => failed "terraform-apply requires payload.module_dir" w
    | some dir =>
      let content := w.files (moduleFile dir)
      match b.run ["terraform", "-chdir=" ++ dir, "init", "-input=false"] content with
      | .error e => (.error e, w)
      | .ok (code, out, err) =>
        if code=0 then
          runApply b step ["terraform", "-chdir=" ++ dir, "apply", "-auto-approve", "-input=false"]
            (some content) "terraform apply failed: "
            { ok := true, detail := "applied module " ++ dir, outputs := [("module", dir)] }
            (.terraform dir) w
        else failed ("terraform init failed: " ++ message out err) w
  else failed "terraform not found on PATH" w

def webhookExecute (step : DeploymentStep) (w : World) : Except String ExecResult × World :=
  if step.target="" then failed "webhook requires target (url)" w
  else
    match b.post step.target ((Json.lookup "body" step.payload).getD (.obj [])) with
    | .error e => failed ("webhook POST failed: " ++ e) w
    | .ok status =>
      if 400 ≤ status then failed ("webhook returned " ++ toString status) w
      else (.ok { ok := true, detail := "posted to " ++ step.target
                  outputs := [("status", toString status)] }, w)

def execute (step : DeploymentStep) (w : World) : Option (Except String ExecResult × World) :=
  match step.kind with
  | "envoy-snapshot" => some (noopExecute step w)
  | "k8s-apply" => some (kubernetesExecute b step w)
  | "helm-upgrade" => some (helmExecute b step w)
  | "terraform-apply" => some (terraformExecute b step w)
  | "webhook" => some (webhookExecute b step w)
  | _ => none

/-- An exception of an executor ends the walk. -/
def applyManifest : List DeploymentStep → List DeploymentStep → World →
    Except String ApplyResult × World
  | [], applied, w => (.ok { ok := true, appliedSteps := applied }, w)
  | step::rest, applied, w =>
    match execute b step w with
    | none =>
      (.ok { ok := false, appliedSteps := applied, failedStep := some step
             detail := "no executor registered for step kind '" ++ step.kind ++ "'" }, w)
    | some (.error e, w) => (.error e, w)
    | some (.ok result, w) =>
      if result.ok then applyManifest rest (applied++[step]) w
      else (.ok { ok := false, appliedSteps := applied, failedStep := some step
                  detail := result.detail }, w)

def basename (target : String) : String :=
  String.ofList (target.toList.reverse.takeWhile (· != '/')).reverse

/-- `EnvoyRenderer.apply`: puts the objects, acknowledges snapshots, skips other kinds. -/
def envoyApply (s : RenderSettings) (files : List (String × Bytes)) :
    List DeploymentStep → List DeploymentStep → World → ApplyResult × World
  | [], applied, w => ({ ok := true, appliedSteps := applied }, w)
  | step::rest, applied, w =>
    match step.kind with
    | "s3-put" =>
      match files.lookup (basename step.target) with
      | none =>
        ({ ok := false, appliedSteps := applied, failedStep := some step
           detail := "no config_files entry for '" ++ basename step.target ++ "'" }, w)
      | some body =>
        let bucket := (payloadStr step "bucket").getD s.configBucket
        match b.putFault bucket step.target with
        | some e =>
          ({ ok := false, appliedSteps := applied, failedStep := some step
             detail := "S3 put failed: " ++ e }, w)
        | none => envoyApply s files rest (applied++[step]) (w.putObject bucket step.target body)
    | "envoy-snapshot" => envoyApply s files rest (applied++[step]) w
    | _ => envoyApply s files rest applied w

def apply (s : RenderSettings) (t : ServiceType) (a : RenderedArtifact) (w : World) :
    Except String ApplyResult × World :=
  match t with
  | .envoy =>
    let (result, w) := envoyApply b s a.configFiles a.deploymentManifest [] w
    (.ok result, w)
  | .secureEmail => (.ok { ok := true }, w)
  | .secureChat => (.ok { ok := true }, w)
  | .idpBroker => (.ok { ok := true }, w)
  | .scimBridge => (.ok { ok := true }, w)
  | _ => applyManifest b a.deploymentManifest [] w

end Executors

def filePath (step : DeploymentStep) : Option String :=
  match step.kind with
  | "k8s-apply" => payloadStr step "manifest_path"
  | "terraform-apply" => (payloadStr step "module_dir").map moduleFile
  | _ => none

def resource (s : RenderSettings) (step : DeploymentStep) : Option Resource :=
  match step.kind with
  | "s3-put" => some (.object ((payloadStr step "bucket").getD s.configBucket) step.target)
  | "k8s-apply" => (payloadStr step "manifest_path").map
      (.kubernetes (if step.target="" then "default" else step.target))
  | "helm-upgrade" => some (.helm step.target)
  | "terraform-apply" => (payloadStr step "module_dir").map .terraform
  | _ => none

def Succeeded (result : Except String ExecResult) : Prop := ∃ r, result=.ok r ∧ r.ok=true

theorem not_succeeded_failed {detail : String} : ¬ Succeeded (.ok { ok := false, detail }) := by
  intro h
  obtain ⟨r, he, hok⟩ := h
  cases he
  cases hok

theorem not_succeeded_error {e : String} : ¬ Succeeded (.error e) := by
  intro h
  obtain ⟨r, he, hok⟩ := h
  cases he

/-- No step changes a file or a stored object; a successful one has read its path and
created its resource. -/
structure Executed (step : DeploymentStep) (w : World) (result : Except String ExecResult)
    (w' : World) : Prop where
  files : w'.files=w.files
  objects : w'.objects=w.objects
  deployed : w.deployed⊆w'.deployed
  reads : w'.reads=w.reads ∨
    ∃ p, filePath step=some p ∧ w'.reads=(step, w.files p)::w.reads
  read : Succeeded result → ∀ p, filePath step=some p → w'.reads=(step, w.files p)::w.reads
  created : Succeeded result → ∀ s r, resource s step=some r → r∈w'.deployed

theorem Executed.of_not (step : DeploymentStep) (w : World) {result : Except String ExecResult}
    (h : ¬ Succeeded result) : Executed step w result w where
  files := rfl
  objects := rfl
  deployed := List.Subset.refl _
  reads := Or.inl rfl
  read := fun h' => absurd h' h
  created := fun h' => absurd h' h

theorem Executed.failed (step : DeploymentStep) (w : World) (detail : String) :
    Executed step w (failed detail w).1 (failed detail w).2 :=
  .of_not step w not_succeeded_failed

theorem Executed.idle {step : DeploymentStep} (w : World) (result : Except String ExecResult)
    (hp : filePath step=none) (hr : ∀ s, resource s step=none) : Executed step w result w where
  files := rfl
  objects := rfl
  deployed := List.Subset.refl _
  reads := Or.inl rfl
  read := fun _ p h => by rw [hp] at h; cases h
  created := fun _ s r h => by rw [hr s] at h; cases h

section Steps
variable {b : Backend} {step : DeploymentStep} {w : World}

theorem runApply_spec (cmd : List String) (failure : String) (done : ExecResult)
    {created : Resource} (hr : ∀ s, resource s step=some created) :
    Executed step w
      (runApply b step cmd ((filePath step).map w.files) failure done created w).1
      (runApply b step cmd ((filePath step).map w.files) failure done created w).2 := by
  have hreads : ∀ p, filePath step=some p →
      (((filePath step).map w.files).toList.map fun content => (step, content))++w.reads =
        (step, w.files p)::w.reads := by
    intro p hp
    rw [hp]
    rfl
  have hor : (((filePath step).map w.files).toList.map fun content => (step, content))++w.reads =
      w.reads ∨ ∃ p, filePath step=some p ∧
      (((filePath step).map w.files).toList.map fun content => (step, content))++w.reads =
        (step, w.files p)::w.reads := by
    cases hp : filePath step with
    | none => exact Or.inl rfl
    | some p => exact Or.inr ⟨p, rfl, rfl⟩
  unfold runApply
  cases b.run cmd ((filePath step).map w.files).join with
  | error e =>
    exact ⟨rfl, rfl, List.Subset.refl _, hor, fun h => absurd h not_succeeded_error,
      fun h => absurd h not_succeeded_error⟩
  | ok out =>
    obtain ⟨code, out, err⟩ := out
    by_cases h : code=0
    · simp only [h, if_true]
      refine ⟨rfl, rfl, List.subset_cons_self _ _, hor, fun _ p hp => hreads p hp, ?_⟩
      intro _ s r hs
      rw [hr s] at hs
      cases hs
      exact List.mem_cons_self
    · simp only [h, if_false]
      exact ⟨rfl, rfl, List.Subset.refl _, hor, fun h => absurd h not_succeeded_failed,
        fun h => absurd h not_succeeded_failed⟩

theorem kubernetesExecute_spec (hk : step.kind="k8s-apply") :
    Executed step w (kubernetesExecute b step w).1 (kubernetesExecute b step w).2 := by
  unfold kubernetesExecute
  split
  · cases hp : payloadStr step "manifest_path" with
    | none => exact Executed.failed step w _
    | some path =>
      have hpath : filePath step=some path := by simp only [filePath, hk, hp]
      have hres : ∀ s, resource s step =
          some (.kubernetes (if step.target="" then "default" else step.target) path) := by
        intro s
        simp only [resource, hk, hp, Option.map_some]
      have hs := runApply_spec (b := b) (w := w)
        ["kubectl", "apply", "-n", if step.target="" then "default" else step.target, "-f", path]
        "kubectl apply failed: "
        { ok := true
          detail := "applied to namespace " ++ if step.target="" then "default" else step.target
          outputs := [("namespace", if step.target="" then "default" else step.target)] }
        hres
      rw [hpath] at hs
      exact hs
  · exact Executed.failed step w _

theorem terraformExecute_spec (hk : step.kind="terraform-apply") :
    Executed step w (terraformExecute b step w).1 (terraformExecute b step w).2 := by
  unfold terraformExecute
  split
  · cases hp : payloadStr step "module_dir" with
    | none => exact Executed.failed step w _
    | some dir =>
      have hpath : filePath step=some (moduleFile dir) := by
        simp only [filePath, hk, hp, Option.map_some]
      have hres : ∀ s, resource s step=some (.terraform dir) := by
        intro s
        simp only [resource, hk, hp, Option.map_some]
      dsimp only
      cases b.run ["terraform", "-chdir=" ++ dir, "init", "-input=false"]
          (w.files (moduleFile dir)) with
      | error e => exact Executed.of_not step w not_succeeded_error
      | ok out =>
        dsimp only
        split
        · have hs := runApply_spec (b := b) (w := w)
            ["terraform", "-chdir=" ++ dir, "apply", "-auto-approve", "-input=false"]
            "terraform apply failed: "
            { ok := true, detail := "applied module " ++ dir, outputs := [("module", dir)] }
            hres
          rw [hpath] at hs
          exact hs
        · exact Executed.failed step w _
  · exact Executed.failed step w _

theorem helmExecute_spec (hk : step.kind="helm-upgrade") :
    Executed step w (helmExecute b step w).1 (helmExecute b step w).2 := by
  have hpath : filePath step=none := by simp [filePath, hk]
  have hres : ∀ s, resource s step=some (.helm step.target) := by
    intro s
    simp only [resource, hk]
  unfold helmExecute
  split
  · cases hp : payloadStr step "chart" with
    | none => exact Executed.failed step w _
    | some chart =>
      dsimp only
      split
      · exact Executed.failed step w _
      · have hs := runApply_spec (b := b) (w := w)
          (["helm", "upgrade", "--install", step.target, chart] ++ helmOptions step)
          "helm upgrade failed: "
          { ok := true, detail := "released " ++ step.target, outputs := [("release", step.target)] }
          hres
        rw [hpath] at hs
        exact hs
  · exact Executed.failed step w _

theorem webhookExecute_spec (hk : step.kind="webhook") :
    Executed step w (webhookExecute b step w).1 (webhookExecute b step w).2 := by
  have hidle : ∀ result, Executed step w result w := fun result =>
    Executed.idle w result (by simp [filePath, hk]) (fun s => by simp [resource, hk])
  unfold webhookExecute failed
  split
  · exact hidle _
  · split
    · exact hidle _
    · split
      · exact hidle _
      · exact hidle _

theorem execute_spec {result : Except String ExecResult} {w' : World}
    (h : execute b step w=some (result, w')) : Executed step w result w' := by
  unfold execute at h
  split at h
  · next hk =>
    cases h
    exact Executed.idle w _ (by simp [filePath, hk]) (fun s => by simp [resource, hk])
  · next hk =>
    have hs := kubernetesExecute_spec (b := b) (w := w) hk
    rw [Option.some.inj h] at hs
    exact hs
  · next hk =>
    have hs := helmExecute_spec (b := b) (w := w) hk
    rw [Option.some.inj h] at hs
    exact hs
  · next hk =>
    have hs := terraformExecute_spec (b := b) (w := w) hk
    rw [Option.some.inj h] at hs
    exact hs
  · next hk =>
    have hs := webhookExecute_spec (b := b) (w := w) hk
    rw [Option.some.inj h] at hs
    exact hs
  · cases h

/-- The latest read of the step is what its file holds. -/
def Fresh (w : World) (step : DeploymentStep) : Prop :=
  ∀ p, filePath step=some p → w.reads.lookup step=some (w.files p)

theorem Executed.fresh {result : Except String ExecResult} {w' : World} (h : Executed step w result w')
    {other : DeploymentStep} (hf : Fresh w other) : Fresh w' other := by
  intro p hp
  rw [h.files]
  obtain hr | ⟨q, hq, hr⟩ := h.reads
  · rw [hr]
    exact hf p hp
  · rw [hr, List.lookup_cons]
    by_cases he : other=step
    · subst he
      rw [hq] at hp
      cases hp
      simp
    · have hb : (other == step)=false := by simpa using he
      rw [hb]
      exact hf p hp

theorem Executed.fresh_self {result : Except String ExecResult} {w' : World}
    (h : Executed step w result w') (hok : Succeeded result) : Fresh w' step := by
  intro p hp
  rw [h.read hok p hp, h.files]
  simp

end Steps

/-- A run of a manifest to its end: the applied steps are the manifest, files and objects
are as before, every step has read its file as it was, and every resource exists. -/
theorem applyManifest_ok (b : Backend) (manifest applied : List DeploymentStep) (w : World)
    {ar : ApplyResult} (har : (applyManifest b manifest applied w).1=.ok ar) (hok : ar.ok=true) :
    ar.appliedSteps=applied++manifest ∧
    (applyManifest b manifest applied w).2.files=w.files ∧
    (applyManifest b manifest applied w).2.objects=w.objects ∧
    w.deployed⊆(applyManifest b manifest applied w).2.deployed ∧
    (∀ step, Fresh w step ∨ step∈manifest → Fresh (applyManifest b manifest applied w).2 step) ∧
    ∀ step∈manifest, ∀ s r, resource s step=some r →
      r∈(applyManifest b manifest applied w).2.deployed := by
  induction manifest generalizing applied w with
  | nil =>
    cases har
    simp [applyManifest]
  | cons step rest ih =>
    rw [applyManifest] at har ⊢
    cases he : execute b step w with
    | none =>
      rw [he] at har
      cases har
      cases hok
    | some out =>
      obtain ⟨result, w₁⟩ := out
      have hx := execute_spec he
      simp only [he] at har ⊢
      cases result with
      | error e => cases har
      | ok result =>
        by_cases hr : result.ok=true
        · simp only [hr, if_true] at har ⊢
          obtain ⟨ha, hfiles, hobj, hdep, hfresh, hcre⟩ := ih (applied++[step]) w₁ har
          refine ⟨by rw [ha]; simp, by rw [hfiles, hx.files], by rw [hobj, hx.objects],
            fun r hm => hdep (hx.deployed hm), ?_, ?_⟩
          · rintro other (hf | hm)
            · exact hfresh other (Or.inl (hx.fresh hf))
            · obtain rfl | hm := List.mem_cons.mp hm
              · exact hfresh other (Or.inl (hx.fresh_self ⟨result, rfl, hr⟩))
              · exact hfresh other (Or.inr hm)
          · intro other hm s r hres
            obtain rfl | hm := List.mem_cons.mp hm
            · exact hdep (hx.created ⟨result, rfl, hr⟩ s r hres)
            · exact hcre other hm s r hres
        · simp only [hr] at har
          cases har
          cases hok

end Sovereign.Executors
