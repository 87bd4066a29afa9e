import Sovereign.ParamRules
import Sovereign.Trace

/-! The walks over a deployment manifest, for any registry and any executors: which steps are
executed, which are consulted, and what is reported of them. -/
namespace Sovereign.Dispatch
open Sovereign Executors Renderers
variable {σ : Type*}

structure Executor (σ : Type*) where
  execute : DeploymentStep → σ → ExecResult × σ
  diff : DeploymentStep → σ → DiffResult × σ

/-- `executor_registry.get`: the registry is part of the world, so an executor may change it. -/
abbrev Registry (σ : Type*) := σ → String → Option (Executor σ)

section Walks
variable (repr : String → String) (registry : Registry σ)

/-- `repr` is how Python writes a string in a message. -/
def applyManifest : List DeploymentStep → List DeploymentStep → σ → ApplyResult × σ
  | [], applied, s => ({ ok := true, appliedSteps := applied }, s)
  | step::rest, applied, s =>
    match registry s step.kind with
    | none =>
      ({ ok := false, appliedSteps := applied, failedStep := some step
         detail := "no executor registered for step kind " ++ repr step.kind }, s)
    | some executor =>
      let result := executor.execute step s
      if result.1.ok then applyManifest rest (applied++[step]) result.2
      else ({ ok := false, appliedSteps := applied, failedStep := some step
              detail := result.1.detail }, result.2)

def diffManifest : List DeploymentStep → ManifestDiff → σ → ManifestDiff × σ
  | [], md, s => (md, s)
  | step::rest, md, s =>
    match registry s step.kind with
    | none => diffManifest rest
        { md with unknown := true
                  details := md.details++[step.kind ++ ": no executor registered (unchecked)"] } s
    | some executor =>
      let d := executor.diff step s
      diffManifest rest (md.add step d.1) d.2

end Walks

def Executor.logged (executor : Executor σ) : Executor (σ × List DeploymentStep) where
  execute step s :=
    ((executor.execute step s.1).1, (executor.execute step s.1).2, s.2++[step])
  diff step s := ((executor.diff step s.1).1, (executor.diff step s.1).2, s.2++[step])

def Registry.logged (registry : Registry σ) : Registry (σ × List DeploymentStep) :=
  fun s kind => (registry s.1 kind).map Executor.logged

section Claims
variable (repr : String → String) (registry : Registry σ) (manifest : List DeploymentStep) (s : σ)

def executed : List DeploymentStep :=
  (applyManifest repr registry.logged manifest [] (s, [])).2.2

def consulted : List DeploymentStep := (diffManifest registry.logged manifest {} (s, [])).2.2

/-! One step, and what is asked of the walks. -/

def ran (s : σ) (step : DeploymentStep) : σ :=
  match registry s step.kind with
  | none => s
  | some executor => (executor.execute step s).2

/-- The step has an executor, which returns ok. -/
def Succeeds (s : σ) (step : DeploymentStep) : Prop :=
  ∃ executor, registry s step.kind=some executor ∧ (executor.execute step s).1.ok=true

def compared (s : σ) (step : DeploymentStep) : σ :=
  match registry s step.kind with
  | none => s
  | some executor => (executor.diff step s).2

def reports : List (DeploymentStep × Option DiffResult) :=
  Trace.outputs (compared registry)
    (fun s step => [(step, (registry s step.kind).map fun e => (e.diff step s).1)]) s manifest

def Drifted (f : DeploymentStep × Option DiffResult) : Prop :=
  ∃ d, f.2=some d ∧ d.checked=true ∧ d.drifted=true

/-- The step has no executor or was not checked. -/
def Unknown (f : DeploymentStep × Option DiffResult) : Prop :=
  f.2=none ∨ ∃ d, f.2=some d ∧ d.checked=false

def entry : DeploymentStep × Option DiffResult → String
  | (step, none) => step.kind ++ ": no executor registered (unchecked)"
  | (step, some d) =>
    if !d.checked then step.kind ++ ": unchecked — " ++ d.detail
    else if d.drifted then step.kind ++ ": DRIFTED — " ++ d.detail
    else step.kind ++ ": in sync"

/-- `r` is the longest successful prefix of the manifest. -/
structure Applies (r : ApplyResult) (executed : List DeploymentStep) : Prop where
  applied : Trace.Longest (ran registry) (Succeeds registry) s manifest r.appliedSteps
  failed : r.failedStep=manifest[r.appliedSteps.length]?
  ok : r.ok=true ↔ r.appliedSteps=manifest
  executed : executed=r.appliedSteps++r.failedStep.toList.filter fun step =>
    (registry (Trace.exec (ran registry) s r.appliedSteps) step.kind).isSome

structure Compares (md : ManifestDiff) (consulted : List DeploymentStep) : Prop where
  steps : (reports registry manifest s).map Prod.fst=manifest
  consulted : consulted=((reports registry manifest s).filter fun f => f.2.isSome).map Prod.fst
  drifted : md.drifted=true ↔ ∃ f∈reports registry manifest s, Drifted f
  unknown : md.unknown=true ↔ ∃ f∈reports registry manifest s, Unknown f
  details : md.details=(reports registry manifest s).map entry

end Claims
section Apply
variable (repr : String → String) (registry : Registry σ)

/-- The steps applied before are kept in front. -/
theorem applyManifest_applied (manifest applied : List DeploymentStep) (s : σ) :
    applyManifest repr registry manifest applied s=
      let r := applyManifest repr registry manifest [] s
      ({ r.1 with appliedSteps := applied++r.1.appliedSteps }, r.2) := by
  induction manifest generalizing applied s with
  | nil => simp [applyManifest]
  | cons step rest ih =>
    rw [applyManifest, applyManifest]
    cases registry s step.kind with
    | none => simp
    | some executor =>
      dsimp only
      split
      · rw [ih (applied++[step]), ih ([]++[step])]
        simp
      · simp

theorem Registry.logged_apply (s : σ) (log : List DeploymentStep) (kind : String) :
    registry.logged (s, log) kind=(registry s kind).map Executor.logged := rfl

/-- A log changes nothing else. -/
theorem applyManifest_logged (manifest applied : List DeploymentStep) (s : σ)
    (log : List DeploymentStep) :
    let r := applyManifest repr registry.logged manifest applied (s, log)
    (r.1, r.2.1)=applyManifest repr registry manifest applied s := by
  induction manifest generalizing applied s log with
  | nil => rfl
  | cons step rest ih =>
    simp only [applyManifest, Registry.logged_apply]
    cases registry s step.kind with
    | none => rfl
    | some executor =>
      simp only [Option.map_some, Executor.logged]
      split
      · exact ih _ _ _
      · rfl

theorem log_applyManifest (manifest applied : List DeploymentStep) (s : σ)
    (log : List DeploymentStep) :
    (applyManifest repr registry.logged manifest applied (s, log)).2.2=
      log++executed repr registry manifest s := by
  induction manifest generalizing applied s log with
  | nil => simp [applyManifest, executed]
  | cons step rest ih =>
    simp only [executed, applyManifest, Registry.logged_apply]
    cases registry s step.kind with
    | none => simp
    | some executor =>
      simp only [Option.map_some, Executor.logged]
      split
      · rw [ih, ih, List.nil_append, List.append_assoc]
      · rw [List.nil_append]

theorem executed_cons (step : DeploymentStep) (rest : List DeploymentStep) (s : σ) :
    executed repr registry (step::rest) s=
      match registry s step.kind with
      | none => []
      | some executor => step::if (executor.execute step s).1.ok then
          executed repr registry rest (executor.execute step s).2 else [] := by
  simp only [executed, applyManifest, Registry.logged_apply]
  cases registry s step.kind with
  | none => rfl
  | some executor =>
    simp only [Option.map_some, Executor.logged]
    split
    · exact log_applyManifest ..
    · rfl

theorem applies_applyManifest (manifest : List DeploymentStep) (s : σ) :
    Applies registry manifest s (applyManifest repr registry manifest [] s).1
      (executed repr registry manifest s) := by
  induction manifest generalizing s with
  | nil => exact ⟨Trace.Longest.nil _ _, rfl, by simp [applyManifest], rfl⟩
  | cons step rest ih =>
    rw [executed_cons, applyManifest]
    cases he : registry s step.kind with
    | none =>
      have hstop : ¬ Succeeds registry s step := by
        simp [Succeeds, he]
      exact ⟨Trace.Longest.stop hstop rest, rfl, by simp, by simp [Trace.exec, he]⟩
    | some executor =>
      dsimp only
      split
      · next hok =>
        rw [applyManifest_applied]
        have hstep : Succeeds registry s step := ⟨executor, he, hok⟩
        have hran : ran registry s step=(executor.execute step s).2 := by
          rw [ran, he]
        obtain ⟨happlied, hfailed, hall, hexecuted⟩ := ih (executor.execute step s).2
        refine ⟨?_, ?_, ?_, ?_⟩
        · exact Trace.Longest.cons hstep (by rw [hran]; exact happlied)
        · simpa using hfailed
        · simpa using hall
        · simp only [List.nil_append, List.cons_append, Trace.exec, hran]
          exact congrArg (List.cons step) hexecuted
      · next hok =>
        have hstop : ¬ Succeeds registry s step := by
          simp [Succeeds, he, hok]
        exact ⟨Trace.Longest.stop hstop rest, rfl, by simp, by simp [Trace.exec, he]⟩

end Apply

section Diff
variable (registry : Registry σ)

def addReport (md : ManifestDiff) (f : DeploymentStep × Option DiffResult) : ManifestDiff :=
  match f with
  | (step, none) =>
    { md with unknown := true
              details := md.details++[step.kind ++ ": no executor registered (unchecked)"] }
  | (step, some d) => md.add step d

theorem addReport_fields (md : ManifestDiff) (f : DeploymentStep × Option DiffResult) :
    ((addReport md f).drifted=true ↔ md.drifted=true ∨ Drifted f) ∧
    ((addReport md f).unknown=true ↔ md.unknown=true ∨ Unknown f) ∧
    (addReport md f).details=md.details++[entry f] := by
  obtain ⟨step, report⟩ := f
  cases report with
  | none => simp [addReport, Drifted, Unknown, entry]
  | some d =>
    simp only [addReport, ManifestDiff.add, entry, Drifted, Unknown, Option.some.injEq]
    cases hc : d.checked with
    | false => simp [hc]
    | true =>
      cases hd : d.drifted with
      | false => simp [hc, hd]
      | true => simp [hc, hd]

theorem diffManifest_eq (manifest : List DeploymentStep) (md : ManifestDiff) (s : σ) :
    diffManifest registry manifest md s=
      ((reports registry manifest s).foldl addReport md,
        Trace.exec (compared registry) s manifest) := by
  induction manifest generalizing md s with
  | nil => rfl
  | cons step rest ih =>
    rw [diffManifest, reports, Trace.outputs, Trace.exec, compared]
    cases registry s step.kind with
    | none => exact ih _ s
    | some executor => exact ih _ _

/-- The flags and the details after any reports. -/
theorem foldl_addReport (fs : List (DeploymentStep × Option DiffResult)) (md : ManifestDiff) :
    ((fs.foldl addReport md).drifted=true ↔ md.drifted=true ∨ ∃ f∈fs, Drifted f) ∧
    ((fs.foldl addReport md).unknown=true ↔ md.unknown=true ∨ ∃ f∈fs, Unknown f) ∧
    (fs.foldl addReport md).details=md.details++fs.map entry := by
  induction fs generalizing md with
  | nil => simp
  | cons f fs ih =>
    obtain ⟨hd, hu, hdetails⟩ := ih (addReport md f)
    obtain ⟨hd₁, hu₁, hdetails₁⟩ := addReport_fields md f
    rw [List.foldl_cons]
    refine ⟨?_, ?_, ?_⟩
    · rw [hd, hd₁]
      simp [or_assoc]
    · rw [hu, hu₁]
      simp [or_assoc]
    · rw [hdetails, hdetails₁]
      simp

theorem steps_reports (manifest : List DeploymentStep) (s : σ) :
    (reports registry manifest s).map Prod.fst=manifest := by
  induction manifest generalizing s with
  | nil => rfl
  | cons step rest ih => exact congrArg (List.cons step) (ih _)

/-- A log of the comparisons holds the steps that have a report. -/
theorem log_diffManifest (manifest : List DeploymentStep) (md : ManifestDiff) (s : σ)
    (log : List DeploymentStep) :
    (diffManifest registry.logged manifest md (s, log)).2.2=
      log++((reports registry manifest s).filter fun f => f.2.isSome).map Prod.fst := by
  induction manifest generalizing md s log with
  | nil => simp [diffManifest, reports, Trace.outputs]
  | cons step rest ih =>
    simp only [diffManifest, Registry.logged_apply, reports, Trace.outputs, compared]
    cases registry s step.kind with
    | none => exact ih _ s log
    | some executor =>
      refine (ih _ (executor.diff step s).2 (log++[step])).trans ?_
      rw [List.append_assoc]
      rfl

theorem compares_diffManifest (manifest : List DeploymentStep) (s : σ) :
    Compares registry manifest s (diffManifest registry manifest {} s).1
      (consulted registry manifest s) := by
  obtain ⟨hd, hu, hdetails⟩ := foldl_addReport (reports registry manifest s) {}
  rw [diffManifest_eq]
  refine ⟨steps_reports registry manifest s, ?_, ?_, ?_, ?_⟩
  · exact (log_diffManifest registry manifest {} s []).trans (List.nil_append _)
  · simpa using hd
  · simpa using hu
  · exact hdetails

end Diff

/-- Applying stops at the first step that fails, comparing at none. -/
theorem manifest_walks (repr : String → String) (registry : Registry σ)
    (manifest : List DeploymentStep) (s : σ) :
    Applies registry manifest s (applyManifest repr registry manifest [] s).1
      (executed repr registry manifest s) ∧
    Compares registry manifest s (diffManifest registry manifest {} s).1
      (consulted registry manifest s) :=
  ⟨applies_applyManifest repr registry manifest s, compares_diffManifest registry manifest s⟩

end Sovereign.Dispatch
