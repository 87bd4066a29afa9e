import Sovereign.Listing
import Sovereign.TeardownPages
import Mathlib.Data.List.Infix

/-! The state-drift check of the continuous monitor: the listed instances against the objects of
the configuration bucket. -/
namespace Sovereign.Monitor
open Sovereign Renderers Executors AppliedConfig

inductive Status where
  | pass | fail | skip
deriving DecidableEq

structure CheckResult where
  name : String
  status : Status
  detail : String
  nistControls : List String := []
deriving DecidableEq

/-- How reading the table ends: with an answer, with a `ClientError`, which the store turns into no
instances, or with another exception of this text. -/
inductive Reading where
  | answered
  | clientError
  | raised (exc : String)
deriving DecidableEq

/-- `boto3` may be missing, and the head request for a key may raise although the object is
there. The answer to a scan ends after 1 MB: `fits` rows of the table. -/
structure Surroundings where
  boto3 : Bool := true
  reading : Reading := .answered
  rows : List Row
  fits : Nat := 1000
  headFault : String → Bool := fun _ => false

def Surroundings.faults (env : Surroundings) : StoreFaults :=
  { scan := decide (env.reading=.clientError) }

/-- The rows in the answer to a scan with `Limit=1000`. -/
def Surroundings.scanned (env : Surroundings) : List Row := (env.rows.take env.fits).take 1000

/-- The exception says that there are no credentials. -/
def noCredentials (exc : String) : Bool :=
  decide ("Unable to locate credentials".toList <:+: exc.toList) ||
    decide ("NoCredentialsError".toList <:+: exc.toList)

def driftKey (inst : ServiceInstance) : String := keyFor inst.instanceId inst.version "envoy.yaml"

def found (s : RenderSettings) (env : Surroundings) (w : World) (inst : ServiceInstance) : Bool :=
  w.objects.any (fun o => decide (o.bucket=s.configBucket ∧ o.key=driftKey inst)) &&
    !env.headFault (driftKey inst)

def missingName (inst : ServiceInstance) : String :=
  inst.instanceId ++ "@v" ++ toString inst.version

def missingDetail (missing : List String) : String :=
  toString missing.length ++ " instance(s) have no rendered S3 artefact: " ++
    String.intercalate ", " (missing.take 5) ++
    if 5 < missing.length then " (+" ++ toString (missing.length-5) ++ " more)" else ""

def checkStateDrift (s : RenderSettings) (env : Surroundings) (w : World) : CheckResult :=
  let result (status : Status) (detail : String) : CheckResult :=
    { name := "state_drift", status, detail, nistControls := ["CM-8", "CP-10"] }
  if !env.boto3 then
    result .skip "boto3 not installed; install with pip install boto3 to enable"
  else match env.reading with
    | .raised exc =>
      if noCredentials exc then
        result .skip "no AWS credentials available — configure IAM role / env vars"
      else result .fail ("DynamoDB read failed: " ++ exc)
    | _ =>
      let instances := Store.listInstances env.faults (env.rows.take env.fits) none 1000
      let missing := (instances.filter fun inst => !found s env w inst).map missingName
      if missing≠[] then result .fail (missingDetail missing)
      else result .pass (toString instances.length ++ " instance(s) reconcile cleanly with S3")

def storedInstances (rows : List Row) : List ServiceInstance := rows.filterMap Row.payload

def HasArtefact (s : RenderSettings) (w : World) (inst : ServiceInstance) : Prop :=
  w.Live (.object s.configBucket (driftKey inst))

/-- The instance's own renderer has applied it, and nothing of that is missing. -/
def Applied (k : Codec) (s : RenderSettings) (w : World) (inst : ServiceInstance) : Prop :=
  ∃ t a, ServiceType.get inst.serviceId=some t ∧ t.render k s inst=.ok a ∧
    ∀ step∈a.deploymentManifest, ∀ r, resource s step=some r → w.Live r

section Listing
variable {s : RenderSettings} {env : Surroundings} {w : World} {inst : ServiceInstance}

theorem collect_none_eq (limit : Int) (taken : Nat) (rows : List Row) :
    Store.collect none limit taken rows=
      (storedInstances rows).take (max 1 (limit-taken)).toNat := by
  induction rows generalizing taken with
  | nil => simp [Store.collect, storedInstances]
  | cons row rows ih =>
    cases hp : row.payload with
    | none =>
      have hstored : storedInstances (row::rows)=storedInstances rows :=
        List.filterMap_cons_none hp
      simp only [Store.collect, hp, hstored]
      exact ih taken
    | some inst =>
      have hstored : storedInstances (row::rows)=inst::storedInstances rows :=
        List.filterMap_cons_some hp
      have hpos : (max 1 (limit-taken)).toNat=((max 1 (limit-taken)).toNat-1)+1 := by omega
      simp only [Store.collect, hp]
      rw [hstored, hpos, List.take_succ_cons, if_neg fun h => h.1 rfl]
      congr 1
      split
      · next hl =>
        have hz : (max 1 (limit-taken)).toNat-1=0 := by omega
        rw [hz, List.take_zero]
      · next hl =>
        have hn : (max 1 (limit-taken)).toNat-1=(max 1 (limit-(taken+1 : Nat))).toNat := by omega
        rw [hn]
        exact ih (taken+1)

/-- The rows of the one page are listed. -/
theorem listInstances_answered (h : env.reading=.answered) :
    Store.listInstances env.faults (env.rows.take env.fits) none 1000=
      storedInstances env.scanned := by
  have hfaults : env.faults.scan=false := by
    rw [Surroundings.faults, h]
    rfl
  have hpage : Store.scan (env.rows.take env.fits) 1000=env.scanned := rfl
  have hlen : (storedInstances env.scanned).length ≤ 1000 :=
    (List.length_filterMap_le _ _).trans (List.length_take_le _ _)
  rw [Store.listInstances, hfaults, hpage]
  change Store.collect none 1000 0 env.scanned=_
  rw [collect_none_eq, List.take_of_length_le]
  have hmax : (max 1 ((1000 : Int)-((0 : Nat) : Int))).toNat=1000 := rfl
  rw [hmax]
  exact hlen

theorem found_iff : found s env w inst=true ↔
    HasArtefact s w inst ∧ env.headFault (driftKey inst)=false := by
  rw [found, Bool.and_eq_true, List.any_eq_true, Bool.not_eq_true']
  simp only [decide_eq_true_eq]
  rfl

end Listing

section Verdict
variable {k : Codec} {s : RenderSettings} {env : Surroundings} {w : World} {inst : ServiceInstance}

theorem missing_eq_nil {instances : List ServiceInstance} :
    (instances.filter fun inst => !found s env w inst).map missingName=[] ↔
      ∀ inst∈instances, found s env w inst=true := by
  rw [List.map_eq_nil_iff, List.filter_eq_nil_iff]
  simp only [Bool.not_eq_true', Bool.not_eq_false]

/-- What the check says of instances. -/
theorem verdict (hboto : env.boto3=true) (hraised : ∀ exc, env.reading≠.raised exc) :
    (checkStateDrift s env w).status=
      if ∀ inst∈Store.listInstances env.faults (env.rows.take env.fits) none 1000,
        found s env w inst=true
      then .pass else .fail := by
  by_cases hall : ∀ inst∈Store.listInstances env.faults (env.rows.take env.fits) none 1000,
      found s env w inst=true
  · have hnone := missing_eq_nil.mpr hall
    rw [if_pos hall, checkStateDrift, hboto]
    cases hr : env.reading with
    | raised exc => exact absurd hr (hraised exc)
    | answered => simp [hnone]
    | clientError => simp [hnone]
  · have hsome := mt missing_eq_nil.mp hall
    rw [if_neg hall, checkStateDrift, hboto]
    cases hr : env.reading with
    | raised exc => exact absurd hr (hraised exc)
    | answered => simp only [Bool.not_true, Bool.false_eq_true, if_false, if_pos hsome]
    | clientError => simp only [Bool.not_true, Bool.false_eq_true, if_false, if_pos hsome]

/-- A `ClientError` passes for an empty table. -/
theorem status_clientError (hboto : env.boto3=true) (h : env.reading=.clientError) :
    (checkStateDrift s env w).status=.pass := by
  have hfaults : env.faults.scan=true := by
    rw [Surroundings.faults, h]
    rfl
  have hnone : Store.listInstances env.faults (env.rows.take env.fits) none 1000=[] := by
    rw [Store.listInstances, hfaults]
    rfl
  rw [verdict hboto (by rw [h]; simp), hnone]
  exact if_pos fun _ hm => (List.not_mem_nil hm).elim

theorem status_answered (hboto : env.boto3=true) (h : env.reading=.answered) :
    (checkStateDrift s env w).status=
      if ∀ inst∈storedInstances env.scanned, found s env w inst=true
      then .pass else .fail := by
  rw [verdict hboto (by rw [h]; simp), listInstances_answered h]

theorem status_raised {exc : String} (hboto : env.boto3=true) (h : env.reading=.raised exc) :
    (checkStateDrift s env w).status=if noCredentials exc=true then .skip else .fail := by
  rw [checkStateDrift, hboto, h]
  by_cases hc : noCredentials exc=true
  · simp [hc]
  · simp [hc]

theorem status_noBoto (hboto : env.boto3=false) : (checkStateDrift s env w).status=.skip := by
  rw [checkStateDrift, hboto]
  rfl

/-- What an Envoy balancer's own renderer applies is the object that the check looks for. -/
theorem Applied.artefact (h : Applied k s w inst) (henvoy : isEnvoy inst) :
    HasArtefact s w inst := by
  obtain ⟨t, a, ht, hrender, hlive⟩ := h
  obtain rfl : t=.envoy := Option.some.inj (ht.symm.trans henvoy)
  have hfrom := ControlPlane.renderEnvoy_ok (hrender : renderEnvoy s k inst=.ok a)
  rw [hfrom.manifest] at hlive
  refine hlive _ List.mem_cons_self _ ?_
  rw [resource, ControlPlane.payload_configBucket rfl]
  rfl

end Verdict

section Exact
variable (k : Codec) (s : RenderSettings) (env : Surroundings) (w : World)

/-- The check does not pass over a balancer without its object: there is none, or the read raises,
or the scan answers and one of the instances in its page is not found. -/
def Covered : Prop :=
  (∀ inst∈storedInstances env.rows, isEnvoy inst → HasArtefact s w inst) ∨
    (∃ exc, env.reading=.raised exc) ∨
    (env.reading=.answered ∧
      ∃ inst∈storedInstances env.scanned, found s env w inst=false)

/-- The check does not fail on what is applied: something is not, or the read ends without an
answer that it takes for a failure, or every instance of another type in the page has an
object under the balancers' key too and no head request raises. -/
def Quiet : Prop :=
  (∃ inst∈storedInstances env.rows, ¬ Applied k s w inst) ∨
    (∃ exc, env.reading=.raised exc ∧ noCredentials exc=true) ∨
    env.reading=.clientError ∨
    (env.reading=.answered ∧ ∀ inst∈storedInstances env.scanned,
      (isEnvoy inst ∨ HasArtefact s w inst) ∧ env.headFault (driftKey inst)=false)

variable {k s env w}

theorem stored_of_take {inst : ServiceInstance} (h : inst∈storedInstances env.scanned) :
    inst∈storedInstances env.rows :=
  (((List.take_sublist 1000 _).trans (List.take_sublist env.fits env.rows)).filterMap
    Row.payload).subset h

theorem covered_iff (hboto : env.boto3=true) :
    ((checkStateDrift s env w).status=.pass →
      ∀ inst∈storedInstances env.rows, isEnvoy inst → HasArtefact s w inst) ↔
      Covered s env w := by
  unfold Covered
  cases hr : env.reading with
  | clientError =>
    rw [status_clientError hboto hr]
    simp
  | raised exc =>
    rw [status_raised hboto hr]
    refine ⟨fun _ => Or.inr (Or.inl ⟨exc, rfl⟩), fun _ h => ?_⟩
    split at h
    · cases h
    · cases h
  | answered =>
    rw [status_answered hboto hr]
    by_cases hall : ∀ inst∈storedInstances env.scanned, found s env w inst=true
    · rw [if_pos hall]
      constructor
      · exact fun h => Or.inl (h rfl)
      · intro h _
        obtain h | ⟨exc, h⟩ | ⟨-, inst, hi, h⟩ := h
        · exact h
        · cases h
        · rw [hall inst hi] at h
          cases h
    · rw [if_neg hall]
      refine ⟨fun _ => Or.inr (Or.inr ⟨rfl, ?_⟩), fun _ h => nomatch h⟩
      push Not at hall
      obtain ⟨inst, hi, hf⟩ := hall
      exact ⟨inst, hi, Bool.eq_false_iff.mpr hf⟩

theorem found_applied (happlied : ∀ inst∈storedInstances env.rows, Applied k s w inst) :
    (∀ inst∈storedInstances env.scanned, found s env w inst=true) ↔
      ∀ inst∈storedInstances env.scanned,
        (isEnvoy inst ∨ HasArtefact s w inst) ∧ env.headFault (driftKey inst)=false := by
  refine forall₂_congr fun inst hi => ?_
  rw [found_iff]
  refine and_congr_left fun _ => ⟨Or.inr, fun h => ?_⟩
  obtain h | h := h
  · exact (happlied inst (stored_of_take hi)).artefact h
  · exact h

theorem quiet_iff (hboto : env.boto3=true) :
    ((∀ inst∈storedInstances env.rows, Applied k s w inst) →
      (checkStateDrift s env w).status≠.fail) ↔ Quiet k s env w := by
  unfold Quiet
  by_cases happlied : ∀ inst∈storedInstances env.rows, Applied k s w inst
  · have hnone : ¬ ∃ inst∈storedInstances env.rows, ¬ Applied k s w inst := by
      push Not
      exact happlied
    rw [or_iff_right hnone, forall_prop_of_true happlied]
    cases hr : env.reading with
    | clientError =>
      rw [status_clientError hboto hr]
      simp
    | raised exc =>
      rw [status_raised hboto hr]
      by_cases hc : noCredentials exc=true
      · rw [if_pos hc]
        exact ⟨fun _ => Or.inl ⟨exc, rfl, hc⟩, fun _ h => nomatch h⟩
      · rw [if_neg hc]
        simp [hc]
    | answered =>
      rw [status_answered hboto hr]
      have hfound := found_applied happlied
      by_cases hall : ∀ inst∈storedInstances env.scanned, found s env w inst=true
      · rw [if_pos hall]
        exact ⟨fun _ => Or.inr (Or.inr ⟨rfl, hfound.mp hall⟩), fun _ h => nomatch h⟩
      · rw [if_neg hall]
        constructor
        · exact fun h => absurd rfl h
        · intro h
          obtain ⟨exc, h, -⟩ | h | ⟨-, h⟩ := h
          · cases h
          · cases h
          · exact absurd (hfound.mpr h) hall
  · have hsome : ∃ inst∈storedInstances env.rows, ¬ Applied k s w inst := by
      push Not at happlied
      exact happlied
    exact ⟨fun _ => Or.inl hsome, fun _ h => absurd h happlied⟩

end Exact

/-- The check passes only over balancers with their objects, and does not fail on instances that
are all applied, exactly where it is covered and quiet. -/
theorem state_drift_iff (k : Codec) (s : RenderSettings) (env : Surroundings) (w : World) :
    (((checkStateDrift s env w).status=.pass →
        ∀ inst∈storedInstances env.rows, isEnvoy inst → HasArtefact s w inst) ∧
      ((∀ inst∈storedInstances env.rows, Applied k s w inst) →
        (checkStateDrift s env w).status≠.fail)) ↔
      (env.boto3=true → Covered s env w ∧ Quiet k s env w) := by
  cases hboto : env.boto3 with
  | false =>
    have hskip : (checkStateDrift s env w).status=.skip := status_noBoto hboto
    rw [hskip]
    simp
  | true =>
    rw [covered_iff hboto, quiet_iff hboto]
    simp

/-! A balancer without its object under a failed read, a landing zone that is applied, and a table
of more than a thousand rows. -/

def zoneWorld : World :=
  { emptyWorld with deployed := [.terraform "/artifacts/lz-1"] }

theorem applied_landingZone :
    Applied ControlPlane.samplePlane.codec {} zoneWorld ControlPlane.landingZone := by
  refine ⟨.landingZone, _, rfl, rfl, ?_⟩
  intro step hstep r hr
  obtain rfl := List.mem_singleton.mp hstep
  have he : r=.terraform "/artifacts/lz-1" := by
    have hresource : resource {} { kind := "terraform-apply", target := "lz-1"
                                   payload := [("module_dir", .str "/artifacts/lz-1")] }=
        some (.terraform "/artifacts/lz-1") := by decide
    exact Option.some.inj (hr.symm.trans hresource)
  rw [he]
  exact List.mem_cons_self

def balancerOf (n : Nat) : ServiceInstance :=
  { creating with instanceId := String.ofList (List.replicate n 'a') }

def longTable (k : Nat) : List Row :=
  (List.range k).map (fun n => Store.rowOf (balancerOf n))++[Store.rowOf creating]

def longWorld (k : Nat) : World :=
  { emptyWorld with objects := (List.range k).map fun n =>
      ⟨"sovereign-configs", driftKey (balancerOf n), []⟩ }

section Long
variable {k : Nat}

theorem take_longTable (hk : k=1000) :
    storedInstances (Surroundings.scanned { rows := longTable k })=
      (List.range k).map balancerOf := by
  have htake : (longTable k).take 1000=(List.range k).map fun n => Store.rowOf (balancerOf n) :=
    List.take_left' (by rw [List.length_map, List.length_range, hk])
  have hpayload : Row.payload∘(fun n => Store.rowOf (balancerOf n))=fun n => some (balancerOf n) :=
    rfl
  rw [Surroundings.scanned, List.take_take, min_self, htake, storedInstances, List.filterMap_map,
    hpayload]
  exact congrFun List.filterMap_eq_map' _

theorem pass_longTable (hk : k=1000) :
    (checkStateDrift {} { rows := longTable k } (longWorld k)).status=.pass := by
  rw [status_answered rfl rfl, take_longTable hk]
  refine if_pos fun inst hi => found_iff.mpr ⟨?_, rfl⟩
  obtain ⟨n, hn, rfl⟩ := List.mem_map.mp hi
  exact ⟨⟨"sovereign-configs", driftKey (balancerOf n), []⟩,
    List.mem_map.mpr ⟨n, hn, rfl⟩, rfl, rfl⟩

theorem mem_longTable : creating∈storedInstances (longTable k) :=
  List.mem_filterMap.mpr ⟨_, List.mem_append_right _ List.mem_cons_self, rfl⟩

theorem no_artefact_longWorld : ¬ HasArtefact {} (longWorld k) creating := by
  intro h
  obtain ⟨o, ho, _, hkey⟩ := h
  obtain ⟨n, _, rfl⟩ := List.mem_map.mp ho
  have hslash : '/'∉(balancerOf n).instanceId.toList := by
    rw [balancerOf, String.toList_ofList]
    intro hm
    exact absurd (List.eq_of_mem_replicate hm) (by decide)
  have hid := (Teardown.keyFor_inj hslash (by decide) hkey).1
  have hl : List.replicate n 'a'="lb-1".toList := by
    have hlist := congrArg String.toList hid
    rwa [balancerOf, String.toList_ofList] at hlist
  have hm : 'l'∈List.replicate n 'a' := hl ▸ List.mem_cons_self
  exact absurd (List.eq_of_mem_replicate hm) (by decide)

end Long

theorem state_drift_misses :
    (checkStateDrift {} { rows := [Store.rowOf creating], reading := .clientError }
        emptyWorld).status=.pass ∧
      isEnvoy creating ∧ ¬ HasArtefact {} emptyWorld creating ∧
    (checkStateDrift {} { rows := [Store.rowOf ControlPlane.landingZone] } zoneWorld).status=.fail ∧
      Applied ControlPlane.samplePlane.codec {} zoneWorld ControlPlane.landingZone ∧
    (checkStateDrift {} { rows := longTable 1000 } (longWorld 1000)).status=.pass ∧
      creating∈storedInstances (longTable 1000) ∧ ¬ HasArtefact {} (longWorld 1000) creating := by
  refine ⟨status_clientError rfl rfl, by decide, ?_, ?_, applied_landingZone, pass_longTable rfl,
    mem_longTable, no_artefact_longWorld⟩
  · intro h
    obtain ⟨o, ho, _⟩ := h
    cases ho
  · rw [status_answered rfl rfl]
    refine if_neg fun h => ?_
    have hfound := h ControlPlane.landingZone List.mem_cons_self
    obtain ⟨⟨o, ho, _⟩, _⟩ := found_iff.mp hfound
    cases ho

end Sovereign.Monitor
