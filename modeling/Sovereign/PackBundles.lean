import Sovereign.PackPolicy
import Sovereign.Broker

/-! All nine bundles that the packs install, and what a broker does with them. On every document
that the broker builds a bundle denies nothing and asks only for obligations that the broker
honours; so over every run a broker with any of the bundles installed stores and answers exactly
what one without them does. -/
namespace Sovereign.PackBundles
open Sovereign Rego Json Policy PackPolicy

def flagged (services : List String) (format name : String) (value : Bool) : Rule :=
  { head := .sprintf format [.ref ["instance_id"]]
    body := fun input => single do
      guard (inSet services (get? "service_type" input))
      guard (path ["parameters", name] input=some (.bool value))
      return [] }

def classifiedRetention (service format : String) (floor : Rat) : Rule :=
  { head := .sprintf format [.var 0, .ref ["instance_id"], .var 1]
    body := fun input => single do
      guard (get? "service_type" input=some (.str service))
      let classification ← path ["parameters", "classification"] input
      guard (inSet classified (some classification))
      let retention ← path ["parameters", "retention_days"] input
      guard (ltNum floor retention)
      return [classification, retention] }

def obliges (obligation : String) (services : List String) : Rule :=
  { head := .text obligation
    body := fun input => single do
      guard (inSet services (get? "service_type" input))
      return [] }

/-! `sovereign.pack.secops` -/

def secops : Layer :=
  { deny :=
      [classifiedRetention "siem-workspace"
        "AU-11: %q SIEM %q retention_days (%d) below the 90-day floor" 90,
       classifiedFlag ["siem-workspace"] "AU-9: %q SIEM %q must enable immutable_storage"
        "immutable_storage",
       classifiedFlag ["log-pipeline"] "AU-10: %q log pipeline %q must sign_records"
        "sign_records"]
    obligations := [obliges "siem-self-monitor" ["siem-workspace", "log-pipeline"]] }

/-! `sovereign.pack.identity` -/

def identityAssurance : Rule :=
  { head := .sprintf "IA-2(1): IdP broker %q required_aal %q is below aal2"
      [.ref ["instance_id"], .var 0]
    body := fun input => single do
      guard (get? "service_type" input=some (.str "idp-broker"))
      let aal ← path ["parameters", "required_aal"] input
      guard (aal=.str "aal1")
      return [aal] }

def identityTokenLifetime : Rule :=
  { head := .sprintf "IA-5: IdP broker %q max_token_minutes (%d) exceeds the 240-minute ceiling"
      [.ref ["instance_id"], .var 0]
    body := fun input => single do
      guard (get? "service_type" input=some (.str "idp-broker"))
      let mins ← path ["parameters", "max_token_minutes"] input
      guard (gtNum 240 mins)
      return [mins] }

def identity : Layer :=
  { deny :=
      [flagged ["idp-broker"] "IA-2: IdP broker %q must require_mfa" "require_mfa" false,
       identityAssurance, identityTokenLifetime,
       flagged ["scim-bridge"] "IA-4: SCIM bridge %q must deprovision_on_remove"
        "deprovision_on_remove" false]
    obligations := [obliges "audit-identity-binding" ["idp-broker", "scim-bridge"]] }

/-! `sovereign.pack.edge` -/

def edgeServices : List String := ["edge-node", "edge-cluster"]

def edge : Layer :=
  { deny :=
      [classifiedFlag edgeServices "SI-7: %q edge workload %q must use a FIPS-validated image"
        "fips_image",
       classifiedFlag edgeServices "SI-7(9): %q edge workload %q must require attestation"
        "attestation_required",
       classifiedFlag ["edge-node"] "SC-28: %q edge node %q must enable disk_encryption"
        "disk_encryption"]
    obligations := [obliges "record-edge-attestation" edgeServices] }

/-! `sovereign.pack.comms` -/

def commsServices : List String := ["secure-email", "secure-chat"]

def fipsSuites : List String :=
  ["TLS_AES_256_GCM_SHA384", "TLS_AES_128_GCM_SHA256", "TLS_ECDHE_RSA_WITH_AES_256_GCM_SHA384",
   "TLS_ECDHE_ECDSA_WITH_AES_256_GCM_SHA384"]

def commsCipher : Rule :=
  { head := .sprintf "SC-13: comms channel %q cipher %q is not FIPS-validated"
      [.ref ["instance_id"], .var 0]
    body := fun input => single do
      guard (inSet commsServices (get? "service_type" input))
      let suite ← path ["parameters", "cipher_suite"] input
      guard (!inSet fipsSuites (some suite))
      return [suite] }

def commsFederation : Rule :=
  { head := .sprintf "AC-4: SECRET secure-chat %q must disable external_federation"
      [.ref ["instance_id"]]
    body := fun input => single do
      guard (get? "service_type" input=some (.str "secure-chat"))
      guard (path ["parameters", "classification"] input=some (.str "SECRET"))
      guard (path ["parameters", "external_federation"] input=some (.bool true))
      return [] }

def comms : Layer :=
  { deny :=
      [flagged commsServices "SC-8: comms channel %q must require TLS" "tls_required" false,
       commsCipher,
       classifiedRetention "secure-email"
        "AU-11: %q secure-email %q retention_days (%d) below the 365-day floor" 365,
       commsFederation]
    obligations := [obliges "archive-comms-metadata" commsServices] }

/-! `sovereign.pack.multicloud` -/

def accountServices : List String := ["cloud-account", "landing-zone"]

def multicloudRegion : Rule :=
  { head := .sprintf "AC-4: %q in region %q is not approved for provider %q"
      [.ref ["service_type"], .var 1, .var 0]
    body := fun input => single do
      guard (inSet accountServices (get? "service_type" input))
      let provider ← path ["parameters", "provider"] input
      let region ← path ["parameters", "region"] input
      let approved ← index (get? "approved_regions_by_provider" input) (some provider)
      guard (!isIn (some region) (some approved))
      return [provider, region] }

def multicloud : Layer :=
  { deny :=
      [multicloudRegion,
       flagged ["cloud-account"] "CM-2: cloud account %q must enable guardrails"
        "guardrails_enabled" false,
       flagged ["cloud-account"] "AU-2: cloud account %q must enable org_audit"
        "org_audit_enabled" false,
       flagged ["landing-zone"] "SC-7: landing zone %q must enable network_boundary"
        "network_boundary" false]
    obligations := [obliges "tag-cloud-classification" accountServices] }

/-! `sovereign.pack.finops`; `above` is the engine's own order of two documents. -/

/-- `object.get`, undefined on what is no object. -/
def objectGet (key : String) (default : Json) : Option Json → Option Json
  | some (.obj members) => some ((Json.lookup key members).getD default)
  | _ => none

def finopsBudget (above : Json → Json → Bool) : Rule :=
  { head := .sprintf "SA-2: tenant %q is over its hard budget (%.2f / %.2f %s)"
      [.ref ["tenant_id"], .var 0, .var 1, .var 2]
    body := fun input => single do
      guard (path ["finops", "enforcement"] input=some (.str "hard"))
      let spend ← path ["finops", "current_spend"] input
      let limit ← path ["finops", "budget_limit"] input
      let currency ← objectGet "currency" (.str "USD") (get? "finops" input)
      guard (above spend limit)
      return [spend, limit, currency] }

def finops (above : Json → Json → Bool) : Layer :=
  { deny := [finopsBudget above] }

inductive Bundle where
  | data | ai | blockchain | secops | identity | edge | comms | multicloud | finops
deriving DecidableEq

def Bundle.name : Bundle → String
  | .data => "data"
  | .ai => "ai"
  | .blockchain => "blockchain"
  | .secops => "secops"
  | .identity => "identity"
  | .edge => "edge"
  | .comms => "comms"
  | .multicloud => "multicloud"
  | .finops => "finops"

def Bundle.layer (above : Json → Json → Bool) : Bundle → Layer
  | .data => PackPolicy.data
  | .ai => PackPolicy.ai
  | .blockchain => PackPolicy.blockchain
  | .secops => PackBundles.secops
  | .identity => PackBundles.identity
  | .edge => PackBundles.edge
  | .comms => PackBundles.comms
  | .multicloud => PackBundles.multicloud
  | .finops => PackBundles.finops above

def withBundles (above : Json → Json → Bool) (layers : Layers) (bs : List Bundle) : Layers :=
  { layers with packs := bs.map fun b => (b.name, b.layer above) }

/-! What the rules need of a document. -/

/-- The rule says nothing about the documents of a broker. -/
def Rule.Silent (r : Rule) : Prop :=
  ∀ (sprintf : String → List Json → String) (c : Call), r.values sprintf (buildPolicyInput c)=[]

theorem silent_of_head {r : Rule} {format : String} {args : List Term}
    (hh : r.head=.sprintf format args) (ha : Term.ref ["instance_id"]∈args) : Rule.Silent r := by
  intro sprintf c
  have hp : path ["instance_id"] (buildPolicyInput c)=none := by
    simp [path, get?_buildPolicyInput_other c "instance_id" (by decide)]
  exact values_undefined_head sprintf r _ format args ["instance_id"] hh ha hp

theorem silent_of_body {r : Rule} (h : ∀ c, r.body (buildPolicyInput c)=[]) : Rule.Silent r := by
  intro sprintf c
  rw [Rule.values, h c]
  rfl

theorem classifiedFlag_silent (services : List String) (format name : String) :
    Rule.Silent (classifiedFlag services format name) :=
  silent_of_head rfl (by simp)

theorem flagged_silent (services : List String) (format name : String) (value : Bool) :
    Rule.Silent (flagged services format name value) :=
  silent_of_head rfl (by simp)

theorem classifiedRetention_silent (service format : String) (floor : Rat) :
    Rule.Silent (classifiedRetention service format floor) :=
  silent_of_head rfl (by simp)

/-- The broker lifts no region set of a provider into the document. -/
theorem multicloudRegion_silent : Rule.Silent multicloudRegion := by
  refine silent_of_body fun c => ?_
  have hnone := get?_buildPolicyInput_other c "approved_regions_by_provider" (by decide)
  simp only [multicloudRegion, hnone, index]
  cases path ["parameters", "provider"] (buildPolicyInput c) <;>
    cases path ["parameters", "region"] (buildPolicyInput c) <;>
      cases inSet accountServices (get? "service_type" (buildPolicyInput c)) <;> rfl

/-- Nor any budget. -/
theorem finopsBudget_silent (above : Json → Json → Bool) : Rule.Silent (finopsBudget above) := by
  refine silent_of_body fun c => ?_
  have hnone := get?_buildPolicyInput_other c "finops" (by decide)
  have henforcement : path ["finops", "enforcement"] (buildPolicyInput c)=none := by
    simp [path, hnone]
  simp [finopsBudget, henforcement, single]

theorem bundle_silent (above : Json → Json → Bool) (b : Bundle) :
    ∀ r∈(b.layer above).deny, Rule.Silent r := by
  have hpack : ∀ p : Pack, ∀ r∈p.layer.deny, Rule.Silent r := by
    intro p r hr
    obtain ⟨format, args, hh, ha⟩ := head_names_instance p r hr
    exact silent_of_head hh ha
  cases b with
  | data => exact hpack .data
  | ai => exact hpack .ai
  | blockchain => exact hpack .blockchain
  | secops =>
    simp only [Bundle.layer, secops, List.forall_mem_cons]
    exact ⟨classifiedRetention_silent _ _ _, classifiedFlag_silent _ _ _,
      classifiedFlag_silent _ _ _, fun _ h => by cases h⟩
  | identity =>
    simp only [Bundle.layer, identity, List.forall_mem_cons]
    exact ⟨flagged_silent _ _ _ _, silent_of_head rfl (by simp), silent_of_head rfl (by simp),
      flagged_silent _ _ _ _, fun _ h => by cases h⟩
  | edge =>
    simp only [Bundle.layer, edge, List.forall_mem_cons]
    exact ⟨classifiedFlag_silent _ _ _, classifiedFlag_silent _ _ _, classifiedFlag_silent _ _ _,
      fun _ h => by cases h⟩
  | comms =>
    simp only [Bundle.layer, comms, List.forall_mem_cons]
    exact ⟨flagged_silent _ _ _ _, silent_of_head rfl (by simp), classifiedRetention_silent _ _ _,
      silent_of_head rfl (by simp), fun _ h => by cases h⟩
  | multicloud =>
    simp only [Bundle.layer, multicloud, List.forall_mem_cons]
    exact ⟨multicloudRegion_silent, flagged_silent _ _ _ _, flagged_silent _ _ _ _,
      flagged_silent _ _ _ _, fun _ h => by cases h⟩
  | finops =>
    simp only [Bundle.layer, finops, List.forall_mem_cons]
    exact ⟨finopsBudget_silent above, fun _ h => by cases h⟩

section Decisions
variable (sprintf : String → List Json → String) (above : Json → Json → Bool)

theorem deny_of_bundle (b : Bundle) (c : Call) :
    ruleSet sprintf (b.layer above).deny (buildPolicyInput c)=[] := by
  rw [ruleSet_eq_nil_iff]
  exact fun r hr => bundle_silent above b r hr sprintf c

/-- What a rule with a plain text as its head contributes. -/
theorem mem_values_text {r : Rule} {obligation ob : String} (hh : r.head=.text obligation)
    {doc : Json} (h : ob∈r.values sprintf doc) : ob=obligation := by
  obtain ⟨bound, _, he⟩ := List.mem_filterMap.mp h
  rw [hh] at he
  cases he
  rfl

def Asks (r : Rule) : Prop :=
  ∃ ob, r.head=.text ob ∧ honoured obligationHandlers ob=true

theorem asks_one {r : Rule} (h : Asks r) : ∀ r'∈[r], Asks r' := by
  intro r' hr
  rw [List.mem_singleton.mp hr]
  exact h

theorem bundle_asks (b : Bundle) : ∀ r∈(b.layer above).obligations, Asks r := by
  cases b with
  | data => exact asks_one ⟨_, rfl, by decide⟩
  | ai => exact List.forall_mem_cons.mpr ⟨⟨_, rfl, by decide⟩, asks_one ⟨_, rfl, by decide⟩⟩
  | blockchain => exact asks_one ⟨_, rfl, by decide⟩
  | secops => exact asks_one ⟨_, rfl, by decide⟩
  | identity => exact asks_one ⟨_, rfl, by decide⟩
  | edge => exact asks_one ⟨_, rfl, by decide⟩
  | comms => exact asks_one ⟨_, rfl, by decide⟩
  | multicloud => exact asks_one ⟨_, rfl, by decide⟩
  | finops => exact fun _ h => by cases h

/-- Every obligation that a bundle can ask for has a handler. -/
theorem bundle_honoured (b : Bundle) (doc : Json) :
    ∀ ob∈ruleSet sprintf (b.layer above).obligations doc, honoured obligationHandlers ob=true := by
  intro ob hob
  obtain ⟨r, hr, hv⟩ := List.mem_flatMap.mp hob
  obtain ⟨ob', hh, hh'⟩ := bundle_asks above b r hr
  rw [mem_values_text sprintf hh hv]
  exact hh'

/-- Two decisions that a broker acts on alike: they differ in honoured obligations at most. -/
structure Alike (d d' : PolicyDecision) : Prop where
  allow : d.allow=d'.allow
  denies : d.denies=d'.denies
  matchedLayers : d.matchedLayers=d'.matchedLayers
  obligations : d.obligations.find? (fun ob => !honoured obligationHandlers ob)=
    d'.obligations.find? (fun ob => !honoured obligationHandlers ob)

theorem flatMap_bundles {f : Layer → List String} (bs : List Bundle)
    (h : ∀ b : Bundle, f (b.layer above)=[]) :
    (bs.map fun b => (b.name, b.layer above)).flatMap (fun p => f p.2)=[] := by
  rw [List.flatMap_eq_nil_iff]
  intro p hp
  obtain ⟨b, _, rfl⟩ := List.mem_map.mp hp
  exact h b

/-- Installing bundles leaves every decision on a document of the broker as it was. -/
theorem decision_withBundles (layers : Layers) (bs : List Bundle) (c : Call) :
    Alike (decision sprintf (withBundles above layers bs) (buildPolicyInput c))
      (decision sprintf (withBundles above layers []) (buildPolicyInput c)) := by
  have hdeny := fun b => deny_of_bundle sprintf above b c
  have hdenies : denies sprintf (withBundles above layers bs) (buildPolicyInput c)=
      denies sprintf (withBundles above layers []) (buildPolicyInput c) := by
    simp only [denies, withBundles]
    rw [flatMap_bundles above bs (f := fun l => ruleSet sprintf l.deny (buildPolicyInput c)) hdeny]
    rfl
  have hlabels : layerLabels sprintf (buildPolicyInput c) "pack"
      (bs.map fun b => (b.name, b.layer above))=[] := by
    rw [layerLabels, List.map_eq_nil_iff, List.filter_eq_nil_iff]
    intro p hp
    obtain ⟨b, _, rfl⟩ := List.mem_map.mp hp
    simp [hdeny b]
  refine ⟨?_, hdenies, ?_, ?_⟩
  · simp only [decision]
    rw [hdenies]
  · simp only [decision, matchedLayers, withBundles]
    rw [hlabels]
    rfl
  · simp only [decision, obligations, withBundles]
    rw [← List.head?_filter, ← List.head?_filter, Text.filter_sortedSet, Text.filter_sortedSet,
      List.filter_append, List.filter_append]
    have hnone : ((bs.map fun b => (b.name, b.layer above)).flatMap fun p =>
        ruleSet sprintf p.2.obligations (buildPolicyInput c)).filter
          (fun ob => !honoured obligationHandlers ob)=[] := by
      rw [List.filter_eq_nil_iff]
      intro ob hob
      obtain ⟨p, hp, hob⟩ := List.mem_flatMap.mp hob
      obtain ⟨b, _, rfl⟩ := List.mem_map.mp hp
      simp [bundle_honoured sprintf above b _ ob hob]
    rw [hnone]
    rfl

end Decisions

/-- What a record tells, obligations apart: nothing of one that was honoured, and of a decision
all but the obligations that came with it. -/
def settled (r : AuditRecord) : Option AuditRecord :=
  if r.action="obligation.enforced" then none
  else if r.action="policy.evaluated" then
    some { r with metadata := r.metadata.filter fun m => decide (m.1≠"obligations") }
  else some r

structure GateAlike (g g' : Gate) : Prop where
  raised : g.raised=g'.raised
  audits : g.audits.filterMap settled=g'.audits.filterMap settled

theorem GateAlike.andThen {g g' h h' : Gate} (hg : GateAlike g g') (hh : GateAlike h h') :
    GateAlike (g.andThen h) (g'.andThen h') := by
  unfold Gate.andThen
  rw [hg.raised]
  split
  · exact hg
  · refine ⟨hh.raised, ?_⟩
    simp only [List.filterMap_append, hg.audits, hh.audits]

theorem GateAlike.refl (g : Gate) : GateAlike g g := ⟨rfl, rfl⟩

section Gates
variable (caller : Caller) (instanceId serviceType tenantId action : String)

def failedRecord (ob : String) : AuditRecord :=
  { action := "obligation.failed", resource := action ++ ":" ++ instanceId
    actor := caller.user.principal, tenantId, decision := "deny"
    metadata := [("obligation", .str ob), ("service_type", .str serviceType)] }

def obligationError (ob : String) : HttpError :=
  ⟨503, .obj [("message", .str "policy obligation could not be enforced"),
    ("obligation", .str ob)]⟩

/-- Obligations count for the first one that is not honoured. -/
theorem enforceObligations_eq (handlers : String → Option HandlerOutcome) (obs : List String) :
    let first := obs.find? fun ob => !honoured handlers ob
    let g := enforceObligations handlers caller instanceId serviceType tenantId action obs
    g.raised=first.map obligationError ∧ g.audits.filterMap settled=
      (first.map (failedRecord caller instanceId serviceType tenantId action)).toList := by
  induction obs with
  | nil => exact ⟨rfl, rfl⟩
  | cons ob rest ih =>
    by_cases ho : honoured handlers ob=true
    · obtain ⟨hraised, haudits⟩ := ih
      simp only [enforceObligations, ho, if_true, Gate.andThen, List.find?_cons, Bool.not_true]
      exact ⟨hraised, by simpa [List.filterMap_cons, settled] using haudits⟩
    · simp [enforceObligations, ho, settled, failedRecord, obligationError]

theorem actOnDecision_alike {d d' : PolicyDecision} (h : Alike d d') (c : Call) :
    GateAlike (actOnDecision obligationHandlers caller instanceId c action d)
      (actOnDecision obligationHandlers caller instanceId c action d') := by
  refine GateAlike.andThen ⟨?_, ?_⟩ ⟨?_, ?_⟩
  · simp only [h.allow, h.denies, h.matchedLayers]
  · simp [settled, h.allow, h.denies, h.matchedLayers]
  · rw [(enforceObligations_eq _ _ _ _ _ _ _).1, (enforceObligations_eq _ _ _ _ _ _ _).1,
      h.obligations]
  · rw [(enforceObligations_eq _ _ _ _ _ _ _).2, (enforceObligations_eq _ _ _ _ _ _ _).2,
      h.obligations]

end Gates

section Runs
open Broker

def under (policy : Json → PolicyDecision) (env : Env) : Env :=
  { env with policy, handlers := obligationHandlers }

def settle : Write → Option Write
  | .audit r => (settled r).map .audit
  | w => some w

def view (t : Tables) : Tables := { t with audits := t.audits.filterMap settled }

theorem view_foldl (hash : String → Nat) (ws : List Write) (t : Tables) :
    view (ws.foldl (Write.apply hash) t)=(ws.filterMap settle).foldl (Write.apply hash) (view t) := by
  induction ws generalizing t with
  | nil => rfl
  | cons w ws ih =>
    rw [List.foldl_cons, ih]
    cases w with
    | audit r =>
      cases hr : settled r with
      | none => simp [settle, hr, Write.apply, view]
      | some r' => simp [settle, hr, Write.apply, view]
    | put x => rfl
    | delete i => rfl
    | putBinding b => rfl
    | deleteBinding i => rfl
    | meter r => rfl

structure SegmentAlike (seg seg' : Segment) : Prop where
  writes : seg.writes.filterMap settle=seg'.writes.filterMap settle
  reply : seg.reply=seg'.reply
  task : seg.task=seg'.task

theorem SegmentAlike.refl (seg : Segment) : SegmentAlike seg seg := ⟨rfl, rfl, rfl⟩

theorem settle_audits (audits : List AuditRecord) :
    (audits.map Write.audit).filterMap settle=(audits.filterMap settled).map Write.audit := by
  induction audits with
  | nil => rfl
  | cons r rest ih =>
    cases hr : settled r with
    | none => simpa [List.filterMap_cons, settle, hr] using ih
    | some r' => simpa [List.filterMap_cons, settle, hr] using ih

theorem settle_gates {g g' : Gate} (h : GateAlike g g') :
    (g.audits.map Write.audit).filterMap settle=(g'.audits.map Write.audit).filterMap settle := by
  rw [settle_audits, settle_audits, h.audits]

theorem failure_alike {g g' : Gate} (h : GateAlike g g') (e : HttpError) :
    SegmentAlike (failure (g.audits.map Write.audit) e) (failure (g'.audits.map Write.audit) e) :=
  ⟨settle_gates h, rfl, rfl⟩

theorem put_alike {g g' : Gate} (h : GateAlike g g') (inst : ServiceInstance)
    (r : Option (Except HttpError Reply)) (task : Option Task) :
    SegmentAlike { writes := g.audits.map Write.audit++[.put inst], reply := r, task }
      { writes := g'.audits.map Write.audit++[.put inst], reply := r, task } :=
  ⟨by simp only [List.filterMap_append, settle_gates h], rfl, rfl⟩

variable {P Q : Json → PolicyDecision}

theorem reconcileNext_under (env : Env) (pass : Pass) (ws : List Write)
    (list : List ServiceInstance) (results : List ReconcileResult) :
    reconcileNext (under P env) pass ws list results=
      reconcileNext (under Q env) pass ws list results := by
  induction list generalizing results with
  | nil => rfl
  | cons inst rest ih =>
    simp only [reconcileNext, ih]
    rfl

theorem startPass_under (env : Env) (refreshDrift manual : Bool) (list : List ServiceInstance) :
    startPass (under P env) refreshDrift manual list=
      startPass (under Q env) refreshDrift manual list :=
  reconcileNext_under env _ [] list []

theorem reconcile_under (env : Env) (caller : Caller) (instanceId : Option String) (limit : Int)
    (t : Tables) : reconcile (under P env) caller instanceId limit t=
      reconcile (under Q env) caller instanceId limit t := by
  simp only [reconcile, startPass_under env (Q := Q)]
  rfl

theorem resume_under (env : Env) (task : Task) (outcome : Outcome) :
    task.resume (under P env) outcome=task.resume (under Q env) outcome := by
  cases task with
  | provision inst caller tenantId background => cases outcome <;> rfl
  | update inst caller tenantId => cases outcome <;> rfl
  | teardown instanceId inst caller tenantId => cases outcome <;> rfl
  | diff inst pass =>
    cases outcome with
    | rendered result => rfl
    | diffed result =>
      simp only [Task.resume, diffed, reconcileNext_under env (Q := Q)]
      rfl
    | diffRaised => rfl
    | tornDown result => rfl
  | reconcile inst pass =>
    cases outcome with
    | rendered result =>
      simp only [Task.resume, reconcileRendered, reconcileNext_under env (Q := Q)]
      rfl
    | diffed result => rfl
    | diffRaised => rfl
    | tornDown result => rfl

variable (hP : ∀ c, Alike (P (buildPolicyInput c)) (Q (buildPolicyInput c)))
include hP

theorem provisionGates_alike (env : Env) (caller : Caller) (tenantId instanceId : String)
    (req : ProvisionRequest) (usage : List UsageRecord) :
    GateAlike (provisionGates (under P env) caller tenantId instanceId req usage)
      (provisionGates (under Q env) caller tenantId instanceId req usage) :=
  (GateAlike.refl _).andThen (actOnDecision_alike _ _ _ (hP _) _)

theorem updateGates_alike (env : Env) (caller : Caller) (tenantId : String) (inst : ServiceInstance)
    (instanceId : String) (req : UpdateRequest) :
    GateAlike (updateGates (under P env) caller tenantId inst instanceId req)
      (updateGates (under Q env) caller tenantId inst instanceId req) :=
  (GateAlike.refl _).andThen (actOnDecision_alike _ _ _ (hP _) _)

theorem provision_alike (env : Env) (caller : Caller) (instanceId : String)
    (req : ProvisionRequest) (acceptsIncomplete : Bool) (t : Tables) :
    SegmentAlike (provision (under P env) caller instanceId req acceptsIncomplete t)
      (provision (under Q env) caller instanceId req acceptsIncomplete t) := by
  have hg := provisionGates_alike hP env caller (resolveTenantId caller req.organizationGuid)
    instanceId req t.usage
  have hfaults : (under P env).faults=(under Q env).faults := rfl
  simp only [provision, hfaults, hg.raised]
  split
  · exact SegmentAlike.refl _
  · exact SegmentAlike.refl _
  · split
    · exact failure_alike hg _
    · split
      · exact failure_alike hg _
      · exact put_alike hg _ _ _

theorem update_alike (env : Env) (caller : Caller) (instanceId : String) (req : UpdateRequest)
    (t : Tables) : SegmentAlike (update (under P env) caller instanceId req t)
      (update (under Q env) caller instanceId req t) := by
  have hfaults : (under P env).faults=(under Q env).faults := rfl
  simp only [update, hfaults]
  split
  · exact SegmentAlike.refl _
  · exact SegmentAlike.refl _
  · next inst _ =>
    have hg := updateGates_alike hP env caller (resolveTenantId caller inst.organizationGuid) inst
      instanceId req
    simp only [hg.raised]
    split
    · exact failure_alike hg _
    · split
      · exact failure_alike hg _
      · exact put_alike hg _ _ _

theorem serve_alike (env : Env) (caller : Caller) (t : Tables) (req : Request) :
    SegmentAlike (serve (under P env) caller t req) (serve (under Q env) caller t req) := by
  cases req with
  | provision instanceId req acceptsIncomplete => exact provision_alike hP _ _ _ _ _ _
  | update instanceId req => exact update_alike hP _ _ _ _ _
  | deprovision instanceId => exact SegmentAlike.refl _
  | bind instanceId bindingId req => exact SegmentAlike.refl _
  | unbind instanceId bindingId => exact SegmentAlike.refl _
  | reconcile instanceId limit =>
    show SegmentAlike (reconcile _ _ _ _ _) (reconcile _ _ _ _ _)
    rw [reconcile_under env (Q := Q)]
    exact SegmentAlike.refl _

structure Peer (s s' : State) : Prop where
  tables : view s.tables=view s'.tables
  tasks : s.tasks=s'.tasks
  nextTask : s.nextTask=s'.nextTask

def SameEvent (P Q : Json → PolicyDecision) (a b : Env × Event) : Prop :=
  ∃ env event, a=(under P env, event) ∧ b=(under Q env, event)

theorem segment_peer {s s' : State} (h : Peer s s') (env : Env) (event : Event) :
    Broker.segment (under P env) s event=none ∧ Broker.segment (under Q env) s' event=none ∨
      ∃ resumed seg seg', Broker.segment (under P env) s event=some (resumed, seg) ∧
        Broker.segment (under Q env) s' event=some (resumed, seg') ∧ SegmentAlike seg seg' := by
  cases event with
  | request auth req =>
    refine .inr ?_
    simp only [Broker.segment]
    have hid : stateChangeIdentify (under P env).settings (under P env).decode auth=
      stateChangeIdentify (under Q env).settings (under Q env).decode auth := rfl
    rw [hid]
    split
    · exact ⟨none, _, _, rfl, rfl, SegmentAlike.refl _⟩
    · next caller _ =>
      have hview : serve (under Q env) caller s.tables req=
          serve (under Q env) caller s'.tables req := by
        show serve (under Q env) caller (view s.tables) req=
          serve (under Q env) caller (view s'.tables) req
        rw [h.tables]
      refine ⟨none, _, _, rfl, rfl, ?_⟩
      rw [← hview]
      exact serve_alike hP env caller s.tables req
  | tick =>
    refine .inr ⟨none, _, _, rfl, rfl, ?_⟩
    have hrows : (view s.tables).rows=(view s'.tables).rows := congrArg _ h.tables
    show SegmentAlike (startPass (under P env) true false
      (Store.listInstances env.faults.toStoreFaults (scanned env (view s.tables).rows) none _)) _
    rw [startPass_under env (Q := Q), hrows]
    exact SegmentAlike.refl _
  | resume id outcome =>
    simp only [Broker.segment, h.tasks, resume_under env (Q := Q)]
    cases hseg : (s'.tasks.lookup id).bind fun task => task.resume (under Q env) outcome with
    | none => exact .inl ⟨rfl, rfl⟩
    | some seg => exact .inr ⟨some id, seg, seg, rfl, rfl, SegmentAlike.refl _⟩

theorem step_peer (hash : String → Nat) (s s' : State) (a b : Env × Event) (h : Peer s s')
    (hab : SameEvent P Q a b) : Peer (step hash s a) (step hash s' b) := by
  obtain ⟨env, event, rfl, rfl⟩ := hab
  obtain ⟨hnone, hnone'⟩ | ⟨resumed, seg, seg', hseg, hseg', halike⟩ := segment_peer hP h env event
  · simp only [step, hnone, hnone']
    exact h
  · simp only [step, hseg, hseg']
    refine ⟨?_, ?_, ?_⟩
    · show view (seg.writes.foldl _ s.tables)=view (seg'.writes.foldl _ s'.tables)
      rw [view_foldl, view_foldl, halike.writes, h.tables]
    · simp only [State.run, h.tasks, h.nextTask, halike.task]
    · simp only [State.run, h.nextTask]

theorem reply_peer (s s' : State) (a b : Env × Event) (h : Peer s s')
    (hab : SameEvent P Q a b) : (reply s a).toList=(reply s' b).toList := by
  obtain ⟨env, event, rfl, rfl⟩ := hab
  obtain ⟨hnone, hnone'⟩ | ⟨resumed, seg, seg', hseg, hseg', halike⟩ := segment_peer hP h env event
  · simp only [reply, hnone, hnone']
  · simp only [reply, hseg, hseg', Option.bind_some, halike.reply]

end Runs

/-- Over every run, whatever bundles the packs have installed, a broker stores the same records,
bindings and usage, waits for the same calls and gives the same answers as one with none of them
installed; their trails differ in obligations only. -/
theorem bundles_inert (sprintf : String → List Json → String) (above : Json → Json → Bool)
    (layers : Layers) (bs : List Bundle) (hash : String → Nat)
    (as : List (Broker.Env × Broker.Event)) :
    let installed := as.map fun a =>
      (under (decision sprintf (withBundles above layers bs)) a.1, a.2)
    let bare := as.map fun a => (under (decision sprintf (withBundles above layers [])) a.1, a.2)
    Peer (Trace.exec (Broker.step hash) {} installed) (Trace.exec (Broker.step hash) {} bare) ∧
      Trace.outputs (Broker.step hash) (fun s a => (Broker.reply s a).toList) {} installed=
        Trace.outputs (Broker.step hash) (fun s a => (Broker.reply s a).toList) {} bare := by
  have hP := decision_withBundles sprintf above layers bs
  have hstart : Peer {} {} := ⟨rfl, rfl, rfl⟩
  have has : List.Forall₂
      (SameEvent (decision sprintf (withBundles above layers bs))
        (decision sprintf (withBundles above layers [])))
      (as.map fun a => (under (decision sprintf (withBundles above layers bs)) a.1, a.2))
      (as.map fun a => (under (decision sprintf (withBundles above layers [])) a.1, a.2)) := by
    rw [List.forall₂_map_left_iff, List.forall₂_map_right_iff, List.forall₂_same]
    exact fun a _ => ⟨a.1, a.2, rfl, rfl⟩
  exact ⟨Trace.exec_related Peer (step_peer hP hash) hstart has,
    Trace.outputs_related Peer (step_peer hP hash) (reply_peer hP) hstart has⟩

end Sovereign.PackBundles
