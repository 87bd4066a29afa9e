import Sovereign.PackPolicy
import Sovereign.PackParams

/-! What the packs' rules judge against what the packs' renderers deploy. The rules
read the dumped `LbParameters`; the renderers read its `tags`. -/
namespace Sovereign.Judged
open Sovereign Rego Json Policy PackPolicy Packs

inductive Service where
  | managedDatabase | vectorDb | ragWorkspace | permissionedLedger
deriving DecidableEq

def Service.serviceType : Service → String
  | .managedDatabase => "managed-database"
  | .vectorDb => "vector-db"
  | .ragWorkspace => "rag-workspace"
  | .permissionedLedger => "permissioned-ledger"

def Service.pack : Service → Pack
  | .managedDatabase => .data
  | .vectorDb => .data
  | .ragWorkspace => .ai
  | .permissionedLedger => .blockchain

def Service.deployed (lax : Lax) (inst : ServiceInstance) :
    Service → Except ParamError (List (String × Json))
  | .managedDatabase =>
    (ManagedDatabaseParams.ofTags inst.parameters.tags).map (·.modelDump)
  | .vectorDb => (VectorDbParams.ofTags inst.parameters.tags).map (·.modelDump)
  | .ragWorkspace =>
    (RagWorkspaceParams.ofTags lax inst.instanceId inst.parameters.tags).map (·.modelDump)
  | .permissionedLedger =>
    (PermissionedLedgerParams.ofTags inst.parameters.tags).map (·.modelDump)

/-- The broker's document for the instance under the given parameters, completed with
the instance id the rules name in their heads. -/
def judgement (c : Call) (inst : ServiceInstance) (parameters : List (String × Json)) : Json :=
  match buildPolicyInput { c with serviceType := inst.serviceId, parameters } with
  | .obj ms => .obj (ms ++ [("instance_id", .str inst.instanceId)])
  | other => other

section Documents
variable (c : Call) (inst : ServiceInstance) (parameters : List (String × Json))

theorem get?_judgement (name : String) (h : name≠"instance_id") :
    get? name (judgement c inst parameters) =
      get? name (buildPolicyInput { c with serviceType := inst.serviceId, parameters }) := by
  have hn : lookup name [("instance_id", Json.str inst.instanceId)]=none :=
    lookup_eq_none _ _ (by simpa using fun he => h he.symm)
  simp only [judgement, buildPolicyInput, get?_obj]
  rw [lookup_append, hn, Option.or_none]

theorem judgement_instanceId :
    path ["instance_id"] (judgement c inst parameters)=some (.str inst.instanceId) := by
  have hn := get?_buildPolicyInput_other { c with serviceType := inst.serviceId, parameters }
    "instance_id" (by decide)
  simp only [buildPolicyInput, get?_obj] at hn
  simp only [path, judgement, buildPolicyInput, get?_obj]
  rw [lookup_append, hn]
  rfl

theorem judgement_serviceType :
    get? "service_type" (judgement c inst parameters)=some (.str inst.serviceId) := by
  rw [get?_judgement c inst parameters "service_type" (by decide), path_serviceType]

theorem judgement_parameter (name : String) :
    path ["parameters", name] (judgement c inst parameters)=lookup name parameters := by
  rw [path, get?_judgement c inst parameters "parameters" (by decide)]
  change path ["parameters", name] (buildPolicyInput _)=_
  rw [path_parameters]
  simp [path]

end Documents

theorem classifiedFlag_bodyHolds (services : List String) (format name : String) (doc : Json) :
    (classifiedFlag services format name).bodyHolds doc ↔
      inSet services (get? "service_type" doc)=true ∧
      inSet classified (path ["parameters", "classification"] doc)=true ∧
      path ["parameters", name] doc=some (.bool false) := by
  cases hc : path ["parameters", "classification"] doc with
  | none => simp [classifiedFlag, Rule.bodyHolds, single, hc, inSet]
  | some v => simp [classifiedFlag, Rule.bodyHolds, single, hc, guard]

theorem ledgerFlag_bodyHolds (format name : String) (doc : Json) :
    (ledgerFlag format name).bodyHolds doc ↔
      inSet ledger (get? "service_type" doc)=true ∧
      path ["parameters", name] doc=some (.bool false) := by
  simp [ledgerFlag, Rule.bodyHolds, single, guard]

theorem dataRetention_bodyHolds (doc : Json) :
    dataRetention.bodyHolds doc ↔
      get? "service_type" doc=some (.str "managed-database") ∧
      inSet classified (path ["parameters", "classification"] doc)=true ∧
      ∃ v, path ["parameters", "backup_retention_days"] doc=some v ∧ ltNum 7 v=true := by
  cases hc : path ["parameters", "classification"] doc with
  | none => simp [dataRetention, Rule.bodyHolds, single, hc, inSet]
  | some c =>
    cases hr : path ["parameters", "backup_retention_days"] doc with
    | none => simp [dataRetention, Rule.bodyHolds, single, hc, hr]
    | some v => simp [dataRetention, Rule.bodyHolds, single, hc, hr, guard]

theorem aiResidency_bodyHolds (doc : Json) :
    aiResidency.bodyHolds doc ↔
      inSet classified (path ["parameters", "classification"] doc)=true ∧
      holds (path ["parameters", "data_residency"] doc)=false := by
  cases hc : path ["parameters", "classification"] doc with
  | none => simp [aiResidency, Rule.bodyHolds, single, hc, inSet]
  | some c => simp [aiResidency, Rule.bodyHolds, single, hc, guard]

theorem aiLogging_bodyHolds (doc : Json) :
    aiLogging.bodyHolds doc ↔
      path ["parameters", "classification"] doc=some (.str "SECRET") ∧
      path ["parameters", "logging_enabled"] doc=some (.bool false) := by
  simp [aiLogging, Rule.bodyHolds, single, guard]

theorem ledgerConsensus_bodyHolds (doc : Json) :
    ledgerConsensus.bodyHolds doc ↔
      get? "service_type" doc=some (.str "permissioned-ledger") ∧
      ∃ v, path ["parameters", "validator_count"] doc=some v ∧ gtNum 7 v=true ∧
        ∃ k, path ["parameters", "consensus"] doc=some k ∧ inSet bft (some k)=false := by
  cases hv : path ["parameters", "validator_count"] doc with
  | none => simp [ledgerConsensus, Rule.bodyHolds, single, hv]
  | some v =>
    cases hk : path ["parameters", "consensus"] doc with
    | none => simp [ledgerConsensus, Rule.bodyHolds, single, hv, hk]
    | some k => simp [ledgerConsensus, Rule.bodyHolds, single, hv, hk, guard]

/-- A head that names the instance and variables its body has bound. -/
theorem head_eval_defined (sprintf : String → List Json → String) (doc : Json)
    (bound : List Json) (format : String) (args : List Term)
    (hid : (path ["instance_id"] doc).isSome)
    (ha : ∀ t∈args, t=.ref ["instance_id"] ∨ ∃ i < bound.length, t=.var i) :
    ((Head.sprintf format args).eval sprintf doc bound).isSome := by
  have hd : (evalTerms doc bound args).isSome := by
    apply evalTerms_defined
    intro t ht
    obtain rfl | ⟨i, hi, rfl⟩ := ha t ht
    · exact hid
    · simpa [Term.eval] using hi
  obtain ⟨vs, hvs⟩ := Option.isSome_iff_exists.mp hd
  simp [Head.eval, hvs]

/-- On a document that names its instance, each head is defined where the body holds. -/
def HeadDefined (r : Rule) : Prop :=
  ∀ (sprintf : String → List Json → String) (doc : Json), (path ["instance_id"] doc).isSome →
    ∀ bound∈r.body doc, (r.head.eval sprintf doc bound).isSome

theorem classifiedFlag_defined (services : List String) (format name : String) :
    HeadDefined (classifiedFlag services format name) := by
  intro sprintf doc hid bound hb
  apply head_eval_defined sprintf doc bound format _ hid
  simp [classifiedFlag, single, guard, Option.bind_eq_some_iff] at hb
  obtain ⟨_, v, _, _, _, rfl⟩ := hb
  simp

theorem ledgerFlag_defined (format name : String) : HeadDefined (ledgerFlag format name) := by
  intro sprintf doc hid bound _
  apply head_eval_defined sprintf doc bound format _ hid
  simp

theorem dataRetention_defined : HeadDefined dataRetention := by
  intro sprintf doc hid bound hb
  apply head_eval_defined sprintf doc bound _ _ hid
  simp [dataRetention, single, guard, Option.bind_eq_some_iff] at hb
  obtain ⟨_, v, _, _, n, _, _, rfl⟩ := hb
  simp

theorem aiResidency_defined : HeadDefined aiResidency := by
  intro sprintf doc hid bound hb
  apply head_eval_defined sprintf doc bound _ _ hid
  simp [aiResidency, single, guard, Option.bind_eq_some_iff] at hb
  obtain ⟨v, _, _, _, rfl⟩ := hb
  simp

theorem aiLogging_defined : HeadDefined aiLogging := by
  intro sprintf doc hid bound _
  apply head_eval_defined sprintf doc bound _ _ hid
  simp

theorem ledgerConsensus_defined : HeadDefined ledgerConsensus := by
  intro sprintf doc hid bound hb
  apply head_eval_defined sprintf doc bound _ _ hid
  simp [ledgerConsensus, single, guard, Option.bind_eq_some_iff] at hb
  obtain ⟨_, v, _, _, k, _, _, rfl⟩ := hb
  simp

theorem pack_heads_defined (p : Pack) (r : Rule) (hr : r∈p.layer.deny) : HeadDefined r := by
  cases p with
  | data =>
    simp only [Pack.layer, data, List.mem_cons, List.not_mem_nil, or_false] at hr
    obtain rfl|rfl|rfl := hr
    · exact classifiedFlag_defined _ _ _
    · exact dataRetention_defined
    · exact classifiedFlag_defined _ _ _
  | ai =>
    simp only [Pack.layer, ai, List.mem_cons, List.not_mem_nil, or_false] at hr
    obtain rfl|rfl|rfl := hr
    · exact aiResidency_defined
    · exact aiLogging_defined
    · exact classifiedFlag_defined _ _ _
  | blockchain =>
    simp only [Pack.layer, blockchain, List.mem_cons, List.not_mem_nil, or_false] at hr
    obtain rfl|rfl|rfl|rfl|rfl := hr
    · exact ledgerFlag_defined _ _
    · exact ledgerFlag_defined _ _
    · exact classifiedFlag_defined _ _ _
    · exact classifiedFlag_defined _ _ _
    · exact ledgerConsensus_defined

/-- With the instance named, a pack's deny set is empty exactly when no body holds. -/
theorem deny_empty_iff (sprintf : String → List Json → String) (p : Pack) (doc : Json)
    (hid : (path ["instance_id"] doc).isSome) :
    ruleSet sprintf p.layer.deny doc=[] ↔ ∀ r∈p.layer.deny, ¬ r.bodyHolds doc := by
  rw [ruleSet_eq_nil_iff]
  refine forall₂_congr fun r hr => ?_
  exact values_eq_nil_iff sprintf r doc (pack_heads_defined p r hr sprintf doc hid)

/-- The dumped `LbParameters` has none of the names the rules read, so no rule of any
of the packs applies to it. -/
theorem judged_empty (sprintf : String → List Json → String) (p : Pack) (c : Call)
    (inst : ServiceInstance) :
    ruleSet sprintf p.layer.deny (judgement c inst inst.parameters.modelDump)=[] := by
  have hn : ∀ name∉["region", "listeners", "routes", "clusters", "mtls_enabled", "sidecar_mode",
      "tags"], path ["parameters", name] (judgement c inst inst.parameters.modelDump)=none := by
    intro name h
    rw [judgement_parameter]
    exact inst.parameters.modelDump_undeclared name h
  have hc := hn "classification" (by decide)
  rw [deny_empty_iff sprintf p _ (by rw [judgement_instanceId]; rfl)]
  intro r hr
  cases p with
  | data =>
    simp only [Pack.layer, data, List.mem_cons, List.not_mem_nil, or_false] at hr
    obtain rfl|rfl|rfl := hr
    · simp [dataEncryption, classifiedFlag_bodyHolds, hc, inSet]
    · simp [dataRetention_bodyHolds, hc, inSet]
    · simp [dataDeletion, classifiedFlag_bodyHolds, hc, inSet]
  | ai =>
    simp only [Pack.layer, ai, List.mem_cons, List.not_mem_nil, or_false] at hr
    obtain rfl|rfl|rfl := hr
    · simp [aiResidency_bodyHolds, hc, inSet]
    · simp [aiLogging_bodyHolds, hc]
    · simp [aiEncryption, classifiedFlag_bodyHolds, hc, inSet]
  | blockchain =>
    simp only [Pack.layer, blockchain, List.mem_cons, List.not_mem_nil, or_false] at hr
    obtain rfl|rfl|rfl|rfl|rfl := hr
    · simp [ledgerPermissioned, ledgerFlag_bodyHolds, hn "permissioned" (by decide)]
    · simp [ledgerIdentity, ledgerFlag_bodyHolds, hn "validator_identity_required" (by decide)]
    · simp [ledgerCustody, classifiedFlag_bodyHolds, hc, inSet]
    · simp [ledgerCrypto, classifiedFlag_bodyHolds, hc, inSet]
    · simp [ledgerConsensus_bodyHolds, hn "validator_count" (by decide)]

/-! What each deployment has to meet, on the tags. -/
section Tags
variable (tags : List (String × String))

def FlagOn (name : String) : Prop := ∀ s, tags.lookup name=some s → Text.truthy s=true

def Unclassified : Prop := tags.lookup "classification"=some "U"

def Kept (lax : Lax) : Service → Prop
  | .managedDatabase =>
    Unclassified tags ∨
      (FlagOn tags "encryption_at_rest" ∧
        (∀ s n, tags.lookup "backup_retention_days"=some s → Text.pyInt s=some n → 7 ≤ n) ∧
        FlagOn tags "deletion_protection")
  | .vectorDb => Unclassified tags ∨ FlagOn tags "encryption_at_rest"
  | .ragWorkspace =>
    Unclassified tags ∨ ∀ s, tags.lookup "encryption_at_rest"=some s → lax.bool s≠some false
  | .permissionedLedger =>
    FlagOn tags "permissioned" ∧ FlagOn tags "validator_identity_required" ∧
    (Unclassified tags ∨ (FlagOn tags "hsm_key_custody" ∧ FlagOn tags "fips_crypto")) ∧
    ∀ s n, tags.lookup "validator_count"=some s → Text.pyInt s=some n → 7 < n →
      ∃ k∈bft, tags.lookup "consensus"=some k

theorem boolTag_eq_true (name : String) : boolTag tags name true=true ↔ FlagOn tags name := by
  cases h : tags.lookup name with
  | none => simp [boolTag, FlagOn, h]
  | some s => simp [boolTag, FlagOn, h]

end Tags

/-- A `Literal` field is its default or the value the tag spells. -/
theorem literalTag_value {α : Type} {tags : List (String × String)} {name : String}
    {value : α → String} {all : List α} {default a : α}
    (h : literalTag tags name value all default=.ok a) :
    (tags.lookup name=none ∧ a=default) ∨ tags.lookup name=some (value a) := by
  unfold literalTag at h
  cases hl : tags.lookup name with
  | none =>
    rw [hl] at h
    cases h
    exact Or.inl ⟨rfl, rfl⟩
  | some s =>
    rw [hl] at h
    simp only at h
    split at h
    · cases h
    · next found ha =>
      cases h
      have hs : value a=s := by simpa using List.find?_some ha
      rw [hs]
      exact Or.inr rfl

theorem classificationTag_unclassified {tags : List (String × String)} {k : Classification}
    (h : classificationTag tags .cui=.ok k) : k=.u ↔ Unclassified tags := by
  obtain ⟨hl, rfl⟩ | hl := literalTag_value h
  · simp [Unclassified, hl]
  · cases k <;> simp [Unclassified, hl, Classification.value]

theorem classified_iff {tags : List (String × String)} {k : Classification}
    (h : classificationTag tags .cui=.ok k) :
    k.value∈classified ↔ ¬ Unclassified tags := by
  rw [← classificationTag_unclassified h]
  cases k <;> decide

/-- A bounded integer field is its default or what `int()` reads from the tag. -/
theorem intTag_bound {tags : List (String × String)} {name : String} {lo hi : Int}
    {default v : Bounded lo hi} (h : intTag tags name default=.ok v) (P : Int → Prop)
    (hd : P default.1) : P v.1 ↔ ∀ s n, tags.lookup name=some s → Text.pyInt s=some n → P n := by
  unfold intTag at h
  cases hl : tags.lookup name with
  | none =>
    rw [hl] at h
    cases h
    simp [hd]
  | some s =>
    rw [hl] at h
    simp only at h
    cases hn : Text.pyInt s with
    | none => simp [hn] at h
    | some n =>
      simp only [hn, bounded] at h
      split at h
      · cases h
        constructor
        · rintro hp s' n' hs hn'
          cases hs
          rw [hn] at hn'
          cases hn'
          exact hp
        · intro hall
          exact hall s n rfl hn
      · cases h

theorem laxBoolTag_eq {tags : List (String × String)} {name : String} {lax : Lax} {b : Bool}
    (h : laxBoolTag tags name lax true=.ok b) :
    b=false ↔ ∃ s, tags.lookup name=some s ∧ lax.bool s=some false := by
  unfold laxBoolTag at h
  cases hl : tags.lookup name with
  | none =>
    rw [hl] at h
    cases h
    simp
  | some s =>
    rw [hl] at h
    simp only at h
    cases hb : lax.bool s with
    | none => simp [hb] at h
    | some v =>
      simp only [hb] at h
      cases h
      simp [hb]

theorem consensusTag_bft {tags : List (String × String)} {k : ConsensusType}
    {all : List ConsensusType}
    (h : literalTag tags "consensus" ConsensusType.value all .raft=.ok k) :
    k.value∈bft ↔ ∃ name∈bft, tags.lookup "consensus"=some name := by
  obtain ⟨hl, rfl⟩ | hl := literalTag_value h
  · simp [hl, bft, ConsensusType.value]
  · cases k <;> simp [hl, bft, ConsensusType.value]

/-! The fields the rules read, out of the renderers' parameters. -/

theorem managedDatabase_fields {tags : List (String × String)} {p : ManagedDatabaseParams}
    (h : ManagedDatabaseParams.ofTags tags=.ok p) :
    classificationTag tags .cui=.ok p.classification ∧
    intTag tags "backup_retention_days" ⟨7, by decide⟩=.ok p.backupRetentionDays ∧
    p.encryptionAtRest=boolTag tags "encryption_at_rest" true ∧
    p.deletionProtection=boolTag tags "deletion_protection" true := by
  obtain ⟨storageGb, _, h⟩ := bind_eq_ok h
  obtain ⟨retention, hr, h⟩ := bind_eq_ok h
  obtain ⟨engine, _, h⟩ := bind_eq_ok h
  obtain ⟨classification, hc, h⟩ := bind_eq_ok h
  cases h
  exact ⟨hc, hr, rfl, rfl⟩

theorem vectorDb_fields {tags : List (String × String)} {p : VectorDbParams}
    (h : VectorDbParams.ofTags tags=.ok p) :
    classificationTag tags .cui=.ok p.classification ∧
    p.encryptionAtRest=boolTag tags "encryption_at_rest" true := by
  obtain ⟨storageGb, _, h⟩ := bind_eq_ok h
  obtain ⟨store, _, h⟩ := bind_eq_ok h
  obtain ⟨classification, hc, h⟩ := bind_eq_ok h
  cases h
  exact ⟨hc, rfl⟩

theorem ragWorkspace_fields {lax : Lax} {instanceId : String} {tags : List (String × String)}
    {p : RagWorkspaceParams} (h : RagWorkspaceParams.ofTags lax instanceId tags=.ok p) :
    classificationTag tags .cui=.ok p.classification ∧
    laxBoolTag tags "encryption_at_rest" lax true=.ok p.encryptionAtRest := by
  obtain ⟨name, _, h⟩ := bind_eq_ok h
  obtain ⟨store, _, h⟩ := bind_eq_ok h
  obtain ⟨connectors, _, h⟩ := bind_eq_ok h
  obtain ⟨classification, hc, h⟩ := bind_eq_ok h
  obtain ⟨encryption, he, h⟩ := bind_eq_ok h
  obtain ⟨redaction, _, h⟩ := bind_eq_ok h
  cases h
  exact ⟨hc, he⟩

theorem permissionedLedger_fields {tags : List (String × String)} {p : PermissionedLedgerParams}
    (h : PermissionedLedgerParams.ofTags tags=.ok p) :
    classificationTag tags .cui=.ok p.classification ∧
    intTag tags "validator_count" ⟨4, by decide⟩=.ok p.validatorCount ∧
    literalTag tags "consensus" ConsensusType.value [.raft, .ibft2, .qbft] .raft=
      .ok p.consensus ∧
    p.permissioned=boolTag tags "permissioned" true ∧
    p.validatorIdentityRequired=boolTag tags "validator_identity_required" true ∧
    p.hsmKeyCustody=boolTag tags "hsm_key_custody" true ∧
    p.fipsCrypto=boolTag tags "fips_crypto" true := by
  obtain ⟨count, hv, h⟩ := bind_eq_ok h
  obtain ⟨platform, _, h⟩ := bind_eq_ok h
  obtain ⟨consensus, hk, h⟩ := bind_eq_ok h
  obtain ⟨classification, hc, h⟩ := bind_eq_ok h
  cases h
  exact ⟨hc, hv, hk, rfl, rfl, rfl, rfl⟩

section Deployed
variable (sprintf : String → List Json → String) (c : Call) {inst : ServiceInstance}

theorem managedDatabase_kept {p : ManagedDatabaseParams} (lax : Lax)
    (hs : inst.serviceId="managed-database")
    (hp : ManagedDatabaseParams.ofTags inst.parameters.tags=.ok p) :
    ruleSet sprintf Pack.data.layer.deny (judgement c inst p.modelDump)=[] ↔
      Kept inst.parameters.tags lax .managedDatabase := by
  obtain ⟨hc, hr, he, hd⟩ := managedDatabase_fields hp
  have hret := intTag_bound hr (fun n => 7 ≤ n) (by decide)
  have hlt : ltNum 7 (.num p.backupRetentionDays.1)=false ↔ 7 ≤ p.backupRetentionDays.1 := by
    simp only [ltNum, decide_eq_false_iff_not, not_lt]
    exact_mod_cast Iff.rfl
  have hrules : ruleSet sprintf Pack.data.layer.deny (judgement c inst p.modelDump)=[] ↔
      (p.classification.value∈classified → p.encryptionAtRest=true) ∧
      (p.classification.value∈classified → ltNum 7 (.num p.backupRetentionDays.1)=false) ∧
      (p.classification.value∈classified → p.deletionProtection=true) := by
    rw [deny_empty_iff sprintf _ _ (by rw [judgement_instanceId]; rfl)]
    simp only [Pack.layer, data, List.forall_mem_cons, dataEncryption, dataDeletion,
      classifiedFlag_bodyHolds, dataRetention_bodyHolds, judgement_serviceType,
      judgement_parameter, hs]
    simp [ManagedDatabaseParams.modelDump, lookup, inSet, storageServices]
  rw [hrules, classified_iff hc, hlt, hret, he, hd, boolTag_eq_true, boolTag_eq_true]
  by_cases hu : Unclassified inst.parameters.tags <;> simp [Kept, hu]

theorem vectorDb_kept {p : VectorDbParams} (lax : Lax) (hs : inst.serviceId="vector-db")
    (hp : VectorDbParams.ofTags inst.parameters.tags=.ok p) :
    ruleSet sprintf Pack.data.layer.deny (judgement c inst p.modelDump)=[] ↔
      Kept inst.parameters.tags lax .vectorDb := by
  obtain ⟨hc, he⟩ := vectorDb_fields hp
  have hrules : ruleSet sprintf Pack.data.layer.deny (judgement c inst p.modelDump)=[] ↔
      (p.classification.value∈classified → p.encryptionAtRest=true) := by
    rw [deny_empty_iff sprintf _ _ (by rw [judgement_instanceId]; rfl)]
    simp only [Pack.layer, data, List.forall_mem_cons, dataEncryption, dataDeletion,
      classifiedFlag_bodyHolds, dataRetention_bodyHolds, judgement_serviceType,
      judgement_parameter, hs]
    simp [VectorDbParams.modelDump, lookup, inSet, storageServices]
  rw [hrules, classified_iff hc, he, boolTag_eq_true]
  by_cases hu : Unclassified inst.parameters.tags <;> simp [Kept, hu]

theorem ragWorkspace_kept {p : RagWorkspaceParams} {lax : Lax} {instanceId : String}
    (hs : inst.serviceId="rag-workspace")
    (hp : RagWorkspaceParams.ofTags lax instanceId inst.parameters.tags=.ok p) :
    ruleSet sprintf Pack.ai.layer.deny (judgement c inst p.modelDump)=[] ↔
      Kept inst.parameters.tags lax .ragWorkspace := by
  obtain ⟨hc, he⟩ := ragWorkspace_fields hp
  have henc : p.encryptionAtRest=true ↔ ∀ s,
      inst.parameters.tags.lookup "encryption_at_rest"=some s → lax.bool s≠some false := by
    rw [← Bool.not_eq_false, laxBoolTag_eq he]
    simp
  -- the residency is always a string and the logging flag is no field of the model
  have hrules : ruleSet sprintf Pack.ai.layer.deny (judgement c inst p.modelDump)=[] ↔
      (p.classification.value∈classified → p.encryptionAtRest=true) := by
    rw [deny_empty_iff sprintf _ _ (by rw [judgement_instanceId]; rfl)]
    simp only [Pack.layer, ai, List.forall_mem_cons, aiEncryption, aiResidency_bodyHolds,
      aiLogging_bodyHolds, classifiedFlag_bodyHolds, judgement_serviceType, judgement_parameter, hs]
    simp [RagWorkspaceParams.modelDump, lookup, inSet, holds]
  rw [hrules, classified_iff hc, henc]
  by_cases hu : Unclassified inst.parameters.tags <;> simp [Kept, hu]

theorem permissionedLedger_kept {p : PermissionedLedgerParams} (lax : Lax)
    (hs : inst.serviceId="permissioned-ledger")
    (hp : PermissionedLedgerParams.ofTags inst.parameters.tags=.ok p) :
    ruleSet sprintf Pack.blockchain.layer.deny (judgement c inst p.modelDump)=[] ↔
      Kept inst.parameters.tags lax .permissionedLedger := by
  obtain ⟨hc, hv, hk, hperm, hident, hhsm, hfips⟩ := permissionedLedger_fields hp
  have hbft := consensusTag_bft hk
  have hcount := intTag_bound hv (fun n => 7 < n → p.consensus.value∈bft)
    (fun h => absurd h (by decide))
  have hgt : gtNum 7 (.num p.validatorCount.1)=true ↔ 7 < p.validatorCount.1 := by
    simp only [gtNum, decide_eq_true_eq]
    exact_mod_cast Iff.rfl
  have hrules : ruleSet sprintf Pack.blockchain.layer.deny (judgement c inst p.modelDump)=[] ↔
      p.permissioned=true ∧ p.validatorIdentityRequired=true ∧
      (p.classification.value∈classified → p.hsmKeyCustody=true) ∧
      (p.classification.value∈classified → p.fipsCrypto=true) ∧
      (gtNum 7 (.num p.validatorCount.1)=true → p.consensus.value∈bft) := by
    rw [deny_empty_iff sprintf _ _ (by rw [judgement_instanceId]; rfl)]
    simp only [Pack.layer, blockchain, List.forall_mem_cons, ledgerPermissioned, ledgerIdentity,
      ledgerCustody, ledgerCrypto, ledgerFlag_bodyHolds, classifiedFlag_bodyHolds,
      ledgerConsensus_bodyHolds, judgement_serviceType, judgement_parameter, hs]
    simp [PermissionedLedgerParams.modelDump, lookup, inSet, ledger]
  rw [hrules, classified_iff hc, hgt, hcount, hperm, hident, hhsm, hfips, hbft]
  simp only [boolTag_eq_true]
  by_cases hu : Unclassified inst.parameters.tags <;> simp [Kept, hu, and_assoc]

end Deployed

/-- A deployment keeps to the rules its request was judged by exactly when its tags do:
the judged document is silent on all of them. -/
theorem deployed_as_judged_iff (sprintf : String → List Json → String) (lax : Lax)
    (svc : Service) (c : Call) (inst : ServiceInstance) (params : List (String × Json))
    (hs : inst.serviceId=svc.serviceType) (hp : svc.deployed lax inst=.ok params) :
    (ruleSet sprintf svc.pack.layer.deny (judgement c inst inst.parameters.modelDump)=[] →
      ruleSet sprintf svc.pack.layer.deny (judgement c inst params)=[]) ↔
    Kept inst.parameters.tags lax svc := by
  have hj := judged_empty sprintf svc.pack c inst
  have hkept : ruleSet sprintf svc.pack.layer.deny (judgement c inst params)=[] ↔
      Kept inst.parameters.tags lax svc := by
    cases svc with
    | managedDatabase =>
      obtain ⟨p, hq, rfl⟩ := map_eq_ok hp
      exact managedDatabase_kept sprintf c lax hs hq
    | vectorDb =>
      obtain ⟨p, hq, rfl⟩ := map_eq_ok hp
      exact vectorDb_kept sprintf c lax hs hq
    | ragWorkspace =>
      obtain ⟨p, hq, rfl⟩ := map_eq_ok hp
      exact ragWorkspace_kept sprintf c hs hq
    | permissionedLedger =>
      obtain ⟨p, hq, rfl⟩ := map_eq_ok hp
      exact permissionedLedger_kept sprintf c lax hs hq
  rw [← hkept]
  exact ⟨fun h => h hj, fun h _ => h⟩

def plainDatabase : ServiceInstance :=
  { instanceId := "db-1", serviceId := "managed-database", planId := "small"
    organizationGuid := some "treasury"
    parameters := { tags := [("encryption_at_rest", "false"), ("backup_retention_days", "0")] } }

def databaseCall : Call :=
  { actor := "alice", tenantId := "treasury", serviceType := "managed-database"
    planId := "small", parameters := [] }

def plainLax : Lax :=
  { bool := fun s => if Text.truthy s then some true else
      if Text.lower s.toList="false".toList then some false else none
    int := Text.pyInt }

def plainDatabaseParams : ManagedDatabaseParams :=
  { encryptionAtRest := false, backupRetentionDays := ⟨0, by decide⟩ }

theorem deployed_as_judged_iff_plainDatabase :
    Service.managedDatabase.deployed plainLax plainDatabase=.ok plainDatabaseParams.modelDump ∧
    ¬ (ruleSet (fun format _ => format) Pack.data.layer.deny
        (judgement databaseCall plainDatabase plainDatabase.parameters.modelDump)=[] →
      ruleSet (fun format _ => format) Pack.data.layer.deny
        (judgement databaseCall plainDatabase plainDatabaseParams.modelDump)=[]) := by
  have hd : Service.managedDatabase.deployed plainLax plainDatabase =
      .ok plainDatabaseParams.modelDump := by decide
  refine ⟨hd, fun h => ?_⟩
  have hk := (deployed_as_judged_iff (fun format _ => format) plainLax .managedDatabase
    databaseCall plainDatabase plainDatabaseParams.modelDump rfl hd).mp h
  obtain hk | ⟨hk, _⟩ := hk
  · exact absurd hk (by unfold Unclassified; decide)
  · exact absurd (hk "false" rfl) (by decide)

/-- A CUI database passes the data pack's rules and is deployed unencrypted, with no
backups kept. -/
theorem plain_database_deployed :
    ruleSet (fun format _ => format) Pack.data.layer.deny
      (judgement databaseCall plainDatabase plainDatabase.parameters.modelDump)=[] ∧
    ManagedDatabaseParams.ofTags plainDatabase.parameters.tags=.ok plainDatabaseParams ∧
    plainDatabaseParams.classification=.cui ∧ plainDatabaseParams.encryptionAtRest=false ∧
    plainDatabaseParams.backupRetentionDays.1<7 ∧
    ruleSet (fun format _ => format) Pack.data.layer.deny
      (judgement databaseCall plainDatabase plainDatabaseParams.modelDump)≠[] :=
  ⟨judged_empty _ .data databaseCall plainDatabase, by decide, rfl, rfl, by decide, by decide⟩

end Sovereign.Judged
