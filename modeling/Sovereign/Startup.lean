import Sovereign.Text

/-! How a service starts: settings from environment variables whose defaults depend on `ENV`,
managed secrets over them, and the two checks that refuse a managed environment. -/
namespace Sovereign.Startup
open Sovereign

abbrev Environ := String → Option String

def lowerIn (s : String) (words : List String) : Bool :=
  decide (Text.lower s.toList∈words.map String.toList)

def getenv (e : Environ) (name default : String) : String := (e name).getD default

def envBool (e : Environ) (name : String) (default : Bool) : Bool :=
  match e name with
  | none => default
  | some value => Text.truthy value

def devEnvironments : List String := ["dev", "development", "local", "test", "testing", "ci"]

def isDevelopment (env : String) : Bool := lowerIn env devEnvironments

def requiresRealSecrets (env : String) : Bool := !isDevelopment env

/-! The flags whose default depends on the environment. -/

inductive Flag where
  | sharedBearerAuthEnabled | brokerTrustBasicAuth | strictSecrets | requireOidc
  | requireManagedSecrets | workloadIdentityEnabled | mtlsRequired | requireAuditSigning
deriving DecidableEq

namespace Flag

def var : Flag → String
  | sharedBearerAuthEnabled => "SHARED_BEARER_AUTH_ENABLED"
  | brokerTrustBasicAuth => "BROKER_TRUST_BASIC_AUTH"
  | strictSecrets => "STRICT_SECRETS"
  | requireOidc => "REQUIRE_OIDC"
  | requireManagedSecrets => "REQUIRE_MANAGED_SECRETS"
  | workloadIdentityEnabled => "WORKLOAD_IDENTITY_ENABLED"
  | mtlsRequired => "MTLS_REQUIRED"
  | requireAuditSigning => "REQUIRE_AUDIT_SIGNING"

def default (env : String) : Flag → Bool
  | sharedBearerAuthEnabled => !requiresRealSecrets env
  | brokerTrustBasicAuth => !requiresRealSecrets env
  | strictSecrets => requiresRealSecrets env
  | requireOidc => requiresRealSecrets env
  | requireManagedSecrets => requiresRealSecrets env
  | workloadIdentityEnabled => requiresRealSecrets env
  | mtlsRequired => requiresRealSecrets env
  | requireAuditSigning => requiresRealSecrets env

def read (e : Environ) (env : String) (f : Flag) : Bool := envBool e f.var (f.default env)

end Flag

structure Settings where
  env : String
  s3AccessKey : String
  s3SecretKey : String
  brokerPassword : String
  devBearerToken : String
  sharedBearerAuthEnabled : Bool
  brokerTrustBasicAuth : Bool
  strictSecrets : Bool
  devJwtSecret : String
  oidcIssuerUrl : String
  oidcAudience : String
  requireOidc : Bool
  serviceName : String
  siemWebhookToken : String
  auditSignatureKeyId : String
  auditSigningPrivateKeyPem : String
  requireAuditSigning : Bool
  secretsProvider : String
  requireManagedSecrets : Bool
  workloadIdentityEnabled : Bool
  allowedWorkloadIdentities : String
  mtlsRequired : Bool
  workloadIdentity : String
deriving DecidableEq

/-- The variables read with `int()` and `float()`; a text these do not accept ends the
import. -/
def intVars : List String :=
  ["CLICKHOUSE_PORT", "RECONCILE_BATCH_LIMIT", "AUDIT_RETENTION_DAYS", "SECRETS_TTL_SECONDS"]

def floatVars : List String :=
  ["OIDC_JWKS_CACHE_TTL_SECONDS", "OIDC_JWKS_STALE_GRACE_SECONDS", "RATE_LIMIT_RPS",
   "RATE_LIMIT_BURST", "RECONCILE_INTERVAL_SECONDS", "SIEM_WEBHOOK_TIMEOUT_SECONDS"]

def numbersParse (pyFloat : String → Option ℚ) (e : Environ) : Bool :=
  intVars.all (fun name => (e name).all fun v => (Text.pyInt v).isSome) &&
    floatVars.all fun name => (e name).all fun v => (pyFloat v).isSome

/-- The class body of `Settings`. -/
def load (e : Environ) : Settings :=
  let env := getenv e "ENV" "dev"
  { env
    s3AccessKey := getenv e "S3_ACCESS_KEY" "minioadmin"
    s3SecretKey := getenv e "S3_SECRET_KEY" "minioadmin"
    brokerPassword := getenv e "BROKER_PASSWORD" "broker"
    devBearerToken := getenv e "DEV_BEARER_TOKEN" "dev-token"
    sharedBearerAuthEnabled := Flag.sharedBearerAuthEnabled.read e env
    brokerTrustBasicAuth := Flag.brokerTrustBasicAuth.read e env
    strictSecrets := Flag.strictSecrets.read e env
    devJwtSecret := getenv e "DEV_JWT_SECRET" "dev-jwt-secret-replace-me-with-a-real-one"
    oidcIssuerUrl := getenv e "OIDC_ISSUER_URL" ""
    oidcAudience := getenv e "OIDC_AUDIENCE" ""
    requireOidc := Flag.requireOidc.read e env
    serviceName := getenv e "SERVICE_NAME" "unknown"
    siemWebhookToken := getenv e "SIEM_WEBHOOK_TOKEN" ""
    auditSignatureKeyId := getenv e "AUDIT_SIGNATURE_KEY_ID" ""
    auditSigningPrivateKeyPem := getenv e "AUDIT_SIGNING_PRIVATE_KEY_PEM" ""
    requireAuditSigning := Flag.requireAuditSigning.read e env
    secretsProvider := getenv e "SECRETS_PROVIDER" "env"
    requireManagedSecrets := Flag.requireManagedSecrets.read e env
    workloadIdentityEnabled := Flag.workloadIdentityEnabled.read e env
    allowedWorkloadIdentities := getenv e "ALLOWED_WORKLOAD_IDENTITIES" ""
    mtlsRequired := Flag.mtlsRequired.read e env
    workloadIdentity := getenv e "WORKLOAD_IDENTITY" "" }

/-- `get_optional` of a provider; an error is an exception other than a missing secret. -/
abbrev Fetch := String → Except String (Option String)

/-- The provider installed in the process, if any, and the backends one is built from.
Caching does not show at start-up, where each secret is read once. -/
structure Backends where
  installed : Option Fetch := none
  secretsManager : Fetch
  parameterStore : Fetch
  vault : Fetch

inductive Secret where
  | devBearerToken | brokerPassword | s3AccessKey | s3SecretKey | devJwtSecret
  | auditSigningPrivateKeyPem | siemWebhookToken
deriving DecidableEq

namespace Secret

def name : Secret → String
  | devBearerToken => "service-bearer-token"
  | brokerPassword => "broker-password"
  | s3AccessKey => "s3-access-key"
  | s3SecretKey => "s3-secret-key"
  | devJwtSecret => "jwt-signing-secret"
  | auditSigningPrivateKeyPem => "audit-signing-private-key"
  | siemWebhookToken => "siem-webhook-token"

def get (s : Settings) : Secret → String
  | devBearerToken => s.devBearerToken
  | brokerPassword => s.brokerPassword
  | s3AccessKey => s.s3AccessKey
  | s3SecretKey => s.s3SecretKey
  | devJwtSecret => s.devJwtSecret
  | auditSigningPrivateKeyPem => s.auditSigningPrivateKeyPem
  | siemWebhookToken => s.siemWebhookToken

def set (s : Settings) (v : String) : Secret → Settings
  | devBearerToken => { s with devBearerToken := v }
  | brokerPassword => { s with brokerPassword := v }
  | s3AccessKey => { s with s3AccessKey := v }
  | s3SecretKey => { s with s3SecretKey := v }
  | devJwtSecret => { s with devJwtSecret := v }
  | auditSigningPrivateKeyPem => { s with auditSigningPrivateKeyPem := v }
  | siemWebhookToken => { s with siemWebhookToken := v }

end Secret

def managedSecretFields : List Secret :=
  [.devBearerToken, .brokerPassword, .s3AccessKey, .s3SecretKey, .devJwtSecret,
   .auditSigningPrivateKeyPem, .siemWebhookToken]

def providerKind (secretsProvider : String) : String :=
  if secretsProvider="" then "env" else secretsProvider

def providerForSettings (b : Backends) (secretsProvider : String) : Except String Fetch :=
  match b.installed with
  | some provider => .ok provider
  | none =>
    let kind := providerKind secretsProvider
    if lowerIn kind ["aws-secrets-manager", "secretsmanager", "asm"] then .ok b.secretsManager
    else if lowerIn kind ["aws-ssm", "ssm", "parameter-store"] then .ok b.parameterStore
    else if lowerIn kind ["vault", "hashicorp-vault", "hcp-vault"] then .ok b.vault
    else .error ("unknown secrets provider '" ++
      String.ofList (Text.lower kind.toList) ++ "'")

/-- The loop of `_resolve_managed_secrets`. -/
def override (fetch : Fetch) : List Secret → Settings → Except String Settings
  | [], s => .ok s
  | secret::rest, s =>
    match fetch secret.name with
    | .error e => .error e
    | .ok none => override fetch rest s
    | .ok (some v) => override fetch rest (secret.set s v)

def resolveManagedSecrets (b : Backends) (s : Settings) : Except String Settings :=
  if lowerIn (providerKind s.secretsProvider) ["env"] then .ok s
  else
    match providerForSettings b s.secretsProvider with
    | .error e => .error e
    | .ok fetch => override fetch managedSecretFields s

structure Sentinel where
  field : String
  secret : Secret
  var : String
  value : String

def devSentinels : List Sentinel :=
  [⟨"dev_bearer_token", .devBearerToken, "DEV_BEARER_TOKEN", "dev-token"⟩,
   ⟨"dev_jwt_secret", .devJwtSecret, "DEV_JWT_SECRET",
     "dev-jwt-secret-replace-me-with-a-real-one"⟩,
   ⟨"broker_password", .brokerPassword, "BROKER_PASSWORD", "broker"⟩,
   ⟨"s3_secret_key", .s3SecretKey, "S3_SECRET_KEY", "minioadmin"⟩]

def live (s : Settings) : List String :=
  (devSentinels.filter fun d => decide (d.secret.get s=d.value)).map Sentinel.field

def refusal (env why : String) : String :=
  "refusing to start in a managed environment (ENV=" ++ env ++ ") " ++ why

def checkManaged (s : Settings) : Except String Unit :=
  if live s≠[] ∧ s.strictSecrets then
    .error (refusal s.env ("with dev sentinels active: " ++ ", ".intercalate (live s)))
  else if s.requireOidc ∧ (s.oidcIssuerUrl="" ∨ s.oidcAudience="") then
    .error (refusal s.env "without OIDC_ISSUER_URL and OIDC_AUDIENCE")
  else if s.requireManagedSecrets ∧ lowerIn (providerKind s.secretsProvider) ["env"] then
    .error (refusal s.env "with env-only secrets provider")
  else if s.requireAuditSigning ∧ (s.auditSignatureKeyId="" ∨ s.auditSigningPrivateKeyPem="") then
    .error (refusal s.env "without audit signing key material")
  else if s.brokerTrustBasicAuth then
    .error (refusal s.env
      "with the Basic-auth RBAC bypass enabled; set BROKER_TRUST_BASIC_AUTH=false")
  else .ok ()

def getSettings (pyFloat : String → Option ℚ) (b : Backends) (e : Environ) :
    Except String Settings :=
  if numbersParse pyFloat e then
    match resolveManagedSecrets b (load e) with
    | .error err => .error err
    | .ok s =>
      if requiresRealSecrets s.env then
        match checkManaged s with
        | .error err => .error err
        | .ok () => .ok s
      else .ok s
  else .error "ValueError"

def assertSecurePosture (s : Settings) : Except String Unit :=
  if requiresRealSecrets s.env=false then .ok ()
  else if s.sharedBearerAuthEnabled then
    .error ("FATAL: shared bearer auth is enabled in a managed environment (ENV=" ++ s.env ++
      "). Set SHARED_BEARER_AUTH_ENABLED=false and use OIDC or workload identity.")
  else if s.requireOidc || s.mtlsRequired then .ok ()
  else
    .error ("FATAL: no strong auth (OIDC or mTLS) configured for a managed environment (ENV=" ++
      s.env ++ ").")

def falsy (v : String) : Bool := lowerIn v ["0", "false", "no"]

/-- Unset, or one of the spellings of true or false, in any case. -/
def recognised : Option String → Bool
  | none => true
  | some v => Text.truthy v || falsy v

def explicitFalse : Option String → Bool
  | none => false
  | some v => falsy v

theorem not_truthy_of_falsy {v : String} (h : falsy v=true) : Text.truthy v=false := by
  simp only [falsy, lowerIn, List.map_cons, List.map_nil, List.mem_cons, List.not_mem_nil,
    or_false, decide_eq_true_eq] at h
  unfold Text.truthy
  obtain h | h | h := h
  · rw [h]
    decide
  · rw [h]
    decide
  · rw [h]
    decide

/-- An unknown spelling reads as false. -/
theorem Flag.read_unrecognised (e : Environ) (env : String) (f : Flag)
    (h : recognised (e f.var)=false) : f.read e env=false := by
  unfold Flag.read envBool
  cases hv : e f.var with
  | none => simp [recognised, hv] at h
  | some v =>
    simp only [recognised, hv, Bool.or_eq_false_iff] at h
    exact h.1

/-- A flag that reads false without being set so is misspelled, where unset means true. -/
theorem Flag.read_false_iff (e : Environ) (env : String) (f : Flag) (hd : f.default env=true) :
    f.read e env=false ↔ recognised (e f.var)=false ∨ explicitFalse (e f.var)=true := by
  unfold Flag.read envBool
  cases hv : e f.var with
  | none => simp [hd, recognised, explicitFalse]
  | some v =>
    simp only [recognised, explicitFalse, Bool.or_eq_false_iff]
    cases hf : falsy v with
    | true => simp [not_truthy_of_falsy hf]
    | false => simp

theorem Secret.get_set (s : Settings) (v : String) (a b : Secret) :
    a.get (b.set s v)=if a=b then v else a.get s := by
  cases a <;> cases b <;> rfl

/-- Overriding leaves everything but the secrets. -/
theorem override_frame {β : Type} (g : Settings → β)
    (hg : ∀ s v (secret : Secret), g (secret.set s v)=g s) {fetch : Fetch} {list : List Secret}
    {s s' : Settings} (h : override fetch list s=.ok s') : g s'=g s := by
  induction list generalizing s with
  | nil =>
    cases h
    rfl
  | cons secret rest ih =>
    simp only [override] at h
    split at h
    · cases h
    · exact ih h
    · rw [ih h, hg]

/-- A listed secret ends with the fetched value, where there is one. -/
theorem get_override {fetch : Fetch} {list : List Secret} {s s' : Settings}
    (h : override fetch list s=.ok s') (a : Secret) :
    a.get s'=if a∈list then ((fetch a.name).toOption.join).getD (a.get s) else a.get s := by
  induction list generalizing s with
  | nil =>
    cases h
    simp
  | cons secret rest ih =>
    simp only [override] at h
    by_cases ha : a=secret
    · subst ha
      split at h
      · cases h
      · next hf => rw [ih h]; simp [hf, Except.toOption]
      · next v hf =>
        rw [ih h]
        simp [hf, Except.toOption, Secret.get_set]
    · split at h
      · cases h
      · rw [ih h]
        simp [ha]
      · rw [ih h]
        simp [ha, Secret.get_set]

/-! The value a secret ends up with, from what was supplied. -/

def managed (b : Backends) (e : Environ) (secret : Secret) : Option String :=
  let kind := getenv e "SECRETS_PROVIDER" "env"
  if lowerIn (providerKind kind) ["env"] then none
  else ((providerForSettings b kind).toOption.bind fun fetch =>
    (fetch secret.name).toOption.join)

/-- The provider or else the variable supplies something other than the sentinel. -/
def Sentinel.replaced (b : Backends) (e : Environ) (d : Sentinel) : Prop :=
  (managed b e d.secret).getD (getenv e d.var d.value)≠d.value

def Replaced (b : Backends) (e : Environ) : Prop := ∀ d∈devSentinels, d.replaced b e

theorem get_load (e : Environ) : ∀ d∈devSentinels, d.secret.get (load e)=getenv e d.var d.value := by
  intro d hd
  simp only [devSentinels, List.mem_cons, List.not_mem_nil, or_false] at hd
  obtain rfl | rfl | rfl | rfl := hd <;> rfl

theorem mem_managedSecretFields (a : Secret) : a∈managedSecretFields := by
  cases a <;> decide

theorem resolve_frame {β : Type} (g : Settings → β)
    (hg : ∀ s v (secret : Secret), g (secret.set s v)=g s) {b : Backends} {s s' : Settings}
    (h : resolveManagedSecrets b s=.ok s') : g s'=g s := by
  unfold resolveManagedSecrets at h
  split at h
  · cases h
    rfl
  · split at h
    · cases h
    · exact override_frame g hg h

theorem get_resolve {b : Backends} {e : Environ} {s : Settings}
    (h : resolveManagedSecrets b (load e)=.ok s) (a : Secret) :
    a.get s=(managed b e a).getD (a.get (load e)) := by
  unfold resolveManagedSecrets at h
  have hkind : (load e).secretsProvider=getenv e "SECRETS_PROVIDER" "env" := rfl
  rw [hkind] at h
  unfold managed
  dsimp only
  split at h
  · next henv =>
    cases h
    simp [henv]
  · next henv =>
    split at h
    · cases h
    · next fetch hp =>
      rw [get_override h a, if_pos (mem_managedSecretFields a)]
      simp [henv, hp, Except.toOption]

/-- No sentinel is active exactly when each has been replaced. -/
theorem live_eq_nil {b : Backends} {e : Environ} {s : Settings}
    (h : resolveManagedSecrets b (load e)=.ok s) : live s=[] ↔ Replaced b e := by
  unfold live Replaced Sentinel.replaced
  rw [List.map_eq_nil_iff, List.filter_eq_nil_iff]
  constructor
  · intro hl d hd
    rw [← get_load e d hd, ← get_resolve h]
    simpa using hl d hd
  · intro hr d hd
    have hd' := hr d hd
    rw [← get_load e d hd, ← get_resolve h] at hd'
    simpa using hd'

theorem checkManaged_ok {s : Settings} (h : checkManaged s=.ok ()) :
    (live s=[] ∨ s.strictSecrets=false) ∧
    (s.requireOidc=true → s.oidcIssuerUrl≠"" ∧ s.oidcAudience≠"") ∧
    s.brokerTrustBasicAuth=false := by
  unfold checkManaged at h
  split at h
  · cases h
  · next hlive =>
    split at h
    · cases h
    · next hoidc =>
      split at h
      · cases h
      · split at h
        · cases h
        · split at h
          · cases h
          · next hbasic =>
            refine ⟨?_, ?_, by simpa using hbasic⟩
            · by_cases hl : live s=[]
              · exact .inl hl
              · exact .inr (by simpa [hl] using hlive)
            · intro ho
              simpa [ho] using hoidc

theorem assertSecurePosture_ok {s : Settings} (henv : requiresRealSecrets s.env=true)
    (h : assertSecurePosture s=.ok ()) :
    s.sharedBearerAuthEnabled=false ∧ (s.requireOidc=true ∨ s.mtlsRequired=true) := by
  unfold assertSecurePosture at h
  rw [if_neg (by simp [henv])] at h
  split at h
  · cases h
  · next hshared =>
    split at h
    · next hstrong => exact ⟨by simpa using hshared, by simpa using hstrong⟩
    · cases h

theorem getSettings_ok {pyFloat : String → Option ℚ} {b : Backends} {e : Environ} {s : Settings}
    (h : getSettings pyFloat b e=.ok s) :
    resolveManagedSecrets b (load e)=.ok s ∧
      (requiresRealSecrets s.env=true → checkManaged s=.ok ()) := by
  unfold getSettings at h
  split at h
  · split at h
    · cases h
    · next s' hres =>
      split at h
      · split at h
        · cases h
        · next hc =>
          cases h
          exact ⟨hres, fun _ => hc⟩
      · next henv =>
        cases h
        exact ⟨hres, fun h' => absurd h' henv⟩
  · cases h

def Secure (e : Environ) (s : Settings) : Prop :=
  s.sharedBearerAuthEnabled=false ∧ s.brokerTrustBasicAuth=false ∧
  (s.requireOidc=true ∨ s.mtlsRequired=true) ∧
  (s.requireOidc=true → s.oidcIssuerUrl≠"" ∧ s.oidcAudience≠"") ∧
  (live s=[] ∨ explicitFalse (e "STRICT_SECRETS")=true)

theorem default_strictSecrets {env : String} (h : requiresRealSecrets env=true) :
    Flag.strictSecrets.default env=true := h

/-- An unknown spelling reads as an unset flag only for the two that are off by default. -/
theorem Flag.unrecognised_eq_default {e : Environ} {env : String}
    (henv : requiresRealSecrets env=true) (f : Flag) (h : recognised (e f.var)=false) :
    f.read e env=f.default env ↔ f=.sharedBearerAuthEnabled ∨ f=.brokerTrustBasicAuth := by
  rw [Flag.read_unrecognised e env f h]
  cases f <;> simp [Flag.default, henv]

/-- A started service of a managed environment is secure exactly when `STRICT_SECRETS` is
spelled in a way the code knows, or every sentinel has been replaced. A spelling the code
does not know weakens every flag but the two conveniences of development. -/
theorem startup_fails_closed_iff (pyFloat : String → Option ℚ) (b : Backends) (e : Environ)
    (s : Settings) (h : getSettings pyFloat b e=.ok s) (hp : assertSecurePosture s=.ok ())
    (henv : isDevelopment (getenv e "ENV" "dev")=false) :
    (Secure e s ↔ recognised (e "STRICT_SECRETS")=true ∨ Replaced b e) ∧
    ∀ f : Flag, recognised (e f.var)=false →
      (f.read e s.env=f.default s.env ↔
        f=.sharedBearerAuthEnabled ∨ f=.brokerTrustBasicAuth) := by
  obtain ⟨hres, hcheck⟩ := getSettings_ok h
  have hse : s.env=getenv e "ENV" "dev" := resolve_frame Settings.env
    (fun _ _ secret => by cases secret <;> rfl) hres
  have hstrict : s.strictSecrets=Flag.strictSecrets.read e (getenv e "ENV" "dev") :=
    resolve_frame Settings.strictSecrets (fun _ _ secret => by cases secret <;> rfl) hres
  have hreal : requiresRealSecrets s.env=true := by simp [requiresRealSecrets, hse, henv]
  obtain ⟨hsent, hoidc, hbasic⟩ := checkManaged_ok (hcheck hreal)
  obtain ⟨hshared, hstrong⟩ := assertSecurePosture_ok hreal hp
  have hread := Flag.read_false_iff e (getenv e "ENV" "dev") .strictSecrets
    (default_strictSecrets (hse ▸ hreal))
  rw [hstrict, hread] at hsent
  have hvar : Flag.strictSecrets.var="STRICT_SECRETS" := rfl
  rw [hvar] at hsent
  rw [← live_eq_nil hres]
  refine ⟨⟨?_, ?_⟩, fun f hf => f.unrecognised_eq_default hreal hf⟩
  · intro hsec
    obtain ⟨-, -, -, -, hl | hf⟩ := hsec
    · exact .inr hl
    · left
      cases hv : e "STRICT_SECRETS" with
      | none => simp [hv, explicitFalse] at hf
      | some v =>
        rw [hv] at hf
        simpa [recognised] using .inr hf
  · intro hcond
    refine ⟨hshared, hbasic, hstrong, hoidc, ?_⟩
    obtain hrec | hl := hcond
    · obtain hl | hun | hf := hsent
      · exact .inl hl
      · rw [hrec] at hun
        cases hun
      · exact .inr hf
    · exact .inl hl

/-! A production service with everything set but the secrets. -/

def productionEnv (strictSecrets : Option String) : Environ := fun name =>
  if name="STRICT_SECRETS" then strictSecrets
  else [("ENV", "production"), ("OIDC_ISSUER_URL", "https://idp.test"),
    ("OIDC_AUDIENCE", "sovereign"), ("SECRETS_PROVIDER", "vault"),
    ("AUDIT_SIGNATURE_KEY_ID", "k1"), ("AUDIT_SIGNING_PRIVATE_KEY_PEM", "pem")].lookup name

def emptyBackends : Backends :=
  { secretsManager := fun _ => .ok none, parameterStore := fun _ => .ok none
    vault := fun _ => .ok none }

theorem startup_fails_closed_break_glass :
    getSettings (fun _ => none) emptyBackends (productionEnv (some "No"))=
      .ok (load (productionEnv (some "No"))) ∧
    ((Secure (productionEnv (some "No")) (load (productionEnv (some "No"))) ↔
        recognised (some "No")=true ∨ Replaced emptyBackends (productionEnv (some "No"))) ∧
      ∀ f : Flag, recognised (productionEnv (some "No") f.var)=false →
        (f.read (productionEnv (some "No")) "production"=f.default "production" ↔
          f=.sharedBearerAuthEnabled ∨ f=.brokerTrustBasicAuth)) := by
  have h : getSettings (fun _ => none) emptyBackends (productionEnv (some "No"))=
    .ok (load (productionEnv (some "No"))) := by decide +kernel
  exact ⟨h, startup_fails_closed_iff _ emptyBackends (productionEnv (some "No")) _ h
    (by decide +kernel) (by decide +kernel)⟩

/-- With `STRICT_SECRETS=on` the service starts on all four development secrets; without the
variable it does not start. -/
theorem misspelled_strict_secrets :
    getSettings (fun _ => none) emptyBackends (productionEnv (some "on"))=
      .ok (load (productionEnv (some "on"))) ∧
    assertSecurePosture (load (productionEnv (some "on")))=.ok () ∧
    isDevelopment "production"=false ∧
    live (load (productionEnv (some "on")))=
      ["dev_bearer_token", "dev_jwt_secret", "broker_password", "s3_secret_key"] ∧
    explicitFalse (some "on")=false ∧
    (getSettings (fun _ => none) emptyBackends (productionEnv none)).toOption=none := by
  decide +kernel

end Sovereign.Startup
