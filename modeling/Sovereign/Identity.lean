import Sovereign.Tenancy
import Sovereign.Text

/-! Caller resolution and the RBAC gate of the broker. Token verification is the
JWT library's: it is the parameter `decode`, from a token to its verified claims. -/
namespace Sovereign

structure HttpError where
  status : Nat
  detail : Json
deriving DecidableEq

structure Settings where
  brokerUsername : String := "broker"
  brokerPassword : String := "broker"
  brokerTrustBasicAuth : Bool := true
  reconcileBatchLimit : Int := 200

structure Claims where
  sub : Option String := none
  tid : Option String := none
  groups : List String := []
  amr : Option Json := none
  acr : Option Json := none
deriving DecidableEq

structure TokenUser where
  principal : String
  tenantId : Option String
  groups : List String
  raw : Claims
deriving DecidableEq

structure Caller where
  user : TokenUser
  isBasic : Bool
deriving DecidableEq

structure BasicCredentials where
  username : String
  password : String
deriving DecidableEq

def orElseStr (x : Option String) (y : String) : String :=
  match x with
  | none => y
  | some s => if s="" then y else s

theorem orElseStr_ne {s : String} (h : s≠"") (y : String) : orElseStr (some s) y=s := by
  simp [orElseStr, h]

def isBearer (h : String) : Bool :=
  "bearer ".toList.isPrefixOf (Text.lower h.toList)

/-- The `Authorization` header, and the Basic credentials parsed from it: there are
none when the scheme is another one. -/
structure AuthHeader where
  authorization : Option String := none
  creds : Option BasicCredentials := none
  scheme : isBearer (authorization.getD "")=true → creds=none := by decide

def bearerToken (h : String) : String :=
  String.ofList (Text.strip
    (Text.removePrefix "bearer ".toList (Text.removePrefix "Bearer ".toList h.toList)))

/-- `secrets.compare_digest` raises on strings that are not ASCII. -/
def compareDigest (a b : String) : Except HttpError Bool :=
  if a.toList.all (fun c => decide (c.toNat<128)) && b.toList.all (fun c => decide (c.toNat<128))
  then .ok (decide (a=b))
  else .error ⟨500, .str "strings with only ASCII characters are allowed"⟩

def unauthorized (detail : String) : HttpError := ⟨401, .str detail⟩

def basicCredentialsMatch (s : Settings) (creds : BasicCredentials) : Except HttpError Bool :=
  match compareDigest creds.username s.brokerUsername with
  | .error e => .error e
  | .ok false => .ok false
  | .ok true => compareDigest creds.password s.brokerPassword

def anonymousCaller : Caller :=
  { user := { principal := "anonymous", tenantId := none, groups := [], raw := {} }
    isBasic := true }

def identify (s : Settings) (decode : String → Except HttpError Claims) (auth : AuthHeader) :
    Except HttpError Caller :=
  let h := auth.authorization.getD ""
  if isBearer h then
    match decode (bearerToken h) with
    | .error e => .error e
    | .ok claims =>
      let sub := claims.sub.getD ""
      if sub="" then .error (unauthorized "token missing 'sub' claim")
      else .ok { user := { principal := sub, tenantId := claims.tid, groups := claims.groups,
                           raw := claims }, isBasic := false }
  else
    match auth.creds with
    -- no credentials at all: the caller is anonymous and carries the Basic flag
    | none => .ok anonymousCaller
    | some creds =>
      match basicCredentialsMatch s creds with
      | .error e => .error e
      | .ok false => .error (unauthorized "invalid credentials")
      | .ok true => .ok { user := { principal := "broker:" ++ creds.username, tenantId := none,
                                    groups := [], raw := {} }, isBasic := true }

def stateChangeIdentify (s : Settings) (decode : String → Except HttpError Claims)
    (auth : AuthHeader) : Except HttpError Caller :=
  match identify s decode auth with
  | .error e => .error e
  | .ok caller =>
    if caller.user.principal="anonymous" then .error (unauthorized "authentication required")
    else .ok caller

def resolveTenantId (caller : Caller) (reqTenantId : Option String) : String :=
  orElseStr reqTenantId (orElseStr caller.user.tenantId "default")

structure AuditRecord where
  action : String
  resource : String
  details : String := ""
  actor : String
  tenantId : String := "default"
  decision : String := "allow"
  metadata : List (String × Json) := []
deriving DecidableEq

/-- A gate emits audit events and either passes (`none`) or raises. -/
structure Gate where
  audits : List AuditRecord := []
  raised : Option HttpError := none

def Gate.andThen (g h : Gate) : Gate :=
  match g.raised with
  | some _ => g
  | none => { audits := g.audits++h.audits, raised := h.raised }

@[simp] theorem Gate.andThen_raised_none (g h : Gate) :
    (g.andThen h).raised=none ↔ g.raised=none ∧ h.raised=none := by
  cases hg : g.raised <;> simp [Gate.andThen, hg]

def Action.value : Action → String
  | .provision => "provision"
  | .deprovision => "deprovision"
  | .update => "update"
  | .bind => "bind"
  | .read => "read"
  | .readAudit => "read-audit"
  | .manageTenant => "manage-tenant"
  | .manageRoles => "manage-roles"
  | .manageQuotas => "manage-quotas"

def Role.value : Role → String
  | .platformAdmin => "platform-admin"
  | .agencyAdmin => "agency-admin"
  | .bureauAdmin => "bureau-admin"
  | .programTeam => "program-team"
  | .auditor => "auditor"

def authorizeError (d : Directory) (user : TokenUser) (tenantId : String) (action : Action) :
    HttpError :=
  ⟨403, .obj [("message", .str "principal lacks the role required for this action"),
    ("principal", .str user.principal), ("tenant_id", .str tenantId),
    ("action", .str action.value),
    ("roles_held", .arr
      ((Text.sortedSet ((d.effectiveRolesAt user.principal tenantId).map Role.value)).map .str))]⟩

def enforceRbac (s : Settings) (d : Directory) (caller : Caller) (tenantId : String)
    (action : Action) : Gate :=
  if caller.isBasic && s.brokerTrustBasicAuth then {}
  else if d.can caller.user.principal tenantId action then {}
  else
    { audits := [{ action := "rbac.denied", resource := action.value ++ ":" ++ tenantId
                   actor := caller.user.principal, tenantId, decision := "deny"
                   metadata := [("action", .str action.value),
                     ("groups", .arr (caller.user.groups.map .str))] }]
      raised := some (authorizeError d caller.user tenantId action) }

/-- The RBAC gate passes exactly for trusted Basic callers and permitted principals. -/
theorem enforceRbac_raised_none (s : Settings) (d : Directory) (caller : Caller)
    (tenantId : String) (action : Action) :
    (enforceRbac s d caller tenantId action).raised=none ↔
      (caller.isBasic=true ∧ s.brokerTrustBasicAuth=true) ∨
        d.can caller.user.principal tenantId action=true := by
  by_cases hb : (caller.isBasic && s.brokerTrustBasicAuth)=true
  · have hb' : caller.isBasic=true ∧ s.brokerTrustBasicAuth=true := by simpa using hb
    simp [enforceRbac, hb']
  · have hb' : ¬ (caller.isBasic=true ∧ s.brokerTrustBasicAuth=true) := by simpa using hb
    by_cases hc : d.can caller.user.principal tenantId action=true
    · simp [enforceRbac, hb, hc]
    · simp [enforceRbac, hb, hb', hc]

/-- A caller without the Basic flag has presented a bearer token that verified. -/
theorem identify_jwt {s : Settings} {decode : String → Except HttpError Claims}
    {auth : AuthHeader} {caller : Caller} (h : identify s decode auth=.ok caller)
    (hb : caller.isBasic=false) :
    ∃ header claims, auth.authorization=some header ∧ isBearer header=true ∧
      decode (bearerToken header)=.ok claims ∧ claims.sub=some caller.user.principal := by
  simp only [identify] at h
  split at h
  · next hbear =>
    cases ha : auth.authorization with
    | none => rw [ha] at hbear; exact absurd hbear (by decide)
    | some header =>
      simp only [ha, Option.getD_some] at h hbear
      cases hd : decode (bearerToken header) with
      | error e => simp [hd] at h
      | ok claims =>
        simp only [hd] at h
        split at h
        · exact absurd h (by simp)
        · next hsub =>
          simp only [Except.ok.injEq] at h
          subst h
          refine ⟨header, claims, rfl, hbear, hd, ?_⟩
          cases hc : claims.sub with
          | none => simp [hc] at hsub
          | some sub => rfl
  · split at h
    · simp only [Except.ok.injEq] at h
      subst h
      simp [anonymousCaller] at hb
    · split at h
      · exact absurd h (by simp)
      · exact absurd h (by simp)
      · simp only [Except.ok.injEq] at h
        subst h
        simp at hb

end Sovereign
