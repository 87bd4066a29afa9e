import Sovereign.Broker
import Sovereign.Mtls
import Sovereign.Startup

/-! Calls between the services: the headers a service sends and the dependency that accepts
or refuses them. Header values arrive as they were built. -/
namespace Sovereign.ServiceAuth
open Sovereign

def allowedWorkloadIdentities (raw : String) : List String := Packs.splitList raw

def workloadIdentityAllowed (identity : String) (allowed : List String) : Bool :=
  decide ("*"∈allowed ∨ identity∈allowed)

def workloadIdentityHeader : String := "X-Sovereign-Workload-Identity"

def xfccHeader : String := "X-Forwarded-Client-Cert"

def assertedWorkloadIdentity (s : Startup.Settings) : String :=
  if s.workloadIdentity="" then "spiffe://sovereign/" ++ s.serviceName else s.workloadIdentity

def serviceAuthHeaders (s : Startup.Settings) (traceparent : String) : List (String × String) :=
  (if s.workloadIdentityEnabled then [(workloadIdentityHeader, assertedWorkloadIdentity s)]
    else []) ++
  (if s.sharedBearerAuthEnabled then [("Authorization", "Bearer " ++ s.devBearerToken)] else []) ++
  [("traceparent", traceparent)]

def sameName (a b : String) : Bool := decide (Text.lower a.toList=Text.lower b.toList)

def header (headers : List (String × String)) (name : String) : Option String :=
  (headers.find? fun h => sameName h.1 name).map Prod.snd

def startsWithBearer (authorization : String) : Bool :=
  "Bearer ".toList.isPrefixOf authorization.toList

def presentedToken (authorization : String) : String :=
  String.ofList (Text.strip (Text.removePrefix "Bearer ".toList authorization.toList))

section Receive
variable (pyStr : Json → String) (verify : String → Option (List (String × Json)))
  (s : Startup.Settings)

def admitted (identity : String) : Except HttpError String :=
  if workloadIdentityAllowed identity (allowedWorkloadIdentities s.allowedWorkloadIdentities) then
    .ok identity
  else .error ⟨403, .str "workload identity is not allowed"⟩

/-- The subject of a token of the identity provider; `verify` is `none` where it raises. -/
def oidcSubject (token : String) : Except HttpError String :=
  match verify token with
  | none => .error ⟨401, .str "invalid or expired token"⟩
  | some claims =>
    if Broker.refreshedDrift.truthyMember "sub" claims then
      .ok (match Json.lookup "sub" claims with
        | some (.str sub) => sub
        | sub => pyStr (sub.getD .null))
    else .error ⟨401, .str "token missing 'sub' claim"⟩

def sharedBearer (authorization : Option String) : Except HttpError String :=
  if s.sharedBearerAuthEnabled then
    match authorization.filter startsWithBearer with
    | none => .error ⟨401, .str "missing bearer token"⟩
    | some h =>
      match compareDigest (presentedToken h) s.devBearerToken with
      | .error e => .error e
      | .ok false => .error ⟨403, .str "invalid token"⟩
      | .ok true => .ok "shared-bearer"
  else
    .error ⟨503, .str "shared bearer auth is disabled; configure workload identity"⟩

def requireBearer (headers : List (String × String)) : Except HttpError String :=
  let authorization := header headers "Authorization"
  if s.mtlsRequired then
    match Mtls.parseXfccIdentity (header headers xfccHeader) with
    | none => .error ⟨401, .str "mTLS client certificate required"⟩
    | some identity => admitted s identity
  else
    let asserted := ((header headers workloadIdentityHeader).filter fun i => decide (i≠"")).or
      (header headers "X-SPIFFE-ID")
    match asserted.filter fun i => s.workloadIdentityEnabled && decide (i≠"") with
    | some identity => admitted s identity
    | none =>
      if s.requireOidc || decide (s.oidcIssuerUrl≠"") then
        match authorization.filter startsWithBearer with
        | some h => oidcSubject pyStr verify (presentedToken h)
        | none =>
          if s.requireOidc then .error ⟨401, .str "OIDC bearer token required"⟩
          else sharedBearer s authorization
      else sharedBearer s authorization

end Receive

theorem mem_splitOnP_intercalate {item : String} {items : List String} (hm : item∈items)
    (hcomma : ','∉item.toList) :
    item.toList∈(",".intercalate items).toList.splitOnP (· == ',') := by
  have hself : item.toList.splitOnP (· == ',')=[item.toList] :=
    List.splitOnP_eq_singleton fun c hc => by
      simpa using fun he : c = ',' => hcomma (he ▸ hc)
  induction items with
  | nil => cases hm
  | cons first rest ih =>
    by_cases hrest : rest=[]
    · subst hrest
      rw [String.intercalate_singleton, ← List.mem_singleton.mp hm, hself]
      exact List.mem_singleton.mpr rfl
    · have hsplit : (",".intercalate (first::rest)).toList=
          first.toList ++ ','::(",".intercalate rest).toList := by
        rw [String.intercalate_cons_of_ne_nil hrest]
        simp
      rw [hsplit, List.splitOnP_append_cons _ _ (by simp), List.mem_append]
      cases List.mem_cons.mp hm with
      | inl h =>
        rw [← h, hself]
        exact .inl (List.mem_singleton.mpr rfl)
      | inr h => exact .inr (ih h)

/-- The list names the identity, with or without blanks around it. -/
def Listed (raw identity : String) : Prop :=
  ∃ items, raw=",".intercalate items ∧ ∃ item∈items, Text.strip item.toList=identity.toList

theorem Listed.mem_allowed {raw identity : String} (h : Listed raw identity)
    (hcomma : ','∉identity.toList) (hne : identity≠"") :
    identity∈allowedWorkloadIdentities raw := by
  obtain ⟨items, rfl, item, hm, hstrip⟩ := h
  have hplain : ','∉item.toList := by
    intro hc
    exact hcomma (hstrip ▸ Mtls.mem_strip hc (by decide))
  unfold allowedWorkloadIdentities Packs.splitList
  refine List.mem_filterMap.mpr ⟨identity.toList, ?_, ?_⟩
  · exact List.mem_map.mpr ⟨item.toList, mem_splitOnP_intercalate hm hplain, hstrip⟩
  · simp [hne]

section Headers
variable (s : Startup.Settings) (traceparent : String) (xfcc : Option String)

def request : List (String × String) :=
  serviceAuthHeaders s traceparent ++ (xfcc.map fun h => (xfccHeader, h)).toList

theorem header_append (a b : List (String × String)) (name : String) :
    header (a++b) name=(header a name).or (header b name) := by
  unfold header
  rw [List.find?_append]
  cases a.find? fun h => sameName h.1 name <;> rfl

theorem header_single (k v name : String) :
    header [(k, v)] name=if sameName k name then some v else none := by
  unfold header
  cases h : sameName k name <;> simp [h]

theorem header_nil (name : String) : header [] name=none := rfl

def names : List String :=
  [workloadIdentityHeader, "Authorization", "traceparent", xfccHeader, "X-SPIFFE-ID"]

theorem sameName_names : ∀ a∈names, ∀ b∈names, sameName a b=decide (a=b) := by decide +kernel

theorem header_request {name : String} (hn : name∈names) :
    header (request s traceparent xfcc) name=
      (((if s.workloadIdentityEnabled && decide (workloadIdentityHeader=name) then
          some (assertedWorkloadIdentity s) else none).or
        (if s.sharedBearerAuthEnabled && decide ("Authorization"=name) then
          some ("Bearer " ++ s.devBearerToken) else none)).or
        (if "traceparent"=name then some traceparent else none)).or
        (if xfccHeader=name then xfcc else none) := by
  have hsame : ∀ a∈names, sameName a name=decide (a=name) := fun a ha =>
    sameName_names a ha name hn
  have hw := hsame workloadIdentityHeader (by simp [names])
  have ha := hsame "Authorization" (by simp [names])
  have ht := hsame "traceparent" (by simp [names])
  have hx := hsame xfccHeader (by simp [names])
  unfold request serviceAuthHeaders
  rw [header_append, header_append, header_append]
  congr 1
  · congr 1
    · congr 1
      · cases s.workloadIdentityEnabled <;> simp [header_single, header_nil, hw]
      · cases s.sharedBearerAuthEnabled <;> simp [header_single, header_nil, ha]
    · simp [header_single, ht]
  · cases xfcc <;> simp [header_single, header_nil, hx]

theorem header_authorization :
    header (request s traceparent xfcc) "Authorization"=
      if s.sharedBearerAuthEnabled then some ("Bearer " ++ s.devBearerToken) else none := by
  rw [header_request s traceparent xfcc (by simp [names])]
  simp [workloadIdentityHeader, xfccHeader]

theorem header_workloadIdentity :
    header (request s traceparent xfcc) workloadIdentityHeader=
      if s.workloadIdentityEnabled then some (assertedWorkloadIdentity s) else none := by
  rw [header_request s traceparent xfcc (by simp [names])]
  simp [workloadIdentityHeader, xfccHeader]

theorem header_spiffeId : header (request s traceparent xfcc) "X-SPIFFE-ID"=none := by
  rw [header_request s traceparent xfcc (by simp [names])]
  simp [workloadIdentityHeader, xfccHeader]

theorem header_xfcc : header (request s traceparent xfcc) xfccHeader=xfcc := by
  rw [header_request s traceparent xfcc (by simp [names])]
  simp [workloadIdentityHeader, xfccHeader]

end Headers

theorem presentedToken_bearer (token : String) :
    presentedToken ("Bearer " ++ token)=String.ofList (Text.strip token.toList) := by
  have hpre : "Bearer ".toList.isPrefixOf ("Bearer ".toList++token.toList)=true :=
    List.isPrefixOf_iff_prefix.mpr (List.prefix_append ..)
  unfold presentedToken Text.removePrefix
  rw [String.toList_append, if_pos hpre, List.drop_left]

theorem startsWithBearer_bearer (token : String) : startsWithBearer ("Bearer " ++ token)=true := by
  unfold startsWithBearer
  rw [String.toList_append]
  exact List.isPrefixOf_iff_prefix.mpr (List.prefix_append ..)

def ascii (s : String) : Bool := s.toList.all fun c => decide (c.toNat<128)

theorem assertedWorkloadIdentity_ne (s : Startup.Settings) : assertedWorkloadIdentity s≠"" := by
  unfold assertedWorkloadIdentity
  split
  · intro h
    have hlen := congrArg String.length h
    simp at hlen
  · assumption

section Accept
variable (pyStr : Json → String) (verify : String → Option (List (String × Json)))
  {s : Startup.Settings}

/-- The shared token alone convinces a receiver: it is compared without blanks around it, or
handed to the identity provider where an issuer is set. -/
def TokenServes (s : Startup.Settings) : Prop :=
  if s.oidcIssuerUrl="" then
    ascii s.devBearerToken=true ∧ Text.strip s.devBearerToken.toList=s.devBearerToken.toList
  else
    ∃ claims, verify (String.ofList (Text.strip s.devBearerToken.toList))=some claims ∧
      Broker.refreshedDrift.truthyMember "sub" claims=true

theorem oidcSubject_isOk (token : String) :
    (oidcSubject pyStr verify token).isOk=true ↔
      ∃ claims, verify token=some claims ∧
        Broker.refreshedDrift.truthyMember "sub" claims=true := by
  unfold oidcSubject
  cases hv : verify token with
  | none => simp [Except.isOk, Except.toBool]
  | some claims =>
    cases ht : Broker.refreshedDrift.truthyMember "sub" claims <;>
      simp [ht, Except.isOk, Except.toBool]

theorem mem_of_mem_strip {v : List Char} {c : Char} (h : c∈Text.strip v) : c∈v := by
  unfold Text.strip at h
  have h1 := (List.dropWhile_sublist Text.isSpace).mem (List.mem_reverse.mp h)
  exact (List.dropWhile_sublist Text.isSpace).mem (List.mem_reverse.mp h1)

/-- The shared token is compared without the blanks around it. -/
theorem sharedBearer_isOk (hs : s.sharedBearerAuthEnabled=true) :
    (sharedBearer s (some ("Bearer " ++ s.devBearerToken))).isOk=true ↔
      ascii s.devBearerToken=true ∧
        Text.strip s.devBearerToken.toList=s.devBearerToken.toList := by
  unfold sharedBearer
  rw [if_pos hs, Option.filter_some_pos (startsWithBearer_bearer _)]
  simp only [presentedToken_bearer, compareDigest]
  cases ha : ascii s.devBearerToken with
  | false =>
    have ha' : s.devBearerToken.toList.all (fun c => decide (c.toNat<128))=false := ha
    rw [ha', Bool.and_false]
    simp [Except.isOk, Except.toBool]
  | true =>
    have ha' : s.devBearerToken.toList.all (fun c => decide (c.toNat<128))=true := ha
    have hstrip : (String.ofList (Text.strip s.devBearerToken.toList)).toList.all
        (fun c => decide (c.toNat<128))=true := by
      rw [String.toList_ofList, List.all_eq_true]
      intro c hc
      exact List.all_eq_true.mp ha' c (mem_of_mem_strip hc)
    rw [ha', hstrip]
    by_cases he : Text.strip s.devBearerToken.toList=s.devBearerToken.toList
    · simp [he, Except.isOk, Except.toBool]
    · have hne : String.ofList (Text.strip s.devBearerToken.toList)≠s.devBearerToken := by
        intro h
        apply he
        rw [← String.toList_ofList (l := Text.strip s.devBearerToken.toList), h]
      simp [he, hne, Except.isOk, Except.toBool]

theorem admitted_isOk {identity : String}
    (h : identity∈allowedWorkloadIdentities s.allowedWorkloadIdentities) :
    (admitted s identity).isOk=true := by
  have hallowed : workloadIdentityAllowed identity
      (allowedWorkloadIdentities s.allowedWorkloadIdentities)=true := by
    simp [workloadIdentityAllowed, h]
  rw [admitted, if_pos hallowed]
  rfl

/-- The asserted identity does not come through unless both sides go by workload identity. -/
theorem identity_withheld {sender receiver : Startup.Settings}
    (h : ¬(sender.workloadIdentityEnabled=true ∧ receiver.workloadIdentityEnabled=true)) :
    ((if sender.workloadIdentityEnabled then some (assertedWorkloadIdentity sender)
      else none).filter fun i => decide (i≠"")).filter
        (fun i => receiver.workloadIdentityEnabled && decide (i≠""))=none := by
  cases hs : sender.workloadIdentityEnabled with
  | false => rfl
  | true =>
    have hr : receiver.workloadIdentityEnabled=false := by simpa [hs] using h
    rw [Option.filter_eq_none_iff]
    simp [hr]

/-- Under these settings a request is accepted exactly when the receiver goes by the
mesh, both sides go by workload identity, or the shared token serves. -/
theorem service_auth_symmetric_iff (sender receiver : Startup.Settings) (traceparent : String)
    (xfcc : Option String)
    (htoken : sender.devBearerToken=receiver.devBearerToken)
    (hcomma : ','∉(assertedWorkloadIdentity sender).toList)
    (hlisted : Listed receiver.allowedWorkloadIdentities (assertedWorkloadIdentity sender))
    (hmode : sender.workloadIdentityEnabled=true ∧ receiver.workloadIdentityEnabled=true ∨
      sender.sharedBearerAuthEnabled=true ∧ receiver.sharedBearerAuthEnabled=true)
    (hmesh : receiver.mtlsRequired=true →
      ∃ h, xfcc=some h ∧ Mtls.Carries h (assertedWorkloadIdentity sender))
    (hoidc : receiver.requireOidc=false) :
    (requireBearer pyStr verify receiver (request sender traceparent xfcc)).isOk=true ↔
      receiver.mtlsRequired=true ∨
      sender.workloadIdentityEnabled=true ∧ receiver.workloadIdentityEnabled=true ∨
      TokenServes verify receiver := by
  have hne := assertedWorkloadIdentity_ne sender
  have hallowed := hlisted.mem_allowed hcomma hne
  unfold requireBearer
  simp only [header_authorization, header_workloadIdentity, header_spiffeId, header_xfcc,
    Option.or_none, hoidc, Bool.false_or]
  cases hmtls : receiver.mtlsRequired with
  | true =>
    obtain ⟨h, rfl, hcarries⟩ := hmesh hmtls
    simp [Mtls.parse_carries hcarries hne, admitted_isOk hallowed]
  | false =>
    by_cases hwi : sender.workloadIdentityEnabled=true ∧ receiver.workloadIdentityEnabled=true
    · simp [hwi, hne, Option.filter, admitted_isOk hallowed]
    · obtain ⟨hsender, hreceiver⟩ := hmode.resolve_left hwi
      simp only [Bool.false_eq_true, if_false, identity_withheld hwi, hsender, if_true, hwi,
        false_or]
      unfold TokenServes
      rw [htoken]
      by_cases hissuer : receiver.oidcIssuerUrl=""
      · simp only [hissuer, ne_eq, not_true_eq_false, decide_false, Bool.false_eq_true, if_false,
          if_true]
        exact sharedBearer_isOk hreceiver
      · simp only [hissuer, ne_eq, not_false_eq_true, decide_true, if_true, if_false,
          Option.filter_some_pos (startsWithBearer_bearer receiver.devBearerToken),
          presentedToken_bearer]
        exact oidcSubject_isOk pyStr verify _

end Accept

/-! A pair of services that share the development token. -/

def sharedPair (oidcIssuerUrl : String) : Startup.Settings :=
  { Startup.load (fun name => [("SERVICE_NAME", "broker"), ("OIDC_ISSUER_URL", oidcIssuerUrl),
      ("ALLOWED_WORKLOAD_IDENTITIES", "spiffe://sovereign/broker")].lookup name) with
    requireOidc := false }

theorem service_auth_symmetric_shared :
    (requireBearer (fun _ => "") (fun _ => none) (sharedPair "") (request (sharedPair "") "tp"
        none)).isOk=true ↔
      (sharedPair "").mtlsRequired=true ∨ (sharedPair "").workloadIdentityEnabled=true ∧
        (sharedPair "").workloadIdentityEnabled=true ∨
      TokenServes (fun _ => none) (sharedPair "") :=
  service_auth_symmetric_iff (fun _ => "") (fun _ => none) (sharedPair "") (sharedPair "") "tp"
    none rfl (by decide +kernel)
    ⟨["spiffe://sovereign/broker"], by decide +kernel, _, List.mem_singleton.mpr rfl,
      by decide +kernel⟩
    (.inr (by decide +kernel)) (fun h => absurd h (by decide +kernel)) rfl

/-- With an issuer set the shared token goes to the identity provider, which does not know
it: the receiver answers 401 to the headers it would itself send. -/
theorem shared_token_to_issuer :
    (sharedPair "https://idp.test").requireOidc=false ∧
    (sharedPair "https://idp.test").sharedBearerAuthEnabled=true ∧
    assertedWorkloadIdentity (sharedPair "https://idp.test")=
      (sharedPair "https://idp.test").allowedWorkloadIdentities ∧
    requireBearer (fun _ => "") (fun _ => none) (sharedPair "https://idp.test")
      (request (sharedPair "https://idp.test") "tp" none)=
        .error ⟨401, .str "invalid or expired token"⟩ := by
  decide +kernel

end Sovereign.ServiceAuth
