import Sovereign.Base64
import Sovereign.JsonScan
import Sovereign.Text
import Sovereign.Trace
import Sovereign.Utf8
import Mathlib.Data.Rat.Floor

/-! Sign-in at the portal: the authorization code flow with PKCE. What a login has to remember
is kept in the session storage while the browser is away; calls wait for the network in between,
and other calls come in the meantime. -/
namespace Sovereign.Portal
open Sovereign

inductive LoginError where
  | error (message : String)
  | engine
deriving DecidableEq

inductive AuthKind where
  | bearer
  | basic
deriving DecidableEq

structure StoredAuth where
  type : AuthKind
  value : String
  label : String
deriving DecidableEq

structure OidcConfig where
  issuerUrl : String
  clientId : String
  audience : Option String := none
  redirectUri : String
  authorizationEndpoint : Option String := none
  tokenEndpoint : Option String := none

structure PendingOidc where
  codeVerifier : String
  nonce : String
  state : String
deriving DecidableEq

structure OidcMetadata where
  authorizationEndpoint : String
  tokenEndpoint : String

structure TokenResponse where
  accessToken : Option String
  idToken : Option String

/-- An operand of `||` or `&&`: empty text counts as absent. -/
def truthy (o : Option String) : Option String := o.filter fun s => decide (s≠"")

def urlLetter (c : Char) : Char := if c= '+' then '-' else if c= '/' then '_' else c

def plainLetter (c : Char) : Char := if c= '-' then '+' else if c= '_' then '/' else c

def base64Url (data : List UInt8) : String :=
  String.ofList (((Base64.btoa data).map urlLetter).filter fun c => decide (c ≠ '='))

/-- The result is a binary string. -/
def decodeBase64Url (input : List Char) : Option (List Char) :=
  let padded := input.map plainLetter ++
    List.replicate ((input.length+3)/4*4-input.length) '='
  (Base64.atob padded).map fun data => data.map fun b => Char.ofNat b.toNat

def decodeJwtPayload (numbers : JsonText.Numbers) (token : String) : Except LoginError Json :=
  match token.toList.splitOn '.' with
  | _::payload::_ =>
    if payload=[] then .error (.error "OIDC token is malformed")
    else match (decodeBase64Url payload).bind (JsonText.loads numbers) with
      | none => .error .engine
      | some claims => .ok claims
  | _ => .error (.error "OIDC token is malformed")

inductive DiscoveryReply where
  | raised
  | refused (status : Nat)
  | found (authorizationEndpoint tokenEndpoint : Option String)

inductive TokenReply where
  | raised
  | refused (status : Nat)
  | granted (response : TokenResponse)

/-- With both endpoints configured nothing is asked, and the reply is not looked at. -/
def oidcMetadata (config : OidcConfig) (reply : DiscoveryReply) : Except LoginError OidcMetadata :=
  match truthy config.authorizationEndpoint, truthy config.tokenEndpoint with
  | some authorizationEndpoint, some tokenEndpoint => .ok { authorizationEndpoint, tokenEndpoint }
  | configured, configured' =>
    match reply with
    | .raised => .error .engine
    | .refused status => .error (.error ("OIDC discovery failed: " ++ toString status))
    | .found authorizationEndpoint tokenEndpoint =>
      match configured.or (truthy authorizationEndpoint), configured'.or (truthy tokenEndpoint) with
      | some authorizationEndpoint, some tokenEndpoint =>
        .ok { authorizationEndpoint, tokenEndpoint }
      | _, _ => .error
        (.error "OIDC discovery is missing authorization_endpoint or token_endpoint")

def authorizationParams (config : OidcConfig) (challenge nonce state : String) :
    List (String × String) :=
  [("response_type", "code"), ("client_id", config.clientId),
    ("redirect_uri", config.redirectUri), ("scope", "openid profile email"),
    ("code_challenge", challenge), ("code_challenge_method", "S256"), ("nonce", nonce),
    ("state", state)] ++ ((truthy config.audience).map fun a => ("audience", a)).toList

def exchangeBody (config : OidcConfig) (code codeVerifier : String) : List (String × String) :=
  [("grant_type", "authorization_code"), ("client_id", config.clientId), ("code", code),
    ("redirect_uri", config.redirectUri), ("code_verifier", codeVerifier)] ++
    ((truthy config.audience).map fun a => ("audience", a)).toList

/-! `completeOidcLogin`, up to its first `await` and behind its last one. -/

/-- The pairs of the query, or of the fragment where there is no query. -/
abbrev Params := List (String × String)

def checkCallback (pending : Option PendingOidc) (params : Params) :
    Except LoginError (String × PendingOidc) :=
  match truthy (params.lookup "error") with
  | some error => .error (.error ("OIDC login failed: " ++ error))
  | none =>
    match truthy (params.lookup "code"), truthy (params.lookup "state") with
    | some code, some state =>
      match pending with
      | none => .error (.error "Missing OIDC login state")
      | some pending =>
        if state≠pending.state then .error (.error "OIDC state mismatch") else .ok (code, pending)
    | _, _ => .error (.error "OIDC callback is missing code or state")

/-- `claims.name`: of members of one name the last one counts. -/
def claim (name : String) : Json → Option Json
  | .obj members => Json.lookup name members.reverse
  | _ => none

def audiences : Option Json → List Json
  | some (.arr items) => items
  | some x => [x]
  | none => []

/-- `now` is in milliseconds. -/
def expired (now : Int) : Option Json → Bool
  | some (.num exp) => decide (exp ≤ ((now/1000 : Int) : ℚ))
  | _ => false

def checkClaims (config : OidcConfig) (pending : PendingOidc) (now : Int) (claims : Json) :
    Except LoginError Unit :=
  if claims=.null then .error .engine
  else if claim "iss" claims≠some (.str config.issuerUrl) then
    .error (.error "OIDC issuer mismatch")
  else if Json.str config.clientId∉audiences (claim "aud" claims) then
    .error (.error "OIDC audience mismatch")
  else if claim "nonce" claims≠some (.str pending.nonce) then .error (.error "OIDC nonce mismatch")
  else if expired now (claim "exp" claims) then .error (.error "OIDC token is expired")
  else .ok ()

def textClaim (name : String) (claims : Json) : Option String :=
  match claim name claims with
  | some (.str s) => truthy (some s)
  | _ => none

def labelOf (claims : Json) : String :=
  ((((textClaim "email" claims).or (textClaim "preferred_username" claims)).or
    (textClaim "sub" claims)).getD "oidc user")

def finishLogin (numbers : JsonText.Numbers) (config : OidcConfig) (pending : PendingOidc)
    (reply : TokenReply) (now : Int) : Except LoginError StoredAuth :=
  match reply with
  | .raised => .error .engine
  | .refused status => .error (.error ("OIDC token exchange failed: " ++ toString status))
  | .granted response =>
    match truthy response.idToken with
    | none => .error (.error "OIDC token response is missing id_token")
    | some idToken => do
      let claims ← decodeJwtPayload numbers idToken
      checkClaims config pending now claims
      return { type := .bearer, value := (truthy response.accessToken).getD idToken,
               label := labelOf claims }

inductive Task where
  | discovering
  | digesting (metadata : OidcMetadata) (codeVerifier : String)
  | completing (code : String) (pending : PendingOidc)
  | exchanging (code : String) (pending : PendingOidc)

structure Session where
  pending : Option PendingOidc := none
  auth : Option StoredAuth := none
  tasks : List (Nat × Task) := []
  next : Nat := 0

/-- What happens: the user signs in or out, the browser comes back with parameters, an answer
comes for a call, with what is drawn then, the page is left, or the browser tells of a change of
the storage, which is read again. -/
inductive Event where
  | beginLogin
  | callback (params : Params)
  | discovered (id : Nat) (reply : DiscoveryReply) (codeVerifier : List UInt8)
  | digested (id : Nat) (nonce state : List UInt8)
  | exchanged (id : Nat) (reply : TokenReply) (now : Int)
  | unload
  | login (cred : StoredAuth)
  | logout
  | storage

inductive Output where
  | navigate (endpoint : String) (params : List (String × String))
  | exchange (endpoint : String) (body : List (String × String))
  | loggedIn (auth : StoredAuth)
  | rejected (error : LoginError)

/-- How the portal is built: its configuration, the digest of PKCE, numbers in JSON. -/
structure Site where
  config : Option OidcConfig
  challenge : String → String
  numbers : JsonText.Numbers

def Session.wait (s : Session) (t : Task) : Session :=
  { s with tasks := s.tasks ++ [(s.next, t)], next := s.next+1 }

def Session.resume (s : Session) (id : Nat) : Session :=
  { s with tasks := s.tasks.filter fun p => decide (p.1≠id) }

def Session.task (s : Session) (id : Nat) : Option Task := s.tasks.lookup id

section Step
variable (site : Site) (config : OidcConfig) (s : Session)

def onDiscovered (id : Nat) (reply : DiscoveryReply) (codeVerifier : List UInt8) :
    Session × List Output :=
  match s.task id with
  | some .discovering =>
    match oidcMetadata config reply with
    | .error e => (s.resume id, [.rejected e])
    | .ok metadata => ((s.resume id).wait (.digesting metadata (base64Url codeVerifier)), [])
  | some (.completing code pending) =>
    match oidcMetadata config reply with
    | .error e => (s.resume id, [.rejected e])
    | .ok metadata => ((s.resume id).wait (.exchanging code pending),
      [.exchange metadata.tokenEndpoint (exchangeBody config code pending.codeVerifier)])
  | _ => (s, [])

def onDigested (id : Nat) (nonce state : List UInt8) : Session × List Output :=
  match s.task id with
  | some (.digesting metadata codeVerifier) =>
    ({ s.resume id with
        pending := some { codeVerifier, nonce := base64Url nonce, state := base64Url state } },
      [.navigate metadata.authorizationEndpoint (authorizationParams config
        (site.challenge codeVerifier) (base64Url nonce) (base64Url state))])
  | _ => (s, [])

def onExchanged (id : Nat) (reply : TokenReply) (now : Int) : Session × List Output :=
  match s.task id with
  | some (.exchanging _ pending) =>
    match finishLogin site.numbers config pending reply now with
    | .error e => (s.resume id, [.rejected e])
    | .ok auth => ({ s.resume id with pending := none, auth := some auth }, [.loggedIn auth])
  | _ => (s, [])

def configured : Event → Session × List Output
  | .beginLogin => (s.wait .discovering, [])
  | .callback params =>
    match checkCallback s.pending params with
    | .error e => (s, [.rejected e])
    | .ok (code, pending) => (s.wait (.completing code pending), [])
  | .discovered id reply codeVerifier => onDiscovered config s id reply codeVerifier
  | .digested id nonce state => onDigested site config s id nonce state
  | .exchanged id reply now => onExchanged site config s id reply now
  | .unload => ({ s with tasks := [] }, [])
  | .login cred => ({ s with auth := some cred }, [])
  | .logout => ({ s with auth := none }, [])
  | .storage => (s, [])

/-- Without a configuration no call gets as far as to wait. -/
def handle (e : Event) : Session × List Output :=
  match site.config, e with
  | some config, e => configured site config s e
  | none, .beginLogin => (s, [.rejected (.error "OIDC is not configured")])
  | none, .callback _ => (s, [.rejected (.error "OIDC is not configured")])
  | none, .login cred => ({ s with auth := some cred }, [])
  | none, .logout => ({ s with auth := none }, [])
  | none, _ => (s, [])

def step (e : Event) : Session := (handle site s e).1

def out (e : Event) : List Output := (handle site s e).2

end Step

section Events
variable (site : Site) (s : Session)

def began : Event → Option PendingOidc
  | .digested id nonce state =>
    match s.task id with
    | some (.digesting _ codeVerifier) =>
      some { codeVerifier, nonce := base64Url nonce, state := base64Url state }
    | _ => none
  | _ => none

def called : Event → Option (String × PendingOidc)
  | .callback params => (checkCallback s.pending params).toOption
  | _ => none

def completed : Event → Option PendingOidc
  | .exchanged id reply now =>
    match site.config, s.task id with
    | some config, some (.exchanging _ pending) =>
      if (finishLogin site.numbers config pending reply now).isOk then some pending else none
    | _, _ => none
  | _ => none

end Events

inductive Happens (site : Site) (s : Session) : Event → Session × List Output → Prop where
  | quiet {e : Event} {next : Session × List Output} (pending : next.1.pending=s.pending)
    (auth : ∀ cred, next.1.auth=some cred → s.auth=some cred ∨ e=.login cred)
    (tasks : ∀ p∈next.1.tasks, p∈s.tasks ∨ p.2=.discovering ∨ ∃ m v, p.2=.digesting m v)
    (outputs : ∀ o∈next.2, ∃ e, o=.rejected e) : Happens site s e next
  | called {params : Params} {code : String} {p : PendingOidc}
    (h : checkCallback s.pending params=.ok (code, p)) :
    Happens site s (.callback params) (s.wait (.completing code p), [])
  | sent {config : OidcConfig} {id : Nat} {reply : DiscoveryReply} {random : List UInt8}
    {code : String} {p : PendingOidc} {endpoint : String} (config_eq : site.config=some config)
    (task : s.task id=some (.completing code p)) :
    Happens site s (.discovered id reply random) ((s.resume id).wait (.exchanging code p),
      [.exchange endpoint (exchangeBody config code p.codeVerifier)])
  | began {id : Nat} {nonce state : List UInt8} {p : PendingOidc} {endpoint : String}
    {params : List (String × String)} (h : began s (.digested id nonce state)=some p) :
    Happens site s (.digested id nonce state)
      ({ s.resume id with pending := some p }, [.navigate endpoint params])
  | accepted {config : OidcConfig} {id : Nat} {reply : TokenReply} {now : Int} {code : String}
    {p : PendingOidc} {auth : StoredAuth} (config_eq : site.config=some config)
    (task : s.task id=some (.exchanging code p))
    (h : finishLogin site.numbers config p reply now=.ok auth) :
    Happens site s (.exchanged id reply now)
      ({ s.resume id with pending := none, auth := some auth }, [.loggedIn auth])

section Steps
variable {site : Site} {s : Session}

theorem mem_of_task {id : Nat} {t : Task} (h : s.task id=some t) : (id, t)∈s.tasks := by
  obtain ⟨before, after, he, _⟩ := List.lookup_eq_some_iff.mp h
  rw [he]
  exact List.mem_append_right _ List.mem_cons_self

theorem mem_of_resume {id : Nat} {p : Nat × Task} (h : p∈(s.resume id).tasks) : p∈s.tasks :=
  List.mem_of_mem_filter h

theorem mem_wait {t : Task} {p : Nat × Task} :
    p∈(s.wait t).tasks ↔ p∈s.tasks ∨ p=(s.next, t) := by
  rw [Session.wait, List.mem_append, List.mem_singleton]

theorem Happens.rejected (s : Session) (e : Event) (t : Session) (hp : t.pending=s.pending)
    (ha : t.auth=s.auth) (ht : ∀ p∈t.tasks, p∈s.tasks) (error : LoginError) :
    Happens site s e (t, [.rejected error]) :=
  .quiet hp (fun _ h => .inl (ha ▸ h)) (fun p h => .inl (ht p h))
    fun _ ho => ⟨error, List.mem_singleton.mp ho⟩

theorem Happens.nothing (s : Session) (e : Event) (t : Session) (hp : t.pending=s.pending)
    (ha : ∀ cred, t.auth=some cred → s.auth=some cred ∨ e=.login cred)
    (ht : ∀ p∈t.tasks, p∈s.tasks) : Happens site s e (t, []) :=
  .quiet hp ha (fun p h => .inl (ht p h)) fun _ ho => by cases ho

theorem Happens.early (s : Session) (e : Event) (t : Session) (hp : t.pending=s.pending)
    (ha : t.auth=s.auth) {x : Task} (hx : x=.discovering ∨ ∃ m v, x=.digesting m v)
    (ht : ∀ p∈t.tasks, p∈s.tasks) : Happens site s e (t.wait x, []) := by
  refine .quiet hp (fun _ h => .inl (ha ▸ h)) (fun p h => ?_) fun _ ho => by cases ho
  obtain h | rfl := mem_wait.mp h
  · exact .inl (ht p h)
  · exact .inr hx

variable (site s) in
theorem happens (e : Event) : Happens site s e (handle site s e) := by
  cases hc : site.config with
  | none =>
    cases e with
    | beginLogin =>
      simp only [handle, hc]
      exact .rejected s _ s rfl rfl (fun _ h => h) _
    | callback params =>
      simp only [handle, hc]
      exact .rejected s _ s rfl rfl (fun _ h => h) _
    | login cred =>
      simp only [handle, hc]
      refine .nothing s _ _ rfl (fun c h => .inr ?_) fun _ h => h
      rw [Option.some.inj h]
    | logout =>
      simp only [handle, hc]
      exact .nothing s _ _ rfl (fun c h => by cases h) fun _ h => h
    | _ =>
      simp only [handle, hc]
      exact .nothing s _ s rfl (fun _ h => .inl h) fun _ h => h
  | some config =>
    simp only [handle, hc]
    cases e with
    | beginLogin => exact .early s _ s rfl rfl (.inl rfl) fun _ h => h
    | callback params =>
      simp only [configured]
      split
      · exact .rejected s _ s rfl rfl (fun _ h => h) _
      · next hcheck => exact .called hcheck
    | discovered id reply random =>
      simp only [configured, onDiscovered]
      split
      · split
        · exact .rejected s _ (s.resume id) rfl rfl (fun _ => mem_of_resume) _
        · exact .early s _ (s.resume id) rfl rfl (.inr ⟨_, _, rfl⟩) fun _ => mem_of_resume
      · next htask =>
        split
        · exact .rejected s _ (s.resume id) rfl rfl (fun _ => mem_of_resume) _
        · exact .sent hc htask
      · exact .nothing s _ s rfl (fun _ h => .inl h) fun _ h => h
    | digested id nonce state =>
      simp only [configured, onDigested]
      split
      · next htask => exact .began (by rw [Portal.began, htask])
      · exact .nothing s _ s rfl (fun _ h => .inl h) fun _ h => h
    | exchanged id reply now =>
      simp only [configured, onExchanged]
      split
      · next htask =>
        split
        · exact .rejected s _ (s.resume id) rfl rfl (fun _ => mem_of_resume) _
        · next hfinish => exact .accepted hc htask hfinish
      · exact .nothing s _ s rfl (fun _ h => .inl h) fun _ h => h
    | unload => exact .nothing s _ _ rfl (fun _ h => .inl h) fun p h => by cases h
    | login cred =>
      refine .nothing s _ _ rfl (fun c h => .inr ?_) fun _ h => h
      rw [Option.some.inj h]
    | logout => exact .nothing s _ _ rfl (fun c h => by cases h) fun _ h => h
    | storage => exact .nothing s _ s rfl (fun _ h => .inl h) fun _ h => h

end Steps

theorem checkCallback_ok {pending : Option PendingOidc} {params : Params} {code : String}
    {p : PendingOidc} : checkCallback pending params=.ok (code, p) ↔
      truthy (params.lookup "error")=none ∧ truthy (params.lookup "code")=some code ∧
        truthy (params.lookup "state")=some p.state ∧ pending=some p := by
  simp only [checkCallback]
  constructor
  · intro h
    split at h
    · cases h
    · next herror =>
      split at h
      · next hcode hstate =>
        split at h
        · cases h
        · split at h
          · cases h
          · next hne =>
            cases h
            rw [not_not] at hne
            exact ⟨herror, hcode, hne ▸ hstate, rfl⟩
      · cases h
  · rintro ⟨herror, hcode, hstate, rfl⟩
    simp [herror, hcode, hstate]

/-- The token is for this portal and this login, by the issuer, and still good. -/
structure Vouches (config : OidcConfig) (p : PendingOidc) (now : Int) (claims : Json) : Prop where
  issuer : claim "iss" claims=some (.str config.issuerUrl)
  audience : Json.str config.clientId∈audiences (claim "aud" claims)
  nonce : claim "nonce" claims=some (.str p.nonce)
  fresh : expired now (claim "exp" claims)=false

theorem checkClaims_ok {config : OidcConfig} {p : PendingOidc} {now : Int} {claims : Json} :
    checkClaims config p now claims=.ok () ↔ Vouches config p now claims := by
  simp only [checkClaims]
  constructor
  · intro h
    split at h
    · cases h
    · split at h
      · cases h
      · next hiss =>
        split at h
        · cases h
        · next haud =>
          split at h
          · cases h
          · next hnonce =>
            split at h
            · cases h
            · next hexp =>
              exact ⟨not_not.mp hiss, not_not.mp haud, not_not.mp hnonce,
                Bool.not_eq_true _ ▸ hexp⟩
  · intro h
    have hnull : claims≠.null := by
      rintro rfl
      cases h.issuer
    simp [hnull, h.issuer, h.audience, h.nonce, h.fresh]

def credential (r : TokenResponse) (idToken : String) (claims : Json) : StoredAuth :=
  { type := .bearer, value := (truthy r.accessToken).getD idToken, label := labelOf claims }

theorem finishLogin_ok {numbers : JsonText.Numbers} {config : OidcConfig} {p : PendingOidc}
    {reply : TokenReply} {now : Int} {auth : StoredAuth} :
    finishLogin numbers config p reply now=.ok auth ↔
      ∃ r idToken claims, reply=.granted r ∧ truthy r.idToken=some idToken ∧
        decodeJwtPayload numbers idToken=.ok claims ∧ Vouches config p now claims ∧
        auth=credential r idToken claims := by
  constructor
  · intro h
    simp only [finishLogin] at h
    split at h
    · cases h
    · cases h
    · next r =>
      split at h
      · cases h
      · next idToken htoken =>
        cases hdecode : decodeJwtPayload numbers idToken with
        | error e =>
          rw [hdecode] at h
          cases h
        | ok claims =>
          rw [hdecode] at h
          cases hcheck : checkClaims config p now claims with
          | error e =>
            simp only [bind, Except.bind, hcheck] at h
            cases h
          | ok u =>
            simp only [bind, Except.bind, hcheck] at h
            cases h
            exact ⟨r, idToken, claims, rfl, htoken, hdecode, checkClaims_ok.mp hcheck, rfl⟩
  · rintro ⟨r, idToken, claims, rfl, htoken, hdecode, hvouch, rfl⟩
    simp only [finishLogin, htoken, hdecode, bind, Except.bind, checkClaims_ok.mpr hvouch]
    rfl

/-! The past of what a run has come to. -/
section Runs
variable {site : Site} {as : List Event} {code : String} {p : PendingOidc}

def Begun (site : Site) (as : List Event) (p : PendingOidc) : Prop :=
  ∃ pre e post, as=pre++e::post ∧ began (Trace.exec (step site) {} pre) e=some p

def Called (site : Site) (as : List Event) (code : String) (p : PendingOidc) : Prop :=
  ∃ pre e post, as=pre++e::post ∧
    called (Trace.exec (step site) {} pre) e=some (code, p) ∧ Begun site pre p

def Sent (site : Site) (config : OidcConfig) (as : List Event) (code : String) (p : PendingOidc) :
    Prop :=
  ∃ pre e post endpoint, as=pre++e::post ∧ out site (Trace.exec (step site) {} pre) e=
    [.exchange endpoint (exchangeBody config code p.codeVerifier)] ∧ Called site pre code p

theorem begun_of_pending (h : (Trace.exec (step site) {} as).pending=some p) :
    Begun site as p := by
  obtain ⟨pre, e, post, has, hnot, hnow⟩ :=
    Trace.exec_origin (fun s : Session => s.pending=some p) (by simp) h
  refine ⟨pre, e, post, has, ?_⟩
  have hh := happens site (Trace.exec (step site) {} pre) e
  rw [step] at hnow
  generalize handle site (Trace.exec (step site) {} pre) e=next at hh hnow
  cases hh with
  | quiet hp => exact absurd (hp ▸ hnow) hnot
  | called => exact absurd hnow hnot
  | sent => exact absurd hnow hnot
  | began hb =>
    rw [hb]
    exact hnow
  | accepted => cases hnow

theorem called_of_completing {id : Nat}
    (h : (id, Task.completing code p)∈(Trace.exec (step site) {} as).tasks) :
    Called site as code p := by
  obtain ⟨pre, e, post, has, hnot, i, hnow⟩ :=
    Trace.exec_origin (fun s : Session => ∃ i, (i, Task.completing code p)∈s.tasks) (by simp)
      ⟨id, h⟩
  have hold : ∀ j, (j, Task.completing code p)∉(Trace.exec (step site) {} pre).tasks :=
    fun j hj => hnot ⟨j, hj⟩
  have hh := happens site (Trace.exec (step site) {} pre) e
  rw [step] at hnow
  generalize handle site (Trace.exec (step site) {} pre) e=next at hh hnow
  cases hh with
  | quiet _ _ tasks =>
    obtain ht | ht | ⟨_, _, ht⟩ := tasks _ hnow
    · exact absurd ht (hold i)
    · cases ht
    · cases ht
  | @called params c q hcheck =>
    obtain ht | ht := mem_wait.mp hnow
    · exact absurd ht (hold i)
    · cases ht
      have hpending := (checkCallback_ok.mp hcheck).2.2.2
      refine ⟨pre, .callback params, post, has, ?_, begun_of_pending hpending⟩
      rw [called, hcheck]
      rfl
  | sent =>
    obtain ht | ht := mem_wait.mp hnow
    · exact absurd (mem_of_resume ht) (hold i)
    · cases ht
  | began => exact absurd (mem_of_resume hnow) (hold i)
  | accepted => exact absurd (mem_of_resume hnow) (hold i)

theorem sent_of_exchanging {config : OidcConfig} (hc : site.config=some config) {id : Nat}
    (h : (id, Task.exchanging code p)∈(Trace.exec (step site) {} as).tasks) :
    Sent site config as code p := by
  obtain ⟨pre, e, post, has, hnot, i, hnow⟩ :=
    Trace.exec_origin (fun s : Session => ∃ i, (i, Task.exchanging code p)∈s.tasks) (by simp)
      ⟨id, h⟩
  have hold : ∀ j, (j, Task.exchanging code p)∉(Trace.exec (step site) {} pre).tasks :=
    fun j hj => hnot ⟨j, hj⟩
  have hh := happens site (Trace.exec (step site) {} pre) e
  rw [step] at hnow
  refine ⟨pre, e, post, ?_⟩
  rw [out]
  generalize handle site (Trace.exec (step site) {} pre) e=next at hh hnow ⊢
  cases hh with
  | quiet _ _ tasks =>
    obtain ht | ht | ⟨_, _, ht⟩ := tasks _ hnow
    · exact absurd ht (hold i)
    · cases ht
    · cases ht
  | called =>
    obtain ht | ht := mem_wait.mp hnow
    · exact absurd ht (hold i)
    · cases ht
  | @sent config' _ _ _ c q endpoint hc' htask =>
    obtain ht | ht := mem_wait.mp hnow
    · exact absurd (mem_of_resume ht) (hold i)
    · cases ht
      cases hc.symm.trans hc'
      exact ⟨endpoint, has, rfl, called_of_completing (mem_of_task htask)⟩
  | began => exact absurd (mem_of_resume hnow) (hold i)
  | accepted => exact absurd (mem_of_resume hnow) (hold i)

/-- The credential is one that an identity provider has vouched for, in answer to the exchange of
a code that came for a login of this session. -/
def LoggedIn (site : Site) (as : List Event) (cred : StoredAuth) : Prop :=
  ∃ pre id r now post config code p idToken claims,
    as=pre++Event.exchanged id (.granted r) now::post ∧ site.config=some config ∧
    Sent site config pre code p ∧ truthy r.idToken=some idToken ∧
    decodeJwtPayload site.numbers idToken=.ok claims ∧ Vouches config p now claims ∧
    cred=credential r idToken claims

/-- Whatever happens in a session and whatever answers come: the API client sends a credential that
the user has typed in, or one that came out of a login of this session, begun, called back and
exchanged in this order; and a verifier is sent with a code only that came back with the state of
its own login, while it was pending. -/
theorem login_provenance (site : Site) (as : List Event) :
    (∀ cred, (Trace.exec (step site) {} as).auth=some cred →
      Event.login cred∈as ∨ LoggedIn site as cred) ∧
    ∀ e endpoint body, Output.exchange endpoint body∈out site (Trace.exec (step site) {} as) e →
      ∃ config code p, site.config=some config ∧ body=exchangeBody config code p.codeVerifier ∧
        Called site as code p := by
  constructor
  · intro cred h
    obtain ⟨pre, e, post, rfl, hnot, hnow⟩ :=
      Trace.exec_origin (fun s : Session => s.auth=some cred) (by simp) h
    have hh := happens site (Trace.exec (step site) {} pre) e
    rw [step] at hnow
    generalize handle site (Trace.exec (step site) {} pre) e=next at hh hnow
    cases hh with
    | quiet _ ha =>
      obtain hold | rfl := ha cred hnow
      · exact absurd hold hnot
      · exact .inl (by simp)
    | called => exact absurd hnow hnot
    | sent => exact absurd hnow hnot
    | began => exact absurd hnow hnot
    | @accepted config id reply now code p auth hc htask hfinish =>
      cases hnow
      obtain ⟨r, idToken, claims, rfl, htoken, hdecode, hvouch, hcred⟩ := finishLogin_ok.mp hfinish
      exact .inr ⟨pre, id, r, now, post, config, code, p, idToken, claims, rfl, hc,
        sent_of_exchanging hc (mem_of_task htask), htoken, hdecode, hvouch, hcred⟩
  · intro e endpoint body h
    have hh := happens site (Trace.exec (step site) {} as) e
    rw [out] at h
    generalize handle site (Trace.exec (step site) {} as) e=next at hh h
    cases hh with
    | quiet _ _ _ ho =>
      obtain ⟨_, he⟩ := ho _ h
      cases he
    | called => cases h
    | sent hc htask =>
      cases List.mem_singleton.mp h
      exact ⟨_, _, _, hc, rfl, called_of_completing (mem_of_task htask)⟩
    | began => cases List.mem_singleton.mp h
    | accepted => cases List.mem_singleton.mp h

theorem pending_completed {s : Session} {e : Event} (h : completed site s e=some p) :
    (step site s e).pending=none := by
  cases e with
  | exchanged id reply now =>
    simp only [completed] at h
    split at h
    · next config code q hc htask =>
      cases hfinish : finishLogin site.numbers config q reply now with
      | error e =>
        rw [hfinish] at h
        cases h
      | ok auth => simp only [step, handle, hc, configured, onExchanged, htask, hfinish]
    · cases h
  | _ => cases h

/-- Once a login is completed, no code that comes with its state is taken any more, as long as no
login with the same state is begun. -/
theorem login_not_replayed (site : Site) (as bs : List Event) (e : Event) (p : PendingOidc)
    (params : Params) (hdone : completed site (Trace.exec (step site) {} as) e=some p)
    (hfresh : Trace.Along (step site) (fun s e => ∀ q∈began s e, q.state≠p.state)
      (Trace.exec (step site) {} (as++[e])) bs)
    (hstate : truthy (params.lookup "state")=some p.state) :
    ∃ error, handle site (Trace.exec (step site) {} (as++e::bs)) (.callback params)=
      (Trace.exec (step site) {} (as++e::bs), [.rejected error]) := by
  have hlast : Trace.exec (step site) {} (as++[e])=step site (Trace.exec (step site) {} as) e := by
    rw [Trace.exec_append]
    rfl
  have hnone : (Trace.exec (step site) {} (as++[e])).pending=none := by
    rw [hlast]
    exact pending_completed hdone
  have hfree := Trace.Along.invariant (fun s : Session => ∀ q∈s.pending, q.state≠p.state)
    (fun _ => True) (fun s a _ hs hc => ?_) (by rw [hnone]; exact fun _ hq => by cases hq)
    (fun _ _ => trivial) hfresh
  · rw [← Trace.exec_append, List.append_assoc, List.singleton_append] at hfree
    generalize Trace.exec (step site) {} (as++e::bs)=s at hfree
    cases hc : site.config with
    | none => exact ⟨_, by simp only [handle, hc]; rfl⟩
    | some config =>
      cases hcheck : checkCallback s.pending params with
      | error error => exact ⟨error, by simp only [handle, hc, configured, hcheck]⟩
      | ok found =>
        obtain ⟨_, _, hq, hpending⟩ := checkCallback_ok.mp hcheck
        rw [hstate] at hq
        exact absurd (Option.some.inj hq).symm (hfree found.2 hpending)
  · have hh := happens site s a
    rw [step]
    generalize handle site s a=next at hh ⊢
    cases hh with
    | quiet hp => rwa [hp]
    | called => exact hs
    | sent => exact hs
    | began hb =>
      intro q hq
      exact hc q (hb.trans hq)
    | accepted => exact fun _ hq => by cases hq

end Runs

theorem urlLetter_spec : ∀ n < 64, urlLetter (Base64.letter n) ≠ '=' ∧
    urlLetter (Base64.letter n) ≠ '.' ∧
    plainLetter (urlLetter (Base64.letter n))=Base64.letter n := by
  decide +kernel

theorem toList_base64Url (data : List UInt8) :
    (base64Url data).toList=(Base64.sextets data).map fun n => urlLetter (Base64.letter n) := by
  obtain ⟨hlt, _⟩ := Base64.sextets_spec data
  have hkeep : ∀ c∈((Base64.sextets data).map Base64.letter).map urlLetter,
      decide (c ≠ '=')=true := by
    intro c hc
    rw [List.map_map] at hc
    obtain ⟨n, hn, rfl⟩ := List.mem_map.mp hc
    exact decide_eq_true (urlLetter_spec n (hlt n hn)).1
  have hdrop : ∀ c∈(Base64.padding (Base64.sextets data).length).map urlLetter,
      ¬ decide (c ≠ '=')=true := by
    intro c hc
    rw [Base64.padding, List.map_replicate] at hc
    rw [List.eq_of_mem_replicate hc]
    decide
  rw [base64Url, String.toList_ofList, Base64.btoa, List.map_append, List.filter_append,
    List.filter_eq_self.mpr hkeep, List.filter_eq_nil_iff.mpr hdrop, List.append_nil, List.map_map]
  rfl

theorem decodeBase64Url_base64Url (data : List UInt8) :
    decodeBase64Url (base64Url data).toList=some (data.map fun b => Char.ofNat b.toNat) := by
  obtain ⟨hlt, hlen, hbytes⟩ := Base64.sextets_spec data
  have hplain : (base64Url data).toList.map plainLetter=
      (Base64.sextets data).map Base64.letter := by
    rw [toList_base64Url, List.map_map]
    exact List.map_congr_left fun n hn => (urlLetter_spec n (hlt n hn)).2.2
  have hpad : ((base64Url data).toList.length+3)/4*4-(base64Url data).toList.length=
      (4-(Base64.sextets data).length%4)%4 := by
    rw [toList_base64Url, List.length_map]
    omega
  have hread := Base64.atob_letters hlt hlen
  rw [Base64.padding] at hread
  simp only [decodeBase64Url, hplain, hpad, hread, hbytes, Option.map_some]

/-- One character for each byte of the text in UTF-8. -/
def binaryString (text : List Char) : List Char :=
  (Utf8.encode text).map fun b => Char.ofNat b.toNat

theorem binaryString_ascii {text : List Char} (h : ∀ c∈text, c.toNat < 128) :
    binaryString text=text := by
  induction text with
  | nil => rfl
  | cons c text ih =>
    obtain ⟨hc, htext⟩ := List.forall_mem_cons.mp h
    have hle : c.val.toNat ≤ 0x7f := Nat.le_of_lt_succ hc
    have hbyte : String.utf8EncodeChar c=[UInt8.ofNat c.toNat] := if_pos hle
    have hlt : c.toNat < 256 := hc.trans (by decide)
    rw [binaryString, Utf8.encode, List.flatMap_cons, hbyte, List.singleton_append, List.map_cons,
      UInt8.toNat_ofNat_of_lt' hlt, Char.ofNat_toNat]
    exact congrArg _ (ih htext)

def tokenOf (header signature text : List Char) : String :=
  String.ofList (header++ '.' ::((base64Url (Utf8.encode text)).toList++ '.' ::signature))

theorem truthy_tokenOf (header signature text : List Char) :
    truthy (some (tokenOf header signature text))=some (tokenOf header signature text) := by
  have hne : tokenOf header signature text≠"" := by
    intro h
    have hlist := congrArg String.toList h
    simp [tokenOf] at hlist
  simp [truthy, hne]

theorem encode_ne_nil {text : List Char} (h : text≠[]) : Utf8.encode text≠[] := by
  cases text with
  | nil => exact absurd rfl h
  | cons c text =>
    intro hnil
    rw [Utf8.encode, List.flatMap_cons, List.append_eq_nil_iff] at hnil
    exact absurd (congrArg List.length hnil.1)
      (by rw [String.length_utf8EncodeChar]; exact c.utf8Size_pos.ne')

theorem decode_tokenOf (numbers : JsonText.Numbers) {header text : List Char}
    (signature : List Char) (hheader : '.'∉header) (htext : text≠[]) :
    decodeJwtPayload numbers (tokenOf header signature text)=
      match JsonText.loads numbers (binaryString text) with
      | none => .error .engine
      | some claims => .ok claims := by
  have hdot : ∀ data, '.'∉(base64Url data).toList := by
    intro data hmem
    rw [toList_base64Url] at hmem
    obtain ⟨n, hn, he⟩ := List.mem_map.mp hmem
    exact (urlLetter_spec n ((Base64.sextets_spec data).1 n hn)).2.1 he
  have hne : (base64Url (Utf8.encode text)).toList≠[] := by
    intro hnil
    have hread := decodeBase64Url_base64Url (Utf8.encode text)
    rw [hnil] at hread
    exact encode_ne_nil htext (List.map_eq_nil_iff.mp (Option.some.inj hread).symm)
  simp only [decodeJwtPayload, tokenOf, String.toList_ofList,
    List.splitOn_append_cons_self_of_not_mem hheader,
    List.splitOn_append_cons_self_of_not_mem (hdot _), if_neg hne, decodeBase64Url_base64Url,
    Option.bind_some, binaryString]

/-- Whatever text a provider signs as its claims, a call that waits for its tokens takes the token
exactly when the bytes of the text, read as characters, are JSON whose claims vouch for the login,
and then stores the credential of the response. A text in ASCII is read as it is. -/
theorem token_accepted_iff (site : Site) (config : OidcConfig) (s : Session) (id : Nat)
    (code : String) (p : PendingOidc) (now : Int) (accessToken : Option String)
    (header signature text : List Char) (hc : site.config=some config)
    (htask : s.task id=some (.exchanging code p)) (hheader : '.'∉header) (htext : text≠[]) :
    let idToken := tokenOf header signature text
    let response : TokenResponse := ⟨accessToken, some idToken⟩
    (∀ auth, out site s (.exchanged id (.granted response) now)=[.loggedIn auth] ↔
      ∃ claims, JsonText.loads site.numbers (binaryString text)=some claims ∧
        Vouches config p now claims ∧ auth=credential response idToken claims) ∧
    ((∀ c∈text, c.toNat < 128) → binaryString text=text) := by
  intro idToken response
  refine ⟨fun auth => ?_, binaryString_ascii⟩
  have hdecode := decode_tokenOf site.numbers signature hheader htext
  have htoken : truthy response.idToken=some idToken := truthy_tokenOf header signature text
  have hout : out site s (.exchanged id (.granted response) now)=
      (onExchanged site config s id (.granted response) now).2 := by
    simp only [out, handle, hc, configured]
  rw [hout, onExchanged, htask]
  constructor
  · intro h
    simp only at h
    split at h
    · cases h
    · next auth' hfinish =>
      obtain ⟨r, token, claims, hr, ht, hd, hvouch, hauth⟩ := finishLogin_ok.mp hfinish
      cases hr
      cases htoken.symm.trans ht
      rw [hdecode] at hd
      cases hloads : JsonText.loads site.numbers (binaryString text) with
      | none =>
        rw [hloads] at hd
        cases hd
      | some found =>
        rw [hloads] at hd
        cases hd
        cases h
        exact ⟨claims, rfl, hvouch, hauth⟩
  · rintro ⟨claims, hloads, hvouch, rfl⟩
    have hd : decodeJwtPayload site.numbers idToken=.ok claims := by rw [hdecode, hloads]
    have hfinish := finishLogin_ok.mpr ⟨response, idToken, claims, rfl, htoken, hd, hvouch, rfl⟩
    simp only [hfinish]

/-! A sign-in from its start to its end. -/

def portalConfig : OidcConfig :=
  { issuerUrl := "https://idp.example.gov", clientId := "sovereign-portal",
    redirectUri := "https://portal.example.gov/oidc/callback",
    authorizationEndpoint := some "https://idp.example.gov/authorize",
    tokenEndpoint := some "https://idp.example.gov/oauth/token" }

def portal : Site :=
  { config := some portalConfig, challenge := id,
    numbers := { write := fun _ => [], read := fun _ => none } }

def pilotLogin : PendingOidc :=
  { codeVerifier := base64Url [1], nonce := base64Url [2], state := base64Url [3] }

def claimsFor (p : PendingOidc) : Json :=
  .obj [("sub", .str "alice"), ("iss", .str "https://idp.example.gov"),
    ("aud", .str "sovereign-portal"), ("nonce", .str p.nonce)]

def returned (code : String) (p : PendingOidc) : Params := [("code", code), ("state", p.state)]

def toExchange : List Event :=
  [.beginLogin, .discovered 0 .raised [1], .digested 1 [2] [3], .unload,
    .callback (returned "code-1" pilotLogin), .discovered 2 .raised []]

def claimsText (p : PendingOidc) : List Char := JsonText.dumps portal.numbers (claimsFor p)

def tokens (p : PendingOidc) : TokenResponse :=
  ⟨some "api-access-token", some (tokenOf ['h'] ['s'] (claimsText p))⟩

def atExchange : Session := Trace.exec (step portal) {} toExchange

theorem atExchange_task : atExchange.task 3=some (.exchanging "code-1" pilotLogin) := rfl

theorem claimsFor_numeric (p : PendingOidc) : JsonText.Numeric portal.numbers (claimsFor p) := by
  simp [claimsFor, JsonText.Numeric, JsonText.NumericMembers]

theorem claimsText_ne_nil (p : PendingOidc) : claimsText p≠[] :=
  List.ne_nil_of_length_pos (JsonText.dumps_pos (claimsFor_numeric p))

theorem claimsText_ascii (p : PendingOidc) : ∀ c∈claimsText p, c.toNat < 128 := fun c hc =>
  ((JsonText.printable_dumps _ (claimsFor_numeric p)) c hc).2.trans_lt (by decide)

theorem claimsFor_vouches (p : PendingOidc) : Vouches portalConfig p 0 (claimsFor p) :=
  checkClaims_ok.mp (by
    simp [checkClaims, claimsFor, claim, expired, audiences, portalConfig, Json.lookup])

theorem token_accepted_pilot :
    out portal atExchange (.exchanged 3 (.granted (tokens pilotLogin)) 0)=
      [.loggedIn { type := .bearer, value := "api-access-token", label := "alice" }] := by
  have h := token_accepted_iff portal portalConfig atExchange 3 "code-1" pilotLogin 0
    (some "api-access-token") ['h'] ['s'] (claimsText pilotLogin) rfl atExchange_task (by decide)
    (claimsText_ne_nil pilotLogin)
  refine (h.1 _).mpr ⟨claimsFor pilotLogin, ?_, claimsFor_vouches pilotLogin, rfl⟩
  rw [h.2 (claimsText_ascii pilotLogin)]
  exact JsonText.loads_dumps (claimsFor_numeric pilotLogin)

theorem finishLogin_tokens (p : PendingOidc) :
    finishLogin portal.numbers portalConfig p (.granted (tokens p)) 0=
      .ok { type := .bearer, value := "api-access-token", label := "alice" } := by
  have hdecode : decodeJwtPayload portal.numbers (tokenOf ['h'] ['s'] (claimsText p))=
      .ok (claimsFor p) := by
    rw [decode_tokenOf _ _ (by decide) (claimsText_ne_nil p),
      binaryString_ascii (claimsText_ascii p), claimsText,
      JsonText.loads_dumps (claimsFor_numeric p)]
  exact finishLogin_ok.mpr ⟨tokens p, _, claimsFor p, rfl, truthy_tokenOf _ _ _, hdecode,
    claimsFor_vouches p, rfl⟩

theorem completed_tokens {s : Session} {id : Nat} {code : String} {p : PendingOidc}
    (h : s.task id=some (.exchanging code p)) :
    completed portal s (.exchanged id (.granted (tokens p)) 0)=some p := by
  simp only [completed, portal, h]
  exact if_pos (congrArg Except.isOk (finishLogin_tokens p))

theorem step_tokens {s : Session} {id : Nat} {code : String} {p : PendingOidc}
    (h : s.task id=some (.exchanging code p)) :
    step portal s (.exchanged id (.granted (tokens p)) 0)=
      { s.resume id with
          pending := none
          auth := some { type := .bearer, value := "api-access-token", label := "alice" } } := by
  have hfinish := finishLogin_tokens p
  simp only [portal] at hfinish
  simp only [step, handle, portal, configured, onExchanged, h, hfinish]

def signedIn : Session :=
  { auth := some { type := .bearer, value := "api-access-token", label := "alice" }, next := 4 }

def secondLogin : PendingOidc :=
  { codeVerifier := base64Url [5], nonce := base64Url [6], state := base64Url [7] }

/-- After the exchange of the first login another one is begun and completed, and the user signs
out. -/
def afterwards : List Event :=
  [.beginLogin, .discovered 4 .raised [5], .digested 5 [6] [7], .storage,
    .callback (returned "code-2" secondLogin), .discovered 6 .raised [],
    .exchanged 7 (.granted (tokens secondLogin)) 0, .logout]

theorem exec_signedIn : Trace.exec (step portal) {} (toExchange++
    [.exchanged 3 (.granted (tokens pilotLogin)) 0])=signedIn := by
  rw [Trace.exec_append, Trace.exec, Trace.exec, ← atExchange, step_tokens atExchange_task]
  rfl

theorem login_not_replayed_pilot :
    completed portal (Trace.exec (step portal) {} (toExchange++
        .exchanged 3 (.granted (tokens pilotLogin)) 0::afterwards.take 6))
      (.exchanged 7 (.granted (tokens secondLogin)) 0)=some secondLogin ∧
    ∃ error, handle portal (Trace.exec (step portal) {}
        (toExchange++.exchanged 3 (.granted (tokens pilotLogin)) 0::afterwards))
          (.callback (returned "code-1" pilotLogin))=
      (Trace.exec (step portal) {}
        (toExchange++.exchanged 3 (.granted (tokens pilotLogin)) 0::afterwards),
        [.rejected error]) := by
  have hdone : completed portal (Trace.exec (step portal) {} toExchange)
      (.exchanged 3 (.granted (tokens pilotLogin)) 0)=some pilotLogin :=
    completed_tokens atExchange_task
  have hagain : (Trace.exec (step portal) {} (toExchange++
      .exchanged 3 (.granted (tokens pilotLogin)) 0::afterwards.take 6)).task 7=
        some (.exchanging "code-2" secondLogin) := by
    rw [List.append_cons, Trace.exec_append, exec_signedIn]
    rfl
  have hfresh : Trace.Along (step portal) (fun s e => ∀ q∈began s e, q.state≠pilotLogin.state)
      (Trace.exec (step portal) {} (toExchange++[.exchanged 3 (.granted (tokens pilotLogin)) 0]))
      afterwards := by
    rw [exec_signedIn]
    decide +kernel
  exact ⟨completed_tokens hagain, login_not_replayed portal toExchange afterwards _ pilotLogin
    (returned "code-1" pilotLogin) hdone hfresh (by decide +kernel)⟩

end Sovereign.Portal
