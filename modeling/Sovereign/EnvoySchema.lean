import Sovereign.Renderers
import Sovereign.Traverse
import Mathlib.Data.List.Infix

/-! The schema check of an Envoy bootstrap: the shape the renderer emits, with any other members.
Each model of the schema is its check. -/
namespace Sovereign.EnvoyV3
open Sovereign Packs Renderers Traverse

def required (name : String) (check : Json → Bool) (doc : Json) : Bool :=
  (Json.get? name doc).any check

def defaulted (name : String) (check : Json → Bool) : Json → Bool
  | .obj members => (Json.lookup name members).all check
  | _ => false

def orNone (check : Json → Bool) : Json → Bool
  | .null => true
  | x => check x

def given (name : String) (doc : Json) : Bool :=
  (Json.get? name doc).any fun x => decide (x≠.null)

def isStr : Json → Bool
  | .str _ => true
  | _ => false

def isDict : Json → Bool
  | .obj _ => true
  | _ => false

def listOf (minLength : Nat) (check : Json → Bool) : Json → Bool
  | .arr items => decide (minLength ≤ items.length) && items.all check
  | _ => false

/-- An integer as the validation library takes it: a whole number, a Boolean or a string. -/
def readInt (lax : Lax) : Json → Option Int
  | .num q => if q.den=1 then some q.num else none
  | .bool b => some (if b then 1 else 0)
  | .str s => lax.int s
  | _ => none

def isInt (lax : Lax) (ge le : Int) (x : Json) : Bool :=
  (readInt lax x).any fun n => decide (ge ≤ n ∧ n ≤ le)

section Models
variable (lax : Lax)

def socketAddress (doc : Json) : Bool :=
  required "address" isStr doc && required "port_value" (isInt lax 1 65535) doc &&
    defaulted "protocol" (orNone fun x => decide (x∈[.str "TCP", .str "UDP"])) doc

def pipeAddress : Json → Bool := required "path" isStr

def address (doc : Json) : Bool :=
  defaulted "socket_address" (orNone (socketAddress lax)) doc &&
    defaulted "pipe" (orNone pipeAddress) doc && given "socket_address" doc != given "pipe" doc

def endpointHost : Json → Bool := required "address" (address lax)

def lbEndpoint : Json → Bool := required "endpoint" (endpointHost lax)

def clusterEndpoints : Json → Bool := required "lb_endpoints" (listOf 1 (lbEndpoint lax))

def loadAssignment (doc : Json) : Bool :=
  required "cluster_name" isStr doc && required "endpoints" (listOf 1 (clusterEndpoints lax)) doc

def clusterConfig (doc : Json) : Bool :=
  required "name" isStr doc && defaulted "connect_timeout" isStr doc && required "type" isStr doc &&
    defaulted "load_assignment" (orNone (loadAssignment lax)) doc

def routeMatch (doc : Json) : Bool :=
  defaulted "prefix" (orNone isStr) doc && defaulted "path" (orNone isStr) doc

def routeAction : Json → Bool := required "cluster" isStr

def directResponse : Json → Bool := required "status" (isInt lax 100 599)

def routeRule (doc : Json) : Bool :=
  required "match" routeMatch doc && defaulted "route" (orNone routeAction) doc &&
    defaulted "direct_response" (orNone (directResponse lax)) doc &&
    given "route" doc != given "direct_response" doc

def virtualHost (doc : Json) : Bool :=
  required "name" isStr doc && required "domains" (listOf 1 isStr) doc &&
    required "routes" (listOf 1 (routeRule lax)) doc

def routeConfig (doc : Json) : Bool :=
  required "name" isStr doc && required "virtual_hosts" (listOf 1 (virtualHost lax)) doc

def typedConfig (doc : Json) : Bool :=
  match Json.get? "@type" doc with
  | some x => isStr x
  | none => required "type_" isStr doc

def httpFilter (doc : Json) : Bool :=
  required "name" isStr doc && defaulted "typed_config" (orNone typedConfig) doc

def httpConnectionManager (doc : Json) : Bool :=
  typedConfig doc && required "stat_prefix" isStr doc &&
    required "route_config" (routeConfig lax) doc &&
    required "http_filters" (listOf 1 httpFilter) doc

/-- Only a connection manager is looked into. -/
def typedConfigValidates (v : Json) : Bool :=
  isDict v &&
    match Json.get? "@type" v with
    | none => false
    | some (.str url) =>
      if "HttpConnectionManager".toList <:+: url.toList then httpConnectionManager lax v else true
    | some _ => true

def networkFilter (doc : Json) : Bool :=
  required "name" isStr doc && required "typed_config" (typedConfigValidates lax) doc

def filterChain : Json → Bool := required "filters" (listOf 1 (networkFilter lax))

def listenerConfig (doc : Json) : Bool :=
  required "name" isStr doc && required "address" (address lax) doc &&
    required "filter_chains" (listOf 1 (filterChain lax)) doc

def staticResources (doc : Json) : Bool :=
  defaulted "listeners" (listOf 0 (listenerConfig lax)) doc &&
    defaulted "clusters" (listOf 0 (clusterConfig lax)) doc

def adminConfig (doc : Json) : Bool :=
  defaulted "access_log_path" (orNone isStr) doc && required "address" (address lax) doc

def validateBootstrap (doc : Json) : Bool :=
  required "static_resources" (staticResources lax) doc &&
    defaulted "admin" (orNone (adminConfig lax)) doc

def renderEnvoy (s : RenderSettings) (inst : ServiceInstance) : Except RenderError Json :=
  match buildDoc s inst with
  | none => .error .raised
  | some doc => if validateBootstrap lax doc then .ok doc else .error .validation

end Models

def hostDomains (params : LbParameters) : List String :=
  match Text.sortedSet (params.routes.map (·.host)) with
  | [] => ["*"]
  | hosts => hosts

def routeDocs (params : LbParameters) : List Json :=
  match params.routes with
  | [] => [Json.obj [("match", .obj [("prefix", .str "/")]),
      ("direct_response", .obj [("status", int 404)])]]
  | routes => routes.map fun r => Json.obj [("match", .obj [("prefix", .str r.pathPrefix)]),
      ("route", .obj [("cluster", .str r.cluster)])]

def routerFilter : Json :=
  .obj [("name", .str "envoy.filters.http.router"),
    ("typed_config", .obj [("@type", .str
      "type.googleapis.com/envoy.extensions.filters.http.router.v3.Router")])]

def managerUrl : String :=
  "type.googleapis.com/envoy.extensions.filters.network.http_connection_manager.v3.HttpConnectionManager"

def managerDoc (inst : ServiceInstance) (l : Listener) : Json :=
  .obj (
    [("@type", .str managerUrl), ("stat_prefix", .str (inst.instanceId ++ "_" ++ l.name)),
     ("route_config", .obj [("name", .str (l.name ++ "_routes")),
       ("virtual_hosts", .arr [.obj [("name", .str "service_routes"),
         ("domains", .arr ((hostDomains inst.parameters).map .str)),
         ("routes", .arr (routeDocs inst.parameters))]])])] ++
    (if inst.parameters.mtlsEnabled then xfccHcmFields else []) ++
    [("http_filters", .arr [routerFilter])])

def chainDoc (s : RenderSettings) (inst : ServiceInstance) (l : Listener) : Json :=
  .obj (
    [("filters", .arr [.obj [("name", .str "envoy.filters.network.http_connection_manager"),
      ("typed_config", managerDoc inst l)]])] ++
    (if inst.parameters.mtlsEnabled then [("transport_socket", downstreamTlsTransportSocket s)]
      else []))

theorem listenerDoc_eq (s : RenderSettings) (inst : ServiceInstance) (l : Listener) :
    listenerDoc s inst l=.obj [("name", .str l.name),
      ("address", Renderers.socketAddress "0.0.0.0" l.port),
      ("filter_chains", .arr [chainDoc s inst l])] := rfl

/-! Built documents: everything but the ports of the endpoints validates. -/
section Built
variable {lax : Lax} {s : RenderSettings} {inst : ServiceInstance}

theorem isInt_int (lo hi n : Int) : isInt lax lo hi (int n)=decide (lo ≤ n ∧ n ≤ hi) := by
  simp [isInt, readInt, int]

theorem address_socketAddress (host : String) (n : Int) :
    address lax (Renderers.socketAddress host n)=decide (1 ≤ n ∧ n≤65535) := by
  simp [address, Renderers.socketAddress, defaulted, orNone, given, Json.lookup, Json.get?,
    socketAddress, required, isStr, isInt_int]

theorem address_pipe (path : String) :
    address lax (.obj [("pipe", .obj [("path", .str path)])])=true := by
  simp [address, pipeAddress, defaulted, orNone, given, Json.lookup, Json.get?, required, isStr]

theorem hostDomains_ne (params : LbParameters) : hostDomains params≠[] := by
  rw [hostDomains]
  split
  · exact List.cons_ne_nil _ _
  · next h => exact fun hn => h hn

theorem routeDocs_valid (lax : Lax) (params : LbParameters) :
    routeDocs params≠[] ∧ ∀ r∈routeDocs params, routeRule lax r=true := by
  rw [routeDocs]
  split
  · refine ⟨List.cons_ne_nil _ _, fun r hr => ?_⟩
    rw [List.mem_singleton.mp hr]
    simp [routeRule, routeMatch, directResponse, required, defaulted, orNone, given, isStr,
      isInt_int, Json.lookup, Json.get?]
  · next hne =>
    refine ⟨fun hn => hne (List.map_eq_nil_iff.mp hn), fun r hr => ?_⟩
    obtain ⟨route, _, rfl⟩ := List.mem_map.mp hr
    simp [routeRule, routeMatch, routeAction, required, defaulted, orNone, given, isStr,
      Json.lookup, Json.get?]

theorem routeConfig_routeDocs (lax : Lax) (name : String) (params : LbParameters) :
    routeConfig lax (.obj [("name", .str name), ("virtual_hosts", .arr [.obj
      [("name", .str "service_routes"), ("domains", .arr ((hostDomains params).map .str)),
       ("routes", .arr (routeDocs params))]])])=true := by
  obtain ⟨hne, hroutes⟩ := routeDocs_valid lax params
  simp [routeConfig, virtualHost, required, isStr, Json.lookup, Json.get?, listOf,
    Nat.succ_le_iff, List.length_pos_iff, hostDomains_ne, hne]
  exact hroutes

theorem httpConnectionManager_managerDoc (l : Listener) :
    httpConnectionManager lax (managerDoc inst l)=true := by
  have hroutes := routeConfig_routeDocs lax (l.name ++ "_routes") inst.parameters
  rw [managerDoc]
  generalize Json.obj [("name", .str (l.name ++ "_routes")), _]=routes at hroutes ⊢
  cases inst.parameters.mtlsEnabled with
  | true =>
    simp [httpConnectionManager, typedConfig, xfccHcmFields, routerFilter, httpFilter, required,
      defaulted, orNone, isStr, listOf, Json.lookup, Json.get?, hroutes]
  | false =>
    simp [httpConnectionManager, typedConfig, routerFilter, httpFilter, required,
      defaulted, orNone, isStr, listOf, Json.lookup, Json.get?, hroutes]

theorem typedConfigValidates_of {v url : Json} (hd : isDict v=true)
    (hu : Json.get? "@type" v=some url) (hm : httpConnectionManager lax v=true) :
    typedConfigValidates lax v=true := by
  rw [typedConfigValidates, hd, hu, Bool.true_and]
  split
  · next he => cases he
  · split
    · exact hm
    · rfl
  · rfl

theorem filterChain_chainDoc (l : Listener) : filterChain lax (chainDoc s inst l)=true := by
  have hmanager : typedConfigValidates lax (managerDoc inst l)=true :=
    typedConfigValidates_of rfl rfl (httpConnectionManager_managerDoc l)
  rw [chainDoc]
  simp [filterChain, networkFilter, required, isStr, listOf, Json.lookup, Json.get?, hmanager]

theorem listenerConfig_listenerDoc (l : Listener) :
    listenerConfig lax (listenerDoc s inst l)=true := by
  have hport : (1 : Int)≤(l.port : Int) ∧ (l.port : Int)≤65535 := by
    have h1 := l.port_pos
    have h2 := l.port_le
    omega
  rw [listenerDoc_eq]
  simp [listenerConfig, required, isStr, listOf, Json.lookup, Json.get?, filterChain_chainDoc,
    address_socketAddress, hport]

theorem loadAssignment_iff (name : String) (addresses : List Json) :
    loadAssignment lax (Renderers.loadAssignment name addresses)=true ↔
      addresses≠[] ∧ ∀ a∈addresses, address lax a=true := by
  simp [loadAssignment, Renderers.loadAssignment, required, isStr, Json.lookup, Json.get?, listOf,
    clusterEndpoints, lbEndpoint, endpointHost, List.length_pos_iff, Nat.succ_le_iff]

theorem orNone_loadAssignment (name : String) (addresses : List Json) :
    orNone (loadAssignment lax) (Renderers.loadAssignment name addresses)=
      loadAssignment lax (Renderers.loadAssignment name addresses) := rfl

theorem clusterConfig_sdsCluster : clusterConfig lax (sdsCluster s)=true := by
  have hload : loadAssignment lax (Renderers.loadAssignment sdsClusterName
      [.obj [("pipe", .obj [("path", .str s.meshSdsSocketPath)])]])=true := by
    rw [loadAssignment_iff]
    exact ⟨List.cons_ne_nil _ _, fun a ha => List.mem_singleton.mp ha ▸ address_pipe _⟩
  rw [sdsCluster]
  simp [clusterConfig, required, defaulted, isStr, Json.lookup, Json.get?, orNone_loadAssignment,
    hload]

theorem clusterConfig_clusterDoc {mtlsEnabled : Bool} {c : Cluster} {doc : Json}
    (h : clusterDoc s mtlsEnabled c=some doc) : clusterConfig lax doc=true ↔
      ∀ ep∈c.endpoints, ∀ a, endpointAddress ep=some a → address lax a=true := by
  obtain ⟨addresses, ha, rfl⟩ := Option.map_eq_some_iff.mp h
  have hne : addresses≠[] := by
    intro hn
    rw [hn] at ha
    have hlen := (mapM_eq_some_iff.mp ha).length_eq
    exact c.endpoints_ne (List.length_eq_zero_iff.mp hlen)
  rw [← forall_mem_mapM_iff ha]
  cases mtlsEnabled with
  | true =>
    simp [clusterConfig, required, defaulted, isStr, Json.lookup, Json.get?, orNone_loadAssignment,
      loadAssignment_iff, hne]
  | false =>
    simp [clusterConfig, required, defaulted, isStr, Json.lookup, Json.get?, orNone_loadAssignment,
      loadAssignment_iff, hne]

/-- The built document, and its clusters in the order of the parameters. -/
theorem buildDoc_eq_some_iff {doc : Json} : buildDoc s inst=some doc ↔ ∃ clusters,
    inst.parameters.clusters.mapM (clusterDoc s inst.parameters.mtlsEnabled)=some clusters ∧
      doc=.obj [("static_resources", .obj
          [("listeners", .arr (inst.parameters.listeners.map (listenerDoc s inst))),
           ("clusters", .arr (clusters ++
             if inst.parameters.mtlsEnabled && s.meshSdsEnabled then [sdsCluster s] else []))]),
        ("admin", .obj [("access_log_path", .str "/tmp/admin_access.log"),
          ("address", Renderers.socketAddress "0.0.0.0" 9901)])] := by
  rw [buildDoc, Option.map_eq_some_iff]
  constructor
  · intro h
    obtain ⟨clusters, hc, he⟩ := h
    exact ⟨clusters, hc, he.symm⟩
  · intro h
    obtain ⟨clusters, hc, he⟩ := h
    exact ⟨clusters, hc, he.symm⟩

theorem validateBootstrap_buildDoc {doc : Json} (h : buildDoc s inst=some doc) :
    validateBootstrap lax doc=true ↔ ∀ c∈inst.parameters.clusters, ∀ ep∈c.endpoints, ∀ a,
      endpointAddress ep=some a → address lax a=true := by
  obtain ⟨clusters, hc, rfl⟩ := buildDoc_eq_some_iff.mp h
  have hlisteners : ∀ x∈inst.parameters.listeners.map (listenerDoc s inst),
      listenerConfig lax x=true := by
    intro x hx
    obtain ⟨l, _, rfl⟩ := List.mem_map.mp hx
    exact listenerConfig_listenerDoc l
  have hclusters : (∀ x∈clusters, clusterConfig lax x=true) ↔ ∀ c∈inst.parameters.clusters,
      ∀ ep∈c.endpoints, ∀ a, endpointAddress ep=some a → address lax a=true := by
    rw [forall_mem_mapM_iff hc]
    constructor
    · intro hall c hm
      obtain ⟨doc, hd⟩ := mapM_isSome_iff.mp ⟨clusters, hc⟩ c hm
      exact (clusterConfig_clusterDoc hd).mp (hall c hm doc hd)
    · exact fun hall c hm doc hd => (clusterConfig_clusterDoc hd).mpr (hall c hm)
  have hadmin : address lax (Renderers.socketAddress "0.0.0.0" 9901)=true := by
    rw [address_socketAddress]
    decide
  have hsds : ∀ x∈(if inst.parameters.mtlsEnabled && s.meshSdsEnabled then [sdsCluster s] else []),
      clusterConfig lax x=true := by
    intro x hx
    split at hx
    · rw [List.mem_singleton.mp hx]
      exact clusterConfig_sdsCluster
    · cases hx
  rw [← hclusters]
  generalize inst.parameters.listeners.map (listenerDoc s inst)=listeners at hlisteners ⊢
  generalize (if inst.parameters.mtlsEnabled && s.meshSdsEnabled then [sdsCluster s] else [])=sds
    at hsds ⊢
  simp [validateBootstrap, required, defaulted, Json.lookup, Json.get?, staticResources, listOf,
    orNone, adminConfig, isStr, hadmin]
  exact ⟨fun h => h.2.1, fun h => ⟨hlisteners, h, hsds⟩⟩

end Built
end Sovereign.EnvoyV3
