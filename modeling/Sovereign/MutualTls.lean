import Sovereign.References

/-! Which hops of a rendered Envoy configuration are encrypted and name their peer. -/
namespace Sovereign.EnvoyV3
open Sovereign Packs Renderers

structure SidecarSettings extends RenderSettings where
  meshMtlsStrict : Bool := false

def sidecarInboundPort : Int := 15006
def sidecarOutboundPort : Int := 15001
def localAppCluster : String := "local_app"
def outboundClusterName : String := "outbound_mtls"

def listenerFilter (name context : String) : Json :=
  .obj [("name", .str name), ("typed_config", .obj [("@type",
    .str ("type.googleapis.com/envoy.extensions.filters.listener." ++ context))])]

def outboundChain : Json :=
  .obj [("filters", .arr [.obj [("name", .str "envoy.filters.network.tcp_proxy"),
    ("typed_config", .obj [("@type", .str
        "type.googleapis.com/envoy.extensions.filters.network.tcp_proxy.v3.TcpProxy"),
      ("stat_prefix", .str "outbound"), ("cluster", .str outboundClusterName)])]])]

def outboundListener : Json :=
  .obj [("name", .str "outbound_mtls"),
    ("address", Renderers.socketAddress "0.0.0.0" sidecarOutboundPort),
    ("listener_filters", .arr [listenerFilter "envoy.filters.listener.original_dst"
      "original_dst.v3.OriginalDst"]),
    ("filter_chains", .arr [outboundChain])]

def outboundCluster (s : RenderSettings) : Json :=
  .obj [("name", .str outboundClusterName), ("type", .str "ORIGINAL_DST"),
    ("lb_policy", .str "CLUSTER_PROVIDED"), ("connect_timeout", .str "2s"),
    ("transport_socket", upstreamTlsTransportSocket s)]

def inboundManager (serviceName : String) (withXfcc : Bool) : Json :=
  .obj (
    [("@type", .str managerUrl), ("stat_prefix", .str (serviceName ++ "_inbound")),
     ("route_config", .obj [("name", .str "inbound_routes"),
       ("virtual_hosts", .arr [.obj [("name", .str "local_app"), ("domains", .arr [.str "*"]),
         ("routes", .arr [.obj [("match", .obj [("prefix", .str "/")]),
           ("route", .obj [("cluster", .str localAppCluster)])]])]])])] ++
    (if withXfcc then xfccHcmFields else []) ++
    [("http_filters", .arr [routerFilter])])

def inboundHcm (serviceName : String) (withXfcc : Bool) : Json :=
  .obj [("name", .str "envoy.filters.network.http_connection_manager"),
    ("typed_config", inboundManager serviceName withXfcc)]

def mtlsChain (s : RenderSettings) (serviceName : String) : Json :=
  .obj [("filter_chain_match", .obj [("transport_protocol", .str "tls")]),
    ("transport_socket", downstreamTlsTransportSocket s),
    ("filters", .arr [inboundHcm serviceName true])]

def plaintextChain (serviceName : String) : Json :=
  .obj [("filter_chain_match", .obj [("transport_protocol", .str "raw_buffer")]),
    ("filters", .arr [inboundHcm serviceName false])]

def inboundListener (s : SidecarSettings) (serviceName : String) : Json :=
  .obj [("name", .str "inbound_mtls"),
    ("address", Renderers.socketAddress "0.0.0.0" sidecarInboundPort),
    ("listener_filters", .arr [listenerFilter "envoy.filters.listener.tls_inspector"
      "tls_inspector.v3.TlsInspector"]),
    ("filter_chains", .arr (mtlsChain s.toRenderSettings serviceName::
      if s.meshMtlsStrict then [] else [plaintextChain serviceName]))]

def localAppDoc (appPort : Int) : Json :=
  .obj [("name", .str localAppCluster), ("connect_timeout", .str "2s"), ("type", .str "STATIC"),
    ("load_assignment", Renderers.loadAssignment localAppCluster
      [Renderers.socketAddress "127.0.0.1" appPort])]

def sidecarDoc (s : SidecarSettings) (serviceName : String) (appPort : Int) : Json :=
  .obj [("static_resources", .obj
      [("listeners", .arr [inboundListener s serviceName, outboundListener]),
       ("clusters", .arr ([localAppDoc appPort, outboundCluster s.toRenderSettings] ++
         if s.meshSdsEnabled then [sdsCluster s.toRenderSettings] else []))]),
    ("admin", .obj [("access_log_path", .str "/tmp/admin_access.log"),
      ("address", Renderers.socketAddress "127.0.0.1" 9901)])]

def renderSidecarBootstrap (lax : Lax) (s : SidecarSettings) (serviceName : String)
    (appPort : Int) : Except RenderError Json :=
  let doc := sidecarDoc s serviceName appPort
  if validateBootstrap lax doc then .ok doc else .error .validation

/-! What a configuration says of its hops. -/

def filterChains (listener : Json) : List Json := items (Json.get? "filter_chains" listener)

def tlsContextUrl (context : String) : Json :=
  .str ("type.googleapis.com/envoy.extensions.transport_sockets.tls.v3." ++ context)

structure Terminates (chain : Json) : Prop where
  context : Json.path ["transport_socket", "typed_config", "@type"] chain=
    some (tlsContextUrl "DownstreamTlsContext")
  client : Json.path ["transport_socket", "typed_config", "require_client_certificate"] chain=
    some (.bool true)

def Originates (cluster : Json) : Prop :=
  Json.path ["transport_socket", "typed_config", "@type"] cluster=
    some (tlsContextUrl "UpstreamTlsContext")

/-- The one filter of the chain is a connection manager that writes XFCC anew. -/
def Forwards (chain : Json) : Prop :=
  ∃ manager, (items (Json.get? "filters" chain)).map (Json.get? "typed_config")=[some manager] ∧
    Json.get? "@type" manager=some (.str managerUrl) ∧
    Json.get? "forward_client_cert_details" manager=some (.str "SANITIZE_SET") ∧
    Json.get? "set_current_client_cert_details" manager=some (.obj [("uri", .bool true)])

/-- No hop is in plain text; the certificates have one source, with its cluster. -/
structure MutualTls (s : RenderSettings) (doc : Json) : Prop where
  chains : ∀ l∈listenerDocs doc, filterChains l≠[] ∧
    ∀ chain∈filterChains l, Terminates chain ∧ Forwards chain
  clusters : ∀ d∈clusterDocs doc, d≠sdsCluster s → Originates d
  source : ∃ source, (∀ x∈Json.named "common_tls_context" doc, x=source) ∧
    (sdsCluster s∈clusterDocs doc ↔ Json.named "sds_config" source≠[])

structure PlainText (doc : Json) : Prop where
  sockets : Json.named "transport_socket" doc=[]
  contexts : Json.named "common_tls_context" doc=[]
  forwarding : Json.named "forward_client_cert_details" doc=[]

structure SidecarTls (s : SidecarSettings) (doc : Json) : Prop where
  forwarding : ∀ l∈listenerDocs doc, ∀ chain∈filterChains l,
    Json.named "forward_client_cert_details" chain≠[] → Terminates chain
  chains : Json.named "forward_client_cert_details" doc=(listenerDocs doc).flatMap fun l =>
    (filterChains l).flatMap (Json.named "forward_client_cert_details")
  strict : s.meshMtlsStrict=true → ∀ l∈listenerDocs doc,
    Json.path ["address", "socket_address", "port_value"] l=some (int sidecarInboundPort) →
    ∀ chain∈filterChains l, Terminates chain

section Balancer
variable {s : RenderSettings} {inst : ServiceInstance}

theorem terminates_chainDoc (hm : inst.parameters.mtlsEnabled=true) (l : Listener) :
    Terminates (chainDoc s inst l) := by
  rw [chainDoc, hm]
  exact ⟨rfl, rfl⟩

theorem forwards_chainDoc (hm : inst.parameters.mtlsEnabled=true) (l : Listener) :
    Forwards (chainDoc s inst l) := by
  refine ⟨managerDoc inst l, by rw [chainDoc]; rfl, rfl, ?_, ?_⟩
  · rw [managerDoc, hm]
    rfl
  · rw [managerDoc, hm]
    rfl

theorem originates_clusterDoc {c : Cluster} {d : Json} (h : clusterDoc s true c=some d) :
    Originates d := by
  obtain ⟨addresses, _, rfl⟩ := Option.map_eq_some_iff.mp h
  rfl

/-- A user's cluster is not the agent's, whatever its name. -/
theorem clusterDoc_ne_sdsCluster {mtlsEnabled : Bool} {c : Cluster} {d : Json}
    (h : clusterDoc s mtlsEnabled c=some d) : d≠sdsCluster s := by
  obtain ⟨addresses, _, rfl⟩ := Option.map_eq_some_iff.mp h
  intro he
  have htype : some (Json.str "STRICT_DNS")=some (.str "STATIC") := congrArg (Json.get? "type") he
  exact absurd (Json.str.inj (Option.some.inj htype)) (by decide)

theorem sdsCluster_mem_iff {doc : Json} (h : buildDoc s inst=some doc)
    (hm : inst.parameters.mtlsEnabled=true) :
    sdsCluster s∈clusterDocs doc ↔ s.meshSdsEnabled=true := by
  rw [clusterDocs_eq h, List.mem_append, hm, Bool.true_and]
  constructor
  · intro hmem
    cases hmem with
    | inl huser =>
      obtain ⟨c, _, hd⟩ := mem_userClusters h huser
      exact absurd rfl (clusterDoc_ne_sdsCluster hd)
    | inr hsds =>
      by_contra hs
      rw [if_neg hs] at hsds
      cases hsds
  · intro hs
    rw [hs]
    exact Or.inr List.mem_cons_self

theorem named_commonTlsContext :
    Json.named "sds_config" (commonTlsContext s)≠[] ↔ s.meshSdsEnabled=true := by
  cases hs : s.meshSdsEnabled with
  | true => simp [commonTlsContext, sdsCommonTlsContext, hs]
  | false => simp [commonTlsContext, fileCommonTlsContext, hs]

/-- Every TLS context takes its certificates where the settings say. -/
theorem mem_tlsContexts {doc x : Json} (h : buildDoc s inst=some doc)
    (hx : x∈Json.named "common_tls_context" doc) : x=commonTlsContext s := by
  obtain ⟨_, context, b, hm⟩ := mem_sockets (by decide) (by decide) (by decide) (by decide) h hx
  rw [(named_tlsSocket context b).2.2.2.1] at hm
  exact List.mem_singleton.mp hm

theorem mutualTls_buildDoc {doc : Json} (h : buildDoc s inst=some doc)
    (hm : inst.parameters.mtlsEnabled=true) : MutualTls s doc := by
  refine ⟨?_, ?_, commonTlsContext s, fun x hx => mem_tlsContexts h hx, ?_⟩
  · intro l hl
    rw [listenerDocs_eq h] at hl
    obtain ⟨l, _, rfl⟩ := List.mem_map.mp hl
    have hchains : filterChains (listenerDoc s inst l)=[chainDoc s inst l] := rfl
    rw [hchains]
    refine ⟨List.cons_ne_nil _ _, ?_⟩
    intro chain hchain
    rw [List.mem_singleton.mp hchain]
    exact ⟨terminates_chainDoc hm l, forwards_chainDoc hm l⟩
  · intro d hd hne
    rw [clusterDocs_eq h, List.mem_append] at hd
    cases hd with
    | inl huser =>
      obtain ⟨c, _, hc⟩ := mem_userClusters h huser
      rw [hm] at hc
      exact originates_clusterDoc hc
    | inr hsds =>
      split at hsds
      · exact absurd (List.mem_singleton.mp hsds) hne
      · cases hsds
  · rw [sdsCluster_mem_iff h hm, named_commonTlsContext]

/-- Without mTLS a document holds nothing of it. -/
theorem named_plain {doc : Json} (h : buildDoc s inst=some doc)
    (hm : inst.parameters.mtlsEnabled=false) {k : String} (hk : k∈watched) (hr : "route"≠k) :
    Json.named k doc=[] := by
  rw [named_buildDoc hk h, List.append_eq_nil_iff, List.flatMap_eq_nil_iff,
    List.flatMap_eq_nil_iff]
  constructor
  · intro l _
    rw [named_listenerDoc hk, named_managerDoc hk, hm, if_neg hr]
    simp
  · intro d hd
    obtain ⟨c, _, hc⟩ := mem_userClusters h hd
    rw [named_clusterDoc hk hc, hm]
    rfl

theorem plainText_buildDoc {doc : Json} (h : buildDoc s inst=some doc)
    (hm : inst.parameters.mtlsEnabled=false) : PlainText doc :=
  ⟨named_plain h hm (by decide) (by decide), named_plain h hm (by decide) (by decide),
    named_plain h hm (by decide) (by decide)⟩

end Balancer

section Sidecar
variable (s : SidecarSettings) (serviceName : String) (appPort : Int)

theorem terminates_mtlsChain : Terminates (mtlsChain s.toRenderSettings serviceName) := ⟨rfl, rfl⟩

theorem listenerDocs_sidecarDoc : listenerDocs (sidecarDoc s serviceName appPort)=
    [inboundListener s serviceName, outboundListener] := rfl

theorem filterChains_inboundListener : filterChains (inboundListener s serviceName)=
    mtlsChain s.toRenderSettings serviceName::
      if s.meshMtlsStrict then [] else [plaintextChain serviceName] := rfl

theorem named_plaintextChain :
    Json.named "forward_client_cert_details" (plaintextChain serviceName)=[] := by
  simp [plaintextChain, inboundHcm, inboundManager, routerFilter]

theorem named_outboundChain : Json.named "forward_client_cert_details" outboundChain=[] := by
  simp [outboundChain]

theorem named_outboundListener :
    Json.named "forward_client_cert_details" outboundListener=[] := by
  simp [outboundListener, listenerFilter, named_outboundChain, Renderers.socketAddress, int]

/-- Nothing but the chains of the inbound listener forwards. -/
theorem named_sidecarDoc : Json.named "forward_client_cert_details"
    (sidecarDoc s serviceName appPort)=(filterChains (inboundListener s serviceName)).flatMap
      (Json.named "forward_client_cert_details") := by
  have hk : "forward_client_cert_details"∈watched := by decide
  have hsocket := (named_tlsSocket (s := s.toRenderSettings) "UpstreamTlsContext" false).2.2.1
  have haddress := fun host n => named_socketAddress hk host n
  have happ : Json.named "forward_client_cert_details" (localAppDoc appPort)=[] := by
    have hload : Json.named "forward_client_cert_details" (Renderers.loadAssignment localAppCluster
        [Renderers.socketAddress "127.0.0.1" appPort])=[] :=
      named_loadAssignment hk localAppCluster (by simp [haddress])
    simp [localAppDoc, hload]
  have hout : Json.named "forward_client_cert_details"
      (outboundCluster s.toRenderSettings)=[] := by
    simp [outboundCluster, upstreamTlsTransportSocket, hsocket]
  have hsds : ∀ d∈(if s.meshSdsEnabled then [sdsCluster s.toRenderSettings] else []),
      Json.named "forward_client_cert_details" d=[] := by
    intro d hd
    split at hd
    · rw [List.mem_singleton.mp hd, named_sdsCluster hk]
    · cases hd
  have hin : Json.named "forward_client_cert_details" (inboundListener s serviceName)=
      (filterChains (inboundListener s serviceName)).flatMap
        (Json.named "forward_client_cert_details") := by
    rw [filterChains_inboundListener, inboundListener]
    simp [haddress, listenerFilter]
  rw [← hin]
  simp [sidecarDoc, named_outboundListener, happ, hout, haddress, List.flatMap_eq_nil_iff.mpr hsds]

theorem sidecarTls_sidecarDoc : SidecarTls s (sidecarDoc s serviceName appPort) := by
  have hmtls := terminates_mtlsChain s serviceName
  have hchain : ∀ chain∈filterChains (inboundListener s serviceName),
      chain=mtlsChain s.toRenderSettings serviceName ∨
        s.meshMtlsStrict=false ∧ chain=plaintextChain serviceName := by
    intro chain hm
    rw [filterChains_inboundListener] at hm
    cases hs : s.meshMtlsStrict with
    | true => exact Or.inl (by simpa [hs] using hm)
    | false => simpa [hs] using hm
  refine ⟨?_, ?_, ?_⟩
  · intro l hl chain hc hne
    cases List.mem_cons.mp hl with
    | inl he =>
      rw [he] at hc
      cases hchain chain hc with
      | inl he => exact he ▸ hmtls
      | inr he => exact absurd (he.2 ▸ named_plaintextChain serviceName) hne
    | inr hl =>
      rw [List.mem_singleton.mp hl] at hc
      rw [List.mem_singleton.mp hc] at hne
      exact absurd named_outboundChain hne
  · rw [named_sidecarDoc, listenerDocs_sidecarDoc]
    have hout : (filterChains outboundListener).flatMap
        (Json.named "forward_client_cert_details")=[] :=
      List.flatMap_eq_nil_iff.mpr fun c hc => List.mem_singleton.mp hc ▸ named_outboundChain
    rw [List.flatMap_cons, List.flatMap_singleton, hout, List.append_nil]
  · intro hs l hl hport chain hc
    cases List.mem_cons.mp hl with
    | inl he =>
      rw [he] at hc
      cases hchain chain hc with
      | inl he => exact he ▸ hmtls
      | inr he => exact absurd hs (by simp [he.1])
    | inr hl =>
      rw [List.mem_singleton.mp hl] at hport
      have hports : int sidecarOutboundPort=int sidecarInboundPort := Option.some.inj hport
      exact absurd (Json.num.inj hports) (by decide)

variable (lax : Lax)

theorem httpConnectionManager_inboundManager (withXfcc : Bool) :
    httpConnectionManager lax (inboundManager serviceName withXfcc)=true := by
  rw [inboundManager]
  cases withXfcc with
  | true =>
    simp [httpConnectionManager, typedConfig, routeConfig, virtualHost, routeRule, routeMatch,
      routeAction, xfccHcmFields, routerFilter, httpFilter, required, defaulted, orNone, given,
      isStr, listOf, Json.lookup, Json.get?]
  | false =>
    simp [httpConnectionManager, typedConfig, routeConfig, virtualHost, routeRule, routeMatch,
      routeAction, routerFilter, httpFilter, required, defaulted, orNone, given, isStr, listOf,
      Json.lookup, Json.get?]

theorem networkFilter_inboundHcm (withXfcc : Bool) :
    networkFilter lax (inboundHcm serviceName withXfcc)=true := by
  have hmanager : typedConfigValidates lax (inboundManager serviceName withXfcc)=true :=
    typedConfigValidates_of rfl rfl (httpConnectionManager_inboundManager serviceName lax withXfcc)
  simp [inboundHcm, networkFilter, required, isStr, Json.lookup, Json.get?, hmanager]

theorem listenerConfig_inboundListener :
    listenerConfig lax (inboundListener s serviceName)=true := by
  have hfilter := networkFilter_inboundHcm serviceName lax
  have hmtls : filterChain lax (mtlsChain s.toRenderSettings serviceName)=true := by
    simp [mtlsChain, filterChain, required, listOf, Json.lookup, Json.get?, hfilter]
  have hplain : filterChain lax (plaintextChain serviceName)=true := by
    simp [plaintextChain, filterChain, required, listOf, Json.lookup, Json.get?, hfilter]
  rw [inboundListener]
  cases s.meshMtlsStrict with
  | true =>
    simp [listenerConfig, required, isStr, listOf, Json.lookup, Json.get?, hmtls,
      address_socketAddress, sidecarInboundPort]
  | false =>
    simp [listenerConfig, required, isStr, listOf, Json.lookup, Json.get?, hmtls, hplain,
      address_socketAddress, sidecarInboundPort]

theorem typedConfigValidates_of_ne {v : Json} {url : String} (hd : isDict v=true)
    (hu : Json.get? "@type" v=some (.str url))
    (hn : ¬ "HttpConnectionManager".toList <:+: url.toList) : typedConfigValidates lax v=true := by
  rw [typedConfigValidates, hd, hu, Bool.true_and]
  exact if_neg hn

theorem listenerConfig_outboundListener : listenerConfig lax outboundListener=true := by
  have hproxy : typedConfigValidates lax (.obj [("@type", .str
        "type.googleapis.com/envoy.extensions.filters.network.tcp_proxy.v3.TcpProxy"),
      ("stat_prefix", .str "outbound"), ("cluster", .str outboundClusterName)])=true :=
    typedConfigValidates_of_ne lax rfl rfl (by decide +kernel)
  have hchain : filterChain lax outboundChain=true := by
    simp [outboundChain, filterChain, networkFilter, required, isStr, listOf, Json.lookup,
      Json.get?, hproxy]
  simp [outboundListener, listenerConfig, required, isStr, listOf, Json.lookup, Json.get?, hchain,
    address_socketAddress, sidecarOutboundPort]

theorem clusterConfig_outboundCluster :
    clusterConfig lax (outboundCluster s.toRenderSettings)=true := by
  simp [outboundCluster, clusterConfig, required, defaulted, isStr, Json.lookup, Json.get?]

theorem clusterConfig_localAppDoc :
    clusterConfig lax (localAppDoc appPort)=decide (1 ≤ appPort ∧ appPort≤65535) := by
  have hload : loadAssignment lax (Renderers.loadAssignment localAppCluster
      [Renderers.socketAddress "127.0.0.1" appPort])=decide (1 ≤ appPort ∧ appPort≤65535) := by
    rw [Bool.eq_iff_iff, loadAssignment_iff]
    simp [address_socketAddress]
  simp [localAppDoc, clusterConfig, required, defaulted, isStr, Json.lookup, Json.get?,
    orNone_loadAssignment, hload]

theorem validateBootstrap_sidecarDoc : validateBootstrap lax (sidecarDoc s serviceName appPort)=
    decide (1 ≤ appPort ∧ appPort≤65535) := by
  have hin := listenerConfig_inboundListener s serviceName lax
  have hout := listenerConfig_outboundListener lax
  have happ := clusterConfig_localAppDoc appPort lax
  have hcluster := clusterConfig_outboundCluster s lax
  have hsds : (if s.meshSdsEnabled then [sdsCluster s.toRenderSettings] else []).all
      (clusterConfig lax)=true := by
    split
    · simp [clusterConfig_sdsCluster]
    · rfl
  rw [sidecarDoc]
  generalize (if s.meshSdsEnabled then [sdsCluster s.toRenderSettings] else [])=sds at hsds ⊢
  rw [List.all_eq_true] at hsds
  simp [validateBootstrap, staticResources, adminConfig, required, defaulted, orNone, isStr, listOf,
    Json.lookup, Json.get?, hin, hout, happ, hcluster, address_socketAddress]
  exact fun _ _ => hsds

/-- A sidecar renders exactly when the port of its service is one. -/
theorem renderSidecarBootstrap_ok_iff {doc : Json} :
    renderSidecarBootstrap lax s serviceName appPort=.ok doc ↔
      doc=sidecarDoc s serviceName appPort ∧ 1 ≤ appPort ∧ appPort≤65535 := by
  rw [renderSidecarBootstrap, validateBootstrap_sidecarDoc]
  by_cases hp : 1 ≤ appPort ∧ appPort≤65535
  · rw [decide_eq_true hp, if_pos rfl]
    simp only [Except.ok.injEq, hp, and_self, and_true]
    exact eq_comm
  · rw [decide_eq_false hp, if_neg Bool.false_ne_true]
    simp [hp]

end Sidecar

/-- With mTLS no hop of a rendered configuration is in plain text, without it none is encrypted;
a sidecar forwards a certificate only where it asks for one. -/
theorem no_plaintext_hop (lax : Lax) (s : SidecarSettings) (inst : ServiceInstance)
    (serviceName : String) (appPort : Int) (doc : Json) :
    (renderEnvoy lax s.toRenderSettings inst=.ok doc →
      (inst.parameters.mtlsEnabled=true → MutualTls s.toRenderSettings doc) ∧
      (inst.parameters.mtlsEnabled=false → PlainText doc)) ∧
    (renderSidecarBootstrap lax s serviceName appPort=.ok doc → SidecarTls s doc) := by
  constructor
  · intro h
    have hdoc := ((renderEnvoy_ok_iff lax).mp h).1
    exact ⟨mutualTls_buildDoc hdoc, plainText_buildDoc hdoc⟩
  · intro h
    rw [((renderSidecarBootstrap_ok_iff s serviceName appPort lax).mp h).1]
    exact sidecarTls_sidecarDoc s serviceName appPort

theorem no_plaintext_hop_portal :
    (∃ doc, renderEnvoy ControlPlane.samplePlane.codec.lax { meshSdsEnabled := true }
        (portal ["app", "db"] "app")=.ok doc ∧ MutualTls { meshSdsEnabled := true } doc) ∧
    ∃ doc, renderSidecarBootstrap ControlPlane.samplePlane.codec.lax
        { meshSdsEnabled := true, meshMtlsStrict := true } "broker" 8080=.ok doc ∧
      SidecarTls { meshSdsEnabled := true, meshMtlsStrict := true } doc := by
  obtain ⟨doc, h⟩ := portal_rendered ControlPlane.samplePlane.codec.lax { meshSdsEnabled := true }
    ["app", "db"] "app"
  have hsidecar := (renderSidecarBootstrap_ok_iff { meshSdsEnabled := true, meshMtlsStrict := true }
    "broker" 8080 ControlPlane.samplePlane.codec.lax).mpr ⟨rfl, by decide, by decide⟩
  have hportal := no_plaintext_hop ControlPlane.samplePlane.codec.lax
    { meshSdsEnabled := true, meshMtlsStrict := true } (portal ["app", "db"] "app") "broker" 8080
  exact ⟨⟨doc, h, ((hportal doc).1 h).1 rfl⟩, _, hsidecar, (hportal _).2 hsidecar⟩

end Sovereign.EnvoyV3
