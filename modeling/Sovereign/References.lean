import Sovereign.Endpoints

/-! Which clusters a rendered Envoy configuration refers to, and which it has. -/
namespace Sovereign.Json

mutual
/-- The members of a name, at every depth. -/
def named (name : String) : Json → List Json
  | .arr items => namedItems name items
  | .obj members => namedMembers name members
  | _ => []
def namedItems (name : String) : List Json → List Json
  | [] => []
  | x::xs => named name x++namedItems name xs
def namedMembers (name : String) : List (String × Json) → List Json
  | [] => []
  | (k,x)::ms => (if k=name then [x] else [])++(named name x++namedMembers name ms)
end

section Named
variable (name : String)

@[simp] theorem named_str (s : String) : named name (.str s)=[] := rfl

@[simp] theorem named_bool (b : Bool) : named name (.bool b)=[] := rfl

@[simp] theorem named_num (q : Rat) : named name (.num q)=[] := rfl

@[simp] theorem named_arr (xs : List Json) : named name (.arr xs)=xs.flatMap (named name) := by
  have h : ∀ xs, namedItems name xs=xs.flatMap (named name) := by
    intro xs
    induction xs with
    | nil => rfl
    | cons x xs ih => rw [namedItems, ih, List.flatMap_cons]
  exact h xs

@[simp] theorem named_obj_nil : named name (.obj [])=[] := rfl

@[simp] theorem named_obj_cons (k : String) (x : Json) (ms : List (String × Json)) :
    named name (.obj ((k, x)::ms))=
      (if k=name then [x] else [])++(named name x++named name (.obj ms)) := rfl

end Named
end Sovereign.Json

namespace Sovereign.EnvoyV3
open Sovereign Packs Renderers Traverse

/-! What a document refers to and what it has. -/

def listenerDocs (doc : Json) : List Json := items (Json.path ["static_resources", "listeners"] doc)

def routeClusters (doc : Json) : List Json :=
  (Json.named "route" doc).filterMap (Json.get? "cluster")

def sdsClusters (doc : Json) : List Json :=
  (Json.named "sds_config" doc).flatMap (Json.named "cluster_name")

def entries (doc name : Json) : List Json :=
  (clusterDocs doc).filter fun d => decide (Json.get? "name" d=some name)

/-- Every reference names one cluster, the one it means, and names are not shared. -/
structure Closed (s : RenderSettings) (inst : ServiceInstance) (doc : Json) : Prop where
  routes : ∀ name∈routeClusters doc, ∃ c∈inst.parameters.clusters, ∃ d,
    name=.str c.name ∧ clusterDoc s inst.parameters.mtlsEnabled c=some d ∧ entries doc name=[d]
  sds : ∀ name∈sdsClusters doc, entries doc name=[sdsCluster s]
  clusters : ((clusterDocs doc).map (Json.get? "name")).Nodup
  listeners : ((listenerDocs doc).map (Json.get? "name")).Nodup

/-- The names of the parameters are not shared, nor that of the SDS cluster where it is added, and
a route names a cluster. -/
structure Named (s : RenderSettings) (inst : ServiceInstance) : Prop where
  routes : inst.parameters.listeners≠[] →
    ∀ r∈inst.parameters.routes, r.cluster∈inst.parameters.clusters.map Cluster.name
  clusters : (inst.parameters.clusters.map Cluster.name).Nodup
  sds : inst.parameters.mtlsEnabled=true → s.meshSdsEnabled=true →
    sdsClusterName∉inst.parameters.clusters.map Cluster.name
  listeners : (inst.parameters.listeners.map Listener.name).Nodup

section Parts
variable {s : RenderSettings} {inst : ServiceInstance}

def watched : List String :=
  ["route", "sds_config", "common_tls_context", "transport_socket", "forward_client_cert_details"]

def unwatched : List String :=
  ["name", "connect_timeout", "type", "load_assignment", "cluster_name", "endpoints",
   "lb_endpoints", "endpoint", "address", "socket_address", "port_value", "pipe", "path",
   "http2_protocol_options", "filter_chains", "filters", "typed_config", "@type", "stat_prefix",
   "route_config", "virtual_hosts", "domains", "routes", "http_filters",
   "set_current_client_cert_details", "uri", "match", "prefix", "direct_response", "status",
   "cluster", "static_resources", "listeners", "clusters", "admin", "access_log_path"]

theorem watched_ne {k : String} (hk : k∈watched) : ∀ n∈unwatched, n≠k := by
  have hall : ∀ n∈unwatched, n∉watched := by decide
  exact fun n hn he => hall n hn (he ▸ hk)

theorem named_socketAddress {k : String} (hk : k∈watched) (host : String) (n : Int) :
    Json.named k (Renderers.socketAddress host n)=[] := by
  have hne := watched_ne hk
  simp only [unwatched] at hne
  simp [Renderers.socketAddress, int, hne]

theorem named_loadAssignment {k : String} (hk : k∈watched) (name : String) {addresses : List Json}
    (h : ∀ a∈addresses, Json.named k a=[]) :
    Json.named k (Renderers.loadAssignment name addresses)=[] := by
  have hne := watched_ne hk
  simp only [unwatched] at hne
  simp [Renderers.loadAssignment, hne, List.flatMap_map]
  exact h

theorem named_clusterDoc {k : String} (hk : k∈watched) {mtlsEnabled : Bool} {c : Cluster} {d : Json}
    (h : clusterDoc s mtlsEnabled c=some d) : Json.named k d=if mtlsEnabled then
      (if "transport_socket"=k then [upstreamTlsTransportSocket s] else [])++
        Json.named k (upstreamTlsTransportSocket s) else [] := by
  obtain ⟨addresses, ha, rfl⟩ := Option.map_eq_some_iff.mp h
  have hload : Json.named k (Renderers.loadAssignment c.name addresses)=[] := by
    refine named_loadAssignment hk c.name ((forall_mem_mapM_iff ha).mpr ?_)
    intro ep _ a hep
    rw [endpointAddress_eq] at hep
    obtain ⟨p, _, rfl⟩ := Option.map_eq_some_iff.mp hep
    exact named_socketAddress hk p.1 p.2
  have hne := watched_ne hk
  simp only [unwatched] at hne
  cases mtlsEnabled with
  | true => simp [hload, hne]
  | false => simp [hload, hne]

theorem named_sdsCluster {k : String} (hk : k∈watched) : Json.named k (sdsCluster s)=[] := by
  have hne := watched_ne hk
  have hload : Json.named k (Renderers.loadAssignment sdsClusterName
      [.obj [("pipe", .obj [("path", .str s.meshSdsSocketPath)])]])=[] := by
    refine named_loadAssignment hk sdsClusterName fun a ha => ?_
    rw [List.mem_singleton.mp ha]
    simp only [unwatched] at hne
    simp [hne]
  simp only [unwatched] at hne
  simp [sdsCluster, hload, hne]

theorem named_tlsSocket (context : String) (requireClient : Bool) :
    Json.named "route" (tlsSocket s context requireClient)=[] ∧
    Json.named "transport_socket" (tlsSocket s context requireClient)=[] ∧
    Json.named "forward_client_cert_details" (tlsSocket s context requireClient)=[] ∧
    Json.named "common_tls_context" (tlsSocket s context requireClient)=[commonTlsContext s] ∧
    Json.named "sds_config" (tlsSocket s context requireClient)=
      if s.meshSdsEnabled then [sdsConfig, sdsConfig] else [] := by
  cases hs : s.meshSdsEnabled with
  | true =>
    cases requireClient with
    | true => simp [tlsSocket, commonTlsContext, sdsCommonTlsContext, sdsConfig, hs]
    | false => simp [tlsSocket, commonTlsContext, sdsCommonTlsContext, sdsConfig, hs]
  | false =>
    cases requireClient with
    | true => simp [tlsSocket, commonTlsContext, fileCommonTlsContext, hs]
    | false => simp [tlsSocket, commonTlsContext, fileCommonTlsContext, hs]

theorem named_routeDocs {k : String} (hk : k∈watched) (params : LbParameters) :
    (routeDocs params).flatMap (Json.named k)=
      if "route"=k then params.routes.map fun r => .obj [("cluster", .str r.cluster)] else [] := by
  have hne := watched_ne hk
  simp only [unwatched] at hne
  rw [routeDocs]
  cases params.routes with
  | nil => simp [int, hne]
  | cons r rs =>
    by_cases hr : "route"=k
    · simp [List.flatMap_map, hne, hr]
      exact List.map_eq_flatMap.symm
    · simp [List.flatMap_map, hne, hr]

theorem named_managerDoc {k : String} (hk : k∈watched) (l : Listener) :
    Json.named k (managerDoc inst l)=
      (if "route"=k then inst.parameters.routes.map fun r => .obj [("cluster", .str r.cluster)]
        else [])++
      if "forward_client_cert_details"=k ∧ inst.parameters.mtlsEnabled then [.str "SANITIZE_SET"]
        else [] := by
  have hroutes := named_routeDocs hk inst.parameters
  have hne := watched_ne hk
  simp only [unwatched] at hne
  have hdomains : ∀ xs : List String, xs.flatMap (fun a => Json.named k (.str a))=[] := by simp
  cases hm : inst.parameters.mtlsEnabled with
  | true =>
    by_cases hf : "forward_client_cert_details"=k
    · simp [managerDoc, routerFilter, xfccHcmFields, hm, hne, hroutes, hf, List.flatMap_map]
    · simp [managerDoc, routerFilter, xfccHcmFields, hm, hne, hroutes, hf, List.flatMap_map]
  | false => simp [managerDoc, routerFilter, hm, hne, hroutes, List.flatMap_map]

theorem named_listenerDoc {k : String} (hk : k∈watched) (l : Listener) :
    Json.named k (listenerDoc s inst l)=Json.named k (managerDoc inst l)++
      if inst.parameters.mtlsEnabled then
        (if "transport_socket"=k then [downstreamTlsTransportSocket s] else [])++
          Json.named k (downstreamTlsTransportSocket s) else [] := by
  have haddress := named_socketAddress hk "0.0.0.0" l.port
  have hne := watched_ne hk
  simp only [unwatched] at hne
  rw [listenerDoc_eq, chainDoc]
  generalize managerDoc inst l=manager
  generalize downstreamTlsTransportSocket s=socket
  cases inst.parameters.mtlsEnabled with
  | true => simp [haddress, hne]
  | false => simp [haddress, hne]

/-- A built document holds what its listeners and its clusters hold. -/
theorem named_buildDoc {k : String} (hk : k∈watched) {doc : Json} (h : buildDoc s inst=some doc) :
    Json.named k doc=
      inst.parameters.listeners.flatMap (fun l => Json.named k (listenerDoc s inst l))++
      ((clusterDocs doc).take inst.parameters.clusters.length).flatMap (Json.named k) := by
  obtain ⟨clusters, hc, hdoc⟩ := buildDoc_eq_some_iff.mp h
  have htake := clusterDocs_buildDoc h
  rw [hc] at htake
  rw [← Option.some.inj htake, hdoc]
  have hne := watched_ne hk
  simp only [unwatched] at hne
  have hsds : Json.named k (sdsCluster s)=[] := named_sdsCluster hk
  have haddress := named_socketAddress hk "0.0.0.0" 9901
  generalize sdsCluster s=sds at hsds ⊢
  cases inst.parameters.mtlsEnabled && s.meshSdsEnabled with
  | true => simp [hne, List.flatMap_map, haddress, hsds]
  | false => simp [hne, List.flatMap_map, haddress]

/-! References and names of a built document. -/

theorem clusterDocs_eq {doc : Json} (h : buildDoc s inst=some doc) : clusterDocs doc=
    (clusterDocs doc).take inst.parameters.clusters.length++
      if inst.parameters.mtlsEnabled && s.meshSdsEnabled then [sdsCluster s] else [] := by
  obtain ⟨clusters, hc, hdoc⟩ := buildDoc_eq_some_iff.mp h
  have htake := clusterDocs_buildDoc h
  rw [hc] at htake
  rw [← Option.some.inj htake, hdoc]
  rfl

theorem name_clusterDoc {mtlsEnabled : Bool} {c : Cluster} {d : Json}
    (h : clusterDoc s mtlsEnabled c=some d) : Json.get? "name" d=some (.str c.name) := by
  obtain ⟨addresses, _, rfl⟩ := Option.map_eq_some_iff.mp h
  rfl

theorem names_clusterDocs {doc : Json} (h : buildDoc s inst=some doc) :
    (clusterDocs doc).map (Json.get? "name")=
      (inst.parameters.clusters.map Cluster.name++
        if inst.parameters.mtlsEnabled && s.meshSdsEnabled then [sdsClusterName] else []).map
          fun n => some (.str n) := by
  have hall := mapM_eq_some_iff.mp (clusterDocs_buildDoc h)
  have huser : ((clusterDocs doc).take inst.parameters.clusters.length).map (Json.get? "name")=
      (inst.parameters.clusters.map Cluster.name).map fun n => some (.str n) := by
    generalize (clusterDocs doc).take inst.parameters.clusters.length=ds at hall ⊢
    generalize inst.parameters.clusters=cs at hall ⊢
    induction hall with
    | nil => rfl
    | cons hd _ ih => rw [List.map_cons, List.map_cons, List.map_cons, ih, name_clusterDoc hd]
  rw [clusterDocs_eq h, List.map_append, huser, List.map_append]
  split
  · rfl
  · rfl

theorem listenerDocs_eq {doc : Json} (h : buildDoc s inst=some doc) :
    listenerDocs doc=inst.parameters.listeners.map (listenerDoc s inst) := by
  obtain ⟨clusters, hc, hdoc⟩ := buildDoc_eq_some_iff.mp h
  rw [hdoc]
  rfl

theorem names_listenerDocs {doc : Json} (h : buildDoc s inst=some doc) :
    (listenerDocs doc).map (Json.get? "name")=
      (inst.parameters.listeners.map Listener.name).map fun n => some (.str n) := by
  rw [listenerDocs_eq h, List.map_map, List.map_map]
  rfl

theorem mem_userClusters {doc d : Json} (h : buildDoc s inst=some doc)
    (hd : d∈(clusterDocs doc).take inst.parameters.clusters.length) :
    ∃ c∈inst.parameters.clusters, clusterDoc s inst.parameters.mtlsEnabled c=some d :=
  (forall_mem_mapM_iff (clusterDocs_buildDoc h)
    (P := fun d => ∃ c∈inst.parameters.clusters,
      clusterDoc s inst.parameters.mtlsEnabled c=some d)).mpr (fun c hc _ hcd => ⟨c, hc, hcd⟩) d hd

theorem mem_of_mem_clusters {doc : Json} (h : buildDoc s inst=some doc) {c : Cluster}
    (hc : c∈inst.parameters.clusters) :
    ∃ d, clusterDoc s inst.parameters.mtlsEnabled c=some d ∧ d∈clusterDocs doc := by
  have hdocs := clusterDocs_buildDoc h
  obtain ⟨d, hd⟩ := mapM_isSome_iff.mp ⟨_, hdocs⟩ c hc
  have hmem := (forall_mem_mapM_iff hdocs).mp (fun _ hy => hy) c hc d hd
  exact ⟨d, hd, List.mem_of_mem_take hmem⟩

theorem mem_routeClusters {doc name : Json} (h : buildDoc s inst=some doc) :
    name∈routeClusters doc ↔ inst.parameters.listeners≠[] ∧
      ∃ r∈inst.parameters.routes, name=.str r.cluster := by
  have hk : "route"∈watched := by decide
  have hsocket := fun context b => (named_tlsSocket (s := s) context b).1
  have hlistener : ∀ l, Json.named "route" (listenerDoc s inst l)=
      inst.parameters.routes.map fun r => .obj [("cluster", .str r.cluster)] := by
    intro l
    rw [named_listenerDoc hk, named_managerDoc hk, downstreamTlsTransportSocket, hsocket]
    simp
  have hclusters : ((clusterDocs doc).take inst.parameters.clusters.length).flatMap
      (Json.named "route")=[] := by
    rw [List.flatMap_eq_nil_iff]
    intro d hd
    obtain ⟨c, _, hc⟩ := mem_userClusters h hd
    rw [named_clusterDoc hk hc, upstreamTlsTransportSocket, hsocket]
    simp
  rw [routeClusters, named_buildDoc hk h, hclusters, List.append_nil]
  simp only [hlistener]
  rw [List.mem_filterMap]
  simp only [List.mem_flatMap, List.mem_map]
  constructor
  · intro hm
    obtain ⟨_, ⟨l, hl, r, hr, rfl⟩, hname⟩ := hm
    exact ⟨List.ne_nil_of_mem hl, r, hr, (Option.some.inj hname).symm⟩
  · intro hm
    obtain ⟨hne, r, hr, rfl⟩ := hm
    obtain ⟨l, hl⟩ := List.exists_mem_of_ne_nil _ hne
    exact ⟨_, ⟨l, hl, r, hr, rfl⟩, rfl⟩

/-- What is watched and stands in a socket stands in one of a load balancer with mTLS. -/
theorem mem_sockets {k : String} (hk : k∈watched) (hr : "route"≠k)
    (hf : "forward_client_cert_details"≠k) (ht : "transport_socket"≠k) {doc x : Json}
    (h : buildDoc s inst=some doc) (hx : x∈Json.named k doc) : inst.parameters.mtlsEnabled=true ∧
      ∃ context requireClient, x∈Json.named k (tlsSocket s context requireClient) := by
  have hpart : ∀ context b, x∈(if inst.parameters.mtlsEnabled then
      (if "transport_socket"=k then [tlsSocket s context b] else [])++
        Json.named k (tlsSocket s context b) else []) →
      inst.parameters.mtlsEnabled=true ∧ x∈Json.named k (tlsSocket s context b) := by
    intro context b hm
    rw [if_neg ht, List.nil_append] at hm
    split at hm
    · next hmtls => exact ⟨hmtls, hm⟩
    · cases hm
  rw [named_buildDoc hk h, List.mem_append, List.mem_flatMap, List.mem_flatMap] at hx
  cases hx with
  | inl hl =>
    obtain ⟨l, _, hm⟩ := hl
    rw [named_listenerDoc hk, named_managerDoc hk, if_neg hr, if_neg (fun he => hf he.1),
      List.nil_append, List.nil_append] at hm
    obtain ⟨hmtls, hm⟩ := hpart "DownstreamTlsContext" true hm
    exact ⟨hmtls, _, _, hm⟩
  | inr hc =>
    obtain ⟨d, hd, hm⟩ := hc
    obtain ⟨c, _, hcd⟩ := mem_userClusters h hd
    rw [named_clusterDoc hk hcd] at hm
    obtain ⟨hmtls, hm⟩ := hpart "UpstreamTlsContext" false hm
    exact ⟨hmtls, _, _, hm⟩

theorem mem_sdsConfigs {doc x : Json} (h : buildDoc s inst=some doc)
    (hx : x∈Json.named "sds_config" doc) : x=sdsConfig ∧ inst.parameters.mtlsEnabled=true ∧
      s.meshSdsEnabled=true := by
  obtain ⟨hmtls, context, b, hm⟩ := mem_sockets (by decide) (by decide) (by decide) (by decide) h hx
  rw [(named_tlsSocket context b).2.2.2.2] at hm
  split at hm
  · next hs => exact ⟨by simpa using hm, hmtls, hs⟩
  · cases hm

theorem mem_sdsClusters {doc name : Json} (h : buildDoc s inst=some doc)
    (hn : name∈sdsClusters doc) : name=.str sdsClusterName ∧ inst.parameters.mtlsEnabled=true ∧
      s.meshSdsEnabled=true := by
  obtain ⟨x, hx, hname⟩ := List.mem_flatMap.mp hn
  obtain ⟨rfl, hon⟩ := mem_sdsConfigs h hx
  refine ⟨?_, hon⟩
  simpa [sdsConfig] using hname

/-- Of values that are not shared each has one holder. -/
theorem filter_eq_singleton {α β : Type} [DecidableEq β] {f : α → β} {xs : List α} {x : α}
    (h : (xs.map f).Nodup) (hx : x∈xs) : xs.filter (fun y => decide (f y=f x))=[x] := by
  induction xs with
  | nil => cases hx
  | cons y ys ih =>
    rw [List.map_cons, List.nodup_cons] at h
    cases List.mem_cons.mp hx with
    | inl he =>
      have hnone : ys.filter (fun z => decide (f z=f x))=[] := by
        rw [List.filter_eq_nil_iff]
        intro z hz hf
        exact h.1 (he ▸ of_decide_eq_true hf ▸ List.mem_map_of_mem hz)
      rw [← he, List.filter_cons_of_pos (by simp), hnone]
    | inr hx =>
      have hne : f y≠f x := fun he => h.1 (he ▸ List.mem_map_of_mem hx)
      rw [List.filter_cons_of_neg (by simpa using hne)]
      exact ih h.2 hx

/-- The names of a document are not shared exactly when those of the parameters are not. -/
theorem nodup_clusterDocs {doc : Json} (h : buildDoc s inst=some doc) :
    ((clusterDocs doc).map (Json.get? "name")).Nodup ↔
      (inst.parameters.clusters.map Cluster.name).Nodup ∧
        (inst.parameters.mtlsEnabled=true → s.meshSdsEnabled=true →
          sdsClusterName∉inst.parameters.clusters.map Cluster.name) := by
  have hinj : Function.Injective fun n : String => some (Json.str n) := by
    intro a b he
    exact Json.str.inj (Option.some.inj he)
  rw [names_clusterDocs h, List.nodup_map_iff hinj, List.nodup_append']
  cases inst.parameters.mtlsEnabled with
  | true =>
    cases s.meshSdsEnabled with
    | true => simp
    | false => simp
  | false => simp

theorem nodup_listenerDocs {doc : Json} (h : buildDoc s inst=some doc) :
    ((listenerDocs doc).map (Json.get? "name")).Nodup ↔
      (inst.parameters.listeners.map Listener.name).Nodup := by
  rw [names_listenerDocs h, List.nodup_map_iff]
  intro a b he
  exact Json.str.inj (Option.some.inj he)

/-- Under names that are not shared a user's cluster is the entry of its name. -/
theorem entries_user {doc : Json} (h : buildDoc s inst=some doc)
    (hn : ((clusterDocs doc).map (Json.get? "name")).Nodup) {c : Cluster}
    (hc : c∈inst.parameters.clusters) :
    ∃ d, clusterDoc s inst.parameters.mtlsEnabled c=some d ∧ entries doc (.str c.name)=[d] := by
  obtain ⟨d, hd, hdoc⟩ := mem_of_mem_clusters h hc
  refine ⟨d, hd, ?_⟩
  rw [entries, ← name_clusterDoc hd]
  exact filter_eq_singleton hn hdoc

/-- And the agent's cluster that of its own. -/
theorem entries_sds {doc : Json} (h : buildDoc s inst=some doc)
    (hn : ((clusterDocs doc).map (Json.get? "name")).Nodup)
    (hm : inst.parameters.mtlsEnabled=true) (hs : s.meshSdsEnabled=true) :
    entries doc (.str sdsClusterName)=[sdsCluster s] := by
  have hmem : sdsCluster s∈clusterDocs doc := by
    rw [clusterDocs_eq h, hm, hs]
    exact List.mem_append_right _ List.mem_cons_self
  have hname : Json.get? "name" (sdsCluster s)=some (.str sdsClusterName) := rfl
  rw [entries, ← hname]
  exact filter_eq_singleton hn hmem

/-- A rendered configuration is closed exactly when the parameters name what they use. -/
theorem closed_iff_named {lax : Lax} {doc : Json} (h : renderEnvoy lax s inst=.ok doc) :
    Closed s inst doc ↔ Named s inst := by
  have hdoc : buildDoc s inst=some doc := ((renderEnvoy_ok_iff lax).mp h).1
  constructor
  · intro hclosed
    obtain ⟨hclusters, hsds⟩ := (nodup_clusterDocs hdoc).mp hclosed.clusters
    refine ⟨?_, hclusters, hsds, (nodup_listenerDocs hdoc).mp hclosed.listeners⟩
    intro hl r hr
    obtain ⟨c, hc, _, he, _⟩ := hclosed.routes _ ((mem_routeClusters hdoc).mpr ⟨hl, r, hr, rfl⟩)
    exact List.mem_map.mpr ⟨c, hc, (Json.str.inj he).symm⟩
  · intro hnamed
    have hnodup := (nodup_clusterDocs hdoc).mpr ⟨hnamed.clusters, hnamed.sds⟩
    refine ⟨?_, ?_, hnodup, (nodup_listenerDocs hdoc).mpr hnamed.listeners⟩
    · intro name hname
      obtain ⟨hl, r, hr, rfl⟩ := (mem_routeClusters hdoc).mp hname
      obtain ⟨c, hc, he⟩ := List.mem_map.mp (hnamed.routes hl r hr)
      obtain ⟨d, hd, hentries⟩ := entries_user hdoc hnodup hc
      exact ⟨c, hc, d, by rw [he], hd, by rw [← he]; exact hentries⟩
    · intro name hname
      obtain ⟨rfl, hm, hs⟩ := mem_sdsClusters hdoc hname
      exact entries_sds hdoc hnodup hm hs

def portal (names : List String) (target : String) : ServiceInstance :=
  { instanceId := "lb-1", serviceId := "sovereign-envoy-lb", planId := "standard-regional"
    parameters := { routes := [{ host := "app.internal", cluster := target }]
                    clusters := names.map fun n =>
                      ⟨n, ["10.0.0.1:80"], List.cons_ne_nil _ _⟩
                    mtlsEnabled := true } }

theorem portal_rendered (lax : Lax) (s : RenderSettings) (names : List String) (target : String) :
    ∃ doc, renderEnvoy lax s (portal names target)=.ok doc := by
  have ha : endpointAddress "10.0.0.1:80"=some (Renderers.socketAddress "10.0.0.1" 80) := by
    decide +kernel
  have hendpoints : ∀ c∈(portal names target).parameters.clusters, c.endpoints=["10.0.0.1:80"] := by
    intro c hc
    obtain ⟨n, _, rfl⟩ := List.mem_map.mp hc
    rfl
  obtain ⟨doc, hdoc⟩ := (ServiceType.buildDoc_some_iff s (portal names target)).mpr <| by
    intro c hc ep hep
    rw [hendpoints c hc] at hep
    rw [List.mem_singleton.mp hep]
    exact (ServiceType.endpointAddress_some_iff _).mp ⟨_, ha⟩
  refine ⟨doc, (renderEnvoy_ok_iff lax).mpr ⟨hdoc, (validateBootstrap_buildDoc hdoc).mpr ?_⟩⟩
  intro c hc ep hep a he
  rw [hendpoints c hc] at hep
  rw [List.mem_singleton.mp hep, ha] at he
  rw [← Option.some.inj he, address_socketAddress]
  decide

theorem closed_portal : ∃ doc,
    renderEnvoy ControlPlane.samplePlane.codec.lax { meshSdsEnabled := true }
      (portal ["app", "db"] "app")=.ok doc ∧
    Closed { meshSdsEnabled := true } (portal ["app", "db"] "app") doc := by
  obtain ⟨doc, h⟩ := portal_rendered ControlPlane.samplePlane.codec.lax { meshSdsEnabled := true }
    ["app", "db"] "app"
  have hnamed : Named { meshSdsEnabled := true } (portal ["app", "db"] "app") := by
    refine ⟨?_, by decide, by decide, by decide⟩
    decide
  exact ⟨doc, h, (closed_iff_named h).mpr hnamed⟩

theorem portal_open {names : List String} {target : String}
    (hnot : ¬ (target∈names ∧ names.Nodup ∧ sdsClusterName∉names)) :
    ∃ doc, renderEnvoy ControlPlane.samplePlane.codec.lax { meshSdsEnabled := true }
        (portal names target)=.ok doc ∧
      ¬ Closed { meshSdsEnabled := true } (portal names target) doc := by
  obtain ⟨doc, h⟩ := portal_rendered ControlPlane.samplePlane.codec.lax { meshSdsEnabled := true }
    names target
  have hdoc := ((renderEnvoy_ok_iff _).mp h).1
  have hnames : (portal names target).parameters.clusters.map Cluster.name=names := by
    simp [portal, Function.comp_def]
  refine ⟨doc, h, ?_⟩
  intro hclosed
  have hfree := (nodup_clusterDocs hdoc).mp hclosed.clusters
  obtain ⟨c, hc, _, he, _⟩ := hclosed.routes (.str target)
    ((mem_routeClusters hdoc).mpr ⟨List.cons_ne_nil _ _, _, List.mem_cons_self, rfl⟩)
  have htarget : target∈names := by
    rw [← hnames]
    exact List.mem_map.mpr ⟨c, hc, (Json.str.inj he).symm⟩
  rw [hnames] at hfree
  exact hnot ⟨htarget, hfree.1, hfree.2 rfl rfl⟩

/-- A route to no cluster, two clusters of one name, and a user's cluster under the agent's name. -/
theorem not_closed :
    (∃ doc, renderEnvoy ControlPlane.samplePlane.codec.lax { meshSdsEnabled := true }
        (portal ["app"] "db")=.ok doc ∧
      ¬ Closed { meshSdsEnabled := true } (portal ["app"] "db") doc) ∧
    (∃ doc, renderEnvoy ControlPlane.samplePlane.codec.lax { meshSdsEnabled := true }
        (portal ["app", "app"] "app")=.ok doc ∧
      ¬ Closed { meshSdsEnabled := true } (portal ["app", "app"] "app") doc) ∧
    ∃ doc, renderEnvoy ControlPlane.samplePlane.codec.lax { meshSdsEnabled := true }
        (portal ["app", "spiffe_sds"] "app")=.ok doc ∧
      ¬ Closed { meshSdsEnabled := true } (portal ["app", "spiffe_sds"] "app") doc :=
  ⟨portal_open (by decide), portal_open (by decide), portal_open (by decide)⟩

end Parts
end Sovereign.EnvoyV3
