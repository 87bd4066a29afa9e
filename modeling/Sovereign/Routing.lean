import Sovereign.ControlPlane
import Sovereign.EnvoySchema
import Sovereign.JsonNumber
import Sovereign.Utf8

/-! What the rendered Envoy configuration does with a request. The proxy picks the virtual
host that lists the request's host and then its first route whose prefix begins the path;
the routes of all hosts stand in one virtual host. -/
namespace Sovereign.Routing
open Sovereign Renderers
open Sovereign.EnvoyV3 (hostDomains routeDocs)

def items (name : String) (doc : Json) : List Json :=
  match doc.get? name with
  | some (.arr xs) => xs
  | _ => []

def text (names : List String) (doc : Json) : Option String :=
  match doc.path names with
  | some (.str s) => some s
  | _ => none

def listenersOf (doc : Json) : List Json :=
  ((doc.get? "static_resources").map (items "listeners")).getD []

def virtualHosts (listener : Json) : List Json :=
  (do
    let chain ← (items "filter_chains" listener).head?
    let filter ← (items "filters" chain).head?
    let config ← filter.path ["typed_config", "route_config"]
    pure (items "virtual_hosts" config)).getD []

def serves (host : String) (virtualHost : Json) : Bool :=
  decide (Json.str host∈items "domains" virtualHost)

def covers (p path : String) : Bool := p.toList.isPrefixOf path.toList

theorem covers_refl (p : String) : covers p p=true := by
  simp [covers]

theorem covers_trans {p q path : String} (hpq : covers p q=true) (hq : covers q path=true) :
    covers p path=true := by
  simp only [covers, List.isPrefixOf_iff_prefix] at *
  exact hpq.trans hq

def matchesPath (path : String) (route : Json) : Bool :=
  match text ["match", "prefix"] route with
  | some p => covers p path
  | none => false

/-- The cluster a request is forwarded to; a direct response forwards nothing. -/
def forward (host path : String) (listener : Json) : Option String := do
  let virtualHost ← (virtualHosts listener).find? (serves host)
  let route ← (items "routes" virtualHost).find? (matchesPath path)
  text ["route", "cluster"] route

def Declares (routes : List Route) (host path cluster : String) : Prop :=
  ∃ r∈routes, r.host=host ∧ covers r.pathPrefix path=true ∧ r.cluster=cluster

/-- A listener forwards as the routes declare. -/
def Preserves (routes : List Route) (listener : Json) : Prop :=
  ∀ host path, (∀ cluster, forward host path listener=some cluster →
      Declares routes host path cluster) ∧
    ((∃ cluster, Declares routes host path cluster) → (forward host path listener).isSome)

/-- No earlier route takes every path the route would. -/
def Live (routes : List Route) (r : Route) : Prop :=
  ∃ earlier later, routes=earlier ++ r::later ∧
    ∀ r'∈earlier, covers r'.pathPrefix r.pathPrefix=false

/-- Each host has for each live route, of whatever host, a route of its own that covers it
with the same cluster. -/
def HostsAgree (routes : List Route) : Prop :=
  ∀ host∈routes.map (·.host), ∀ r, Live routes r → Declares routes host r.pathPrefix r.cluster

section Listener
variable (s : RenderSettings) (inst : ServiceInstance) (l : Listener)

/-- All routes stand in one virtual host, for the hosts of all of them. -/
theorem virtualHosts_listenerDoc :
    virtualHosts (listenerDoc s inst l)=[.obj [("name", .str "service_routes"),
      ("domains", .arr ((hostDomains inst.parameters).map .str)),
      ("routes", .arr (routeDocs inst.parameters))]] := by
  unfold virtualHosts listenerDoc
  simp [items, Json.path, Json.lookup]
  exact ⟨rfl, rfl⟩

theorem serves_hostDomains (host : String) (params : LbParameters) (hne : params.routes≠[])
    (name : Json) (docs : Json) :
    serves host (.obj [("name", name), ("domains", .arr ((hostDomains params).map .str)),
      ("routes", docs)])=decide (host∈params.routes.map (·.host)) := by
  have hsorted : Text.sortedSet (params.routes.map (·.host))≠[] := by
    rw [Ne, Text.sortedSet_eq_nil]
    simpa using hne
  have hdom : hostDomains params=Text.sortedSet (params.routes.map (·.host)) := by
    unfold hostDomains
    split
    · contradiction
    · rfl
  rw [Bool.eq_iff_iff]
  simp [serves, items, Json.lookup, hdom, Text.mem_sortedSet]

theorem matchesPath_route (path : String) (r : Route) :
    matchesPath path (.obj [("match", .obj [("prefix", .str r.pathPrefix)]),
      ("route", .obj [("cluster", .str r.cluster)])])=covers r.pathPrefix path := by
  simp [matchesPath, text, Json.path, Json.lookup]

/-- The first route whose prefix begins the path decides, whatever its host. -/
theorem find_routeDocs (path : String) (params : LbParameters) :
    ((routeDocs params).find? (matchesPath path)).bind (text ["route", "cluster"])=
      (params.routes.find? fun r => covers r.pathPrefix path).map (·.cluster) := by
  rw [routeDocs]
  cases params.routes with
  | nil =>
    simp only [List.find?_cons, List.find?_nil, Option.map_none]
    split
    · rfl
    · rfl
  | cons r rest =>
    dsimp only
    rw [List.find?_map, Option.bind_map]
    have hpred : (matchesPath path ∘ fun r : Route => Json.obj
        [("match", .obj [("prefix", .str r.pathPrefix)]),
          ("route", .obj [("cluster", .str r.cluster)])])=fun r => covers r.pathPrefix path := by
      funext r
      exact matchesPath_route path r
    rw [hpred]
    cases (r::rest).find? fun r => covers r.pathPrefix path with
    | none => rfl
    | some first => simp [text, Json.path, Json.lookup]

theorem forward_listenerDoc (host path : String) :
    forward host path (listenerDoc s inst l)=
      if host∈inst.parameters.routes.map (·.host) then
        (inst.parameters.routes.find? fun r => covers r.pathPrefix path).map (·.cluster)
      else none := by
  have hfind := find_routeDocs path inst.parameters
  unfold forward
  rw [virtualHosts_listenerDoc]
  by_cases hne : inst.parameters.routes=[]
  · -- the virtual host of no route answers 404 itself
    rw [hne] at hfind ⊢
    simp only [List.map_nil, List.not_mem_nil, if_false, List.find?_cons, List.find?_nil]
    split
    · simpa [items, Json.lookup] using hfind
    · rfl
  · rw [List.find?_cons, serves_hostDomains host _ hne]
    by_cases hhost : host∈inst.parameters.routes.map (·.host)
    · simp only [hhost, decide_true, if_true]
      simpa [items, Json.lookup] using hfind
    · simp only [hhost, decide_false, if_false]
      rfl

/-- A route that takes a path first is live, and a live one takes its own prefix first. -/
theorem live_of_find {routes : List Route} {path : String} {r : Route}
    (h : routes.find? (fun r => covers r.pathPrefix path)=some r) : Live routes r := by
  obtain ⟨hr, earlier, later, heq, hbefore⟩ := List.find?_eq_some_iff_append.mp h
  refine ⟨earlier, later, heq, ?_⟩
  intro r' hm
  by_contra hcov
  have hr' := hbefore r' hm
  rw [covers_trans (by simpa using hcov) hr] at hr'
  cases hr'

theorem find_of_live {routes : List Route} {r : Route} (h : Live routes r) :
    routes.find? (fun r' => covers r'.pathPrefix r.pathPrefix)=some r := by
  obtain ⟨earlier, later, heq, hbefore⟩ := h
  apply List.find?_eq_some_iff_append.mpr
  refine ⟨covers_refl _, earlier, later, heq, ?_⟩
  intro r' hm
  simp [hbefore r' hm]

theorem forward_isSome {host path cluster : String}
    (h : Declares inst.parameters.routes host path cluster) :
    (forward host path (listenerDoc s inst l)).isSome := by
  obtain ⟨r, hm, hhost, hcov, -⟩ := h
  rw [forward_listenerDoc, if_pos (List.mem_map.mpr ⟨r, hm, hhost⟩), Option.isSome_map,
    List.find?_isSome]
  exact ⟨r, hm, hcov⟩

theorem preserves_listenerDoc :
    Preserves inst.parameters.routes (listenerDoc s inst l) ↔
      HostsAgree inst.parameters.routes := by
  constructor
  · intro h host hhost r hlive
    apply (h host r.pathPrefix).1
    rw [forward_listenerDoc, if_pos hhost, find_of_live hlive]
    rfl
  · intro hagree host path
    refine ⟨?_, fun ⟨cluster, hd⟩ => forward_isSome s inst l hd⟩
    intro cluster hf
    rw [forward_listenerDoc] at hf
    split at hf
    case isTrue hhost =>
      obtain ⟨r, hfind, rfl⟩ := Option.map_eq_some_iff.mp hf
      obtain ⟨r', hm, hhost', hcov, hcluster⟩ := hagree host hhost r (live_of_find hfind)
      have hr := List.find?_some hfind
      exact ⟨r', hm, hhost', covers_trans hcov hr, hcluster⟩
    case isFalse => cases hf

theorem listenersOf_buildDoc {doc : Json} (h : buildDoc s inst=some doc) :
    listenersOf doc=inst.parameters.listeners.map (listenerDoc s inst) := by
  obtain ⟨clusters, -, rfl⟩ := Option.map_eq_some_iff.mp h
  simp [listenersOf, items, Json.lookup]

theorem routing_preserved_iff {k : Codec} {a : RenderedArtifact}
    (hload : ∀ doc, buildDoc s inst=some doc → k.safeLoad (k.safeDump doc)=some doc)
    (hr : renderEnvoy s k inst=.ok a) :
    ∃ doc, (a.configFiles.lookup "envoy.yaml").bind k.safeLoad=some doc ∧
      ((∀ listener∈listenersOf doc, Preserves inst.parameters.routes listener) ↔
        inst.parameters.listeners=[] ∨ HostsAgree inst.parameters.routes) := by
  obtain ⟨doc, hdoc, hfiles⟩ := (ControlPlane.renderEnvoy_ok hr).files
  refine ⟨doc, by simpa [hfiles] using hload doc hdoc, ?_⟩
  rw [listenersOf_buildDoc s inst hdoc]
  constructor
  · intro h
    cases hl : inst.parameters.listeners with
    | nil => exact .inl rfl
    | cons l rest =>
      have hmem : listenerDoc s inst l∈inst.parameters.listeners.map (listenerDoc s inst) := by
        simp [hl]
      exact .inr ((preserves_listenerDoc s inst l).mp (h _ hmem))
  · intro h listener hm
    obtain ⟨l, hl, rfl⟩ := List.mem_map.mp hm
    rw [preserves_listenerDoc]
    exact h.resolve_left (List.ne_nil_of_mem hl)

end Listener

def twoSites : ServiceInstance :=
  { instanceId := "lb-1", serviceId := "sovereign-envoy-lb", planId := "shared"
    parameters :=
      { routes := [{ host := "a.local", cluster := "a" }, { host := "b.local", cluster := "b" }]
        clusters := [{ name := "a", endpoints := ["10.0.0.1:80"] },
          { name := "b", endpoints := ["10.0.0.2:80"] }] } }

def siteDoc : Json := (buildDoc {} twoSites).getD .null

def siteNumbers : JsonText.Numbers := JsonText.numbers ⟨id, ⟨fun _ => [], fun _ => none⟩⟩

/-- A document is written as JSON, which is YAML. -/
def siteCodec : Codec :=
  { ControlPlane.samplePlane.codec with
    safeDump := fun doc => Utf8.encode (JsonText.dumps siteNumbers doc)
    safeLoad := fun text => (Utf8.decode text).bind (JsonText.loads siteNumbers) }

theorem buildDoc_twoSites : buildDoc {} twoSites=some siteDoc := by
  have h : (buildDoc {} twoSites).isSome=true := by decide +kernel
  obtain ⟨doc, hdoc⟩ := Option.isSome_iff_exists.mp h
  simp [siteDoc, hdoc]

open JsonText in
theorem numeric_siteDoc : Numeric siteNumbers siteDoc := by
  have hint : ∀ n : Int, siteNumbers.Reads (n : Rat) := fun n => reads_of_den (Rat.den_intCast n)
  have hstr : ∀ xs : List String, NumericItems siteNumbers (xs.map .str) := by
    intro xs
    induction xs with
    | nil => trivial
    | cons x xs ih => exact ⟨trivial, ih⟩
  have ha : endpointAddress "10.0.0.1:80"=some (socketAddress "10.0.0.1" 80) := by decide +kernel
  have hb : endpointAddress "10.0.0.2:80"=some (socketAddress "10.0.0.2" 80) := by decide +kernel
  have hport : siteNumbers.Reads 80 := mod_cast hint 80
  have hadmin : siteNumbers.Reads 9901 := mod_cast hint 9901
  simp [siteDoc, buildDoc, twoSites, clusterDoc, ha, hb, listenerDoc, socketAddress,
    loadAssignment, int, Numeric, NumericMembers, NumericItems, hstr, hport, hadmin]
  exact hint _

theorem routing_preserved_two_sites :
    ∃ a, renderEnvoy {} siteCodec twoSites=.ok a ∧
      ∃ doc, (a.configFiles.lookup "envoy.yaml").bind siteCodec.safeLoad=some doc ∧
        ((∀ listener∈listenersOf doc, Preserves twoSites.parameters.routes listener) ↔
          twoSites.parameters.listeners=[] ∨ HostsAgree twoSites.parameters.routes) := by
  have hr : ∃ a, renderEnvoy {} siteCodec twoSites=.ok a := by
    unfold renderEnvoy
    rw [buildDoc_twoSites]
    exact ⟨_, rfl⟩
  obtain ⟨a, ha⟩ := hr
  refine ⟨a, ha, routing_preserved_iff {} twoSites ?_ ha⟩
  intro doc hdoc
  have hsite : siteDoc=doc := Option.some.inj (buildDoc_twoSites.symm.trans hdoc)
  rw [← hsite]
  simp only [siteCodec, Utf8.decode_encode, Option.bind_some, JsonText.loads_dumps numeric_siteDoc]

/-- A request for the second site goes to the cluster of the first. -/
theorem second_site_to_first_cluster :
    ∃ doc, buildDoc {} twoSites=some doc ∧ ∃ listener∈listenersOf doc,
      forward "b.local" "/" listener=some "a" ∧
      ¬Declares twoSites.parameters.routes "b.local" "/" "a" := by
  refine ⟨siteDoc, buildDoc_twoSites, listenerDoc {} twoSites { name := "http", port := 8080 },
    ?_, ?_, ?_⟩
  · rw [listenersOf_buildDoc {} twoSites buildDoc_twoSites]
    exact List.mem_map.mpr ⟨_, List.mem_singleton.mpr rfl, rfl⟩
  · rw [forward_listenerDoc]
    decide +kernel
  · intro h
    obtain ⟨r, hm, hhost, -, hcluster⟩ := h
    simp only [twoSites, List.mem_cons, List.not_mem_nil, or_false] at hm
    obtain rfl | rfl := hm
    · exact absurd hhost (by decide)
    · exact absurd hcluster (by decide)

end Sovereign.Routing
