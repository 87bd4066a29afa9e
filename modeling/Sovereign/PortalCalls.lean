import Sovereign.Json
import Sovereign.Percent
import Sovereign.Text

/-! The calls of the portal's API client on their way to the broker: the address that the client
writes, what the browser makes of it, and the route that the broker takes it for. -/
namespace Sovereign.PortalCalls
open Sovereign

inductive Method where
  | get
  | put
  | patch
  | post
  | delete
deriving DecidableEq

inductive Call where
  | fetchCatalog
  | fetchInstances (tenantId : Option String)
  | provision (instanceId : String) (body : Json)
  | deprovision (instanceId : String)
  | bind (instanceId bindingId : String)
  | unbind (instanceId bindingId : String)
  | policyCheck (body : Json)

structure RequestOptions where
  method : Method := .get
  json : Option Json := none
  query : List (String × Option String) := []

structure HttpRequest where
  method : Method
  url : List Char
  headers : List (String × String)
  body : Option Json

def uriKeep (c : Char) : Bool :=
  c.isAlphanum || decide (c∈['-', '_', '.', '!', '~', '*', '\x27', '(', ')'])

def formKeep (c : Char) : Bool := c.isAlphanum || decide (c∈['*', '-', '.', '_'])

def encodeURIComponent (s : String) : List Char := Percent.encode uriKeep s.toList

/-- The parameters that `apiFetch` sets: absent and empty ones are left out. -/
def queryPairs (query : List (String × Option String)) : List (List Char × List Char) :=
  query.filterMap fun p => (p.2.filter fun v => decide (v≠"")).map fun v => (p.1.toList, v.toList)

/-- The base of the broker's addresses is its origin, and is left out. -/
def apiFetch (auth : List (String × String)) (path : List Char) (options : RequestOptions) :
    HttpRequest :=
  let query := Percent.queryText formKeep (queryPairs options.query)
  { method := options.method
    url := path++(if query=[] then [] else '?' :: query)
    headers := [("Accept", "application/json")]++
      (if options.json.isSome then [("Content-Type", "application/json")] else [])++auth
    body := options.json }

def instancePath (instanceId : String) : List Char :=
  "/v2/service_instances/".toList++encodeURIComponent instanceId

def bindingPath (instanceId bindingId : String) : List Char :=
  instancePath instanceId++"/service_bindings/".toList++encodeURIComponent bindingId

def request (auth : List (String × String)) : Call → HttpRequest
  | .fetchCatalog => apiFetch auth "/v2/catalog".toList {}
  | .fetchInstances tenantId =>
    apiFetch auth "/v2/instances".toList { query := [("tenant_id", tenantId)] }
  | .provision instanceId body =>
    apiFetch auth (instancePath instanceId) { method := .put, json := some body }
  | .deprovision instanceId => apiFetch auth (instancePath instanceId) { method := .delete }
  | .bind instanceId bindingId =>
    apiFetch auth (bindingPath instanceId bindingId) { method := .put, json := some (.obj []) }
  | .unbind instanceId bindingId =>
    apiFetch auth (bindingPath instanceId bindingId) { method := .delete }
  | .policyCheck body =>
    apiFetch auth "/v2/policy/check".toList { method := .post, json := some body }

/-! The browser takes `.` and `..` out of a path. -/

def singleDots : List (List Char) := [['.'], ['%', '2', 'e'], ['%', '2', 'E']]

def doubleDots : List (List Char) :=
  singleDots.flatMap fun a => singleDots.map fun b => a++b

/-- The segments that are left; dots at the end leave an empty one. -/
def dropDots {α : Type} (single double : α → Bool) (empty : α) : List α → List α → List α
  | kept, [] => kept.reverse
  | kept, s::rest =>
    if double s then
      dropDots single double empty (if rest.isEmpty then empty::kept.tail else kept.tail) rest
    else if single s then
      dropDots single double empty (if rest.isEmpty then empty::kept else kept) rest
    else dropDots single double empty (s::kept) rest

def browserPath (path : List Char) : List Char :=
  '/' :: ['/'].intercalate (dropDots (fun s => decide (s∈singleDots))
    (fun s => decide (s∈doubleDots)) [] [] ((path.drop 1).splitOn '/'))

inductive Segment where
  | lit (s : String)
  | param

/-- A handler, with what it is given; other handlers than those the portal calls by name. -/
inductive Handled where
  | call (c : Call)
  | other (handler : String) (params : List String)

structure Route where
  method : Method
  template : List Segment
  handle : List String → List (List Char × List Char) → Option Json → Option Handled

def matchTemplate : List Segment → List String → Option (List String)
  | [], [] => some []
  | .lit s::template, p::parts => if p=s then matchTemplate template parts else none
  | .param::template, p::parts =>
    if p="" then none else (matchTemplate template parts).map fun params => p::params
  | _, _ => none

def lastValue (name : String) (query : List (List Char × List Char)) : Option String :=
  (query.reverse.lookup name.toList).map String.ofList

def instanceRoute : List Segment := [.lit "", .lit "v2", .lit "service_instances", .param]

def bindingRoute : List Segment := instanceRoute++[.lit "service_bindings", .param]

def other (handler : String) (params : List String) (_ : List (List Char × List Char))
    (_ : Option Json) : Option Handled := some (.other handler params)

/-- The routes of the broker, in order; those of its metrics and documentation have other paths. -/
def routes : List Route :=
  [⟨.get, [.lit "", .lit "healthz"], other "healthz"⟩,
    ⟨.get, [.lit "", .lit "v2", .lit "catalog"], fun _ _ _ => some (.call .fetchCatalog)⟩,
    ⟨.put, instanceRoute, fun params _ body => match params, body with
      | [instanceId], some body => some (.call (.provision instanceId body))
      | _, _ => none⟩,
    ⟨.patch, instanceRoute, other "update"⟩,
    ⟨.delete, instanceRoute, fun params _ _ => match params with
      | [instanceId] => some (.call (.deprovision instanceId))
      | _ => none⟩,
    ⟨.put, bindingRoute, fun params _ _ => match params with
      | [instanceId, bindingId] => some (.call (.bind instanceId bindingId))
      | _ => none⟩,
    ⟨.delete, bindingRoute, fun params _ _ => match params with
      | [instanceId, bindingId] => some (.call (.unbind instanceId bindingId))
      | _ => none⟩,
    ⟨.get, instanceRoute++[.lit "last_operation"], other "last_operation"⟩,
    ⟨.get, [.lit "", .lit "v2", .lit "usage", .param], other "get_usage"⟩,
    ⟨.get, [.lit "", .lit "v2", .lit "instances"], fun _ query _ =>
      some (.call (.fetchInstances (lastValue "tenant_id" query)))⟩,
    ⟨.post, [.lit "", .lit "v2", .lit "reconcile"], other "reconcile"⟩,
    ⟨.post, [.lit "", .lit "v2", .lit "policy", .lit "check"], fun _ _ body =>
      body.map fun body => .call (.policyCheck body)⟩]

def dispatch (method : Method) (parts : List String) (query : List (List Char × List Char))
    (body : Option Json) : Option Handled :=
  routes.findSome? fun r =>
    if r.method=method then (matchTemplate r.template parts).bind fun params =>
      r.handle params query body
    else none

/-- The handler that a request of the browser reaches; the broker's redirect from an address that
ends in a slash is left out. -/
def reached (r : HttpRequest) : Option Handled := do
  let path ← Percent.decode (browserPath (r.url.takeWhile fun c => decide (c ≠ '?')))
  let query ← Percent.readQuery ((r.url.dropWhile fun c => decide (c ≠ '?')).drop 1)
  dispatch r.method ((path.splitOn '/').map String.ofList) query r.body

/-! Paths that are put together from encoded names. -/

theorem uriKeep_percent : uriKeep '%'=false := by decide

theorem formSafe : Percent.FormSafe formKeep := ⟨by decide, by decide, by decide, by decide⟩

theorem not_mem_encodeURIComponent {c : Char} (hc : uriKeep c=false) (hne : c ≠ '%')
    (hhex : c∉Percent.hexDigits) (s : String) : c∉encodeURIComponent s := by
  intro hm
  obtain hk | hx | hx := Percent.mem_encode hm
  · rw [hc] at hk
    cases hk
  · exact hne hx
  · exact hhex hx

def joined (f : String → List Char) (names : List String) : List Char :=
  ['/'].intercalate (names.map f)

theorem joined_cons (f : String → List Char) (name : String) {names : List String}
    (h : names≠[]) : joined f (name::names)=f name ++ '/' :: joined f names := by
  rw [joined, List.map_cons, List.intercalate_cons_of_ne_nil (by simpa using h), ← joined,
    List.append_assoc, List.singleton_append]

theorem joined_append (f : String → List Char) {names names' : List String} (h : names≠[])
    (h' : names'≠[]) : joined f (names++names')=joined f names ++ '/' :: joined f names' := by
  induction names with
  | nil => exact absurd rfl h
  | cons name names ih =>
    cases names with
    | nil =>
      rw [List.singleton_append, joined_cons f name h']
      simp [joined]
    | cons name' names =>
      rw [List.cons_append, joined_cons f name (by simp), ih (by simp),
        joined_cons f name (by simp), List.append_assoc, List.cons_append]

def pathOf (names : List String) : List Char := joined encodeURIComponent names

theorem bytes_pathOf (names : List String) :
    Percent.bytes (pathOf names)=Utf8.encode (joined String.toList names) := by
  induction names with
  | nil => rfl
  | cons name names ih =>
    cases names with
    | nil =>
      have h := Percent.bytes_encode uriKeep_percent name.toList []
      rw [List.append_nil, Percent.bytes, List.append_nil] at h
      simpa [pathOf, joined, encodeURIComponent] using h
    | cons name' names =>
      rw [pathOf, joined_cons _ name (by simp), encodeURIComponent,
        Percent.bytes_encode uriKeep_percent, Percent.bytes_plain (by decide), ← pathOf, ih,
        joined_cons _ name (by simp)]
      simp [Utf8.encode]

theorem decode_pathOf (names : List String) :
    Percent.decode (pathOf names)=some (joined String.toList names) := by
  rw [Percent.decode, bytes_pathOf, Utf8.decode_encode]

def parts (name : String) : List String := (name.toList.splitOn '/').map String.ofList

theorem parts_of_not_mem {name : String} (h : '/'∉name.toList) : parts name=[name] := by
  rw [parts, List.splitOn_eq_singleton h, List.map_singleton, String.ofList_toList]

theorem splitOn_pathOf {names : List String} (h : names≠[]) :
    ((joined String.toList names).splitOn '/').map String.ofList=names.flatMap parts := by
  induction names with
  | nil => exact absurd rfl h
  | cons name names ih =>
    cases names with
    | nil => simp [joined, parts]
    | cons name' names =>
      rw [joined_cons _ name (by simp), List.splitOn_append_cons_self, List.map_append,
        ih (by simp)]
      rfl

theorem encode_inj {s t : String} (h : Utf8.encode s.toList=Utf8.encode t.toList) : s=t := by
  have hs := Utf8.decode_encode s.toList
  rw [h, Utf8.decode_encode, Option.some.injEq] at hs
  exact String.toList_inj.mp hs.symm

theorem encode_dots (name : String) :
    (encodeURIComponent name∈singleDots ↔ name=".") ∧
      (encodeURIComponent name∈doubleDots ↔ name="..") := by
  have hbytes := Percent.bytes_encode uriKeep_percent name.toList []
  rw [List.append_nil, Percent.bytes, List.append_nil, ← encodeURIComponent] at hbytes
  have hsingle : ∀ t∈singleDots, Percent.bytes t=Utf8.encode ['.'] := by decide
  have hdouble : ∀ t∈doubleDots, Percent.bytes t=Utf8.encode ['.', '.'] := by decide
  refine ⟨⟨fun h => ?_, ?_⟩, fun h => ?_, ?_⟩
  · exact encode_inj (hbytes.symm.trans (hsingle _ h))
  · rintro rfl
    decide
  · exact encode_inj (hbytes.symm.trans (hdouble _ h))
  · rintro rfl
    decide

theorem dropDots_map {α β : Type} {f : α → β} {single double : α → Bool} {empty : α}
    {single' double' : β → Bool} (hs : ∀ a, single' (f a)=single a)
    (hd : ∀ a, double' (f a)=double a) (kept names : List α) :
    dropDots single' double' (f empty) (kept.map f) (names.map f)=
      (dropDots single double empty kept names).map f := by
  induction names generalizing kept with
  | nil => simp [dropDots]
  | cons name names ih =>
    rw [List.map_cons, dropDots, dropDots, hs, hd, List.isEmpty_map, ← List.map_cons,
      ← List.map_cons, ← List.map_tail, ← List.map_cons, ← apply_ite, ← apply_ite, ih, ih, ih]
    split
    · rfl
    · split <;> rfl

def kept (names : List String) : List String :=
  dropDots (fun s => decide (s=".")) (fun s => decide (s="..")) "" [] names

theorem kept_spec (names : List String) :
    dropDots (fun s => decide (s∈singleDots)) (fun s => decide (s∈doubleDots)) [] []
      (names.map encodeURIComponent)=(kept names).map encodeURIComponent :=
  @dropDots_map String (List Char) encodeURIComponent (fun s => decide (s=".")) (fun s =>
    decide (s="..")) "" (fun s => decide (s∈singleDots)) (fun s => decide (s∈doubleDots))
    (fun name => decide_eq_decide.mpr (encode_dots name).1)
    (fun name => decide_eq_decide.mpr (encode_dots name).2) [] names

theorem browserPath_pathOf {names : List String} (h : names≠[]) (hkept : kept names≠[]) :
    browserPath (pathOf (""::names))=pathOf (""::kept names) := by
  have hslash : ∀ part∈names.map encodeURIComponent, '/'∉part := by
    intro part hpart
    obtain ⟨name, _, rfl⟩ := List.mem_map.mp hpart
    exact not_mem_encodeURIComponent (by decide) (by decide) (by decide) name
  have hempty : encodeURIComponent ""=[] := rfl
  rw [browserPath, pathOf, pathOf, joined_cons _ _ h, joined_cons _ _ hkept, hempty,
    List.nil_append, List.nil_append, List.drop_succ_cons, List.drop_zero, joined,
    List.splitOn_intercalate '/' hslash (by simpa using h), kept_spec]
  rfl

/-- What the names of a path are to the broker. -/
theorem decode_browserPath {names : List String} (h : names≠[]) (hkept : kept names≠[]) :
    ∃ path, Percent.decode (browserPath (pathOf (""::names)))=some path ∧
      (path.splitOn '/').map String.ofList=""::(kept names).flatMap parts := by
  refine ⟨_, by rw [browserPath_pathOf h hkept, decode_pathOf], ?_⟩
  rw [splitOn_pathOf (by simp), List.flatMap_cons]
  rfl

def callNames : Call → List String
  | .fetchCatalog => ["v2", "catalog"]
  | .fetchInstances _ => ["v2", "instances"]
  | .provision instanceId _ | .deprovision instanceId => ["v2", "service_instances", instanceId]
  | .bind instanceId bindingId | .unbind instanceId bindingId =>
    ["v2", "service_instances", instanceId, "service_bindings", bindingId]
  | .policyCheck _ => ["v2", "policy", "check"]

def callMethod : Call → Method
  | .fetchCatalog | .fetchInstances _ => .get
  | .provision _ _ | .bind _ _ => .put
  | .deprovision _ | .unbind _ _ => .delete
  | .policyCheck _ => .post

def callBody : Call → Option Json
  | .provision _ body | .policyCheck body => some body
  | .bind _ _ => some (.obj [])
  | _ => none

def callQuery : Call → List (List Char × List Char)
  | .fetchInstances tenantId => queryPairs [("tenant_id", tenantId)]
  | _ => []

theorem encode_literal {s : String} (h : s.toList.all uriKeep=true) :
    encodeURIComponent s=s.toList :=
  Percent.encode_kept (List.all_eq_true.mp h)

theorem instancePath_eq (instanceId : String) :
    instancePath instanceId=pathOf ["", "v2", "service_instances", instanceId] := by
  have hv2 : encodeURIComponent "v2"="v2".toList := encode_literal (by decide +kernel)
  have hname : encodeURIComponent "service_instances"="service_instances".toList :=
    encode_literal (by decide +kernel)
  have hempty : encodeURIComponent ""=[] := rfl
  have hlit : "/v2/service_instances/".toList =
      '/' :: ("v2".toList ++ '/' :: ("service_instances".toList++['/'])) := by decide +kernel
  calc
    instancePath instanceId=
        '/' :: ("v2".toList ++ '/' :: ("service_instances".toList++['/']))++
          encodeURIComponent instanceId := by
      unfold instancePath
      rw [hlit]
    _= '/' :: ("v2".toList ++ '/' :: ("service_instances".toList ++
          '/' :: encodeURIComponent instanceId)) := by simp only [List.cons_append,
            List.append_assoc, List.nil_append]
    _=pathOf ["", "v2", "service_instances", instanceId] := by
      rw [pathOf, joined_cons _ _ (by simp), joined_cons _ _ (by simp), joined_cons _ _ (by simp),
        hempty, hv2, hname, joined, List.map_singleton, List.intercalate_singleton,
        List.nil_append]

theorem bindingPath_eq (instanceId bindingId : String) : bindingPath instanceId bindingId=
    pathOf (["", "v2", "service_instances", instanceId]++["service_bindings", bindingId]) := by
  have hname : encodeURIComponent "service_bindings"="service_bindings".toList :=
    encode_literal (by decide +kernel)
  have hlit : "/service_bindings/".toList = '/' :: ("service_bindings".toList++['/']) := by
    decide +kernel
  have hlast : pathOf ["service_bindings", bindingId]=
      "service_bindings".toList ++ '/' :: encodeURIComponent bindingId := by
    rw [pathOf, joined_cons _ _ (by simp), hname, joined, List.map_singleton,
      List.intercalate_singleton]
  calc
    bindingPath instanceId bindingId=instancePath instanceId++
        ('/' :: ("service_bindings".toList++['/'])++encodeURIComponent bindingId) := by
      rw [bindingPath, hlit, List.append_assoc]
    _=pathOf ["", "v2", "service_instances", instanceId]++
        '/' :: pathOf ["service_bindings", bindingId] := by
      rw [instancePath_eq, hlast, List.cons_append, List.append_assoc, List.singleton_append]
    _=pathOf (["", "v2", "service_instances", instanceId]++["service_bindings", bindingId]) := by
      rw [pathOf, pathOf, pathOf, joined_append _ (by simp) (by simp)]

theorem mem_joined {f : String → List Char} {names : List String} {c : Char}
    (h : c∈joined f names) : c = '/' ∨ ∃ name∈names, c∈f name := by
  induction names with
  | nil => cases h
  | cons name names ih =>
    cases names with
    | nil =>
      rw [joined, List.map_singleton, List.intercalate_singleton] at h
      exact Or.inr ⟨name, List.mem_cons_self, h⟩
    | cons name' names =>
      rw [joined_cons f name (by simp), List.mem_append, List.mem_cons] at h
      obtain hm | rfl | hm := h
      · exact Or.inr ⟨name, List.mem_cons_self, hm⟩
      · exact Or.inl rfl
      · obtain hslash | ⟨n, hn, hc⟩ := ih hm
        · exact Or.inl hslash
        · exact Or.inr ⟨n, List.mem_cons_of_mem _ hn, hc⟩

theorem no_question (names : List String) : '?'∉pathOf names := by
  intro hm
  obtain hslash | ⟨name, _, hc⟩ := mem_joined hm
  · cases hslash
  · exact not_mem_encodeURIComponent (by decide) (by decide) (by decide) name hc

theorem dropDots_ne_nil {α : Type} (single double : α → Bool) (empty : α) (kept : List α)
    {names : List α} (h : names≠[]) : dropDots single double empty kept names≠[] := by
  induction names generalizing kept with
  | nil => exact absurd rfl h
  | cons name names ih =>
    rw [dropDots]
    cases names with
    | nil =>
      simp only [List.isEmpty_nil, if_true]
      split_ifs <;> simp [dropDots]
    | cons name' names => split_ifs <;> exact ih _ (by simp)

theorem request_eq (auth : List (String × String)) (c : Call) :
    (request auth c).method=callMethod c ∧ (request auth c).body=callBody c ∧
      (request auth c).url=pathOf (""::callNames c)++
        (if Percent.queryText formKeep (callQuery c)=[] then []
          else '?' :: Percent.queryText formKeep (callQuery c)) := by
  have hcatalog : "/v2/catalog".toList=pathOf ["", "v2", "catalog"] := by decide +kernel
  have hinstances : "/v2/instances".toList=pathOf ["", "v2", "instances"] := by decide +kernel
  have hcheck : "/v2/policy/check".toList=pathOf ["", "v2", "policy", "check"] := by
    decide +kernel
  cases c with
  | fetchCatalog => exact ⟨rfl, rfl, congrArg (· ++ _) hcatalog⟩
  | fetchInstances tenantId => exact ⟨rfl, rfl, congrArg (· ++ _) hinstances⟩
  | provision instanceId body => exact ⟨rfl, rfl, congrArg (· ++ _) (instancePath_eq instanceId)⟩
  | deprovision instanceId => exact ⟨rfl, rfl, congrArg (· ++ _) (instancePath_eq instanceId)⟩
  | bind instanceId bindingId =>
    exact ⟨rfl, rfl, congrArg (· ++ _) (bindingPath_eq instanceId bindingId)⟩
  | unbind instanceId bindingId =>
    exact ⟨rfl, rfl, congrArg (· ++ _) (bindingPath_eq instanceId bindingId)⟩
  | policyCheck body => exact ⟨rfl, rfl, congrArg (· ++ _) hcheck⟩

theorem callNames_ne_nil (c : Call) : callNames c≠[] := by
  cases c <;> simp [callNames]

/-- What the broker makes of a request of the portal. -/
theorem reached_request (auth : List (String × String)) (c : Call) :
    reached (request auth c)=dispatch (callMethod c) (""::(kept (callNames c)).flatMap parts)
      (callQuery c) (callBody c) := by
  obtain ⟨hmethod, hbody, hurl⟩ := request_eq auth c
  have hpath : ∀ x∈pathOf (""::callNames c), decide (x ≠ '?')=true := by
    intro x hx
    refine decide_eq_true ?_
    rintro rfl
    exact no_question _ hx
  obtain ⟨path, hdecode, hsplit⟩ := decode_browserPath (callNames_ne_nil c)
    (dropDots_ne_nil _ _ _ _ (callNames_ne_nil c))
  have hread := Percent.readQuery_queryText formSafe (callQuery c)
  rw [reached, hmethod, hbody, hurl, List.takeWhile_append_of_pos hpath,
    List.dropWhile_append_of_pos hpath]
  split
  · next hq =>
    rw [hq] at hread
    simp [hdecode, hread, hsplit]
  · simp [hdecode, hread, hsplit]

def fill : List Segment → List String → List String
  | [], _ => []
  | .lit s::template, params => s::fill template params
  | .param::template, p::params => p::fill template params
  | .param::_, [] => []

theorem matchTemplate_eq_some {template : List Segment} {parts params : List String}
    (h : matchTemplate template parts=some params) :
    parts=fill template params ∧ ∀ p∈params, p≠"" := by
  induction template generalizing parts params with
  | nil =>
    cases parts with
    | nil =>
      cases h
      exact ⟨rfl, fun p hp => (by cases hp)⟩
    | cons p parts => cases h
  | cons segment template ih =>
    cases parts with
    | nil => cases segment <;> cases h
    | cons p parts =>
      cases segment with
      | lit s =>
        rw [matchTemplate] at h
        split at h
        · next hp =>
          obtain ⟨rfl, hne⟩ := ih h
          exact ⟨by rw [hp, fill], hne⟩
        · cases h
      | param =>
        rw [matchTemplate] at h
        split at h
        · cases h
        · next hp =>
          obtain ⟨rest, hrest, rfl⟩ := Option.map_eq_some_iff.mp h
          obtain ⟨rfl, hne⟩ := ih hrest
          exact ⟨rfl, List.forall_mem_cons.mpr ⟨hp, hne⟩⟩

def Call.ids : Call → List String
  | .provision instanceId _ | .deprovision instanceId => [instanceId]
  | .bind instanceId bindingId | .unbind instanceId bindingId => [instanceId, bindingId]
  | _ => []

/-- A handler of the portal's calls is reached on the path of its own names only. -/
theorem dispatch_call {method : Method} {parts : List String}
    {query : List (List Char × List Char)} {body : Option Json} {c : Call}
    (h : dispatch method parts query body=some (.call c)) :
    parts=""::callNames c ∧ ∀ id∈c.ids, id≠"" := by
  obtain ⟨r, hr, hc⟩ := List.exists_of_findSome?_eq_some h
  split at hc
  · obtain ⟨params, hmatch, hhandle⟩ := Option.bind_eq_some_iff.mp hc
    obtain ⟨rfl, hne⟩ := matchTemplate_eq_some hmatch
    clear hc hmatch h
    simp only [routes, List.mem_cons, List.not_mem_nil, or_false] at hr
    obtain rfl | rfl | rfl | rfl | rfl | rfl | rfl | rfl | rfl | rfl | rfl | rfl := hr
    · cases hhandle
    · cases hhandle
      exact ⟨rfl, fun id hid => (by cases hid)⟩
    · dsimp only at hhandle ⊢
      split at hhandle
      · cases hhandle
        exact ⟨rfl, hne⟩
      · cases hhandle
    · cases hhandle
    · dsimp only at hhandle ⊢
      split at hhandle
      · cases hhandle
        exact ⟨rfl, hne⟩
      · cases hhandle
    · dsimp only at hhandle ⊢
      split at hhandle
      · cases hhandle
        exact ⟨rfl, hne⟩
      · cases hhandle
    · dsimp only at hhandle ⊢
      split at hhandle
      · cases hhandle
        exact ⟨rfl, hne⟩
      · cases hhandle
    · cases hhandle
    · cases hhandle
    · cases hhandle
      exact ⟨rfl, fun id hid => (by cases hid)⟩
    · cases hhandle
    · obtain ⟨doc, _, hdoc⟩ := Option.map_eq_some_iff.mp hhandle
      cases hdoc
      exact ⟨rfl, fun id hid => (by cases hid)⟩
  · cases hc

/-- A name that a path keeps as it is. -/
def PlainName (name : String) : Prop := '/'∉name.toList ∧ name≠"." ∧ name≠".."

theorem slash_not_mem_of_mem_parts {name part : String} (h : part∈parts name) :
    '/'∉part.toList := by
  have hgo : ∀ cs : List Char, ∀ piece∈cs.splitOn '/', '/'∉piece := by
    intro cs
    induction cs with
    | nil => simp
    | cons c cs ih =>
      rw [List.splitOn_cons_eq_if_modifyHead]
      split_ifs with hc
      · exact List.forall_mem_cons.mpr ⟨List.not_mem_nil, ih⟩
      · obtain ⟨piece, pieces, hpieces⟩ := List.exists_cons_of_ne_nil (List.splitOn_ne_nil '/' cs)
        rw [hpieces] at ih ⊢
        obtain ⟨hpiece, hrest⟩ := List.forall_mem_cons.mp ih
        refine List.forall_mem_cons.mpr ⟨?_, hrest⟩
        rw [List.mem_cons, not_or]
        exact ⟨fun he => hc (beq_iff_eq.mpr he.symm), hpiece⟩
  obtain ⟨piece, hpiece, rfl⟩ := List.mem_map.mp h
  rw [String.toList_ofList]
  exact hgo _ piece hpiece

theorem flatMap_parts {names : List String} (h : ∀ name∈names, '/'∉name.toList) :
    names.flatMap parts=names := by
  induction names with
  | nil => rfl
  | cons name names ih =>
    obtain ⟨hname, hnames⟩ := List.forall_mem_cons.mp h
    rw [List.flatMap_cons, parts_of_not_mem hname, ih hnames, List.singleton_append]

theorem mem_dropDots {α : Type} {single double : α → Bool} {empty : α} {front names : List α}
    {a : α} (h : a∈dropDots single double empty front names) :
    a∈front ∨ a=empty ∨ a∈names ∧ single a=false ∧ double a=false := by
  induction names generalizing front with
  | nil => exact Or.inl (List.mem_reverse.mp h)
  | cons name names ih =>
    have hstep : ∀ front' : List α, a∈dropDots single double empty front' names →
        (∀ b∈front', b∈front ∨ b=empty ∨ b=name ∧ single b=false ∧ double b=false) →
        a∈front ∨ a=empty ∨ a∈name::names ∧ single a=false ∧ double a=false := by
      intro front' hmem hfront
      obtain hf | he | ⟨hn, hplain⟩ := ih hmem
      · obtain hf | he | ⟨rfl, hplain⟩ := hfront a hf
        · exact Or.inl hf
        · exact Or.inr (Or.inl he)
        · exact Or.inr (Or.inr ⟨List.mem_cons_self, hplain⟩)
      · exact Or.inr (Or.inl he)
      · exact Or.inr (Or.inr ⟨List.mem_cons_of_mem _ hn, hplain⟩)
    have hempty : ∀ (kept : List α), (∀ b∈kept, b∈front) →
        ∀ b∈(if names.isEmpty then empty::kept else kept), b∈front ∨ b=empty ∨ b=name ∧
          single b=false ∧ double b=false := by
      intro kept hkept b hb
      split_ifs at hb
      · obtain rfl | hb := List.mem_cons.mp hb
        · exact Or.inr (Or.inl rfl)
        · exact Or.inl (hkept b hb)
      · exact Or.inl (hkept b hb)
    rw [dropDots] at h
    by_cases hdouble : double name=true
    · rw [if_pos hdouble] at h
      exact hstep _ h (hempty _ fun b hb => List.mem_of_mem_tail hb)
    · rw [if_neg hdouble] at h
      by_cases hsingle : single name=true
      · rw [if_pos hsingle] at h
        exact hstep _ h (hempty _ fun b hb => hb)
      · rw [if_neg hsingle] at h
        refine hstep _ h fun b hb => ?_
        obtain rfl | hb := List.mem_cons.mp hb
        · exact Or.inr (Or.inr ⟨rfl, Bool.eq_false_iff.mpr hsingle, Bool.eq_false_iff.mpr hdouble⟩)
        · exact Or.inl hb

theorem mem_kept {names : List String} {name : String} (h : name∈kept names) :
    (name="" ∨ name∈names) ∧ name≠"." ∧ name≠".." := by
  obtain hf | rfl | ⟨hn, hsingle, hdouble⟩ := mem_dropDots h
  · cases hf
  · exact ⟨Or.inl rfl, by decide, by decide⟩
  · exact ⟨Or.inr hn, of_decide_eq_false hsingle, of_decide_eq_false hdouble⟩

theorem kept_eq {names : List String} (h : ∀ name∈names, name≠"." ∧ name≠"..") :
    kept names=names := by
  have hgo : ∀ front : List String,
      dropDots (fun s => decide (s=".")) (fun s => decide (s="..")) "" front names=
        front.reverse++names := by
    induction names with
    | nil => simp [dropDots]
    | cons name names ih =>
      intro front
      obtain ⟨⟨hone, htwo⟩, hnames⟩ := List.forall_mem_cons.mp h
      rw [dropDots, if_neg (by simpa using htwo), if_neg (by simpa using hone), ih hnames]
      simp
  exact hgo []

/-- The broker sees the names that were written if they are all plain, and only then. -/
theorem parts_kept_iff (names : List String) :
    (kept names).flatMap parts=names ↔ ∀ name∈names, PlainName name := by
  constructor
  · intro h
    have hslash : ∀ name∈names, '/'∉name.toList := by
      intro name hname
      rw [← h] at hname
      obtain ⟨_, _, hpart⟩ := List.mem_flatMap.mp hname
      exact slash_not_mem_of_mem_parts hpart
    have hkept : kept names=names := by
      refine (flatMap_parts fun name hname => ?_).symm.trans h
      obtain rfl | hname := (mem_kept hname).1
      · exact List.not_mem_nil
      · exact hslash name hname
    intro name hname
    exact ⟨hslash name hname, (mem_kept (hkept.symm ▸ hname)).2⟩
  · intro h
    rw [kept_eq fun name hname => (h name hname).2,
      flatMap_parts fun name hname => (h name hname).1]

def Call.Plain (c : Call) : Prop :=
  (∀ id∈c.ids, id≠"" ∧ PlainName id) ∧ ∀ tenantId, c=.fetchInstances tenantId → tenantId≠some ""

theorem mem_callNames {c : Call} {name : String} :
    (name∈c.ids → name∈callNames c) ∧ (name∈callNames c → name∈c.ids ∨
      name∈["v2", "catalog", "instances", "service_instances", "service_bindings", "policy",
        "check"]) := by
  cases c <;> simp only [Call.ids, callNames, List.mem_cons, List.not_mem_nil] <;> tauto

theorem plain_names {c : Call} (h : ∀ id∈c.ids, PlainName id) :
    ∀ name∈callNames c, PlainName name := by
  have hlit : ∀ name∈["v2", "catalog", "instances", "service_instances", "service_bindings",
      "policy", "check"], PlainName name := by
    unfold PlainName
    decide +kernel
  intro name hname
  obtain hid | hmem := mem_callNames.2 hname
  · exact h name hid
  · exact hlit name hmem

theorem dispatch_names {c : Call} (hids : ∀ id∈c.ids, id≠"")
    (htenant : ∀ tenantId, c=.fetchInstances tenantId → tenantId≠some "") :
    dispatch (callMethod c) (""::callNames c) (callQuery c) (callBody c)=some (.call c) := by
  cases c with
  | fetchCatalog => rfl
  | fetchInstances tenantId =>
    cases tenantId with
    | none => rfl
    | some t =>
      have ht : t≠"" := fun he => htenant _ rfl (congrArg some he)
      simp [dispatch, routes, matchTemplate, instanceRoute, bindingRoute, callMethod, callNames,
        callQuery, queryPairs, lastValue, ht]
  | provision instanceId body =>
    have hi : instanceId≠"" := hids _ List.mem_cons_self
    simp [dispatch, routes, matchTemplate, instanceRoute, callMethod, callNames, callBody, hi]
  | deprovision instanceId =>
    have hi : instanceId≠"" := hids _ List.mem_cons_self
    simp [dispatch, routes, matchTemplate, instanceRoute, callMethod, callNames, hi]
  | bind instanceId bindingId =>
    have hi : instanceId≠"" := hids _ List.mem_cons_self
    have hb : bindingId≠"" := hids _ (List.mem_cons_of_mem _ List.mem_cons_self)
    simp [dispatch, routes, matchTemplate, instanceRoute, bindingRoute, callMethod, callNames, hi,
      hb]
  | unbind instanceId bindingId =>
    have hi : instanceId≠"" := hids _ List.mem_cons_self
    have hb : bindingId≠"" := hids _ (List.mem_cons_of_mem _ List.mem_cons_self)
    simp [dispatch, routes, matchTemplate, instanceRoute, bindingRoute, callMethod, callNames, hi,
      hb]
  | policyCheck body => rfl

/-- A call of the portal is taken by the broker for that call, with the same ids, tenant and body,
exactly when its ids are plain and the tenant is not the empty one. -/
theorem call_reached_iff (auth : List (String × String)) (c : Call) :
    reached (request auth c)=some (.call c) ↔ c.Plain := by
  rw [reached_request]
  constructor
  · intro h
    obtain ⟨hparts, hne⟩ := dispatch_call h
    have hplain := (parts_kept_iff _).mp (List.cons.inj hparts).2
    refine ⟨fun id hid => ⟨hne id hid, hplain id (mem_callNames.1 hid)⟩, ?_⟩
    rintro tenantId rfl rfl
    cases h
  · rintro ⟨hids, htenant⟩
    rw [(parts_kept_iff _).mpr (plain_names fun id hid => (hids id hid).2)]
    exact dispatch_names (fun id hid => (hids id hid).1) htenant

end Sovereign.PortalCalls
