import Sovereign.ParamRules

/-! What becomes of an endpoint `host:port` in the rendered clusters. -/
namespace Sovereign.Text

theorem isDigit_range {c : Char} (h : c.isDigit=true) : 48 ≤ c.toNat ∧ c.toNat≤57 := by
  simp only [Char.isDigit, ge_iff_le, Bool.and_eq_true, decide_eq_true_eq] at h
  exact h

theorem digit_of_isDigit {c : Char} (h : c.isDigit=true) : digit c=some (c.toNat-48) := by
  obtain ⟨h1, h2⟩ := isDigit_range h
  have hall : ∀ k < 10, digit (Char.ofNat (48+k))=some k := by decide
  have hk := hall (c.toNat-48) (by omega)
  have hc : Char.ofNat (48+(c.toNat-48))=c := by
    rw [Nat.add_sub_cancel' h1]
    exact Char.ofNat_toNat c
  rwa [hc] at hk

theorem digitsFrom_of_isDigit {cs : List Char} (h : ∀ c∈cs, c.isDigit=true) (acc : Nat) :
    digitsFrom acc cs=some (Nat.ofDigitChars 10 cs acc) := by
  induction cs generalizing acc with
  | nil => simp [digitsFrom]
  | cons c cs ih =>
    obtain ⟨hc, hcs⟩ := List.forall_mem_cons.mp h
    have hne : c≠ '_' := by
      intro he
      rw [he] at hc
      cases hc
    have hstep : digitsFrom acc (c::cs)=(digit c).bind fun d => digitsFrom (10*acc+d) cs := by
      rw [digitsFrom]
      intro c' cs' he
      exact absurd he hne
    rw [hstep, digit_of_isDigit hc, Option.bind_some, ih hcs, Nat.ofDigitChars_cons]
    rfl

theorem strip_of_isDigit {cs : List Char} (h : ∀ c∈cs, c.isDigit=true) : stripInt cs=cs := by
  have hspace : ∀ c : Char, c.isDigit=true → isIntSpace c=false := by
    intro c hc
    obtain ⟨h1, h2⟩ := isDigit_range hc
    refine Bool.and_eq_false_iff.mpr (Or.inl ?_)
    simp only [isSpace, Bool.or_eq_false_iff, Bool.and_eq_false_iff, decide_eq_false_iff_not,
      beq_eq_false_iff_ne]
    omega
  have hdrop : ∀ ds : List Char, (∀ c∈ds, c.isDigit=true) → ds.dropWhile isIntSpace=ds := by
    intro ds hds
    cases ds with
    | nil => rfl
    | cons c ds =>
      exact List.dropWhile_cons_of_neg (by simp [hspace c (hds c List.mem_cons_self)])
  rw [stripInt, hdrop cs h, hdrop cs.reverse fun c hc => h c (List.mem_reverse.mp hc),
    List.reverse_reverse]

/-- `int(str(n))`. -/
theorem pyInt_toString {n : Nat} (h : n < 100000) : pyInt (toString n)=some (n : Int) := by
  have hdigits : ∀ c∈Nat.toDigits 10 n, c.isDigit=true := fun c hc =>
    Nat.isDigit_of_mem_toDigits (by decide) (by decide) hc
  have hread : digits (Nat.toDigits 10 n)=some n := by
    have hfrom := digitsFrom_of_isDigit hdigits 0
    rw [Nat.ofDigitChars_toDigits (by decide) (by decide)] at hfrom
    have hlen : ((Nat.toDigits 10 n).filter (· != '_')).length≤4300 := by
      have hfive : (Nat.toDigits 10 n).length≤5 :=
        (Nat.length_toDigits_le_iff (by decide) (by decide)).mpr h
      have hfilter := List.length_filter_le (· != '_') (Nat.toDigits 10 n)
      omega
    cases hd : Nat.toDigits 10 n with
    | nil => exact absurd hd Nat.toDigits_ne_nil
    | cons c cs =>
      rw [hd] at hfrom hlen hdigits
      have hc := digit_of_isDigit (hdigits c List.mem_cons_self)
      have hcs := digitsFrom_of_isDigit fun d hd => hdigits d (List.mem_cons_of_mem c hd)
      rw [digitsFrom_of_isDigit hdigits, Nat.ofDigitChars_cons] at hfrom
      rw [digits, if_neg (Nat.not_lt.mpr hlen), hc, Option.bind_some, hcs]
      rw [Nat.mul_zero, Nat.zero_add] at hfrom
      exact hfrom
  rw [pyInt, Nat.toString_eq_repr, Nat.toList_repr, strip_of_isDigit hdigits]
  split
  · next cs he =>
    have hm : '-'∈Nat.toDigits 10 n := he ▸ List.mem_cons_self
    exact absurd (hdigits '-' hm) (by decide)
  · next cs he =>
    have hm : '+'∈Nat.toDigits 10 n := he ▸ List.mem_cons_self
    exact absurd (hdigits '+' hm) (by decide)
  · rw [hread]
    rfl

end Sovereign.Text

namespace Sovereign.EnvoyV3
open Sovereign Packs Renderers Traverse

/-- The two parts that are used, the second one as a number. -/
def endpointParts (ep : String) : Option (String × Int) :=
  match ep.toList.splitOnP (· == ':') with
  | host::port::_ => (Text.pyInt (String.ofList port)).map fun n => (String.ofList host, n)
  | _ => none

theorem endpointAddress_eq (ep : String) : endpointAddress ep =
    (endpointParts ep).map fun p => Renderers.socketAddress p.1 p.2 := by
  rw [endpointAddress, endpointParts]
  cases ep.toList.splitOnP (· == ':') with
  | nil => rfl
  | cons host rest =>
    cases rest with
    | nil => rfl
    | cons port rest =>
      dsimp only
      rw [Option.map_map]
      rfl

def HostPort (ep : String) : Prop :=
  ∃ (a : String) (p : Nat), 1 ≤ p ∧ p≤65535 ∧ a ++ ":" ++ toString p=ep

def Plain (ep : String) : Prop :=
  ∃ (a : String) (p : Nat), ':'∉a.toList ∧ 1 ≤ p ∧ p≤65535 ∧ a ++ ":" ++ toString p=ep

/-- A number that is no port stands behind the first colon. -/
def OutOfRange (ep : String) : Prop := ∃ a n, endpointParts ep=some (a, n) ∧ ¬ (1 ≤ n ∧ n≤65535)

def Says (ep : String) (address : Json) : Prop :=
  ∃ (a : String) (p : Nat), address=Renderers.socketAddress a p ∧ 1 ≤ p ∧ p≤65535 ∧
    a ++ ":" ++ toString p=ep

def items : Option Json → List Json
  | some (.arr xs) => xs
  | _ => []

def clusterDocs (doc : Json) : List Json := items (Json.path ["static_resources", "clusters"] doc)

def addresses (cluster : Json) : List Json :=
  (items (Json.path ["load_assignment", "endpoints"] cluster)).flatMap fun e =>
    (items (Json.get? "lb_endpoints" e)).filterMap (Json.path ["endpoint", "address"])

def Each (inst : ServiceInstance) (P : String → Prop) : Prop :=
  ∀ c∈inst.parameters.clusters, ∀ ep∈c.endpoints, P ep

structure EndpointsExact (inst : ServiceInstance) (r : Except RenderError Json) : Prop where
  exact : ∀ doc, r=.ok doc → List.Forall₂ (fun c d => List.Forall₂ Says c.endpoints (addresses d))
    inst.parameters.clusters ((clusterDocs doc).take inst.parameters.clusters.length)
  rejects : (∃ c∈inst.parameters.clusters, ∃ ep∈c.endpoints, ¬ HostPort ep) → r=.error .validation

theorem endpointParts_plain {a : String} {p : Nat} (ha : ':'∉a.toList) (hp : p≤65535) :
    endpointParts (a ++ ":" ++ toString p)=some (a, (p : Int)) := by
  have hdigits : ∀ c∈(toString p).toList, (c == ':')=false := by
    intro c hc
    rw [Nat.toString_eq_repr, Nat.toList_repr] at hc
    have hd := Nat.isDigit_of_mem_toDigits (by decide) (by decide) hc
    rw [beq_eq_false_iff_ne]
    intro he
    rw [he] at hd
    cases hd
  have hhost : ∀ c∈a.toList, (c == ':')=false := by
    intro c hc
    rw [beq_eq_false_iff_ne]
    intro he
    exact ha (he ▸ hc)
  have hsplit : (a ++ ":" ++ toString p).toList.splitOnP (· == ':')=
      [a.toList, (toString p).toList] := by
    have hl : (a ++ ":" ++ toString p).toList=a.toList++ ':'::(toString p).toList := by simp
    rw [hl, List.splitOnP_append_cons _ _ (by decide), List.splitOnP_eq_singleton hhost,
      List.splitOnP_eq_singleton hdigits]
    rfl
  rw [endpointParts, hsplit]
  simp only [String.ofList_toList]
  rw [Text.pyInt_toString (by omega)]
  rfl

/-- No part of a split holds a separator. -/
theorem splitOnP_forall {α : Type} (p : α → Bool) (xs : List α) :
    ∀ part∈xs.splitOnP p, ∀ x∈part, p x=false := by
  induction xs with
  | nil => simp
  | cons y ys ih =>
    rw [List.splitOnP_cons_eq_if_modifyHead]
    split
    · intro part hpart
      cases List.mem_cons.mp hpart with
      | inl he => simp [he]
      | inr hpart => exact ih part hpart
    · next hy =>
      cases hs : ys.splitOnP p with
      | nil => exact absurd hs (List.splitOnP_ne_nil p ys)
      | cons head rest =>
        rw [hs, List.forall_mem_cons] at ih
        rw [List.modifyHead_cons, List.forall_mem_cons]
        refine ⟨fun x hx => ?_, ih.2⟩
        cases List.mem_cons.mp hx with
        | inl he => exact he ▸ Bool.eq_false_iff.mpr hy
        | inr hx => exact ih.1 x hx

theorem endpointParts_host {ep host : String} {n : Int} (h : endpointParts ep=some (host, n)) :
    ':'∉host.toList := by
  have hall := splitOnP_forall (· == ':') ep.toList
  rw [endpointParts] at h
  split at h
  · next first port rest hs =>
    obtain ⟨m, _, he⟩ := Option.map_eq_some_iff.mp h
    cases he
    rw [hs] at hall
    intro hm
    rw [String.toList_ofList] at hm
    have hc := hall first List.mem_cons_self ':' hm
    cases hc
  · cases h

/-- The address of an endpoint says it exactly if it is plain. -/
theorem says_iff {ep : String} {address : Json} (h : endpointAddress ep=some address) :
    Says ep address ↔ Plain ep := by
  rw [endpointAddress_eq, Option.map_eq_some_iff] at h
  obtain ⟨⟨host, n⟩, hparts, rfl⟩ := h
  constructor
  · intro hs
    obtain ⟨a, p, he, h1, h2, hep⟩ := hs
    simp only [Renderers.socketAddress, int, Json.obj.injEq, List.cons.injEq, Prod.mk.injEq,
      Json.str.injEq, and_true, true_and] at he
    exact ⟨a, p, he.1 ▸ endpointParts_host hparts, h1, h2, hep⟩
  · intro hp
    obtain ⟨a, p, ha, h1, h2, hep⟩ := hp
    rw [← hep, endpointParts_plain ha h2] at hparts
    obtain ⟨hhost, hn⟩ := Prod.mk.inj (Option.some.inj hparts)
    exact ⟨a, p, by rw [← hhost, ← hn], h1, h2, hep⟩

theorem address_outOfRange {ep : String} {lax : Lax} (h : ServiceType.EndpointReadable ep) :
    (∀ a, endpointAddress ep=some a → address lax a=true) ↔ ¬ OutOfRange ep := by
  obtain ⟨a, ha⟩ := (ServiceType.endpointAddress_some_iff ep).mpr h
  have heq := ha
  rw [endpointAddress_eq, Option.map_eq_some_iff] at heq
  obtain ⟨⟨host, n⟩, hparts, rfl⟩ := heq
  have hrange : OutOfRange ep ↔ ¬ (1 ≤ n ∧ n≤65535) := by
    constructor
    · intro ho
      obtain ⟨host', n', hparts', hn'⟩ := ho
      rw [hparts] at hparts'
      cases hparts'
      exact hn'
    · exact fun hn => ⟨host, n, hparts, hn⟩
  rw [hrange, not_not]
  constructor
  · intro hall
    have hv := hall _ ha
    rw [address_socketAddress] at hv
    exact of_decide_eq_true hv
  · intro hn a' ha'
    rw [ha] at ha'
    cases ha'
    rw [address_socketAddress]
    exact decide_eq_true hn

theorem Plain.hostPort {ep : String} (h : Plain ep) : HostPort ep := by
  obtain ⟨a, p, _, h1, h2, he⟩ := h
  exact ⟨a, p, h1, h2, he⟩

section Clusters
variable {s : RenderSettings} {inst : ServiceInstance}

theorem addresses_clusterDoc {mtlsEnabled : Bool} {c : Cluster} {doc : Json}
    (h : clusterDoc s mtlsEnabled c=some doc) :
    c.endpoints.mapM endpointAddress=some (addresses doc) := by
  obtain ⟨as, ha, rfl⟩ := Option.map_eq_some_iff.mp h
  rw [ha]
  cases mtlsEnabled with
  | true => simp [addresses, items, Json.path, Json.get?, Json.lookup, Renderers.loadAssignment]
  | false => simp [addresses, items, Json.path, Json.get?, Json.lookup, Renderers.loadAssignment]

theorem clusterDocs_buildDoc {doc : Json} (h : buildDoc s inst=some doc) :
    inst.parameters.clusters.mapM (clusterDoc s inst.parameters.mtlsEnabled)=
      some ((clusterDocs doc).take inst.parameters.clusters.length) := by
  obtain ⟨clusters, hc, hdoc⟩ := buildDoc_eq_some_iff.mp h
  have hlen := (mapM_eq_some_iff.mp hc).length_eq
  have hdocs : clusterDocs doc=clusters++
      if inst.parameters.mtlsEnabled && s.meshSdsEnabled then [sdsCluster s] else [] := by
    rw [hdoc]
    rfl
  rw [hc, hdocs, List.take_left' hlen.symm]

/-- What is rendered says what was given exactly if every endpoint is plain. -/
theorem says_all_iff {doc : Json} (h : buildDoc s inst=some doc) :
    List.Forall₂ (fun c d => List.Forall₂ Says c.endpoints (addresses d)) inst.parameters.clusters
        ((clusterDocs doc).take inst.parameters.clusters.length) ↔ Each inst Plain := by
  have hclusters := clusterDocs_buildDoc h
  rw [forall₂_and_iff (mapM_eq_some_iff.mp hclusters)]
  have hcluster : ∀ c d, clusterDoc s inst.parameters.mtlsEnabled c=some d →
      (List.Forall₂ Says c.endpoints (addresses d) ↔ ∀ ep∈c.endpoints, Plain ep) := by
    intro c d hd
    have haddr := addresses_clusterDoc hd
    rw [forall₂_and_iff (mapM_eq_some_iff.mp haddr)]
    constructor
    · intro hall ep hep
      obtain ⟨a, ha⟩ := mapM_isSome_iff.mp ⟨_, haddr⟩ ep hep
      exact (says_iff ha).mp (hall ep hep a ha)
    · exact fun hall ep hep a ha => (says_iff ha).mpr (hall ep hep)
  constructor
  · intro hall c hc
    obtain ⟨d, hd⟩ := mapM_isSome_iff.mp ⟨_, hclusters⟩ c hc
    exact (hcluster c d hd).mp (hall c hc d hd)
  · exact fun hall c hc d hd => (hcluster c d hd).mpr (hall c hc)

theorem renderEnvoy_ok_iff (lax : Lax) {doc : Json} :
    renderEnvoy lax s inst=.ok doc ↔ buildDoc s inst=some doc ∧ validateBootstrap lax doc=true := by
  rw [renderEnvoy]
  cases buildDoc s inst with
  | none => simp
  | some d =>
    dsimp only
    split
    · next hv =>
      simp only [Except.ok.injEq, Option.some.injEq]
      exact ⟨fun he => ⟨he, he ▸ hv⟩, fun h => h.1⟩
    · next hv =>
      simp only [reduceCtorEq, Option.some.injEq, false_iff, not_and]
      exact fun he hd => hv (he ▸ hd)

/-- The schema check asks of the endpoints that no port is out of range. -/
theorem validateBootstrap_iff {lax : Lax} {doc : Json} (h : buildDoc s inst=some doc) :
    validateBootstrap lax doc=true ↔ Each inst (¬ OutOfRange ·) := by
  have hread := (ServiceType.buildDoc_some_iff s inst).mp ⟨doc, h⟩
  rw [validateBootstrap_buildDoc h]
  constructor
  · exact fun hv c hc ep hep => (address_outOfRange (hread c hc ep hep)).mp (hv c hc ep hep)
  · exact fun hn c hc ep hep => (address_outOfRange (hread c hc ep hep)).mpr (hn c hc ep hep)

theorem renderEnvoy_inRange (lax : Lax) (hread : Each inst ServiceType.EndpointReadable)
    (hrange : Each inst (¬ OutOfRange ·)) :
    ∃ doc, buildDoc s inst=some doc ∧ renderEnvoy lax s inst=.ok doc := by
  obtain ⟨doc, hdoc⟩ := (ServiceType.buildDoc_some_iff s inst).mpr hread
  exact ⟨doc, hdoc, (renderEnvoy_ok_iff lax).mpr ⟨hdoc, (validateBootstrap_iff hdoc).mpr hrange⟩⟩

theorem renderEnvoy_outOfRange (lax : Lax) (hread : Each inst ServiceType.EndpointReadable)
    (hrange : ¬ Each inst (¬ OutOfRange ·)) : renderEnvoy lax s inst=.error .validation := by
  obtain ⟨doc, hdoc⟩ := (ServiceType.buildDoc_some_iff s inst).mpr hread
  rw [renderEnvoy, hdoc]
  dsimp only
  rw [if_neg fun hv => hrange ((validateBootstrap_iff hdoc).mp hv)]

theorem renderEnvoy_unreadable (lax : Lax) (hread : ¬ Each inst ServiceType.EndpointReadable) :
    renderEnvoy lax s inst=.error .raised := by
  have hnone : buildDoc s inst=none := by
    cases hdoc : buildDoc s inst with
    | none => rfl
    | some doc => exact absurd ((ServiceType.buildDoc_some_iff s inst).mp ⟨doc, hdoc⟩) hread
  rw [renderEnvoy, hnone]

theorem each_hostPort_iff : Each inst HostPort ↔
    ¬ ∃ c∈inst.parameters.clusters, ∃ ep∈c.endpoints, ¬ HostPort ep := by
  simp [Each]

/-- A document with plain endpoints says what was given, and there is nothing to reject. -/
theorem exact_ok_iff {doc : Json} (h : buildDoc s inst=some doc) :
    EndpointsExact inst (.ok doc) ↔ Each inst Plain := by
  rw [← says_all_iff h]
  constructor
  · exact fun hexact => hexact.exact doc rfl
  · intro hsays
    refine ⟨fun d hd => ?_, fun hnot => ?_⟩
    · cases hd
      exact hsays
    · have hplain := (says_all_iff h).mp hsays
      exact absurd hnot (each_hostPort_iff.mp fun c hc ep hep => (hplain c hc ep hep).hostPort)

theorem exact_validation : EndpointsExact inst (.error .validation) :=
  ⟨fun d hd => (by cases hd), fun _ => rfl⟩

theorem exact_raised_iff : EndpointsExact inst (.error .raised) ↔ Each inst HostPort := by
  rw [each_hostPort_iff]
  constructor
  · exact fun h hnot => by cases h.rejects hnot
  · exact fun h => ⟨fun d hd => (by cases hd), fun hnot => absurd hnot h⟩

/-- Endpoints are rendered as given, or rejected, exactly if each has one colon and a port in
decimal behind it, or the schema check meets a port out of range, or what raises is a host with
colons and a port. -/
theorem endpoints_exact_iff (lax : Lax) (s : RenderSettings) (inst : ServiceInstance) :
    EndpointsExact inst (renderEnvoy lax s inst) ↔
      (Each inst ServiceType.EndpointReadable ∧ (Each inst Plain ∨ ¬ Each inst (¬ OutOfRange ·))) ∨
      (¬ Each inst ServiceType.EndpointReadable ∧ Each inst HostPort) := by
  by_cases hread : Each inst ServiceType.EndpointReadable
  · simp only [hread, not_true_eq_false, false_and, or_false, true_and]
    by_cases hrange : Each inst (¬ OutOfRange ·)
    · obtain ⟨doc, hdoc, hok⟩ := renderEnvoy_inRange (s := s) lax hread hrange
      simp only [hrange, not_true_eq_false, or_false]
      rw [hok]
      exact exact_ok_iff hdoc
    · rw [renderEnvoy_outOfRange lax hread hrange]
      exact iff_of_true exact_validation (Or.inr hrange)
  · simp only [hread, false_and, false_or, not_false_eq_true, true_and]
    rw [renderEnvoy_unreadable lax hread]
    exact exact_raised_iff

end Clusters

/-- An endpoint that is read as a host and a port must be plain to be rendered as given. -/
theorem EndpointsExact.plain {lax : Lax} {ep host : String} {p : Nat}
    (h : EndpointsExact (ControlPlane.balancer ep) (renderEnvoy lax {} (ControlPlane.balancer ep)))
    (ha : endpointAddress ep=some (Renderers.socketAddress host p)) (hp : 1 ≤ p ∧ p≤65535) :
    Plain ep := by
  have hread : Each (ControlPlane.balancer ep) ServiceType.EndpointReadable := by
    have hr := (ServiceType.endpointAddress_some_iff ep).mp ⟨_, ha⟩
    simp [Each, ControlPlane.balancer, hr]
  have hrange : Each (ControlPlane.balancer ep) (¬ OutOfRange ·) := by
    have hvalid : ∀ a, endpointAddress ep=some a → address lax a=true := by
      intro a ha'
      rw [ha] at ha'
      cases ha'
      rw [address_socketAddress]
      exact decide_eq_true (by omega)
    have haddr := (address_outOfRange (hread _ List.mem_cons_self ep List.mem_cons_self)).mp hvalid
    simp [Each, ControlPlane.balancer, haddr]
  obtain ⟨doc, hdoc, hok⟩ := renderEnvoy_inRange (s := {}) lax hread hrange
  rw [hok] at h
  have hplain := (exact_ok_iff hdoc).mp h
  exact hplain { name := "app", endpoints := [ep] } (by simp [ControlPlane.balancer]) ep (by simp)

/-- A port with a blank and one with a second colon are rendered as something else; a name without
a port raises. -/
theorem endpoints_differ :
    (∀ ep∈["10.0.0.1: 80", "10.0.0.1:80:443"],
      endpointAddress ep=some (Renderers.socketAddress "10.0.0.1" 80)) ∧
    renderEnvoy ControlPlane.samplePlane.codec.lax {} (ControlPlane.balancer "backend")=
      .error .raised ∧
    ∀ ep∈["10.0.0.1: 80", "10.0.0.1:80:443", "backend"], ¬ EndpointsExact (ControlPlane.balancer ep)
      (renderEnvoy ControlPlane.samplePlane.codec.lax {} (ControlPlane.balancer ep)) := by
  have hread : ∀ ep∈["10.0.0.1: 80", "10.0.0.1:80:443"],
      endpointAddress ep=some (Renderers.socketAddress "10.0.0.1" 80) := by decide +kernel
  have hraised : renderEnvoy ControlPlane.samplePlane.codec.lax {}
      (ControlPlane.balancer "backend")=.error .raised := by decide +kernel
  have hnot : ∀ ep∈["10.0.0.1: 80", "10.0.0.1:80:443"], ¬ EndpointsExact (ControlPlane.balancer ep)
      (renderEnvoy ControlPlane.samplePlane.codec.lax {} (ControlPlane.balancer ep)) := by
    intro ep hm h
    have ha := hread ep hm
    obtain ⟨a, p, he, _, _, hep⟩ := (says_iff ha).mpr (h.plain (p := 80) ha (by decide))
    simp only [Renderers.socketAddress, int, Json.obj.injEq, List.cons.injEq, Prod.mk.injEq,
      Json.str.injEq, and_true, true_and, Json.num.injEq] at he
    obtain ⟨hhost, hport⟩ := he
    have hp : p=80 := by exact_mod_cast hport.symm
    have hne : "10.0.0.1" ++ ":" ++ toString 80∉["10.0.0.1: 80", "10.0.0.1:80:443"] := by decide
    rw [← hhost, hp] at hep
    exact hne (hep ▸ hm)
  refine ⟨hread, hraised, ?_⟩
  intro ep hm h
  have hsplit : ep∈["10.0.0.1: 80", "10.0.0.1:80:443"]++["backend"] := hm
  cases List.mem_append.mp hsplit with
  | inl hm => exact hnot ep hm h
  | inr hm =>
    rw [List.mem_singleton.mp hm, hraised] at h
    have hform : ¬ HostPort "backend" := by
      intro hh
      obtain ⟨a, p, _, _, he⟩ := hh
      have hcolon : ':'∈(a ++ ":" ++ toString p).toList := by simp
      rw [he] at hcolon
      exact absurd hcolon (by decide)
    have hrejected := h.rejects ⟨{ name := "app", endpoints := ["backend"] },
      by simp [ControlPlane.balancer], "backend", by simp, hform⟩
    cases hrejected

end Sovereign.EnvoyV3
