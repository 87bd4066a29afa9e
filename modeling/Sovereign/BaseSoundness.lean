import Sovereign.BasePolicy

/-! What a document the base bundle allows looks like. A rule rejects with its head, so a
rule whose head is undefined is silent; and a test `input.x` succeeds on every value but
`false`. Both leave gaps between what the rules say and what they check. -/
namespace Sovereign.BaseSoundness
open Sovereign Rego Json BasePolicy

theorem holds_iff {v : Option Json} : holds v=true ↔ ∃ x, v=some x ∧ x≠.bool false := by
  cases v with
  | none => simp [holds]
  | some x =>
    cases x with
    | bool b => cases b <;> simp [holds]
    | null => simp [holds]
    | num n => simp [holds]
    | str s => simp [holds]
    | arr xs => simp [holds]
    | obj ms => simp [holds]

section Rules
variable {sprintf : String → List Json → String} {doc : Json}

theorem hasParam_or {name : String} :
    hasParam name doc=true ∧ path ["parameters", name] doc≠some (.bool false) ↔
      holds (path ["parameters", name] doc)=true := by
  rw [hasParam, Bool.or_eq_true, decide_eq_true_eq]
  constructor
  · rintro ⟨h | h, hne⟩
    · exact h
    · exact absurd h hne
  · intro h
    refine ⟨Or.inl h, ?_⟩
    intro he
    rw [he] at h
    cases h

theorem single_values {r : Rule} {solution : Option (List Json)}
    (h : r.body doc=single solution) :
    r.values sprintf doc=[] ↔
      ∀ bound, solution=some bound → r.head.eval sprintf doc bound=none := by
  rw [Rule.values, h, List.filterMap_eq_nil_iff]
  simp [single]

theorem guard_then {p : Prop} [Decidable p] {next : Option (List Json)} {bound : List Json} :
    (guard p >>= fun _ => next)=some bound ↔ p ∧ next=some bound := by
  by_cases hp : p <;> simp [guard, hp]

theorem eval_defined {format : String} {args : List Term} {bound : List Json}
    (h : ∀ t∈args, (t.eval doc bound).isSome) :
    Head.eval sprintf doc bound (.sprintf format args)≠none := by
  rw [Head.eval, Ne, Option.map_eq_none_iff, ← Ne, Option.ne_none_iff_isSome]
  exact evalTerms_defined doc bound args h

theorem inSet_some {set : List String} {v : Option Json} (h : inSet set v=true) :
    ∃ s∈set, v=some (.str s) := by
  cases v with
  | none => simp [inSet] at h
  | some x =>
    cases x with
    | str s => exact ⟨s, by simpa [inSet] using h, rfl⟩
    | null => simp [inSet] at h
    | bool b => simp [inSet] at h
    | num n => simp [inSet] at h
    | arr xs => simp [inSet] at h
    | obj ms => simp [inSet] at h

theorem path_one (name : String) : path [name] doc=get? name doc := by
  cases h : get? name doc <;> simp [path, h]

theorem auditLogging_silent : ruleSet sprintf auditLogging doc=[] ↔
    holds (path ["parameters", "logging_enabled"] doc)=true := by
  rw [ruleSet_eq_nil_iff, ← hasParam_or]
  simp only [auditLogging, List.forall_mem_cons, List.not_mem_nil, false_implies, implies_true,
    and_true]
  rw [single_values rfl, single_values rfl]
  simp only [guard_then, Head.eval]
  simp [and_comm]

theorem requiredFlag_silent {services : List String} {name off missing : String} :
    ruleSet sprintf (requiredFlag services name off missing) doc=[] ↔
      (inSet services (get? "service_type" doc)=true →
        holds (path ["parameters", name] doc)=true) := by
  rw [ruleSet_eq_nil_iff, ← hasParam_or]
  simp only [requiredFlag, List.forall_mem_cons, List.not_mem_nil, false_implies, implies_true,
    and_true]
  rw [single_values rfl, single_values rfl]
  simp only [guard_then]
  by_cases hin : inSet services (get? "service_type" doc)=true
  · obtain ⟨t, _, hs⟩ := inSet_some hin
    have hdef : ∀ format bound,
        Head.eval sprintf doc bound (.sprintf format [.ref ["service_type"]])≠none := by
      intro format bound
      refine eval_defined ?_
      intro t ht
      rw [List.mem_singleton.mp ht, Term.eval, path_one, hs]
      rfl
    simp [hin, hdef, and_comm]
  · simp [hin]

theorem tenancy_silent : ruleSet sprintf tenancy doc=[] ↔
    tenancy.identifier (get? "tenant_id" doc)=true := by
  rw [ruleSet_eq_nil_iff]
  simp only [tenancy, List.forall_mem_cons, List.not_mem_nil, false_implies, implies_true,
    and_true]
  rw [single_values rfl, single_values rfl, single_values rfl]
  simp only [guard_then]
  cases ht : get? "tenant_id" doc with
  | none => simp [holds, Head.eval, tenancy.identifier]
  | some x =>
    have hdef : ∀ format bound,
        Head.eval sprintf doc bound (.sprintf format [.ref ["tenant_id"]])≠none := by
      intro format bound
      refine eval_defined ?_
      intro t hm
      rw [List.mem_singleton.mp hm, Term.eval, path_one, ht]
      rfl
    constructor
    · rintro ⟨hgiven, _, hvalid⟩
      by_contra hno
      have hholds : holds (some x)=true := by
        by_contra hn
        exact absurd (hgiven [] ⟨by simpa using hn, rfl⟩) (by simp [Head.eval])
      exact hdef _ [] (hvalid [] ⟨hholds, by simpa using hno, rfl⟩)
    · intro hid
      obtain ⟨s, rfl, hne⟩ : ∃ s, x=.str s ∧ s≠"" := by
        cases x with
        | str s =>
          refine ⟨s, rfl, ?_⟩
          rintro rfl
          simp [tenancy.identifier] at hid
        | null => simp [tenancy.identifier] at hid
        | bool b => simp [tenancy.identifier] at hid
        | num n => simp [tenancy.identifier] at hid
        | arr xs => simp [tenancy.identifier] at hid
        | obj ms => simp [tenancy.identifier] at hid
      refine ⟨?_, ?_, ?_⟩
      · rintro bound ⟨h, _⟩
        simp [holds] at h
      · rintro bound ⟨h, _⟩
        simp [hne] at h
      · rintro bound ⟨_, h, _⟩
        simp [hid] at h

theorem authentication_silent : ruleSet sprintf authentication doc=[] ↔
    (path ["context", "require_mfa"] doc=some (.bool true) →
      inSet stateChangingAction (path ["context", "action"] doc)=true →
      "mfa".toList∈amrValues doc) := by
  rw [ruleSet_eq_nil_iff]
  simp only [authentication, List.forall_mem_cons, List.not_mem_nil, false_implies, implies_true,
    and_true]
  rw [single_values rfl]
  simp only [guard_then]
  constructor
  · intro h hmfa hin
    by_contra hno
    obtain ⟨action, _, hs⟩ := inSet_some hin
    refine eval_defined ?_ (h [] ⟨hmfa, hin, hno, rfl⟩)
    intro t ht
    rw [List.mem_singleton.mp ht, Term.eval, hs]
    rfl
  · rintro h bound ⟨hmfa, hin, hno, _⟩
    exact absurd (h hmfa hin) hno

theorem crypto_silent : ruleSet sprintf crypto doc=[] ↔
    ∀ suites, path ["parameters", "cipher_suites"] doc=some suites → ∀ suite∈members suites,
      inSet fipsApproved (some suite)=true := by
  have hdef : ∀ suite : Json, Head.eval sprintf doc [suite]
      (.sprintf "SC-13: cipher suite %q is not FIPS-approved" [.var 0])≠none := by
    intro suite
    refine eval_defined ?_
    intro t ht
    rw [List.mem_singleton.mp ht]
    rfl
  simp only [ruleSet_eq_nil_iff, crypto, List.forall_mem_cons, List.not_mem_nil, false_implies,
    implies_true, and_true, Rule.values, List.filterMap_eq_nil_iff, List.mem_map, List.mem_filter,
    Bool.not_eq_true']
  cases hp : path ["parameters", "cipher_suites"] doc with
  | none => simp
  | some suites =>
    constructor
    · intro h suites' he suite hs
      cases he
      by_contra hno
      exact hdef suite (h [suite] ⟨suite, ⟨hs, by simpa using hno⟩, rfl⟩)
    · rintro h _ ⟨suite, ⟨hs, hno⟩, rfl⟩
      rw [h suites rfl suite hs] at hno
      cases hno

/-- A non-empty collection counts as given and has a positive count. -/
theorem count_pos {x : Json} (h : members x≠[]) :
    holds (some x)=true ∧ ∃ n, count x=some n ∧ 0 < n := by
  cases x with
  | arr xs => exact ⟨rfl, xs.length, rfl, List.length_pos_of_ne_nil h⟩
  | obj ms =>
    refine ⟨rfl, ms.length, rfl, List.length_pos_of_ne_nil ?_⟩
    rintro rfl
    exact h rfl
  | null => exact absurd rfl h
  | bool b => exact absurd rfl h
  | num n => exact absurd rfl h
  | str s => exact absurd rfl h

theorem guard_isSome {p : Prop} [Decidable p] {next : Option (List Json)} :
    (guard p >>= fun _ => next)=if p then next else none := by
  by_cases hp : p <;> simp [guard, hp]

/-- With the service type given, a silent bundle has it among the approved ones. -/
theorem service_approved (h : ruleSet sprintf allowedServices doc=[])
    {tenant service approved : Json} (ht : get? "tenant_id" doc=some tenant)
    (hs : get? "service_type" doc=some service)
    (ha : get? "approved_services" doc=some approved) (hne : members approved≠[]) :
    service∈members approved := by
  obtain ⟨hholds, n, hn, hpos⟩ := count_pos hne
  have hv := (ruleSet_eq_nil_iff sprintf allowedServices doc).mp h _ List.mem_cons_self
  rw [single_values rfl] at hv
  by_contra hno
  refine eval_defined ?_ (hv [] ?_)
  · intro t hm
    simp only [List.mem_cons, List.not_mem_nil, or_false] at hm
    obtain rfl | rfl := hm
    · rw [Term.eval, path_one, hs]
      rfl
    · rw [Term.eval, path_one, ht]
      rfl
  · simp [ha, hs, hn, hholds, hpos, isIn, hno, guard_isSome]

theorem index_holds {coll key : Option Json} {v : Json} (h : index coll key=some v) :
    holds coll=true := by
  cases coll with
  | none => simp [index] at h
  | some c =>
    cases c with
    | arr xs => rfl
    | obj ms => rfl
    | null => simp [index] at h
    | bool b => simp [index] at h
    | num n => simp [index] at h
    | str s => simp [index] at h

theorem plan_approved (h : ruleSet sprintf allowedServices doc=[])
    {tenant service plan plans : Json} (ht : get? "tenant_id" doc=some tenant)
    (hs : get? "service_type" doc=some service) (hp : get? "plan_id" doc=some plan)
    (hi : index (get? "approved_plans" doc) (get? "service_type" doc)=some plans)
    (hne : members plans≠[]) : plan∈members plans := by
  obtain ⟨_, n, hn, hpos⟩ := count_pos hne
  have hv := (ruleSet_eq_nil_iff sprintf allowedServices doc).mp h _
    (List.mem_cons_of_mem _ List.mem_cons_self)
  rw [single_values rfl] at hv
  have hholds : holds (get? "approved_plans" doc)=true := index_holds hi
  by_contra hno
  refine eval_defined ?_ (hv [] ?_)
  · intro t hm
    simp only [List.mem_cons, List.not_mem_nil, or_false] at hm
    obtain rfl | rfl | rfl := hm
    · rw [Term.eval, path_one, hp]
      rfl
    · rw [Term.eval, path_one, hs]
      rfl
    · rw [Term.eval, path_one, ht]
      rfl
  · simp [hi, hp, hn, hholds, hpos, isIn, hno, guard_isSome]

theorem region_approved (h : ruleSet sprintf govRegion doc=[]) :
    ∃ region, path ["parameters", "region"] doc=some region ∧
      ∀ regions, approved doc=some regions → region∈members regions := by
  have hall := (ruleSet_eq_nil_iff sprintf govRegion doc).mp h
  have hgiven := hall _ List.mem_cons_self
  have happroved := hall _ (List.mem_cons_of_mem _ List.mem_cons_self)
  rw [single_values rfl] at hgiven happroved
  have hholds : holds (path ["parameters", "region"] doc)=true := by
    by_contra hno
    refine eval_defined ?_ (hgiven [] ?_)
    · simp
    · simp [guard_isSome, hno]
  obtain ⟨region, hr, _⟩ := holds_iff.mp hholds
  refine ⟨region, hr, ?_⟩
  intro regions hreg
  by_contra hno
  refine eval_defined ?_ (happroved [regions] ?_)
  · intro t hm
    simp only [List.mem_cons, List.not_mem_nil, or_false] at hm
    obtain rfl | rfl := hm
    · rw [Term.eval, hr]
      rfl
    · rfl
  · simp [hr, hreg, isIn, hno, hr ▸ hholds]

end Rules

/-- `input.approved_regions` when it lists something, else the default set. -/
def approvedRegions (doc : Json) : List Json :=
  let listed := ((get? "approved_regions" doc).map members).getD []
  if listed.isEmpty then members defaultApproved else listed

def bare : Json → Bool
  | .bool _ => true
  | .num _ => true
  | .str _ => true
  | _ => false

def declaredSuites (doc : Json) : List Json :=
  match path ["parameters", "cipher_suites"] doc with
  | none => []
  | some x => if bare x then [x] else members x

structure Sound (doc : Json) : Prop where
  tenant : ∃ s, get? "tenant_id" doc=some (.str s) ∧ s≠"" ∧
    ∀ c∈s.toList, c.isAlphanum=true ∨ c = '_' ∨ c = '-'
  logging : path ["parameters", "logging_enabled"] doc=some (.bool true)
  region : ∃ region∈approvedRegions doc, path ["parameters", "region"] doc=some region
  tls : inSet networkFacing (get? "service_type" doc)=true →
    path ["parameters", "tls"] doc=some (.bool true)
  encryption : inSet storageBacked (get? "service_type" doc)=true →
    path ["parameters", "encryption_at_rest"] doc=some (.bool true)
  ciphers : ∀ suite∈declaredSuites doc, ∃ s∈fipsApproved, suite=.str s
  service : ∀ approved, get? "approved_services" doc=some approved → members approved≠[] →
    ∃ service∈members approved, get? "service_type" doc=some service
  plan : ∀ plans, index (get? "approved_plans" doc) (get? "service_type" doc)=some plans →
    members plans≠[] → ∃ plan∈members plans, get? "plan_id" doc=some plan
  mfa : path ["context", "require_mfa"] doc=some (.bool true) →
    inSet stateChangingAction (path ["context", "action"] doc)=true →
    ∃ amr, path ["context", "amr"] doc=some amr ∧ .str "mfa"∈members amr

/-- Where the checks of the bundle amount to what its rules ask for. -/
structure Typed (doc : Json) : Prop where
  logging : ∃ b, path ["parameters", "logging_enabled"] doc=some (.bool b)
  /-- an `approved_regions` that has no count leaves the region to the default set -/
  region : ∀ regions, get? "approved_regions" doc=some regions → regions≠.bool false →
    count regions=none → ∃ region∈members defaultApproved,
      path ["parameters", "region"] doc=some region
  tls : inSet networkFacing (get? "service_type" doc)=true →
    ∃ b, path ["parameters", "tls"] doc=some (.bool b)
  encryption : inSet storageBacked (get? "service_type" doc)=true →
    ∃ b, path ["parameters", "encryption_at_rest"] doc=some (.bool b)
  ciphers : ∀ suite, path ["parameters", "cipher_suites"] doc=some suite → bare suite=true →
    ∃ s∈fipsApproved, suite=.str s
  service : ∀ approved, get? "approved_services" doc=some approved → members approved≠[] →
    (get? "service_type" doc).isSome=true
  plan : ∀ plans, index (get? "approved_plans" doc) (get? "service_type" doc)=some plans →
    members plans≠[] → (get? "plan_id" doc).isSome=true
  /-- the bundle takes `mfa` in any letter case -/
  mfa : path ["context", "require_mfa"] doc=some (.bool true) →
    inSet stateChangingAction (path ["context", "action"] doc)=true →
    "mfa".toList∈amrValues doc →
    ∃ amr, path ["context", "amr"] doc=some amr ∧ .str "mfa"∈members amr

section Property
variable {sprintf : String → List Json → String} {doc : Json}

theorem flag_true {v : Option Json} (h : holds v=true) (hb : ∃ b, v=some (.bool b)) :
    v=some (.bool true) := by
  obtain ⟨b, rfl⟩ := hb
  cases b with
  | true => rfl
  | false => cases h

theorem base_silent (h : ruleSet sprintf base doc=[]) :
    ruleSet sprintf tenancy doc=[] ∧ ruleSet sprintf authentication doc=[] ∧
    ruleSet sprintf auditLogging doc=[] ∧ ruleSet sprintf transmission doc=[] ∧
    ruleSet sprintf crypto doc=[] ∧ ruleSet sprintf encryptionAtRest doc=[] ∧
    ruleSet sprintf allowedServices doc=[] ∧ ruleSet sprintf govRegion doc=[] := by
  simp only [ruleSet, base, List.flatMap_append, List.append_eq_nil_iff, and_assoc] at h
  exact h

theorem tenant_of_identifier {v : Option Json} (h : tenancy.identifier v=true) :
    ∃ s, v=some (.str s) ∧ s≠"" ∧ ∀ c∈s.toList, c.isAlphanum=true ∨ c = '_' ∨ c = '-' := by
  cases v with
  | none => cases h
  | some x =>
    cases x with
    | str s =>
      simp only [tenancy.identifier, Bool.and_eq_true, Bool.not_eq_true', List.all_eq_true,
        Bool.or_eq_true, beq_iff_eq, or_assoc, List.isEmpty_eq_false_iff] at h
      exact ⟨s, rfl, by rintro rfl; exact h.1 rfl, h.2⟩
    | null => cases h
    | bool b => cases h
    | num n => cases h
    | arr xs => cases h
    | obj ms => cases h

theorem members_of_count_none {x : Json} (h : count x=none) : members x=[] := by
  cases x with
  | arr xs => cases h
  | obj ms => cases h
  | str s => rfl
  | null => rfl
  | bool b => rfl
  | num n => rfl

theorem members_of_count_zero {x : Json} (h : count x=some 0) : members x=[] := by
  cases hm : members x with
  | nil => rfl
  | cons y ys =>
    obtain ⟨_, n, hn, hpos⟩ := count_pos (x := x) (by simp [hm])
    rw [h] at hn
    cases hn
    omega

theorem approvedRegions_default (h : ∀ x, get? "approved_regions" doc=some x → members x=[]) :
    approvedRegions doc=members defaultApproved := by
  cases hr : get? "approved_regions" doc with
  | none => simp [approvedRegions, hr]
  | some x => simp [approvedRegions, hr, h x hr]

/-- The rule `approved`, where it is defined, is the approved set. -/
theorem approved_eq {regions region : Json} (h : approved doc=some regions)
    (hm : region∈members regions) : region∈approvedRegions doc := by
  cases hr : get? "approved_regions" doc with
  | none =>
    have he : regions=defaultApproved := by simpa [approved, hr] using h.symm
    rw [approvedRegions_default (by simp [hr]), ← he]
    exact hm
  | some x =>
    by_cases hf : x=.bool false
    · have he : regions=defaultApproved := by simpa [approved, hr, hf] using h.symm
      have hnil : ∀ y, get? "approved_regions" doc=some y → members y=[] := by
        rw [hr, hf]
        intro y hy
        cases hy
        rfl
      rw [approvedRegions_default hnil, ← he]
      exact hm
    · have ha : approved doc=(count x).map fun n => if 0 < n then x else defaultApproved := by
        simp only [approved, hr]
      rw [ha] at h
      obtain ⟨n, hn, he⟩ := Option.map_eq_some_iff.mp h
      by_cases hpos : 0 < n
      · rw [if_pos hpos] at he
        rw [← he] at hm
        have hne : members x≠[] := List.ne_nil_of_mem hm
        simpa [approvedRegions, hr, hne] using hm
      · rw [if_neg hpos] at he
        have hzero : n=0 := by omega
        have hnil : ∀ y, get? "approved_regions" doc=some y → members y=[] := by
          rw [hr]
          intro y hy
          cases hy
          exact members_of_count_zero (hzero ▸ hn)
        rw [approvedRegions_default hnil, he]
        exact hm

/-- Where the rule `approved` is undefined, `approved_regions` has no count. -/
theorem approved_none (h : approved doc=none) :
    ∃ x, get? "approved_regions" doc=some x ∧ x≠.bool false ∧ count x=none := by
  simp only [approved] at h
  split at h
  · cases h
  · cases h
  · next x hne hx =>
    exact ⟨x, hx, fun hf => hne (hf ▸ rfl), by simpa using h⟩

theorem sound_of_typed (h : ruleSet sprintf base doc=[]) (ht : Typed doc) : Sound doc := by
  obtain ⟨htenancy, hauth, hlog, htls, hcrypto, henc, hsvc, hregion⟩ := base_silent h
  obtain ⟨tenant, htenant, hvalid⟩ := tenant_of_identifier (tenancy_silent.mp htenancy)
  refine ⟨⟨tenant, htenant, hvalid⟩, flag_true (auditLogging_silent.mp hlog) ht.logging, ?_,
    fun hin => flag_true (requiredFlag_silent.mp htls hin) (ht.tls hin),
    fun hin => flag_true (requiredFlag_silent.mp henc hin) (ht.encryption hin), ?_, ?_, ?_,
    fun hreq hact => ht.mfa hreq hact (authentication_silent.mp hauth hreq hact)⟩
  · obtain ⟨region, hr, happroved⟩ := region_approved hregion
    cases ha : approved doc with
    | some regions => exact ⟨region, approved_eq ha (happroved regions ha), hr⟩
    | none =>
      obtain ⟨x, hx, hne, hc⟩ := approved_none ha
      obtain ⟨region, hm, hr⟩ := ht.region x hx hne hc
      refine ⟨region, ?_, hr⟩
      rw [approvedRegions_default]
      · exact hm
      · rw [hx]
        intro y hy
        cases hy
        exact members_of_count_none hc
  · intro suite hsuite
    simp only [declaredSuites] at hsuite
    split at hsuite
    · simp at hsuite
    · next x hx =>
      split at hsuite
      · next hb =>
        rw [List.mem_singleton.mp hsuite]
        exact ht.ciphers x hx hb
      · obtain ⟨s, hs, he⟩ := inSet_some (crypto_silent.mp hcrypto x hx suite hsuite)
        exact ⟨s, hs, Option.some.inj he⟩
  · intro approved ha hne
    obtain ⟨service, hs⟩ := Option.isSome_iff_exists.mp (ht.service approved ha hne)
    exact ⟨service, service_approved hsvc htenant hs ha hne, hs⟩
  · intro plans hi hne
    obtain ⟨plan, hp⟩ := Option.isSome_iff_exists.mp (ht.plan plans hi hne)
    cases hs : get? "service_type" doc with
    | none =>
      rw [hs] at hi
      cases hc : get? "approved_plans" doc with
      | none => simp [index, hc] at hi
      | some c => cases c <;> simp [index, hc] at hi
    | some service => exact ⟨plan, plan_approved hsvc htenant hs hp hi hne, hp⟩

theorem typed_of_sound (h : Sound doc) : Typed doc where
  logging := ⟨true, h.logging⟩
  region := by
    intro x hx _ hc
    obtain ⟨region, hm, hr⟩ := h.region
    refine ⟨region, ?_, hr⟩
    rw [approvedRegions_default] at hm
    · exact hm
    · rw [hx]
      intro y hy
      cases hy
      exact members_of_count_none hc
  tls := fun hin => ⟨true, h.tls hin⟩
  encryption := fun hin => ⟨true, h.encryption hin⟩
  ciphers := fun suite hs hb => h.ciphers suite (by simp [declaredSuites, hs, hb])
  service := by
    intro approved ha hne
    obtain ⟨service, _, hs⟩ := h.service approved ha hne
    rw [hs]
    rfl
  plan := by
    intro plans hi hne
    obtain ⟨plan, _, hp⟩ := h.plan plans hi hne
    rw [hp]
    rfl
  mfa := fun hreq hact _ => h.mfa hreq hact

end Property

/-- A document the base bundle allows is sound exactly when it is typed. -/
theorem base_sound_iff (sprintf : String → List Json → String) (doc : Json)
    (h : (Policy.decision sprintf { base := base } doc).allow=true) : Sound doc ↔ Typed doc :=
  ⟨typed_of_sound, sound_of_typed ((Policy.decision_allow_iff _ _ _).mp h).1⟩

def balancer (tls : Json) : Json :=
  .obj [("tenant_id", .str "treasury"), ("service_type", .str "sovereign-envoy-lb"),
    ("plan_id", .str "standard-regional"),
    ("parameters", .obj [("region", .str "us-gov-west-1"), ("tls", tls),
      ("logging_enabled", .bool true)])]

theorem balancer_allowed (tls : Json) (h : ruleSet (fun s _ => s) base (balancer tls)=[]) :
    (Policy.decision (fun s _ => s) { base := base } (balancer tls)).allow=true :=
  (Policy.decision_allow_iff _ _ _).mpr ⟨h, by simp, by simp⟩

theorem base_sound_iff_balancer :
    (Policy.decision (fun s _ => s) { base := base } (balancer (.bool true))).allow=true ∧
      (Sound (balancer (.bool true)) ↔ Typed (balancer (.bool true))) := by
  have h := balancer_allowed (.bool true) (by decide)
  exact ⟨h, base_sound_iff _ _ h⟩

/-- The text `"false"` passes as TLS. -/
theorem tls_text_allowed :
    (Policy.decision (fun s _ => s) { base := base } (balancer (.str "false"))).allow=true ∧
      ¬ Sound (balancer (.str "false")) := by
  refine ⟨balancer_allowed (.str "false") (by decide), ?_⟩
  intro h
  have htls := h.tls (by decide)
  revert htls
  decide

end Sovereign.BaseSoundness
