import Sovereign.AuditService
import Sovereign.Dict
import Sovereign.PolicyClient
import Sovereign.StateDrift

/-! The deny-spike check of the continuous monitor, over a page of the audit service's events. -/
namespace Sovereign.Monitor
open Sovereign

/-- A row of the events table. The column keeps the instant in milliseconds. -/
structure StoredEvent where
  ts : Int
  row : AuditService.Row
deriving DecidableEq

structure Filters where
  tenantId : Option String := none
  actor : Option String := none
  action : Option String := none
  resource : Option String := none
  decision : Option String := none
  since : Option Int := none
  until_ : Option Int := none

def Filters.accepts (f : Filters) (e : StoredEvent) : Bool :=
  f.tenantId.all (fun x => decide (e.row.tenantId=x)) &&
    f.actor.all (fun x => decide (e.row.actor=x)) &&
    f.action.all (fun x => decide (e.row.action=x)) &&
    f.resource.all (fun x => decide (e.row.resource=x)) &&
    f.decision.all (fun x => decide (e.row.decision=x)) &&
    f.since.all (fun x => decide (x ≤ e.ts)) && f.until_.all fun x => decide (e.ts < x)

/-- `ORDER BY ts DESC LIMIT limit`; rows of one instant stand in any order. -/
def Page (f : Filters) (limit : Nat) (table page : List StoredEvent) : Prop :=
  ∃ ordered : List StoredEvent, ordered.Perm (table.filter f.accepts) ∧
    ordered.Pairwise (fun a b => b.ts ≤ a.ts) ∧ page=ordered.take limit

def orNull : Option String → Json
  | none => .null
  | some s => .str s

section Body
variable (isoformat : Int → String)

def eventMembers (e : StoredEvent) : List (String × Json) :=
  [("ts", .str (isoformat e.ts)), ("tenant_id", .str e.row.tenantId),
   ("actor", .str e.row.actor), ("action", .str e.row.action),
   ("resource", .str e.row.resource), ("decision", .str e.row.decision),
   ("metadata", .obj e.row.metadata), ("previous_hash", orNull e.row.previousHash),
   ("event_hash", .str e.row.eventHash), ("signature_key_id", orNull e.row.signatureKeyId),
   ("signature", orNull e.row.signature)]

def eventsBody (page : List StoredEvent) : Json :=
  .obj [("events", .arr (page.map fun e => .obj (eventMembers isoformat e))),
    ("count", .num page.length)]

end Body

structure SpikeSettings where
  auditServiceUrl : Option String
  windowMinutes : Int := 15
  threshold : Int := 25
  now : Int

def SpikeSettings.filters (env : SpikeSettings) : Filters :=
  { decision := some "deny", since := some (env.now-env.windowMinutes*60000) }

structure EventsAnswer where
  code : Int
  body : String
  json : Option Json

/-- `str(event.get("actor") or "unknown")`. `str` is for a value that is no text. -/
def actorName (str : Json → String) (event : List (String × Json)) : String :=
  match Json.lookup "actor" event with
  | some (.str s) => if s="" then "unknown" else s
  | some v => if PolicyClient.pyBool v then str v else "unknown"
  | none => "unknown"

/-- The dicts among the events. Iterating over a text or an object gives none. -/
def eventDicts : Json → Option (List (List (String × Json)))
  | .arr xs => some (xs.filterMap fun
      | .obj ms => some ms
      | _ => none)
  | .str _ => some []
  | .obj _ => some []
  | _ => none

def denyCounts (str : Json → String) (events : List (List (String × Json))) : Dict String Nat :=
  Dict.tally (actorName str) (fun _ => 1) events

/-- `max` by the count, the first one among equals. -/
def worst : List (String × Nat) → String × Nat
  | [] => ("", 0)
  | p::rest => rest.foldl (fun best q => if best.2 < q.2 then q else best) p

def checkPolicyDenySpike (str : Json → String) (env : SpikeSettings) (answer : EventsAnswer) :
    Option CheckResult :=
  let result (status : Status) (detail : String) : CheckResult :=
    { name := "policy_deny_spike", status, detail, nistControls := ["AC-2(12)", "SI-4", "IR-5"] }
  if (env.auditServiceUrl.filter fun url => decide (url≠""))=none then
    some (result .skip "AUDIT_SERVICE_URL not configured")
  else if answer.code≠200 then
    some (result .fail ("audit deny query returned " ++ toString answer.code ++ ": " ++
      String.ofList (answer.body.toList.take 200)))
  else match answer.json with
    | none => some { result .fail "audit deny query returned non-JSON body" with
        nistControls := ["AC-2(12)", "SI-4"] }
    | some (.obj payload) =>
      (eventDicts ((Json.lookup "events" payload).getD (.arr []))).map fun events =>
        let counts := denyCounts str events
        let offenders := counts.entries.filter fun p => decide (env.threshold ≤ p.2)
        if offenders≠[] then
          result .fail ((worst offenders).1 ++ " has " ++ toString (worst offenders).2 ++
            " deny event(s) in " ++ toString env.windowMinutes ++ " minutes (threshold " ++
            toString env.threshold ++ ")")
        else
          result .pass (toString (counts.entries.map Prod.snd).sum ++
            " deny event(s) across " ++ toString counts.entries.length ++
            " actor(s); threshold " ++ toString env.threshold)
    | some _ => none

def window (env : SpikeSettings) (table : List StoredEvent) : List StoredEvent :=
  table.filter env.filters.accepts

def countOf (actor : String) (events : List StoredEvent) : Nat :=
  events.countP fun e => decide (e.row.actor=actor)

def nameOf (actor : String) : String := if actor="" then "unknown" else actor

def countAs (name : String) (events : List StoredEvent) : Nat :=
  events.countP fun e => decide (nameOf e.row.actor=name)

/-- An actor reaches the threshold in the window, and no name does on the page. -/
def Hidden (env : SpikeSettings) (table page : List StoredEvent) : Prop :=
  (∃ actor, env.threshold ≤ countOf actor (window env table)) ∧
    ∀ name, (countAs name page : Int) < env.threshold

/-- The nameless actor and the one called `unknown` reach it on the page together, and no actor
does in the window. -/
def Merged (env : SpikeSettings) (table page : List StoredEvent) : Prop :=
  (∀ actor, (countOf actor (window env table) : Int) < env.threshold) ∧
    env.threshold ≤ countOf "" page+countOf "unknown" page

section Page
variable {str : Json → String} {isoformat : Int → String} {env : SpikeSettings}
variable {table page : List StoredEvent}

theorem eventDicts_body (page : List StoredEvent) :
    eventDicts (.arr (page.map fun e => .obj (eventMembers isoformat e)))=
      some (page.map (eventMembers isoformat)) := by
  rw [eventDicts, List.filterMap_map]
  exact congrArg some (congrFun List.filterMap_eq_map' page)

theorem actorName_eventMembers (e : StoredEvent) :
    actorName str (eventMembers isoformat e)=nameOf e.row.actor := rfl

theorem get_denyCounts (name : String) :
    (denyCounts str (page.map (eventMembers isoformat))).get name=
      if countAs name page=0 then none else some (countAs name page) := by
  have hmem : name∈(page.map (eventMembers isoformat)).map (actorName str) ↔
      countAs name page≠0 := by
    rw [countAs, Ne, List.countP_eq_zero, List.map_map, List.mem_map]
    simp only [decide_eq_true_eq, not_forall, not_not, exists_prop, Function.comp_apply,
      actorName_eventMembers]
  have hsum : (((page.map (eventMembers isoformat)).filter fun ms =>
      decide (actorName str ms=name)).map fun _ => 1).sum=countAs name page := by
    rw [List.map_const', List.sum_replicate_nat, mul_one, ← List.countP_eq_length_filter,
      List.countP_map]
    rfl
  rw [denyCounts, Dict.get_tally, hsum]
  by_cases h : countAs name page=0
  · rw [if_pos h, if_neg fun hm => hmem.mp hm h]
  · rw [if_neg h, if_pos (hmem.mpr h)]

theorem offenders_iff (hthreshold : 0 < env.threshold) :
    ((denyCounts str (page.map (eventMembers isoformat))).entries.filter fun p =>
      decide (env.threshold ≤ p.2))≠[] ↔ ∃ name, env.threshold ≤ countAs name page := by
  rw [Ne, List.filter_eq_nil_iff]
  push Not
  simp only [decide_eq_true_eq]
  constructor
  · intro h
    obtain ⟨⟨name, n⟩, hp, hn⟩ := h
    have hget := Dict.get_eq_some_iff.mpr hp
    rw [get_denyCounts] at hget
    split at hget
    · cases hget
    · obtain rfl := Option.some.inj hget
      exact ⟨name, hn⟩
  · intro h
    obtain ⟨name, hn⟩ := h
    have hpos : countAs name page≠0 := by omega
    refine ⟨(name, countAs name page), Dict.get_eq_some_iff.mp ?_, hn⟩
    rw [get_denyCounts, if_neg hpos]

/-- The check fails on a page exactly when a name reaches the threshold there. -/
theorem fail_iff (hurl : (env.auditServiceUrl.filter fun url => decide (url≠""))≠none)
    (hthreshold : 0 < env.threshold) (body : String) :
    ∃ r, checkPolicyDenySpike str env ⟨200, body, some (eventsBody isoformat page)⟩=some r ∧
      (r.status=.fail ↔ ∃ name, env.threshold ≤ countAs name page) := by
  have hevents : eventDicts ((Json.lookup "events" [("events", .arr (page.map fun e =>
      .obj (eventMembers isoformat e))), ("count", .num page.length)]).getD (.arr []))=
        some (page.map (eventMembers isoformat)) := eventDicts_body page
  have hoffenders : ((denyCounts str (page.map (eventMembers isoformat))).entries.filter fun p =>
      decide (env.threshold ≤ p.2))≠[] ↔ ∃ name, env.threshold ≤ countAs name page :=
    offenders_iff hthreshold
  rw [← hoffenders, checkPolicyDenySpike, if_neg hurl]
  simp only [eventsBody, hevents, ne_eq, not_true, if_false, Option.map_some]
  generalize (denyCounts str (page.map (eventMembers isoformat))).entries.filter
    (fun p => decide (env.threshold ≤ p.2))=offenders
  refine ⟨_, rfl, ?_⟩
  by_cases h : offenders=[]
  · simp [h]
  · simp [h]

theorem Page.sublist {f : Filters} {limit : Nat} (h : Page f limit table page) :
    ∃ ordered : List StoredEvent, ordered.Perm (table.filter f.accepts) ∧
      page.Sublist ordered := by
  obtain ⟨ordered, hperm, _, rfl⟩ := h
  exact ⟨ordered, hperm, List.take_sublist _ _⟩

/-- A page holds no more of an actor's denies than the window. -/
theorem countOf_page_le {limit : Nat} (h : Page env.filters limit table page) (actor : String) :
    countOf actor page ≤ countOf actor (window env table) := by
  obtain ⟨ordered, hperm, hsub⟩ := h.sublist
  have hle : countOf actor page ≤ countOf actor ordered := hsub.countP_le
  exact hle.trans_eq (hperm.countP_eq _)

theorem countAs_nameless (events : List StoredEvent) : countAs "" events=0 := by
  rw [countAs, List.countP_eq_zero]
  intro e _
  rw [decide_eq_true_eq, nameOf]
  split
  · decide
  · assumption

theorem countAs_named {name : String} (hempty : name≠"") (hunknown : name≠"unknown")
    (events : List StoredEvent) : countAs name events=countOf name events := by
  refine List.countP_congr fun e _ => ?_
  rw [decide_eq_true_eq, decide_eq_true_eq, nameOf]
  split
  · next h =>
    rw [h]
    exact ⟨fun he => absurd he.symm hunknown, fun he => absurd he.symm hempty⟩
  · exact Iff.rfl

theorem countAs_unknown (events : List StoredEvent) :
    countAs "unknown" events=countOf "" events+countOf "unknown" events := by
  induction events with
  | nil => rfl
  | cons e events ih =>
    unfold countAs countOf at ih ⊢
    rw [List.countP_cons, List.countP_cons, List.countP_cons, ih]
    by_cases hempty : e.row.actor=""
    · have hunknown : e.row.actor≠"unknown" := by
        rw [hempty]
        decide
      simp only [nameOf, hempty, decide_true, if_true]
      simp only [← hempty, hunknown, decide_false, Bool.false_eq_true, if_false]
      omega
    · simp only [nameOf, hempty, decide_false, Bool.false_eq_true, if_false]
      omega

/-- The threshold is reached on the page and by nobody in the window: two are counted as one. -/
theorem merged_iff (hthreshold : 0 < env.threshold) {limit : Nat}
    (hpage : Page env.filters limit table page) :
    Merged env table page ↔ (∃ name, env.threshold ≤ countAs name page) ∧
      ¬ ∃ actor, env.threshold ≤ countOf actor (window env table) := by
  constructor
  · intro h
    obtain ⟨hnone, htwo⟩ := h
    refine ⟨⟨"unknown", ?_⟩, ?_⟩
    · rw [countAs_unknown]
      push_cast
      exact htwo
    · intro hsome
      obtain ⟨actor, hactor⟩ := hsome
      exact absurd (hnone actor) (not_lt.mpr hactor)
  · intro h
    obtain ⟨⟨name, hname⟩, hnone⟩ := h
    push Not at hnone
    refine ⟨hnone, ?_⟩
    by_cases hempty : name=""
    · rw [hempty, countAs_nameless] at hname
      omega
    by_cases hunknown : name="unknown"
    · rw [hunknown, countAs_unknown] at hname
      push_cast at hname
      exact hname
    · have hle := countOf_page_le hpage name
      have hlt := hnone name
      rw [countAs_named hempty hunknown] at hname
      omega

end Page

theorem hidden_iff {env : SpikeSettings} {table page : List StoredEvent} :
    Hidden env table page ↔
      (∃ actor, env.threshold ≤ countOf actor (window env table)) ∧
        ¬ ∃ name, env.threshold ≤ countAs name page := by
  refine and_congr_right fun _ => ?_
  rw [not_exists]
  exact forall_congr' fun _ => not_le.symm

/-- An equivalence fails in two ways. -/
theorem iff_by_cases {p q : Prop} : (p ↔ q) ↔ ¬ (q ∧ ¬ p) ∧ ¬ (p ∧ ¬ q) := by tauto

/-- The check fails exactly on a spike, unless the spike is hidden behind the page or two actors
are taken for one. -/
theorem deny_spike_iff (str : Json → String) (isoformat : Int → String) (env : SpikeSettings)
    (table page : List StoredEvent) (body : String)
    (hurl : (env.auditServiceUrl.filter fun url => decide (url≠""))≠none)
    (hthreshold : 0 < env.threshold) (hpage : Page env.filters 1000 table page) :
    ∃ r, checkPolicyDenySpike str env ⟨200, body, some (eventsBody isoformat page)⟩=some r ∧
      ((r.status=.fail ↔ ∃ actor, env.threshold ≤ countOf actor (window env table)) ↔
        ¬ Hidden env table page ∧ ¬ Merged env table page) := by
  obtain ⟨r, hr, hfail⟩ := fail_iff hurl hthreshold body
  refine ⟨r, hr, ?_⟩
  rw [hfail, hidden_iff, merged_iff hthreshold hpage]
  exact iff_by_cases

/-! A burst behind a thousand later denies of as many actors. -/
section Burst

def denyOf (actor : String) (ts : Int) : StoredEvent where
  ts := ts
  row := { ts := "", tenantId := "default", actor := actor, action := "provision"
           resource := "lb-1", decision := "deny", metadata := [], previousHash := none
           eventHash := "", signatureKeyId := none, signature := none }

def passerBy (n : Nat) : String := String.ofList (List.replicate (n+1) 'a')

def passersBy (k : Nat) : List StoredEvent := (List.range k).map fun n => denyOf (passerBy n) 1

def burst : List StoredEvent := List.replicate 25 (denyOf "mallory" 0)

def spikeSettings : SpikeSettings :=
  { auditServiceUrl := some "http://audit-service:8000", now := 0 }

variable {k : Nat}

theorem window_burst : window spikeSettings (passersBy k++burst)=passersBy k++burst := by
  rw [window, List.filter_eq_self]
  intro e he
  obtain he | he := List.mem_append.mp he
  · obtain ⟨n, _, rfl⟩ := List.mem_map.mp he
    rfl
  · obtain rfl := List.eq_of_mem_replicate he
    rfl

theorem page_burst (hk : k=1000) :
    Page spikeSettings.filters 1000 (passersBy k++burst) (passersBy k) := by
  refine ⟨passersBy k++burst, ?_, ?_, ?_⟩
  · have hwindow := window_burst (k := k)
    rw [window] at hwindow
    rw [hwindow]
  · refine List.pairwise_append.mpr ⟨?_, ?_, ?_⟩
    · exact List.pairwise_map.mpr (List.pairwise_of_forall fun _ _ => le_refl _)
    · exact List.pairwise_replicate.mpr (Or.inr (le_refl _))
    · intro a ha b hb
      obtain ⟨n, _, rfl⟩ := List.mem_map.mp ha
      obtain rfl := List.eq_of_mem_replicate hb
      exact Int.zero_le_ofNat 1
  · exact (List.take_left' (by rw [passersBy, List.length_map, List.length_range, hk])).symm

theorem nameOf_passerBy (n : Nat) : nameOf (passerBy n)=passerBy n := by
  refine if_neg fun h => ?_
  have hl := congrArg String.toList h
  rw [passerBy, String.toList_ofList] at hl
  cases hl

theorem countAs_passersBy (name : String) : countAs name (passersBy k) ≤ 1 := by
  have hcount : countAs name (passersBy k)=((List.range k).map passerBy).count name := by
    rw [countAs, passersBy, List.countP_map, List.count, List.countP_map]
    refine List.countP_congr fun n _ => ?_
    simp only [Function.comp_apply, denyOf, nameOf_passerBy, decide_eq_true_eq, beq_iff_eq]
  have hnodup : ((List.range k).map passerBy).Nodup := by
    refine List.Nodup.map ?_ List.nodup_range
    intro m n h
    have hl := congrArg (fun s => s.toList.length) h
    simpa [passerBy] using hl
  rw [hcount]
  exact List.nodup_iff_count_le_one.mp hnodup name

theorem countOf_burst : 25 ≤ countOf "mallory" (window spikeSettings (passersBy k++burst)) := by
  rw [window_burst, countOf, List.countP_append]
  refine Nat.le_add_left_of_le ?_
  decide

end Burst

/-- Twenty-five denies of one actor within the window, and the check does not fail. -/
theorem deny_spike_hidden :
    Page spikeSettings.filters 1000 (passersBy 1000++burst) (passersBy 1000) ∧
      25 ≤ countOf "mallory" (window spikeSettings (passersBy 1000++burst)) ∧
      ∃ r, checkPolicyDenySpike (fun _ => "") spikeSettings
        ⟨200, "", some (eventsBody toString (passersBy 1000))⟩=some r ∧ r.status≠.fail := by
  refine ⟨page_burst rfl, countOf_burst, ?_⟩
  have hcheck : ∃ r, checkPolicyDenySpike (fun _ => "") spikeSettings
      ⟨200, "", some (eventsBody toString (passersBy 1000))⟩=some r ∧
      (r.status=.fail ↔ ∃ name, spikeSettings.threshold ≤ countAs name (passersBy 1000)) :=
    fail_iff (by decide) (by decide) ""
  obtain ⟨r, hr, hfail⟩ := hcheck
  refine ⟨r, hr, fun h => ?_⟩
  obtain ⟨name, hname⟩ := hfail.mp h
  have hone := countAs_passersBy (k := 1000) name
  have hthreshold : spikeSettings.threshold=25 := rfl
  omega

/-- Twenty-five denies of one actor and nothing else. -/
theorem deny_spike_iff_burst : ∃ r, checkPolicyDenySpike (fun _ => "") spikeSettings
    ⟨200, "", some (eventsBody toString burst)⟩=some r ∧ r.status=.fail := by
  have hwindow : window spikeSettings burst=burst := window_burst (k := 0)
  have hpage : Page spikeSettings.filters 1000 burst burst :=
    ⟨burst, List.Perm.of_eq hwindow.symm, List.pairwise_replicate.mpr (Or.inr (le_refl _)),
      (List.take_of_length_le (by decide)).symm⟩
  obtain ⟨r, hr, hiff⟩ := deny_spike_iff (fun _ => "") toString spikeSettings burst burst ""
    (by decide) (by decide) hpage
  have hmallory : spikeSettings.threshold ≤ countOf "mallory" (window spikeSettings burst) := by
    rw [hwindow]
    decide
  refine ⟨r, hr, (hiff.mpr ⟨?_, ?_⟩).mpr ⟨"mallory", hmallory⟩⟩
  · intro h
    exact absurd (h.2 "mallory") (by decide)
  · intro h
    exact absurd (h.1 "mallory") (not_lt.mpr hmallory)

end Sovereign.Monitor
