import Sovereign.ParamRules
import Sovereign.Policy

/-! `PolicyClient.evaluate`: what the client of the policy engine makes of its answer. -/
namespace Sovereign.PolicyClient
open Sovereign

/-- What becomes of the request: an `HTTPError`, or a response whose `json()` gives a value or
raises. Exceptions are their texts. -/
inductive Answer where
  | httpError (exc : String)
  | response (statusCode : Int) (json : Except String Json)

inductive Raised where
  | attributeError
  | typeError
  | validationError
deriving DecidableEq

/-- `attributeError` is what Python says of a body that has no `get`. -/
structure Client where
  baseUrl : String
  decisionPath : String
  failClosed : Bool := true
  post : String → Json → Answer
  attributeError : Json → String

def Client.answer (c : Client) (policyInput : Json) : Answer :=
  c.post (c.baseUrl ++ "/" ++ c.decisionPath) (.obj [("input", policyInput)])

def Client.unavailable (c : Client) (detail : String) : PolicyDecision :=
  if !c.failClosed then { allow := true, reason := "policy bypass: " ++ detail }
  else
    { allow := false
      reason := "policy engine unavailable: " ++ detail
      denies := ["policy engine unavailable: " ++ detail]
      matchedLayers := ["transport"] }

def undefinedDecision : PolicyDecision :=
  { allow := false
    reason := "policy decision undefined"
    denies := ["policy decision undefined (check sovereign.decision)"] }

/-- `bool(x)`. -/
def pyBool : Json → Bool
  | .null => false
  | .bool b => b
  | .num n => decide (n≠0)
  | .str s => decide (s≠"")
  | .arr xs => !xs.isEmpty
  | .obj ms => !ms.isEmpty

section Fields
variable (result : List (String × Json))

/-- `bool(result.get("allow", False))`. -/
def allowField : Bool := pyBool ((Json.lookup "allow" result).getD (.bool false))

/-- `list(result.get(name, []))`: a string gives its characters and an object its keys. -/
def listField (name : String) : Except Raised (List Json) :=
  match Json.lookup name result with
  | none => .ok []
  | some (.arr xs) => .ok xs
  | some (.str s) => .ok (s.toList.map fun c => .str (String.singleton c))
  | some (.obj ms) => .ok (ms.map fun m => .str m.1)
  | some _ => .error .typeError

def asStr : Json → Option String
  | .str s => some s
  | _ => none

def strings (e : Raised) (xs : List Json) : Except Raised (List String) :=
  match xs.mapM asStr with
  | some ss => .ok ss
  | none => .error e

/-- `"; ".join(denies) if denies else ""`. -/
def joined (denies : List Json) : Except Raised String :=
  if denies=[] then .ok "" else (strings .typeError denies).map (String.intercalate "; ")

end Fields

def decode : Json → Except Raised PolicyDecision
  | .obj result => do
    let denies ← listField result "denies"
    let matchedLayers ← listField result "matched_layers"
    let obligations ← listField result "obligations"
    let reason ← joined denies
    return {
      allow := allowField result
      reason
      denies := ← strings .validationError denies
      matchedLayers := ← strings .validationError matchedLayers
      obligations := ← strings .validationError obligations }
  | _ => .error .attributeError

def Client.evaluate (c : Client) (policyInput : Json) : Except Raised PolicyDecision :=
  match c.answer policyInput with
  | .httpError exc => .ok (c.unavailable ("transport error: " ++ exc))
  | .response statusCode json =>
    if statusCode≠200 then .ok (c.unavailable ("OPA returned " ++ toString statusCode))
    else match json with
    | .error exc => .ok (c.unavailable ("malformed response: " ++ exc))
    | .ok (.obj body) =>
      match Json.lookup "result" body with
      | none | some .null => .ok undefinedDecision
      | some result => decode result
    | .ok body => .ok (c.unavailable ("malformed response: " ++ c.attributeError body))

/-! What is asked of the client, and of the engine. -/

structure Grants (result : List (String × Json)) : Prop where
  allow : Json.lookup "allow" result=some (.bool true)
  denies : Json.lookup "denies" result∈[none, some (.arr []), some (.str ""), some (.obj [])]

def MayAllow (a : Answer) : Prop :=
  ∃ body result, a=.response 200 (.ok (.obj body)) ∧ Json.lookup "result" body=some (.obj result) ∧
    Grants result

structure Sound (a : Answer) (r : Except Raised PolicyDecision) : Prop where
  returns : ∃ d, r=.ok d
  allows : ∀ d, r=.ok d → d.allow=true → MayAllow a

/-- `list` and the decision take the field: it is absent, a string, an object or a list of
strings. -/
def Listed : Option Json → Prop
  | none | some (.str _) | some (.obj _) => True
  | some (.arr xs) => ∀ x∈xs, ∃ s, x=.str s
  | some _ => False

structure WellFormed (result : List (String × Json)) : Prop where
  allow : ∀ x, Json.lookup "allow" result=some x → pyBool x=true → Grants result
  denies : Listed (Json.lookup "denies" result)
  matchedLayers : Listed (Json.lookup "matched_layers" result)
  obligations : Listed (Json.lookup "obligations" result)

/-- What a body of status 200 says, if it says anything, is a decision. -/
def Decides (a : Answer) : Prop :=
  ∀ body result, a=.response 200 (.ok (.obj body)) → Json.lookup "result" body=some result →
    result≠.null → ∃ members, result=.obj members ∧ WellFormed members

section Field
variable {result : List (String × Json)}

@[simp] theorem asStr_eq_some_iff {x : Json} {s : String} : asStr x=some s ↔ x=.str s := by
  cases x <;> simp [asStr]

theorem strings_isOk_iff {e : Raised} {xs : List Json} :
    (∃ ss, strings e xs=.ok ss) ↔ ∀ x∈xs, ∃ s, x=.str s := by
  have hall : (∃ ss, xs.mapM asStr=some ss) ↔ ∀ x∈xs, ∃ s, asStr x=some s :=
    Traverse.mapM_isSome_iff
  simp only [asStr_eq_some_iff] at hall
  rw [← hall, strings]
  cases xs.mapM asStr with
  | none => simp
  | some ss => simp

theorem listed_iff {name : String} : Listed (Json.lookup name result) ↔
    ∃ xs, listField result name=.ok xs ∧ ∀ x∈xs, ∃ s, x=.str s := by
  rw [listField]
  cases Json.lookup name result with
  | none => simp [Listed]
  | some x =>
    cases x with
    | str s => simp [Listed]
    | obj members =>
      refine iff_of_true trivial ⟨_, rfl, ?_⟩
      intro x hx
      obtain ⟨m, _, rfl⟩ := List.mem_map.mp hx
      exact ⟨m.1, rfl⟩
    | arr xs => simp [Listed]
    | null => simp [Listed]
    | bool b => simp [Listed]
    | num n => simp [Listed]

theorem joined_isOk {denies : List Json} (h : ∀ x∈denies, ∃ s, x=.str s) :
    ∃ reason, joined denies=.ok reason := by
  rw [joined]
  split
  · exact ⟨_, rfl⟩
  · obtain ⟨ss, hs⟩ := strings_isOk_iff (e := .typeError).mpr h
    exact ⟨_, by rw [hs]; rfl⟩

/-- A grant is read as one. -/
theorem Grants.allowField (h : Grants result) : allowField result=true := by
  rw [PolicyClient.allowField, h.allow]
  rfl

theorem allowField_eq_true : allowField result=true ↔
    ∃ x, Json.lookup "allow" result=some x ∧ pyBool x=true := by
  rw [allowField]
  cases Json.lookup "allow" result with
  | none => simp [pyBool]
  | some x => simp

/-- What is decoded allows what the answer does, and was well formed. -/
theorem decode_eq_ok {d : PolicyDecision} (h : decode (.obj result)=.ok d) :
    d.allow=allowField result ∧ Listed (Json.lookup "denies" result) ∧
      Listed (Json.lookup "matched_layers" result) ∧ Listed (Json.lookup "obligations" result) := by
  obtain ⟨denies, hd, h⟩ := Packs.bind_eq_ok h
  obtain ⟨layers, hl, h⟩ := Packs.bind_eq_ok h
  obtain ⟨obligations, ho, h⟩ := Packs.bind_eq_ok h
  obtain ⟨reason, _, h⟩ := Packs.bind_eq_ok h
  obtain ⟨ds, hds, h⟩ := Packs.bind_eq_ok h
  obtain ⟨ls, hls, h⟩ := Packs.bind_eq_ok h
  obtain ⟨os, hos, h⟩ := Packs.bind_eq_ok h
  refine ⟨?_, ?_, ?_, ?_⟩
  · rw [← Except.ok.inj h]
  · exact listed_iff.mpr ⟨denies, hd, strings_isOk_iff.mp ⟨ds, hds⟩⟩
  · exact listed_iff.mpr ⟨layers, hl, strings_isOk_iff.mp ⟨ls, hls⟩⟩
  · exact listed_iff.mpr ⟨obligations, ho, strings_isOk_iff.mp ⟨os, hos⟩⟩

theorem decode_isOk (hd : Listed (Json.lookup "denies" result))
    (hl : Listed (Json.lookup "matched_layers" result))
    (ho : Listed (Json.lookup "obligations" result)) : ∃ d, decode (.obj result)=.ok d := by
  obtain ⟨denies, hd, hds⟩ := listed_iff.mp hd
  obtain ⟨layers, hl, hls⟩ := listed_iff.mp hl
  obtain ⟨obligations, ho, hos⟩ := listed_iff.mp ho
  obtain ⟨reason, hr⟩ := joined_isOk hds
  obtain ⟨ds, hds⟩ := strings_isOk_iff (e := .validationError).mpr hds
  obtain ⟨ls, hls⟩ := strings_isOk_iff (e := .validationError).mpr hls
  obtain ⟨os, hos⟩ := strings_isOk_iff (e := .validationError).mpr hos
  exact Packs.bind_ok_iff.mpr ⟨denies, hd, Packs.bind_ok_iff.mpr ⟨layers, hl,
    Packs.bind_ok_iff.mpr ⟨obligations, ho, Packs.bind_ok_iff.mpr ⟨reason, hr,
      Packs.bind_ok_iff.mpr ⟨ds, hds, Packs.bind_ok_iff.mpr ⟨ls, hls,
        Packs.bind_ok_iff.mpr ⟨os, hos, _, rfl⟩⟩⟩⟩⟩⟩⟩

end Field

section Call
variable (c : Client) (policyInput : Json)

theorem evaluate_deny (hc : c.failClosed=true)
    (h : ∀ body result, c.answer policyInput=.response 200 (.ok (.obj body)) →
      Json.lookup "result" body=some result → result=.null) :
    ∃ d, c.evaluate policyInput=.ok d ∧ d.allow=false := by
  have hdown : ∀ detail, (c.unavailable detail).allow=false := by
    intro detail
    rw [Client.unavailable, hc]
    rfl
  rw [Client.evaluate]
  cases ha : c.answer policyInput with
  | httpError exc => exact ⟨_, rfl, hdown _⟩
  | response statusCode json =>
    dsimp only
    split
    · exact ⟨_, rfl, hdown _⟩
    · next hs =>
      cases json with
      | error exc => exact ⟨_, rfl, hdown _⟩
      | ok body =>
        cases body with
        | obj body =>
          rw [Decidable.not_not.mp hs] at ha
          dsimp only
          cases hr : Json.lookup "result" body with
          | none => exact ⟨_, rfl, rfl⟩
          | some result =>
            rw [h body result ha hr]
            exact ⟨_, rfl, rfl⟩
        | _ => exact ⟨_, rfl, hdown _⟩

theorem evaluate_decode {body : List (String × Json)} {result : Json}
    (ha : c.answer policyInput=.response 200 (.ok (.obj body)))
    (hr : Json.lookup "result" body=some result) (hn : result≠.null) :
    c.evaluate policyInput=decode result := by
  rw [Client.evaluate, ha]
  dsimp only
  rw [if_neg (by decide), hr]
  cases result with
  | null => exact absurd rfl hn
  | _ => rfl

def decisionDoc (d : PolicyDecision) : Json :=
  .obj [("allow", .bool d.allow), ("denies", .arr (d.denies.map .str)),
    ("matched_layers", .arr (d.matchedLayers.map .str)),
    ("obligations", .arr (d.obligations.map .str))]

theorem strings_map_str (e : Raised) (ss : List String) : strings e (ss.map .str)=.ok ss := by
  have hall : (ss.map Json.str).mapM asStr=some ss := by
    rw [Traverse.mapM_eq_some_iff, List.forall₂_map_left_iff]
    exact List.forall₂_same.mpr fun s _ => rfl
  rw [strings, hall]

theorem joined_map_str (ss : List String) :
    joined (ss.map .str)=.ok (String.intercalate "; " ss) := by
  rw [joined, strings_map_str]
  split
  · next h => rw [List.map_eq_nil_iff.mp h]; rfl
  · rfl

/-- What the bundle decides is what the client returns. -/
theorem evaluate_decision (sprintf : String → List Json → String) (layers : Policy.Layers)
    (h : c.answer policyInput=.response 200 (.ok (.obj
      [("result", decisionDoc (Policy.decision sprintf layers policyInput))]))) :
    c.evaluate policyInput=.ok (Policy.decision sprintf layers policyInput) := by
  generalize hd : Policy.decision sprintf layers policyInput=d at h ⊢
  have hreason : d.reason=String.intercalate "; " d.denies := by
    rw [← hd]
    rfl
  rw [evaluate_decode c policyInput h rfl (by rw [decisionDoc]; exact Json.noConfusion)]
  simp [decisionDoc, decode, listField, Json.lookup, joined_map_str, strings_map_str, allowField,
    pyBool, bind, Except.bind, pure, Except.pure, ← hreason]

theorem Sound.of_denied {a : Answer} {r : Except Raised PolicyDecision}
    (h : ∃ d, r=.ok d ∧ d.allow=false) : Sound a r := by
  obtain ⟨d, hd, hdeny⟩ := h
  refine ⟨⟨d, hd⟩, ?_⟩
  intro d' hd' hallow
  rw [hd] at hd'
  cases hd'
  rw [hdeny] at hallow
  cases hallow

/-- The client is sound exactly when what the engine decides is well formed. -/
theorem evaluate_sound_iff (hc : c.failClosed=true) :
    Sound (c.answer policyInput) (c.evaluate policyInput) ↔ Decides (c.answer policyInput) := by
  constructor
  · intro hsound body result ha hr hn
    obtain ⟨d, hd⟩ := hsound.returns
    have hdecode := evaluate_decode c policyInput ha hr hn
    rw [hdecode] at hd
    cases result with
    | obj members =>
      obtain ⟨hallow, hdenies, hlayers, hobligations⟩ := decode_eq_ok hd
      refine ⟨members, rfl, ?_, hdenies, hlayers, hobligations⟩
      intro x hx htrue
      rw [allowField_eq_true.mpr ⟨x, hx, htrue⟩] at hallow
      obtain ⟨body', result', ha', hr', hgrants⟩ := hsound.allows d (hdecode.trans hd) hallow
      rw [ha] at ha'
      cases ha'
      rw [hr] at hr'
      cases hr'
      exact hgrants
    | _ => cases hd
  · intro hdecides
    by_cases hnone : ∀ body result, c.answer policyInput=.response 200 (.ok (.obj body)) →
        Json.lookup "result" body=some result → result=.null
    · exact Sound.of_denied (evaluate_deny c policyInput hc hnone)
    · push Not at hnone
      obtain ⟨body, result, ha, hr, hn⟩ := hnone
      obtain ⟨members, rfl, hwell⟩ := hdecides body result ha hr hn
      rw [evaluate_decode c policyInput ha hr hn]
      refine ⟨decode_isOk hwell.denies hwell.matchedLayers hwell.obligations, ?_⟩
      intro d hd hallow
      rw [(decode_eq_ok hd).1] at hallow
      obtain ⟨x, hx, htrue⟩ := allowField_eq_true.mp hallow
      exact ⟨body, members, ha, hr, hwell.allow x hx htrue⟩

end Call

def client (a : Answer) : Client :=
  { baseUrl := "http://opa:8181", decisionPath := "v1/data/sovereign/decision"
    post := fun _ _ => a, attributeError := fun _ => "no attribute 'get'" }

def answerOf (result : Json) : Answer := .response 200 (.ok (.obj [("result", result)]))

theorem decides_answerOf_iff {result : Json} (hn : result≠.null) :
    Decides (answerOf result) ↔ ∃ members, result=.obj members ∧ WellFormed members := by
  constructor
  · exact fun h => h _ result rfl rfl hn
  · intro h body result' ha hr _
    cases ha
    cases hr
    exact h

theorem evaluate_sound_allow :
    Sound (answerOf (.obj [("allow", .bool true), ("denies", .arr [])]))
      ((client (answerOf (.obj [("allow", .bool true), ("denies", .arr [])]))).evaluate
        (.obj [])) := by
  refine (evaluate_sound_iff (client _) (.obj []) rfl).mpr
    ((decides_answerOf_iff (by exact Json.noConfusion)).mpr ⟨_, rfl, ?_, ?_, ?_, ?_⟩)
  · exact fun _ _ _ => ⟨rfl, by simp [Json.lookup]⟩
  · exact fun x hx => absurd hx List.not_mem_nil
  · trivial
  · trivial

theorem not_sound_of_error {a : Answer} {r : Except Raised PolicyDecision} {e : Raised}
    (h : r=.error e) : ¬ Sound a r := by
  intro hs
  obtain ⟨d, hd⟩ := hs.returns
  rw [h] at hd
  cases hd

theorem not_sound_of_allow {result : List (String × Json)} {r : Except Raised PolicyDecision}
    {d : PolicyDecision} (h : r=.ok d) (hd : d.allow=true) (hn : ¬ Grants result) :
    ¬ Sound (answerOf (.obj result)) r := by
  intro hs
  obtain ⟨body, result', ha, hr, hg⟩ := hs.allows d h hd
  cases ha
  cases hr
  exact hn hg

/-- A rule that is no object and denies that are `null` raise; a string and denies beside `true`
open the gate. -/
theorem evaluate_unsound :
    (client (answerOf (.bool true))).evaluate (.obj [])=.error .attributeError ∧
    (client (answerOf (.obj [("allow", .bool true), ("denies", .null)]))).evaluate (.obj [])=
      .error .typeError ∧
    (client (answerOf (.obj [("allow", .str "false")]))).evaluate (.obj [])=
      .ok { allow := true } ∧
    (client (answerOf (.obj [("allow", .bool true), ("denies", .arr [.str "SC-8"])]))).evaluate
      (.obj [])=.ok { allow := true, reason := "SC-8", denies := ["SC-8"] } ∧
    ∀ result∈[Json.bool true, .obj [("allow", .bool true), ("denies", .null)],
        .obj [("allow", .str "false")],
        .obj [("allow", .bool true), ("denies", .arr [.str "SC-8"])]],
      ¬ Sound (answerOf result) ((client (answerOf result)).evaluate (.obj [])) := by
  have hrule : (client (answerOf (.bool true))).evaluate (.obj [])=.error .attributeError := rfl
  have hnull : (client (answerOf (.obj [("allow", .bool true), ("denies", .null)]))).evaluate
      (.obj [])=.error .typeError := rfl
  have htext : (client (answerOf (.obj [("allow", .str "false")]))).evaluate (.obj [])=
      .ok { allow := true } := rfl
  have hdenies : (client (answerOf (.obj [("allow", .bool true),
      ("denies", .arr [.str "SC-8"])]))).evaluate (.obj [])=
        .ok { allow := true, reason := "SC-8", denies := ["SC-8"] } := rfl
  refine ⟨hrule, hnull, htext, hdenies, ?_⟩
  simp only [List.forall_mem_cons]
  refine ⟨not_sound_of_error hrule, not_sound_of_error hnull, ?_, ?_, by simp⟩
  · exact not_sound_of_allow htext rfl fun h => absurd h.allow (by decide)
  · exact not_sound_of_allow hdenies rfl fun h => absurd h.denies (by decide)

end Sovereign.PolicyClient
