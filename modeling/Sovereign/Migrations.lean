import Sovereign.Dict
import Sovereign.Json
import Sovereign.Text

/-! Lazy migration of stored payloads: the registered steps from the version of a payload up to
the current one, and the stamp at the end. -/
namespace Sovereign.Migrations

abbrev Payload := Dict String Json

inductive Failure where
  | schemaMigration (detail : String)
  | raised (exc : String)
deriving DecidableEq

abbrev Step := Payload → Except Failure Payload

structure Registry where
  currentSchemaVersions : Dict String Int
  migrations : Dict String (Dict Int Step)

def Registry.step (reg : Registry) (kind : String) (version : Int) : Option Step :=
  (reg.migrations.get kind).bind fun steps => steps.get version

/-- The registry of a build with another current version of the kind. -/
def Registry.at (reg : Registry) (kind : String) (current : Int) : Registry :=
  { reg with currentSchemaVersions := reg.currentSchemaVersions.set kind current }

def registerMigration (reg : Registry) (kind : String) (fromVersion : Int) (fn : Step) : Registry :=
  let steps := ((reg.migrations.get kind).getD Dict.empty).set fromVersion fn
  { reg with migrations := reg.migrations.set kind steps }

def toInt : Json → Except Failure Int
  | .num q => .ok (q.num.tdiv q.den)
  | .bool b => .ok (if b then 1 else 0)
  | .str s =>
    match Text.pyInt s with
    | some n => .ok n
    | none => .error (.raised ("invalid literal for int() with base 10: '" ++ s ++ "'"))
  | _ => .error (.raised "int() argument must be a string, a bytes-like object or a real number")

def schemaVersion (raw : Payload) : Except Failure Int :=
  toInt ((raw.get "schema_version").getD (.num 1))

def upgrade (kind : String) (step : Int → Option Step) :
    Nat → Int → Payload → Except Failure Payload
  | 0, _, payload => .ok payload
  | left+1, version, payload =>
    match step version with
    | none => .error (.schemaMigration ("no migration registered for " ++ kind ++ " v" ++
        toString version ++ " -> v" ++ toString (version+1)))
    | some fn => (fn payload).bind (upgrade kind step left (version+1))

def stamp (payload : Payload) (current : Int) : Payload :=
  payload.set "schema_version" (.num current)

def migratePayload (reg : Registry) (kind : String) (raw : Payload) : Except Failure Payload :=
  match reg.currentSchemaVersions.get kind with
  | none => .error (.schemaMigration ("unknown record kind '" ++ kind ++ "'"))
  | some current =>
    (schemaVersion raw).bind fun version =>
      if current < version then
        .error (.schemaMigration (kind ++ " payload is schema v" ++ toString version ++
          " but this build only understands up to v" ++ toString current ++
          "; deploy the newer code first"))
      else
        (upgrade kind (reg.step kind) (current-version).toNat version raw).map
          fun payload => stamp payload current

/-! What a migration is: the steps of the versions, one after the other. -/

/-- The versions from `v` on, that many. -/
def versions : Int → Nat → List Int
  | _, 0 => []
  | v, n+1 => v::versions (v+1) n

def composed : List Step → Payload → Except Failure Payload
  | [], payload => .ok payload
  | fn::fns, payload => (fn payload).bind (composed fns)

/-- The steps registered for `v` up to, not including, `c`. -/
def Chain (reg : Registry) (kind : String) (v c : Int) (fns : List Step) : Prop :=
  List.Forall₂ (fun n fn => reg.step kind n=some fn) (versions v (c-v).toNat) fns

def NeverRaises (reg : Registry) (kind : String) : Prop :=
  ∀ n fn, reg.step kind n=some fn → ∀ payload, ∃ payload', fn payload=.ok payload'

def withoutVersion (payload : Payload) : Payload := payload.erase "schema_version"

/-- What the step makes of the rest of a payload does not depend on its schema version. -/
def Blind (fn : Step) : Prop :=
  ∀ p q, withoutVersion p=withoutVersion q →
    (fn p).map withoutVersion=(fn q).map withoutVersion

def SameResult : Except Failure Payload → Except Failure Payload → Prop
  | .ok p, .ok q => p.Same q
  | .error e, .error e' => e=e'
  | _, _ => False

theorem mem_versions {v n : Int} {k : Nat} : n∈versions v k ↔ v ≤ n ∧ n < v+k := by
  induction k generalizing v with
  | zero =>
    simp only [versions, List.not_mem_nil, false_iff]
    omega
  | succ k ih =>
    simp only [versions, List.mem_cons, ih]
    omega

section Upgrade
variable {kind : String} {step : Int → Option Step}

theorem bind_eq_ok_iff {α β : Type} {x : Except Failure α} {f : α → Except Failure β} {b : β} :
    x.bind f=.ok b ↔ ∃ a, x=.ok a ∧ f a=.ok b := by
  cases x with
  | error e => simp [Except.bind]
  | ok a => simp [Except.bind]

/-- The loop composes the registered steps. -/
theorem upgrade_eq_ok {n : Nat} {v : Int} {p r : Payload} :
    upgrade kind step n v p=.ok r ↔
      ∃ fns, List.Forall₂ (fun m fn => step m=some fn) (versions v n) fns ∧
        composed fns p=.ok r := by
  induction n generalizing v p with
  | zero =>
    constructor
    · exact fun h => ⟨[], List.Forall₂.nil, h⟩
    · intro h
      obtain ⟨fns, hreg, hrun⟩ := h
      cases hreg
      exact hrun
  | succ n ih =>
    rw [upgrade]
    constructor
    · intro h
      split at h
      · cases h
      · next fn hfn =>
        obtain ⟨q, hq, hrest⟩ := bind_eq_ok_iff.mp h
        obtain ⟨fns, hreg, hrun⟩ := ih.mp hrest
        exact ⟨fn::fns, List.Forall₂.cons hfn hreg, bind_eq_ok_iff.mpr ⟨q, hq, hrun⟩⟩
    · intro h
      obtain ⟨fns, hreg, hrun⟩ := h
      cases hreg with
      | cons hfn hreg =>
        obtain ⟨q, hq, hrest⟩ := bind_eq_ok_iff.mp hrun
        rw [hfn]
        exact bind_eq_ok_iff.mpr ⟨q, hq, ih.mpr ⟨_, hreg, hrest⟩⟩

theorem upgrade_add (m n : Nat) (v : Int) (p : Payload) : upgrade kind step (m+n) v p=
    (upgrade kind step m v p).bind (upgrade kind step n (v+m)) := by
  induction m generalizing v p with
  | zero => simp [upgrade, Except.bind]
  | succ m ih =>
    rw [Nat.succ_add, upgrade, upgrade]
    cases step v with
    | none => rfl
    | some fn =>
      dsimp only
      cases fn p with
      | error e => rfl
      | ok q =>
        have hv : v+1+(m : Int)=v+(m+1 : Nat) := by omega
        change upgrade kind step (m+n) (v+1) q=_
        rw [ih, hv]
        rfl

/-- Steps that do not look at the version do the same at every one. -/
theorem upgrade_blind (hblind : ∀ n fn, step n=some fn → Blind fn) (n : Nat) (v : Int)
    {p q : Payload} (h : withoutVersion p=withoutVersion q) :
    (upgrade kind step n v p).map withoutVersion=(upgrade kind step n v q).map withoutVersion := by
  induction n generalizing v p q with
  | zero => exact congrArg Except.ok h
  | succ n ih =>
    rw [upgrade, upgrade]
    cases hs : step v with
    | none => rfl
    | some fn =>
      have hstep := hblind v fn hs p q h
      dsimp only
      cases hp : fn p with
      | error e =>
        cases hq : fn q with
        | error e' =>
          rw [hp, hq] at hstep
          exact congrArg Except.error (Except.error.inj hstep)
        | ok q' =>
          rw [hp, hq] at hstep
          cases hstep
      | ok p' =>
        cases hq : fn q with
        | error e' =>
          rw [hp, hq] at hstep
          cases hstep
        | ok q' =>
          rw [hp, hq] at hstep
          exact ih (v+1) (Except.ok.inj hstep)

end Upgrade

section Stamp
variable {current : Int}

theorem schemaVersion_stamp (p : Payload) : schemaVersion (stamp p current)=.ok current := by
  rw [schemaVersion, stamp, Dict.get_set_self, Option.getD_some, toInt]
  simp

theorem withoutVersion_stamp (p : Payload) :
    withoutVersion (stamp p current)=withoutVersion p := Dict.erase_set p _ _

theorem stamp_stamp (p : Payload) : stamp (stamp p current) current=stamp p current :=
  Dict.set_of_get (Dict.get_set_self p _ _)

theorem same_stamp {x y : Except Failure Payload}
    (h : x.map withoutVersion=y.map withoutVersion) :
    SameResult (x.map (stamp · current)) (y.map (stamp · current)) := by
  cases x with
  | error e =>
    cases y with
    | error e' => exact Except.error.inj h
    | ok q => cases h
  | ok p =>
    cases y with
    | error e' => cases h
    | ok q => exact Dict.Same.set (Except.ok.inj h) _

end Stamp

section Laws
variable {reg : Registry} {kind : String} {raw r : Payload} {v : Int}

/-- Where a payload is migrated, and to what. -/
theorem migratePayload_eq_ok (hv : schemaVersion raw=.ok v) :
    migratePayload reg kind raw=.ok r ↔ ∃ c fns q, reg.currentSchemaVersions.get kind=some c ∧
      v ≤ c ∧ Chain reg kind v c fns ∧ composed fns raw=.ok q ∧ r=stamp q c := by
  rw [migratePayload]
  cases hc : reg.currentSchemaVersions.get kind with
  | none => simp
  | some c =>
    simp only [hv, Except.bind, Option.some.injEq]
    by_cases hlt : c < v
    · rw [if_pos hlt]
      simp only [reduceCtorEq, false_iff]
      intro h
      obtain ⟨c', fns, q, rfl, hle, _⟩ := h
      omega
    · rw [if_neg hlt]
      constructor
      · intro h
        cases hu : upgrade kind (reg.step kind) (c-v).toNat v raw with
        | error e =>
          rw [hu] at h
          cases h
        | ok q =>
          rw [hu] at h
          obtain ⟨fns, hreg, hrun⟩ := upgrade_eq_ok.mp hu
          exact ⟨c, fns, q, rfl, by omega, hreg, hrun, (Except.ok.inj h).symm⟩
      · intro h
        obtain ⟨c', fns, q, rfl, _, hreg, hrun, rfl⟩ := h
        rw [upgrade_eq_ok.mpr ⟨fns, hreg, hrun⟩]
        rfl

theorem chain_iff {c : Int} (hle : v ≤ c) : (∃ fns, Chain reg kind v c fns) ↔
    ∀ n, v ≤ n → n < c → (reg.step kind n).isSome=true := by
  have hmem (n : Int) : n∈versions v (c-v).toNat ↔ v ≤ n ∧ n < c := by
    rw [mem_versions]
    omega
  have hall : (∃ fns, Chain reg kind v c fns) ↔
      ∀ n∈versions v (c-v).toNat, (reg.step kind n).isSome=true := by
    simp only [Chain, Option.isSome_iff_exists]
    generalize versions v (c-v).toNat=ns
    induction ns with
    | nil => simp
    | cons n ns ih =>
      rw [List.forall_mem_cons, ← ih]
      constructor
      · intro h
        obtain ⟨fns, h⟩ := h
        cases h with
        | cons hfn hrest => exact ⟨⟨_, hfn⟩, _, hrest⟩
      · intro h
        obtain ⟨⟨fn, hfn⟩, fns, hrest⟩ := h
        exact ⟨fn::fns, List.Forall₂.cons hfn hrest⟩
  rw [hall]
  constructor
  · exact fun h n hv hc => h n ((hmem n).mpr ⟨hv, hc⟩)
  · exact fun h n hn => h n ((hmem n).mp hn).1 ((hmem n).mp hn).2

/-- Steps that never raise compose to one that never does. -/
theorem composed_returns (hn : NeverRaises reg kind) {ns : List Int} {fns : List Step}
    (h : List.Forall₂ (fun n fn => reg.step kind n=some fn) ns fns) (p : Payload) :
    ∃ q, composed fns p=.ok q := by
  induction h generalizing p with
  | nil => exact ⟨p, rfl⟩
  | cons hfn _ ih =>
    obtain ⟨p', hp⟩ := hn _ _ hfn p
    obtain ⟨q, hq⟩ := ih p'
    exact ⟨q, bind_eq_ok_iff.mpr ⟨p', hp, hq⟩⟩

theorem migratePayload_isOk (hv : schemaVersion raw=.ok v) (hn : NeverRaises reg kind) :
    (∃ r, migratePayload reg kind raw=.ok r) ↔
      ∃ c, reg.currentSchemaVersions.get kind=some c ∧ v ≤ c ∧
        ∀ n, v ≤ n → n < c → (reg.step kind n).isSome=true := by
  constructor
  · intro h
    obtain ⟨r, hr⟩ := h
    obtain ⟨c, fns, q, hc, hle, hchain, _⟩ := (migratePayload_eq_ok hv).mp hr
    exact ⟨c, hc, hle, (chain_iff hle).mp ⟨fns, hchain⟩⟩
  · intro h
    obtain ⟨c, hc, hle, hall⟩ := h
    obtain ⟨fns, hchain⟩ := (chain_iff hle).mpr hall
    obtain ⟨q, hq⟩ := composed_returns hn hchain raw
    exact ⟨stamp q c, (migratePayload_eq_ok hv).mpr ⟨c, fns, q, hc, hle, hchain, hq, rfl⟩⟩

theorem migratePayload_again (h : migratePayload reg kind raw=.ok r) :
    migratePayload reg kind r=.ok r := by
  have hv : ∃ v, schemaVersion raw=.ok v := by
    rw [migratePayload] at h
    cases hc : reg.currentSchemaVersions.get kind with
    | none =>
      rw [hc] at h
      cases h
    | some c =>
      rw [hc] at h
      obtain ⟨v, hv, _⟩ := bind_eq_ok_iff.mp h
      exact ⟨v, hv⟩
  obtain ⟨v, hv⟩ := hv
  obtain ⟨c, fns, q, hc, _, _, _, rfl⟩ := (migratePayload_eq_ok hv).mp h
  have hnone : Chain reg kind c c [] := by
    rw [Chain, sub_self]
    exact List.Forall₂.nil
  exact (migratePayload_eq_ok (schemaVersion_stamp q)).mpr
    ⟨c, [], stamp q c, hc, le_refl c, hnone, rfl, (stamp_stamp q).symm⟩

/-- A migration on the way to another one changes nothing in the end. -/
theorem migratePayload_staged (hv : schemaVersion raw=.ok v) {c c' : Int}
    (hc : reg.currentSchemaVersions.get kind=some c) (hlow : v ≤ c') (hhigh : c' ≤ c)
    (hblind : ∀ n fn, reg.step kind n=some fn → Blind fn) :
    SameResult ((migratePayload (reg.at kind c') kind raw).bind (migratePayload reg kind))
      (migratePayload reg kind raw) := by
  have hc' : (reg.at kind c').currentSchemaVersions.get kind=some c' := Dict.get_set_self _ _ _
  have hsteps : (reg.at kind c').step=reg.step := rfl
  have hsplit : (c-v).toNat=(c'-v).toNat+(c-c').toNat := by omega
  have hstart : v+((c'-v).toNat : Int)=c' := by omega
  have hdirect : migratePayload reg kind raw=
      ((upgrade kind (reg.step kind) (c'-v).toNat v raw).bind
        (upgrade kind (reg.step kind) (c-c').toNat c')).map (stamp · c) := by
    rw [migratePayload, hc]
    simp only [hv, Except.bind]
    rw [if_neg (by omega), hsplit, upgrade_add, hstart]
    rfl
  rw [hdirect, migratePayload, hc', hsteps]
  simp only [hv, Except.bind]
  rw [if_neg (by omega)]
  cases upgrade kind (reg.step kind) (c'-v).toNat v raw with
  | error e => exact rfl
  | ok p =>
    have hsecond : migratePayload reg kind (stamp p c')=
        (upgrade kind (reg.step kind) (c-c').toNat c' (stamp p c')).map (stamp · c) := by
      rw [migratePayload, hc]
      simp only [schemaVersion_stamp, Except.bind]
      rw [if_neg (by omega)]
    simp only [Except.map]
    rw [hsecond]
    exact same_stamp (upgrade_blind hblind _ _ (withoutVersion_stamp p))

theorem lazy_migration (reg : Registry) (kind : String) (raw : Payload) (v : Int)
    (hv : schemaVersion raw=.ok v) :
    (∀ r, migratePayload reg kind raw=.ok r ↔ ∃ c fns q,
      reg.currentSchemaVersions.get kind=some c ∧ v ≤ c ∧ Chain reg kind v c fns ∧
        composed fns raw=.ok q ∧ r=stamp q c) ∧
    (NeverRaises reg kind → ((∃ r, migratePayload reg kind raw=.ok r) ↔
      ∃ c, reg.currentSchemaVersions.get kind=some c ∧ v ≤ c ∧
        ∀ n, v ≤ n → n < c → (reg.step kind n).isSome=true)) ∧
    (∀ r, migratePayload reg kind raw=.ok r → migratePayload reg kind r=.ok r) ∧
    ∀ c c', reg.currentSchemaVersions.get kind=some c → v ≤ c' → c' ≤ c →
      (∀ n fn, reg.step kind n=some fn → Blind fn) →
      SameResult ((migratePayload (reg.at kind c') kind raw).bind (migratePayload reg kind))
        (migratePayload reg kind raw) := by
  refine ⟨fun r => migratePayload_eq_ok hv, fun hn => migratePayload_isOk hv hn,
    fun r h => migratePayload_again h, ?_⟩
  intro c c' hc hlow hhigh hblind
  exact migratePayload_staged hv hc hlow hhigh hblind

end Laws

/-! The build's own registry: one version of each kind, and no steps. -/

def shipped : Registry where
  currentSchemaVersions := Dict.ofList [("instance", 1), ("binding", 1)]
  migrations := Dict.empty

/-- A payload of the first version is stamped, and any other one refused. -/
theorem migratePayload_shipped {kind : String} (hk : kind∈["instance", "binding"])
    {raw r : Payload} {v : Int} (hv : schemaVersion raw=.ok v) :
    migratePayload shipped kind raw=.ok r ↔ v=1 ∧ r=stamp raw 1 := by
  have hc : shipped.currentSchemaVersions.get kind=some 1 := by
    simp only [List.mem_cons, List.not_mem_nil, or_false] at hk
    obtain rfl | rfl := hk
    · decide
    · decide
  rw [migratePayload_eq_ok hv, hc]
  constructor
  · intro h
    obtain ⟨c, fns, q, he, hle, hchain, hrun, hr⟩ := h
    obtain rfl := Option.some.inj he
    have hall := (chain_iff hle).mp ⟨fns, hchain⟩
    obtain rfl : v=1 := by
      by_contra hne
      have hnone : shipped.step kind v=none := rfl
      have hsome := hall v (le_refl v) (by omega)
      rw [hnone] at hsome
      cases hsome
    cases hchain
    cases hrun
    exact ⟨rfl, hr⟩
  · intro h
    obtain ⟨rfl, hr⟩ := h
    exact ⟨1, [], raw, rfl, le_refl 1, List.Forall₂.nil, rfl, hr⟩

def adding (name : String) (x : Json) : Step := fun payload => .ok (payload.set name x)

theorem blind_adding {name : String} (h : name≠"schema_version") (x : Json) :
    Blind (adding name x) := by
  intro p q hpq
  have hset (d : Payload) : withoutVersion (d.set name x)=(withoutVersion d).set name x :=
    Dict.erase_set_of_ne d x h.symm
  simp only [adding, Except.map, hset, hpq]

def widgets : Registry :=
  registerMigration (registerMigration
    { currentSchemaVersions := Dict.ofList [("widget", 3)], migrations := Dict.empty }
    "widget" 1 (adding "b" (.num 1))) "widget" 2 (adding "c" (.num 1))

def firstWidget : Payload := Dict.ofList [("a", .num 1)]

theorem widgets_step (n : Int) : widgets.step "widget" n=
    if n=2 then some (adding "c" (.num 1))
    else if n=1 then some (adding "b" (.num 1)) else none := by
  simp only [widgets, registerMigration, Registry.step, Dict.get_set_self, Option.getD_some,
    Option.bind_some, Dict.get_set, Dict.get_empty, Option.getD_none]

theorem lazy_migration_widget :
    migratePayload widgets "widget" firstWidget=.ok (Dict.ofList
      [("a", .num 1), ("b", .num 1), ("c", .num 1), ("schema_version", .num 3)]) ∧
    SameResult ((migratePayload (widgets.at "widget" 2) "widget" firstWidget).bind
      (migratePayload widgets "widget")) (migratePayload widgets "widget" firstWidget) := by
  have h := lazy_migration widgets "widget" firstWidget 1 (by decide +kernel)
  have hblind : ∀ n fn, widgets.step "widget" n=some fn → Blind fn := by
    intro n fn hfn
    rw [widgets_step] at hfn
    split at hfn
    · cases hfn
      exact blind_adding (by decide) _
    · split at hfn
      · cases hfn
        exact blind_adding (by decide) _
      · cases hfn
  have hchain : Chain widgets "widget" 1 3 [adding "b" (.num 1), adding "c" (.num 1)] :=
    List.Forall₂.cons (widgets_step 1) (List.Forall₂.cons (widgets_step 2) List.Forall₂.nil)
  refine ⟨(h.1 _).mpr ⟨3, _, _, by decide +kernel, by decide, hchain, rfl, by decide +kernel⟩, ?_⟩
  exact h.2.2.2 3 2 (by decide +kernel) (by decide) (by decide) hblind

end Sovereign.Migrations
